import CnPropertyAgent.Relational.Table

/-!
Calls that are made at least once.

A call may be cut short, any number of times, before it is made as a whole; and the last
calls, however many, may be made again, cut short or not, from any of them on. Where a call
that is cut short writes the first of what the whole call writes, and writing something again
right away changes nothing, such a history leaves what making each call once would have left
(`Log.write_of_delivered`).
-/

namespace Relational

variable {σ τ α β ω : Type}

/-- A call as it is made: as a whole, or stopped after so many statements. -/
inductive Made (α : Type) where
  | whole (c : α)
  | cut (statements : Nat) (c : α)

namespace Made

def call : Made α → α
  | whole c => c
  | cut _ c => c

/-- Another call, made in the same way. -/
def as (m : Made α) (c : β) : Made β :=
  match m with
  | whole _ => whole c
  | cut statements _ => cut statements c

@[simp] theorem call_whole (c : α) : (whole c).call = c := rfl

@[simp] theorem call_cut (k : Nat) (c : α) : (cut k c).call = c := rfl

end Made

/-! ### Histories -/

/-- An attempt at the calls that stops inside one of them. -/
inductive Attempt : List α → List (Made α) → Prop
  | stops (done : List α) (c : α) (rest : List α) (statements : Nat) :
      Attempt (done ++ c :: rest) (done.map .whole ++ [.cut statements c])

/-- Attempts at the calls, one after another. -/
inductive Attempts (calls : List α) : List (Made α) → Prop
  | none : Attempts calls []
  | more {made tried : List (Made α)} (before : Attempts calls made) (last : Attempt calls tried) :
      Attempts calls (made ++ tried)

/-- The calls have been made at least once each, in their order. -/
inductive Delivered : List (Made α) → List α → Prop
  | none : Delivered [] []
  /-- The next call, after attempts at it. -/
  | call {made tried : List (Made α)} {calls : List α} (c : α) (before : Delivered made calls)
      (attempts : Attempts [c] tried) : Delivered (made ++ tried ++ [.whole c]) (calls ++ [c])
  /-- The last calls once more, after attempts at them. -/
  | again {made tried : List (Made α)} (done rest : List α) (before : Delivered made (done ++ rest))
      (attempts : Attempts rest tried) : Delivered (made ++ tried ++ rest.map .whole) (done ++ rest)

/-- Nothing is made but attempts at the calls. -/
theorem Attempts.call_mem {calls : List α} {made : List (Made α)} (tried : Attempts calls made) :
    ∀ m ∈ made, m.call ∈ calls := by
  induction tried with
  | none => exact fun m mem => absurd mem List.not_mem_nil
  | more _ last ih =>
      intro m mem
      rcases List.mem_append.mp mem with before | inLast
      · exact ih m before
      · cases last with
        | stops done c rest statements =>
            rcases List.mem_append.mp inLast with early | stopped
            · obtain ⟨c', hc', rfl⟩ := List.mem_map.mp early
              exact List.mem_append_left _ hc'
            · rw [List.mem_singleton.mp stopped]
              exact List.mem_append_right done List.mem_cons_self

theorem Delivered.call_mem {made : List (Made α)} {calls : List α} (delivered : Delivered made calls) :
    ∀ m ∈ made, m.call ∈ calls := by
  induction delivered with
  | none => exact fun m mem => absurd mem List.not_mem_nil
  | @call made tried calls c _ attempts ih =>
      intro m mem
      rcases List.mem_append.mp mem with earlier | last
      · rcases List.mem_append.mp earlier with before | attempt
        · exact List.mem_append_left [c] (ih m before)
        · exact List.mem_append_right calls (attempts.call_mem m attempt)
      · rw [List.mem_singleton.mp last]
        exact List.mem_append_right calls List.mem_cons_self
  | @again made tried done rest _ attempts ih =>
      intro m mem
      rcases List.mem_append.mp mem with earlier | last
      · rcases List.mem_append.mp earlier with before | attempt
        · exact ih m before
        · exact List.mem_append_right done (attempts.call_mem m attempt)
      · obtain ⟨c, hc, rfl⟩ := List.mem_map.mp last
        exact List.mem_append_right done hc

/-! ### Logs -/

/-- A way to write entries one after another, in which a sequence of entries has no effect right
after itself. -/
structure Log (τ ω : Type) where
  write : τ → List ω → τ
  write_nil : ∀ t, write t [] = t
  write_append : ∀ t entries entries', write t (entries ++ entries') = write (write t entries) entries'
  write_again : ∀ t entries, write (write t entries) entries = write t entries

namespace Log

variable (log : Log τ ω) {entries : Made α → List ω}

/-- A part of the entries, from their start, is overtaken by all of them. -/
theorem write_of_prefix {part entries : List ω} (initial : part <+: entries) (t : τ) :
    log.write (log.write t part) entries = log.write t entries := by
  obtain ⟨rest, rfl⟩ := initial
  rw [log.write_append, log.write_again, log.write_append]

/-- What calls write that are made once each. -/
def once (entries : Made α → List ω) (calls : List α) : List ω := calls.flatMap fun c => entries (.whole c)

theorem once_append (calls calls' : List α) :
    once entries (calls ++ calls') = once entries calls ++ once entries calls' := List.flatMap_append

theorem flatMap_map_whole (calls : List α) : (calls.map Made.whole).flatMap entries = once entries calls :=
  List.flatMap_map _ _ _

/-- An attempt at calls writes the first of their entries. -/
theorem prefix_of_attempt (initial : ∀ k c, entries (.cut k c) <+: entries (.whole c)) {calls : List α}
    {made : List (Made α)} (tried : Attempt calls made) : made.flatMap entries <+: once entries calls := by
  cases tried with
  | stops done c rest statements =>
      obtain ⟨left, split⟩ := initial statements c
      refine ⟨left ++ once entries rest, ?_⟩
      rw [List.flatMap_append, flatMap_map_whole, List.flatMap_singleton, once_append, List.append_assoc,
        ← List.append_assoc _ left, split]
      rfl

/-- However a call is made, it writes nothing that the whole call does not. -/
theorem subset_whole (initial : ∀ k c, entries (.cut k c) <+: entries (.whole c)) (m : Made α) :
    ∀ u ∈ entries m, u ∈ entries (.whole m.call) := by
  cases m with
  | whole c => exact fun u mem => mem
  | cut k c => exact fun u mem => (initial k c).subset mem

/-- Attempts at calls are overtaken by the calls. -/
theorem write_of_attempts (initial : ∀ k c, entries (.cut k c) <+: entries (.whole c)) {calls : List α}
    {made : List (Made α)} (tried : Attempts calls made) (t : τ) :
    log.write (log.write t (made.flatMap entries)) (once entries calls) = log.write t (once entries calls) := by
  induction tried with
  | none => exact congrArg (log.write · _) (log.write_nil t)
  | more _ last ih =>
      rw [List.flatMap_append, log.write_append, log.write_of_prefix (prefix_of_attempt initial last), ih]

/-- **Delivery.** Calls that are made at least once write what making each of them once writes. -/
theorem write_of_delivered (initial : ∀ k c, entries (.cut k c) <+: entries (.whole c)) {calls : List α}
    {made : List (Made α)} (delivered : Delivered made calls) (t : τ) :
    log.write t (made.flatMap entries) = log.write t (once entries calls) := by
  induction delivered with
  | none => rfl
  | @call made tried calls c _ attempts ih =>
      have last := log.write_of_attempts initial attempts (log.write t (made.flatMap entries))
      rw [once, List.flatMap_singleton] at last
      rw [List.flatMap_append, List.flatMap_append, List.flatMap_singleton, log.write_append, log.write_append,
        last, ih, once_append, log.write_append, once, once, List.flatMap_singleton]
  | @again made tried done rest _ attempts ih =>
      rw [List.flatMap_append, List.flatMap_append, flatMap_map_whole, log.write_append, log.write_append,
        log.write_of_attempts initial attempts, ih, once_append, log.write_append, log.write_again]

end Log

/-- The entries of two logs, in one order. -/
def Log.both {τ' ω' : Type} (left : Log τ ω) (right : Log τ' ω') : Log (τ × τ') (ω ⊕ ω') where
  write t entries :=
    (left.write t.1 (entries.filterMap Sum.getLeft?), right.write t.2 (entries.filterMap Sum.getRight?))
  write_nil t := Prod.ext (left.write_nil t.1) (right.write_nil t.2)
  write_append t entries entries' := by
    rw [List.filterMap_append, List.filterMap_append, left.write_append, right.write_append]
  write_again t entries := Prod.ext (left.write_again t.1 _) (right.write_again t.2 _)

variable {κ ρ : Type} [DecidableEq κ] {key : ρ → κ}

/-- The upserts of a table. -/
def Table.log {c : OnConflict key} (band : Table.Band c) : Log (Table key) ρ where
  write t rows := t.upsertAll c rows
  write_nil := Table.upsertAll_nil
  write_append := Table.upsertAll_append
  write_again := Table.upsertAll_upsertAll band

/-! ### Services -/

/-- What a call makes of a state, in whatever way it is made. -/
abbrev Service (σ α : Type) := σ → Made α → σ

/-- What the calls make of it, one after another. -/
def Service.makeAll (service : Service σ α) (made : List (Made α)) (s : σ) : σ := made.foldl service s

/-- Where the invariant holds, a call keeps it and writes its entries to what is seen of the state;
cut short, it writes the first of them. -/
structure Logs (service : Service σ α) (inv : σ → Prop) (view : σ → τ) (log : Log τ ω)
    (entries : Made α → List ω) : Prop where
  injective : Function.Injective view
  make : ∀ s m, inv s → inv (service s m) ∧ view (service s m) = log.write (view s) (entries m)
  initial : ∀ k c, entries (.cut k c) <+: entries (.whole c)

namespace Logs

variable {service : Service σ α} {inv : σ → Prop} {view : σ → τ} {log : Log τ ω} {entries : Made α → List ω}

theorem makeAll (logs : Logs service inv view log entries) (made : List (Made α)) {s : σ} (holds : inv s) :
    inv (service.makeAll made s) ∧
      view (service.makeAll made s) = log.write (view s) (made.flatMap entries) := by
  induction made generalizing s with
  | nil => exact ⟨holds, (log.write_nil _).symm⟩
  | cons m made ih =>
      obtain ⟨kept, wrote⟩ := logs.make s m holds
      obtain ⟨kept', wrote'⟩ := ih kept
      refine ⟨kept', ?_⟩
      rw [List.flatMap_cons, log.write_append, ← wrote]
      exact wrote'

/-- **Delivery.** Calls that have been made at least once have left what making each of them once
leaves. -/
theorem delivered_eq (logs : Logs service inv view log entries) {made : List (Made α)} {calls : List α} {s : σ}
    (holds : inv s) (delivered : Delivered made calls) :
    service.makeAll made s = service.makeAll (calls.map .whole) s := by
  apply logs.injective
  rw [(logs.makeAll made holds).2, (logs.makeAll _ holds).2, log.write_of_delivered logs.initial delivered,
    Log.flatMap_map_whole]

end Logs

end Relational
