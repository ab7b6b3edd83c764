import Mathlib.Data.List.Induction
import Mathlib.Data.List.Perm.Basic
import Mathlib.Tactic.Common

/-!
Statements that commit one by one.

A call leaves a state behind whether it returns or raises, so its outcome is the
state together with the result. A loop over such calls keeps what the earlier
passes wrote when a later one raises. `forEach_rule` is the rule for such loops:
an invariant over the items already done, and a condition that holds where the
loop is left by an exception.
-/

namespace Relational

variable {σ ε α β : Type}

/-- What a call leaves behind, and what it returns or raises. -/
structure Outcome (σ ε α : Type) where
  state : σ
  result : Except ε α

/-- A pair of postconditions, for returning and for raising. -/
def Outcome.Satisfies (o : Outcome σ ε α) (returns : α → σ → Prop) (raises : ε → σ → Prop) : Prop :=
  match o.result with
  | .ok a => returns a o.state
  | .error e => raises e o.state

namespace Outcome

variable {o : Outcome σ ε α} {returns returns' : α → σ → Prop} {raises raises' : ε → σ → Prop}

/-- A call that returned, by its state and its result. -/
theorem exists_of_isOk (h : o.result.isOk = true) : ∃ s a, o = ⟨s, .ok a⟩ := by
  obtain ⟨s, result⟩ := o
  cases result with
  | error e => cases h
  | ok a => exact ⟨s, a, rfl⟩

theorem Satisfies.mono (h : o.Satisfies returns raises) (hr : ∀ a s, returns a s → returns' a s)
    (he : ∀ e s, raises e s → raises' e s) : o.Satisfies returns' raises' := by
  unfold Satisfies at *
  split <;> simp_all

@[simp] theorem satisfies_ok {s : σ} {a : α} :
    (⟨s, .ok a⟩ : Outcome σ ε α).Satisfies returns raises ↔ returns a s := Iff.rfl

@[simp] theorem satisfies_error {s : σ} {e : ε} :
    (⟨s, .error e⟩ : Outcome σ ε α).Satisfies returns raises ↔ raises e s := Iff.rfl

end Outcome

/-- A `for` loop with an accumulator around a body that can raise. -/
def forEach (body : σ → β → α → Outcome σ ε β) (s : σ) (b : β) : List α → Outcome σ ε β
  | [] => ⟨s, .ok b⟩
  | x :: rest =>
      match body s b x with
      | ⟨s', .ok b'⟩ => forEach body s' b' rest
      | ⟨s', .error e⟩ => ⟨s', .error e⟩

section Rule

variable {body : σ → β → α → Outcome σ ε β} {I : List α → β → σ → Prop} {E : ε → σ → Prop}

theorem forEach_rule_from {xs : List α}
    (step : ∀ done x rest b s, xs = done ++ x :: rest → I done b s →
      (body s b x).Satisfies (I (done ++ [x])) E) :
    ∀ rest done b s, xs = done ++ rest → I done b s → (forEach body s b rest).Satisfies (I xs) E
  | [], done, b, s, split, inv => by
      rw [List.append_nil] at split
      exact split ▸ inv
  | x :: rest, done, b, s, split, inv => by
      have pass := step done x rest b s split inv
      unfold forEach
      cases h : body s b x with
      | mk s' result =>
          rw [h] at pass
          cases result with
          | error e => exact pass
          | ok b' => exact forEach_rule_from step rest (done ++ [x]) b' s' (by simp [split]) pass

/-- **The loop rule.** `I done` holds after the items `done`; where a pass raises,
`E` holds of what it left behind. -/
theorem forEach_rule {xs : List α} {b : β} {s : σ} (init : I [] b s)
    (step : ∀ done x rest b s, xs = done ++ x :: rest → I done b s →
      (body s b x).Satisfies (I (done ++ [x])) E) :
    (forEach body s b xs).Satisfies (I xs) E :=
  forEach_rule_from step xs [] b s rfl init

end Rule

/-! ### Statements without an accumulator -/

/-- One statement after another, up to the first that is refused. -/
def runAll (exec : σ → α → Except ε σ) (s : σ) (xs : List α) : Except ε σ := xs.foldlM exec s

section RunAll

variable {exec : σ → α → Except ε σ}

@[simp] theorem runAll_nil (s : σ) : runAll exec s [] = .ok s := rfl

theorem runAll_cons (s : σ) (x : α) (xs : List α) :
    runAll exec s (x :: xs) = (exec s x).bind fun s' => runAll exec s' xs := rfl

theorem runAll_append (s : σ) (xs ys : List α) :
    runAll exec s (xs ++ ys) = (runAll exec s xs).bind fun s' => runAll exec s' ys := by
  induction xs generalizing s with
  | nil => rfl
  | cons x xs ih =>
      rw [List.cons_append, runAll_cons, runAll_cons]
      cases exec s x with
      | error e => rfl
      | ok t => exact ih t

theorem runAll_singleton (s : σ) (x : α) : runAll exec s [x] = exec s x := by
  rw [runAll_cons]
  cases exec s x <;> rfl

theorem runAll_append_singleton (s : σ) (xs : List α) (x : α) :
    runAll exec s (xs ++ [x]) = (runAll exec s xs).bind fun s' => exec s' x := by
  simp only [runAll_append, runAll_singleton]

/-- Statements that each are a run of smaller ones. -/
theorem runAll_flatMap (exec : σ → β → Except ε σ) (parts : α → List β) (s : σ) (xs : List α) :
    runAll (fun s x => runAll exec s (parts x)) s xs = runAll exec s (xs.flatMap parts) := by
  induction xs generalizing s with
  | nil => rfl
  | cons x xs ih =>
      rw [runAll_cons, List.flatMap_cons, runAll_append]
      cases runAll exec s (parts x) with
      | error e => rfl
      | ok t => exact ih t

/-- The statements before a part of a run ran, and the part after them. -/
theorem exists_of_runAll_append {s t : σ} {xs ys : List α} (ran : runAll exec s (xs ++ ys) = .ok t) :
    ∃ between, runAll exec s xs = .ok between ∧ runAll exec between ys = .ok t := by
  rw [runAll_append] at ran
  cases first : runAll exec s xs with
  | error e => rw [first] at ran; cases ran
  | ok between =>
      rw [first] at ran
      exact ⟨between, rfl, ran⟩

/-- A refused statement ends the run, whatever comes after it. -/
theorem runAll_append_refused {done rest : List α} {x : α} {s s' : σ} {e : ε}
    (ran : runAll exec s done = .ok s') (refused : exec s' x = .error e) :
    runAll exec s (done ++ x :: rest) = .error e := by
  rw [runAll_append, ran]
  change runAll exec s' (x :: rest) = .error e
  rw [runAll_cons, refused]
  rfl

/-- What every statement preserves, a run preserves. -/
theorem runAll_invariant {P : σ → Prop} {xs : List α}
    (step : ∀ x ∈ xs, ∀ s s', P s → exec s x = .ok s' → P s') {s s' : σ} (init : P s)
    (ran : runAll exec s xs = .ok s') : P s' := by
  induction xs generalizing s with
  | nil => cases ran; exact init
  | cons x xs ih =>
      rw [runAll_cons] at ran
      cases next : exec s x with
      | error e => rw [next] at ran; cases ran
      | ok t =>
          rw [next] at ran
          exact ih (fun y hy => step y (List.mem_cons_of_mem x hy))
            (step x List.mem_cons_self s t init next) ran

/-- What a run leaves and how it ends: through, or at the first statement that is refused. -/
def runUntil (exec : σ → α → Except ε σ) (s : σ) : List α → Outcome σ ε Unit
  | [] => ⟨s, .ok ()⟩
  | x :: xs =>
      match exec s x with
      | .error e => ⟨s, .error e⟩
      | .ok s' => runUntil exec s' xs

theorem runUntil_append {done rest : List α} {s s' : σ} (ran : runAll exec s done = .ok s') :
    runUntil exec s (done ++ rest) = runUntil exec s' rest := by
  induction done generalizing s with
  | nil => cases ran; rfl
  | cons x done ih =>
      rw [runAll_cons] at ran
      obtain ⟨between, first, later⟩ : ∃ between, exec s x = .ok between ∧ runAll exec between done = .ok s' := by
        cases first : exec s x with
        | error e => rw [first] at ran; cases ran
        | ok between => rw [first] at ran; exact ⟨between, rfl, ran⟩
      rw [List.cons_append, runUntil, first]
      exact ih later

theorem runUntil_of_runAll {xs : List α} {s s' : σ} (ran : runAll exec s xs = .ok s') :
    runUntil exec s xs = ⟨s', .ok ()⟩ := by
  have through : runUntil exec s (xs ++ []) = _ := runUntil_append ran
  rwa [List.append_nil] at through

theorem runUntil_of_refused {done rest : List α} {x : α} {s s' : σ} {e : ε}
    (ran : runAll exec s done = .ok s') (refused : exec s' x = .error e) :
    runUntil exec s (done ++ x :: rest) = ⟨s', .error e⟩ := by
  rw [runUntil_append ran, runUntil, refused]

end RunAll

/-- A list goes on to the first element without the property. -/
theorem exists_takeWhile_append {p : α → Prop} [DecidablePred p] {xs : List α} (stops : ¬ ∀ x ∈ xs, p x) :
    ∃ done x rest, xs = done ++ x :: rest ∧ (xs.takeWhile fun x => p x) = done ∧ (∀ y ∈ done, p y) ∧ ¬ p x := by
  induction xs with
  | nil => exact absurd (List.forall_mem_nil _) stops
  | cons first xs ih =>
      by_cases holds : p first
      · have later : ¬ ∀ x ∈ xs, p x := fun all => stops (List.forall_mem_cons.mpr ⟨holds, all⟩)
        obtain ⟨done, x, rest, rfl, taken, before, fails⟩ := ih later
        refine ⟨first :: done, x, rest, rfl, ?_, List.forall_mem_cons.mpr ⟨holds, before⟩, fails⟩
        rw [List.takeWhile_cons_of_pos (by simpa using holds), taken]
      · exact ⟨[], first, xs, rfl, List.takeWhile_cons_of_neg (by simpa using holds), by simp, holds⟩

/-! ### What each element emits, given the ones before it -/

/-- The emissions of all elements, in order; each depends on the elements before. -/
def emitted (emit : List α → α → List β) (xs : List α) : List β :=
  (xs.mapIdx fun i x => emit (xs.take i) x).flatten

section Emitted

variable {emit : List α → α → List β}

@[simp] theorem emitted_nil : emitted emit [] = [] := rfl

theorem emitted_append_singleton (xs : List α) (x : α) :
    emitted emit (xs ++ [x]) = emitted emit xs ++ emit xs x := by
  have before : xs.mapIdx (fun i y => emit ((xs ++ [x]).take i) y) =
      xs.mapIdx fun i y => emit (xs.take i) y :=
    List.mapIdx_eq_mapIdx_iff.mpr fun i hi => by rw [List.take_append_of_le_length (Nat.le_of_lt hi)]
  simp [emitted, List.mapIdx_append, before]

theorem emitted_initial (xs ys : List α) : emitted emit xs <+: emitted emit (xs ++ ys) := by
  induction ys using List.reverseRecOn with
  | nil => simp
  | append_singleton ys y ih =>
      rw [← List.append_assoc, emitted_append_singleton]
      exact ih.trans (List.prefix_append _ _)

/-- A part of a list from its start lies before an element or holds it. -/
theorem initial_or_holds {xs done rest : List α} {x : α} (initial : xs <+: done ++ x :: rest) :
    xs <+: done ∨ done ++ [x] <+: xs := by
  rcases List.prefix_or_prefix_of_prefix initial (List.prefix_append done (x :: rest)) with
    before | ⟨later, rfl⟩
  · exact Or.inl before
  · rw [List.prefix_append_right_inj] at initial
    cases later with
    | nil => exact Or.inl (by simp)
    | cons y later =>
        rw [List.cons_prefix_cons] at initial
        exact Or.inr ⟨later, by simp [initial.1]⟩

/-- What is emitted is emitted by some element, given the ones before it. -/
theorem mem_emitted {xs : List α} {y : β} :
    y ∈ emitted emit xs ↔ ∃ done x rest, xs = done ++ x :: rest ∧ y ∈ emit done x := by
  induction xs using List.reverseRecOn with
  | nil => simp
  | append_singleton xs x ih =>
      rw [emitted_append_singleton, List.mem_append, ih]
      constructor
      · rintro (⟨done, z, rest, rfl, mem⟩ | mem)
        · exact ⟨done, z, rest ++ [x], by simp, mem⟩
        · exact ⟨xs, x, [], rfl, mem⟩
      · rintro ⟨done, z, rest, split, mem⟩
        rcases List.eq_nil_or_concat rest with rfl | ⟨rest, last, rfl⟩
        · obtain ⟨rfl, same⟩ := List.append_inj' split rfl
          cases same
          exact Or.inr mem
        · rw [List.concat_eq_append, ← List.cons_append, ← List.append_assoc] at split
          exact Or.inl ⟨done, z, rest, (List.append_inj' split rfl).1, mem⟩

end Emitted

/-! ### A computation for each element -/

/-- Where every computation returns, so do all of them in order. -/
theorem mapM_total (f : α → Except ε β) (xs : List α) (each : ∀ x ∈ xs, ∃ y, f x = .ok y) :
    ∃ ys, xs.mapM f = .ok ys := by
  induction xs with
  | nil => exact ⟨[], rfl⟩
  | cons x xs ih =>
      obtain ⟨y, hy⟩ := each x List.mem_cons_self
      obtain ⟨ys, hys⟩ := ih fun z hz => each z (List.mem_cons_of_mem x hz)
      exact ⟨y :: ys, by rw [List.mapM_cons, hy, hys]; rfl⟩

section MapM

variable {f : α → Except ε β}

theorem mapM_cons_eq_ok {x : α} {xs : List α} {ys : List β} :
    (x :: xs).mapM f = .ok ys ↔ ∃ y ys', ys = y :: ys' ∧ f x = .ok y ∧ xs.mapM f = .ok ys' := by
  rw [List.mapM_cons]
  cases f x with
  | error e => exact ⟨fun h => (nomatch h), fun ⟨_, _, _, h, _⟩ => nomatch h⟩
  | ok y =>
      cases xs.mapM f with
      | error e => exact ⟨fun h => (nomatch h), fun ⟨_, _, _, _, h⟩ => nomatch h⟩
      | ok ys' =>
          constructor
          · intro h
            cases h
            exact ⟨y, ys', rfl, rfl, rfl⟩
          · rintro ⟨_, _, rfl, h, h'⟩
            cases h
            cases h'
            rfl

/-- A batch returns exactly when each of its elements does, with their results. -/
theorem mapM_eq_ok_iff {xs : List α} {ys : List β} : xs.mapM f = .ok ys ↔ xs.map f = ys.map .ok := by
  induction xs generalizing ys with
  | nil => cases ys <;> simp [pure, Except.pure]
  | cons x xs ih =>
      rw [mapM_cons_eq_ok]
      constructor
      · rintro ⟨y, ys', rfl, first, rest⟩
        rw [List.map_cons, List.map_cons, first, ih.mp rest]
      · intro same
        obtain ⟨y, ys', rfl, first, rest⟩ := List.map_eq_cons_iff.mp same.symm
        exact ⟨y, ys', rfl, first.symm, ih.mpr rest.symm⟩

/-- What each result shares with its element, the results share with the batch. -/
theorem map_of_mapM {γ : Type} {g : β → γ} {k : α → γ} {xs : List α} {ys : List β}
    (h : xs.mapM f = .ok ys) (shared : ∀ x ∈ xs, ∀ y, f x = .ok y → g y = k x) :
    ys.map g = xs.map k := by
  induction xs generalizing ys with
  | nil => cases h; rfl
  | cons x xs ih =>
      obtain ⟨y, ys', rfl, first, rest⟩ := mapM_cons_eq_ok.mp h
      rw [List.map_cons, List.map_cons, shared x List.mem_cons_self y first,
        ih rest fun z hz => shared z (List.mem_cons_of_mem x hz)]

theorem length_of_mapM {xs : List α} {ys : List β} (h : xs.mapM f = .ok ys) :
    ys.length = xs.length := by
  induction xs generalizing ys with
  | nil => cases h; rfl
  | cons x xs ih =>
      obtain ⟨y, ys', rfl, -, rest⟩ := mapM_cons_eq_ok.mp h
      simp [ih rest]

/-- What is returned for some element, and conversely. -/
theorem mem_of_mapM {xs : List α} {ys : List β} (h : xs.mapM f = .ok ys) {y : β} :
    y ∈ ys ↔ ∃ x ∈ xs, f x = .ok y := by
  induction xs generalizing ys with
  | nil => cases h; simp
  | cons x xs ih =>
      obtain ⟨z, zs, rfl, first, rest⟩ := mapM_cons_eq_ok.mp h
      simp [ih rest, first, eq_comm]

/-- A batch returns only where each of its elements does. -/
theorem exists_of_mapM {xs : List α} {ys : List β} (h : xs.mapM f = .ok ys) {x : α} (mem : x ∈ xs) :
    ∃ y, f x = .ok y := by
  have returned : f x ∈ ys.map Except.ok := by
    rw [← mapM_eq_ok_iff.mp h]
    exact List.mem_map_of_mem mem
  obtain ⟨y, -, same⟩ := List.mem_map.mp returned
  exact ⟨y, same.symm⟩

/-- A permuted batch returns the same results, permuted. -/
theorem perm_of_mapM {xs xs' : List α} {ys ys' : List β} (perm : xs.Perm xs') (h : xs.mapM f = .ok ys)
    (h' : xs'.mapM f = .ok ys') : ys.Perm ys' := by
  have mapped := perm.map f
  rw [mapM_eq_ok_iff.mp h, mapM_eq_ok_iff.mp h'] at mapped
  exact (List.map_perm_map_iff fun _ _ => Except.ok.inj).mp mapped

theorem mapM_append_eq_ok {xs xs' : List α} {ys : List β} (h : (xs ++ xs').mapM f = .ok ys) :
    ∃ zs zs', ys = zs ++ zs' ∧ xs.mapM f = .ok zs ∧ xs'.mapM f = .ok zs' := by
  induction xs generalizing ys with
  | nil => exact ⟨[], ys, rfl, rfl, h⟩
  | cons x xs ih =>
      obtain ⟨z, later, rfl, first, rest⟩ := mapM_cons_eq_ok.mp h
      obtain ⟨zs, zs', rfl, before, after⟩ := ih rest
      exact ⟨z :: zs, zs', rfl, mapM_cons_eq_ok.mpr ⟨z, zs, rfl, first, before⟩, after⟩

/-- The outcomes before, at and after an element of a batch. -/
theorem mapM_append_cons_eq_ok {done : List α} {x : α} {rest : List α} {ys : List β}
    (h : (done ++ x :: rest).mapM f = .ok ys) :
    ∃ ds y rs, ys = ds ++ y :: rs ∧ done.mapM f = .ok ds ∧ f x = .ok y ∧ rest.mapM f = .ok rs := by
  obtain ⟨ds, later, rfl, before, after⟩ := mapM_append_eq_ok h
  obtain ⟨y, rs, rfl, at_, rest⟩ := mapM_cons_eq_ok.mp after
  exact ⟨ds, y, rs, rfl, before, at_, rest⟩

/-- The elements before, at and after the one with an outcome. -/
theorem mapM_eq_ok_append_cons {xs : List α} {ds : List β} {y : β} {rs : List β}
    (h : xs.mapM f = .ok (ds ++ y :: rs)) :
    ∃ done x rest, xs = done ++ x :: rest ∧ done.mapM f = .ok ds ∧ f x = .ok y := by
  induction ds generalizing xs with
  | nil =>
      cases xs with
      | nil => cases h
      | cons x rest =>
          obtain ⟨z, zs, split, first, -⟩ := mapM_cons_eq_ok.mp h
          cases split
          exact ⟨[], x, rest, rfl, rfl, first⟩
  | cons d ds ih =>
      cases xs with
      | nil => cases h
      | cons x xs =>
          obtain ⟨z, zs, split, first, later⟩ := mapM_cons_eq_ok.mp h
          cases split
          obtain ⟨done, x', rest, rfl, before, at_⟩ := ih later
          exact ⟨x :: done, x', rest, rfl, mapM_cons_eq_ok.mpr ⟨d, ds, rfl, first, before⟩, at_⟩

end MapM

end Relational
