import CnPropertyAgent.Relational.Table
import Mathlib.Tactic.Common
import Mathlib.Tactic.SplitIfs

/-!
Trees of files, as a commit or a working tree holds them.

A path is a sequence of bytes, and a directory is there as long as a file lies in it. So a
tree is a keyed table of files none of which lies inside another; writing a file removes
what stands in its way. What a sequence of changes leaves at a path is decided by the last
of them that does something there.
-/

namespace Git

abbrev Bytes := List UInt8

abbrev PathName := Bytes

-- An instance that membership tests would otherwise derive one by one.
instance PathName.lawfulBEq : LawfulBEq PathName := inferInstance

/-- A literal of ASCII characters. -/
def ascii (s : String) : Bytes := s.toList.map fun c => c.toNat.toUInt8

def slash : UInt8 := 0x2F

/-- The path lies inside the directory. -/
def Inside (p directory : PathName) : Prop := directory ++ [slash] <+: p

instance (p directory : PathName) : Decidable (Inside p directory) := inferInstanceAs (Decidable (_ <+: _))

theorem not_inside_self (p : PathName) : ¬ Inside p p := by
  intro inside
  have length := inside.length_le
  rw [List.length_append, List.length_singleton] at length
  omega

/-- No tree has files at both paths. -/
def Clash (p q : PathName) : Prop := Inside p q ∨ Inside q p

instance (p q : PathName) : Decidable (Clash p q) := inferInstanceAs (Decidable (_ ∨ _))

/-- What a sequence of steps leaves of a reading that each of them sets or leaves: the last that sets it
decides. -/
def lastSet {ι β : Type} (sets : ι → Option β) (steps : List ι) : Option β := steps.reverse.findSome? sets

theorem read_foldl {σ ι β : Type} {f : σ → ι → σ} (read : σ → β) {sets : ι → Option β}
    (step : ∀ s x, read (f s x) = (sets x).getD (read s)) (steps : List ι) (s : σ) :
    read (steps.foldl f s) = (lastSet sets steps).getD (read s) := by
  induction steps generalizing s with
  | nil => rfl
  | cons x rest ih =>
      rw [List.foldl_cons, ih, step, lastSet, lastSet, List.reverse_cons, List.findSome?_append, Option.getD_or]
      congr 1
      cases h : sets x <;> simp [h]

theorem exists_of_lastSet {ι β : Type} {sets : ι → Option β} {steps : List ι} {b : β}
    (set : lastSet sets steps = some b) : ∃ x ∈ steps, sets x = some b := by
  obtain ⟨x, mem, sets_x⟩ := List.exists_of_findSome?_eq_some set
  exact ⟨x, List.mem_reverse.mp mem, sets_x⟩

structure FileTree (α : Type) extends Relational.Table (Prod.fst : PathName × α → PathName) where
  apart : ∀ p ∈ rows.map Prod.fst, ∀ q ∈ rows.map Prod.fst, ¬ Inside p q

namespace FileTree

variable {α : Type}

theorem apart_nil : ∀ p ∈ ([] : List (PathName × α)).map Prod.fst,
    ∀ q ∈ ([] : List (PathName × α)).map Prod.fst, ¬ Inside p q := nofun

def empty : FileTree α := ⟨Relational.Table.empty _, apart_nil⟩

def paths (t : FileTree α) : List PathName := t.rows.map Prod.fst

/-- The file at a path. -/
def get? (t : FileTree α) (p : PathName) : Option α := (t.toTable.get? p).map Prod.snd

theorem get?_eq_some_iff {t : FileTree α} {p : PathName} {a : α} : t.get? p = some a ↔ (p, a) ∈ t.rows := by
  rw [get?, Option.map_eq_some_iff]
  constructor
  · rintro ⟨⟨p', a'⟩, found, rfl⟩
    obtain ⟨mem, rfl⟩ := Relational.Table.get?_eq_some_iff.mp found
    exact mem
  · exact fun mem => ⟨(p, a), Relational.Table.get?_key mem, rfl⟩

theorem mem_paths_iff {t : FileTree α} {p : PathName} : p ∈ t.paths ↔ ∃ a, t.get? p = some a := by
  simp [paths, get?_eq_some_iff]

theorem get?_eq_none_iff {t : FileTree α} {p : PathName} : t.get? p = none ↔ p ∉ t.paths := by
  rw [mem_paths_iff, ← Option.ne_none_iff_exists', ne_eq, not_not]

/-! ### Removing and writing -/

theorem nodup_filter (t : FileTree α) (keep : PathName → Bool) :
    ((t.rows.filter fun file => keep file.1).map Prod.fst).Nodup :=
  t.keys_nodup.sublist (List.filter_sublist.map Prod.fst)

theorem apart_filter (t : FileTree α) (keep : PathName → Bool) :
    ∀ p ∈ (t.rows.filter fun file => keep file.1).map Prod.fst,
      ∀ q ∈ (t.rows.filter fun file => keep file.1).map Prod.fst, ¬ Inside p q := by
  intro p hp q hq
  have sub := (List.filter_sublist (p := fun file => keep file.1) (l := t.rows)).map Prod.fst
  exact t.apart p (sub.subset hp) q (sub.subset hq)

/-- The files at the paths that are kept. -/
def filter (t : FileTree α) (keep : PathName → Bool) : FileTree α :=
  ⟨⟨t.rows.filter fun file => keep file.1, t.nodup_filter keep⟩, t.apart_filter keep⟩

@[ext] theorem ext {t t' : FileTree α} (h : t.rows = t'.rows) : t = t' := by
  obtain ⟨table, apart⟩ := t
  obtain ⟨table', apart'⟩ := t'
  obtain rfl := Relational.Table.ext h
  rfl

theorem filter_filter_self (t : FileTree α) (keep : PathName → Bool) :
    (t.filter keep).filter keep = t.filter keep := by
  ext1
  simp [filter]

theorem get?_filter (t : FileTree α) (keep : PathName → Bool) (p : PathName) :
    (t.filter keep).get? p = if keep p then t.get? p else none := by
  apply Option.ext
  intro a
  split_ifs with kept
  · simp [get?_eq_some_iff, filter, kept]
  · simp [get?_eq_some_iff, filter, kept]

/-- What does not stand in the way of a file. -/
def besides (p q : PathName) : Bool := decide (q ≠ p ∧ ¬ Clash q p)

theorem nodup_write (t : FileTree α) (p : PathName) (a : α) :
    (((t.filter (besides p)).rows ++ [(p, a)]).map Prod.fst).Nodup := by
  rw [List.map_append, List.nodup_append]
  refine ⟨(t.filter (besides p)).keys_nodup, List.nodup_singleton _, ?_⟩
  rintro q hq _ single rfl
  obtain rfl := List.mem_singleton.mp single
  obtain ⟨file, mem, rfl⟩ := List.mem_map.mp hq
  exact (of_decide_eq_true (List.mem_filter.mp mem).2).1 rfl

theorem apart_write (t : FileTree α) (p : PathName) (a : α) :
    ∀ q ∈ ((t.filter (besides p)).rows ++ [(p, a)]).map Prod.fst,
      ∀ r ∈ ((t.filter (besides p)).rows ++ [(p, a)]).map Prod.fst, ¬ Inside q r := by
  have kept : ∀ q ∈ (t.filter (besides p)).rows.map Prod.fst, ¬ Clash q p := by
    intro q hq
    obtain ⟨file, mem, rfl⟩ := List.mem_map.mp hq
    exact (of_decide_eq_true (List.mem_filter.mp mem).2).2
  intro q hq r hr
  rw [List.map_append, List.mem_append] at hq hr
  rcases hq with hq | hq
  · rcases hr with hr | hr
    · exact (t.filter (besides p)).apart q hq r hr
    · obtain rfl := List.mem_singleton.mp hr
      exact fun inside => kept q hq (Or.inl inside)
  · obtain rfl := List.mem_singleton.mp hq
    rcases hr with hr | hr
    · exact fun inside => kept r hr (Or.inr inside)
    · obtain rfl := List.mem_singleton.mp hr
      exact not_inside_self _

/-- Writes a file, over a directory and in place of a file that should be one. -/
def write (t : FileTree α) (p : PathName) (a : α) : FileTree α :=
  ⟨⟨(t.filter (besides p)).rows ++ [(p, a)], t.nodup_write p a⟩, t.apart_write p a⟩

theorem get?_write (t : FileTree α) (p : PathName) (a : α) (q : PathName) :
    (t.write p a).get? q = if q = p then some a else if Clash q p then none else t.get? q := by
  have rest : ∀ b, (q, b) ∈ (t.write p a).rows ↔
      (t.filter (besides p)).get? q = some b ∨ q = p ∧ b = a := by
    intro b
    rw [get?_eq_some_iff]
    simp [write]
  apply Option.ext
  intro b
  rw [get?_eq_some_iff, rest, get?_filter]
  by_cases same : q = p
  · simp [same, besides, eq_comm]
  · by_cases clash : Clash q p
    · simp [same, clash, besides]
    · simp [same, clash, besides]

/-- Writes files one after another. -/
def writeAll (t : FileTree α) (files : List (PathName × α)) : FileTree α :=
  files.foldl (fun t file => t.write file.1 file.2) t

/-! ### Changes -/

/-- A file that is written, or removed. -/
abbrev Change (α : Type) := PathName × Option α

def change (t : FileTree α) (c : Change α) : FileTree α :=
  match c.2 with
  | some a => t.write c.1 a
  | none => t.filter fun p => p ≠ c.1

def changeAll (t : FileTree α) (changes : List (Change α)) : FileTree α := changes.foldl change t

/-- What a change leaves at a path, if it does something there. -/
def Change.leaves (c : Change α) (p : PathName) : Option (Option α) :=
  if p = c.1 then some c.2 else if c.2.isSome ∧ Clash p c.1 then some none else none

theorem get?_change (t : FileTree α) (c : Change α) (p : PathName) :
    (t.change c).get? p = (c.leaves p).getD (t.get? p) := by
  obtain ⟨q, a | a⟩ := c
  · rw [change, get?_filter]
    by_cases here : p = q <;> simp [Change.leaves, here]
  · rw [change, get?_write]
    by_cases here : p = q
    · simp [Change.leaves, here]
    · by_cases clash : Clash p q <;> simp [Change.leaves, here, clash]

theorem get?_changeAll (t : FileTree α) (changes : List (Change α)) (p : PathName) :
    (t.changeAll changes).get? p = (lastSet (fun c => c.leaves p) changes).getD (t.get? p) :=
  read_foldl (fun t => t.get? p) (fun t c => get?_change t c p) changes t

/-! ### Changing the contents -/

theorem keys_mapFiles (t : FileTree α) (f : PathName → α → α) :
    (t.rows.map fun file => (file.1, f file.1 file.2)).map Prod.fst = t.rows.map Prod.fst := by
  rw [List.map_map]
  rfl

def mapFiles (t : FileTree α) (f : PathName → α → α) : FileTree α where
  rows := t.rows.map fun file => (file.1, f file.1 file.2)
  keys_nodup := (t.keys_mapFiles f).symm ▸ t.keys_nodup
  apart := (t.keys_mapFiles f).symm ▸ t.apart

theorem get?_mapFiles (t : FileTree α) (f : PathName → α → α) (p : PathName) :
    (t.mapFiles f).get? p = (t.get? p).map (f p) := by
  apply Option.ext
  intro b
  rw [get?_eq_some_iff, Option.map_eq_some_iff]
  simp only [get?_eq_some_iff]
  constructor
  · intro mem
    obtain ⟨⟨q, a⟩, found, same⟩ := List.mem_map.mp mem
    obtain ⟨rfl, rfl⟩ := Prod.mk.inj same
    exact ⟨a, found, rfl⟩
  · rintro ⟨a, found, rfl⟩
    exact List.mem_map.mpr ⟨(p, a), found, rfl⟩

end FileTree

end Git
