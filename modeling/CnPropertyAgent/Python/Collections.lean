import CnPropertyAgent.Relational.Table

/-!
Python's `dict`, which is a keyed table of items in insertion order, and lists
that take an element only once.
-/

namespace Python

open Relational

variable {κ ν : Type}

/-! ### `dict` -/

abbrev Dict (κ ν : Type) := Table (Prod.fst : κ × ν → κ)

namespace Dict

def empty : Dict κ ν := Table.empty _

/-- What assignment does to an item that is there. -/
def assign : OnConflict (Prod.fst : κ × ν → κ) where
  merge _ excluded := excluded
  key_merge _ := rfl

theorem assign_overwrites : (assign : OnConflict (Prod.fst : κ × ν → κ)).Overwrites := fun _ _ _ => rfl

variable [DecidableEq κ]

def get? (d : Dict κ ν) (k : κ) : Option ν := (Table.get? d k).map Prod.snd

/-- `d[k] = v`. -/
def set (d : Dict κ ν) (k : κ) (v : ν) : Dict κ ν := d.upsert assign (k, v)

/-- `dict(items)`. -/
def ofItems (items : List (κ × ν)) : Dict κ ν := (empty : Dict κ ν).upsertAll assign items

/-- `d.setdefault(k, v)`: the value under `k`, and the dictionary that has one. -/
def setDefault (d : Dict κ ν) (k : κ) (v : ν) : ν × Dict κ ν :=
  match get? d k with
  | some stored => (stored, d)
  | none => (v, set d k v)

def keys (d : Dict κ ν) : List κ := d.rows.map Prod.fst

def values (d : Dict κ ν) : List ν := d.rows.map Prod.snd

omit [DecidableEq κ] in
theorem keys_nodup (d : Dict κ ν) : (keys d).Nodup := Table.keys_nodup d

theorem get?_set (d : Dict κ ν) (k k' : κ) (v : ν) :
    get? (set d k v) k' = if k = k' then some v else get? d k' := by
  unfold get? set
  rw [Table.get?_upsert]
  split
  · cases Table.get? d k <;> rfl
  · rfl

/-- Of items with one key, the last one is kept. -/
theorem get?_ofItems (items : List (κ × ν)) (k : κ) :
    get? (ofItems items) k = (items.filter (Prod.fst · = k)).getLast?.map Prod.snd := by
  rw [get?, ofItems, Table.get?_upsertAll_of_overwrites assign_overwrites]
  exact congrArg _ Option.or_none

theorem setDefault_fst (d : Dict κ ν) (k : κ) (v : ν) : (setDefault d k v).1 = (get? d k).getD v := by
  unfold setDefault
  cases get? d k <;> rfl

theorem get?_setDefault (d : Dict κ ν) (k k' : κ) (v : ν) :
    get? (setDefault d k v).2 k' = if k = k' then some ((get? d k).getD v) else get? d k' := by
  unfold setDefault
  cases found : get? d k with
  | none => rw [get?_set]; rfl
  | some stored =>
      by_cases same : k = k'
      · rw [if_pos same, ← same]
        exact found
      · rw [if_neg same]

theorem get?_eq_none_iff {d : Dict κ ν} {k : κ} : get? d k = none ↔ k ∉ keys d := by
  rw [get?, Option.map_eq_none_iff, Table.get?_eq_none_iff, keys, List.mem_map]
  push Not
  rfl

theorem mem_keys_iff {d : Dict κ ν} {k : κ} : k ∈ keys d ↔ ∃ v, get? d k = some v := by
  rw [← Option.ne_none_iff_exists', ne_eq, get?_eq_none_iff, not_not]

theorem mem_rows_iff {d : Dict κ ν} {k : κ} {v : ν} : (k, v) ∈ d.rows ↔ get? d k = some v := by
  rw [get?, Option.map_eq_some_iff]
  constructor
  · exact fun mem => ⟨(k, v), Table.get?_key mem, rfl⟩
  · rintro ⟨⟨k', v'⟩, found, rfl⟩
    obtain ⟨mem, rfl⟩ := Table.get?_eq_some_iff.mp found
    exact mem

@[simp] theorem get?_empty (k : κ) : get? (empty : Dict κ ν) k = none := rfl

omit [DecidableEq κ] in
@[simp] theorem keys_empty : keys (empty : Dict κ ν) = [] := rfl

theorem mem_keys_set {d : Dict κ ν} {k k' : κ} {v : ν} : k' ∈ keys (set d k v) ↔ k' = k ∨ k' ∈ keys d := by
  simp only [mem_keys_iff, get?_set]
  by_cases h : k = k'
  · simp [h]
  · simp [h, Ne.symm h]

/-- Assigning a new key puts its item last. -/
theorem rows_set_of_not_mem {d : Dict κ ν} {k : κ} {v : ν} (fresh : k ∉ keys d) :
    (set d k v).rows = d.rows ++ [(k, v)] := by
  have append : ∀ rows : List (κ × ν), k ∉ rows.map Prod.fst →
      upsertRows assign (k, v) rows = rows ++ [(k, v)] := by
    intro rows absent
    induction rows with
    | nil => rfl
    | cons row rows ih =>
        simp only [List.map_cons, List.mem_cons, not_or] at absent
        simp [upsertRows, Ne.symm absent.1, ih absent.2]
  exact append d.rows fresh

/-- Assigning the last key again replaces its item. -/
theorem rows_set_of_last {d : Dict κ ν} {before : List (κ × ν)} {k : κ} {v v' : ν}
    (rows : d.rows = before ++ [(k, v)]) : (set d k v').rows = before ++ [(k, v')] := by
  have replace : ∀ items : List (κ × ν), k ∉ items.map Prod.fst →
      upsertRows assign (k, v') (items ++ [(k, v)]) = items ++ [(k, v')] := by
    intro items absent
    induction items with
    | nil => exact if_pos rfl
    | cons item items ih =>
        simp only [List.map_cons, List.mem_cons, not_or] at absent
        simp [upsertRows, Ne.symm absent.1, ih absent.2]
  have nodup := keys_nodup d
  rw [keys, rows, List.map_append] at nodup
  have fresh : k ∉ before.map Prod.fst := by
    intro mem
    exact List.disjoint_of_nodup_append nodup mem (List.mem_singleton_self k)
  exact (congrArg (upsertRows assign (k, v')) rows).trans (replace before fresh)

end Dict

/-! ### Elements in order of first occurrence -/

section Distinct

variable {α : Type} [DecidableEq α]

/-- `if x not in xs: xs.append(x)`. -/
def appendNew (xs : List α) (x : α) : List α := if x ∈ xs then xs else xs ++ [x]

theorem appendNew_ne_nil (xs : List α) (x : α) : appendNew xs x ≠ [] := by
  unfold appendNew
  split
  · exact List.ne_nil_of_mem ‹_›
  · simp

/-- The distinct elements, in the order of their first occurrences. -/
def firstOccurrences (xs : List α) : List α := xs.foldl appendNew []

theorem firstOccurrences_append_singleton (xs : List α) (x : α) :
    firstOccurrences (xs ++ [x]) = appendNew (firstOccurrences xs) x := by
  simp [firstOccurrences, List.foldl_append]

@[simp] theorem mem_firstOccurrences {xs : List α} {x : α} : x ∈ firstOccurrences xs ↔ x ∈ xs := by
  induction xs using List.reverseRecOn with
  | nil => rfl
  | append_singleton xs y ih =>
      rw [firstOccurrences_append_singleton, appendNew]
      by_cases h : y ∈ firstOccurrences xs
      · rw [if_pos h, ih, List.mem_append, List.mem_singleton]
        constructor
        · exact Or.inl
        · rintro (mem | rfl)
          · exact mem
          · exact ih.mp h
      · simp [h, ih]

theorem nodup_firstOccurrences (xs : List α) : (firstOccurrences xs).Nodup := by
  induction xs using List.reverseRecOn with
  | nil => exact List.nodup_nil
  | append_singleton xs y ih =>
      rw [firstOccurrences_append_singleton, appendNew]
      split
      · exact ih
      · rename_i fresh
        exact List.nodup_append.mpr ⟨ih, List.nodup_singleton y, fun a ha b hb eq => by
          rw [List.mem_singleton] at hb
          exact fresh (hb ▸ eq ▸ ha)⟩

end Distinct

end Python
