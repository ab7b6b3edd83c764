import CnPropertyAgent.Relational.Query

/-!
Items taken slice by slice.

Sorted parts of which each is ahead of the next are the whole, sorted (`flatMap_eq_of_slices`).

Of the items with one key the first is kept. Taken in slices, each slice keeps the first of
its own, and what the last slice keeps replaces what the ones before it kept. The two agree
about a key exactly when no slice behind the one of the first item has another
(`getLast?_slices_eq_find?_iff`).
-/

namespace Relational

variable {α σ κ ω : Type}

/-! ### Sorted parts -/

/-- The parts of a sorted list, each ahead of the next. -/
theorem flatMap_eq_of_slices [LinearOrder ω] {order : α → ω} {items : List α} {part : σ → List α}
    {slices : List σ} (sorted : items.Pairwise fun a b => order a < order b)
    (each : ∀ s ∈ slices, (part s).Pairwise fun a b => order a < order b)
    (ahead : slices.Pairwise fun s s' => ∀ a ∈ part s, ∀ b ∈ part s', order a < order b)
    (same : ∀ a, a ∈ items ↔ ∃ s ∈ slices, a ∈ part s) : slices.flatMap part = items := by
  apply eq_of_pairwise_lt (List.pairwise_flatMap.mpr ⟨each, ahead⟩) sorted
  intro a
  rw [List.mem_flatMap, same]

/-! ### The first of each key -/

variable [DecidableEq κ]

/-- Two versions that are both there, or both not, differ whatever is behind them. -/
theorem or_left_inj {x y : Option α} (both : x = none ↔ y = none) {behind : Option α} :
    x.or behind = y.or behind ↔ x = y := by
  cases x with
  | none =>
      rw [both.mp rfl]
      exact iff_of_true rfl rfl
  | some a =>
      cases y with
      | none => exact absurd (both.mpr rfl) (Option.some_ne_none a)
      | some b => rfl

section

variable {key : α → κ} {inside : σ → α → Bool} {items : List α} {slices : List σ} {k : κ}

/-- What each slice keeps under a key. -/
def keptBySlice (key : α → κ) (inside : σ → α → Bool) (items : List α) (k : κ) (slices : List σ) : List α :=
  slices.filterMap fun s => (items.filter (inside s)).find? (key · = k)

/-- Where no key repeats, the items with a key are the one that is found. -/
theorem filter_eq_toList_find? {items : List α} (nodup : (items.map key).Nodup) (k : κ) :
    items.filter (key · = k) = (items.find? (key · = k)).toList := by
  induction items with
  | nil => rfl
  | cons a items ih =>
      obtain ⟨fresh, nodup⟩ := List.nodup_cons.mp nodup
      by_cases same : key a = k
      · have others : items.filter (key · = k) = [] := by
          rw [List.filter_eq_nil_iff]
          intro b mem known
          exact fresh (List.mem_map.mpr ⟨b, mem, (of_decide_eq_true known).trans same.symm⟩)
        simp [same, others]
      · simpa [same] using ih nodup

theorem find?_slice_eq_none {s : σ} :
    (items.filter (inside s)).find? (key · = k) = none ↔ ∀ b ∈ items, key b = k → inside s b = false := by
  rw [List.find?_eq_none]
  constructor
  · intro silent b mem same
    by_contra selected
    exact silent b (List.mem_filter.mpr ⟨mem, Bool.of_not_eq_false selected⟩) (decide_eq_true same)
  · intro silent b mem same
    obtain ⟨mem, selected⟩ := List.mem_filter.mp mem
    rw [silent b mem (of_decide_eq_true same)] at selected
    exact absurd selected Bool.false_ne_true

theorem mem_keptBySlice {b : α} (mem : b ∈ keptBySlice key inside items k slices) :
    ∃ s ∈ slices, b ∈ items ∧ key b = k ∧ inside s b = true := by
  obtain ⟨s, hs, found⟩ := List.mem_filterMap.mp mem
  obtain ⟨hb, selected⟩ := List.mem_filter.mp (List.mem_of_find?_eq_some found)
  have same := List.find?_some found
  exact ⟨s, hs, hb, of_decide_eq_true same, selected⟩

theorem keptBySlice_eq_nil :
    keptBySlice key inside items k slices = [] ↔
      ∀ s ∈ slices, ∀ b ∈ items, key b = k → inside s b = false := by
  rw [keptBySlice, List.filterMap_eq_nil_iff]
  exact forall₂_congr fun s _ => find?_slice_eq_none

theorem keptBySlice_append (first later : List σ) :
    keptBySlice key inside items k (first ++ later) =
      keptBySlice key inside items k first ++ keptBySlice key inside items k later :=
  List.filterMap_append

/-- Where every item is in a slice, the slices keep something exactly when there is an item. -/
theorem getLast?_slices_eq_none_iff (covered : ∀ a ∈ items, ∃ s ∈ slices, inside s a = true) :
    (keptBySlice key inside items k slices).getLast? = none ↔ items.find? (key · = k) = none := by
  rw [List.getLast?_eq_none_iff, keptBySlice_eq_nil, List.find?_eq_none]
  constructor
  · intro outside a mem same
    obtain ⟨s, hs, selected⟩ := covered a mem
    rw [outside s hs a mem (of_decide_eq_true same)] at selected
    exact Bool.false_ne_true selected
  · intro absent s _ a mem same
    exact absurd (decide_eq_true same) (absent a mem)

/-- The first item with the key is the one that its slice keeps. -/
theorem find?_slice {a : α} (found : items.find? (key · = k) = some a) {s : σ} (selected : inside s a = true) :
    (items.filter (inside s)).find? (key · = k) = some a := by
  obtain ⟨same, done, rest, rfl, before⟩ := List.find?_eq_some_iff_append.mp found
  rw [List.filter_append, List.filter_cons_of_pos selected, List.find?_append]
  have silent : (done.filter (inside s)).find? (key · = k) = none := by
    rw [List.find?_eq_none]
    intro b mem known
    have unknown := before b (List.mem_filter.mp mem).1
    rw [known] at unknown
    exact absurd unknown Bool.false_ne_true
  rw [silent, Option.none_or]
  exact List.find?_cons_of_pos same

/-- **Slices.** Where every item is in one slice and no more, the last slice that keeps an item under a
key keeps the first of all exactly when the slices behind the first item's have none. -/
theorem getLast?_slices_eq_find?_iff (covered : ∀ a ∈ items, ∃ s ∈ slices, inside s a = true)
    (apart : slices.Pairwise fun s s' => ∀ a ∈ items, inside s a = true → inside s' a = false) :
    (keptBySlice key inside items k slices).getLast? = items.find? (key · = k) ↔
      ∀ a, items.find? (key · = k) = some a → ∀ first s later, slices = first ++ s :: later →
        inside s a = true → ∀ s' ∈ later, ∀ b ∈ items, key b = k → inside s' b = false := by
  constructor
  · rintro agree a found first s later rfl selected
    by_contra other
    have kept : keptBySlice key inside items k later ≠ [] := fun empty =>
      other (keptBySlice_eq_nil.mp empty)
    -- What is kept behind the slice of the first item is not the first item.
    rw [keptBySlice_append, ← List.singleton_append, keptBySlice_append, ← List.append_assoc,
      List.getLast?_append_of_ne_nil _ kept, found] at agree
    obtain ⟨s', hs', -, -, selected'⟩ := mem_keptBySlice (List.mem_of_getLast? agree)
    have behind := (List.pairwise_cons.mp (List.pairwise_append.mp apart).2.1).1 s' hs'
    rw [behind a (List.mem_of_find?_eq_some found) selected] at selected'
    exact Bool.false_ne_true selected'
  · intro settled
    cases found : items.find? (key · = k) with
    | none => exact (getLast?_slices_eq_none_iff covered).mpr found
    | some a =>
        obtain ⟨s, hs, selected⟩ := covered a (List.mem_of_find?_eq_some found)
        obtain ⟨first, later, rfl⟩ := List.append_of_mem hs
        have behind : keptBySlice key inside items k later = [] :=
          keptBySlice_eq_nil.mpr (settled a found first s later rfl selected)
        have own : keptBySlice key inside items k [s] = [a] := by
          rw [keptBySlice, List.filterMap_cons, find?_slice found selected]
          rfl
        rw [keptBySlice_append, ← List.singleton_append, keptBySlice_append, behind, own, List.append_nil,
          List.getLast?_concat]

end

end Relational
