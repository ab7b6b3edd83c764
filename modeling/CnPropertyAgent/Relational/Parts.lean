import CnPropertyAgent.Relational.Query

/-!
Statements emitted by elements of several parts.

Each element of a sequence emits rows to be upserted. What is then stored under a key is up
to the elements that emit the key. Where those are all of one part, the other parts do not
matter for it, neither what they emit nor when: the rows of a part are what the part leaves
by itself (`mem_written_filter`), and sequences that leave the same part by part leave the
same rows (`sameRows_of_parts`).
-/

namespace Relational

variable {α β ω κ π ρ : Type} [DecidableEq κ]

/-- Where every element that emits the key `k` is selected, what is emitted under `k` is emitted by
selected elements. -/
theorem filter_key_flatMap {emit : α → List ρ} {key : ρ → κ} {k : κ} {q : α → Bool} {xs : List α}
    (only : ∀ a ∈ xs, ∀ u ∈ emit a, key u = k → q a = true) :
    (xs.flatMap emit).filter (key · = k) = ((xs.filter q).flatMap emit).filter (key · = k) := by
  induction xs with
  | nil => rfl
  | cons a xs ih =>
      have later := ih fun b hb => only b (List.mem_cons_of_mem a hb)
      rw [List.flatMap_cons, List.filter_append, later]
      by_cases selected : q a = true
      · rw [List.filter_cons_of_pos selected, List.flatMap_cons, List.filter_append]
      · have silent : (emit a).filter (key · = k) = [] := by
          rw [List.filter_eq_nil_iff]
          intro u mem same
          exact selected (only a List.mem_cons_self u mem (of_decide_eq_true same))
        rw [List.filter_cons_of_neg selected, silent, List.nil_append]

namespace Table

variable {key : ρ → κ}

/-- What the elements write to the empty table, one after another. -/
def written (c : OnConflict key) (emit : α → List ρ) (xs : List α) : Table key :=
  Table.upsertAll c (.empty key) (xs.flatMap emit)

variable {c : OnConflict key} {emit : α → List ρ} {xs : List α} {q : α → Bool}

theorem written_append_singleton (xs : List α) (a : α) :
    written c emit (xs ++ [a]) = (written c emit xs).upsertAll c (emit a) := by
  rw [written, written, List.flatMap_append, List.flatMap_singleton, upsertAll_append]

/-- Under a key that only selected elements emit, the others do not matter. -/
theorem get?_written_filter {k : κ} (only : ∀ a ∈ xs, ∀ u ∈ emit a, key u = k → q a = true) :
    (written c emit (xs.filter q)).get? k = (written c emit xs).get? k := by
  rw [written, written, get?_upsertAll, get?_upsertAll, ← filter_key_flatMap only]

/-- A stored row was emitted under its key. -/
theorem exists_emitted {row : ρ} (mem : row ∈ (written c emit xs).rows) :
    ∃ a ∈ xs, ∃ u ∈ emit a, key u = key row := by
  have present := (isSome_get?_upsertAll (.empty key) (xs.flatMap emit) (key row)).mp
    (Option.isSome_iff_exists.mpr ⟨row, get?_key mem⟩)
  obtain ⟨u, emitted, same⟩ := present.resolve_left (by rw [get?_empty]; exact Bool.false_ne_true)
  obtain ⟨a, ha, hu⟩ := List.mem_flatMap.mp emitted
  exact ⟨a, ha, u, hu, same⟩

/-- A column that a statement sets is, in a stored row, as some element emitted it under the key. -/
theorem exists_emitted_of_column {γ : Type} {f : ρ → γ}
    (taken : ∀ old new, key old = key new → f (c.merge old new) = f new) {row : ρ}
    (mem : row ∈ (written c emit xs).rows) :
    ∃ a ∈ xs, ∃ u ∈ emit a, key u = key row ∧ f u = f row := by
  have column := map_get?_upsertAll taken (.empty key) (xs.flatMap emit) (key row)
  rw [← written, get?_key mem, get?_empty, Option.map_none, Option.or_none, Option.map_some] at column
  obtain ⟨u, last, same⟩ := Option.map_eq_some_iff.mp column.symm
  obtain ⟨emitted, atKey⟩ := List.mem_filter.mp (List.mem_of_getLast? last)
  obtain ⟨a, ha, hu⟩ := List.mem_flatMap.mp emitted
  exact ⟨a, ha, u, hu, of_decide_eq_true atKey, same⟩

/-- **One part.** Where elements that emit one key are selected together, and emit rows that tell
whether they are, the rows that tell so are what the selected elements leave by themselves. -/
theorem mem_written_filter (own : ρ → Bool)
    (taken : ∀ old new, key old = key new → own (c.merge old new) = own new)
    (owned : ∀ a ∈ xs, ∀ u ∈ emit a, own u = q a)
    (apart : ∀ a ∈ xs, ∀ b ∈ xs, ∀ u ∈ emit a, ∀ v ∈ emit b, key u = key v → q a = q b) {row : ρ} :
    row ∈ (written c emit (xs.filter q)).rows ↔ row ∈ (written c emit xs).rows ∧ own row = true := by
  have found : ∀ a ∈ xs, ∀ u ∈ emit a, key u = key row → q a = true →
      (written c emit (xs.filter q)).get? (key row) = (written c emit xs).get? (key row) := by
    intro a ha u hu same selected
    apply get?_written_filter
    intro b hb v hv same'
    exact (apart b hb a ha v hv u hu (same'.trans same.symm)).trans selected
  constructor
  · intro mem
    obtain ⟨a, ha, u, hu, same, column⟩ := exists_emitted_of_column taken mem
    obtain ⟨ha, selected⟩ := List.mem_filter.mp ha
    refine ⟨mem_of_get? ((found a ha u hu same selected).symm.trans (get?_key mem)), ?_⟩
    rw [← column, owned a ha u hu, selected]
  · rintro ⟨mem, mine⟩
    obtain ⟨a, ha, u, hu, same, column⟩ := exists_emitted_of_column taken mem
    have selected : q a = true := by rw [← owned a ha u hu, column, mine]
    exact mem_of_get? ((found a ha u hu same selected).trans (get?_key mem))

/-- The same rows, in whatever order they are stored. -/
def SameRows (t t' : Table key) : Prop := ∀ row, row ∈ t.rows ↔ row ∈ t'.rows

theorem sameRows_iff_get? {t t' : Table key} : SameRows t t' ↔ ∀ k, t.get? k = t'.get? k := by
  constructor
  · intro same k
    ext row
    rw [← Option.mem_def, ← Option.mem_def, Option.mem_def, Option.mem_def, get?_eq_some_iff, get?_eq_some_iff,
      same]
  · intro same row
    constructor
    · exact fun mem => mem_of_get? ((same (key row)).symm.trans (get?_key mem))
    · exact fun mem => mem_of_get? ((same (key row)).trans (get?_key mem))

/-- **All parts.** The elements of `xs` emit some of what an element of `ys` emits. Where elements of
`ys` that emit one key are of one part, and each part of both leaves the same table, both
leave the same rows. -/
theorem sameRows_of_parts [DecidableEq π] (part : β → π) (of : α → β) {emit' : β → List ρ} {ys : List β}
    (fewer : ∀ a ∈ xs, of a ∈ ys ∧ ∀ u ∈ emit a, u ∈ emit' (of a))
    (apart : ∀ a ∈ ys, ∀ b ∈ ys, ∀ u ∈ emit' a, ∀ v ∈ emit' b, key u = key v → part a = part b)
    (same : ∀ p,
      written c emit (xs.filter fun a => part (of a) = p) = written c emit' (ys.filter (part · = p))) :
    SameRows (written c emit xs) (written c emit' ys) := by
  have found : ∀ (b : β) (v : ρ), b ∈ ys → v ∈ emit' b →
      (written c emit xs).get? (key v) = (written c emit' ys).get? (key v) := by
    intro b v hb hv
    have whole := get?_written_filter (c := c) (q := fun b' => decide (part b' = part b))
      fun b' hb' v' hv' eq => decide_eq_true (apart b' hb' b hb v' hv' v hv eq)
    have some_ := get?_written_filter (c := c) (q := fun a => decide (part (of a) = part b))
      fun a ha u hu eq => decide_eq_true (apart _ (fewer a ha).1 b hb u ((fewer a ha).2 u hu) v hv eq)
    rw [← whole, ← some_, same]
  intro row
  constructor
  · intro mem
    obtain ⟨a, ha, u, hu, eq⟩ := exists_emitted mem
    have stored := found _ u (fewer a ha).1 ((fewer a ha).2 u hu)
    rw [eq] at stored
    exact mem_of_get? (stored.symm.trans (get?_key mem))
  · intro mem
    obtain ⟨b, hb, v, hv, eq⟩ := exists_emitted mem
    have stored := found b v hb hv
    rw [eq] at stored
    exact mem_of_get? (stored.trans (get?_key mem))

omit [DecidableEq κ] in
/-- Two selections of the same rows, in an order that includes the key, are the same list. -/
theorem orderBy_filter_congr [LinearOrder ω] {t t' : Table key} {order : ρ → ω}
    (fine : ∀ a b, order a = order b → key a = key b) {p p' : ρ → Bool}
    (same : ∀ row, (row ∈ t.rows ∧ p row = true) ↔ (row ∈ t'.rows ∧ p' row = true)) :
    orderBy order (t.rows.filter p) = orderBy order (t'.rows.filter p') := by
  apply orderBy_congr (t.order_nodup fine) (t'.order_nodup fine)
  intro row
  rw [List.mem_filter, List.mem_filter, same]

end Table

end Relational
