import CnPropertyAgent.Relational.Query

/-!
Tables whose rows are kept in another form.

A form of the rows that keeps their keys carries every statement and every query along: what
is upserted, selected, ordered or joined in one form is so in the other.
-/

namespace Relational

variable {κ ρ ρ' σ ω : Type} [DecidableEq κ]

section

variable {key : ρ → κ} {key' : ρ' → κ} {f : ρ → ρ'}

/-- The rows of a table, in another form. -/
def Table.map (t : Table key) (f : ρ → ρ') (keys : ∀ row, key' (f row) = key row) : Table key' where
  rows := t.rows.map f
  keys_nodup := by
    have same : key' ∘ f = key := funext keys
    rw [List.map_map, same]
    exact t.keys_nodup

variable {c : OnConflict key} {c' : OnConflict key'}

theorem map_upsertRows (keys : ∀ row, key' (f row) = key row)
    (merge : ∀ old new, f (c.merge old new) = c'.merge (f old) (f new)) (new : ρ) (rows : List ρ) :
    (upsertRows c new rows).map f = upsertRows c' (f new) (rows.map f) := by
  induction rows with
  | nil => rfl
  | cons old rest ih =>
      rw [upsertRows, List.map_cons, upsertRows, keys, keys]
      by_cases same : key old = key new
      · rw [if_pos same, if_pos same, List.map_cons, merge]
      · rw [if_neg same, if_neg same, List.map_cons, ih]

variable (f) in
/-- **Statements.** An upsert in one form is an upsert in the other. -/
theorem Table.map_upsert (keys : ∀ row, key' (f row) = key row)
    (merge : ∀ old new, f (c.merge old new) = c'.merge (f old) (f new)) (t : Table key) (new : ρ) :
    (t.upsert c new).map f keys = (t.map f keys).upsert c' (f new) :=
  Table.ext (map_upsertRows keys merge new t.rows)

end

/-! ### Queries -/

variable {f : ρ → ρ'}

/-- A condition on columns that both forms have. -/
theorem filter_map_of_column {p : ρ → Bool} {p' : ρ' → Bool} (column : ∀ row, p' (f row) = p row)
    (rows : List ρ) : (rows.map f).filter p' = (rows.filter p).map f := by
  have same : p' ∘ f = p := funext column
  rw [List.filter_map, same]

/-- An order by columns that both forms have. -/
theorem orderBy_map_of_column [LinearOrder ω] {order : ρ → ω} {order' : ρ' → ω}
    (column : ∀ row, order' (f row) = order row) (rows : List ρ) :
    orderBy order' (rows.map f) = (orderBy order rows).map f := by
  refine (List.map_insertionSort _ _ f rows fun a _ b _ => ?_).symm
  rw [column, column]

/-- A join on columns that both forms have. -/
theorem join_map_of_column {on : σ → ρ → Bool} {on' : σ → ρ' → Bool}
    (column : ∀ a row, on' a (f row) = on a row) (left : List σ) (right : List ρ) :
    join left (right.map f) on' = (join left right on).map fun pair => (pair.1, f pair.2) := by
  unfold join
  rw [List.map_flatMap]
  apply List.flatMap_congr
  intro a _
  rw [filter_map_of_column (column a), List.map_map, List.map_map]
  rfl

end Relational
