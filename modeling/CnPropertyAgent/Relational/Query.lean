import CnPropertyAgent.Relational.Table
import Mathlib.Data.List.Sort
import Mathlib.Data.Prod.Lex

/-!
What a query makes of tables: `JOIN`, the newest row of each group, `ORDER BY`.

A join with a table on its primary key selects rows and never repeats one
(`map_fst_filter_join`), and an order that includes the primary key leaves no
choice, since a strictly sorted list is determined by its members
(`eq_orderBy_of_mem_iff`).
-/

namespace Relational

variable {κ ρ ρ' ω : Type}

/-! ### `JOIN` -/

/-- The pairs of rows that satisfy the `ON` condition. -/
def join (left : List ρ) (right : List ρ') (on : ρ → ρ' → Bool) : List (ρ × ρ') :=
  left.flatMap fun a => (right.filter (on a)).map (a, ·)

section Join

variable [DecidableEq κ] {key : ρ' → κ}

/-- The rows of a table with one key are the row stored under it. -/
theorem Table.filter_key (t : Table key) (k : κ) :
    t.rows.filter (fun row => key row = k) = (t.get? k).toList := by
  cases found : t.get? k with
  | none => simpa using Table.get?_eq_none_iff.mp found
  | some row =>
      have only : ∀ other, other ∈ t.rows.filter (fun row => key row = k) ↔ other = row := by
        intro other
        rw [List.mem_filter, decide_eq_true_eq, ← Table.get?_eq_some_iff, found, Option.some_inj]
        exact eq_comm
      have nodup : (t.rows.filter fun row => key row = k).Nodup := t.rows_nodup.filter _
      exact List.perm_singleton.mp ((List.perm_ext_iff_of_nodup nodup (List.nodup_singleton row)).mpr
        fun other => by rw [only, List.mem_singleton])

/-- A join on the primary key of the right table, restricted by a condition on
the right row, selects the left rows whose partner satisfies the condition. -/
theorem map_fst_filter_join (left : List ρ) (right : Table key) (ref : ρ → κ) (p : ρ' → Bool) :
    ((join left right.rows fun a b => key b = ref a).filter fun pair => p pair.2).map Prod.fst =
      left.filter fun a => (right.get? (ref a)).any p := by
  induction left with
  | nil => rfl
  | cons a left ih =>
      simp only [join, List.flatMap_cons, List.filter_append, List.map_append, Table.filter_key] at ih ⊢
      rw [ih, List.filter_cons]
      cases right.get? (ref a) with
      | none => simp
      | some b => by_cases h : p b <;> simp [h]

/-- A join on the primary key of the right table, restricted by a condition on the left
row, finds at most one partner of each selected row. -/
theorem map_snd_filter_join (left : List ρ) (right : Table key) (ref : ρ → κ) (p : ρ → Bool) :
    ((join left right.rows fun a b => key b = ref a).filter fun pair => p pair.1).map Prod.snd =
      (left.filter p).flatMap fun a => (right.get? (ref a)).toList := by
  induction left with
  | nil => rfl
  | cons a left ih =>
      simp only [join, List.flatMap_cons, List.filter_append, List.map_append, Table.filter_key] at ih ⊢
      rw [ih, List.filter_cons]
      cases found : right.get? (ref a) <;> by_cases h : p a <;> simp [h, found]

end Join

/-! ### `QUALIFY row_number() OVER (PARTITION BY ... ORDER BY ... DESC) = 1` -/

/-- The first rows of their groups, for an order without ties inside a group. -/
def newest [DecidableEq κ] [LinearOrder ω] (part : ρ → κ) (order : ρ → ω) (rows : List ρ) : List ρ :=
  rows.filter fun row => rows.all fun other => part other ≠ part row || order other ≤ order row

/-! ### `ORDER BY` -/

section OrderBy

variable [LinearOrder ω]

/-- Rows sorted by a key in a linear order. -/
def orderBy (order : ρ → ω) (rows : List ρ) : List ρ :=
  rows.insertionSort fun a b => order a ≤ order b

@[simp] theorem mem_orderBy {order : ρ → ω} {rows : List ρ} {row : ρ} :
    row ∈ orderBy order rows ↔ row ∈ rows :=
  List.mem_insertionSort _

theorem perm_orderBy (order : ρ → ω) (rows : List ρ) : (orderBy order rows).Perm rows :=
  List.perm_insertionSort _ rows

theorem pairwise_orderBy (order : ρ → ω) (rows : List ρ) :
    (orderBy order rows).Pairwise fun a b => order a ≤ order b := by
  have : Std.Total fun a b : ρ => order a ≤ order b := ⟨fun a b => le_total (order a) (order b)⟩
  have : IsTrans ρ fun a b => order a ≤ order b := ⟨fun _ _ _ => le_trans⟩
  exact List.pairwise_insertionSort _ rows

/-- Rows told apart by the order come out strictly increasing. -/
theorem pairwise_lt_orderBy {order : ρ → ω} {rows : List ρ} (nodup : (rows.map order).Nodup) :
    (orderBy order rows).Pairwise fun a b => order a < order b := by
  have distinct : ((orderBy order rows).map order).Nodup :=
    ((perm_orderBy order rows).map order).nodup_iff.mpr nodup
  rw [List.Nodup, List.pairwise_map] at distinct
  exact (pairwise_orderBy order rows).imp₂ (fun _ _ le ne => lt_of_le_of_ne le ne) distinct

/-- Strictly sorted lists with the same members are equal. -/
theorem eq_of_pairwise_lt {order : ρ → ω} {l l' : List ρ}
    (sorted : l.Pairwise fun a b => order a < order b)
    (sorted' : l'.Pairwise fun a b => order a < order b) (same : ∀ row, row ∈ l ↔ row ∈ l') :
    l = l' := by
  have : Std.Irrefl fun a b : ρ => order a < order b := ⟨fun a => lt_irrefl (order a)⟩
  have : Std.Antisymm fun a b : ρ => order a < order b :=
    ⟨fun _ _ ab ba => absurd (ab.trans ba) (lt_irrefl _)⟩
  exact sorted.eq_of_mem_iff sorted' same

/-- Nothing in a strictly sorted list is past its last element. -/
theorem le_getLast?_of_pairwise {order : ρ → ω} {l : List ρ}
    (sorted : l.Pairwise fun a b => order a < order b) {last : ρ} (h : last ∈ l.getLast?) {row : ρ}
    (mem : row ∈ l) : order row ≤ order last := by
  obtain ⟨init, rfl⟩ := List.getLast?_eq_some_iff.mp h
  rcases List.mem_append.mp mem with before | at_end
  · exact ((List.pairwise_append.mp sorted).2.2 row before last (List.mem_singleton_self last)).le
  · rw [List.mem_singleton.mp at_end]

/-- The last element of a strictly sorted list is its greatest. -/
theorem getLast?_eq_some_iff_of_pairwise {order : ρ → ω} {l : List ρ}
    (sorted : l.Pairwise fun a b => order a < order b) {last : ρ} :
    l.getLast? = some last ↔ last ∈ l ∧ ∀ row ∈ l, order row ≤ order last := by
  constructor
  · intro h
    exact ⟨List.mem_of_getLast? h, fun row mem => le_getLast?_of_pairwise sorted h mem⟩
  · rintro ⟨mem, greatest⟩
    have h := List.getLast?_eq_some_getLast (List.ne_nil_of_mem mem)
    generalize l.getLast (List.ne_nil_of_mem mem) = end_ at h
    obtain ⟨init, rfl⟩ := List.getLast?_eq_some_iff.mp h
    rcases List.mem_append.mp mem with before | at_end
    · have lt := (List.pairwise_append.mp sorted).2.2 last before end_ (List.mem_singleton_self end_)
      exact absurd (greatest end_ (by simp)) (not_le_of_gt lt)
    · rw [h, List.mem_singleton.mp at_end]

theorem eq_orderBy_of_mem_iff {order : ρ → ω} {l rows : List ρ} (nodup : (rows.map order).Nodup)
    (sorted : l.Pairwise fun a b => order a < order b) (same : ∀ row, row ∈ l ↔ row ∈ rows) :
    l = orderBy order rows :=
  eq_of_pairwise_lt sorted (pairwise_lt_orderBy nodup) fun row => by rw [same, mem_orderBy]

/-- Rows told apart by the order are sorted alike when they are the same rows. -/
theorem orderBy_congr {order : ρ → ω} {rows rows' : List ρ} (nodup : (rows.map order).Nodup)
    (nodup' : (rows'.map order).Nodup) (same : ∀ row, row ∈ rows ↔ row ∈ rows') :
    orderBy order rows = orderBy order rows' :=
  eq_orderBy_of_mem_iff nodup' (pairwise_lt_orderBy nodup) fun row => by rw [mem_orderBy, same]

/-- Sorted values forget the order they came in. -/
theorem orderBy_id_of_perm {xs ys : List ω} (perm : xs.Perm ys) : orderBy id xs = orderBy id ys := by
  apply List.Perm.eq_of_pairwise
  · exact fun _ _ _ _ => le_antisymm
  · exact pairwise_orderBy id xs
  · exact pairwise_orderBy id ys
  · exact (perm_orderBy id xs).trans (perm.trans (perm_orderBy id ys).symm)

/-- So does their greatest. -/
theorem max?_of_perm {xs ys : List ω} (perm : xs.Perm ys) : xs.max? = ys.max? := by
  ext t
  rw [List.max?_eq_some_iff, List.max?_eq_some_iff, perm.mem_iff]
  exact and_congr_right fun _ => forall_congr' fun b => by rw [perm.mem_iff]

/-- An order on groups, and inside the groups, sorts the groups one after another. -/
theorem orderBy_toLex [LinearOrder κ] [DecidableEq κ] {part : ρ → κ} {order : ρ → ω} {rows : List ρ}
    (nodup : (rows.map fun row => (part row, order row)).Nodup) {ks : List κ}
    (sorted : ks.Pairwise (· < ·)) (covers : ∀ row ∈ rows, part row ∈ ks) :
    orderBy (fun row => toLex (part row, order row)) rows =
      ks.flatMap fun k => orderBy order (rows.filter (part · = k)) := by
  have group : ∀ k row, row ∈ orderBy order (rows.filter (part · = k)) ↔ row ∈ rows ∧ part row = k := by
    intro k row
    rw [mem_orderBy, List.mem_filter, decide_eq_true_eq]
  symm
  apply eq_orderBy_of_mem_iff
  · exact nodup
  · apply List.pairwise_flatMap.mpr
    constructor
    · intro k _
      have inside : ((rows.filter (part · = k)).map order).Nodup := by
        apply List.Nodup.map_on
        · intro a ha b hb same
          rw [List.mem_filter, decide_eq_true_eq] at ha hb
          exact List.inj_on_of_nodup_map nodup ha.1 hb.1 (Prod.ext (ha.2.trans hb.2.symm) same)
        · exact nodup.of_map.filter _
      apply (pairwise_lt_orderBy inside).imp_of_mem
      intro a b ha hb lt
      rw [Prod.Lex.toLex_lt_toLex]
      exact Or.inr ⟨((group k a).mp ha).2.trans ((group k b).mp hb).2.symm, lt⟩
    · apply sorted.imp
      intro k k' lt a ha b hb
      rw [Prod.Lex.toLex_lt_toLex, ((group k a).mp ha).2, ((group k' b).mp hb).2]
      exact Or.inl lt
  · intro row
    simp only [List.mem_flatMap, group]
    constructor
    · rintro ⟨k, -, mem, -⟩
      exact mem
    · intro mem
      exact ⟨part row, covers row mem, mem, rfl⟩

/-- The newest row of a group is the last of the group in order. -/
theorem filter_newest [DecidableEq κ] {part : ρ → κ} {order : ρ → ω} {rows : List ρ} {k : κ}
    (nodup : ((rows.filter (part · = k)).map order).Nodup) :
    (newest part order rows).filter (part · = k) =
      (orderBy order (rows.filter (part · = k))).getLast?.toList := by
  have member : ∀ row, row ∈ (newest part order rows).filter (part · = k) ↔
      (orderBy order (rows.filter (part · = k))).getLast? = some row := by
    intro row
    rw [getLast?_eq_some_iff_of_pairwise (pairwise_lt_orderBy nodup)]
    simp only [newest, List.mem_filter, mem_orderBy, List.all_eq_true, Bool.or_eq_true,
      decide_eq_true_eq]
    constructor
    · rintro ⟨⟨mem, greatest⟩, rfl⟩
      refine ⟨⟨mem, rfl⟩, ?_⟩
      rintro other ⟨hother, same⟩
      exact (greatest other hother).resolve_left (not_not_intro same)
    · rintro ⟨⟨mem, rfl⟩, greatest⟩
      refine ⟨⟨mem, ?_⟩, rfl⟩
      intro other hother
      by_cases same : part other = part row
      · exact Or.inr (greatest other ⟨hother, same⟩)
      · exact Or.inl same
  have once : ((newest part order rows).filter (part · = k)).Nodup :=
    (nodup.of_map.sublist (List.filter_sublist.filter _))
  cases last : (orderBy order (rows.filter (part · = k))).getLast? with
  | none =>
      apply List.eq_nil_iff_forall_not_mem.mpr
      intro row mem
      rw [member, last] at mem
      cases mem
  | some row =>
      apply List.perm_singleton.mp
      apply (List.perm_ext_iff_of_nodup once (List.nodup_singleton row)).mpr
      intro other
      rw [member, last, Option.some_inj, List.mem_singleton]
      exact eq_comm

omit [LinearOrder ω] in
/-- Any order that includes the primary key tells the rows of a table apart. -/
theorem Table.order_nodup {key : ρ → κ} (t : Table key) {order : ρ → ω} {p : ρ → Bool}
    (fine : ∀ a b, order a = order b → key a = key b) : ((t.rows.filter p).map order).Nodup := by
  refine List.Nodup.map_on ?_ (t.rows_nodup.filter p)
  intro a ha b hb same
  exact List.inj_on_of_nodup_map t.keys_nodup (List.mem_filter.mp ha).1 (List.mem_filter.mp hb).1
    (fine a b same)

end OrderBy

end Relational
