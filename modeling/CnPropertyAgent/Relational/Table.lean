import Mathlib.Data.List.Induction
import Mathlib.Data.List.Nodup
import Mathlib.Order.Bounds.Basic
import Mathlib.Order.MinMax

/-!
Keyed tables and what an `INSERT ... ON CONFLICT(key) DO UPDATE` does to them.

A table is a list of rows, no two of which share a key. An upsert rewrites the
row with the key of the new one by a fixed conflict rule, or appends the new
row. Everything later said about a stored row comes from two laws: `get?_upsert`
says what one statement does to one key, and `get?_upsertAll` says what a whole
run of statements does to it, namely the left fold of the conflict rule over the
statements with that key. A rule that overwrites every column collapses that
fold to the last write (`get?_upsertAll_of_overwrites`).

`UniqueTable` adds a second uniqueness constraint, which a statement can violate.
-/

namespace Relational

variable {κ ρ υ ω : Type}

/-- What `DO UPDATE SET` makes of the stored row and the excluded one. It never
moves a row to another key. -/
structure OnConflict (key : ρ → κ) where
  merge : ρ → ρ → ρ
  key_merge : ∀ {old new : ρ}, key old = key new → key (merge old new) = key new

/-- The row a statement leaves under the key of `new`, given the one it found. -/
def OnConflict.absorb {key : ρ → κ} (c : OnConflict key) : Option ρ → ρ → ρ
  | none, new => new
  | some old, new => c.merge old new

@[simp] theorem OnConflict.absorb_none {key : ρ → κ} (c : OnConflict key) (new : ρ) :
    c.absorb none new = new := rfl

@[simp] theorem OnConflict.absorb_some {key : ρ → κ} (c : OnConflict key) (old new : ρ) :
    c.absorb (some old) new = c.merge old new := rfl

/-- Every column outside the key is taken from the excluded row. -/
def OnConflict.Overwrites {key : ρ → κ} (c : OnConflict key) : Prop :=
  ∀ old new : ρ, key old = key new → c.merge old new = new

/-- Rows of a relation whose primary key is `key`. -/
structure Table (key : ρ → κ) where
  rows : List ρ
  keys_nodup : (rows.map key).Nodup

namespace Table

variable {key : ρ → κ}

@[ext] theorem ext {t t' : Table key} (h : t.rows = t'.rows) : t = t' := by
  cases t; cases t'; cases h; rfl

instance [DecidableEq ρ] : DecidableEq (Table key) := fun t t' =>
  decidable_of_iff (t.rows = t'.rows) ⟨ext, fun h => h ▸ rfl⟩

def empty (key : ρ → κ) : Table key := ⟨[], List.nodup_nil⟩

@[simp] theorem rows_empty : (empty key).rows = [] := rfl

theorem rows_nodup (t : Table key) : t.rows.Nodup := t.keys_nodup.of_map

end Table

variable [DecidableEq κ]

/-- Rewrite the row with the key of `new`, or append `new`. -/
def upsertRows {key : ρ → κ} (c : OnConflict key) (new : ρ) : List ρ → List ρ
  | [] => [new]
  | old :: rest =>
      if key old = key new then c.merge old new :: rest else old :: upsertRows c new rest

section Rows

variable {key : ρ → κ} {c : OnConflict key}

theorem keys_upsertRows (new : ρ) (rows : List ρ) :
    (upsertRows c new rows).map key =
      if key new ∈ rows.map key then rows.map key else rows.map key ++ [key new] := by
  induction rows with
  | nil => simp [upsertRows]
  | cons old rest ih =>
      by_cases same : key old = key new
      · simp [upsertRows, same, c.key_merge same]
      · have differ : ¬ key new = key old := fun h => same h.symm
        simp only [upsertRows, if_neg same, List.map_cons, ih, List.mem_cons, differ, false_or]
        split <;> simp

theorem keys_nodup_upsertRows (new : ρ) {rows : List ρ} (nodup : (rows.map key).Nodup) :
    ((upsertRows c new rows).map key).Nodup := by
  rw [keys_upsertRows]
  split
  · exact nodup
  · rename_i fresh
    exact List.nodup_append.mpr ⟨nodup, List.nodup_singleton _, fun a ha b hb eq => by
      rw [List.mem_singleton] at hb
      exact fresh (hb ▸ eq ▸ ha)⟩

theorem find?_upsertRows (new : ρ) (rows : List ρ) (k : κ) :
    (upsertRows c new rows).find? (key · = k) =
      if key new = k then some (c.absorb (rows.find? (key · = key new)) new)
      else rows.find? (key · = k) := by
  induction rows with
  | nil => by_cases h : key new = k <;> simp [upsertRows, OnConflict.absorb, h]
  | cons old rest ih =>
      by_cases same : key old = key new
      · by_cases h : key new = k
        · simp [upsertRows, same, h, OnConflict.absorb, (c.key_merge same).trans h]
        · simp [upsertRows, same, h, c.key_merge same]
      · rw [upsertRows, if_neg same, List.find?_cons, List.find?_cons, List.find?_cons, ih]
        by_cases h : key new = k
        · have : ¬ key old = k := fun eq => same (eq.trans h.symm)
          simp [h, this]
        · by_cases hold : key old = k <;> simp [h, hold]

/-- Rows the condition `p` selects are untouched, in place and order, by an
upsert of a row outside `p` under a key that no row of `p` has. -/
theorem filter_upsertRows {p : ρ → Bool} {new : ρ} {rows : List ρ}
    (written : p (c.absorb (rows.find? (key · = key new)) new) = false)
    (stored : ∀ old ∈ rows, key old = key new → p old = false) :
    (upsertRows c new rows).filter p = rows.filter p := by
  induction rows with
  | nil => simpa [upsertRows, OnConflict.absorb] using written
  | cons old rest ih =>
      by_cases same : key old = key new
      · have hold := stored old List.mem_cons_self same
        simp only [same, List.find?_cons, OnConflict.absorb, decide_true] at written
        simp [upsertRows, same, written, hold]
      · have hrest := ih (by simpa [List.find?_cons, same] using written)
          fun z hz => stored z (List.mem_cons_of_mem _ hz)
        simp [upsertRows, same, List.filter_cons, hrest]

end Rows

namespace Table

variable {key : ρ → κ} {c : OnConflict key}

/-- The row stored under a key. -/
def get? (t : Table key) (k : κ) : Option ρ := t.rows.find? (key · = k)

def upsert (c : OnConflict key) (t : Table key) (new : ρ) : Table key :=
  ⟨upsertRows c new t.rows, keys_nodup_upsertRows new t.keys_nodup⟩

/-- A run of statements, first to last. -/
def upsertAll (c : OnConflict key) (t : Table key) (news : List ρ) : Table key :=
  news.foldl (upsert c) t

@[simp] theorem get?_empty (k : κ) : (empty key).get? k = none := rfl

theorem get?_eq_some_iff {t : Table key} {k : κ} {row : ρ} :
    t.get? k = some row ↔ row ∈ t.rows ∧ key row = k := by
  constructor
  · intro h
    exact ⟨List.mem_of_find?_eq_some h, by simpa using List.find?_some h⟩
  · rintro ⟨mem, rfl⟩
    cases found : t.get? (key row) with
    | none => simpa using List.find?_eq_none.mp found row mem
    | some other =>
        have same : key other = key row := by simpa using List.find?_some found
        rw [List.inj_on_of_nodup_map t.keys_nodup (List.mem_of_find?_eq_some found) mem same]

theorem get?_key {t : Table key} {row : ρ} (mem : row ∈ t.rows) : t.get? (key row) = some row :=
  get?_eq_some_iff.mpr ⟨mem, rfl⟩

theorem mem_of_get? {t : Table key} {k : κ} {row : ρ} (h : t.get? k = some row) : row ∈ t.rows :=
  (get?_eq_some_iff.mp h).1

theorem key_of_get? {t : Table key} {k : κ} {row : ρ} (h : t.get? k = some row) : key row = k :=
  (get?_eq_some_iff.mp h).2

theorem get?_eq_none_iff {t : Table key} {k : κ} : t.get? k = none ↔ ∀ row ∈ t.rows, key row ≠ k := by
  simp [get?, List.find?_eq_none]

/-- **One statement.** It decides the row under its own key and no other. -/
theorem get?_upsert (t : Table key) (new : ρ) (k : κ) :
    (t.upsert c new).get? k =
      if key new = k then some (c.absorb (t.get? (key new)) new) else t.get? k :=
  find?_upsertRows new t.rows k

theorem get?_upsert_self (t : Table key) (new : ρ) :
    (t.upsert c new).get? (key new) = some (c.absorb (t.get? (key new)) new) := by
  simp [get?_upsert]

theorem get?_upsert_of_ne (t : Table key) {new : ρ} {k : κ} (h : key new ≠ k) :
    (t.upsert c new).get? k = t.get? k := by
  simp [get?_upsert, h]

theorem mem_upsert {t : Table key} {new row : ρ} :
    row ∈ (t.upsert c new).rows ↔
      row = c.absorb (t.get? (key new)) new ∨ (row ∈ t.rows ∧ key row ≠ key new) := by
  have absorbed : key (c.absorb (t.get? (key new)) new) = key new := by
    cases found : t.get? (key new) with
    | none => rfl
    | some old => exact c.key_merge (key_of_get? found)
  constructor
  · intro mem
    have found := get?_key mem
    by_cases h : key new = key row
    · rw [get?_upsert, if_pos h] at found
      exact Or.inl (Option.some.inj found).symm
    · rw [get?_upsert_of_ne t h] at found
      exact Or.inr ⟨mem_of_get? found, fun eq => h eq.symm⟩
  · rintro (rfl | ⟨mem, ne⟩)
    · exact mem_of_get? (get?_upsert_self t new)
    · exact mem_of_get? ((get?_upsert_of_ne t fun eq => ne eq.symm).trans (get?_key mem))

theorem absorb_of_overwrites (overwrites : c.Overwrites) (t : Table key) (new : ρ) :
    c.absorb (t.get? (key new)) new = new := by
  cases found : t.get? (key new) with
  | none => rfl
  | some old => exact overwrites old new (key_of_get? found)

theorem mem_upsert_of_overwrites (overwrites : c.Overwrites) {t : Table key} {new row : ρ} :
    row ∈ (t.upsert c new).rows ↔ row = new ∨ (row ∈ t.rows ∧ key row ≠ key new) := by
  rw [mem_upsert, absorb_of_overwrites overwrites]

@[simp] theorem upsertAll_nil (t : Table key) : t.upsertAll c [] = t := rfl

@[simp] theorem upsertAll_cons (t : Table key) (new : ρ) (news : List ρ) :
    t.upsertAll c (new :: news) = (t.upsert c new).upsertAll c news := rfl

theorem upsertAll_append (t : Table key) (news news' : List ρ) :
    t.upsertAll c (news ++ news') = (t.upsertAll c news).upsertAll c news' :=
  List.foldl_append

/-- **A run of statements.** The row under `k` is the fold of the conflict rule
over the statements with key `k`, in order. -/
theorem get?_upsertAll (t : Table key) (news : List ρ) (k : κ) :
    (t.upsertAll c news).get? k =
      (news.filter (key · = k)).foldl (fun row new => some (c.absorb row new)) (t.get? k) := by
  induction news generalizing t with
  | nil => rfl
  | cons new news ih =>
      rw [upsertAll_cons, ih, get?_upsert]
      by_cases h : key new = k
      · simp [h]
      · simp [h]

/-- Statements with other keys leave the row under `k` alone. -/
theorem get?_upsertAll_of_forall_ne (t : Table key) {news : List ρ} {k : κ}
    (h : ∀ new ∈ news, key new ≠ k) : (t.upsertAll c news).get? k = t.get? k := by
  have none_left : news.filter (key · = k) = [] := by simpa using h
  rw [get?_upsertAll, none_left, List.foldl_nil]

/-- A projection that the conflict rule takes from the excluded row is, after a
run, that of the last statement with the key. -/
theorem map_get?_upsertAll {α : Type} {f : ρ → α}
    (taken : ∀ old new, key old = key new → f (c.merge old new) = f new)
    (t : Table key) (news : List ρ) (k : κ) :
    ((t.upsertAll c news).get? k).map f =
      ((news.filter (key · = k)).getLast?.map f).or ((t.get? k).map f) := by
  induction news using List.reverseRecOn with
  | nil => simp
  | append_singleton news new ih =>
      rw [upsertAll_append, upsertAll_cons, upsertAll_nil, get?_upsert, List.filter_append]
      by_cases h : key new = k
      · subst h
        cases found : (t.upsertAll c news).get? (key new) with
        | none => simp [OnConflict.absorb]
        | some old => simp [OnConflict.absorb, taken old new (key_of_get? found)]
      · simp [h, ih]

/-- A column that all statements set alike has that value under every key they write. -/
theorem map_get?_upsertAll_of_mem {α : Type} {f : ρ → α} {a : α}
    (taken : ∀ old new, key old = key new → f (c.merge old new) = f new) (t : Table key)
    {news : List ρ} (alike : ∀ new ∈ news, f new = a) {new : ρ} (mem : new ∈ news) :
    ((t.upsertAll c news).get? (key new)).map f = some a := by
  have present : new ∈ news.filter (key · = key new) :=
    List.mem_filter.mpr ⟨mem, decide_eq_true rfl⟩
  have nonempty := List.ne_nil_of_mem present
  rw [map_get?_upsertAll taken, List.getLast?_eq_some_getLast nonempty, Option.map_some,
    Option.some_or, Option.some_inj]
  exact alike _ (List.mem_of_mem_filter (List.getLast_mem nonempty))

/-- **Last write wins.** Under a rule that overwrites every column, the row under
`k` is the last statement with key `k`, or the row found there. -/
theorem get?_upsertAll_of_overwrites (overwrites : c.Overwrites) (t : Table key) (news : List ρ)
    (k : κ) :
    (t.upsertAll c news).get? k = (news.filter (key · = k)).getLast?.or (t.get? k) := by
  simpa using map_get?_upsertAll (f := id) overwrites t news k

/-- Statements under distinct keys all end up stored. -/
theorem get?_upsertAll_of_mem (overwrites : c.Overwrites) (t : Table key) {news : List ρ}
    (nodup : (news.map key).Nodup) {new : ρ} (mem : new ∈ news) :
    (t.upsertAll c news).get? (key new) = some new := by
  have last : (news.filter (key · = key new)).getLast? = some new := by
    have present : new ∈ news.filter (key · = key new) := List.mem_filter.mpr ⟨mem, decide_eq_true rfl⟩
    rw [List.getLast?_eq_some_getLast (List.ne_nil_of_mem present)]
    obtain ⟨stored, same⟩ := List.mem_filter.mp (List.getLast_mem (List.ne_nil_of_mem present))
    rw [List.inj_on_of_nodup_map nodup stored mem (of_decide_eq_true same)]
  rw [get?_upsertAll_of_overwrites overwrites, last, Option.some_or]

/-- A key is present after a run exactly when it was present or was written. -/
theorem isSome_get?_upsertAll (t : Table key) (news : List ρ) (k : κ) :
    ((t.upsertAll c news).get? k).isSome ↔
      (t.get? k).isSome ∨ ∃ new ∈ news, key new = k := by
  induction news generalizing t with
  | nil => simp
  | cons new news ih =>
      rw [upsertAll_cons, ih, get?_upsert]
      by_cases h : key new = k
      · simp [h]
      · simp [h]

/-- Rows the condition `p` selects survive a run, in place and order, when every
row written is outside `p` and no row of `p` has a written key. -/
theorem filter_upsertAll {p : ρ → Bool} {news : List ρ}
    (written : ∀ new ∈ news, ∀ old : Option ρ, (∀ row ∈ old, key row = key new) →
      p (c.absorb old new) = false) :
    ∀ t : Table key, (∀ new ∈ news, ∀ old ∈ t.rows, key old = key new → p old = false) →
      (t.upsertAll c news).rows.filter p = t.rows.filter p := by
  induction news with
  | nil => intro t _; rfl
  | cons new news ih =>
      intro t stored
      have absorbed : p (c.absorb (t.get? (key new)) new) = false :=
        written new List.mem_cons_self _ fun row found => key_of_get? found
      have step : (t.upsert c new).rows.filter p = t.rows.filter p :=
        filter_upsertRows absorbed (stored new List.mem_cons_self)
      rw [upsertAll_cons, ih (fun n hn => written n (List.mem_cons_of_mem _ hn)), step]
      intro n hn old hold same
      rcases mem_upsert.mp hold with rfl | ⟨mem, _⟩
      · exact absorbed
      · exact stored n (List.mem_cons_of_mem _ hn) old mem same

/-- **Frame.** Statements that set a column alike, under keys stored with that value or
not at all, leave the selections of another value of the column as they were. -/
theorem filter_upsertAll_of_column {α : Type} {f : ρ → α} {a : α} {p : ρ → Bool}
    (other : ∀ row, p row = true → f row ≠ a)
    (taken : ∀ old new, key old = key new → f (c.merge old new) = f new) (t : Table key)
    {news : List ρ} (alike : ∀ new ∈ news, f new = a)
    (stored : ∀ new ∈ news, ∀ row, t.get? (key new) = some row → f row = a) :
    (t.upsertAll c news).rows.filter p = t.rows.filter p := by
  have outside : ∀ row, f row = a → p row = false := by
    intro row same
    by_contra selected
    exact other row (Bool.eq_true_of_not_eq_false selected) same
  apply filter_upsertAll
  · intro new mem old found
    apply outside
    cases old with
    | none => exact alike new mem
    | some old => exact (taken old new (found old rfl)).trans (alike new mem)
  · intro new mem old hold same
    exact outside old (stored new mem old (get?_eq_some_iff.mpr ⟨hold, same⟩))

/-! ### The same run again -/

/-- On the rows of one key the conflict rule is associative and idempotent, so that a
run of statements is worth one statement, and the same run again adds nothing. -/
structure Band (c : OnConflict key) : Prop where
  assoc : ∀ x y z : ρ, key x = key y → key y = key z →
    c.merge (c.merge x y) z = c.merge x (c.merge y z)
  idem : ∀ x : ρ, c.merge x x = x

omit [DecidableEq κ] in
theorem band_of_overwrites (overwrites : c.Overwrites) : Band c where
  assoc x y z xy yz := by
    have inner := overwrites y z yz
    rw [overwrites _ z ((c.key_merge xy).trans yz), inner, overwrites x z (xy.trans yz)]
  idem x := overwrites x x rfl

section Again

variable {k : κ}

omit [DecidableEq κ] in
theorem key_foldl_merge {x : ρ} (hx : key x = k) {news : List ρ} (hnews : ∀ new ∈ news, key new = k) :
    key (news.foldl c.merge x) = k := by
  induction news generalizing x with
  | nil => exact hx
  | cons new news ih =>
      have same := hnews new List.mem_cons_self
      apply ih
      · rw [c.key_merge (hx.trans same.symm), same]
      · intro n hn
        exact hnews n (List.mem_cons_of_mem _ hn)

omit [DecidableEq κ] in
/-- A run after `x` merges `x` with what the run itself makes. -/
theorem foldl_merge (band : Band c) {x r : ρ} (hx : key x = k) (hr : key r = k) {news : List ρ}
    (hnews : ∀ new ∈ news, key new = k) :
    news.foldl c.merge (c.merge x r) = c.merge x (news.foldl c.merge r) := by
  induction news generalizing r with
  | nil => rfl
  | cons new news ih =>
      have same := hnews new List.mem_cons_self
      rw [List.foldl_cons, List.foldl_cons, band.assoc x r new (hx.trans hr.symm) (hr.trans same.symm)]
      apply ih
      · rw [c.key_merge (hr.trans same.symm), same]
      · intro n hn
        exact hnews n (List.mem_cons_of_mem _ hn)

omit [DecidableEq κ] in
/-- On what a run left under a key, its statements with that key change nothing. -/
theorem foldl_absorb_again (band : Band c) {news : List ρ} (hnews : ∀ new ∈ news, key new = k)
    {found : Option ρ} (hfound : ∀ row ∈ found, key row = k) :
    news.foldl (fun row new => some (c.absorb row new))
        (news.foldl (fun row new => some (c.absorb row new)) found) =
      news.foldl (fun row new => some (c.absorb row new)) found := by
  have run : ∀ (rows : List ρ) (x : ρ),
      rows.foldl (fun row new => some (c.absorb row new)) (some x) = some (rows.foldl c.merge x) := by
    intro rows
    induction rows with
    | nil => intro x; rfl
    | cons row rows ih => intro x; exact ih _
  cases news with
  | nil => rfl
  | cons r rest =>
      have hr := hnews r List.mem_cons_self
      have hrest : ∀ new ∈ rest, key new = k := fun n hn => hnews n (List.mem_cons_of_mem _ hn)
      have whole := key_foldl_merge (c := c) hr hrest
      cases found with
      | none =>
          simp only [List.foldl_cons, OnConflict.absorb_none, run]
          rw [foldl_merge band whole hr hrest, band.idem]
      | some x =>
          have hx := hfound x rfl
          simp only [List.foldl_cons, run]
          rw [foldl_merge band hx hr hrest,
            foldl_merge band ((c.key_merge (hx.trans whole.symm)).trans whole) hr hrest,
            band.assoc _ _ _ (hx.trans whole.symm) rfl, band.idem]

end Again

/-- Tables with the same keys in order and the same row under each are equal. -/
theorem ext_get? {t t' : Table key} (keys : t.rows.map key = t'.rows.map key)
    (rows : ∀ k, t.get? k = t'.get? k) : t = t' := by
  have listed : ∀ u : Table key, (u.rows.map key).filterMap u.get? = u.rows := by
    intro u
    have each : ∀ row ∈ u.rows, (u.get? ∘ key) row = some row := fun row mem => get?_key mem
    rw [List.filterMap_map, List.filterMap_congr each, List.filterMap_some]
  apply ext
  rw [← listed t, ← listed t', keys]
  exact List.filterMap_congr fun k _ => rows k

/-- A run over keys that are all present adds none. -/
theorem keys_upsertAll (t : Table key) {news : List ρ} (present : ∀ new ∈ news, key new ∈ t.rows.map key) :
    (t.upsertAll c news).rows.map key = t.rows.map key := by
  induction news generalizing t with
  | nil => rfl
  | cons new news ih =>
      have one : (t.upsert c new).rows.map key = t.rows.map key := by
        rw [upsert, keys_upsertRows, if_pos (present new List.mem_cons_self)]
      rw [upsertAll_cons, ih, one]
      intro n hn
      rw [one]
      exact present n (List.mem_cons_of_mem _ hn)

theorem mem_keys_iff {t : Table key} {k : κ} : k ∈ t.rows.map key ↔ (t.get? k).isSome := by
  simp [Option.isSome_iff_exists, get?_eq_some_iff]

/-- **Replay.** A run of statements, again, leaves the table as it is. -/
theorem upsertAll_upsertAll (band : Band c) (t : Table key) (news : List ρ) :
    (t.upsertAll c news).upsertAll c news = t.upsertAll c news := by
  apply ext_get?
  · apply keys_upsertAll
    intro new mem
    rw [mem_keys_iff, isSome_get?_upsertAll]
    exact Or.inr ⟨new, mem, rfl⟩
  · intro k
    rw [get?_upsertAll (t.upsertAll c news), get?_upsertAll t]
    apply foldl_absorb_again band
    · intro new mem
      exact of_decide_eq_true (List.mem_filter.mp mem).2
    · intro row found
      exact key_of_get? found

/-! ### Columns that keep the least value -/

/-- Where the conflict rule keeps the lesser value of a column, a run from the empty
table leaves the least of the values written under the key. -/
theorem isLeast_get?_upsertAll [LinearOrder ω] {f : ρ → ω}
    (least : ∀ old new, key old = key new → f (c.merge old new) = min (f old) (f new))
    {news : List ρ} {k : κ} {row : ρ} (found : ((empty key).upsertAll c news).get? k = some row) :
    IsLeast {x | ∃ new ∈ news, key new = k ∧ f new = x} (f row) := by
  induction news using List.reverseRecOn generalizing row with
  | nil => cases found
  | append_singleton news new ih =>
      rw [upsertAll_append, upsertAll_cons, upsertAll_nil, get?_upsert] at found
      by_cases h : key new = k
      · subst h
        rw [if_pos rfl, Option.some_inj] at found
        subst found
        cases stored : ((empty key).upsertAll c news).get? (key new) with
        | none =>
            have absent : ∀ n ∈ news, key n ≠ key new := by
              intro n hn same
              have present := (isSome_get?_upsertAll (c := c) (empty key) news (key new)).mpr
                (Or.inr ⟨n, hn, same⟩)
              rw [stored] at present
              cases present
            constructor
            · exact ⟨new, List.mem_append_right _ (List.mem_singleton_self _), rfl, rfl⟩
            · rintro _ ⟨n, hn, same, rfl⟩
              rcases List.mem_append.mp hn with before | last
              · exact absurd same (absent n before)
              · rw [List.mem_singleton.mp last]
                exact le_refl _
        | some old =>
            obtain ⟨⟨n, hn, same, value⟩, lower⟩ := ih stored
            have merged := least old new (key_of_get? stored)
            rw [OnConflict.absorb, merged]
            constructor
            · rcases min_choice (f old) (f new) with eq | eq
              · exact ⟨n, List.mem_append_left _ hn, same, value.trans eq.symm⟩
              · exact ⟨new, List.mem_append_right _ (List.mem_singleton_self _), rfl, eq.symm⟩
            · rintro _ ⟨n', hn', same', rfl⟩
              rcases List.mem_append.mp hn' with before | last
              · exact (min_le_left _ _).trans (lower ⟨n', before, same', rfl⟩)
              · rw [List.mem_singleton.mp last]
                exact min_le_right _ _
      · rw [if_neg h] at found
        obtain ⟨⟨n, hn, same, value⟩, lower⟩ := ih found
        constructor
        · exact ⟨n, List.mem_append_left _ hn, same, value⟩
        · rintro _ ⟨n', hn', same', rfl⟩
          rcases List.mem_append.mp hn' with before | last
          · exact lower ⟨n', before, same', rfl⟩
          · exact absurd (List.mem_singleton.mp last ▸ same') h

end Table

/-! ### A second uniqueness constraint -/

/-- A table whose rows are also told apart by `alt`. -/
structure UniqueTable (key : ρ → κ) (alt : ρ → υ) extends Table key where
  alts_nodup : (rows.map alt).Nodup

namespace UniqueTable

variable {key : ρ → κ} {alt : ρ → υ} {c : OnConflict key}

omit [DecidableEq κ] in
@[ext] theorem ext {t t' : UniqueTable key alt} (h : t.toTable = t'.toTable) : t = t' := by
  cases t; cases t'; cases h; rfl

def empty (key : ρ → κ) (alt : ρ → υ) : UniqueTable key alt := ⟨Table.empty key, List.nodup_nil⟩

/-- The row a statement would leave carries the alternate key of another row. -/
def Violates (c : OnConflict key) (t : UniqueTable key alt) (new : ρ) : Prop :=
  ∃ other ∈ t.rows, key other ≠ key new ∧ alt other = alt (c.absorb (t.get? (key new)) new)

theorem alts_nodup_upsert {t : UniqueTable key alt} {new : ρ} (accepted : ¬ t.Violates c new) :
    ((t.toTable.upsert c new).rows.map alt).Nodup := by
  refine List.Nodup.map_on ?_ (Table.rows_nodup _)
  intro x hx y hy same
  rcases Table.mem_upsert.mp hx with rfl | ⟨hx, nx⟩ <;> rcases Table.mem_upsert.mp hy with rfl | ⟨hy, ny⟩
  · rfl
  · exact absurd ⟨y, hy, ny, same.symm⟩ accepted
  · exact absurd ⟨x, hx, nx, same⟩ accepted
  · exact List.inj_on_of_nodup_map t.alts_nodup hx hy same

variable [DecidableEq υ]

instance (t : UniqueTable key alt) (new : ρ) : Decidable (t.Violates c new) :=
  inferInstanceAs (Decidable (∃ other ∈ t.rows, _))

/-- An upsert that the constraint can refuse. -/
def upsert? (c : OnConflict key) (t : UniqueTable key alt) (new : ρ) : Option (UniqueTable key alt) :=
  if accepted : t.Violates c new then none
  else some ⟨t.toTable.upsert c new, alts_nodup_upsert accepted⟩

theorem upsert?_eq_none_iff {t : UniqueTable key alt} {new : ρ} :
    t.upsert? c new = none ↔ t.Violates c new := by
  unfold upsert?
  split <;> simp [*]

theorem toTable_of_upsert? {t t' : UniqueTable key alt} {new : ρ} (h : t.upsert? c new = some t') :
    t'.toTable = t.toTable.upsert c new := by
  unfold upsert? at h
  split at h
  · cases h
  · cases h; rfl

end UniqueTable

end Relational
