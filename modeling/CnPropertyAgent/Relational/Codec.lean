import CnPropertyAgent.Relational.Table

/-!
Rows as encoded values.

A table whose rows are all encodings of values reads back without failure, and
stays such a table under every statement whose conflict rule merges encodings
into an encoding. A rule that overwrites every column always does.
-/

namespace Relational

variable {κ ρ α ε : Type}

/-- Every row is the encoding of some value. -/
def EncodedBy (encode : α → ρ) (rows : List ρ) : Prop := ∀ row ∈ rows, ∃ a, encode a = row

theorem EncodedBy.exists_map {encode : α → ρ} {rows : List ρ} (h : EncodedBy encode rows) :
    ∃ items : List α, items.map encode = rows := by
  induction rows with
  | nil => exact ⟨[], rfl⟩
  | cons row rows ih =>
      obtain ⟨a, rfl⟩ := h row List.mem_cons_self
      obtain ⟨items, rfl⟩ := ih fun r hr => h r (List.mem_cons_of_mem _ hr)
      exact ⟨a :: items, rfl⟩

/-- Encoded values are read back as they are, in order. -/
theorem mapM_decode {encode : α → ρ} {decode : ρ → Except ε α}
    (law : ∀ a, decode (encode a) = .ok a) (items : List α) :
    (items.map encode).mapM decode = .ok items := by
  induction items with
  | nil => rfl
  | cons a items ih =>
      rw [List.map_cons, List.mapM_cons, law, ih]
      rfl

/-- Encoded rows read back as a list of values with those rows. -/
theorem EncodedBy.mapM_decode {encode : α → ρ} {decode : ρ → Except ε α} {rows : List ρ}
    (h : EncodedBy encode rows) (law : ∀ a, decode (encode a) = .ok a) :
    ∃ items, rows.mapM decode = .ok items ∧ items.map encode = rows := by
  obtain ⟨items, rfl⟩ := h.exists_map
  exact ⟨items, Relational.mapM_decode law items, rfl⟩

/-- A decoded list has the values whose encodings it was read from. -/
theorem mem_iff_of_map_eq {encode : α → ρ} (injective : Function.Injective encode) {items : List α}
    {rows : List ρ} (h : items.map encode = rows) {a : α} : a ∈ items ↔ encode a ∈ rows := by
  rw [← h, List.mem_map_of_injective injective]

/-- Values decoded from rows with distinct projections are distinct there. -/
theorem nodup_map_of_map_eq {β : Type} {encode : α → ρ} {f : ρ → β} {items : List α}
    {rows : List ρ} (h : items.map encode = rows) (nodup : (rows.map f).Nodup) :
    (items.map fun a => f (encode a)).Nodup := by
  rwa [← h, List.map_map] at nodup

/-- An encoding that decodes is injective. -/
theorem injective_of_decode {encode : α → ρ} {decode : ρ → Except ε α}
    (law : ∀ a, decode (encode a) = .ok a) : Function.Injective encode := by
  intro a b same
  have read := law a
  rw [same, law b] at read
  exact (Except.ok.inj read).symm

theorem EncodedBy.of_subset {encode : α → ρ} {rows rows' : List ρ} (h : EncodedBy encode rows)
    (sub : ∀ row ∈ rows', row ∈ rows) : EncodedBy encode rows' := fun row mem => h row (sub row mem)

theorem encodedBy_nil {encode : α → ρ} : EncodedBy encode [] := fun _ h => nomatch h

variable [DecidableEq κ] {key : ρ → κ} {c : OnConflict key} {encode : α → ρ} {t : Table key}

/-- A statement that merges encodings into an encoding keeps the table encoded. -/
theorem EncodedBy.upsert (h : EncodedBy encode t.rows) {a : α}
    (merges : ∀ b, key (encode b) = key (encode a) → ∃ d, encode d = c.merge (encode b) (encode a)) :
    EncodedBy encode (t.upsert c (encode a)).rows := by
  intro row mem
  rcases Table.mem_upsert.mp mem with rfl | ⟨stored, _⟩
  · cases found : t.get? (key (encode a)) with
    | none => exact ⟨a, rfl⟩
    | some old =>
        obtain ⟨b, rfl⟩ := h old (Table.mem_of_get? found)
        exact merges b (Table.key_of_get? found)
  · exact h row stored

theorem EncodedBy.upsertAll (h : EncodedBy encode t.rows) {news : List ρ} (encoded : EncodedBy encode news)
    (merges : ∀ a b, key (encode b) = key (encode a) → ∃ d, encode d = c.merge (encode b) (encode a)) :
    EncodedBy encode (t.upsertAll c news).rows := by
  induction news generalizing t with
  | nil => exact h
  | cons new news ih =>
      obtain ⟨a, rfl⟩ := encoded new List.mem_cons_self
      exact ih (h.upsert (merges a)) fun row mem => encoded row (List.mem_cons_of_mem _ mem)

theorem EncodedBy.upsert_of_overwrites (overwrites : c.Overwrites) (h : EncodedBy encode t.rows)
    (a : α) : EncodedBy encode (t.upsert c (encode a)).rows :=
  h.upsert fun b same => ⟨a, (overwrites (encode b) (encode a) same).symm⟩

theorem EncodedBy.upsertAll_of_overwrites (overwrites : c.Overwrites)
    (h : EncodedBy encode t.rows) (items : List α) :
    EncodedBy encode (t.upsertAll c (items.map encode)).rows := by
  induction items generalizing t with
  | nil => exact h
  | cons a items ih => exact ih (h.upsert_of_overwrites overwrites a)

end Relational
