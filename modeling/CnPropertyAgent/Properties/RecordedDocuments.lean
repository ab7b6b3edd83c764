import CnPropertyAgent.Properties.RecordedRuns
import CnPropertyAgent.Python.JsonRoundTrip

/-!
Recorded documents.

A document is written by `json.dumps` and UTF-8, and read by the recorded providers. What is
written is read back as itself, so a snapshot is loaded from the document exactly when the
payload has it under the names of its fields, whatever other keys there are and in whatever
order they are written.
-/

namespace CnPropertyAgent

open Python Lianjia

/-- Python writes the float on one line, and JSON reads it back. -/
def Legible [Runtime] (x : Double) : Prop :=
  (∀ limit, Reads (scanOnce limit) x.jsonText (.float x)) ∧ 0x0D ∉ x.jsonText

/-- `json.dumps(payload, ensure_ascii=False)` as a file in UTF-8. -/
def recordDocument [Runtime] (payload : Payload) : Option (List UInt8) :=
  (Json.object payload).dumps.encode?

section

variable [Runtime]

omit [Runtime] in
theorem not_isSurrogate_of_shown {c : CodePoint} (shown : Json.Shown c) : c.isSurrogate = false := by
  have small := shown.2
  simp only [CodePoint.isSurrogate, Bool.and_eq_false_iff, decide_eq_false_iff_not]
  omega

theorem encodable_jsonText (x : Double) : x.jsonText.Encodable := by
  cases x with
  | nan => exact encodable_str _
  | posInf => exact encodable_str _
  | negInf => exact encodable_str _
  | finite q => exact Runtime.encodable_floatRepr _

/-- A payload that JSON can hold is read back from its document. -/
theorem readsAs_recordDocument {limit : Nat} {payload : Payload}
    (fits : (Json.object payload).Fits Legible Str.Encodable limit) :
    ∃ data, recordDocument payload = some data ∧ ∀ other, ReadsAs limit (.ok data) other ↔ other = payload := by
  have encodable : (Json.object payload).dumps.Encodable :=
    Json.of_mem_dumps (p := fun c => c.isSurrogate = false)
      (fun c shown => not_isSurrogate_of_shown shown) (fun x _ => encodable_jsonText x)
      (fun s known c mem _ => known c mem) fits
  have line : 0x0D ∉ (Json.object payload).dumps := by
    intro mem
    refine Json.of_mem_dumps (p := fun c => c ≠ 0x0D) ?_ ?_ ?_ fits 0x0D mem rfl
    · rintro c shown rfl
      exact absurd shown (by decide)
    · rintro x known c inside rfl
      exact known.2 inside
    · rintro s - c - visible rfl
      exact absurd visible (by decide)
  have encoded : recordDocument payload = some ((Json.object payload).dumps.flatMap CodePoint.utf8) :=
    if_pos encodable
  have loaded := Json.loads_dumps (fun x known => known.1) fits
  refine ⟨_, encoded, fun other => ⟨?_, ?_⟩⟩
  · rintro ⟨data, text, same, read, loaded'⟩
    cases same
    cases (readText_encode line encoded).symm.trans read
    cases loaded.symm.trans loaded'
    rfl
  · rintro rfl
    exact ⟨_, _, rfl, readText_encode line encoded, loaded⟩

variable [Pydantic]

/-- **Recorded documents.** A payload that JSON can hold, written with its keys in any order, is
loaded as exactly the snapshots it has under the names of their fields. -/
theorem recorded_documents_round_trip {limit : Nat} {payload written : Payload}
    (fits : (Json.object payload).Fits Legible Str.Encodable limit) (perm : payload.Perm written) :
    ∃ data, recordDocument written = some data ∧ ∀ path : Str,
      (∀ snapshot : LianjiaListingSnapshot, loadListingSnapshot limit path (.ok data) = .ok snapshot ↔
        snapshot.InPayload payload) ∧
      (∀ snapshot : LianjiaTransactionSnapshot, loadTransactionSnapshot limit path (.ok data) = .ok snapshot ↔
        snapshot.InPayload payload) := by
  obtain ⟨data, recorded, reads⟩ := readsAs_recordDocument (Json.fits_object_perm fits perm)
  have distinct : (payload.map Prod.fst).Nodup := by
    cases fits with
    | object distinct => exact distinct
  have batch (batch : RecordedBatch) : batch.InPayload written ↔ batch.InPayload payload := by
    unfold RecordedBatch.InPayload
    rw [← saysText_perm perm distinct, ← saysText_perm perm distinct, Payload.get?_perm perm distinct]
  refine ⟨data, recorded, fun path => ⟨fun snapshot => ?_, fun snapshot => ?_⟩⟩
  · simp only [loadListingSnapshot_ok_iff, reads, exists_eq_left, LianjiaListingSnapshot.validate_eq_ok,
      LianjiaListingSnapshot.InPayload, Payload.get?_perm perm distinct, batch]
  · simp only [loadTransactionSnapshot_ok_iff, reads, exists_eq_left, LianjiaTransactionSnapshot.validate_eq_ok,
      LianjiaTransactionSnapshot.InPayload, Payload.get?_perm perm distinct, batch]

end

/-! ### A document -/

/-- A snapshot of one row, with a key of its own. -/
def samplePayload : Payload :=
  [(str "rows", .array [.object [(str "总价", .text (str "830万")), (str "页", .bool true)]]),
    (str "_note", .null), (str "snapshot_at", .text (str "2024-01-01T00:00:00Z")),
    (str "community_id", .text (str "cm-a"))]

/-- Reads the end of the year 2023. -/
@[reducible] def samplePydantic : Pydantic where
  awareDatetime
    | .text s => if s = str "2024-01-01T00:00:00Z" then .ok sampleCollectedAt
      else .error (str "Input should be a valid datetime")
    | _ => .error (str "Input should be a valid datetime")

theorem valid_sampleCommunity : checkNonempty (str "community_id") (str "cm-a") = [] := by decide +kernel

def sampleSnapshot : LianjiaListingSnapshot where
  sourceUrl := none
  rawPayloadRef := none
  rows := [.object [(str "总价", .text (str "830万")), (str "页", .bool true)]]
  communityId := str "cm-a"
  snapshotAt := sampleCollectedAt
  validUrl := rfl
  validRef := rfl
  validCommunity := valid_sampleCommunity

theorem samplePayload_fits [Runtime] : (Json.object samplePayload).Fits Legible Str.Encodable 3 := by
  have row : (Json.object [(str "总价", .text (str "830万")), (str "页", .bool true)]).Fits Legible
      Str.Encodable 1 := by
    refine .object (by decide) ?_ ?_
    · simp
    · simp only [List.forall_mem_cons]
      exact ⟨.text (encodable_str _), .bool, fun _ mem => nomatch mem⟩
  refine .object (by decide) ?_ ?_
  · simp [samplePayload]
  · simp only [samplePayload, List.forall_mem_cons]
    exact ⟨.array (List.forall_mem_singleton.mpr row), .null, .text (encodable_str _), .text (encodable_str _),
      fun _ mem => nomatch mem⟩

/-- The keys of the document in the opposite order. -/
theorem recorded_documents_of_reversed : let _ := sampleRuntime; let _ := samplePydantic
    ∃ data, recordDocument samplePayload.reverse = some data ∧
      loadListingSnapshot 3 (str "a.json") (.ok data) = .ok sampleSnapshot := by
  intro _ _
  obtain ⟨data, recorded, loaded⟩ :=
    recorded_documents_round_trip samplePayload_fits (List.reverse_perm samplePayload).symm
  refine ⟨data, recorded, ((loaded _).1 sampleSnapshot).mpr ?_⟩
  have distinct : (samplePayload.map Prod.fst).Nodup := by decide +kernel
  have found {name : Str} {value : Json} (mem : (name, value) ∈ samplePayload) :
      samplePayload.get? name = some value := (Payload.get?_eq_some_iff distinct).mpr mem
  refine ⟨found (by simp [samplePayload, sampleSnapshot]), ?_, ?_, ?_, ?_⟩
  · exact ⟨.text (str "2024-01-01T00:00:00Z"), found (by simp [samplePayload]), if_pos rfl⟩
  · exact Or.inl (Payload.get?_eq_none_iff.mpr (by decide +kernel))
  · exact Or.inl (Payload.get?_eq_none_iff.mpr (by decide +kernel))
  · exact found (by simp [samplePayload, sampleSnapshot])

end CnPropertyAgent
