import CnPropertyAgent.Domain.Validation

/-!
Deterministic identifiers derived from provider-native parts, and the normal form of names.
-/

namespace CnPropertyAgent

open Python

variable [Runtime]

/-- The unit separator between the parts of an identifier. -/
def unitSeparator : Str := [0x1F]

def stableId (idPrefix : String) (parts : List Str) : Except Failure Str :=
  match (Str.join unitSeparator parts).encode? with
  | none => .error (.builtin .unicodeEncodeError)
  | some data => .ok (str idPrefix ++ str "-" ++ (Runtime.sha256 data).take 32)

/-- Parts without surrogates have an identifier, which has none either. -/
theorem stableId_ok (idPrefix : String) {parts : List Str} (text : ∀ part ∈ parts, part.Encodable) :
    ∃ id, stableId idPrefix parts = .ok id ∧ id.Encodable ∧ id ≠ [] := by
  have joined : (Str.join unitSeparator parts).Encodable :=
    encodable_join (by simp [unitSeparator, CodePoint.isSurrogate]) text
  refine ⟨_, by rw [stableId, Str.encode?, if_pos joined], ?_, ?_⟩
  · rw [encodable_append, encodable_append]
    exact ⟨⟨encodable_str _, encodable_str _⟩, (Runtime.encodable_sha256 _).take 32⟩
  · simp [str]

/-- Only parts without surrogates have one. -/
theorem encodable_of_stableId {idPrefix : String} {parts : List Str} {id : Str}
    (hashed : stableId idPrefix parts = .ok id) : ∀ part ∈ parts, part.Encodable := by
  intro part mem
  by_contra surrogate
  have raised : ¬ (Str.join unitSeparator parts).Encodable := fun joined =>
    surrogate (encodable_of_join joined part mem)
  rw [stableId, Str.encode?, if_neg raised] at hashed
  cases hashed

/-- Unicode normalization, case folding and whitespace removed. -/
def normalizeText (value : Str) : Str := (Runtime.casefold (Runtime.nfkc value)).joinSplit

theorem encodable_normalizeText {value : Str} (text : value.Encodable) : (normalizeText value).Encodable := by
  have folded := (Runtime.encodable_casefold_iff _).mpr ((Runtime.encodable_nfkc_iff value).mpr text)
  exact fun c mem => folded c (List.mem_of_mem_filter mem)

/-- The digests of two provider identities. -/
def sampleSha256 (data : List UInt8) : String :=
  if data = (str "lianjia" ++ unitSeparator ++ str "101").flatMap CodePoint.utf8 then
    "924fa63e7cd5545e5c311ade8ad6d9afffeecb525edc179adaaaa53d277b15c7"
  else if data = (str "lianjia" ++ unitSeparator ++ str "102").flatMap CodePoint.utf8 then
    "c29ff78487375cb60fe8ab590f8b27054c463bd3caddffacca4d885b89fe20f3"
  else ""

/-- Python on the texts of the sample batches, none of which is a timestamp. -/
@[reducible] def sampleRuntime : Runtime := Runtime.ascii sampleSha256 fun _ => none

/-- When the sample batches were collected, at the end of the year 2023. -/
def sampleCollectedAt : AwareDatetime := ⟨738885 * dayMicros, false, .utc, by decide, by decide⟩

end CnPropertyAgent
