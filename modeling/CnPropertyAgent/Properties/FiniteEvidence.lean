import CnPropertyAgent.Properties.QualityGates
import CnPropertyAgent.Properties.RowIsolation
import Mathlib.Algebra.Order.Ring.Cast

/-!
Where an infinity passes as evidence.

Every gate rejects a record when a comparison holds, and the models ask of a number only
that it exceed zero, so the positive infinity passes. An infinite deal price makes the
deviation of any unit price a NaN, which no tolerance is below. Of the listings, a numeral
past the range of a double is read as the infinity and stored. Everything else that is
accepted is finite.
-/

namespace CnPropertyAgent

open Python Decision

/-! ### Transactions -/

/-- The numbers of the accepted transaction are finite, and so is the comparison of a
reported unit price, which in exact arithmetic is the one of the rationals. -/
structure FiniteEvidence [Runtime] (record : RawTransactionRecord) (tolerance : Double)
    (n : NormalizedTransaction) : Prop where
  areaSqm : ∃ area, 0 < area ∧ n.transaction.areaSqm = .finite area
  dealPriceCny : ∃ deal, 0 < deal ∧ n.transaction.dealPriceCny = .finite deal
  unitPriceCnySqm : ∃ price, 0 < price ∧ n.transaction.unitPriceCnySqm = .finite price
  consistent : ∀ unitPrice ∈ record.unitPriceCnySqm, ∃ d,
    deviation unitPrice n.transaction.areaSqm n.transaction.dealPriceCny = .ok (.finite d) ∧
      (Double.finite d).le tolerance = true
  exactly : (∀ q, Runtime.round q = .finite q) → ∀ unitPrice ∈ record.unitPriceCnySqm,
    ∃ price area deal share, unitPrice = .finite price ∧ n.transaction.areaSqm = .finite area ∧
      n.transaction.dealPriceCny = .finite deal ∧ tolerance = .finite share ∧
      |price * area - deal| ≤ share * deal

/-- The deal price is infinite, or the unit price derived of it. -/
def Overflowing [Runtime] (record : RawTransactionRecord) : Prop :=
  record.dealPriceCny = some .posInf ∨
    record.unitPriceCnySqm = none ∧ ∃ areaSqm ∈ record.areaSqm, ∃ dealPriceCny ∈ record.dealPriceCny,
      dealPriceCny.div areaSqm = .ok .posInf

section

variable [NearestRuntime]

/-- Taking a number from anything but a NaN leaves a number, or something infinite. -/
theorem sub_finite_cases {m : Double} (number : m ≠ .nan) (d : ℚ) :
    (∃ r, m.sub (.finite d) = .finite r) ∨ (m.sub (.finite d)).abs = .posInf := by
  cases m with
  | finite q =>
      have rounded : (Double.finite q).sub (.finite d) = Runtime.round (q + -d) := rfl
      cases r : Runtime.round (q + -d) with
      | finite r' => exact Or.inl ⟨r', rounded.trans r⟩
      | posInf => exact Or.inr (by rw [rounded, r]; rfl)
      | negInf => exact Or.inr (by rw [rounded, r]; rfl)
      | nan => exact absurd r (NearestRuntime.round_ne_nan _)
  | posInf => exact Or.inr rfl
  | negInf => exact Or.inr rfl
  | nan => exact absurd rfl number

/-- Relative to a finite deal price, what is within the tolerance is finite throughout. -/
theorem finite_of_within {unitPrice areaSqm x : Double} {deal share : ℚ}
    (unitPos : Double.lt 0 unitPrice = true) (areaPos : Double.lt 0 areaSqm = true) (dealPos : 0 < deal)
    (computed : deviation unitPrice areaSqm (.finite deal) = .ok x)
    (within : (Double.finite share).lt x = false) :
    ∃ price area d, unitPrice = .finite price ∧ areaSqm = .finite area ∧ x = .finite d ∧ d ≤ share := by
  unfold deviation at computed
  -- an infinite distance is an infinite share of the deal price, which is not within
  have near {y : Double} (h : y.abs.div (.finite deal) = .ok x) : y.abs ≠ .posInf := by
    intro infinite
    rw [infinite, Double.posInf_div dealPos] at h
    cases h
    cases within
  have finite {m : Double} (number : m ≠ .nan)
      (h : (m.sub (.finite deal)).abs.div (.finite deal) = .ok x) :
      ∃ r, m.sub (.finite deal) = .finite r := (sub_finite_cases number deal).resolve_right (near h)
  rcases Double.finite_or_posInf unitPos with ⟨price, -, rfl⟩ | rfl
  · rcases Double.finite_or_posInf areaPos with ⟨area, -, rfl⟩ | rfl
    · have rounded : (Double.finite price).mul (.finite area) = Runtime.round (price * area) := rfl
      rw [rounded] at computed
      obtain ⟨r, hr⟩ := finite (NearestRuntime.round_ne_nan _) computed
      rw [hr] at computed
      have nonzero : deal ≠ 0 := ne_of_gt dealPos
      have share_eq : Runtime.round (|r| / deal) = x := by
        simpa [Double.abs, Double.div, nonzero] using computed
      refine ⟨price, area, ?_⟩
      cases x with
      | finite d => exact ⟨d, rfl, rfl, rfl, not_lt.mp (of_decide_eq_false within)⟩
      | posInf => cases within
      | negInf =>
          exact absurd share_eq (NearestRuntime.round_ne_negInf _ (div_nonneg (abs_nonneg r) dealPos.le))
      | nan => exact absurd share_eq (NearestRuntime.round_ne_nan _)
    · rw [Double.mul_posInf unitPos] at computed
      exact absurd rfl (near computed)
  · rw [Double.posInf_mul areaPos] at computed
    exact absurd rfl (near computed)

/-- Behind a finite price and its gates, the transaction is finite evidence. -/
theorem finiteEvidence_of_accepted {record : RawTransactionRecord} {community : Community}
    {startDate endDate : Option Date} {tolerance : Double} {n : NormalizedTransaction}
    (h : normalizeTransaction record community startDate endDate tolerance = .ok (.inl n))
    (fits : ¬ Overflowing record) : FiniteEvidence record tolerance n := by
  obtain ⟨passes, _, -, _, -, areaSqm, area, dealPriceCny, price, unitPrice, _, used, -, fields, -⟩ :=
    passesGates_of_accepted h
  obtain ⟨valid, rfl, -⟩ := exists_tolerance_of_validate passes.validated
  obtain ⟨-, -, -, areaPos, -, -, dealPos, unitPos, -⟩ :=
    TransactionFields.errors_eq_nil_iff.mp n.transaction.valid
  have hArea : n.transaction.areaSqm = areaSqm := congrArg TransactionFields.areaSqm fields
  have hDeal : n.transaction.dealPriceCny = dealPriceCny := congrArg TransactionFields.dealPriceCny fields
  have hUnit : n.transaction.unitPriceCnySqm = unitPrice := congrArg TransactionFields.unitPriceCnySqm fields
  rw [hArea] at areaPos
  rw [hDeal] at dealPos
  rw [hUnit] at unitPos
  obtain ⟨deal, dealGt, rfl⟩ := (Double.finite_or_posInf dealPos).resolve_right
    (by rintro rfl; exact fits (Or.inl price))
  obtain ⟨share, hshare⟩ := Double.isFinite_iff.mp valid.finite
  rw [hshare] at passes ⊢
  cases given : record.unitPriceCnySqm with
  | none =>
      have derived : (Double.finite deal).div areaSqm = .ok unitPrice := by rwa [usedUnitPrice, given] at used
      obtain ⟨q, qPos, rfl⟩ := (Double.finite_or_posInf unitPos).resolve_right
        (by rintro rfl; exact fits (Or.inr ⟨given, _, area, _, price, derived⟩))
      obtain ⟨a, aPos, rfl⟩ := (Double.finite_or_posInf areaPos).resolve_right (by
        rintro rfl
        cases derived
        exact absurd qPos (lt_irrefl 0))
      exact ⟨⟨a, aPos, hArea⟩, ⟨deal, dealGt, hDeal⟩, ⟨q, qPos, hUnit⟩, by simp [given], by simp [given]⟩
  | some reported =>
      cases (show Except.ok reported = .ok unitPrice by rwa [usedUnitPrice, given] at used)
      obtain ⟨x, hx⟩ := Double.div_ok_of_pos (a := ((unitPrice.mul areaSqm).sub (.finite deal)).abs) dealPos
      have within := passes.consistent _ given _ area _ price _ hx
      obtain ⟨q, a, d, rfl, rfl, rfl, le⟩ := finite_of_within unitPos areaPos dealGt hx within
      refine ⟨⟨a, zero_lt_iff.mp areaPos, hArea⟩, ⟨deal, dealGt, hDeal⟩, ⟨q, zero_lt_iff.mp unitPos, hUnit⟩,
        ?_, ?_⟩
      · intro reported mem
        cases given.symm.trans mem
        rw [hArea, hDeal]
        exact ⟨d, hx, by simpa [Double.le, Double.lt] using le⟩
      · intro exact reported mem
        cases given.symm.trans mem
        have computed := (deviation_exact exact dealGt).symm.trans hx
        cases computed
        exact ⟨q, a, deal, share, rfl, hArea, hDeal, rfl, (div_le_iff₀ dealGt).mp le⟩

/-- An overflowing record that is accepted is no finite evidence. -/
theorem not_finiteEvidence_of_overflowing {record : RawTransactionRecord} {community : Community}
    {tolerance : Double} {n : NormalizedTransaction} (accepted : AcceptedAs record community n)
    (overflows : Overflowing record) : ¬ FiniteEvidence record tolerance n := by
  obtain ⟨_, -, _, -, areaSqm, area, dealPriceCny, price, unitPrice, _, used, -, fields, -⟩ := accepted
  intro evidence
  rcases overflows with infinite | ⟨absent, areaSqm', area', dealPriceCny', price', derived⟩
  · obtain ⟨deal, -, hdeal⟩ := evidence.dealPriceCny
    rw [fields] at hdeal
    cases price.symm.trans infinite
    cases hdeal
  · obtain ⟨q, -, hunit⟩ := evidence.unitPriceCnySqm
    rw [fields] at hunit
    cases area.symm.trans area'
    cases price.symm.trans price'
    rw [usedUnitPrice, absent] at used
    cases derived.symm.trans used
    cases hunit

end

/-! ### Listing rows -/

namespace Lianjia

open ListingParser

variable [Runtime]

/-- The numbers of an observation are finite. -/
structure FiniteNumbers (listPriceCny : Double) (unitPriceCnySqm areaSqm : Option Double) : Prop where
  listPriceCny : listPriceCny.isFinite = true
  unitPriceCnySqm : ∀ price ∈ unitPriceCnySqm, price.isFinite = true
  areaSqm : ∀ area ∈ areaSqm, area.isFinite = true

/-- The cell of the field holds one numeral, past the range of a double in its unit. -/
def PastRange (cells : Dict Str Json) (field : Field) (units : List Str) (scale : Double → Double) : Prop :=
  ∃ text numeral, cell cells field = .ok (some text) ∧
    findNumerals (withoutUnits units text) = [numeral] ∧ scale (floatOfNumeral numeral) = .posInf

/-- Some number of the row is past the range. -/
def OverflowingCells (cells : Dict Str Json) : Prop :=
  PastRange cells listPriceField wanUnits (·.mul cnyPerWan) ∨
    PastRange cells unitPriceField unitPriceUnits id ∨ PastRange cells areaField areaUnits id

/-- A number is past the range exactly when it is read as the infinity. -/
theorem pastRange_iff {cells : Dict Str Json} {field : Field} {units : List Str} {scale : Double → Double}
    {converter : Str → Option Str → Except Failure Double} {value : Option Double}
    (reads : ∀ text field x, converter text field = .ok x →
      ∃ numeral, findNumerals (withoutUnits units text) = [numeral] ∧ scale (floatOfNumeral numeral) = x)
    (converted : convert cells field converter = .ok value) :
    PastRange cells field units scale ↔ value = some .posInf := by
  constructor
  · rintro ⟨text, numeral, read, found, past⟩
    cases value with
    | none =>
        obtain ⟨text', read', rest⟩ := eq_ok_of_bind converted
        cases read.symm.trans read'
        obtain ⟨x, -, none⟩ := eq_ok_of_bind rest
        cases none
    | some x =>
        obtain ⟨text', read', value⟩ := convert_eq_some converted
        cases read.symm.trans read'
        obtain ⟨numeral', found', same⟩ := reads _ _ _ value
        cases found.symm.trans found'
        rw [← same, past]
  · rintro rfl
    obtain ⟨text, read, value⟩ := convert_eq_some converted
    obtain ⟨numeral, found, past⟩ := reads _ _ _ value
    exact ⟨text, numeral, read, found, past⟩

theorem overflowingCells_iff {cells : Dict Str Json} {read : ListingCells} (h : readCells cells = .ok read) :
    OverflowingCells cells ↔ read.listPriceCny = some .posInf ∨ read.unitPriceCnySqm = some .posInf ∨
      read.areaSqm = some .posInf := by
  obtain ⟨price, unit, area⟩ := readCells_ok h
  have scaled : ∀ text field x, parseWanToCny text field = .ok x → ∃ numeral,
      findNumerals (withoutUnits wanUnits text) = [numeral] ∧ (floatOfNumeral numeral).mul cnyPerWan = x := by
    intro text field x h
    unfold parseWanToCny at h
    cases number : parseNumber text wanUnits field with
    | error e => rw [number] at h; cases h
    | ok y =>
        rw [number] at h
        cases h
        obtain ⟨numeral, found, rfl⟩ := parseNumber_ok number
        exact ⟨numeral, found, rfl⟩
  exact or_congr (pastRange_iff scaled price) (or_congr (pastRange_iff (fun _ _ _ => parseNumber_ok) unit)
    (pastRange_iff (fun _ _ _ => parseNumber_ok) area))

omit [Runtime] in
/-- What exceeds zero is finite unless it is the infinity. -/
theorem finiteNumbers_iff {cells : ListingCells} {listPriceCny : Double} (valid : cells.Valid listPriceCny) :
    FiniteNumbers listPriceCny cells.unitPriceCnySqm cells.areaSqm ↔
      ¬ (some listPriceCny = some .posInf ∨ cells.unitPriceCnySqm = some .posInf ∨
        cells.areaSqm = some .posInf) := by
  have finite {x : Double} (positive : Double.lt 0 x = true) : x.isFinite = true ↔ x ≠ .posInf := by
    rcases Double.finite_or_posInf positive with ⟨q, -, rfl⟩ | rfl <;> simp [Double.isFinite]
  have optional {x? : Option Double} (positive : ∀ x ∈ x?, Double.lt 0 x = true) :
      (∀ x ∈ x?, x.isFinite = true) ↔ x? ≠ some .posInf := by
    cases x? with
    | none => simp
    | some x => simpa using finite (positive x rfl)
  rw [not_or, not_or, ← ne_eq, ← ne_eq, ← ne_eq, ← optional valid.unitPriceCnySqm, ← optional valid.areaSqm,
    ne_eq, Option.some_inj, ← ne_eq, ← finite valid.listPriceCny]
  exact ⟨fun h => ⟨h.1, h.2, h.3⟩, fun h => ⟨h.1, h.2.1, h.2.2⟩⟩

end Lianjia

/-- Exact within the range of a double. -/
def roundToRange (q : ℚ) : Double :=
  if |q| < 2 ^ 1024 then .finite q else if 0 < q then .posInf else .negInf

theorem roundToRange_int (n : ℤ) (h : n.natAbs ≤ 2 ^ 53) : roundToRange n = .finite n := by
  apply if_pos
  have small : |n| < 2 ^ 1024 := by
    rw [Int.abs_eq_natAbs]
    calc (n.natAbs : ℤ) ≤ 2 ^ 53 := by exact_mod_cast h
      _ < 2 ^ 1024 := by decide +kernel
  have cast : ((|n| : ℤ) : ℚ) < ((2 ^ 1024 : ℤ) : ℚ) := Int.cast_lt.mpr small
  rwa [Int.cast_abs, Int.cast_pow, Int.cast_ofNat] at cast

theorem roundToRange_ne_nan (q : ℚ) : roundToRange q ≠ .nan := by
  unfold roundToRange
  split_ifs <;> nofun

theorem roundToRange_ne_negInf (q : ℚ) (nonneg : 0 ≤ q) : roundToRange q ≠ .negInf := by
  unfold roundToRange
  split_ifs with small positive
  · nofun
  · nofun
  · have zero : q = 0 := le_antisymm (not_lt.mp positive) nonneg
    rw [zero, abs_zero] at small
    exact absurd (by decide +kernel) small

/-- The sample runtime with the range of a double. -/
@[reducible] def sampleNearestRuntime : NearestRuntime where
  toRuntime := { sampleRuntime with round := roundToRange, round_int := roundToRange_int }
  round_ne_nan := roundToRange_ne_nan
  round_ne_negInf := roundToRange_ne_negInf

/-- A deal at an infinite price. -/
def soldForInfinity : RawTransactionRecord :=
  ⟨{ sampleRecordFields (str "101") 30 with dealPriceCny := some .posInf, unitPriceCnySqm := some 33708 },
    by decide +kernel, by decide +kernel⟩

/-- A row with a price of four hundred digits. -/
def endlessRow : Json :=
  .object [(str "房源编号", .text (str "101")), (str "总价", .text (List.replicate 400 (CodePoint.ofChar '1')))]

theorem exists_inl_of_map {ε α β γ : Type} {x : Except ε (α ⊕ β)} {f : α → γ} {c : γ}
    (h : x.toOption.bind (fun outcome => outcome.getLeft?.map f) = some c) :
    ∃ a, x = .ok (.inl a) ∧ f a = c := by
  rcases x with e | a | b
  · cases h
  · exact ⟨a, rfl, Option.some.inj h⟩
  · cases h

end CnPropertyAgent
