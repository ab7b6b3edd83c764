import CnPropertyAgent.Domain.Models
import CnPropertyAgent.Python.Collections

/-!
Vocabulary shared by the metrics: medians over enough values, and the checks of
the subject and of the sample threshold.
-/

namespace CnPropertyAgent

open Python Relational

/-- `MINIMUM_SAMPLE_COUNT`. -/
def minimumSampleCount : Int := 3

/-- The default passes the check of its parameter. -/
theorem one_le_minimumSampleCount : (1 : Int) ≤ minimumSampleCount := by decide

structure MedianMetric where
  value : Option Double
  usableCount : Nat
deriving DecidableEq

/-- The metric of an empty sample, which is also the default of every field. -/
def MedianMetric.absent : MedianMetric := ⟨none, 0⟩

/-- `xs[i]`. -/
def item {α : Type} (xs : List α) (i : Nat) : Except Failure α :=
  match xs[i]? with
  | some x => .ok x
  | none => .error (.builtin (.indexError (str "index out of range")))

theorem item_ok {α : Type} {xs : List α} {i : Nat} (h : i < xs.length) : item xs i = .ok xs[i] := by
  simp [item, h]

/-- `xs[-1]`. -/
def lastItem {α : Type} (xs : List α) : Except Failure α :=
  match xs.getLast? with
  | some x => .ok x
  | none => .error (.builtin (.indexError (str "index out of range")))

theorem lastItem_ok {α : Type} {xs : List α} (h : xs ≠ []) : lastItem xs = .ok (xs.getLast h) := by
  simp [lastItem, List.getLast?_eq_some_getLast h]

section

variable [Runtime]

/-- `statistics.median`. -/
def median (values : List Double) : Except Failure Double := do
  let data := Runtime.sorted values
  let n := data.length
  if n = 0 then raiseValueError (str "no median for empty data")
  else if n % 2 = 1 then item data (n / 2)
  else
    let i := n / 2
    let lower ← item data (i - 1)
    let upper ← item data i
    (lower.add upper).div 2

def medianMetric (values : List Double) (minimum : Int) : Except Failure MedianMetric :=
  if values.length < minimum then .ok ⟨none, values.length⟩
  else (median values).map fun value => ⟨some value, values.length⟩

theorem median_ok {values : List Double} (nonempty : values ≠ []) :
    ∃ value, median values = .ok value := by
  have positive : 0 < (Runtime.sorted values).length := by
    rw [(Runtime.perm_sorted values).length_eq]
    exact List.length_pos_of_ne_nil nonempty
  unfold median
  rw [if_neg (by omega)]
  split
  · rw [item_ok (by omega)]
    exact ⟨_, rfl⟩
  · dsimp only
    rw [item_ok (by omega), item_ok (by omega)]
    obtain ⟨half, hhalf⟩ := Double.div_ok (a := ((Runtime.sorted values)[
      (Runtime.sorted values).length / 2 - 1]).add (Runtime.sorted values)[
      (Runtime.sorted values).length / 2]) (b := 2) (by decide)
    exact ⟨half, congrArg (Except.mapError Failure.builtin) hhalf⟩

/-- A median is taken of enough values only, so it always exists. -/
theorem medianMetric_ok (values : List Double) {minimum : Int} (h : 1 ≤ minimum) :
    ∃ metric, medianMetric values minimum = .ok metric := by
  unfold medianMetric
  split
  · exact ⟨_, rfl⟩
  · have nonempty : values ≠ [] := by
      rintro rfl
      simp at *
      omega
    obtain ⟨value, hvalue⟩ := median_ok nonempty
    rw [hvalue]
    exact ⟨_, rfl⟩

/-- Of numbers, a median forgets the order. -/
theorem medianMetric_congr {xs ys : List Double} (perm : xs.Perm ys) (numbers : ∀ x ∈ xs, x ≠ .nan)
    (minimum : Int) : medianMetric xs minimum = medianMetric ys minimum := by
  have medians : median xs = median ys := by
    unfold median
    rw [Runtime.sorted_congr perm numbers]
  rw [medianMetric, medianMetric, perm.length_eq, medians]

end

def validateMinimumSampleCount (value : Int) : Except Failure Int :=
  if value < 1 then
    raiseValueError (str "minimum_sample_count must be at least 1, got " ++ intStr value)
  else .ok value

def validateCommunityId (value : Str) : Except Failure Str :=
  if value.strip = [] then raiseValueError (str "community_id must not be blank") else .ok value

theorem validateMinimumSampleCount_eq_ok {value minimum : Int} :
    validateMinimumSampleCount value = .ok minimum ↔ 1 ≤ value ∧ minimum = value := by
  unfold validateMinimumSampleCount raiseValueError
  split_ifs with low
  · exact iff_of_false (by simp) fun h => absurd h.1 (not_le.mpr low)
  · rw [Except.ok.injEq, eq_comm]
    exact (and_iff_right (not_lt.mp low)).symm

theorem validateCommunityId_eq_ok {value communityId : Str} :
    validateCommunityId value = .ok communityId ↔ value.strip ≠ [] ∧ communityId = value := by
  unfold validateCommunityId raiseValueError
  split_ifs with blank
  · exact iff_of_false (by simp) fun h => h.1 blank
  · rw [Except.ok.injEq, eq_comm]
    exact (and_iff_right blank).symm

/-- `sorted(set(xs))` of texts. -/
def sortedSet (xs : List Str) : List Str := orderBy id (firstOccurrences xs)

@[simp] theorem mem_sortedSet {xs : List Str} {x : Str} : x ∈ sortedSet xs ↔ x ∈ xs := by
  simp [sortedSet]

theorem sortedSet_congr {xs ys : List Str} (same : ∀ x, x ∈ xs ↔ x ∈ ys) : sortedSet xs = sortedSet ys := by
  apply orderBy_congr
  · rw [List.map_id]
    exact nodup_firstOccurrences xs
  · rw [List.map_id]
    exact nodup_firstOccurrences ys
  · intro x
    rw [mem_firstOccurrences, mem_firstOccurrences, same]

/-- `", ".join(repr(value) for value in sorted(values))`. -/
def render [Runtime] (values : List Str) : Str :=
  Str.join (str ", ") ((sortedSet values).map Str.pyRepr)

end CnPropertyAgent
