import CnPropertyAgent.Python.Runtime
import Mathlib.Tactic.Linarith

/-!
The middle of a sample.

A value `Splits` a sample when at least half of it is on either side, equal values counted on
both. Whatever lies between the two middle elements of a sorted sample does
(`splits_of_between`), and half the sum of two doubles does lie between them, as long as
rounding is monotone and nothing leaves the range (`Double.half_sum_between`).
-/

namespace Python

section Sample

variable {α : Type} {r : α → α → Bool} {v : α}

/-- At least half of the sample is on either side of the value. -/
structure Splits (r : α → α → Bool) (sample : List α) (v : α) : Prop where
  below : sample.length ≤ 2 * sample.countP (r · v)
  above : sample.length ≤ 2 * sample.countP (r v ·)

theorem Splits.congr {sample sample' : List α} (h : Splits r sample v) (perm : sample.Perm sample') :
    Splits r sample' v where
  below := by
    rw [← perm.length_eq, ← perm.countP_eq]
    exact h.below
  above := by
    rw [← perm.length_eq, ← perm.countP_eq]
    exact h.above

variable {xs : List α}

/-- In a sorted sample, an earlier element is at most a later one. -/
theorem rel_getElem_of_le (sorted : xs.Pairwise (r · · = true)) (refl : ∀ x ∈ xs, r x x = true) {i j : Nat}
    (hi : i < xs.length) (hj : j < xs.length) (le : i ≤ j) : r xs[i] xs[j] = true := by
  rcases Nat.lt_or_eq_of_le le with lt | rfl
  · exact List.pairwise_iff_getElem.mp sorted i j hi hj lt
  · exact refl _ (List.getElem_mem hj)

/-- What is at least the element at `i` has `i + 1` elements below. -/
theorem le_countP_below (sorted : xs.Pairwise (r · · = true)) (refl : ∀ x ∈ xs, r x x = true)
    (trans : ∀ a b c, r a b = true → r b c = true → r a c = true) {i : Nat} (hi : i < xs.length)
    (lower : r xs[i] v = true) : i + 1 ≤ xs.countP (r · v) := by
  have all : (xs.take (i + 1)).countP (r · v) = (xs.take (i + 1)).length := by
    rw [List.countP_eq_length]
    intro x mem
    obtain ⟨k, hk, rfl⟩ := List.mem_take_iff_getElem.mp mem
    have before : k < xs.length := by omega
    exact trans _ _ _ (rel_getElem_of_le sorted refl before hi (by omega)) lower
  have some_ := (List.take_sublist (i + 1) xs).countP_le (p := (r · v))
  rw [all, List.length_take] at some_
  omega

/-- What is at most the element at `j` has all from there on above. -/
theorem le_countP_above (sorted : xs.Pairwise (r · · = true)) (refl : ∀ x ∈ xs, r x x = true)
    (trans : ∀ a b c, r a b = true → r b c = true → r a c = true) {j : Nat} (hj : j < xs.length)
    (upper : r v xs[j] = true) : xs.length - j ≤ xs.countP (r v ·) := by
  have all : (xs.drop j).countP (r v ·) = (xs.drop j).length := by
    rw [List.countP_eq_length]
    intro x mem
    obtain ⟨k, hk, rfl⟩ := List.mem_drop_iff_getElem.mp mem
    have inside : j + k < xs.length := by omega
    exact trans _ _ _ upper (rel_getElem_of_le sorted refl hj inside (Nat.le_add_right j k))
  rw [List.length_drop] at all
  rw [← all]
  exact (List.drop_sublist _ _).countP_le

/-- **The middle.** What lies between the middle elements of a sorted sample splits it. -/
theorem splits_of_between (sorted : xs.Pairwise (r · · = true)) (refl : ∀ x ∈ xs, r x x = true)
    (trans : ∀ a b c, r a b = true → r b c = true → r a c = true) {i j : Nat} (hi : i < xs.length)
    (hj : j < xs.length) (low : xs.length ≤ 2 * (i + 1)) (high : xs.length ≤ 2 * (xs.length - j))
    (lower : r xs[i] v = true) (upper : r v xs[j] = true) : Splits r xs v where
  below := low.trans (Nat.mul_le_mul_left 2 (le_countP_below sorted refl trans hi lower))
  above := high.trans (Nat.mul_le_mul_left 2 (le_countP_above sorted refl trans hj upper))

end Sample

namespace Double

theorem le_self {x : Double} (number : x ≠ .nan) : x.le x = true := by
  cases x <;> simp_all [le, lt]

theorem le_trans {a b c : Double} (h : a.le b = true) (h' : b.le c = true) : a.le c = true := by
  cases a <;> cases b <;> cases c <;> simp_all [le, lt]
  exact h.trans h'

theorem finite_le {p q : ℚ} : (Double.finite p).le (.finite q) = true ↔ p ≤ q := by
  simp [le, lt]

/-- What is between two rationals is one. -/
theorem exists_between {p q : ℚ} {x : Double} (low : (Double.finite p).le x = true)
    (high : x.le (.finite q) = true) : ∃ s, x = .finite s ∧ p ≤ s ∧ s ≤ q := by
  cases x with
  | finite s => exact ⟨s, rfl, finite_le.mp low, finite_le.mp high⟩
  | posInf => simp [le, lt] at high
  | negInf => simp [le, lt] at low
  | nan => simp [le] at low

end Double

/-- A runtime whose rounding keeps the order. -/
class MonotoneRuntime extends Runtime where
  round_mono : ∀ p q : ℚ, p ≤ q → (round p).le (round q) = true

/-- The number and its double are doubles. -/
def Double.Moderate [Runtime] (x : Double) : Prop :=
  ∃ q : ℚ, x = .finite q ∧ Runtime.round q = .finite q ∧ Runtime.round (2 * q) = .finite (2 * q)

theorem Double.Moderate.ne_nan [Runtime] {x : Double} (moderate : x.Moderate) : x ≠ .nan := by
  obtain ⟨q, rfl, -, -⟩ := moderate
  exact fun h => nomatch h

/-- **Half a sum.** `(a + b) / 2` is between `a` and `b`. -/
theorem Double.half_sum_between [MonotoneRuntime] {a b v : Double} (ha : a.Moderate) (hb : b.Moderate)
    (ordered : a.le b = true) (half : (a.add b).div 2 = .ok v) : a.le v = true ∧ v.le b = true := by
  obtain ⟨p, rfl, hp, hp2⟩ := ha
  obtain ⟨q, rfl, hq, hq2⟩ := hb
  have le := finite_le.mp ordered
  have low := MonotoneRuntime.round_mono (2 * p) (p + q) (by linarith)
  have high := MonotoneRuntime.round_mono (p + q) (2 * q) (by linarith)
  rw [hp2] at low
  rw [hq2] at high
  obtain ⟨s, sum, hps, hsq⟩ := exists_between low high
  rw [Double.add, sum] at half
  have quotient : (Double.finite s).div 2 = .ok (Runtime.round (s / 2)) := rfl
  cases quotient.symm.trans half
  have low' := MonotoneRuntime.round_mono p (s / 2) (by linarith)
  have high' := MonotoneRuntime.round_mono (s / 2) q (by linarith)
  rw [hp] at low'
  rw [hq] at high'
  exact ⟨low', high'⟩

end Python
