import CnPropertyAgent.Python.Text

/-!
UTF-8 is uniquely decodable: the encoding of one code point is never the start of that
of another, so different texts have different bytes. Surrogates, which no text that is
encoded holds, make no exception.
-/

namespace Python

/-- A code without a word that starts another one is uniquely decodable. -/
theorem flatMap_injective {α β : Type} {code : α → List β} (nonempty : ∀ a, code a ≠ [])
    (apart : ∀ a b s t, code a ++ s = code b ++ t → a = b) :
    Function.Injective (List.flatMap code) := by
  intro xs ys same
  induction xs generalizing ys with
  | nil =>
      cases ys with
      | nil => rfl
      | cons y ys => simp [nonempty y] at same
  | cons x xs ih =>
      cases ys with
      | nil => simp [nonempty x] at same
      | cons y ys =>
          rw [List.flatMap_cons, List.flatMap_cons] at same
          obtain rfl := apart x y _ _ same
          rw [ih (List.append_cancel_left same)]

/-- The code point that bytes start with: the first byte tells the length of its code. -/
def firstCodePoint (bytes : List UInt8) : Nat :=
  let byte (i : Nat) := (bytes.getD i 0).toNat
  if byte 0 < 0x80 then byte 0
  else if byte 0 < 0xE0 then (byte 0 - 0xC0) * 64 + (byte 1 - 0x80)
  else if byte 0 < 0xF0 then (byte 0 - 0xE0) * 4096 + (byte 1 - 0x80) * 64 + (byte 2 - 0x80)
  else (byte 0 - 0xF0) * 262144 + (byte 1 - 0x80) * 4096 + (byte 2 - 0x80) * 64 + (byte 3 - 0x80)

theorem toNat_toUInt8 {n : Nat} (h : n < 256) : n.toUInt8.toNat = n := by
  simp [Nat.toUInt8, Nat.mod_eq_of_lt h]

/-- The code of a code point is read back, whatever follows it. -/
theorem firstCodePoint_utf8 (c : CodePoint) (rest : List UInt8) :
    firstCodePoint (c.utf8 ++ rest) = c.val := by
  have bound := c.isLt
  unfold CodePoint.utf8
  dsimp only
  split_ifs with one two three
  · simp only [firstCodePoint, List.cons_append, List.getD_cons_zero, List.getD_cons_succ]
    rw [toNat_toUInt8 (by omega), if_pos one]
  · simp only [firstCodePoint, List.cons_append, List.getD_cons_zero, List.getD_cons_succ]
    rw [toNat_toUInt8 (by omega), toNat_toUInt8 (by omega), if_neg (by omega), if_pos (by omega)]
    omega
  · simp only [firstCodePoint, List.cons_append, List.getD_cons_zero, List.getD_cons_succ]
    rw [toNat_toUInt8 (by omega), toNat_toUInt8 (by omega), toNat_toUInt8 (by omega), if_neg (by omega),
      if_neg (by omega), if_pos (by omega)]
    omega
  · simp only [firstCodePoint, List.cons_append, List.getD_cons_zero, List.getD_cons_succ]
    rw [toNat_toUInt8 (by omega), toNat_toUInt8 (by omega), toNat_toUInt8 (by omega),
      toNat_toUInt8 (by omega), if_neg (by omega), if_neg (by omega), if_neg (by omega)]
    omega

theorem CodePoint.utf8_ne_nil (c : CodePoint) : c.utf8 ≠ [] := by
  unfold utf8
  dsimp only
  split_ifs <;> simp

/-- Different texts have different bytes. -/
theorem Str.utf8_injective : Function.Injective (List.flatMap CodePoint.utf8) :=
  flatMap_injective CodePoint.utf8_ne_nil fun c d s t same =>
    Fin.ext (by rw [← firstCodePoint_utf8 c s, same, firstCodePoint_utf8])

end Python
