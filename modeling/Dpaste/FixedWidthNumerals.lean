import Mathlib.Data.Nat.Digits.Defs

/-!
Numerals of a fixed width in an arbitrary base, most significant digit first,
and their agreement with the padded digit text of `Nat.toDigits`.
-/

namespace Dpaste.FixedWidthNumerals

/-- The last `width` digits of `n` in base `base`, most significant first. -/
def numeral (base : Nat) : Nat → Nat → List Nat
  | 0, _ => []
  | width + 1, n => numeral base width (n / base) ++ [n % base]

def value (base : Nat) (digits : List Nat) : Nat :=
  digits.foldl (fun acc d => acc * base + d) 0

@[simp] theorem numeral_length (base width n : Nat) :
    (numeral base width n).length = width := by
  induction width generalizing n with
  | zero => rfl
  | succ width ih => simp [numeral, ih]

@[simp] theorem value_append_singleton (base : Nat) (digits : List Nat) (d : Nat) :
    value base (digits ++ [d]) = value base digits * base + d := by
  simp [value]

theorem digit_lt_of_mem_numeral {base width n d : Nat} (hbase : 0 < base)
    (hd : d ∈ numeral base width n) : d < base := by
  induction width generalizing n with
  | zero => simp [numeral] at hd
  | succ width ih =>
      rcases List.mem_append.mp hd with hd | hd
      · exact ih hd
      · rw [List.mem_singleton.mp hd]
        exact Nat.mod_lt n hbase

theorem value_numeral {base width n : Nat} (hn : n < base ^ width) :
    value base (numeral base width n) = n := by
  induction width generalizing n with
  | zero =>
      have hzero : n = 0 := by simpa using hn
      simp [numeral, value, hzero]
  | succ width ih =>
      have hquot : n / base < base ^ width :=
        Nat.div_lt_of_lt_mul (by rwa [pow_succ, Nat.mul_comm] at hn)
      rw [numeral, value_append_singleton, ih hquot]
      exact Nat.div_add_mod' n base

theorem numeral_zero (base width : Nat) :
    numeral base width 0 = List.replicate width 0 := by
  induction width with
  | zero => rfl
  | succ width ih => simp [numeral, ih, List.replicate_succ']

theorem leftpad_succ_append_singleton {α : Type*} (width : Nat) (fill : α)
    (text : List α) (c : α) :
    (text ++ [c]).leftpad (width + 1) fill = text.leftpad width fill ++ [c] := by
  simp [List.leftpad]

/-- The digits that `Nat.toDigits` writes, padded with zeros, are those of the
numeral of that width. -/
theorem leftpad_toDigits {base width n : Nat} (hbase : 1 < base)
    (hwidth : 0 < width) (hn : n < base ^ width) :
    (Nat.toDigits base n).leftpad width '0' =
      (numeral base width n).map Nat.digitChar := by
  induction width generalizing n with
  | zero => exact absurd hwidth (lt_irrefl 0)
  | succ width ih =>
      rcases Nat.lt_or_ge n base with hlt | hge
      · rw [Nat.toDigits_of_lt_base hlt, numeral, Nat.div_eq_of_lt hlt,
          Nat.mod_eq_of_lt hlt, numeral_zero]
        simp [List.leftpad, Nat.digitChar]
      · have hquot : n / base < base ^ width :=
          Nat.div_lt_of_lt_mul (by rwa [pow_succ, Nat.mul_comm] at hn)
        have hpos : 0 < width := by
          rcases Nat.eq_zero_or_pos width with rfl | h
          · simp at hn
            omega
          · exact h
        rw [Nat.toDigits_of_base_le hbase hge, leftpad_succ_append_singleton,
          ih hpos hquot]
        simp [numeral]

end Dpaste.FixedWidthNumerals
