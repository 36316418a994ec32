import Mathlib.Algebra.Order.Ring.Nat
import Snark.Double

/-!
# How large a double is

Rounding to a double adds less than one unit in the last place, and a finite double has a bounded
exponent. So what is left of a decimal once its fraction is dropped is bounded as well, however many
digits the decimal has.
-/

namespace Snark.Double

variable {num den m digits k : Nat} {e exponent n : Int} {negative sign : Bool}

/-- What is left of `m * 2 ^ e` without its fraction. -/
def wholePart (m : Nat) (e : Int) : Nat :=
  if 0 ≤ e then m * twoPow e.toNat else m / twoPow (-e).toNat

theorem natAbs_of_truncate? (h : truncate? (.finite negative m e) = some n) :
    n.natAbs = wholePart m e := by
  obtain rfl : (if negative then -(wholePart m e : Int) else wholePart m e) = n := by cases h; rfl
  split
  · rw [Int.natAbs_neg, Int.natAbs_natCast]
  · rw [Int.natAbs_natCast]

theorem twoPow_eq (k : Nat) : twoPow k = 2 ^ k := by rw [twoPow, Nat.one_shiftLeft]

theorem tenPow_eq (k : Nat) : tenPow k = 10 ^ k := rfl

theorem roundDiv_le (num den : Nat) : roundDiv num den ≤ num / den + 1 := by
  rw [roundDiv]
  split <;> omega

/-- Rounding a fraction to a multiple of a power of two adds at most that power, or one. -/
theorem wholePart_roundDiv_le (bounded : e ≤ k) :
    wholePart (roundDiv (scale num den e).1 (scale num den e).2) e ≤ num / den + 2 ^ k := by
  rw [wholePart, scale]
  by_cases nonneg : 0 ≤ e
  · simp only [if_pos nonneg, twoPow_eq]
    have rounded : roundDiv num (den * 2 ^ e.toNat) ≤ num / den / 2 ^ e.toNat + 1 := by
      rw [Nat.div_div_eq_div_mul]
      exact roundDiv_le _ _
    have unit : 2 ^ e.toNat ≤ 2 ^ k := Nat.pow_le_pow_right Nat.two_pos (by omega)
    calc roundDiv num (den * 2 ^ e.toNat) * 2 ^ e.toNat
        ≤ (num / den / 2 ^ e.toNat + 1) * 2 ^ e.toNat := Nat.mul_le_mul_right _ rounded
      _ = num / den / 2 ^ e.toNat * 2 ^ e.toNat + 2 ^ e.toNat := Nat.succ_mul _ _
      _ ≤ num / den + 2 ^ k := Nat.add_le_add (Nat.div_mul_le_self _ _) unit
  · simp only [if_neg nonneg, twoPow_eq]
    generalize (-e).toNat = j
    have positive : 0 < 2 ^ j := Nat.two_pow_pos j
    calc roundDiv (num * 2 ^ j) den / 2 ^ j
        ≤ (num * 2 ^ j / den + 2 ^ j) / 2 ^ j :=
          Nat.div_le_div_right ((roundDiv_le _ _).trans (Nat.add_le_add_left positive _))
      _ = num * 2 ^ j / den / 2 ^ j + 1 := Nat.add_div_right _ positive
      _ = num / den + 1 := by rw [Nat.div_right_comm, Nat.mul_div_cancel _ positive]
      _ ≤ num / den + 2 ^ k := Nat.add_le_add_left (Nat.two_pow_pos k) _

/-- A carry into the next exponent changes nothing. -/
theorem wholePart_carry : wholePart (twoPow 52) (e + 1) = wholePart (twoPow 53) e := by
  rw [wholePart, wholePart]
  simp only [twoPow_eq]
  obtain nonneg | rfl | below : 0 ≤ e ∨ e = -1 ∨ e < -1 := by omega
  · rw [if_pos (by omega : 0 ≤ e + 1), if_pos nonneg, ← Nat.pow_add, ← Nat.pow_add]
    congr 1
    omega
  · rfl
  · have shift : (-e).toNat = (-(e + 1)).toNat + 1 := by omega
    rw [if_neg (by omega : ¬ 0 ≤ e + 1), if_neg (by omega : ¬ 0 ≤ e), shift]
    exact (Nat.mul_div_mul_right (2 ^ 52) _ Nat.two_pos).symm

/-- The nearest double to a fraction has a whole part that is hardly larger. -/
theorem wholePart_le_of_ofFraction (h : ofFraction negative num den = .finite sign m e)
    (room : 971 ≤ k) : wholePart m e ≤ num / den + 2 ^ k := by
  -- However the exponent is found, the mantissa is rounded at it, and may be carried once.
  obtain ⟨e', rounded⟩ : ∃ e', ofFraction negative num den =
      let m := roundDiv (scale num den e').1 (scale num den e').2
      let carried := if m = twoPow 53 then (twoPow 52, e' + 1) else (m, e')
      if 971 < carried.2 then .infinite negative
      else .finite negative carried.1 carried.2 := ⟨_, rfl⟩
  rw [rounded] at h
  dsimp only at h
  by_cases carried : roundDiv (scale num den e').1 (scale num den e').2 = twoPow 53
  · rw [if_pos carried] at h
    dsimp only at h
    split_ifs at h with large
    cases h
    rw [wholePart_carry, ← carried]
    exact wholePart_roundDiv_le (by omega)
  · rw [if_neg carried] at h
    dsimp only at h
    split_ifs at h with large
    cases h
    exact wholePart_roundDiv_le (by omega)

theorem lt_pow_decimalLength (digits : Nat) : digits < 10 ^ decimalLength digits :=
  (Nat.length_toDigits_le_iff (by decide) (List.length_pos_iff.2 Nat.toDigits_ne_nil)).1 le_rfl

/-- A fraction with at most `k` places in front of its point has a double with at most one more. -/
theorem natAbs_lt_of_truncate?_ofFraction
    (h : (ofFraction negative num den).truncate? = some n) (room : 971 ≤ k)
    (small : num / den < 10 ^ k) : n.natAbs < 10 ^ (k + 1) := by
  cases rounded : ofFraction negative num den with
  | finite sign m e =>
    rw [rounded] at h
    have unit : 2 ^ k ≤ 10 ^ k := Nat.pow_le_pow_left (by decide) k
    calc n.natAbs = wholePart m e := natAbs_of_truncate? h
      _ ≤ num / den + 2 ^ k := wholePart_le_of_ofFraction rounded room
      _ < 10 ^ (k + 1) := by
        rw [Nat.pow_succ]
        omega
  | infinite _ | nan =>
    rw [rounded] at h
    cases h

/-- The nearest double to a decimal is infinite, or it has no more places in front of its point than
a double can have. -/
theorem natAbs_lt_of_truncate?_ofDecimal
    (h : (ofDecimal negative digits exponent).truncate? = some n) (room : 971 ≤ k) :
    n.natAbs < 10 ^ (k + 1) := by
  have length := lt_pow_decimalLength digits
  rw [ofDecimal] at h
  split_ifs at h with none large nonneg
  · rw [natAbs_of_truncate? h, wholePart, if_neg (by decide), Nat.zero_div]
    exact Nat.pow_pos (by decide)
  · cases h
  · refine natAbs_lt_of_truncate?_ofFraction h room ?_
    rw [tenPow_eq, Nat.div_one]
    calc digits * 10 ^ exponent.toNat
        < 10 ^ decimalLength digits * 10 ^ exponent.toNat :=
          Nat.mul_lt_mul_of_pos_right length (Nat.pow_pos (by decide))
      _ = 10 ^ (decimalLength digits + exponent.toNat) := (Nat.pow_add ..).symm
      _ ≤ 10 ^ k := Nat.pow_le_pow_right (by decide) (by omega)
  · refine natAbs_lt_of_truncate?_ofFraction h room ?_
    rw [tenPow_eq, Nat.div_lt_iff_lt_mul (Nat.pow_pos (by decide))]
    calc digits < 10 ^ decimalLength digits := length
      _ ≤ 10 ^ (k + (-exponent).toNat) := Nat.pow_le_pow_right (by decide) (by omega)
      _ = 10 ^ k * 10 ^ (-exponent).toNat := Nat.pow_add ..

end Snark.Double
