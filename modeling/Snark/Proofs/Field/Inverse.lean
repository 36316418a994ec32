import Mathlib.Data.Int.ModEq
import Mathlib.Tactic.Ring
import Snark.Field.Modular

/-!
# Inverses modulo an integer

The extended Euclidean algorithm keeps every remainder congruent to a multiple of the number it was
started on. At the end the remainder is the greatest common divisor, so the multiplier of a number
prime to the modulus is its inverse.
-/

namespace Snark.Modular

variable {m : Nat} {a : Int}

theorem bezout_fst (r₀ r₁ : Nat) (s₀ s₁ : Int) : (bezout r₀ r₁ s₀ s₁).1 = Nat.gcd r₀ r₁ := by
  fun_induction bezout r₀ r₁ s₀ s₁ with
  | case1 => exact (Nat.gcd_zero_right _).symm
  | case2 r₀ r₁ _ _ _ ih => rw [ih, Nat.gcd_comm, ← Nat.gcd_rec, Nat.gcd_comm]

/-- A step replaces both remainders and their multipliers by the same integer combination. -/
theorem bezout_modEq {r₀ r₁ : Nat} {s₀ s₁ : Int} (h₀ : s₀ * a ≡ r₀ [ZMOD m])
    (h₁ : s₁ * a ≡ r₁ [ZMOD m]) :
    (bezout r₀ r₁ s₀ s₁).2 * a ≡ (bezout r₀ r₁ s₀ s₁).1 [ZMOD m] := by
  fun_induction bezout r₀ r₁ s₀ s₁ with
  | case1 => exact h₀
  | case2 r₀ r₁ s₀ s₁ _ ih =>
    apply ih h₁
    have split : ((r₀ % r₁ : Nat) : Int) = r₀ - (r₀ / r₁ : Nat) * r₁ := by
      push_cast
      rw [Int.emod_def, mul_comm]
    rw [split, sub_mul, mul_assoc]
    exact h₀.sub (h₁.mul_left _)

/-- The multiplier found for a residue is its inverse up to the greatest common divisor. -/
theorem bezout_mul_modEq (m r : Nat) :
    (bezout m r 0 1).2 * r ≡ (Nat.gcd m r : Nat) [ZMOD m] := by
  rw [← bezout_fst m r 0 1]
  apply bezout_modEq
  · rw [zero_mul]
    exact (Int.modEq_zero_iff_dvd.2 dvd_rfl).symm
  · rw [one_mul]

theorem gcd_emod_toNat (hm : 0 < m) (a : Int) : Nat.gcd m (a % m).toNat = Int.gcd a m := by
  have nonneg : 0 ≤ a % m := Int.emod_nonneg a (by omega)
  rw [Nat.gcd_comm, ← Int.gcd_natCast_natCast, Int.toNat_of_nonneg nonneg]
  exact Int.gcd_emod ..

/-- A number prime to the modulus has an inverse among the residues. -/
theorem exists_inverse? (hm : 0 < m) (h : Int.gcd a m = 1) :
    ∃ b, inverse? m a = some b ∧ b < m ∧ (b : Int) * a ≡ 1 [ZMOD m] := by
  have pos : (0 : Int) < m := by omega
  let s := (bezout m (a % m).toNat 0 1).2
  have nonneg : 0 ≤ s % m := Int.emod_nonneg s (by omega)
  have below : s % m < m := Int.emod_lt_of_pos s pos
  refine ⟨(s % m).toNat, ?_, by omega, ?_⟩
  · simp only [inverse?, bezout_fst, gcd_emod_toNat hm, if_pos h, s]
  · have product : s * ((a % m).toNat : Nat) ≡ 1 [ZMOD m] := by
      have := bezout_mul_modEq m (a % m).toNat
      rwa [gcd_emod_toNat hm, h] at this
    rw [Int.toNat_of_nonneg nonneg]
    rw [Int.toNat_of_nonneg (Int.emod_nonneg a (by omega))] at product
    exact ((Int.mod_modEq s m).mul (Int.mod_modEq a m).symm).trans product

/-- A number that shares a divisor with the modulus has no inverse. -/
theorem inverse?_eq_none (hm : 0 < m) (h : Int.gcd a m ≠ 1) : inverse? m a = none := by
  simp only [inverse?, bezout_fst, gcd_emod_toNat hm, if_neg h]

end Snark.Modular
