import Mathlib.FieldTheory.Finite.Basic
import Snark.Bn254.Pairing
import Snark.Proofs.Bn254.Extension

/-!
# Points stay on their curves

The affine formulas lead from points of a curve to points of the curve where they do not divide by
zero. They never do if no point of the curve is its own reflection, which is the case if the
negative of the constant of the curve has no cube root. Both curves are such, so all multiples of
the generators are on their curves.
-/

namespace Snark

namespace Point

variable {F : Type} [Field F] [DecidableEq F] {b : F}

theorem isOn_affine_iff {x y : F} : isOn b (affine x y) = true ↔ y * y - x * x * x = b :=
  decide_eq_true_iff

/-- The line through two points of the curve meets it in a third one, whose reflection is on the
curve as well. -/
theorem isOn_chord {x₁ y₁ x₂ y₂ : F} (h₁ : isOn b (affine x₁ y₁) = true)
    (h₂ : isOn b (affine x₂ y₂) = true) (distinct : x₁ ≠ x₂) :
    isOn b (third (chord x₁ y₁ x₂ y₂) x₁ y₁ x₂) = true := by
  have gap : x₂ - x₁ ≠ 0 := sub_ne_zero.2 distinct.symm
  have slope : chord x₁ y₁ x₂ y₂ * (x₂ - x₁) = y₂ - y₁ := div_mul_cancel₀ _ gap
  generalize chord x₁ y₁ x₂ y₂ = m at slope
  obtain rfl : y₂ = y₁ + m * (x₂ - x₁) := by linear_combination -slope
  rw [third, isOn_affine_iff]
  rw [isOn_affine_iff] at h₁ h₂
  -- Along the line the equation of the curve is a cubic, and the sum of its roots is the square of
  -- the slope.
  apply mul_left_cancel₀ gap
  linear_combination (x₂ - (m * m - x₁ - x₂)) * h₁ + (m * m - x₁ - x₂ - x₁) * h₂

theorem isOn_tangent {x y : F} (h : isOn b (affine x y) = true) (distinct : y + y ≠ 0) :
    isOn b (third (tangent x y) x y x) = true := by
  rw [isOn_affine_iff] at h
  have slope : tangent x y * (y + y) = x * x + x * x + x * x := div_mul_cancel₀ _ distinct
  generalize tangent x y = m at slope
  rw [third, isOn_affine_iff]
  linear_combination h + (m * m - x - x - x) * slope

/-- No point of the curve is its own reflection. -/
def NoReflected (b : F) : Prop := ∀ x y, isOn b (affine x y) = true → y + y ≠ 0

theorem noReflected_of_cube_ne (two : (2 : F) ≠ 0) (cubes : ∀ x : F, x * x * x ≠ -b) :
    NoReflected b := by
  intro x y hp vanishes
  rw [← two_mul] at vanishes
  obtain rfl : y = 0 := (mul_eq_zero.1 vanishes).resolve_left two
  rw [isOn_affine_iff] at hp
  apply cubes x
  linear_combination -hp

variable (h : NoReflected b) {p q : Point F}
include h

theorem isOn_double (hp : isOn b p = true) : isOn b p.double = true := by
  cases p with
  | infinity => rfl
  | affine x y => exact isOn_tangent hp (h x y hp)

theorem isOn_add (hp : isOn b p = true) (hq : isOn b q = true) : isOn b (p.add q) = true := by
  cases p with
  | infinity => exact hq
  | affine x₁ y₁ =>
    cases q with
    | infinity => exact hp
    | affine x₂ y₂ =>
      rw [add]
      by_cases same : x₁ = x₂
      · rw [if_pos same]
        by_cases equal : y₁ = y₂
        · rw [if_pos equal]
          exact isOn_double h hp
        · rw [if_neg equal]
          rfl
      · rw [if_neg same]
        exact isOn_chord hp hq same

theorem isOn_multipleLoop (steps n : Nat) (hp : isOn b p = true) :
    isOn b (multipleLoop steps n p) = true := by
  induction steps generalizing n p with
  | zero => rfl
  | succ steps ih =>
    have half := ih (n / 2) (isOn_double h hp)
    rw [multipleLoop]
    by_cases none : n = 0
    · rw [if_pos none]
      rfl
    · rw [if_neg none]
      by_cases one : n = 1
      · rw [if_pos one]
        exact hp
      · rw [if_neg one]
        by_cases even : n % 2 = 0
        · rw [if_pos even]
          exact half
        · rw [if_neg even]
          exact isOn_add h half hp

/-- Multiples of a point of the curve are on the curve. -/
theorem isOn_multiple (n : Nat) (hp : isOn b p = true) : isOn b (multiple n p) = true :=
  isOn_multipleLoop h _ n hp

end Point

namespace Bn254

/-- The power of a cube with a third of the order of the group of units is one. -/
theorem cube_ne {c : Fq} (nonzero : c ≠ 0) (power : c ^ ((baseOrder - 1) / 3) ≠ 1) (x : Fq) :
    x * x * x ≠ c := by
  rintro rfl
  have card : Fintype.card Fq = baseOrder := Residue.card
  have units : x ^ (Fintype.card Fq - 1) = 1 := by
    refine FiniteField.pow_card_sub_one_eq_one x ?_
    rintro rfl
    exact nonzero (by rw [mul_zero])
  have third : 3 * ((baseOrder - 1) / 3) = Fintype.card Fq - 1 := by
    rw [card]
    decide
  have cube : x * x * x = x ^ 3 := by ring
  rw [cube, ← pow_mul, third, units] at power
  exact power rfl

theorem noReflected_curve : Point.NoReflected curveConstant :=
  Point.noReflected_of_cube_ne (by decide)
    (cube_ne (by decide) (by decide +kernel))

/-- The norm of the constant of the twist is no cube, so the constant is none. -/
theorem noReflected_twist : Point.NoReflected twistConstant := by
  refine Point.noReflected_of_cube_ne (by decide) fun x cube => ?_
  have norms : Fq2.norm x * Fq2.norm x * Fq2.norm x = Fq2.norm twistConstant := by
    rw [← Fq2.norm_mul, ← Fq2.norm_mul, cube, Fq2.norm_neg]
  exact cube_ne (by decide +kernel) (by decide +kernel) (Fq2.norm x) norms

/-- All multiples of the generator of the first group are on the curve. -/
theorem isOnCurve_multiple (n : Nat) :
    isOnCurve (CurveGroup.multiple n (CurveGroup.generator : G1)) = true :=
  Point.isOn_multiple noReflected_curve n (by decide)

/-- All multiples of the generator of the second group are on the twist. -/
theorem isOnTwist_multiple (n : Nat) :
    isOnTwist (CurveGroup.multiple n (CurveGroup.generator : G2)) = true :=
  Point.isOn_multiple noReflected_twist n (by decide +kernel)

end Bn254

end Snark
