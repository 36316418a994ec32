import Mathlib.NumberTheory.LegendreSymbol.QuadraticChar.Basic
import Mathlib.Tactic.FieldSimp
import Mathlib.Tactic.LinearCombination
import Mathlib.Tactic.Ring
import Snark.Bn254.Extension
import Snark.Proofs.Field.Prime

/-!
# The quadratic extension

The order of the base field is three modulo four, so `-1` is no square there and the norm of an
element of the extension vanishes for zero only. Hence the inverse that is computed is the inverse.
-/

namespace Snark.Fq2

theorem ext {a b : Fq2} (re : a.re = b.re) (im : a.im = b.im) : a = b := by
  cases a
  cases b
  cases re
  cases im
  rfl

section Components

variable (a b : Fq2)

@[simp] theorem zero_re : (0 : Fq2).re = 0 := rfl

@[simp] theorem zero_im : (0 : Fq2).im = 0 := rfl

@[simp] theorem one_re : (1 : Fq2).re = 1 := rfl

@[simp] theorem one_im : (1 : Fq2).im = 0 := rfl

@[simp] theorem add_re : (a + b).re = a.re + b.re := rfl

@[simp] theorem add_im : (a + b).im = a.im + b.im := rfl

@[simp] theorem sub_re : (a - b).re = a.re - b.re := rfl

@[simp] theorem sub_im : (a - b).im = a.im - b.im := rfl

@[simp] theorem neg_re : (-a).re = -a.re := rfl

@[simp] theorem neg_im : (-a).im = -a.im := rfl

@[simp] theorem mul_re : (a * b).re = a.re * b.re - a.im * b.im := rfl

@[simp] theorem mul_im : (a * b).im = a.re * b.im + a.im * b.re := rfl

end Components

instance : CommRing Fq2 where
  add_assoc a b c := by apply Fq2.ext <;> simp [add_assoc]
  zero_add a := by apply Fq2.ext <;> simp
  add_zero a := by apply Fq2.ext <;> simp
  add_comm a b := by apply Fq2.ext <;> simp [add_comm]
  neg_add_cancel a := by apply Fq2.ext <;> simp
  sub_eq_add_neg a b := by apply Fq2.ext <;> simp [sub_eq_add_neg]
  mul_assoc a b c := by apply Fq2.ext <;> simp <;> ring
  one_mul a := by apply Fq2.ext <;> simp
  mul_one a := by apply Fq2.ext <;> simp
  zero_mul a := by apply Fq2.ext <;> simp
  mul_zero a := by apply Fq2.ext <;> simp
  left_distrib a b c := by apply Fq2.ext <;> simp <;> ring
  right_distrib a b c := by apply Fq2.ext <;> simp <;> ring
  mul_comm a b := by apply Fq2.ext <;> simp <;> ring
  nsmul := nsmulRec
  zsmul := zsmulRec

/-- The product of an element and its conjugate. -/
def norm (a : Fq2) : Fq := a.re * a.re + a.im * a.im

theorem norm_mul (a b : Fq2) : norm (a * b) = norm a * norm b := by
  simp only [norm, mul_re, mul_im]
  ring

theorem norm_neg (a : Fq2) : norm (-a) = norm a := by
  simp only [norm, neg_re, neg_im]
  ring

/-- A sum of two squares vanishes only if both do. -/
theorem sum_squares_eq_zero {x y : Fq} (h : x * x + y * y = 0) : x = 0 ∧ y = 0 := by
  have zero : y = 0 := by
    by_contra nonzero
    have square : IsSquare (-1 : Fq) := by
      refine ⟨x / y, ?_⟩
      field_simp
      linear_combination -h
    have order : Fintype.card Fq % 4 ≠ 3 := FiniteField.isSquare_neg_one_iff.1 square
    have card : Fintype.card Fq = baseOrder := Residue.card
    have remainder : baseOrder % 4 = 3 := by decide
    rw [card] at order
    exact order remainder
  rw [zero, mul_zero, add_zero] at h
  exact ⟨mul_self_eq_zero.1 h, zero⟩

theorem norm_ne_zero {a : Fq2} (h : a ≠ 0) : norm a ≠ 0 := by
  intro vanishes
  obtain ⟨re, im⟩ := sum_squares_eq_zero vanishes
  exact h (ext re im)

theorem mul_inv_cancel' {a : Fq2} (h : a ≠ 0) : a * inv a = 1 := by
  have unit : norm a * Residue.inv (norm a) = 1 := Residue.mul_inv_of_ne_zero (norm_ne_zero h)
  apply Fq2.ext
  · rw [mul_re, one_re, ← unit, norm, inv]
    ring
  · rw [mul_im, one_im, inv]
    ring

instance : Nontrivial Fq2 := by
  refine ⟨0, 1, fun h => ?_⟩
  have equal : (0 : Fq) = 1 := congrArg re h
  exact zero_ne_one equal

instance : Field Fq2 where
  inv := inv
  div a b := a / b
  div_eq_mul_inv _ _ := rfl
  mul_inv_cancel _ := mul_inv_cancel'
  inv_zero := by
    apply Fq2.ext
    · show (0 : Fq) * _ = 0
      exact zero_mul _
    · show -(0 : Fq) * _ = 0
      rw [neg_zero, zero_mul]
  nnqsmul := _
  nnqsmul_def := fun _ _ => rfl
  qsmul := _
  qsmul_def := fun _ _ => rfl

end Snark.Fq2
