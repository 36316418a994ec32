import Mathlib.Algebra.Field.GeomSum
import Mathlib.Algebra.Polynomial.Degree.Lemmas
import Mathlib.Algebra.Polynomial.Eval.Degree
import Mathlib.Data.List.GetD
import Snark.Fourier
import Snark.Proofs.Except
import Snark.Proofs.Fourier.Root

/-!
# The transform evaluates a polynomial

A list of coefficients stands for a polynomial, whose values on the powers of a root of unity are
what the transform computes. Backwards, the interpolated coefficients are those of the polynomial
of smaller degree than the number of values that takes these values, and on a coset the transform
evaluates on the multiples of the roots.
-/

open Polynomial

namespace Snark.Fourier

/-- The polynomial with the given coefficients, the constant one first. -/
noncomputable def poly : List Fr → Fr[X]
  | [] => 0
  | c :: cs => C c + X * poly cs

@[simp] theorem eval_poly_nil (x : Fr) : (poly []).eval x = 0 := by
  rw [poly, eval_zero]

@[simp] theorem eval_poly_cons (c : Fr) (cs : List Fr) (x : Fr) :
    (poly (c :: cs)).eval x = c + x * (poly cs).eval x := by
  rw [poly, eval_add, eval_C, eval_mul, eval_X]

theorem degree_poly_lt (cs : List Fr) : (poly cs).degree < cs.length := by
  induction cs with
  | nil => exact WithBot.bot_lt_coe 0
  | cons c cs ih =>
    rw [poly, List.length_cons]
    refine (degree_add_le _ _).trans_lt (max_lt ?_ ?_)
    · exact degree_C_le.trans_lt (by exact_mod_cast Nat.succ_pos cs.length)
    · calc (X * poly cs).degree
          _ = 1 + (poly cs).degree := by rw [degree_mul, degree_X]
          _ < 1 + (cs.length : WithBot Nat) := WithBot.add_lt_add_left (by decide) ih
          _ = ((cs.length + 1 : Nat) : WithBot Nat) := by push_cast; rw [add_comm]

theorem eval_poly_eq_sum (cs : List Fr) (x : Fr) :
    (poly cs).eval x = ∑ i ∈ Finset.range cs.length, cs.getD i 0 * x ^ i := by
  induction cs with
  | nil => simp
  | cons c cs ih =>
    rw [eval_poly_cons, ih, List.length_cons, Finset.sum_range_succ', Finset.mul_sum]
    rw [List.getD_cons_zero, pow_zero, mul_one, add_comm]
    congr 1
    apply Finset.sum_congr rfl
    intro i _
    rw [List.getD_cons_succ, pow_succ']
    ring

/-- The even and the odd part of a polynomial are polynomials of the square. -/
theorem eval_poly_split (cs : List Fr) (x : Fr) :
    (poly cs).eval x =
      (poly (split cs).1).eval (x * x) + x * (poly (split cs).2).eval (x * x) := by
  fun_induction split cs with
  | case1 => simp
  | case2 c => simp
  | case3 c d rest ih =>
    simp only [eval_poly_cons, ih]
    ring

/-- A butterfly turns the values of both halves on the squares into the values of the whole. The
second half of the powers is the first one negated. -/
theorem values_eq (k : Nat) (cs : List Fr) (ω : Fr) (h : cs.length = 2 ^ k)
    (hω : ∀ j, k = j + 1 → ω ^ 2 ^ j = -1) :
    values k cs ω = (List.range (2 ^ k)).map fun i => (poly cs).eval (ω ^ i) := by
  induction k generalizing cs ω with
  | zero =>
    obtain ⟨c, rfl⟩ := List.length_eq_one_iff.1 h
    simp [values]
  | succ k ih =>
    obtain ⟨evens, odds⟩ := length_split cs (by rw [h, pow_succ, mul_comm])
    have square : ∀ j, k = j + 1 → (ω * ω) ^ 2 ^ j = -1 := by
      rintro j rfl
      rw [← sq, ← pow_mul, ← pow_succ']
      exact hω _ rfl
    have half : 2 ^ (k + 1) = 2 ^ k + 2 ^ k := by rw [pow_succ, mul_two]
    simp only [values]
    rw [ih _ _ evens square, ih _ _ odds square, odds, geometric_eq, List.zipWith_map,
      List.zipWith_self, List.zipWith_map, List.zipWith_self, List.zipWith_map, List.zipWith_self,
      half, List.range_add, List.map_append, List.map_map]
    congr 1
    · apply List.map_congr_left
      intro i _
      rw [eval_poly_split cs, mul_pow]
      ring
    · apply List.map_congr_left
      intro i _
      have negated : ω ^ (2 ^ k + i) = -ω ^ i := by rw [pow_add, hω k rfl, neg_one_mul]
      rw [Function.comp_apply, eval_poly_split cs, negated, neg_mul_neg, mul_pow]
      ring

section Root

variable {k : Nat} {ω : Fr}

theorem pow_half_eq_neg_one {j : Nat} (hω : IsPrimitiveRoot ω (2 ^ (j + 1))) :
    ω ^ 2 ^ j = -1 := by
  have proper : ω ^ 2 ^ j ≠ 1 :=
    hω.pow_ne_one_of_pos_of_lt (Nat.two_pow_pos j).ne' (Nat.pow_lt_pow_right (by decide) (by omega))
  have square : ω ^ 2 ^ j * ω ^ 2 ^ j = 1 := by
    rw [← pow_add, ← two_mul, ← pow_succ', hω.pow_eq_one]
  exact (mul_self_eq_one_iff.1 square).resolve_left proper

theorem transform_eq {cs : List Fr} (hω : IsPrimitiveRoot ω (2 ^ k)) (h : cs.length = 2 ^ k) :
    transform cs ω = .ok ((List.range (2 ^ k)).map fun i => (poly cs).eval (ω ^ i)) := by
  rw [transform, h, if_pos (isPowerOfTwo_two_pow k), Nat.log2_two_pow, values_eq k cs ω h]
  rintro j rfl
  exact pow_half_eq_neg_one hω

/-- The coefficients of the polynomial through the given values. -/
def interpolant (k : Nat) (ys : List Fr) (ω : Fr) : List Fr :=
  (List.range (2 ^ k)).map fun i =>
    (∑ j ∈ Finset.range (2 ^ k), ys.getD j 0 * (ω⁻¹ ^ i) ^ j) * ((2 ^ k : Nat) : Fr)⁻¹

@[simp] theorem length_interpolant (k : Nat) (ys : List Fr) (ω : Fr) :
    (interpolant k ys ω).length = 2 ^ k := by
  rw [interpolant, List.length_map, List.length_range]

theorem interpolate_eq {ys : List Fr} (hω : IsPrimitiveRoot ω (2 ^ k)) (h : ys.length = 2 ^ k) :
    interpolate ys ω = .ok (interpolant k ys ω) := by
  have inverse : 1 / ω = ω⁻¹ := one_div ω
  have scale : 1 / (Residue.ofNat ys.length : Fr) = ((2 ^ k : Nat) : Fr)⁻¹ := by
    rw [h]
    exact one_div _
  rw [interpolate, inverse, transform_eq hω.inv h, scale, Except.ok_bind, Except.pure_eq_ok,
    List.map_map, interpolant]
  congr 1
  apply List.map_congr_left
  intro i _
  rw [Function.comp_apply, eval_poly_eq_sum, h]

theorem two_pow_ne_zero (k : Nat) : ((2 ^ k : Nat) : Fr) ≠ 0 := by
  rw [Nat.cast_pow]
  exact pow_ne_zero k (by decide)

/-- The powers of a root other than one add up to zero. -/
theorem sum_pow_root (hω : IsPrimitiveRoot ω (2 ^ k)) {i j : Nat} (hi : i < 2 ^ k)
    (hj : j < 2 ^ k) :
    ∑ l ∈ Finset.range (2 ^ k), (ω ^ i * ω⁻¹ ^ j) ^ l =
      if i = j then ((2 ^ k : Nat) : Fr) else 0 := by
  have nonzero : ω ≠ 0 := hω.ne_zero (Nat.two_pow_pos k).ne'
  split_ifs with same
  · have unit : ω ^ i * ω⁻¹ ^ j = 1 := by
      rw [same, ← mul_pow, mul_inv_cancel₀ nonzero, one_pow]
    simp only [unit, one_pow, Finset.sum_const, Finset.card_range, nsmul_eq_mul, mul_one]
  · have proper : ω ^ i * ω⁻¹ ^ j ≠ 1 := by
      intro h
      rw [inv_pow, mul_inv_eq_one₀ (pow_ne_zero j nonzero)] at h
      exact same (hω.pow_inj hi hj h)
    have whole : (ω ^ i * ω⁻¹ ^ j) ^ 2 ^ k = 1 := by
      rw [mul_pow, ← pow_mul, ← pow_mul, mul_comm i, mul_comm j, pow_mul, pow_mul, inv_pow,
        hω.pow_eq_one, one_pow, inv_one, one_pow, mul_one]
    rw [geom_sum_eq proper, whole, sub_self, zero_div]

/-- The interpolated polynomial takes the given values on the powers of the root. -/
theorem eval_interpolant {ys : List Fr} (hω : IsPrimitiveRoot ω (2 ^ k)) {i : Nat}
    (hi : i < 2 ^ k) : (poly (interpolant k ys ω)).eval (ω ^ i) = ys.getD i 0 := by
  have entry (l : Nat) (hl : l ∈ Finset.range (2 ^ k)) :
      (interpolant k ys ω).getD l 0 * (ω ^ i) ^ l =
        ∑ j ∈ Finset.range (2 ^ k),
          ys.getD j 0 * ((2 ^ k : Nat) : Fr)⁻¹ * (ω ^ i * ω⁻¹ ^ j) ^ l := by
    have inside := Finset.mem_range.1 hl
    rw [interpolant, List.getD_eq_getElem _ _ (by simpa using inside), List.getElem_map,
      List.getElem_range, Finset.sum_mul, Finset.sum_mul]
    apply Finset.sum_congr rfl
    intro j _
    rw [mul_pow, pow_right_comm ω⁻¹ l j]
    ring
  rw [eval_poly_eq_sum, length_interpolant, Finset.sum_congr rfl entry, Finset.sum_comm]
  have collapse (j : Nat) (hj : j ∈ Finset.range (2 ^ k)) :
      ∑ l ∈ Finset.range (2 ^ k),
        ys.getD j 0 * ((2 ^ k : Nat) : Fr)⁻¹ * (ω ^ i * ω⁻¹ ^ j) ^ l =
        if i = j then ys.getD j 0 else 0 := by
    rw [← Finset.mul_sum, sum_pow_root hω hi (Finset.mem_range.1 hj)]
    split_ifs
    · exact inv_mul_cancel_right₀ (two_pow_ne_zero k) _
    · exact mul_zero _
  rw [Finset.sum_congr rfl collapse, Finset.sum_ite_eq, if_pos (Finset.mem_range.2 hi)]

/-- Scaling the coefficients by powers scales the argument. -/
theorem eval_poly_shift (cs : List Fr) (s x : Fr) :
    (poly (shift cs s)).eval x = (poly cs).eval (s * x) := by
  have scaled (a : Fr) :
      (poly (cs.zipWith (· * ·) (geometric a s cs.length))).eval x =
        a * (poly cs).eval (s * x) := by
    induction cs generalizing a with
    | nil => simp
    | cons c cs ih =>
      rw [List.length_cons, geometric, List.zipWith_cons_cons, eval_poly_cons, eval_poly_cons, ih]
      ring
  rw [shift, scaled, one_mul]

theorem onCoset_eq {cs : List Fr} (hω : IsPrimitiveRoot ω (2 ^ k)) (h : cs.length = 2 ^ k)
    (s : Fr) :
    onCoset cs ω s = .ok ((List.range (2 ^ k)).map fun i => (poly cs).eval (s * ω ^ i)) := by
  rw [onCoset, transform_eq hω (by rw [length_shift, h])]
  simp only [eval_poly_shift]

end Root

end Snark.Fourier
