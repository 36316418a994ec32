import Mathlib.LinearAlgebra.Lagrange
import Snark.Proofs.Fourier.Transform

/-!
# The transforms undo each other

A polynomial with fewer coefficients than there are roots is known by its values on the roots. So
the transform and the interpolation are inverse to each other, on a coset up to the scaling of the
coefficients, and interpolated values are carried over to a coset by the only polynomial that there
is for them.
-/

open Polynomial

namespace Snark.Fourier

section Coefficients

theorem coeff_poly (cs : List Fr) (i : Nat) : (poly cs).coeff i = cs.getD i 0 := by
  induction cs generalizing i with
  | nil => rw [poly, coeff_zero, List.getD_nil]
  | cons c cs ih =>
    cases i with
    | zero => simp [poly]
    | succ i => simp [poly, coeff_C_succ, ih]

/-- Lists of one length are told apart by their polynomials. -/
theorem eq_of_poly_eq {cs ds : List Fr} (count : cs.length = ds.length) (h : poly cs = poly ds) :
    cs = ds := by
  apply List.ext_getElem count
  intro i hi hi'
  have same := congrArg (fun p => p.coeff i) h
  simpa only [coeff_poly, List.getD_eq_getElem _ _ hi, List.getD_eq_getElem _ _ hi'] using same

end Coefficients

section Scaling

variable (cs : List Fr)

theorem zipWith_geometric_geometric (a b s t : Fr) (n : Nat) :
    (cs.zipWith (· * ·) (geometric a s n)).zipWith (· * ·) (geometric b t n) =
      cs.zipWith (· * ·) (geometric (a * b) (s * t) n) := by
  induction n generalizing cs a b with
  | zero => simp [geometric]
  | succ n ih =>
    cases cs with
    | nil => rfl
    | cons c cs =>
      simp only [geometric, List.zipWith_cons_cons, ih]
      rw [mul_assoc, mul_mul_mul_comm]

/-- Scaling twice is scaling by the product. -/
theorem shift_shift (s t : Fr) : shift (shift cs s) t = shift cs (s * t) := by
  have product := zipWith_geometric_geometric cs 1 1 s t cs.length
  rw [mul_one] at product
  rw [shift, length_shift]
  exact product

theorem shift_one : shift cs 1 = cs := by
  rw [shift]
  induction cs with
  | nil => rfl
  | cons c cs ih => rw [List.length_cons, geometric, List.zipWith_cons_cons, mul_one, mul_one, ih]

end Scaling

section Domain

variable {k : Nat} {ω : Fr} {cs ys : List Fr}

/-- A polynomial of smaller degree than the number of roots takes the given values on the roots. -/
def PassesThrough (k : Nat) (ω : Fr) (ys : List Fr) (p : Fr[X]) : Prop :=
  p.degree < (2 ^ k : Nat) ∧ ∀ j < 2 ^ k, p.eval (ω ^ j) = ys.getD j 0

/-- There is no more than one polynomial for the values. -/
theorem PassesThrough.unique (hω : IsPrimitiveRoot ω (2 ^ k)) {p q : Fr[X]}
    (hp : PassesThrough k ω ys p) (hq : PassesThrough k ω ys q) : p = q := by
  have card : (Finset.range (2 ^ k)).card = 2 ^ k := Finset.card_range _
  apply eq_of_degrees_lt_of_eval_index_eq (Finset.range (2 ^ k)) (injOn_pow hω)
  · rw [card]
    exact hp.1
  · rw [card]
    exact hq.1
  · intro j hj
    have inside := Finset.mem_range.1 hj
    rw [hp.2 j inside, hq.2 j inside]

theorem passesThrough_interpolant (hω : IsPrimitiveRoot ω (2 ^ k)) :
    PassesThrough k ω ys (poly (interpolant k ys ω)) := by
  refine ⟨?_, fun j hj => eval_interpolant hω hj⟩
  have bound := degree_poly_lt (interpolant k ys ω)
  rwa [length_interpolant] at bound

/-- There is one polynomial for the values, the interpolated one. -/
theorem passesThrough_iff (hω : IsPrimitiveRoot ω (2 ^ k)) {p : Fr[X]} :
    PassesThrough k ω ys p ↔ p = poly (interpolant k ys ω) := by
  constructor
  · intro hp
    exact hp.unique hω (passesThrough_interpolant hω)
  · rintro rfl
    exact passesThrough_interpolant hω

/-- Coefficients are found again from the values of their polynomial. -/
theorem interpolate_evaluations (hω : IsPrimitiveRoot ω (2 ^ k)) (count : cs.length = 2 ^ k) :
    interpolate ((List.range (2 ^ k)).map fun i => (poly cs).eval (ω ^ i)) ω = .ok cs := by
  have passes : PassesThrough k ω ((List.range (2 ^ k)).map fun i => (poly cs).eval (ω ^ i))
      (poly cs) := by
    refine ⟨count ▸ degree_poly_lt cs, fun j hj => ?_⟩
    rw [getD_map_range _ hj]
  rw [interpolate_eq hω (by simp)]
  congr 1
  apply eq_of_poly_eq
  · rw [length_interpolant, count]
  · exact (passesThrough_interpolant hω).unique hω passes

theorem interpolate_transform (hω : IsPrimitiveRoot ω (2 ^ k)) (count : cs.length = 2 ^ k) :
    (do interpolate (← transform cs ω) ω) = .ok cs := by
  rw [transform_eq hω count, Except.ok_bind]
  exact interpolate_evaluations hω count

theorem transform_interpolate (hω : IsPrimitiveRoot ω (2 ^ k)) (count : ys.length = 2 ^ k) :
    (do transform (← interpolate ys ω) ω) = .ok ys := by
  rw [interpolate_eq hω count, Except.ok_bind, transform_eq hω (length_interpolant k ys ω)]
  congr 1
  apply List.ext_getElem
  · simp [count]
  · intro i _ hi
    rw [List.getElem_map, List.getElem_range, eval_interpolant hω (count ▸ hi),
      List.getD_eq_getElem _ _ hi]

/-- Values on a coset give the scaled coefficients, which are scaled back. -/
theorem shift_interpolate_onCoset (hω : IsPrimitiveRoot ω (2 ^ k)) (count : cs.length = 2 ^ k)
    {s : Fr} (nonzero : s ≠ 0) :
    (do return shift (← interpolate (← onCoset cs ω s) ω) (1 / s) : Except Fault (List Fr)) =
      .ok cs := by
  have scaled : (do interpolate (← onCoset cs ω s) ω) = .ok (shift cs s) :=
    interpolate_transform hω (by rw [length_shift, count])
  rw [← bind_assoc, scaled, Except.ok_bind, shift_shift, mul_one_div_cancel nonzero, shift_one]
  rfl

end Domain

/-- With the root `ω`, the transform and the interpolation of `2 ^ k` elements undo each other, the
coset of the factor `s` can be left again, and interpolated values are carried over to it by the
only polynomial of smaller degree than their number that takes them. -/
structure Inverts (k : Nat) (ω s : Fr) (cs : List Fr) : Prop where
  interpolate_transform : (do interpolate (← transform cs ω) ω) = .ok cs
  transform_interpolate : (do transform (← interpolate cs ω) ω) = .ok cs
  shift_interpolate_onCoset :
    (do return shift (← interpolate (← onCoset cs ω s) ω) (1 / s) : Except Fault (List Fr)) = .ok cs
  onCoset_interpolate : ∃ p : Fr[X], (∀ q, PassesThrough k ω cs q ↔ q = p) ∧
    (do onCoset (← interpolate cs ω) ω s) =
      .ok ((List.range (2 ^ k)).map fun i => p.eval (s * ω ^ i))

/-- The transforms of every domain that there is a root for undo each other. -/
theorem transform_inverts {k : Nat} (room : 2 ^ k ≤ maxDomain) {cs : List Fr}
    (count : cs.length = 2 ^ k) {s : Fr} (nonzero : s ≠ 0) :
    ∃ ω, rootOfUnity ((2 ^ k : Nat) : Int) = .ok ω ∧ Inverts k ω s cs := by
  have hk := le_of_two_pow_le_maxDomain room
  have hω := isPrimitiveRoot_dyadicRoot hk
  refine ⟨dyadicRoot k, rootOfUnity_two_pow hk, interpolate_transform hω count,
    transform_interpolate hω count, shift_interpolate_onCoset hω count nonzero,
    poly (interpolant k cs (dyadicRoot k)), fun q => passesThrough_iff hω, ?_⟩
  rw [interpolate_eq hω count, Except.ok_bind]
  exact onCoset_eq hω (length_interpolant k cs _) s

/-- Four values and the coset of five. -/
theorem transform_inverts_four : 2 ^ 2 ≤ maxDomain ∧ (5 : Fr) ≠ 0 ∧
    ∃ ω, rootOfUnity 4 = .ok ω ∧ Inverts 2 ω 5 [1, 2, 3, 0] := by
  have room : 2 ^ 2 ≤ maxDomain := by decide
  have nonzero : (5 : Fr) ≠ 0 := by decide
  exact ⟨room, nonzero, transform_inverts room rfl nonzero⟩

end Snark.Fourier
