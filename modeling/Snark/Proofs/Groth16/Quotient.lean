import Mathlib.Algebra.BigOperators.Field
import Snark.Proofs.Groth16.Lagrange
import Snark.Proofs.Groth16.Matrix

/-!
# The quotient

The polynomials through the rows of the prover give a polynomial that vanishes on the domain,
because the third row is the product of the others. What the prover computes are its values on the
odd half of the doubled domain. Together with the scalars of the setup they recover its value at
the secret, which is thus known from the rows and the Lagrange basis alone.
-/

open Polynomial

namespace Snark.Groth16

open Snark.Fourier

/-- The polynomial through some values on the domain. -/
noncomputable def through (k : Nat) (ys : List Fr) : Fr[X] :=
  poly (interpolant k ys (dyadicRoot k))

/-- The product of the first two polynomials without the third. -/
noncomputable def defect (k : Nat) (t : Rows) : Fr[X] :=
  through k t.a * through k t.b - through k t.c

section Through

variable {k : Nat} {ys : List Fr}

theorem degree_through_lt (k : Nat) (ys : List Fr) : (through k ys).degree < (2 ^ k : Nat) := by
  have bound := degree_poly_lt (interpolant k ys (dyadicRoot k))
  rwa [length_interpolant] at bound

theorem eval_through (hk : k ≤ 28) {i : Nat} (hi : i < 2 ^ k) :
    (through k ys).eval (dyadicRoot k ^ i) = ys.getD i 0 :=
  eval_interpolant (isPrimitiveRoot_dyadicRoot hk) hi

theorem eval_through_eq_sum (hk : k ≤ 28) {tau : Fr} (htau : tau ^ 2 ^ k ≠ 1) :
    (through k ys).eval tau =
      ∑ i ∈ Finset.range (2 ^ k), basisAt (dyadicRoot k) (2 ^ k) tau i * ys.getD i 0 := by
  rw [eval_eq_sum_basisAt (Nat.two_pow_pos k) (isPrimitiveRoot_dyadicRoot hk) htau
    (degree_through_lt k ys)]
  apply Finset.sum_congr rfl
  intro i hi
  rw [eval_through hk (Finset.mem_range.1 hi)]

theorem toOddCoset_eq (hk : k < 28) (hys : ys.length = 2 ^ k) (shift : Fr) :
    toOddCoset (dyadicRoot k) shift ys =
      .ok ((List.range (2 ^ k)).map fun i => (through k ys).eval (shift * dyadicRoot k ^ i)) := by
  have root := isPrimitiveRoot_dyadicRoot hk.le
  rw [toOddCoset, interpolate_eq root hys, Except.ok_bind,
    onCoset_eq root (length_interpolant k ys _)]
  rfl

end Through

section Defect

variable {k : Nat} {t : Rows}

theorem degree_defect_lt (k : Nat) (t : Rows) : (defect k t).degree < (2 ^ (k + 1) : Nat) := by
  have half : ((2 ^ k : Nat) : WithBot Nat) ≤ (2 ^ (k + 1) : Nat) := by
    exact_mod_cast Nat.pow_le_pow_right (by decide) (Nat.le_succ k)
  have product : (through k t.a * through k t.b).degree < (2 ^ (k + 1) : Nat) :=
    calc (through k t.a * through k t.b).degree
      _ = (through k t.a).degree + (through k t.b).degree := degree_mul
      _ ≤ (2 ^ k : Nat) + (through k t.b).degree :=
        add_le_add_left (degree_through_lt k t.a).le _
      _ < (2 ^ k : Nat) + (2 ^ k : Nat) :=
        WithBot.add_lt_add_left (WithBot.natCast_ne_bot _) (degree_through_lt k t.b)
      _ = (2 ^ (k + 1) : Nat) := by rw [← Nat.cast_add, ← mul_two, ← pow_succ]
  exact (degree_sub_le _ _).trans_lt
    (max_lt product ((degree_through_lt k t.c).trans_le half))

theorem eval_defect (hk : k ≤ 28) {i : Nat} (hi : i < 2 ^ k)
    (hc : t.c.getD i 0 = t.a.getD i 0 * t.b.getD i 0) :
    (defect k t).eval (dyadicRoot k ^ i) = 0 := by
  rw [defect, eval_sub, eval_mul, eval_through hk hi, eval_through hk hi, eval_through hk hi, hc,
    sub_self]

/-- The values of the defect on the odd half of the doubled domain, combined with the scalars of the
points for the quotient, give its value at the secret. -/
theorem sum_oddValues_mul (hk : k < 28) {tau : Fr} (htau : tau ^ 2 ^ (k + 1) ≠ 1) (delta : Fr)
    (hc : ∀ i < 2 ^ k, t.c.getD i 0 = t.a.getD i 0 * t.b.getD i 0) :
    ∑ i ∈ Finset.range (2 ^ k),
        ((List.range (2 ^ k)).map fun i =>
          (defect k t).eval (dyadicRoot (k + 1) * dyadicRoot k ^ i)).getD i 0 *
        ((List.range (2 ^ k)).map fun i =>
          basisAt (dyadicRoot (k + 1)) (2 ^ (k + 1)) tau (2 * i + 1) / delta).getD i 0 =
      (defect k t).eval tau / delta := by
  rw [eval_eq_sum_odd hk htau (degree_defect_lt k t) fun i hi => eval_defect hk.le hi (hc i hi),
    Finset.sum_div]
  apply Finset.sum_congr rfl
  intro i hi
  have inside := Finset.mem_range.1 hi
  rw [getD_map_range _ inside, getD_map_range _ inside]
  ring

end Defect

section Prover

variable {G₁ G₂ : Type} {pk : ProvingKey G₁ G₂} {w : List Fr} {k : Nat}

theorem getD_zipWith_mul (xs ys : List Fr) (h : xs.length = ys.length) (i : Nat) :
    (xs.zipWith (· * ·) ys).getD i 0 = xs.getD i 0 * ys.getD i 0 := by
  rw [List.getD_eq_getElem?_getD, List.getD_eq_getElem?_getD, List.getD_eq_getElem?_getD,
    List.getElem?_zipWith]
  by_cases inside : i < xs.length
  · simp [inside, h ▸ inside]
  · simp [inside, h ▸ inside]

theorem rowsOf_c (n : Nat) (es : List Coefficient) (w : List Fr) (i : Nat) :
    (rowsOf n es w).c.getD i 0 = (rowsOf n es w).a.getD i 0 * (rowsOf n es w).b.getD i 0 :=
  getD_zipWith_mul _ _ (by simp) i

/-- The prover's quotient lists the values of the defect on the odd half of the doubled domain. -/
theorem quotient_eq (hk : k < 28) (hd : pk.domain = (2 ^ k : Nat))
    (h : ∀ e ∈ pk.coefficients, e.InRange (2 ^ k : Nat) w.length) :
    quotient pk w = .ok ((List.range (2 ^ k)).map fun i =>
      (defect k (rowsOf (2 ^ k) pk.coefficients w)).eval
        (dyadicRoot (k + 1) * dyadicRoot k ^ i)) := by
  obtain ⟨length_a, length_b, length_c⟩ := length_rowsOf (2 ^ k) pk.coefficients w
  rw [quotient, hd, two_mul_two_pow, rootOfUnity_two_pow hk.le, Except.ok_bind,
    rootOfUnity_two_pow hk, Except.ok_bind, rows_eq hd h, Except.ok_bind, toOddCoset_eq hk length_a,
    Except.ok_bind, toOddCoset_eq hk length_b, Except.ok_bind, toOddCoset_eq hk length_c,
    Except.ok_bind, Except.pure_eq_ok]
  rw [List.zip, List.zip, List.zipWith_map, List.zipWith_self, List.zipWith_map,
    List.zipWith_self, List.map_map]
  congr 1
  apply List.map_congr_left
  intro i _
  rw [Function.comp_apply, defect, eval_sub, eval_mul]

end Prover

end Snark.Groth16
