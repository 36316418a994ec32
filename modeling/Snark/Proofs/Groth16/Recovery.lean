import Snark.Proofs.Fourier.Inversion
import Snark.Proofs.Groth16.Scalars

/-!
# The quotient is recovered at the secret

There is one polynomial of smaller degree than the size of the domain for each of the three lists of
rows. The prover multiplies the first two and takes away the third on the odd powers of the root of
twice the order of the domain; it never sees the secret. The scalars of the points for the quotient
combine what it lists to the same expression at the secret, because on the domain itself, at the
even powers, the expression is zero.
-/

open Polynomial

namespace Snark.Groth16

open Snark.Fourier

/-- The polynomials of smaller degree than the size of the domain that take the rows for their
values on the powers of `ω`. There are no others. -/
structure InterpolatesRows (k : Nat) (ω : Fr) (t : Rows) (a b c : Fr[X]) : Prop where
  a : ∀ p, PassesThrough k ω t.a p ↔ p = a
  b : ∀ p, PassesThrough k ω t.b p ↔ p = b
  c : ∀ p, PassesThrough k ω t.c p ↔ p = c

theorem interpolatesRows_through {k : Nat} (hk : k ≤ 28) (t : Rows) :
    InterpolatesRows k (dyadicRoot k) t (through k t.a) (through k t.b) (through k t.c) where
  a _ := passesThrough_iff (isPrimitiveRoot_dyadicRoot hk)
  b _ := passesThrough_iff (isPrimitiveRoot_dyadicRoot hk)
  c _ := passesThrough_iff (isPrimitiveRoot_dyadicRoot hk)

/-- The scalars that the points for the quotient are made of, for the secrets `tau` and `delta` and
a domain of size `n`, combine the values `q` to `y`. -/
def Recovers (G : Type) [CurveGroup G] (tau delta : Fr) (n : Nat) (q : List Fr) (y : Fr) : Prop :=
  ∃ scalars, quotientScalars tau delta n = .ok scalars ∧
    (quotientPoints tau delta n : Except Fault (List G)) =
      .ok (scalars.map CurveGroup.ofScalar) ∧
    scalars.length = n ∧ ∑ i ∈ Finset.range n, scalars.getD i 0 * q.getD i 0 = y

section Recovery

variable {G₁ G₂ : Type} {pk : ProvingKey G₁ G₂} {w : List Fr} {k : Nat}

/-- The values of the defect on the odd half of the doubled domain recover it at the secret. -/
theorem recovers_defect (G : Type) [CurveGroup G] (hk : k < 28) {tau : Fr}
    (htau : tau ^ 2 ^ (k + 1) ≠ 1) (delta : Fr) (n : Nat) (es : List Coefficient) :
    Recovers G tau delta (2 ^ k)
      ((List.range (2 ^ k)).map fun i =>
        (defect k (rowsOf n es w)).eval (dyadicRoot (k + 1) * dyadicRoot k ^ i))
      ((defect k (rowsOf n es w)).eval tau / delta) := by
  refine ⟨_, quotientScalars_eq hk tau delta, ?_, by simp, ?_⟩
  · rw [quotientPoints, quotientScalars_eq hk]
    rfl
  · rw [← sum_oddValues_mul hk htau delta fun i _ => rowsOf_c n es w i]
    exact Finset.sum_congr rfl fun i _ => mul_comm _ _

/-- The prover lists the values that its rows give on the odd powers, and the points of the setup
recover the value at every secret that is no root of twice the order of the domain. -/
theorem quotient_recovers [CurveGroup G₁] (domain : pk.domain = ((2 ^ k : Nat) : Int))
    (small : 2 ^ k ≤ 2 ^ 27) (inRange : ∀ e ∈ pk.coefficients, e.InRange pk.domain w.length) :
    ∃ ω x t a b c q, rootOfUnity pk.domain = .ok ω ∧ rootOfUnity (2 * pk.domain) = .ok x ∧
      rows pk w = .ok t ∧ InterpolatesRows k ω t a b c ∧ quotient pk w = .ok q ∧
      (q.length = 2 ^ k ∧ ∀ i < 2 ^ k, q.getD i 0 =
        a.eval (x ^ (2 * i + 1)) * b.eval (x ^ (2 * i + 1)) - c.eval (x ^ (2 * i + 1))) ∧
      ∀ tau delta : Fr, tau ^ (2 * 2 ^ k) ≠ 1 →
        Recovers G₁ tau delta (2 ^ k) q ((a.eval tau * b.eval tau - c.eval tau) / delta) := by
  have hk : k < 28 := Nat.lt_succ_of_le ((Nat.pow_le_pow_iff_right Nat.one_lt_two).1 small)
  let t := rowsOf (2 ^ k) pk.coefficients w
  have eval_defect (y : Fr) : (defect k t).eval y =
      (through k t.a).eval y * (through k t.b).eval y - (through k t.c).eval y := by
    rw [defect, eval_sub, eval_mul]
  rw [domain] at inRange
  rw [domain, two_mul_two_pow]
  refine ⟨dyadicRoot k, dyadicRoot (k + 1), t, through k t.a, through k t.b, through k t.c, _,
    rootOfUnity_two_pow hk.le, rootOfUnity_two_pow hk, rows_eq domain inRange,
    interpolatesRows_through hk.le t, quotient_eq hk domain inRange, ⟨by simp, fun i hi => ?_⟩,
    fun tau delta htau => ?_⟩
  · rw [getD_map_range _ hi, dyadicRoot_succ_mul_pow hk, eval_defect]
  · rw [← eval_defect]
    exact recovers_defect G₁ hk (by rwa [pow_succ']) delta _ _

end Recovery

/-- The rows of a single product, at the secret three. -/
theorem quotient_recovers_multiplier : ∃ pk : ProvingKey Logarithm Logarithm,
    ∃ x a b c q, pk.domain = 4 ∧ pk.coefficients = coefficients .multiplier ∧
      rootOfUnity 8 = .ok x ∧ quotient pk [1, 6, 2, 3] = .ok q ∧
      q.getD 3 0 = eval (x ^ 7) a * eval (x ^ 7) b - eval (x ^ 7) c ∧
      Recovers Logarithm 3 5 4 q ((eval 3 a * eval 3 b - eval 3 c) / 5) := by
  let pk := keyOf Logarithm Logarithm .multiplier ⟨3, 0, 0, 0, 5⟩ 2
  have domain : pk.domain = ((2 ^ 2 : Nat) : Int) := rfl
  obtain ⟨-, x, -, a, b, c, q, -, root, -, -, values, ⟨-, odd⟩, recovers⟩ :=
    quotient_recovers (w := [1, 6, 2, 3]) domain (by decide) (by decide)
  exact ⟨pk, x, a, b, c, q, domain, rfl, root, values, odd 3 (by decide),
    recovers 3 5 (by decide)⟩

end Snark.Groth16
