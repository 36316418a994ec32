import Mathlib.LinearAlgebra.Lagrange
import Snark.Groth16.Setup
import Snark.Proofs.Fourier.Transform

/-!
# The Lagrange basis of the roots of unity

Outside the domain, the value of a polynomial is the combination of its values on the domain with
the basis that the setup computes. Inside the domain the basis is zero, because the division by zero
gives zero there, and no polynomial but those with a root at the point is recovered. The points for
the quotient are the odd half of the basis of the doubled domain: a polynomial that vanishes on the
domain is recovered from them alone.
-/

open Polynomial

namespace Snark.Groth16

/-- The value at `tau` of the basis polynomial of the root `ω ^ i`, among `n` roots. -/
def basisAt (ω : Fr) (n : Nat) (tau : Fr) (i : Nat) : Fr :=
  (tau ^ n - 1) / n * ω ^ i / (tau - ω ^ i)

theorem lagrange_eq {k : Nat} (hk : k ≤ 28) (tau : Fr) :
    lagrange tau ((2 ^ k : Nat) : Int) =
      .ok ((List.range (2 ^ k)).map (basisAt (dyadicRoot k) (2 ^ k) tau)) := by
  rw [lagrange, rootsOfUnity_two_pow hk, Except.ok_bind, Except.pure_eq_ok, List.map_map]
  rw [Int.toNat_natCast, Residue.ofInt_eq_cast, Int.cast_natCast]
  rfl

theorem quotientScalars_eq {k : Nat} (hk : k < 28) (tau delta : Fr) :
    quotientScalars tau delta ((2 ^ k : Nat) : Int) =
      .ok ((List.range (2 ^ k)).map fun i =>
        basisAt (dyadicRoot (k + 1)) (2 ^ (k + 1)) tau (2 * i + 1) / delta) := by
  rw [quotientScalars, two_mul_two_pow, rootOfUnity_two_pow hk, Except.ok_bind, Except.pure_eq_ok,
    Int.toNat_natCast, Int.toNat_natCast, Residue.ofInt_eq_cast, Int.cast_natCast, geometric_eq,
    List.map_map]
  congr 1
  apply List.map_congr_left
  intro i _
  have odd : dyadicRoot (k + 1) * (dyadicRoot (k + 1) * dyadicRoot (k + 1)) ^ i =
      dyadicRoot (k + 1) ^ (2 * i + 1) := by
    rw [← sq, ← pow_mul, pow_succ']
  rw [Function.comp_apply, odd, basisAt, Residue.pow_eq]
  ring

section Interpolation

variable {n : Nat} {ω tau : Fr}

/-- The roots of unity are all roots of `X ^ n - 1`. -/
theorem nodal_pow (hn : 0 < n) (hω : IsPrimitiveRoot ω n) :
    Lagrange.nodal (Finset.range n) (fun i => ω ^ i) = X ^ n - C 1 := by
  have monic : (X ^ n - C 1 : Fr[X]).Monic := monic_X_pow_sub_C 1 hn.ne'
  have degree : (Lagrange.nodal (Finset.range n) fun i => ω ^ i).degree = n := by
    rw [Lagrange.degree_nodal, Finset.card_range]
  apply eq_of_degree_sub_lt_of_eval_index_eq _ (injOn_pow hω)
  · rw [Finset.card_range, ← degree]
    apply degree_sub_lt_left
    · rw [degree, degree_X_pow_sub_C hn]
    · exact Lagrange.nodal_ne_zero
    · rw [Lagrange.nodal_monic.leadingCoeff, monic.leadingCoeff]
  · intro i hi
    rw [Lagrange.eval_nodal_at_node hi, eval_sub, eval_pow, eval_X, eval_C, ← pow_mul, mul_comm,
      pow_mul, hω.pow_eq_one, one_pow, sub_self]

/-- The weight of a root in the barycentric formula. -/
theorem nodalWeight_pow (hn : 0 < n) (hω : IsPrimitiveRoot ω n) {i : Nat} (hi : i < n) :
    Lagrange.nodalWeight (Finset.range n) (fun i => ω ^ i) i = ω ^ i / n := by
  have nonzero : ω ^ i ≠ 0 := pow_ne_zero i (hω.ne_zero hn.ne')
  have previous : (ω ^ i) ^ (n - 1) = (ω ^ i)⁻¹ := by
    apply eq_inv_of_mul_eq_one_left
    rw [← pow_succ, Nat.sub_add_cancel hn, pow_right_comm, hω.pow_eq_one, one_pow]
  rw [Lagrange.nodalWeight_eq_eval_derivative_nodal (Finset.mem_range.2 hi), nodal_pow hn hω,
    derivative_sub, derivative_C, sub_zero, derivative_X_pow, eval_mul, eval_pow, eval_X, eval_C,
    previous, mul_inv, inv_inv, mul_comm]
  rfl

/-- A point outside the domain differs from every root. -/
theorem ne_root (hω : IsPrimitiveRoot ω n) (htau : tau ^ n ≠ 1) (i : Nat) : tau ≠ ω ^ i := by
  rintro rfl
  apply htau
  rw [pow_right_comm, hω.pow_eq_one, one_pow]

theorem basisAt_ne_zero (hn : (n : Fr) ≠ 0) (hω : IsPrimitiveRoot ω n) (htau : tau ^ n ≠ 1)
    (i : Nat) : basisAt ω n tau i ≠ 0 := by
  have positive : n ≠ 0 := by
    rintro rfl
    exact hn Nat.cast_zero
  have root : ω ^ i ≠ 0 := pow_ne_zero i (hω.ne_zero positive)
  have scale : (tau ^ n - 1) / (n : Fr) ≠ 0 := div_ne_zero (sub_ne_zero.2 htau) hn
  exact div_ne_zero (mul_ne_zero scale root) (sub_ne_zero.2 (ne_root hω htau i))

theorem basisAt_eq_zero (htau : tau ^ n = 1) (i : Nat) : basisAt ω n tau i = 0 := by
  rw [basisAt, htau, sub_self, zero_div, zero_mul, zero_div]

/-- Outside the domain the basis interpolates every polynomial of smaller degree. -/
theorem eval_eq_sum_basisAt (hn : 0 < n) (hω : IsPrimitiveRoot ω n) (htau : tau ^ n ≠ 1)
    {p : Fr[X]} (hp : p.degree < n) :
    p.eval tau = ∑ i ∈ Finset.range n, basisAt ω n tau i * p.eval (ω ^ i) := by
  have same : p = Lagrange.interpolate (Finset.range n) (fun i => ω ^ i)
      (fun i => p.eval (ω ^ i)) := by
    apply Lagrange.eq_interpolate (injOn_pow hω)
    rwa [Finset.card_range]
  conv_lhs => rw [same]
  rw [Lagrange.eval_interpolate_not_at_node _ fun i _ => ne_root hω htau i, nodal_pow hn hω,
    eval_sub, eval_pow, eval_X, eval_C, Finset.mul_sum]
  apply Finset.sum_congr rfl
  intro i hi
  rw [nodalWeight_pow hn hω (Finset.mem_range.1 hi), basisAt]
  ring

end Interpolation

theorem sum_range_two_mul (f : Nat → Fr) (n : Nat) :
    ∑ i ∈ Finset.range (2 * n), f i =
      ∑ i ∈ Finset.range n, f (2 * i) + ∑ i ∈ Finset.range n, f (2 * i + 1) := by
  induction n with
  | zero => simp
  | succ n ih =>
    rw [Nat.mul_succ, Finset.sum_range_succ, Finset.sum_range_succ, ih, Finset.sum_range_succ,
      Finset.sum_range_succ]
    ring

/-- A polynomial that vanishes on the domain is recovered from its values on the odd half of the
doubled domain. -/
theorem eval_eq_sum_odd {k : Nat} (hk : k < 28) {tau : Fr} (htau : tau ^ 2 ^ (k + 1) ≠ 1)
    {p : Fr[X]} (hp : p.degree < (2 ^ (k + 1) : Nat))
    (vanishes : ∀ i < 2 ^ k, p.eval (dyadicRoot k ^ i) = 0) :
    p.eval tau = ∑ i ∈ Finset.range (2 ^ k),
      basisAt (dyadicRoot (k + 1)) (2 ^ (k + 1)) tau (2 * i + 1) *
        p.eval (dyadicRoot (k + 1) * dyadicRoot k ^ i) := by
  have square (i : Nat) : dyadicRoot (k + 1) ^ (2 * i) = dyadicRoot k ^ i := by
    rw [pow_mul, dyadicRoot_succ_sq hk]
  have even : ∀ i ∈ Finset.range (2 ^ k),
      basisAt (dyadicRoot (k + 1)) (2 ^ (k + 1)) tau (2 * i) *
        p.eval (dyadicRoot (k + 1) ^ (2 * i)) = 0 := by
    intro i hi
    rw [square, vanishes i (Finset.mem_range.1 hi), mul_zero]
  rw [eval_eq_sum_basisAt (Nat.two_pow_pos _) (isPrimitiveRoot_dyadicRoot hk) htau hp]
  have half : Finset.range (2 ^ (k + 1)) = Finset.range (2 * 2 ^ k) := by rw [pow_succ']
  rw [half, sum_range_two_mul, Finset.sum_eq_zero even, zero_add]
  apply Finset.sum_congr rfl
  intro i _
  rw [dyadicRoot_succ_mul_pow hk]

section Basis

/-- At `tau`, the value of every polynomial of smaller degree than there are elements in the basis
is the combination of the basis with its values on the powers of `ω`. -/
def Interpolates (ω : Fr) (basis : List Fr) (tau : Fr) : Prop :=
  ∀ p : Fr[X], p.degree < basis.length →
    ∑ i ∈ Finset.range basis.length, p.eval (ω ^ i) * basis.getD i 0 = p.eval tau

variable {n : Nat} {ω tau : Fr}

theorem interpolates_of_pow_ne_one (hn : 0 < n) (hω : IsPrimitiveRoot ω n) (htau : tau ^ n ≠ 1) :
    Interpolates ω ((List.range n).map (basisAt ω n tau)) tau := by
  intro p hp
  rw [List.length_map, List.length_range] at hp ⊢
  rw [eval_eq_sum_basisAt hn hω htau hp]
  apply Finset.sum_congr rfl
  intro i hi
  rw [getD_map_range _ (Finset.mem_range.1 hi), mul_comm]

/-- A basis of zeros does not even interpolate the constant one. -/
theorem sum_one_ne_of_eq_zero {basis : List Fr} (zero : ∀ l ∈ basis, l = 0) (tau : Fr) :
    ∑ i ∈ Finset.range basis.length, (1 : Fr[X]).eval (ω ^ i) * basis.getD i 0 ≠
      (1 : Fr[X]).eval tau := by
  have sum_zero : ∑ i ∈ Finset.range basis.length, (1 : Fr[X]).eval (ω ^ i) * basis.getD i 0 =
      0 := by
    apply Finset.sum_eq_zero
    intro i hi
    have inside : i < basis.length := Finset.mem_range.1 hi
    rw [List.getD_eq_getElem _ _ inside, zero _ (List.getElem_mem inside), mul_zero]
  rw [sum_zero, eval_one]
  exact zero_ne_one

end Basis

/-- The computed basis interpolates exactly at the points outside the domain. None of its elements
is zero there; at a point of the domain all of them are, and not even the constant one is
recovered. -/
theorem lagrange_interpolates_iff {k : Nat} (room : 2 ^ k ≤ maxDomain) (tau : Fr) :
    ∃ ω basis, rootOfUnity ((2 ^ k : Nat) : Int) = .ok ω ∧
      lagrange tau ((2 ^ k : Nat) : Int) = .ok basis ∧ basis.length = 2 ^ k ∧
      (tau ^ 2 ^ k ≠ 1 → Interpolates ω basis tau ∧ ∀ l ∈ basis, l ≠ 0) ∧
      (tau ^ 2 ^ k = 1 → (∀ l ∈ basis, l = 0) ∧
        ∑ i ∈ Finset.range (2 ^ k), (1 : Fr[X]).eval (ω ^ i) * basis.getD i 0 ≠
          (1 : Fr[X]).eval tau) ∧
      (Interpolates ω basis tau ↔ tau ^ 2 ^ k ≠ 1) := by
  have hk := le_of_two_pow_le_maxDomain room
  have hω := isPrimitiveRoot_dyadicRoot hk
  let basis := (List.range (2 ^ k)).map (basisAt (dyadicRoot k) (2 ^ k) tau)
  have length : basis.length = 2 ^ k := by simp [basis]
  have outside (htau : tau ^ 2 ^ k ≠ 1) : Interpolates (dyadicRoot k) basis tau :=
    interpolates_of_pow_ne_one (Nat.two_pow_pos k) hω htau
  have inside (htau : tau ^ 2 ^ k = 1) : ∀ l ∈ basis, l = 0 := by
    intro l hl
    obtain ⟨i, -, rfl⟩ := List.mem_map.1 hl
    exact basisAt_eq_zero htau i
  refine ⟨dyadicRoot k, basis, rootOfUnity_two_pow hk, lagrange_eq hk tau, length, fun htau => ?_,
    fun htau => ?_, fun interpolates htau => ?_, outside⟩
  · refine ⟨outside htau, fun l hl => ?_⟩
    obtain ⟨i, -, rfl⟩ := List.mem_map.1 hl
    exact basisAt_ne_zero (Fourier.two_pow_ne_zero k) hω htau i
  · rw [← length]
    exact ⟨inside htau, sum_one_ne_of_eq_zero (inside htau) tau⟩
  · have one_small : (1 : Fr[X]).degree < basis.length := by
      rw [degree_one, length]
      exact_mod_cast Nat.two_pow_pos k
    exact sum_one_ne_of_eq_zero (inside htau) tau (interpolates 1 one_small)

/-- Outside and inside of a domain of four roots. -/
theorem lagrange_interpolates_iff_four : 2 ^ 2 ≤ maxDomain ∧
    (∃ ω basis, rootOfUnity 4 = .ok ω ∧ lagrange 3 4 = .ok basis ∧ Interpolates ω basis 3) ∧
    ∃ ω basis, rootOfUnity 4 = .ok ω ∧ lagrange (-1) 4 = .ok basis ∧ ∀ l ∈ basis, l = 0 := by
  have room : 2 ^ 2 ≤ maxDomain := by decide
  obtain ⟨ω, basis, root, made, -, outside, -⟩ := lagrange_interpolates_iff room 3
  obtain ⟨ω', basis', root', made', -, -, inside, -⟩ := lagrange_interpolates_iff room (-1)
  exact ⟨room, ⟨ω, basis, root, made, (outside (by decide)).1⟩,
    ω', basis', root', made', (inside (by decide)).1⟩

end Snark.Groth16
