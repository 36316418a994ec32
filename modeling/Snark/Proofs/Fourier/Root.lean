import Mathlib.RingTheory.RootsOfUnity.PrimitiveRoots
import Snark.Proofs.Except
import Snark.Proofs.Field.Prime
import Snark.RootsOfUnity

/-!
# Roots of unity in the scalar field

The number before `scalarOrder` is divisible by `2 ^ 28`, and 5 is no square modulo `scalarOrder`.
The root of order `2 ^ k` is therefore primitive for every `k` up to 28, and its square is the root
of the order before.
-/

namespace Snark

theorem isPowerOfTwo_iff {n : Nat} : isPowerOfTwo n ↔ ∃ k, n = 2 ^ k := by
  have test : isPowerOfTwo n ↔ n ≠ 0 ∧ n &&& (n - 1) = 0 := by simp [isPowerOfTwo]
  exact test.trans Nat.ne_zero_and_sub_one_eq_zero_iff_isPowerOfTwo

@[simp] theorem isPowerOfTwo_two_pow (k : Nat) : isPowerOfTwo (2 ^ k) :=
  isPowerOfTwo_iff.2 ⟨k, rfl⟩

/-- The odd part of the number before `scalarOrder`. -/
def oddPart : Nat := (scalarOrder - 1) / 2 ^ 28

theorem scalarOrder_sub_one : scalarOrder - 1 = 2 ^ 28 * oddPart := by decide

/-- The root of unity of order `2 ^ k`. -/
def dyadicRoot (k : Nat) : Fr := (5 : Fr) ^ ((scalarOrder - 1) / 2 ^ k)

theorem dyadicRoot_eq_pow {k : Nat} (hk : k ≤ 28) :
    dyadicRoot k = dyadicRoot 28 ^ 2 ^ (28 - k) := by
  have split : 2 ^ 28 * oddPart = oddPart * 2 ^ (28 - k) * 2 ^ k := by
    rw [mul_assoc, ← pow_add, Nat.sub_add_cancel hk, mul_comm]
  rw [dyadicRoot, dyadicRoot, ← pow_mul, ← oddPart, scalarOrder_sub_one, split,
    Nat.mul_div_cancel _ (Nat.two_pow_pos k)]

theorem dyadicRoot_succ_sq {k : Nat} (hk : k < 28) : dyadicRoot (k + 1) ^ 2 = dyadicRoot k := by
  rw [dyadicRoot_eq_pow hk.le, dyadicRoot_eq_pow hk, ← pow_mul, ← pow_succ]
  congr 2
  omega

theorem two_mul_two_pow (k : Nat) :
    (2 : Int) * ((2 ^ k : Nat) : Int) = ((2 ^ (k + 1) : Nat) : Int) := by
  push_cast
  ring

/-- The multiples of the root of the doubled order by the roots of the order itself are its odd
powers. -/
theorem dyadicRoot_succ_mul_pow {k : Nat} (hk : k < 28) (i : Nat) :
    dyadicRoot (k + 1) * dyadicRoot k ^ i = dyadicRoot (k + 1) ^ (2 * i + 1) := by
  rw [← dyadicRoot_succ_sq hk, ← pow_mul, ← pow_succ']

/-- The order of a root is no larger than the largest one. -/
theorem le_of_two_pow_le_maxDomain {k : Nat} (room : 2 ^ k ≤ maxDomain) : k ≤ 28 :=
  (Nat.pow_le_pow_iff_right Nat.one_lt_two).1 (room : 2 ^ k ≤ 2 ^ 28)

theorem five_pow_ne_one : (5 : Fr) ^ ((scalarOrder - 1) / 2) ≠ 1 := by decide +kernel

theorem five_pow_eq_one : (5 : Fr) ^ (scalarOrder - 1) = 1 := by decide +kernel

theorem isPrimitiveRoot_dyadicRoot {k : Nat} (hk : k ≤ 28) :
    IsPrimitiveRoot (dyadicRoot k) (2 ^ k) := by
  have top : IsPrimitiveRoot (dyadicRoot 28) (2 ^ 28) := by
    rw [IsPrimitiveRoot.iff_orderOf]
    apply orderOf_eq_prime_pow
    · rw [dyadicRoot, ← pow_mul, ← oddPart]
      have : oddPart * 2 ^ 27 = (scalarOrder - 1) / 2 := by rw [scalarOrder_sub_one]; omega
      rw [this]
      exact five_pow_ne_one
    · rw [dyadicRoot, ← pow_mul, ← oddPart, mul_comm, ← scalarOrder_sub_one]
      exact five_pow_eq_one
  rw [dyadicRoot_eq_pow hk]
  apply top.pow (Nat.two_pow_pos 28)
  rw [← pow_add, Nat.sub_add_cancel hk]

theorem injOn_pow {n : Nat} {ω : Fr} (hω : IsPrimitiveRoot ω n) :
    Set.InjOn (fun i => ω ^ i) (Finset.range n : Set Nat) := by
  intro i hi j hj h
  exact hω.pow_inj (Finset.mem_range.1 hi) (Finset.mem_range.1 hj) h

/-- The roots of the orders up to `maxDomain` are those that the library hands out. -/
theorem rootOfUnity_two_pow {k : Nat} (hk : k ≤ 28) :
    rootOfUnity ((2 ^ k : Nat) : Int) = .ok (dyadicRoot k) := by
  have positive : ¬ ((2 ^ k : Nat) : Int) < 1 := by
    have := Nat.two_pow_pos k
    omega
  have small : ¬ maxDomain < 2 ^ k :=
    Nat.not_lt.2 (Nat.pow_le_pow_right (by decide) hk : 2 ^ k ≤ 2 ^ 28)
  rw [rootOfUnity, Int.toNat_natCast, isPowerOfTwo_two_pow]
  simp only [positive, small, Bool.not_true, Bool.or_false, decide_false, Bool.false_eq_true,
    if_false]
  rfl

theorem geometric_eq (x ω : Fr) (n : Nat) :
    geometric x ω n = (List.range n).map fun i => x * ω ^ i := by
  induction n generalizing x with
  | zero => rfl
  | succ n ih =>
    rw [geometric, ih, List.range_succ_eq_map, List.map_cons, List.map_map, pow_zero, mul_one]
    congr 1
    apply List.map_congr_left
    intro i _
    rw [Function.comp_apply, Nat.succ_eq_add_one, pow_succ', mul_assoc]

theorem getD_map_range (f : Nat → Fr) {i n : Nat} (hi : i < n) :
    ((List.range n).map f).getD i 0 = f i := by
  simp [hi]

theorem rootsOfUnity_two_pow {k : Nat} (hk : k ≤ 28) :
    rootsOfUnity ((2 ^ k : Nat) : Int) = .ok ((List.range (2 ^ k)).map (dyadicRoot k ^ ·)) := by
  rw [rootsOfUnity, rootOfUnity_two_pow hk, Int.toNat_natCast, Except.ok_bind, geometric_eq]
  simp only [one_mul, Except.pure_eq_ok]

end Snark
