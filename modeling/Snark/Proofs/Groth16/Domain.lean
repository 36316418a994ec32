import Snark.Proofs.Fourier.Root
import Snark.Proofs.Groth16.Matrix

/-!
# The size of the domain

Doubling stops at the first power of two with a row for every constraint and every public wire.
-/

namespace Snark.Groth16

/-- Doubling stays among the powers of two, reaches the bound, and stops at the first power that
does. -/
theorem doubleUpTo_spec (bound steps k : Nat) (h : bound ≤ 2 ^ (k + steps)) :
    ∃ l, doubleUpTo bound steps (2 ^ k) = 2 ^ l ∧ bound ≤ 2 ^ l ∧
      ∀ j, k ≤ j → bound ≤ 2 ^ j → l ≤ j := by
  induction steps generalizing k with
  | zero => exact ⟨k, rfl, h, fun j hj _ => hj⟩
  | succ steps ih =>
    rw [doubleUpTo]
    split_ifs with small
    · obtain ⟨l, size, enough, least⟩ := ih (k + 1) (by rwa [Nat.add_right_comm, Nat.add_assoc])
      refine ⟨l, by rw [← pow_succ', size], enough, fun j hj hbound => least j ?_ hbound⟩
      by_contra below
      have : j = k := by omega
      subst this
      exact absurd small hbound.not_gt
    · exact ⟨k, rfl, Nat.not_lt.1 small, fun j hj _ => hj⟩

variable {s : ConstraintSystem}

theorem rowCount_eq (h : -1 ≤ s.publicSignals) :
    ((s.constraints.length : Int) + s.publicSignals + 1).toNat = rowCount s := by
  rw [rowCount]
  omega

/-- The domain is the least power of two that all rows fit in. -/
theorem exists_domainSize (h : -1 ≤ s.publicSignals) :
    ∃ k, domainSize s = 2 ^ k ∧ rowCount s ≤ 2 ^ k ∧ ∀ j, rowCount s ≤ 2 ^ j → k ≤ j := by
  obtain ⟨k, size, enough, least⟩ :=
    doubleUpTo_spec (rowCount s) (rowCount s) 0 (by rw [zero_add]; exact Nat.lt_two_pow_self.le)
  refine ⟨k, ?_, enough, fun j => least j j.zero_le⟩
  rw [domainSize, rowCount_eq h]
  exact size

/-- The domain of a system that is not too large has a root of unity of twice its order. -/
theorem exists_exponent (hs : s.WellFormed) (hsize : domainSize s ≤ 2 ^ 27) :
    ∃ k < 28, domainSize s = 2 ^ k ∧ rowCount s ≤ 2 ^ k := by
  have signals : -1 ≤ s.publicSignals := by
    have := hs.publicSignals_nonneg
    omega
  obtain ⟨k, size, enough, -⟩ := exists_domainSize signals
  rw [size] at hsize
  exact ⟨k, Nat.lt_succ_of_le ((Nat.pow_le_pow_iff_right Nat.one_lt_two).1 hsize), size, enough⟩

end Snark.Groth16
