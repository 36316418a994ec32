import Snark.Proofs.Sandbox.Slots
import Snark.Witness.Calculator

/-!
# Making a calculator

A program is accepted if the prime in its memory is the one of the curve. The prime has been read
from as many bytes as the limbs of a slot have, so a slot has room for it.
-/

namespace Snark.Witness.Calculator

variable {σ : Type} {k : Calculator σ} {contents : σ → Bytes}

/-- A calculator drives the given program in the field of the given curve. -/
structure Drives (k : Calculator σ) (sandbox : Sandbox σ) (curve : CurveParams) : Prop where
  program : k.sandbox = sandbox
  prime : k.codec.prime = curve.r
  pos : 0 < k.codec.prime
  /-- The prime has been found in the memory, in as many bytes as the limbs have. -/
  fits : sandbox.memory.ReadsInFull → k.codec.prime < 2 ^ (32 * k.codec.limbs)

/-- What has been made drives the program that it has been made for. -/
theorem drives_of_make {sandbox : Sandbox σ} {curve : CurveParams} {observed : List NoticeKind}
    {sanity : Bool} {m n : Machine σ}
    (made : make sandbox curve observed sanity m = (.ok k, n)) : k.Drives sandbox curve := by
  rw [make] at made
  obtain ⟨length, m₁, -, made⟩ := Run.bind_eq_ok_iff.1 made
  dsimp only at made
  split at made
  · obtain ⟨_, _, -, made⟩ := Run.bind_eq_ok_iff.1 made
    obtain ⟨_, _, impossible, -⟩ := Run.bind_eq_ok_iff.1 made
    cases impossible
  · obtain ⟨address, m₂, -, made⟩ := Run.bind_eq_ok_iff.1 made
    obtain ⟨bytes, m₃, read, made⟩ := Run.bind_eq_ok_iff.1 made
    split at made
    · obtain ⟨_, _, impossible, -⟩ := Run.bind_eq_ok_iff.1 made
      cases impossible
    next same =>
      obtain ⟨codec, m₄, layout, made⟩ := Run.bind_eq_ok_iff.1 made
      obtain ⟨count, m₅, -, made⟩ := Run.bind_eq_ok_iff.1 made
      cases made
      obtain ⟨prime, limbs, nonzero⟩ := Slot.Codec.make_eq_ok (Run.ofFault_eq_ok_iff.1 layout).1
      refine ⟨rfl, prime.trans (not_not.1 same), ?_, fun full => ?_⟩
      · rw [prime]
        omega
      · have width : bytes.length = 4 * codec.limbs := by
          have := full (by omega) read
          omega
        have radix : Bytes.capacity (4 * codec.limbs) = 2 ^ (32 * codec.limbs) := by
          have word : Bytes.capacity 4 = 2 ^ 32 := by decide
          rw [pow_mul, ← word]
          exact pow_mul 256 4 codec.limbs
        have bound := Bytes.toNat_lt_of_length width
        rw [prime]
        exact_mod_cast radix ▸ bound

/-- A calculator that has been made for a program in a byte memory has slots with room for the prime
that it has found there. -/
theorem hasRoom_of_make {sandbox : Sandbox σ} (acts : sandbox.memory.ActsOn contents)
    {curve : CurveParams} {observed : List NoticeKind} {sanity : Bool} {m n : Machine σ}
    (made : make sandbox curve observed sanity m = (.ok k, n)) :
    k.sandbox = sandbox ∧ k.codec.HasRoom := by
  have drives := drives_of_make made
  exact ⟨drives.program, drives.pos, (drives.fits acts.readsInFull).le⟩

/-- The scalar field takes eight limbs. -/
theorem Drives.limbs_of_bn254 {sandbox : Sandbox σ} (drives : k.Drives sandbox .bn254)
    (full : sandbox.memory.ReadsInFull) :
    8 ≤ k.codec.limbs ∧ scalarOrder < 2 ^ (32 * k.codec.limbs) := by
  have fits : scalarOrder < 2 ^ (32 * k.codec.limbs) := by
    have prime : k.codec.prime = (scalarOrder : Int) := drives.prime
    have bound := drives.fits full
    rw [prime] at bound
    exact_mod_cast bound
  refine ⟨?_, fits⟩
  by_contra few
  have narrow : 2 ^ (32 * k.codec.limbs) ≤ 2 ^ 224 := Nat.pow_le_pow_right (by decide) (by omega)
  exact absurd (Nat.lt_of_lt_of_le fits narrow) (by decide)

end Snark.Witness.Calculator
