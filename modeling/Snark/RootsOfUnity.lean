import Snark.Bn254.Field

/-!
# Roots of unity

The multiplicative group of the scalar field has a subgroup of `2 ^ 28` elements, so for every
power of two up to that there is a root of unity of that order. `rootOfUnity` is the one that the
generator 5 of the whole group gives.
-/

namespace Snark

/-- Whether a number is a power of two. -/
def isPowerOfTwo (n : Nat) : Bool := n ≠ 0 && n &&& (n - 1) = 0

/-- The largest order of a root of unity that is a power of two. -/
def maxDomain : Nat := 0x10000000

/-- The exponent of a power of two. -/
def exponentOf (n : Int) : Except Fault Nat :=
  if n < 1 || !isPowerOfTwo n.toNat then .error (.notPowerOfTwo n) else .ok n.toNat.log2

/-- The root of unity of order `n`, a power of two. -/
def rootOfUnity (n : Int) : Except Fault Fr :=
  if n < 1 || !isPowerOfTwo n.toNat then .error (.notPowerOfTwo n)
  else if maxDomain < n.toNat then .error (.pastTwoAdicity n)
  else .ok ((Residue.ofNat 5).pow ((scalarOrder - 1) / n.toNat))

/-- The products `x, x * ω, x * ω ^ 2, …`, of which there are `n`. -/
def geometric (x ω : Fr) : Nat → List Fr
  | 0 => []
  | n + 1 => x :: geometric (x * ω) ω n

@[simp] theorem length_geometric (x ω : Fr) (n : Nat) : (geometric x ω n).length = n := by
  induction n generalizing x with
  | zero => rfl
  | succ n ih => rw [geometric, List.length_cons, ih]

/-- All roots of unity of order `n`, as powers of the first one from one on. -/
def rootsOfUnity (n : Int) : Except Fault (List Fr) := do
  return geometric 1 (← rootOfUnity n) n.toNat

end Snark
