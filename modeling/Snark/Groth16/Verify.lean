import Snark.Failure
import Snark.Group
import Snark.Key.Basic

/-!
# Verifier

A proof is accepted if the pairing of its first two elements equals the product of three pairings
of the key, the combined public values and the third element. Public values are taken as they are:
an integer outside the scalar field is refused and never reduced.
-/

namespace Snark.Groth16

variable {G₁ G₂ T : Type} [CurveGroup G₁]

/-- Refuses the first of some public values, numbered from `i` on, that is no scalar. -/
def checkInputs : (i : Nat) → List Int → Result Unit
  | _, [] => .ok ()
  | i, x :: rest =>
    if 0 ≤ x && x < scalarOrder then checkInputs (i + 1) rest
    else .error (.abi (.inputRange i x))

/-- The combination of the public values with the points of the key. -/
def prepareInputs (vk : VerifyingKey G₁ G₂) (xs : List Int) : Result G₁ := do
  if (xs.length : Int) ≠ vk.publicSignals then
    throw (.length (.inputs xs.length vk.publicSignals))
  checkInputs 0 xs
  match vk.inputs with
  | [] => throw (.fault .indexOutOfRange)
  | first :: rest =>
    return CurveGroup.add first (CurveGroup.combination (xs.map Residue.ofInt) rest)

variable [PairingGroups G₁ G₂ T]

/-- The product of pairings that a proof has to match. -/
def expected (vk : VerifyingKey G₁ G₂) (proof : Proof G₁ G₂) (prepared : G₁) :
    Except Fault T := do
  let alphaBeta ← PairingGroups.pair vk.beta vk.alpha
  let inputs ← PairingGroups.pair vk.gamma prepared
  let rest ← PairingGroups.pair vk.delta proof.c
  return PairingGroups.combine G₁ G₂ (PairingGroups.combine G₁ G₂ alphaBeta inputs) rest

/-- Whether a proof is accepted for the given public values. -/
def verify (vk : VerifyingKey G₁ G₂) (proof : Proof G₁ G₂) (xs : List Int) : Result Bool := do
  let prepared ← prepareInputs vk xs
  Result.ofFault do
    let found ← PairingGroups.pair proof.b proof.a
    let product ← expected vk proof prepared
    return @decide (found = product) (PairingGroups.decEq G₁ G₂ found product)

end Snark.Groth16
