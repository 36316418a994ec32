import Snark.Curve
import Snark.RootsOfUnity

/-!
# Keys and proofs

The keys of a Groth16 proof system over two groups, and its proofs. A proving key holds, for every
wire, what the wire adds to each element of a proof, and the entries of the matrices of the
constraints that the prover needs to find the quotient polynomial.
-/

namespace Snark

/-- What a verifier needs. -/
structure VerifyingKey (G₁ G₂ : Type) where
  alpha : G₁
  beta : G₂
  gamma : G₂
  delta : G₂
  /-- The points that the public values are combined with, that of the constant wire first. -/
  inputs : List G₁
  deriving DecidableEq, Repr

/-- The number of public values that a key takes. -/
def VerifyingKey.publicSignals {G₁ G₂ : Type} (vk : VerifyingKey G₁ G₂) : Int :=
  (vk.inputs.length : Int) - 1

/-- An entry of the matrix of the first combinations, numbered 0, or of the second ones. -/
structure Coefficient where
  matrix : Int
  row : Int
  signal : Int
  value : Fr
  deriving DecidableEq, Repr

/-- What a prover needs. -/
structure ProvingKey (G₁ G₂ : Type) where
  verifying : VerifyingKey G₁ G₂
  beta : G₁
  delta : G₁
  /-- One point for every wire, for the first element of a proof. -/
  a : List G₁
  /-- One point for every wire, for the second element in the first group. -/
  b₁ : List G₁
  /-- One point for every wire, for the second element. -/
  b₂ : List G₂
  /-- One point for every wire that is not public. -/
  l : List G₁
  /-- One point for every element of the domain, for the quotient. -/
  h : List G₁
  coefficients : List Coefficient
  wires : Int
  publicSignals : Int
  domain : Int
  q : Int
  r : Int
  baseWidth : Int
  scalarWidth : Int
  deriving DecidableEq, Repr

/-- The binary logarithm of the size of the domain. -/
def ProvingKey.power {G₁ G₂ : Type} (pk : ProvingKey G₁ G₂) : Except Fault Nat :=
  exponentOf pk.domain

/-- A proof. -/
structure Proof (G₁ G₂ : Type) where
  a : G₁
  b : G₂
  c : G₁
  deriving DecidableEq, Repr

end Snark
