import Snark.Bn254.Field

/-!
# Groups with a pairing

Keys and proofs are made of elements of two groups, written additively, of which both the setup
and the verifier use a fixed generator. `PairingGroups` adds the pairing of the two groups into a
third one, whose elements are only multiplied and compared. Setup, prover and verifier are written
over these classes, so their theory does not depend on the curve underneath.
-/

namespace Snark

/-- The operations of a group of points. -/
class CurveGroup (G : Type) where
  zero : G
  generator : G
  add : G → G → G
  neg : G → G
  /-- The multiple of a point by a number. -/
  multiple : Nat → G → G

/-- Two groups of points and a pairing of them. -/
class PairingGroups (G₁ G₂ : Type) (T : outParam Type) where
  /-- The pairing, defined where both points are on their curves. -/
  pair : G₂ → G₁ → Except Fault T
  combine : T → T → T
  decEq : DecidableEq T

namespace CurveGroup

variable {G : Type} [CurveGroup G]

/-- The multiple of a point by a scalar. -/
def scale (k : Fr) (p : G) : G := multiple k.val p

/-- The multiple of the generator by a scalar. -/
def ofScalar (k : Fr) : G := scale k generator

/-- The sum of multiples of points; of two lists the shorter one ends it. -/
def combination (ks : List Fr) (ps : List G) : G :=
  (ks.zip ps).foldl (fun acc kp => add acc (scale kp.1 kp.2)) zero

end CurveGroup

end Snark
