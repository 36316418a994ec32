import Snark.Bn254.Field
import Snark.Position

/-!
# Rank-one constraint systems

A system constrains the values of its wires: in every constraint, the value of the first linear
combination times that of the second is the value of the third. Wire 0 carries the constant one;
the public outputs, the public inputs, the private inputs and the inner signals follow.

A system is what its maker declares; that the counts and wires fit together is checked where a
system is read from a file.
-/

namespace Snark

/-- A sum of wires with coefficients. -/
abbrev LinearCombination := List (Int × Fr)

/-- A product of two linear combinations that has to equal a third. -/
structure Constraint where
  a : LinearCombination
  b : LinearCombination
  c : LinearCombination
  deriving DecidableEq, Repr

/-- A constraint system with the counts and labels of its wires. -/
structure ConstraintSystem where
  /-- The width of a coefficient in bytes. -/
  fieldWidth : Int
  prime : Int
  wires : Int
  publicOutputs : Int
  publicInputs : Int
  privateInputs : Int
  labels : Int
  constraints : List Constraint
  /-- The label of every wire. -/
  wireLabels : List Int
  version : Int
  deriving DecidableEq, Repr

namespace ConstraintSystem

/-- How many wires are public, the constant one not counted. -/
def publicSignals (s : ConstraintSystem) : Int := s.publicOutputs + s.publicInputs

/-- How many wires are public, with the constant one. -/
def publicWires (s : ConstraintSystem) : Int := 1 + s.publicSignals

/-- How many wires are not public. -/
def innerWires (s : ConstraintSystem) : Int := s.wires - s.publicWires

/-- The label of a wire. -/
def labelOf (s : ConstraintSystem) (wire : Int) : Except Fault Int :=
  Position.get s.wireLabels wire

end ConstraintSystem

namespace LinearCombination

/-- The value of a linear combination for the given values of the wires. -/
def eval (w : List Fr) : LinearCombination → Except Fault Fr
  | [] => .ok 0
  | (wire, coeff) :: rest => do
    let x ← Position.get w wire
    return coeff * x + (← eval w rest)

end LinearCombination

namespace Constraint

/-- The values of the three linear combinations. -/
def eval (w : List Fr) (k : Constraint) : Except Fault (Fr × Fr × Fr) := do
  let a ← LinearCombination.eval w k.a
  let b ← LinearCombination.eval w k.b
  let c ← LinearCombination.eval w k.c
  return (a, b, c)

end Constraint

end Snark
