import Snark.Failure
import Snark.System.Basic

/-!
# Assignments

A circuit is a constraint system with the values of its wires, or without them where only a key
is to be made from it. `assemble` accepts values for every wire and does not ask whether they
satisfy the constraints; `Circuit.unsatisfied` tells which ones they do not.
-/

namespace Snark

/-- A constraint system and the values of its wires, if there are any. -/
structure Circuit where
  system : ConstraintSystem
  witness : Option (List Fr)

namespace Circuit

/-- The values of all wires. -/
def assignment (k : Circuit) : Result (List Fr) :=
  match k.witness with
  | some w => .ok w
  | none => .error (.length .noWitness)

/-- The values of the public wires, the constant one left out. -/
def publicValues (k : Circuit) : Result (List Fr) := do
  return Position.slice (← k.assignment) 1 k.system.publicWires

/-- The values of the linear combinations of every constraint. -/
def evaluations (k : Circuit) : Result (List (Fr × Fr × Fr)) := do
  let w ← k.assignment
  Result.ofFault (k.system.constraints.mapM (Constraint.eval w))

/-- The numbers of the constraints that do not hold, in increasing order. -/
def unsatisfied (k : Circuit) : Result (List Nat) := do
  let rows ← k.evaluations
  return (rows.zipIdx.filter fun ((a, b, c), _) => a * b ≠ c).map (·.2)

/-- Whether every constraint holds. -/
def isSatisfied (k : Circuit) : Result Bool := do
  return (← k.unsatisfied).isEmpty

end Circuit

/-- The circuit of a system and integers for the values of its wires. -/
def assemble (s : ConstraintSystem) (values : List Int) : Result Circuit :=
  if (values.length : Int) = s.wires then
    .ok ⟨s, some (values.map Residue.ofInt)⟩
  else
    .error (.length (.witness values.length s.wires))

end Snark
