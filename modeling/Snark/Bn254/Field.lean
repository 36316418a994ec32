import Snark.Field.Residue

/-!
# The fields of BN254

BN254 is a pairing-friendly curve over the field of `baseOrder` elements. Its groups have
`scalarOrder` elements, so scalars are residues modulo that number.
-/

namespace Snark

/-- The number of elements of the field that coordinates are in. -/
def baseOrder : Nat :=
  21888242871839275222246405745257275088696311157297823662689037894645226208583

/-- The number of points of each of the two groups. -/
def scalarOrder : Nat :=
  21888242871839275222246405745257275088548364400416034343698204186575808495617

instance : Modulus baseOrder := ⟨by decide⟩

instance : Modulus scalarOrder := ⟨by decide⟩

/-- Coordinates of points on the curve. -/
abbrev Fq := Residue baseOrder

/-- Scalars: coefficients of constraints, values of wires, exponents in keys and proofs. -/
abbrev Fr := Residue scalarOrder

end Snark
