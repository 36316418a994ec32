import Snark.Bn254.Field

/-!
# Curve parameters

What the files say about the curve they were made for: its two moduli and the widths of their
residues in bytes. Files made for other parameters than the configured ones are refused.
-/

namespace Snark

/-- The parameters of a curve. -/
structure CurveParams where
  name : Text
  /-- The modulus of coordinates. -/
  q : Int
  /-- The modulus of scalars. -/
  r : Int
  /-- The width of a coordinate in bytes. -/
  baseWidth : Int
  /-- The width of a scalar in bytes. -/
  scalarWidth : Int
  deriving DecidableEq, Repr

namespace CurveParams

/-- The parameters of BN254, under the name that files use for it. -/
def bn254 : CurveParams := ⟨"bn128", baseOrder, scalarOrder, 32, 32⟩

/-- The width of a point of the curve in bytes. -/
def curvePointWidth (c : CurveParams) : Nat := 2 * c.baseWidth.toNat

/-- The width of a point of the twist in bytes. -/
def twistPointWidth (c : CurveParams) : Nat := 4 * c.baseWidth.toNat

end CurveParams

end Snark
