import Snark.Bn254.Pairing
import Snark.Curve
import Snark.Failure
import Snark.Montgomery

/-!
# Points and coefficients in key files

Coordinates are stored in Montgomery form, those of the twist with the real part first, and a
point all of whose coordinates are zero is the point at infinity. Coefficients are in Montgomery
form twice over. Moduli and widths are those of the curve parameters; points are always points of
BN254, and a finite point off its curve is refused.
-/

namespace Snark.KeyFile

/-- The stored integer of a coordinate, out of Montgomery form. -/
def readCoordinate (curve : CurveParams) (bytes : Bytes) : Result Int :=
  Result.ofFault do
    Montgomery.decode curve.q (← Bytes.width? curve.baseWidth) 1 bytes.toNat

/-- The bytes of a coordinate. -/
def coordinateBytes (curve : CurveParams) (x : Fq) : Except Fault Bytes := do
  let v ← Montgomery.encode curve.q (← Bytes.width? curve.baseWidth) 1 x.val
  Bytes.ofInt? (← Bytes.room? curve.baseWidth) v

/-- The part of some bytes that holds the coordinate of the given number. -/
def coordinateAt (curve : CurveParams) (i : Nat) (bytes : Bytes) : Bytes :=
  (bytes.drop (i * curve.baseWidth.toNat)).take curve.baseWidth.toNat

/-- Reads a point of the curve. -/
def decodeG1 (curve : CurveParams) (bytes : Bytes) : Result G1 := do
  let x ← readCoordinate curve (coordinateAt curve 0 bytes)
  let y ← readCoordinate curve (coordinateAt curve 1 bytes)
  if x = 0 && y = 0 then
    return .infinity
  let p : G1 := .affine (.ofInt x) (.ofInt y)
  if Bn254.isOnCurve p then return p else throw (.key (.curvePoint x y))

/-- Reads a point of the twist. -/
def decodeG2 (curve : CurveParams) (bytes : Bytes) : Result G2 := do
  let x₀ ← readCoordinate curve (coordinateAt curve 0 bytes)
  let x₁ ← readCoordinate curve (coordinateAt curve 1 bytes)
  let y₀ ← readCoordinate curve (coordinateAt curve 2 bytes)
  let y₁ ← readCoordinate curve (coordinateAt curve 3 bytes)
  if x₀ = 0 && x₁ = 0 && y₀ = 0 && y₁ = 0 then
    return .infinity
  let p : G2 := .affine ⟨.ofInt x₀, .ofInt x₁⟩ ⟨.ofInt y₀, .ofInt y₁⟩
  if Bn254.isOnTwist p then return p else throw (.key (.twistPoint x₀ x₁))

/-- The zero bytes of the point at infinity, which has the given number of coordinates. -/
def infinityBytes (curve : CurveParams) (coordinates : Nat) : Except Fault Bytes := do
  return List.replicate (← Bytes.room? (coordinates * curve.baseWidth)) 0

/-- The bytes of a point of the curve. -/
def encodeG1 (curve : CurveParams) : G1 → Except Fault Bytes
  | .infinity => infinityBytes curve 2
  | .affine x y => do
    return (← coordinateBytes curve x) ++ (← coordinateBytes curve y)

/-- The bytes of a point of the twist. -/
def encodeG2 (curve : CurveParams) : G2 → Except Fault Bytes
  | .infinity => infinityBytes curve 4
  | .affine x y => do
    return (← coordinateBytes curve x.re) ++ (← coordinateBytes curve x.im) ++
      (← coordinateBytes curve y.re) ++ (← coordinateBytes curve y.im)

/-- Reads a coefficient. -/
def decodeScalar (curve : CurveParams) (bytes : Bytes) : Result Fr :=
  Result.ofFault do
    let width ← Bytes.width? curve.scalarWidth
    return .ofInt (← Montgomery.decode curve.r width 2 bytes.toNat)

/-- The bytes of a coefficient. -/
def encodeScalar (curve : CurveParams) (v : Int) : Except Fault Bytes := do
  let v ← Montgomery.encode curve.r (← Bytes.width? curve.scalarWidth) 2 v
  Bytes.ofInt? (← Bytes.room? curve.scalarWidth) v

end Snark.KeyFile
