import Snark.Abi.Word
import Snark.Bn254.Pairing

/-!
# Points of a contract call

A contract takes a point as its coordinates, reduced, and the point at infinity as zeros. A pair of
coordinates need not lie on a curve: that is found out when the point is asked for. The components
of a coordinate of the twist come with the imaginary one first.
-/

namespace Snark.Abi

/-- The coordinates of a point of the curve. -/
structure CurvePoint where
  x : Fq
  y : Fq
  deriving DecidableEq, Repr

/-- The coordinates of a point of the twist. -/
structure TwistPoint where
  x : Fq2
  y : Fq2
  deriving DecidableEq, Repr

/-- An integer as a coordinate; it is not reduced. -/
def coordinate (v : Int) : Result Fq :=
  if 0 ≤ v && v < baseOrder then .ok (.ofInt v) else .error (.worded (.abi (.coordinate v)))

/-- The two components of a coordinate, given as a list that is named in the message. -/
def pair (what : String) : List Int → Result (Int × Int)
  | [c₀, c₁] => .ok (c₀, c₁)
  | vs => .error (.abi (.components what vs.length))

namespace CurvePoint

/-- The point with the given integers for coordinates. -/
def ofInts (x y : Int) : Result CurvePoint := do
  let x ← coordinate x
  let y ← coordinate y
  return ⟨x, y⟩

/-- The coordinates of a point. -/
def ofPoint : G1 → CurvePoint
  | .infinity => ⟨0, 0⟩
  | .affine x y => ⟨x, y⟩

/-- The point that has the coordinates. -/
def toPoint (p : CurvePoint) : Result G1 :=
  let q : G1 := .affine p.x p.y
  if p.x = 0 && p.y = 0 then .ok .infinity
  else if Bn254.isOnCurve q then .ok q
  else .error (.abi (.curvePoint p.x.val))

/-- The point as an argument. -/
def argument (p : CurvePoint) : Argument := .array [.word p.x.val, .word p.y.val]

/-- The bytes of a point. -/
def toBytes (p : CurvePoint) : Bytes := word p.x.val ++ word p.y.val

/-- Reads the bytes of a point. -/
def ofBytes (bs : Bytes) : Result CurvePoint := do
  match ← words 2 bs with
  | [x, y] => ofInts x y
  | _ => throw (.abi (.length bs.length (2 * wordSize)))

end CurvePoint

namespace TwistPoint

/-- The point whose coordinates have the given components. -/
def ofPairs (x y : Int × Int) : Result TwistPoint := do
  let x₀ ← coordinate x.1
  let x₁ ← coordinate x.2
  let y₀ ← coordinate y.1
  let y₁ ← coordinate y.2
  return ⟨⟨x₀, x₁⟩, ⟨y₀, y₁⟩⟩

/-- The point whose coordinates have the components in two lists. -/
def ofInts (xs ys : List Int) : Result TwistPoint := do
  let x ← pair "G2 x" xs
  let y ← pair "G2 y" ys
  ofPairs x y

/-- The coordinates of a point. -/
def ofPoint : G2 → TwistPoint
  | .infinity => ⟨0, 0⟩
  | .affine x y => ⟨x, y⟩

/-- The point that has the coordinates. -/
def toPoint (p : TwistPoint) : Result G2 :=
  let q : G2 := .affine p.x p.y
  if p.x = 0 && p.y = 0 then .ok .infinity
  else if Bn254.isOnTwist q then .ok q
  else .error (.abi (.twistPoint p.x.re.val p.x.im.val))

/-- A coordinate as an argument, the imaginary component first. -/
def coordinateArgument (c : Fq2) : Argument := .array [.word c.im.val, .word c.re.val]

/-- The point as an argument. -/
def argument (p : TwistPoint) : Argument :=
  .array [coordinateArgument p.x, coordinateArgument p.y]

/-- The bytes of a point. -/
def toBytes (p : TwistPoint) : Bytes :=
  word p.x.im.val ++ word p.x.re.val ++ word p.y.im.val ++ word p.y.re.val

/-- Reads the bytes of a point. -/
def ofBytes (bs : Bytes) : Result TwistPoint := do
  match ← words 4 bs with
  | [x₁, x₀, y₁, y₀] => ofPairs (x₀, x₁) (y₀, y₁)
  | _ => throw (.abi (.length bs.length (4 * wordSize)))

end TwistPoint

end Snark.Abi
