import Snark.Bn254.Pairing
import Snark.Failure
import Snark.Json.Integer

/-!
# Points in JSON

A point is exchanged by its projective coordinates, of which the third is one for a finite point
and zero for the point at infinity. Coordinates are decimal texts, those of the twist pairs of
them. Reading takes integers in any form, but finite points must be normalized and on their curve.
-/

namespace Snark.Exchange

open Json (Value)

/-- An integer as JSON. -/
def number (n : Int) : Value := .text (toString n)

/-- An element of the base field as JSON. -/
def coordinate (x : Fq) : Value := number x.val

/-- What becomes of a document in which something is wrong. -/
def refusal (e : ExchangeError) : Failure := .worded (.exchange e)

/-- An integer as an element of the base field; it is not reduced. -/
def readCoordinate (v : Int) : Result Fq :=
  if 0 ≤ v && v < baseOrder then .ok (.ofInt v) else .error (refusal (.coordinate v))

/-- The values of exactly three items. A fourth item is still looked at, those after it are not. -/
def three {α : Type} (item : Value → Except Fault α) (items : List Value) :
    Except Fault (α × α × α) := do
  match ← (items.take 4).mapM item with
  | [x, y, z] => return (x, y, z)
  | _ => throw .wrongShape

/-- The values of the three items that a value consists of. A value with other parts is no point;
only a number too large for an integer is a fault of its own. -/
def readThree {α : Type} (item : Value → Except Fault α) (otherwise : ExchangeError)
    (data : Value) : Result (α × α × α) :=
  match data.items? with
  | none => .error (refusal otherwise)
  | some items =>
    match three item items with
    | .ok v => .ok v
    | .error e => .error (if e.kind = .overflow then .fault e else refusal otherwise)

/-- The two integers that a value consists of. -/
def readPair (v : Value) : Except Fault (Int × Int) :=
  match v.items? with
  | none => .error .wrongShape
  | some [a, b] => do
    let a ← a.toInt
    let b ← b.toInt
    return (a, b)
  | some _ => .error .wrongShape

/-- A point of the curve as JSON. -/
def ofG1 : G1 → Value
  | .infinity => .list [number 0, number 1, number 0]
  | .affine x y => .list [coordinate x, coordinate y, number 1]

/-- Reads a point of the curve. -/
def toG1 (data : Value) : Result G1 := do
  let (x, y, z) ← readThree Value.toInt (.curvePoint data) data
  if z = 0 then
    return .infinity
  if z ≠ 1 then
    throw (refusal (.curveScale z))
  let p : G1 := .affine (← readCoordinate x) (← readCoordinate y)
  if Bn254.isOnCurve p then return p else throw (refusal (.outsideCurve x y))

/-- A pair of components as JSON. -/
def components (x : Fq2) : Value := .list [coordinate x.re, coordinate x.im]

/-- A point of the twist as JSON. -/
def ofG2 : G2 → Value
  | .infinity =>
    .list [.list [number 0, number 0], .list [number 1, number 0], .list [number 0, number 0]]
  | .affine x y => .list [components x, components y, .list [number 1, number 0]]

/-- Reads a point of the twist. -/
def toG2 (data : Value) : Result G2 := do
  let (x, y, z) ← readThree readPair (.twistPoint data) data
  if z = (0, 0) then
    return .infinity
  if z ≠ (1, 0) then
    throw (refusal (.twistScale z.1 z.2))
  let x' : Fq2 := ⟨← readCoordinate x.1, ← readCoordinate x.2⟩
  let y' : Fq2 := ⟨← readCoordinate y.1, ← readCoordinate y.2⟩
  let p : G2 := .affine x' y'
  if Bn254.isOnTwist p then return p else throw (refusal (.outsideTwist x.1 x.2))

end Snark.Exchange
