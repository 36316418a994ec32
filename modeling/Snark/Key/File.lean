import Snark.Container.Framing
import Snark.Key.Basic
import Snark.Key.PointCodec

/-!
# Proving-key files

A proving key is stored in a container. Section 1 names the proof system, section 2 holds the
parameters of the curve, the counts and the single points, and sections 3 to 9 hold the points for
the public values, the matrix entries, and the points for the wires and the quotient. `parse`
checks the lengths of all sections against the counts before it reads a point, so that every list
of a key it returns has the length that the counts ask for.
-/

namespace Snark.KeyFile

/-- The magic of the file type. -/
def magic : Bytes := [0x7a, 0x6b, 0x65, 0x79]

/-- The version of the format. -/
def formatVersion : Nat := 1

/-- The number of the proof system. -/
def groth16 : Nat := 1

/-- The counts of a key. -/
structure Counts where
  wires : Nat
  publicSignals : Nat
  domain : Nat
  deriving DecidableEq, Repr

/-- The single points of a key. -/
structure SinglePoints where
  alpha : G1
  beta₁ : G1
  beta₂ : G2
  gamma : G2
  delta₁ : G1
  delta₂ : G2
  deriving DecidableEq, Repr

/-- Reads the number of the proof system. -/
def readProver : Reading Unit := do
  let prover ← Reading.word
  Reading.require (prover = groth16) (.key (.prover prover))

/-- Reads the parameters of the curve and the counts, before the single points. -/
def readCounts (curve : CurveParams) : Reading Counts := do
  let baseWidth ← Reading.word
  Reading.require (baseWidth = curve.baseWidth)
    (.key (.baseWidth baseWidth curve.baseWidth curve.name))
  let q ← Reading.number baseWidth
  let scalarWidth ← Reading.word
  Reading.require (scalarWidth = curve.scalarWidth)
    (.key (.scalarWidth scalarWidth curve.scalarWidth curve.name))
  let r ← Reading.number scalarWidth
  Reading.require ((q : Int) = curve.q && (r : Int) = curve.r) (.key (.primes q r curve.name))
  let wires ← Reading.word
  let publicSignals ← Reading.word
  let domain ← Reading.word
  Reading.require (isPowerOfTwo domain) (.key (.domain domain))
  Reading.require (publicSignals + 1 ≤ wires) (.key (.publicSignals publicSignals wires))
  let points := (← get).remaining
  let expected := 3 * curve.curvePointWidth + 3 * curve.twistPointWidth
  Reading.require (points = expected) (.key (.headerPoints points expected))
  return ⟨wires, publicSignals, domain⟩

/-- Reads a point of the curve. -/
def readG1 (curve : CurveParams) : Reading G1 := do
  decodeG1 curve (← Reading.bytes curve.curvePointWidth)

/-- Reads a point of the twist. -/
def readG2 (curve : CurveParams) : Reading G2 := do
  decodeG2 curve (← Reading.bytes curve.twistPointWidth)

/-- Reads the single points. -/
def readSinglePoints (curve : CurveParams) : Reading SinglePoints := do
  let alpha ← readG1 curve
  let beta₁ ← readG1 curve
  let beta₂ ← readG2 curve
  let gamma ← readG2 curve
  let delta₁ ← readG1 curve
  let delta₂ ← readG2 curve
  return ⟨alpha, beta₁, beta₂, gamma, delta₁, delta₂⟩

/-- Checks that a section has room for exactly `count` points of the given width. -/
def checkPoints (file : Container) (id count width : Nat) : Result Unit := do
  let size := (← file.find id).size
  if width = 0 then
    throw (.fault .divisionByZero)
  if size % width ≠ 0 then
    throw (.key (.partialPoint id size width))
  if size / width ≠ count then
    throw (.key (.pointCount id (size / width) count))

/-- Checks that the section of the matrix entries has the length that its count asks for. -/
def checkCoefficients (file : Container) (curve : CurveParams) : Result Unit := do
  let s ← file.find 4
  if s.size < 4 then
    throw (.key .coefficientCount)
  let count := Bytes.toNat ((file.payload s).take 4)
  if s.size ≠ 4 + count * (12 + curve.scalarWidth.toNat) then
    throw (.key (.coefficientsSize s.size count))

/-- Checks the lengths of the sections behind the header. -/
def checkLayout (file : Container) (curve : CurveParams) (n : Counts) : Result Unit := do
  checkPoints file 3 (n.publicSignals + 1) curve.curvePointWidth
  checkPoints file 5 n.wires curve.curvePointWidth
  checkPoints file 6 n.wires curve.curvePointWidth
  checkPoints file 7 n.wires curve.twistPointWidth
  checkPoints file 8 (n.wires - n.publicSignals - 1) curve.curvePointWidth
  checkPoints file 9 n.domain curve.curvePointWidth
  checkCoefficients file curve

/-- Reads an entry of a matrix. -/
def readCoefficient (curve : CurveParams) (n : Counts) : Reading Coefficient := do
  let entry ← Reading.bytes 12
  let matrix := Bytes.toNat (entry.take 4)
  let row := Bytes.toNat ((entry.drop 4).take 4)
  let signal := Bytes.toNat (entry.drop 8)
  Reading.require (matrix = 0 || matrix = 1) (.key (.matrix matrix))
  Reading.require (row < n.domain) (.key (.row row n.domain))
  Reading.require (signal < n.wires) (.key (.signal signal n.wires))
  let value ← decodeScalar curve (← Reading.bytes curve.scalarWidth.toNat)
  return ⟨matrix, row, signal, value⟩

/-- Reads the entries of the matrices. -/
def readCoefficients (curve : CurveParams) (n : Counts) : Reading (List Coefficient) := do
  let count ← Reading.word
  Reading.many (readCoefficient curve n) count

/-- Reads a proving-key file. -/
def parse (curve : CurveParams) (bytes : Bytes) : Result (ProvingKey G1 G2) := do
  let file ← Container.parse magic [formatVersion] bytes
  file.readSection 1 readProver
  let header ← file.reader 2
  let (n, header) ← (readCounts curve).run header
  checkLayout file curve n
  let (single, _) ← (readSinglePoints curve).run header
  let inputs ← file.readSection 3 (Reading.many (readG1 curve) (n.publicSignals + 1))
  let a ← file.readSection 5 (Reading.many (readG1 curve) n.wires)
  let b₁ ← file.readSection 6 (Reading.many (readG1 curve) n.wires)
  let b₂ ← file.readSection 7 (Reading.many (readG2 curve) n.wires)
  let l ← file.readSection 8
    (Reading.many (readG1 curve) (n.wires - n.publicSignals - 1))
  let h ← file.readSection 9 (Reading.many (readG1 curve) n.domain)
  let coefficients ← file.readSection 4 (readCoefficients curve n)
  return {
    verifying := {
      alpha := single.alpha
      beta := single.beta₂
      gamma := single.gamma
      delta := single.delta₂
      inputs }
    beta := single.beta₁
    delta := single.delta₁
    a, b₁, b₂, l, h, coefficients
    wires := n.wires
    publicSignals := n.publicSignals
    domain := n.domain
    q := curve.q
    r := curve.r
    baseWidth := curve.baseWidth
    scalarWidth := curve.scalarWidth }

/-- The bytes of the header with the single points. -/
def headerBytes (curve : CurveParams) (pk : ProvingKey G1 G2) : Except Fault Bytes := do
  let vk := pk.verifying
  let baseWidth ← Bytes.field? 4 curve.baseWidth
  let q ← Bytes.ofInt? curve.baseWidth.toNat curve.q
  let scalarWidth ← Bytes.field? 4 curve.scalarWidth
  let r ← Bytes.ofInt? curve.scalarWidth.toNat curve.r
  let wires ← Bytes.field? 4 pk.wires
  let publicSignals ← Bytes.field? 4 pk.publicSignals
  let domain ← Bytes.field? 4 pk.domain
  let alpha ← encodeG1 curve vk.alpha
  let beta₁ ← encodeG1 curve pk.beta
  let beta₂ ← encodeG2 curve vk.beta
  let gamma ← encodeG2 curve vk.gamma
  let delta₁ ← encodeG1 curve pk.delta
  let delta₂ ← encodeG2 curve vk.delta
  return baseWidth ++ q ++ scalarWidth ++ r ++ wires ++ publicSignals ++ domain ++
    alpha ++ beta₁ ++ beta₂ ++ gamma ++ delta₁ ++ delta₂

/-- The bytes of an entry of a matrix. -/
def coefficientBytes (curve : CurveParams) (e : Coefficient) : Except Fault Bytes := do
  return (← Bytes.field? 4 e.matrix) ++ (← Bytes.field? 4 e.row) ++
    (← Bytes.field? 4 e.signal) ++ (← encodeScalar curve e.value.val)

/-- The bytes of some points of the curve. -/
def pointsBytes (curve : CurveParams) (points : List G1) : Except Fault Bytes := do
  return (← points.mapM (encodeG1 curve)).flatten

/-- The file of a proving key. -/
def write (curve : CurveParams) (pk : ProvingKey G1 G2) : Except Fault Bytes := do
  let prover := Bytes.ofNat 4 groth16
  let header ← headerBytes curve pk
  let count ← Bytes.field? 4 pk.coefficients.length
  let entries ← pk.coefficients.mapM (coefficientBytes curve)
  let inputs ← pointsBytes curve pk.verifying.inputs
  let a ← pointsBytes curve pk.a
  let b₁ ← pointsBytes curve pk.b₁
  let b₂ ← pk.b₂.mapM (encodeG2 curve)
  let l ← pointsBytes curve pk.l
  let h ← pointsBytes curve pk.h
  Container.write magic formatVersion [
    (1, prover), (2, header), (3, inputs), (4, count ++ entries.flatten),
    (5, a), (6, b₁), (7, b₂.flatten), (8, l), (9, h)]

end Snark.KeyFile
