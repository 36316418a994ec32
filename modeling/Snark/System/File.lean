import Snark.Container.Framing
import Snark.Curve
import Snark.System.Basic

/-!
# Constraint-system files

A constraint system is stored in a container with three sections: a header with the prime and the
counts, the constraints, and the labels of the wires. Coefficients are little-endian numbers of
the width that the header gives. `parse` accepts files for the scalar field of the given curve,
and `write` lays a system out the same way.
-/

namespace Snark.ConstraintSystem

/-- The magic of the file type. -/
def magic : Bytes := [0x72, 0x31, 0x63, 0x73]

/-- The version of the format. -/
def formatVersion : Nat := 1

/-- The contents of the header section. -/
structure Header where
  fieldWidth : Nat
  prime : Nat
  wires : Nat
  publicOutputs : Nat
  publicInputs : Nat
  privateInputs : Nat
  labels : Nat
  constraints : Nat
  deriving DecidableEq, Repr

/-- Reads the header of a system over the scalar field of a curve. -/
def readHeader (curve : CurveParams) : Reading Header := do
  let size := (← get).source.size
  let fieldWidth ← Reading.word
  Reading.require (fieldWidth = curve.scalarWidth)
    (.system (.fieldWidth fieldWidth curve.scalarWidth))
  Reading.require (size = 32 + fieldWidth) (.system (.headerSize size))
  let prime ← Reading.number fieldWidth
  Reading.require (prime = curve.r) (.system (.prime prime curve.name))
  let wires ← Reading.word
  let publicOutputs ← Reading.word
  let publicInputs ← Reading.word
  let privateInputs ← Reading.word
  let labels ← Reading.wideWord
  let constraints ← Reading.word
  let signals := publicOutputs + publicInputs + privateInputs
  Reading.require (1 + signals ≤ wires) (.system (.signals wires signals))
  return {
    fieldWidth, prime, wires, publicOutputs, publicInputs, privateInputs, labels, constraints }

/-- Reads a wire and its coefficient. -/
def readTerm (wires fieldWidth constraint : Nat) : Reading (Int × Fr) := do
  let wire ← Reading.word
  Reading.require (wire < wires) (.system (.wire constraint wire wires))
  let coeff ← Reading.number fieldWidth
  return (wire, .ofNat coeff)

/-- Reads a linear combination. -/
def readCombination (wires fieldWidth constraint : Nat) : Reading LinearCombination := do
  let terms ← Reading.word
  Reading.many (readTerm wires fieldWidth constraint) terms

/-- Reads the constraint of the given number. -/
def readConstraint (wires fieldWidth constraint : Nat) : Reading Constraint := do
  let a ← readCombination wires fieldWidth constraint
  let b ← readCombination wires fieldWidth constraint
  let c ← readCombination wires fieldWidth constraint
  return { a, b, c }

/-- Reads all constraints, and nothing is left after them. -/
def readConstraints (h : Header) : Reading (List Constraint) := do
  let constraints ← Reading.manyFrom (readConstraint h.wires h.fieldWidth) 0 h.constraints
  Reading.atEnd
  return constraints

/-- Reads the labels of the wires; the label of the constant wire is zero. -/
def readLabels (wires : Nat) : Reading (List Nat) := do
  let size := (← get).source.size
  Reading.require (size = wires * 8) (.system (.labelsSize size wires))
  let labels ← Reading.many Reading.wideWord wires
  match labels with
  | [] => return labels
  | first :: _ =>
    Reading.require (first = 0) (.system (.firstLabel first))
    return labels

/-- Reads a constraint-system file. -/
def parse (curve : CurveParams) (bytes : Bytes) : Result ConstraintSystem := do
  let file ← Container.parse magic [formatVersion] bytes
  let h ← file.readSection 1 (readHeader curve)
  let constraints ← file.readSection 2 (readConstraints h)
  let labels ← file.readSection 3 (readLabels h.wires)
  return {
    fieldWidth := h.fieldWidth
    prime := h.prime
    wires := h.wires
    publicOutputs := h.publicOutputs
    publicInputs := h.publicInputs
    privateInputs := h.privateInputs
    labels := h.labels
    constraints
    wireLabels := labels.map fun (n : Nat) => (n : Int)
    version := file.version }

/-- The bytes of a linear combination. -/
def combinationBytes (fieldWidth : Nat) (lc : LinearCombination) : Except Fault Bytes := do
  let count ← Bytes.field? 4 lc.length
  let terms ← lc.mapM fun (wire, coeff) => do
    return (← Bytes.field? 4 wire) ++ (← Bytes.ofInt? fieldWidth coeff.val)
  return count ++ terms.flatten

/-- The bytes of a constraint. -/
def constraintBytes (fieldWidth : Nat) (k : Constraint) : Except Fault Bytes := do
  return (← combinationBytes fieldWidth k.a) ++ (← combinationBytes fieldWidth k.b) ++
    (← combinationBytes fieldWidth k.c)

/-- The bytes of the header section. -/
def headerBytes (s : ConstraintSystem) : Except Fault Bytes := do
  let fieldWidth ← Bytes.field? 4 s.fieldWidth
  let prime ← Bytes.ofInt? s.fieldWidth.toNat s.prime
  let wires ← Bytes.field? 4 s.wires
  let publicOutputs ← Bytes.field? 4 s.publicOutputs
  let publicInputs ← Bytes.field? 4 s.publicInputs
  let privateInputs ← Bytes.field? 4 s.privateInputs
  let labels ← Bytes.field? 8 s.labels
  let constraints ← Bytes.field? 4 s.constraints.length
  return fieldWidth ++ prime ++ wires ++ publicOutputs ++ publicInputs ++ privateInputs ++
    labels ++ constraints

/-- The bytes of the labels section, which has to hold a label for every wire. -/
def labelBytes (s : ConstraintSystem) : Except Fault Bytes := do
  if s.wires ≠ s.wireLabels.length then
    throw .recordField
  return (← s.wireLabels.mapM (Bytes.field? 8)).flatten

/-- The file of a constraint system. -/
def write (s : ConstraintSystem) : Except Fault Bytes := do
  let header ← headerBytes s
  let constraints ← s.constraints.mapM (constraintBytes s.fieldWidth.toNat)
  let labels ← labelBytes s
  Container.write magic s.version [(1, header), (2, constraints.flatten), (3, labels)]

/-- A system with elements no wider than the prime and the coefficients need. -/
def narrow (s : ConstraintSystem) : ConstraintSystem :=
  { s with fieldWidth := (max 32 (Bytes.lengthOf s.prime.toNat) : Nat) }

/-- The file of a constraint system whose elements may be too wide to be laid out. What is wrong
with such a system otherwise is found with narrower elements. -/
def write? (s : ConstraintSystem) : Except Fault Bytes := do
  let _ ← Bytes.field? 4 s.fieldWidth
  if s.fieldWidth < Bytes.roomLimit then
    s.write
  else
    let _ ← s.narrow.write
    throw .tooLarge

end Snark.ConstraintSystem
