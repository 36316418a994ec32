import Snark.Group
import Snark.Groth16.Term
import Snark.Key.Basic
import Snark.System.Basic

/-!
# Setup

The keys of a constraint system, made from five secret scalars. The rows of the system stand on
the roots of unity of the domain: first the constraints, then one row for every public wire, the
constant one among them, that binds the wire to the proof. Every column of the three matrices,
read as a polynomial of the row, is evaluated at the secret `tau` through the Lagrange basis of
the domain.
-/

namespace Snark.Groth16

/-- The secrets that keys are made from, to be forgotten afterwards. -/
structure Secrets where
  tau : Fr
  alpha : Fr
  beta : Fr
  gamma : Fr
  delta : Fr
  deriving DecidableEq, Repr

/-- The least power of two, doubling from `n` on at most `steps` times, that is not below
`bound`. -/
def doubleUpTo (bound : Nat) : (steps n : Nat) → Nat
  | 0, n => n
  | steps + 1, n => if n < bound then doubleUpTo bound steps (2 * n) else n

/-- The size of the domain: the least power of two with a row for every constraint and for every
public wire. -/
def domainSize (s : ConstraintSystem) : Nat :=
  let rows := ((s.constraints.length : Int) + s.publicSignals + 1).toNat
  doubleUpTo rows rows 1

/-- The entries that a constraint puts into a row. -/
def rowEntries (row : Nat) (k : Constraint) : List Coefficient :=
  k.a.map (fun (wire, value) => ⟨0, row, wire, value⟩) ++
    k.b.map (fun (wire, value) => ⟨1, row, wire, value⟩)

/-- The entries of the first two matrices, row by row, with the rows of the public wires last. -/
def coefficients (s : ConstraintSystem) : List Coefficient :=
  let constraints := s.constraints.zipIdx.flatMap fun (k, row) => rowEntries row k
  let publicRows := (List.range (s.publicSignals + 1).toNat).map fun (wire : Nat) =>
    (⟨0, s.constraints.length + wire, wire, 1⟩ : Coefficient)
  constraints ++ publicRows

/-- The Lagrange basis of the roots of unity of order `n`, at `tau`. -/
def lagrange (tau : Fr) (n : Int) : Except Fault (List Fr) := do
  let roots ← rootsOfUnity n
  let z := (tau.pow n.toNat - 1) / Residue.ofInt n
  return roots.map fun ω => z * ω / (tau - ω)

/-- The entries of the third matrix. -/
def productEntries (s : ConstraintSystem) : List Coefficient :=
  s.constraints.zipIdx.flatMap fun (k, row) => k.c.map fun (wire, value) => ⟨2, row, wire, value⟩

/-- The terms of the columns of the three matrices. -/
structure ColumnTerms where
  u : List Term
  v : List Term
  w : List Term
  deriving DecidableEq, Repr

/-- The terms of the columns of a system, given the Lagrange basis at some point. -/
def columnTerms (s : ConstraintSystem) (basis : List Fr) : Except Fault ColumnTerms := do
  let termOf (e : Coefficient) := term basis s.wires.toNat e.row e.signal e.value
  let (first, second) := (coefficients s).partition fun e => e.matrix = 0
  return ⟨← first.mapM termOf, ← second.mapM termOf, ← (productEntries s).mapM termOf⟩

/-- The columns of the three matrices at `tau`, one value for every wire. -/
structure Columns where
  u : List Fr
  v : List Fr
  w : List Fr
  deriving DecidableEq, Repr

/-- The columns of the matrices of a system at `tau`, over a domain of size `n`. -/
def columns (s : ConstraintSystem) (tau : Fr) (n : Int) : Except Fault Columns := do
  let t ← columnTerms s (← lagrange tau n)
  let wires := s.wires.toNat
  return ⟨sums wires t.u, sums wires t.v, sums wires t.w⟩

/-- The scalars of the points for the quotient: the Lagrange basis of the odd half of the doubled
domain at `tau`, over the vanishing polynomial and `delta`. -/
def quotientScalars (tau delta : Fr) (n : Int) : Except Fault (List Fr) := do
  let ω ← rootOfUnity (2 * n)
  let z := (tau.pow (2 * n).toNat - 1) / Residue.ofInt (2 * n) / delta
  return (geometric ω (ω * ω) n.toNat).map fun x => z * x / (tau - x)

section Keys

variable {G₁ G₂ : Type} [CurveGroup G₁] [CurveGroup G₂]

/-- The points for the quotient. -/
def quotientPoints (tau delta : Fr) (n : Int) : Except Fault (List G₁) := do
  return (← quotientScalars tau delta n).map CurveGroup.ofScalar

/-- The keys of a constraint system. -/
def setup (s : ConstraintSystem) (secrets : Secrets) : Except Fault (ProvingKey G₁ G₂) := do
  let ⟨tau, alpha, beta, gamma, delta⟩ := secrets
  let n := domainSize s
  let t ← columns s tau n
  let mixed := (t.u.zip (t.v.zip t.w)).map fun (u, v, w) => beta * u + alpha * v + w
  let publicWires := s.publicWires.toNat
  let h ← quotientPoints tau delta n
  return {
    verifying := {
      alpha := CurveGroup.ofScalar alpha
      beta := CurveGroup.ofScalar beta
      gamma := CurveGroup.ofScalar gamma
      delta := CurveGroup.ofScalar delta
      inputs := (mixed.take publicWires).map fun k => CurveGroup.ofScalar (k / gamma) }
    beta := CurveGroup.ofScalar beta
    delta := CurveGroup.ofScalar delta
    a := t.u.map CurveGroup.ofScalar
    b₁ := t.v.map CurveGroup.ofScalar
    b₂ := t.v.map CurveGroup.ofScalar
    l := (mixed.drop publicWires).map fun k => CurveGroup.ofScalar (k / delta)
    h
    coefficients := coefficients s
    wires := s.wires
    publicSignals := s.publicSignals
    domain := n
    q := CurveParams.bn254.q
    r := CurveParams.bn254.r
    baseWidth := CurveParams.bn254.baseWidth
    scalarWidth := CurveParams.bn254.scalarWidth }

end Keys

end Snark.Groth16
