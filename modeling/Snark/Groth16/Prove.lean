import Snark.Failure
import Snark.Fourier
import Snark.Groth16.Term
import Snark.Group
import Snark.Key.Basic
import Snark.System.Assignment

/-!
# Prover

A proof for an assignment of all wires, blinded by two scalars. The rows of the matrices are
evaluated on the domain; the polynomials through them are then evaluated on the odd half of the
doubled domain, where the vanishing polynomial is constant, and there the quotient is paired with
the points of the key.
-/

namespace Snark.Groth16

/-- The values of the rows of the three matrices; the third row is the product of the others. -/
structure Rows where
  a : List Fr
  b : List Fr
  c : List Fr
  deriving DecidableEq, Repr

variable {G₁ G₂ : Type}

/-- The terms of the rows of the first two matrices, for the given values of the wires. -/
def rowTerms (pk : ProvingKey G₁ G₂) (w : List Fr) : Except Fault (List Term × List Term) := do
  let termOf (e : Coefficient) := term w pk.domain.toNat e.signal e.row e.value
  let (first, second) := pk.coefficients.partition fun e => e.matrix = 0
  return (← first.mapM termOf, ← second.mapM termOf)

/-- The values of the rows for the given values of the wires. -/
def rows (pk : ProvingKey G₁ G₂) (w : List Fr) : Except Fault Rows := do
  let (first, second) ← rowTerms pk w
  let a := sums pk.domain.toNat first
  let b := sums pk.domain.toNat second
  return ⟨a, b, a.zipWith (· * ·) b⟩

/-- The values on the odd half of the doubled domain of the polynomial with the given values on
the domain. -/
def toOddCoset (ω shift : Fr) (ys : List Fr) : Except Fault (List Fr) := do
  Fourier.onCoset (← Fourier.interpolate ys ω) ω shift

/-- The values of the quotient, up to the constant vanishing polynomial, on the odd half of the
doubled domain. -/
def quotient (pk : ProvingKey G₁ G₂) (w : List Fr) : Except Fault (List Fr) := do
  let ω ← rootOfUnity pk.domain
  let shift ← rootOfUnity (2 * pk.domain)
  let t ← rows pk w
  let a ← toOddCoset ω shift t.a
  let b ← toOddCoset ω shift t.b
  let c ← toOddCoset ω shift t.c
  return (a.zip (b.zip c)).map fun (a, b, c) => a * b - c

variable [CurveGroup G₁] [CurveGroup G₂]

open CurveGroup

/-- The proof for values of all wires, with blinding scalars `r` and `s`. -/
def proveValues (pk : ProvingKey G₁ G₂) (w : List Fr) (r s : Fr) :
    Except Fault (Proof G₁ G₂) := do
  let vk := pk.verifying
  let h := combination (← quotient pk w) pk.h
  let a := add (add vk.alpha (combination w pk.a)) (scale r pk.delta)
  let b := add (add vk.beta (combination w pk.b₂)) (scale s vk.delta)
  let b₁ := add (add pk.beta (combination w pk.b₁)) (scale s pk.delta)
  let l := combination (Position.suffix w (pk.publicSignals + 1)) pk.l
  let c := add (add (add l h) (scale s a)) (scale r b₁)
  return ⟨a, b, add c (neg (scale (r * s) pk.delta))⟩

/-- The proof for values of all wires, with blinding scalars `r` and `s`. -/
def prove (pk : ProvingKey G₁ G₂) (w : List Fr) (r s : Fr) : Result (Proof G₁ G₂) :=
  if (w.length : Int) = pk.wires then Result.ofFault (proveValues pk w r s)
  else .error (.length (.assignment w.length pk.wires))

/-- The proof for a circuit with its witness. -/
def proveCircuit (pk : ProvingKey G₁ G₂) (k : Circuit) (r s : Fr) : Result (Proof G₁ G₂) := do
  prove pk (← k.assignment) r s

end Snark.Groth16
