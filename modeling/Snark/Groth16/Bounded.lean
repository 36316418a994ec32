import Snark.Groth16.Prove
import Snark.Groth16.Setup

/-!
# Setup and prover with limited room

A row for every element of the domain and a column entry for every wire make lists whose lengths a
key or a system only declares. No machine makes a list whose length does not fit a word, and this
one makes none of `Position.lengthLimit` elements either. Such a key or system is refused, for what
is wrong with it otherwise if there is anything. Within these limits the rows, the columns and the
keys are the ones that are made where there is always room. The prover asks for roots of unity
before it makes rows, so its domain is bounded by those.
-/

namespace Snark.Groth16.Bounded

variable {G₁ G₂ : Type}

/-- Refuses a key whose rows cannot be made because their number is no length, or is too large. Of
one that is too large it is found first what is wrong with it otherwise. -/
def requireRows (pk : ProvingKey G₁ G₂) (w : List Fr) : Except Fault Unit := do
  Length.check pk.domain
  if Position.lengthLimit ≤ pk.domain then
    let _ ← rowTerms pk w
    throw .tooLarge

/-- Refuses a system whose columns cannot be made because their number of elements is no length, or
is too large. Of one that is too large it is found first what is wrong with it otherwise. -/
def requireColumns (s : ConstraintSystem) (tau : Fr) (n : Int) : Except Fault Unit := do
  if !Length.fits s.wires || Position.lengthLimit ≤ s.wires then
    let basis ← lagrange tau n
    Length.check s.wires
    let _ ← columnTerms s basis
    throw .tooLarge

/-- The values of the rows for the given values of the wires. -/
def rows (pk : ProvingKey G₁ G₂) (w : List Fr) : Except Fault Rows := do
  requireRows pk w
  Groth16.rows pk w

/-- The columns of the matrices of a system at `tau`, over a domain of size `n`. -/
def columns (s : ConstraintSystem) (tau : Fr) (n : Int) : Except Fault Columns := do
  requireColumns s tau n
  Groth16.columns s tau n

/-- The keys of a constraint system. -/
def setup [CurveGroup G₁] [CurveGroup G₂] (s : ConstraintSystem) (secrets : Secrets) :
    Except Fault (ProvingKey G₁ G₂) := do
  requireColumns s secrets.tau (domainSize s)
  Groth16.setup s secrets

end Snark.Groth16.Bounded
