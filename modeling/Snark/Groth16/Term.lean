import Snark.Bn254.Field
import Snark.Position

/-!
# Entries of a matrix

An entry of a matrix adds a multiple of one value at one place of a list: of the value of a wire to
a row, or of the weight of a row to a column. The places are found for all entries before anything
is added up, so a place that does not exist is noticed however long the list would be.
-/

namespace Snark.Groth16

/-- What an entry adds, and where. -/
structure Term where
  index : Nat
  value : Fr
  deriving DecidableEq, Repr

/-- The term that adds `coefficient` times the element of `xs` at the position `source` at the
position `target` of a list of `length` elements. -/
def term (xs : List Fr) (length : Nat) (source target : Int) (coefficient : Fr) :
    Except Fault Term := do
  let x ← Position.get xs source
  return ⟨← Position.find length target, coefficient * x⟩

/-- The list of `length` elements that terms add up to. -/
def sums (length : Nat) (ts : List Term) : List Fr :=
  ts.foldl (fun xs t => xs.modify t.index (· + t.value)) (List.replicate length 0)

@[simp] theorem length_sums (length : Nat) (ts : List Term) : (sums length ts).length = length := by
  have fold (xs : List Fr) :
      (ts.foldl (fun xs t => xs.modify t.index (· + t.value)) xs).length = xs.length := by
    induction ts generalizing xs with
    | nil => rfl
    | cons t ts ih => rw [List.foldl_cons, ih, List.length_modify]
  rw [sums, fold, List.length_replicate]

end Snark.Groth16
