import Snark.Length

/-!
# Positions

A position in a list counts from zero, and a negative one counts from the end, the last element
being at `-1`. The bounds of a slice count the same way and are moved to the nearest end of the
list if they fall outside it.
-/

namespace Snark.Position

variable {α : Type}

/-- No list is made with this many elements. -/
def lengthLimit : Nat := 0x4000000

/-- A number of elements; there are none below zero. -/
def count? (n : Int) : Except Fault Nat := do
  if lengthLimit ≤ n then
    Length.check n
    throw .tooLarge
  return n.toNat

/-- The index in a list of `length` elements that a position names. -/
def index? (length : Nat) (i : Int) : Option Nat :=
  let k := if i < 0 then i + length else i
  if 0 ≤ k && k < length then some k.toNat else none

/-- The element at a position. -/
def get (xs : List α) (i : Int) : Except Fault α :=
  match (index? xs.length i).bind (xs[·]?) with
  | some x => .ok x
  | none => .error .indexOutOfRange

/-- The index in a list of `length` elements that a position has to name. -/
def find (length : Nat) (i : Int) : Except Fault Nat :=
  match index? length i with
  | some k => .ok k
  | none => .error .indexOutOfRange

/-- A bound of a slice of a list of `length` elements, as a natural number. -/
def bound (length : Nat) (i : Int) : Nat :=
  min (if i < 0 then i + length else i).toNat length

/-- The elements from one position up to but not including another. -/
def slice (xs : List α) (start stop : Int) : List α :=
  (xs.take (bound xs.length stop)).drop (bound xs.length start)

/-- The elements from a position on. -/
def suffix (xs : List α) (start : Int) : List α :=
  xs.drop (bound xs.length start)

theorem index?_of_nonneg {length : Nat} {i : Int} (h₀ : 0 ≤ i) (h : i < length) :
    index? length i = some i.toNat := by
  have : ¬ i < 0 := by omega
  simp [index?, this, h₀, h]

end Snark.Position
