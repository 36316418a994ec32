import Snark.Proofs.Except
import Snark.Witness.Input

/-!
# Nested lists of integers

The value of an input that is made of nothing but integers and lists always has integers in
row-major order: those at its leaves, from left to right.
-/

namespace Snark.Witness

/-- An integer, or a list of nested lists of integers. -/
inductive Tree
  | leaf (n : Int)
  | node (items : List Tree)

namespace Tree

mutual

/-- The integers at the leaves. -/
def values : Tree → List Int
  | leaf n => [n]
  | node items => allValues items

/-- The integers at the leaves of several lists, one list after the other. -/
def allValues : List Tree → List Int
  | [] => []
  | t :: rest => t.values ++ allValues rest

end

mutual

/-- Nested lists as the value of an input. -/
def toValue : Tree → Json.Value
  | leaf n => .int n
  | node items => .list (toValues items)

/-- Several nested lists as values. -/
def toValues : List Tree → List Json.Value
  | [] => []
  | t :: rest => t.toValue :: toValues rest

end

theorem allValues_eq_flatMap (ts : List Tree) : allValues ts = ts.flatMap values := by
  induction ts with
  | nil => rw [allValues, List.flatMap_nil]
  | cons t rest ih => rw [allValues, List.flatMap_cons, ih]

theorem toValues_eq_map (ts : List Tree) : toValues ts = ts.map toValue := by
  induction ts with
  | nil => rw [toValues, List.map_nil]
  | cons t rest ih => rw [toValues, List.map_cons, ih]

mutual

theorem flatten_toValue : (t : Tree) → flatten t.toValue = .ok t.values
  | leaf n => by
    rw [toValue, values, flatten]
    · rfl
    · intro items h
      cases h
  | node items => by
    rw [toValue, values, flatten, flattenAll_toValues items]

theorem flattenAll_toValues : (ts : List Tree) → flattenAll (toValues ts) = .ok (allValues ts)
  | [] => by rw [toValues, flattenAll, allValues]
  | t :: rest => by
    rw [toValues, flattenAll, flatten_toValue t, flattenAll_toValues rest, allValues]
    rfl

end

end Tree

end Snark.Witness
