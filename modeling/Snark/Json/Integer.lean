import Snark.Fault
import Snark.Json.Value
import Snark.Text.Numeral

/-!
# Integers in JSON

Numbers that do not fit a JSON number are written as texts, so wherever an integer is expected a
decimal numeral will do as well. A number with a fraction loses it, and a truth value counts as one
or zero. `items?` lists what a value is made of: a list has its items, a text its characters and an
object the names of its members.
-/

namespace Snark.Json.Value

/-- The integer that a numeral denotes. -/
def readInteger (radix : Text.Radix) (cs : List Char) : Except Fault Int :=
  match Text.Numeral.read radix cs with
  | .ok n => .ok n
  | .error .malformed => .error .numeral
  | .error (.tooLong _) => .error .numeralLength

/-- The integer that a value stands for. -/
def toInt : Value → Except Fault Int
  | int n => .ok n
  | bool b => .ok (if b then 1 else 0)
  | text s => readInteger .decimal s.chars
  | real .nan => .error .notANumber
  | real x =>
    match x.truncate? with
    | some n => .ok n
    | none => .error .infinite
  | null | list _ | object _ => .error .wrongShape

/-- What a value is made of, if it has parts. -/
def items? : Value → Option (List Value)
  | list items => some items
  | text s => some (s.map fun c => text [c])
  | object members => some (members.map fun m => text m.1)
  | null | bool _ | int _ | real _ => none

mutual

/-- A value with every number in it as the text of an integer. -/
def spelled : Value → Except Fault Value
  | list items => return list (← spelledItems items)
  | object members => return object (← spelledMembers members)
  | int n => return text s!"{n}"
  | real x => return text s!"{← (real x).toInt}"
  | v => return v

/-- The items of a list with every number in them as the text of an integer. -/
def spelledItems : List Value → Except Fault (List Value)
  | [] => return []
  | v :: rest => return (← spelled v) :: (← spelledItems rest)

/-- The members of an object with every number in them as the text of an integer. -/
def spelledMembers : List (Text × Value) → Except Fault (List (Text × Value))
  | [] => return []
  | (k, v) :: rest => return (k, ← spelled v) :: (← spelledMembers rest)

end

mutual

/-- Whether every integer in a value is short enough to be written. -/
def isWritable : Value → Bool
  | int n => Text.Numeral.isWritable n
  | list items => allWritable items
  | object members => membersWritable members
  | null | bool _ | real _ | text _ => true

/-- Whether every integer in the items of a list is short enough to be written. -/
def allWritable : List Value → Bool
  | [] => true
  | v :: rest => isWritable v && allWritable rest

/-- Whether every integer in the members of an object is short enough to be written. -/
def membersWritable : List (Text × Value) → Bool
  | [] => true
  | (_, v) :: rest => isWritable v && membersWritable rest

end

/-- The decimal text of an integer, with at most as many digits as a numeral may have. -/
def ofInt? (n : Int) : Except Fault Value :=
  if Text.Numeral.isWritable n then .ok (text s!"{n}") else .error .numeralLength

end Snark.Json.Value
