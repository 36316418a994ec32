import Snark.Double
import Snark.Text.Quoted

/-!
# JSON values

The values of a JSON document, with integers told apart from numbers that have a fraction or an
exponent. The members of an object keep their order, and a repeated name keeps its first place
and takes its last value. `Value.shown` is how a value is quoted inside a message.
-/

namespace Snark.Json

/-- A JSON value. -/
inductive Value
  | null
  | bool (b : Bool)
  | int (n : Int)
  | real (x : Double)
  | text (s : Text)
  | list (items : List Value)
  | object (members : List (Text × Value))
  deriving Repr, Inhabited

/-- The members of an object with one member set. -/
def setMember (name : Text) (v : Value) : List (Text × Value) → List (Text × Value)
  | [] => [(name, v)]
  | (k, old) :: rest =>
    if k = name then (k, v) :: rest else (k, old) :: setMember name v rest

theorem lookup_setMember (name other : Text) (v : Value) (members : List (Text × Value)) :
    (setMember name v members).lookup other =
      if other = name then some v else members.lookup other := by
  induction members with
  | nil => grind [setMember]
  | cons p rest ih => grind [setMember]

namespace Value

/-- The member of an object that has the given name. -/
def member? (name : Text) : Value → Option Value
  | object members => members.lookup name
  | _ => none

mutual

/-- A value as a message quotes it. -/
def shown : Value → String
  | null => "None"
  | bool true => "True"
  | bool false => "False"
  | int n => toString n
  | real x => x.text
  | text s => Text.quote s
  | list items => "[" ++ shownItems items ++ "]"
  | object members => "\x7b" ++ shownMembers members ++ "\x7d"

/-- The items of a list, separated by commas. -/
def shownItems : List Value → String
  | [] => ""
  | [v] => shown v
  | v :: rest => shown v ++ ", " ++ shownItems rest

/-- The members of an object, separated by commas. -/
def shownMembers : List (Text × Value) → String
  | [] => ""
  | [(k, v)] => Text.quote k ++ ": " ++ shown v
  | (k, v) :: rest => Text.quote k ++ ": " ++ shown v ++ ", " ++ shownMembers rest

end

/-- A value as a message names it: a text stands without its quotes. -/
def plain : Value → Text
  | text s => s
  | v => v.shown

/-- Whether a value counts as true: `null`, zero and whatever is empty do not. -/
def isTrue : Value → Bool
  | null => false
  | bool b => b
  | int n => n ≠ 0
  | real (.finite _ mantissa _) => mantissa ≠ 0
  | real _ => true
  | text s => !s.isEmpty
  | list items => !items.isEmpty
  | object members => !members.isEmpty

end Value

end Snark.Json
