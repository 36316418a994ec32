import Snark.Json.Value
import Snark.Text.Quoted

/-!
# Writing JSON

`Value.print` writes a value as one line without blanks, each part after what has been written
already. Texts are written as they are, but for the quote, the backslash, the control characters and
the halves of surrogate pairs, which are escaped.
-/

namespace Snark.Json

/-- A character inside a written text. -/
def printChar (c : Char) : List Char :=
  if c = '"' then ['\\', '"']
  else if c = '\\' then ['\\', '\\']
  else if c.toNat < 0x20 || c.toNat = 0x7f then '\\' :: 'u' :: Text.hexPadded 4 c.toNat
  else [c]

/-- A code point inside a written text. -/
def printPoint : CodePoint → List Char
  | .char c => printChar c
  | .half unit => '\\' :: 'u' :: Text.hexPadded 4 unit

/-- A text between quotes. -/
def printText (s : Text) : String :=
  "\"" ++ String.ofList (s.flatMap printPoint) ++ "\""

/-- The names that stand for doubles which are no numbers. -/
def printReal : Double → String
  | .infinite negative => if negative then "-Infinity" else "Infinity"
  | .nan => "NaN"
  | x => x.text

namespace Value

mutual

/-- What has been written, with a value after it. -/
def printAfter (written : String) : Value → String
  | null => written ++ "null"
  | bool true => written ++ "true"
  | bool false => written ++ "false"
  | int n => written ++ toString n
  | real x => written ++ printReal x
  | text s => written ++ printText s
  | list items => printItems (written ++ "[") items ++ "]"
  | object members => printMembers (written ++ "\x7b") members ++ "\x7d"

/-- What has been written, with the items of a list after it, separated by commas. -/
def printItems (written : String) : List Value → String
  | [] => written
  | [v] => printAfter written v
  | v :: rest => printItems (printAfter written v ++ ",") rest

/-- What has been written, with the members of an object after it, separated by commas. -/
def printMembers (written : String) : List (Text × Value) → String
  | [] => written
  | [(k, v)] => printAfter (written ++ printText k ++ ":") v
  | (k, v) :: rest => printMembers (printAfter (written ++ printText k ++ ":") v ++ ",") rest

end

/-- A value as JSON. -/
def print (v : Value) : String := printAfter "" v

end Value

end Snark.Json
