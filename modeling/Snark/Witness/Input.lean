import Snark.Json.Integer

/-!
# Input values

The value of an input signal is an integer or a list of input values, nested to any depth. A text
stands for the integer it denotes, in decimal or, after `0x`, in hexadecimal. A program takes the
integers of an input one by one, in row-major order.
-/

namespace Snark.Witness

open Json (Value)

/-- Whether a text is marked as hexadecimal. -/
def isHexadecimal : Text → Bool
  | .char '0' :: .char c :: _ => c = 'x' || c = 'X'
  | .char '-' :: .char '0' :: .char c :: _ => c = 'x' || c = 'X'
  | _ => false

/-- The integer that a text stands for. -/
def textValue (t : Text) : Except Fault Int :=
  let body := Text.trim t
  Value.readInteger (if isHexadecimal body then .hexadecimal else .decimal) body.chars

/-- The integer that a value other than a list stands for. -/
def scalarValue : Value → Except Fault Int
  | .text s => textValue s
  | v => v.toInt

mutual

/-- The integers of an input value in row-major order. -/
def flatten : Value → Except Fault (List Int)
  | .list items => flattenAll items
  | v => do return [← scalarValue v]

/-- The integers of several input values, one value after the other. -/
def flattenAll : List Value → Except Fault (List Int)
  | [] => .ok []
  | v :: rest => do return (← flatten v) ++ (← flattenAll rest)

end

end Snark.Witness
