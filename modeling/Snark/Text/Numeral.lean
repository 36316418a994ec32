import Snark.Text.Blank
import Snark.Text.Digit

/-!
# Integer numerals

An integer is written as an optional sign and digits of any script, with single underscores
between digits and padding around the whole. `read` takes the notation as a parameter: decimal,
hexadecimal with an optional mark, or marked, where a leading `0x`, `0o` or `0b` names the base
and a decimal numeral has no leading zero.

A decimal numeral holds at most `maxDigits` digits, read or written; bases that are powers of two
have no limit.
-/

namespace Snark.Text

/-- The most digits a decimal numeral may have, leading zeros counted. -/
def maxDigits : Nat := 4300

/-- How the base of a numeral is found. -/
inductive Radix
  | decimal
  | hexadecimal
  | marked
  deriving DecidableEq, Repr

/-- Why a text is no integer. -/
inductive NumeralError
  | malformed
  | tooLong (digits : Nat)
  deriving DecidableEq, Repr

namespace Numeral

/-- The blanks that may stand around a numeral: all but the information separators. -/
def isPadding (c : Char) : Bool :=
  isBlank c && !(0x1c ≤ c.toNat && c.toNat ≤ 0x1f)

/-- The value of `c` as a digit, letters of the Latin alphabet counting from ten. -/
def digitValue? (c : Char) : Option Nat :=
  if 'a' ≤ c && c ≤ 'z' then some (c.toNat - 'a'.toNat + 10)
  else if 'A' ≤ c && c ≤ 'Z' then some (c.toNat - 'A'.toNat + 10)
  else decimalValue? c

/-- The value of `c` as a digit of `base`. -/
def digitOf? (base : Nat) (c : Char) : Option Nat :=
  (digitValue? c).filter (· < base)

/-- Whether the text starts with a digit of `base`. -/
def startsWithDigit (base : Nat) : List Char → Bool
  | [] => false
  | c :: _ => (digitOf? base c).isSome

/-- The digits of `base` at the start of a text, an underscore being skipped before a digit,
and the text after them. -/
def digits (base : Nat) : List Char → List Nat × List Char
  | [] => ([], [])
  | c :: rest =>
    match digitOf? base c with
    | some d => (d :: (digits base rest).1, (digits base rest).2)
    | none => if c = '_' && startsWithDigit base rest then digits base rest else ([], c :: rest)

/-- The number that digits of `base` denote, the first being the most significant. -/
def value (base : Nat) (ds : List Nat) : Nat :=
  ds.foldl (fun n d => n * base + d) 0

/-- Takes a sign off the front; `true` stands for minus. -/
def sign : List Char → Bool × List Char
  | '+' :: rest => (false, rest)
  | '-' :: rest => (true, rest)
  | cs => (false, cs)

/-- The base that a mark after a leading zero names, and the text after the mark. -/
def mark? : List Char → Option (Nat × List Char)
  | zero :: c :: rest =>
    if digitOf? 10 zero = some 0 then
      if c = 'x' || c = 'X' then some (16, rest)
      else if c = 'o' || c = 'O' then some (8, rest)
      else if c = 'b' || c = 'B' then some (2, rest)
      else none
    else none
  | _ => none

/-- A magnitude in `base`, with padding after it and nothing else. -/
def magnitude (base : Nat) (cs : List Char) : Except NumeralError Nat :=
  let (ds, rest) := digits base cs
  if ds.isEmpty || rest.head? = some '_' then .error .malformed
  else if base = 10 && maxDigits < ds.length then .error (.tooLong ds.length)
  else if rest.all isPadding then .ok (value base ds)
  else .error .malformed

/-- A magnitude that has no base mark, and so does not start with an underscore. -/
def unmarked (base : Nat) (cs : List Char) : Except NumeralError Nat :=
  if cs.head? = some '_' then .error .malformed else magnitude base cs

/-- The magnitude after the sign, in the notation asked for. A marked numeral without a mark is
decimal, and is zero if it starts with a zero. -/
def unsigned (radix : Radix) (cs : List Char) : Except NumeralError Nat :=
  match radix, mark? cs with
  | .decimal, _ => unmarked 10 cs
  | .hexadecimal, some (16, rest) => magnitude 16 rest
  | .hexadecimal, _ => unmarked 16 cs
  | .marked, some (base, rest) => magnitude base rest
  | .marked, none =>
    match unmarked 10 cs with
    | .error e => .error e
    | .ok n =>
      if (cs.head?.bind (digitOf? 10)) = some 0 && n ≠ 0 then .error .malformed else .ok n

/-- Reads an integer. -/
def read (radix : Radix) (cs : List Char) : Except NumeralError Int :=
  let (negative, body) := sign (cs.dropWhile isPadding)
  match unsigned radix body with
  | .error e => .error e
  | .ok n => .ok (if negative then -(n : Int) else n)

/-- The least magnitude that has more digits than a decimal numeral may have. It is never computed
in a proof. -/
@[irreducible] def bound : Nat := Nat.pow 10 maxDigits

/-- Whether the decimal numeral of an integer is not too long to be written. -/
def isWritable (n : Int) : Bool := n.natAbs < bound

/-- The hexadecimal digits of a number, in lower case and after `0x`. -/
def hex (n : Int) : String :=
  let digits := "0x" ++ String.ofList (Nat.toDigits 16 n.natAbs)
  if n < 0 then "-" ++ digits else digits

end Numeral

end Snark.Text
