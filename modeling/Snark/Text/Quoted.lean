import Snark.Text.Basic
import Snark.Text.Printable

/-!
# Quoted text

A message shows a text between quotes: single ones, or double ones where the text holds a single
quote and no double one. Backslashes and the quote in use are escaped, line feeds, tabs and
carriage returns have their letters, and other characters without a picture are written by their
code, as are halves of surrogate pairs. Bytes are shown the same way after a `b`, with all but
printable ASCII written by number.
-/

namespace Snark.Text

/-- The hexadecimal digits of `n`, with zeros in front up to `width` digits. -/
def hexPadded (width n : Nat) : List Char :=
  let ds := Nat.toDigits 16 n
  List.replicate (width - ds.length) '0' ++ ds

namespace Quoted

/-- The quote that goes around a text. -/
def mark (t : Text) : Char :=
  if t.contains (.char '\'') && !t.contains (.char '"') then '"' else '\''

/-- The spelling of the characters that have the same one in texts and bytes. -/
def common? (quote c : Char) : Option (List Char) :=
  if c = quote || c = '\\' then some ['\\', c]
  else if c = '\n' then some ['\\', 'n']
  else if c = '\t' then some ['\\', 't']
  else if c = '\r' then some ['\\', 'r']
  else none

/-- A character by its code, in the shortest of the three widths that holds it. -/
def byCode (c : Char) : List Char :=
  let n := c.toNat
  if n < 0x100 then '\\' :: 'x' :: hexPadded 2 n
  else if n < 0x10000 then '\\' :: 'u' :: hexPadded 4 n
  else '\\' :: 'U' :: hexPadded 8 n

/-- The spelling of one character of a text. -/
def char (quote c : Char) : List Char :=
  (common? quote c).getD (if isPrintable c then [c] else byCode c)

/-- The spelling of one code point of a text. -/
def point (quote : Char) : CodePoint → List Char
  | .char c => char quote c
  | .half unit => '\\' :: 'u' :: hexPadded 4 unit

/-- The spelling of one byte. -/
def byte (quote : Char) (b : UInt8) : List Char :=
  let c := Char.ofNat b.toNat
  (common? quote c).getD
    (if 0x20 ≤ b.toNat && b.toNat < 0x7f then [c] else '\\' :: 'x' :: hexPadded 2 b.toNat)

/-- A text between quotes. -/
def ofText (t : Text) : List Char :=
  let quote := mark t
  quote :: t.flatMap (point quote) ++ [quote]

/-- Bytes between quotes, after a `b`. -/
def ofBytes (bs : List UInt8) : List Char :=
  let quote := mark (bs.map fun b => .char (Char.ofNat b.toNat))
  'b' :: quote :: bs.flatMap (byte quote) ++ [quote]

end Quoted

/-- A text between quotes. -/
def quote (t : Text) : String :=
  String.ofList (Quoted.ofText t)

/-- Bytes between quotes, after a `b`. -/
def quoteBytes (bs : List UInt8) : String :=
  String.ofList (Quoted.ofBytes bs)

end Snark.Text
