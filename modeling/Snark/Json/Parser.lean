import Snark.Bytes
import Snark.Json.Value
import Snark.Text.Numeral

/-!
# Reading JSON

`parse?` reads one JSON document. Numbers with a fraction or an exponent go to the nearest
double, integers have at most as many digits as a numeral may have, and the names `NaN`, `Infinity`
and `-Infinity` are taken too. A `\u` escape that is half of a surrogate pair without its other half
is kept.
-/

namespace Snark.Json

/-- Drops white space at the start. -/
def skipBlanks (cs : List Char) : List Char :=
  cs.dropWhile fun c => c = ' ' || c = '\n' || c = '\r' || c = '\t'

/-- The value of four hexadecimal digits. -/
def hexUnit? (a b c d : Char) : Option Nat := do
  return (← Bytes.nibble? a) * 4096 + (← Bytes.nibble? b) * 256 + (← Bytes.nibble? c) * 16 +
    (← Bytes.nibble? d)

/-- The character that an escape of one letter stands for. -/
def escaped? (c : Char) : Option Char :=
  match c with
  | '"' => some '"'
  | '\\' => some '\\'
  | '/' => some '/'
  | 'b' => some '\x08'
  | 'f' => some '\x0c'
  | 'n' => some '\n'
  | 'r' => some '\r'
  | 't' => some '\t'
  | _ => none

/-- The code units of a text up to its closing quote, and what follows. -/
def units? : List Char → Option (List Nat × List Char)
  | [] => none
  | '"' :: rest => some ([], rest)
  | '\\' :: 'u' :: a :: b :: c :: d :: rest => do
    let unit ← hexUnit? a b c d
    let (units, tail) ← units? rest
    return (unit :: units, tail)
  | '\\' :: c :: rest => do
    let e ← escaped? c
    let (units, tail) ← units? rest
    return (e.toNat :: units, tail)
  | c :: rest => do
    let (units, tail) ← units? rest
    return (c.toNat :: units, tail)

/-- A unit that is not joined to another one. -/
def ofUnit (u : Nat) : CodePoint :=
  if 0xd800 ≤ u && u < 0xe000 then .half u else .char (Char.ofNat u)

/-- Joins the halves of surrogate pairs; a half without its other one is kept. -/
def joinUnits : List Nat → Text
  | [] => []
  | [u] => [ofUnit u]
  | u :: v :: rest =>
    if 0xd800 ≤ u && u < 0xdc00 && 0xdc00 ≤ v && v < 0xe000 then
      .char (Char.ofNat (0x10000 + (u - 0xd800) * 1024 + (v - 0xdc00))) :: joinUnits rest
    else ofUnit u :: joinUnits (v :: rest)

/-- A text after its opening quote. -/
def text? (cs : List Char) : Option (Text × List Char) := do
  let (units, rest) ← units? cs
  return (joinUnits units, rest)

/-- The decimal digits at the start. -/
def spanDigits (cs : List Char) : List Char × List Char :=
  (cs.takeWhile Char.isDigit, cs.dropWhile Char.isDigit)

/-- The number that decimal digits spell. -/
def natOfDigits (ds : List Char) : Nat :=
  ds.foldl (fun n c => n * 10 + (c.toNat - '0'.toNat)) 0

/-- The exponent part of a number, if one follows. -/
def exponent? : List Char → Option (Option Int × List Char)
  | c :: rest =>
    if c = 'e' || c = 'E' then
      let (negative, body) := match rest with
        | '-' :: body => (true, body)
        | '+' :: body => (false, body)
        | body => (false, body)
      let (ds, tail) := spanDigits body
      if ds.isEmpty then none
      else
        let n : Int := natOfDigits ds
        some (some (if negative then -n else n), tail)
    else some (none, c :: rest)
  | [] => some (none, [])

/-- The fraction digits of a number, if a point follows. -/
def fraction? : List Char → Option (Option (List Char) × List Char)
  | '.' :: rest =>
    let (ds, tail) := spanDigits rest
    if ds.isEmpty then none else some (some ds, tail)
  | cs => some (none, cs)

/-- A number after its sign. -/
def number? (negative : Bool) (cs : List Char) : Option (Value × List Char) := do
  let (whole, rest) := spanDigits cs
  if whole.isEmpty then none
  else
    let (fraction, rest) ← fraction? rest
    let (exponent, rest) ← exponent? rest
    if fraction.isNone && exponent.isNone then
      if Text.maxDigits < whole.length then none
      let n : Int := natOfDigits whole
      return (.int (if negative then -n else n), rest)
    else
      let ds := fraction.getD []
      let scale : Int := exponent.getD 0 - ds.length
      return (.real (.ofDecimal negative (natOfDigits (whole ++ ds)) scale), rest)

/-- What follows a word, if the text starts with it. -/
def word? (word : String) (cs : List Char) : Option (List Char) :=
  if word.toList.isPrefixOf cs then some (cs.drop word.length) else none

/-- A value without parts. -/
def scalar? (cs : List Char) : Option (Value × List Char) :=
  match cs with
  | '"' :: rest => (text? rest).map fun (s, tail) => (.text s, tail)
  | 'n' :: _ => (word? "null" cs).map ((.null, ·))
  | 't' :: _ => (word? "true" cs).map ((.bool true, ·))
  | 'f' :: _ => (word? "false" cs).map ((.bool false, ·))
  | 'N' :: _ => (word? "NaN" cs).map ((.real .nan, ·))
  | 'I' :: _ => (word? "Infinity" cs).map ((.real (.infinite false), ·))
  | '-' :: 'I' :: rest => (word? "nfinity" rest).map ((.real (.infinite true), ·))
  | '-' :: rest => number? true rest
  | _ => number? false cs

mutual

/-- A value; every bracket opened takes one from the fuel. -/
def value? : Nat → List Char → Option (Value × List Char)
  | 0, _ => none
  | fuel + 1, cs =>
    match skipBlanks cs with
    | '[' :: rest =>
      match skipBlanks rest with
      | ']' :: tail => some (.list [], tail)
      | body => (items? fuel body).map fun (vs, tail) => (.list vs, tail)
    | '\x7b' :: rest =>
      match skipBlanks rest with
      | '\x7d' :: tail => some (.object [], tail)
      | body => (members? fuel [] body).map fun (ms, tail) => (.object ms, tail)
    | body => scalar? body

/-- The items of a list up to its closing bracket. -/
def items? : Nat → List Char → Option (List Value × List Char)
  | 0, _ => none
  | fuel + 1, cs => do
    let (v, rest) ← value? fuel cs
    match skipBlanks rest with
    | ',' :: more =>
      let (vs, tail) ← items? fuel more
      return (v :: vs, tail)
    | ']' :: tail => return ([v], tail)
    | _ => none

/-- The members of an object up to its closing brace, after those already read. -/
def members? : Nat → List (Text × Value) → List Char → Option (List (Text × Value) × List Char)
  | 0, _, _ => none
  | fuel + 1, seen, cs => do
    match skipBlanks cs with
    | '"' :: body =>
      let (name, rest) ← text? body
      match skipBlanks rest with
      | ':' :: rest =>
        let (v, rest) ← value? fuel rest
        match skipBlanks rest with
        | ',' :: more => members? fuel (setMember name v seen) more
        | '\x7d' :: tail => return (setMember name v seen, tail)
        | _ => none
      | _ => none
    | _ => none

end

/-- Reads a document that holds one value. -/
def parse? (s : String) : Option Value := do
  let cs := s.toList
  let (v, rest) ← value? (cs.length + 1) cs
  if (skipBlanks rest).isEmpty then return v else none

end Snark.Json
