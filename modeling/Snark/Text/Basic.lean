/-!
# Texts

A text is a list of code points. Nearly all of them are characters; a text that was written with
escapes for 16-bit units may also hold half of a surrogate pair without its other half. Such a half
is no character and has no bytes, and a text keeps it as it is.
-/

namespace Snark

/-- A code point of a text. -/
inductive CodePoint
  | char (c : Char)
  /-- Half of a surrogate pair, by its 16-bit unit. -/
  | half (unit : Nat)
  deriving DecidableEq, Repr

namespace CodePoint

/-- The number of a code point. -/
def number : CodePoint → Nat
  | char c => c.toNat
  | half unit => unit

instance : Hashable CodePoint := ⟨fun c => hash c.number⟩

/-- Whether a code point is a character with the given property. -/
def satisfies (p : Char → Bool) : CodePoint → Bool
  | char c => p c
  | half _ => false

/-- The character of a code point, the replacement character for half of a pair. -/
def toChar : CodePoint → Char
  | char c => c
  | half _ => '\uFFFD'

end CodePoint

/-- A text. -/
abbrev Text := List CodePoint

namespace Text

/-- The text of some characters. -/
def ofChars (cs : List Char) : Text := cs.map .char

/-- A string as a text. -/
def ofString (s : String) : Text := ofChars s.toList

instance : Coe String Text := ⟨ofString⟩

/-- The characters of a text, with the replacement character for every half of a pair. -/
def chars (t : Text) : List Char := t.map CodePoint.toChar

@[simp] theorem chars_ofChars (cs : List Char) : chars (ofChars cs) = cs := by
  simp [chars, ofChars, Function.comp_def, CodePoint.toChar]

theorem ofChars_injective {cs ds : List Char} (h : ofChars cs = ofChars ds) : cs = ds := by
  simpa using congrArg chars h

/-- The string of a text, with the replacement character for every half of a pair. -/
def string (t : Text) : String := String.ofList t.chars

/-- The part of a text up to the end of the first `mark` in it, if there is one. -/
def through? (mark : Text) : Text → Option Text
  | [] => if mark.isEmpty then some [] else none
  | c :: rest =>
    if mark.isPrefixOf (c :: rest) then some mark else (through? mark rest).map (c :: ·)

/-- Whether a text consists of characters only. -/
def isWhole (t : Text) : Bool := t.all (·.satisfies fun _ => true)

end Text

end Snark
