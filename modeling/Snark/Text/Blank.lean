import Snark.Text.Basic

/-!
# Blanks and line breaks

`isBlank` is the whitespace of Unicode together with the four information separators, `trim` drops
it at both ends of a text, and `lines` cuts a text at every line terminator, where a carriage return
and the line feed after it count as one.
-/

namespace Snark.Text

/-- Whitespace: the Unicode property, and the separators U+001C to U+001F. -/
def isBlank (c : Char) : Bool :=
  let n := c.toNat
  (0x09 ≤ n && n ≤ 0x0d) || (0x1c ≤ n && n ≤ 0x20) || n == 0x85 || n == 0xa0 ||
    n == 0x1680 || (0x2000 ≤ n && n ≤ 0x200a) || n == 0x2028 || n == 0x2029 ||
    n == 0x202f || n == 0x205f || n == 0x3000

/-- A character that ends a line. -/
def isBreak (c : Char) : Bool :=
  let n := c.toNat
  (0x0a ≤ n && n ≤ 0x0d) || (0x1c ≤ n && n ≤ 0x1e) || n == 0x85 || n == 0x2028 || n == 0x2029

/-- Every line terminator is a blank. -/
theorem isBlank_of_isBreak {c : Char} (h : isBreak c = true) : isBlank c = true := by
  simp only [isBreak, isBlank, Bool.or_eq_true, Bool.and_eq_true, decide_eq_true_eq,
    beq_iff_eq] at h ⊢
  omega

/-- The text without the blanks at its start. -/
def trimLeft (t : Text) : Text :=
  t.dropWhile (·.satisfies isBlank)

/-- The text without the blanks at its end. -/
def trimRight (t : Text) : Text :=
  (t.reverse.dropWhile (·.satisfies isBlank)).reverse

/-- The text without the blanks at either end. -/
def trim (t : Text) : Text :=
  trimRight (trimLeft t)

/-- The lines of a text, without their terminators. A terminator at the very end opens no
further line, so the empty text has none. -/
def lines : Text → List Text
  | [] => []
  | .char '\r' :: .char '\n' :: rest => [] :: lines rest
  | c :: rest =>
    if c.satisfies isBreak then
      [] :: lines rest
    else
      match lines rest with
      | [] => [[c]]
      | line :: more => (c :: line) :: more

/-- The fields of a line at its first `n` commas: at most `n + 1` of them, the last one holding
whatever commas are left. -/
def fields : Nat → Text → List Text
  | 0, t => [t]
  | _ + 1, [] => [[]]
  | n + 1, c :: rest =>
    if c = .char ',' then
      [] :: fields n rest
    else
      match fields (n + 1) rest with
      | [] => [[c]]
      | field :: more => (c :: field) :: more

end Snark.Text
