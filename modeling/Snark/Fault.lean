import Snark.Text.Basic

/-!
# Faults

A fault is a misuse that no file format or protocol accounts for: a number outside the domain of
a function, an index past the end of a table, a value of the wrong shape. `Fault.kind` sorts them,
and `Fault.message?` gives the words of those that have some.
-/

namespace Snark

/-- What a fault is about. -/
inductive FaultKind
  /-- A value of the right shape that the operation is not defined on. -/
  | value
  /-- A value of the wrong shape. -/
  | shape
  /-- A position outside a list. -/
  | index
  /-- A number that does not fit the room it is given. -/
  | overflow
  /-- Something too large for any memory. -/
  | room
  /-- A division by zero. -/
  | division
  /-- A member asked of a value that has no members. -/
  | member
  /-- Bytes that are no text. -/
  | text
  /-- A text that has no bytes. -/
  | bytes
  /-- A number that does not fit a field of a binary record, or a record that does not fit the
  bytes it is laid out in. -/
  | record
  deriving DecidableEq, Repr

/-- A misuse of an operation. -/
inductive Fault
  | notPowerOfTwo (n : Int)
  | pastTwoAdicity (n : Int)
  | transformLength (n : Nat)
  | limbCount (n : Int)
  | shortSlot (length : Nat)
  | shortLongSlot (size length : Nat)
  | settingNotInteger (name : String) (raw : Text)
  | settingNotPositive (name : String) (value : Int)
  | outsideTwist
  | outsideCurve
  /-- A text that is no numeral. -/
  | numeral
  /-- A numeral too long to be written or read. -/
  | numeralLength
  /-- A number without an inverse, or a modulus of zero. -/
  | notInvertible
  /-- A width less than zero. -/
  | negativeWidth
  /-- A member that is not given as a name and a value. -/
  | notPair
  /-- A setting that holds the character zero. -/
  | zeroCharacter
  /-- A double that is no number. -/
  | notANumber
  /-- A value of another shape than the operation takes. -/
  | wrongShape
  | indexOutOfRange
  /-- A write that starts at the end of a memory. -/
  | memoryEnd
  /-- An integer that the given number of bytes cannot hold. -/
  | doesNotFit
  /-- A length that no memory has room for. -/
  | tooLarge
  /-- An infinite double taken for an integer. -/
  | infinite
  | divisionByZero
  | noMembers
  | notUtf8
  /-- Half of a surrogate pair in a text that is to be bytes. -/
  | halfPair
  /-- A number too large or too small for its field of a record. -/
  | recordField
  /-- A record longer than the bytes it is laid out in. -/
  | recordRoom
  deriving DecidableEq, Repr

namespace Fault

/-- The sort of a fault. -/
def kind : Fault → FaultKind
  | notPowerOfTwo _ | pastTwoAdicity _ | transformLength _ | limbCount _ | shortSlot _
  | shortLongSlot _ _ | settingNotInteger _ _ | settingNotPositive _ _ | outsideTwist
  | outsideCurve | numeral | numeralLength | notInvertible | negativeWidth | notPair
  | zeroCharacter | notANumber => .value
  | wrongShape => .shape
  | indexOutOfRange | memoryEnd => .index
  | doesNotFit | infinite => .overflow
  | tooLarge => .room
  | divisionByZero => .division
  | noMembers => .member
  | notUtf8 => .text
  | halfPair => .bytes
  | recordField | recordRoom => .record

end Fault

end Snark
