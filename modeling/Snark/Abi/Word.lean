import Snark.Failure

/-!
# Words of a contract call

A contract sees numbers as words of 32 bytes, the most significant byte first. Its arguments are
words and arrays of a fixed length, which may be nested; such an array is encoded as its elements
one after another, without a length in front.
-/

namespace Snark.Abi

/-- The length of a word in bytes. -/
def wordSize : Nat := 32

/-- The word of a number. -/
def word (n : Nat) : Bytes := Bytes.ofNatBE wordSize n

@[simp] theorem length_word (n : Nat) : (word n).length = wordSize := Bytes.length_ofNatBE _ _

/-- The number in each of the `count` words at the start of some bytes. -/
def wordsAt : (count : Nat) → Bytes → List Nat
  | 0, _ => []
  | count + 1, bs => Bytes.toNatBE (bs.take wordSize) :: wordsAt count (bs.drop wordSize)

/-- The numbers in some bytes that have to hold exactly `count` words. -/
def words (count : Nat) (bs : Bytes) : Result (List Nat) :=
  if bs.length = count * wordSize then .ok (wordsAt count bs)
  else .error (.abi (.length bs.length (count * wordSize)))

/-- A word, or an array of a fixed length. -/
inductive Argument
  | word (n : Nat)
  | array (items : List Argument)
  deriving Repr

namespace Argument

mutual

/-- The encoding of an argument. -/
def encode : Argument → Bytes
  | word n => Abi.word n
  | array items => encodeAll items

/-- The encoding of arguments one after another. -/
def encodeAll : List Argument → Bytes
  | [] => []
  | x :: rest => encode x ++ encodeAll rest

end

theorem encodeAll_append (xs ys : List Argument) :
    encodeAll (xs ++ ys) = encodeAll xs ++ encodeAll ys := by
  induction xs with
  | nil => rfl
  | cons x xs ih => rw [List.cons_append, encodeAll, encodeAll, ih, List.append_assoc]

end Argument

end Snark.Abi
