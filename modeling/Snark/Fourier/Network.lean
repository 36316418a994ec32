import Snark.Fourier

/-!
# The transform in place

The transform needs no room but that of its coefficients. First every coefficient is put in the
place whose index has the binary digits of its own in reverse order. Then rounds of butterflies join
neighbouring blocks that are transformed already; the blocks are twice as long after each round, and
after the last one a single block is left.
-/

namespace Snark.Fourier

/-- The `k` lowest binary digits of a number, the lowest one first. -/
def binaryDigits : (k i : Nat) → List Nat
  | 0, _ => []
  | k + 1, i => i % 2 :: binaryDigits k (i / 2)

/-- The number with the given binary digits, the lowest one first. -/
def ofBinaryDigits : List Nat → Nat
  | [] => 0
  | b :: bs => b + 2 * ofBinaryDigits bs

/-- The number that the `k` lowest binary digits of `i` denote in reverse order. -/
def reverseBits (k i : Nat) : Nat := ofBinaryDigits (binaryDigits k i).reverse

/-- Exchanges the elements at two positions. -/
def exchange (i j : Nat) (xs : List Fr) : List Fr :=
  (xs.set i (xs.getD j 0)).set j (xs.getD i 0)

/-- Moves the elements from position `i` on to the places with the reversed index, `left` of them.
Two elements change places when the first of them is reached. -/
def reorderFrom (k : Nat) : (left i : Nat) → List Fr → List Fr
  | 0, _, xs => xs
  | left + 1, i, xs =>
    let j := reverseBits k i
    reorderFrom k left (i + 1) (if i < j then exchange i j xs else xs)

/-- Joins the elements at `j` and `j + half`, of which the second is multiplied by `w`, to their sum
and their difference. -/
def butterfly (half j : Nat) (w : Fr) (xs : List Fr) : List Fr :=
  let u := xs.getD j 0
  let v := xs.getD (j + half) 0 * w
  (xs.set j (u + v)).set (j + half) (u - v)

/-- The butterflies at `left` positions from `j` on, the factors being the multiples of `w` by the
powers of `step`. -/
def butterflies (half : Nat) (step : Fr) : (left j : Nat) → (w : Fr) → List Fr → List Fr
  | 0, _, _, xs => xs
  | left + 1, j, w, xs => butterflies half step left (j + 1) (w * step) (butterfly half j w xs)

/-- Joins the halves of `left` blocks that stand one after another from `start` on. -/
def joinBlocks (half : Nat) (step : Fr) : (left start : Nat) → List Fr → List Fr
  | 0, _, xs => xs
  | left + 1, start, xs =>
    joinBlocks half step left (start + 2 * half) (butterflies half step half start 1 xs)

/-- What the given number of rounds makes of `n` elements, where `ω` is the root for all of them. -/
def rounds (ω : Fr) (n : Nat) : Nat → List Fr → List Fr
  | 0, xs => xs
  | r + 1, xs =>
    let half := Nat.pow 2 r
    let blocks := n / (2 * half)
    joinBlocks half (ω.pow blocks) blocks 0 (rounds ω n r xs)

/-- The values of a polynomial on the powers of `ω`, computed in the place of its coefficients. -/
def transformInPlace (cs : List Fr) (ω : Fr) : Except Fault (List Fr) :=
  if isPowerOfTwo cs.length then
    let k := cs.length.log2
    .ok (rounds ω cs.length k (reorderFrom k cs.length 0 cs))
  else .error (.transformLength cs.length)

end Snark.Fourier
