import Snark.Bytes
import Snark.Field.Modular
import Snark.Text.Numeral

/-!
# Field slots

A witness program keeps a field element in a slot of two header words and a number of limbs, all
of 32 bits and little-endian. The top bit of the second word says that the limbs hold the value,
and the bit below it that they hold its Montgomery form. Without the top bit the first word is the
value: a small one as it is, or one just below the prime as its distance from the prime in two's
complement. `Codec.encode` picks the form and `Codec.decode` reads any of them.
-/

namespace Snark.Slot

/-- Half the range of a word; from here on a short value is negative. -/
def shortBound : Nat := 0x80000000

/-- The range of a word. -/
def wordBound : Nat := 0x100000000

/-- The second header word of a slot whose limbs hold the value. -/
def longFlag : Nat := 0x80000000

/-- The bit of the second header word that says the limbs are in Montgomery form. -/
def montgomeryFlag : Nat := 0x40000000

/-- The low words of an integer in two's complement, the least significant first. -/
def wordsOf : (count : Nat) → Int → List Nat
  | 0, _ => []
  | count + 1, n => (n % wordBound).toNat :: wordsOf count (n / wordBound)

@[simp] theorem length_wordsOf (count : Nat) (n : Int) : (wordsOf count n).length = count := by
  induction count generalizing n with
  | zero => rfl
  | succ count ih => rw [wordsOf, List.length_cons, ih]

/-- The number whose words are given, the least significant first; of a word only its low 32
bits count. -/
def ofWords : List Int → Nat
  | [] => 0
  | w :: ws => (w % wordBound).toNat + wordBound * ofWords ws

/-- How the elements of one field are laid out in slots. -/
structure Codec where
  prime : Int
  /-- How many limbs a slot has. -/
  limbs : Nat
  /-- The inverse of the Montgomery radix modulo the prime. -/
  radixInverse : Int
  deriving Repr, DecidableEq

/-- How many words of 64 bits hold the integer `n`, which is not zero. -/
def wideWords (n : Int) : Nat := n.natAbs.log2 / 64 + 1

/-- The Montgomery radix of a prime: the range of the words of 64 bits that hold it. -/
def radixOf (prime : Int) : Nat := 1 <<< (64 * wideWords prime)

namespace Codec

/-- The layout for a prime and a number of limbs, which has to be positive. -/
def make (prime limbs : Int) : Except Fault Codec := do
  if limbs ≤ 0 then
    throw (.limbCount limbs)
  let radixInverse ← Modular.power? prime (radixOf prime) (-1)
  return ⟨prime, limbs.toNat, radixInverse⟩

/-- How many words of 64 bits hold the prime. -/
def wide (c : Codec) : Nat := wideWords c.prime

/-- The Montgomery radix. -/
def radix (c : Codec) : Nat := radixOf c.prime

/-- The length of a slot in bytes. -/
def size (c : Codec) : Nat := c.limbs * 4 + 8

/-- The least value that is stored as a short negative one. -/
def shortMin (c : Codec) : Int := c.prime - shortBound

/-- The same layout with no more limbs than the elements of the field need. -/
def narrow (c : Codec) : Codec :=
  if 0 < c.prime then { c with limbs := min c.limbs (2 * c.wide) } else c

/-- The limbs of an integer. -/
def encodeLimbs (c : Codec) (n : Int) : List Nat := wordsOf c.limbs n

/-- The element that some limbs stand for. -/
def decodeLimbs (c : Codec) (ws : List Int) (montgomery : Bool) : Int :=
  let n : Int := ofWords ws
  Int.fmod (if montgomery then n * c.radixInverse else n) c.prime

/-- A slot of the given words. -/
def pack (word₀ : Int) (word₁ : Nat) (limbs : List Nat) : Except Fault Bytes := do
  let head ← Bytes.field? 4 word₀
  return head ++ Bytes.ofNat 4 word₁ ++ limbs.flatMap (Bytes.ofNat 4)

/-- The slot of an integer, in Montgomery form or in the shortest form that holds it. -/
def encode (c : Codec) (n : Int) (montgomery : Bool) : Except Fault Bytes :=
  let v := Int.fmod n c.prime
  let unused := List.replicate c.limbs 0
  if montgomery then
    pack 0 (longFlag + montgomeryFlag) (c.encodeLimbs (Int.fmod (v * c.radix) c.prime))
  else if v < shortBound then pack v 0 unused
  else if c.shortMin ≤ v then pack (v - c.prime + wordBound) 0 unused
  else pack 0 longFlag (c.encodeLimbs v)

/-- The slot of an integer, where one of this layout can be made. The number of limbs has to be a
length; what else is wrong is found with a single limb. -/
def slot? (c : Codec) (n : Int) (montgomery : Bool) : Except Fault Bytes := do
  Length.check c.limbs
  let _ ← encode { c with limbs := 1 } n montgomery
  let _ ← Bytes.room? c.size
  encode c n montgomery

/-- The words of 32 bits at the start of some bytes. -/
def wordsAt : (count : Nat) → Bytes → List Int
  | 0, _ => []
  | count + 1, bs => Bytes.toNat (bs.take 4) :: wordsAt count (bs.drop 4)

/-- The element that a slot holds. -/
def decode (c : Codec) (slot : Bytes) : Except Fault Int :=
  if slot.length < 8 then .error (.shortSlot slot.length)
  else
    let word₀ := Bytes.toNat (slot.take 4)
    let word₁ := Bytes.toNat ((slot.drop 4).take 4)
    if longFlag ≤ word₁ then
      if slot.length < c.size then .error (.shortLongSlot c.size slot.length)
      else
        let montgomery := montgomeryFlag ≤ word₁ - longFlag
        .ok (c.decodeLimbs (wordsAt c.limbs (slot.drop 8)) montgomery)
    else if shortBound ≤ word₀ then .ok (Int.fmod (c.prime + word₀ - wordBound) c.prime)
    else .ok word₀

/-- The element that the slot of an integer holds. The limbs that no element needs are left out of
the slot. -/
def roundTrip (c : Codec) (n : Int) (montgomery : Bool) : Except Fault Int := do
  Length.check c.limbs
  c.narrow.decode (← c.narrow.slot? n montgomery)

/-- A layout in words. -/
def shown (c : Codec) : String :=
  let digits := String.ofList (Nat.toDigits 16 c.prime.natAbs)
  let prime := if c.prime < 0 then "-" ++ digits else digits
  s!"FieldCodec(prime=0x{prime}, n32={c.limbs})"

end Codec

end Snark.Slot
