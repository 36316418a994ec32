import Snark.Length

/-!
# Bytes

Byte strings are lists. `Bytes.ofNat` and `Bytes.toNat` are the little-endian numbers of a fixed
width and `ofNatBE`, `toNatBE` the big-endian ones; each pair is inverse on the numbers that fit.
-/

namespace Snark

/-- A string of bytes. -/
abbrev Bytes := List UInt8

namespace Bytes

/-- How many values a number of bytes can hold. -/
def capacity (width : Nat) : Nat := Nat.pow 256 width

@[simp] theorem capacity_zero : capacity 0 = 1 := rfl

theorem capacity_succ (width : Nat) : capacity (width + 1) = capacity width * 256 := rfl

theorem capacity_pos (width : Nat) : 0 < capacity width := Nat.pow_pos (by decide)

/-- The low `width` bytes of a number, the least significant first. -/
def ofNat : (width n : Nat) → Bytes
  | 0, _ => []
  | width + 1, n => UInt8.ofNat (n % 256) :: ofNat width (n / 256)

/-- The number whose bytes are given, the least significant first. -/
def toNat : Bytes → Nat
  | [] => 0
  | b :: bs => b.toNat + 256 * toNat bs

@[simp] theorem length_ofNat (width n : Nat) : (ofNat width n).length = width := by
  induction width generalizing n with
  | zero => rfl
  | succ width ih => simp [ofNat, ih]

theorem toNat_lt (bs : Bytes) : toNat bs < capacity bs.length := by
  induction bs with
  | nil => decide
  | cons b bs ih =>
    have := b.toNat_lt
    rw [List.length_cons, capacity_succ, toNat]
    omega

@[simp] theorem toNat_ofNat (width n : Nat) : toNat (ofNat width n) = n % capacity width := by
  induction width generalizing n with
  | zero => simp [ofNat, toNat, Nat.mod_one]
  | succ width ih =>
    have byte : (UInt8.ofNat (n % 256)).toNat = n % 256 := by simp
    rw [ofNat, toNat, ih, byte, capacity_succ, Nat.mul_comm (capacity width), Nat.mod_mul]

theorem toNat_ofNat_of_lt {width n : Nat} (h : n < capacity width) : toNat (ofNat width n) = n := by
  rw [toNat_ofNat, Nat.mod_eq_of_lt h]

theorem ofNat_toNat (bs : Bytes) : ofNat bs.length (toNat bs) = bs := by
  induction bs with
  | nil => rfl
  | cons b bs ih =>
    have := b.toNat_lt
    have low : (b.toNat + 256 * toNat bs) % 256 = b.toNat := by omega
    have high : (b.toNat + 256 * toNat bs) / 256 = toNat bs := by omega
    rw [List.length_cons, toNat, ofNat, low, high, ih]
    simp

/-- The low `width` bytes of a number, the most significant first. -/
def ofNatBE (width n : Nat) : Bytes := (ofNat width n).reverse

/-- The number whose bytes are given, the most significant first. -/
def toNatBE (bs : Bytes) : Nat := toNat bs.reverse

@[simp] theorem length_ofNatBE (width n : Nat) : (ofNatBE width n).length = width := by
  simp [ofNatBE]

theorem toNatBE_ofNatBE_of_lt {width n : Nat} (h : n < capacity width) :
    toNatBE (ofNatBE width n) = n := by
  simp [toNatBE, ofNatBE, Nat.mod_eq_of_lt h]

theorem ofNatBE_toNatBE (bs : Bytes) : ofNatBE bs.length (toNatBE bs) = bs := by
  have := ofNat_toNat bs.reverse
  rw [List.length_reverse] at this
  rw [ofNatBE, toNatBE, this, List.reverse_reverse]

/-- No number is this many bytes wide. -/
def widthLimit : Nat := 0x77ffffffffffffe3

/-- The width of a number as a count of bytes. -/
def width? (n : Int) : Except Fault Nat :=
  if n < 0 then .error .negativeWidth
  else if widthLimit ≤ n then .error .doesNotFit
  else if Length.limit ≤ n then .error .tooLarge
  else .ok n.toNat

/-- No string has this many bytes. -/
def lengthLimit : Nat := 0x7fffffffffffffdf

/-- The length of a string of bytes. -/
def length? (n : Int) : Except Fault Nat :=
  if lengthLimit ≤ n then .error .doesNotFit else Length.size? n

/-- No number is laid out in this many bytes. -/
def roomLimit : Nat := 0x1000000

/-- A count of bytes to lay out. -/
def room? (n : Int) : Except Fault Nat := do
  let count ← length? n
  if count < roomLimit then return count else throw .tooLarge

/-- The number of bytes that a number takes. -/
def lengthOf (n : Nat) : Nat := if n = 0 then 0 else n.log2 / 8 + 1

/-- An integer in a fixed number of bytes; one that is negative or too large has none. -/
def ofInt? (width : Nat) (n : Int) : Except Fault Bytes :=
  if n < 0 || capacity width ≤ n.toNat then .error .doesNotFit else .ok (ofNat width n.toNat)

/-- An integer as a field of `width` bytes of a record. -/
def field? (width : Nat) (n : Int) : Except Fault Bytes :=
  if 0 ≤ n && n < capacity width then .ok (ofNat width n.toNat) else .error .recordField

theorem field?_of_lt {width n : Nat} (h : n < capacity width) :
    field? width n = .ok (ofNat width n) := by
  have : (n : Int) < capacity width := Int.ofNat_lt.2 h
  simp [field?, this]

/-- The digits of a byte string in hexadecimal, two for a byte. -/
def hexDigits (bs : Bytes) : List Char :=
  bs.flatMap fun b => [Nat.digitChar (b.toNat / 16), Nat.digitChar (b.toNat % 16)]

/-- A byte string in hexadecimal. -/
def hex (bs : Bytes) : String := String.ofList (hexDigits bs)

/-- The value of a hexadecimal digit. -/
def nibble? (c : Char) : Option Nat :=
  if '0' ≤ c && c ≤ '9' then some (c.toNat - '0'.toNat)
  else if 'a' ≤ c && c ≤ 'f' then some (c.toNat - 'a'.toNat + 10)
  else if 'A' ≤ c && c ≤ 'F' then some (c.toNat - 'A'.toNat + 10)
  else none

/-- Whether a character may stand between the bytes of a hexadecimal text. -/
def isHexBlank (c : Char) : Bool := c = ' ' || ('\t' ≤ c && c ≤ '\x0d')

/-- The bytes that pairs of hexadecimal digits spell, with blanks between the pairs left out. -/
def ofHexDigits? : List Char → Option Bytes
  | [] => some []
  | [c] => if isHexBlank c then some [] else none
  | a :: b :: rest =>
    if isHexBlank a then ofHexDigits? (b :: rest)
    else do
      let high ← nibble? a
      let low ← nibble? b
      return UInt8.ofNat (high * 16 + low) :: (← ofHexDigits? rest)

/-- The bytes that a hexadecimal text spells. -/
def ofHex? (s : String) : Option Bytes := ofHexDigits? s.toList

end Bytes

end Snark
