import Snark.Bytes
import Snark.Text.Utf8

/-!
# Hashes of signal names

A witness program knows its input signals by the 64-bit FNV-1a hash of their names: every byte is
mixed into the hash by exclusive or and a multiplication that wraps around. Programs take the two
halves of the hash as words of 32 bits.
-/

namespace Snark.Fnv

/-- The hash of the empty text. -/
def basis : UInt64 := 0xCBF29CE484222325

/-- The multiplier. -/
def multiplier : UInt64 := 0x100000001B3

/-- The hash with one byte more. -/
def step (h : UInt64) (b : UInt8) : UInt64 := (h ^^^ b.toUInt64) * multiplier

/-- The hash of some bytes. -/
def hash (bs : Bytes) : UInt64 := bs.foldl step basis

/-- The high and the low half of a hash. -/
def halves (h : UInt64) : Nat × Nat := (h.toNat / 0x100000000, h.toNat % 0x100000000)

/-- The hash of a name, which is that of its bytes. -/
def hashName (name : Text) : Except Fault UInt64 :=
  match Text.Utf8.encode? name with
  | some bytes => .ok (hash bytes)
  | none => .error .halfPair

/-- The halves of the hash of a name. -/
def ofName (name : Text) : Except Fault (Nat × Nat) := do
  return halves (← hashName name)

end Snark.Fnv
