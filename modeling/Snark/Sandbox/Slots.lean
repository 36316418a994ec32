import Snark.Sandbox.Machine
import Snark.Slot
import Snark.Text.Utf8

/-!
# Slots in the memory of a program

Typed access to the memory of a program: words of 32 bits, field elements in slots, and texts that
end at a zero byte. The word at address zero is the allocation cursor of the program. The host takes
scratch space by moving the cursor up, and gives it back by setting the cursor to what it was.
-/

namespace Snark

/-- Access to the memory of a program whose field elements have the given layout. -/
structure Slots (σ : Type) where
  memory : Access σ
  codec : Slot.Codec

namespace Slots

variable {σ : Type}

/-- How many bytes of a text are read at most. -/
def textLimit : Nat := 4096

/-- The word at an address. -/
def readWord (s : Slots σ) (address : Int) : Run σ Nat := do
  return Bytes.toNat (← s.memory.read address 4)

/-- Writes the low 32 bits of an integer at an address. -/
def writeWord (s : Slots σ) (address n : Int) : Run σ Unit :=
  s.memory.write address (Bytes.ofNat 4 (n % Slot.wordBound).toNat)

/-- Where the next scratch space will be. -/
def cursor (s : Slots σ) : Run σ Nat := s.readWord 0

/-- Moves the cursor. -/
def setCursor (s : Slots σ) (n : Int) : Run σ Unit := s.writeWord 0 n

/-- Takes some bytes of scratch space, and returns its address. -/
def allocate (s : Slots σ) (size : Nat) : Run σ Nat := do
  let p ← s.cursor
  s.setCursor (p + size : Nat)
  return p

/-- Takes room for a word. -/
def allocateWord (s : Slots σ) : Run σ Nat := s.allocate 8

/-- Takes room for a field element. -/
def allocateSlot (s : Slots σ) : Run σ Nat := s.allocate s.codec.size

/-- The field element in the slot at an address. -/
def readSlot (s : Slots σ) (address : Int) : Run σ Int := do
  Run.ofFault (s.codec.decode (← s.memory.read address s.codec.size))

/-- Writes a field element into the slot at an address. -/
def writeSlot (s : Slots σ) (address n : Int) : Run σ Unit := do
  s.memory.write address (← Run.ofFault (s.codec.encode n false))

/-- The number in some words at an address. -/
def readNumber (s : Slots σ) (address words : Int) : Run σ Nat := do
  return Bytes.toNat (← s.memory.read address (words * 4))

/-- The bytes from an address on, at most `limit` of them, up to the first zero. -/
def readUntilZero (s : Slots σ) : (limit : Nat) → (address : Int) → Run σ Bytes
  | 0, _ => return []
  | limit + 1, address => do
    let chunk ← s.memory.read address 1
    if chunk = [0] then return []
    return chunk ++ (← readUntilZero s limit (address + chunk.length))

/-- The text at an address, of at most `limit` bytes. Bytes that are no text are replaced. -/
def readText (s : Slots σ) (address : Int) (limit : Nat) : Run σ Text := do
  return Text.ofChars (Text.Utf8.decodeLossy (← s.readUntilZero limit address))

end Slots

end Snark
