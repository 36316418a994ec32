import Snark.Failure

/-!
# Reading a section

A reader stands somewhere in one section of a container and holds the bytes of the section that
are still to be read. A read that asks for more than there is fails and moves nothing.
-/

namespace Snark

/-- A section of a container: its id, where its payload starts, and how long it is. -/
structure Section where
  id : Nat
  offset : Nat
  size : Nat
  deriving DecidableEq, Repr

/-- A position in a section. -/
structure Reader where
  /-- The section that is read. -/
  source : Section
  /-- How many bytes of it are still to be read. -/
  remaining : Nat
  /-- Those bytes. -/
  rest : Bytes
  length_rest : rest.length = remaining
  deriving DecidableEq

namespace Reader

/-- A reader at the start of a section with the given payload. -/
def ofPayload (source : Section) (payload : Bytes) : Reader :=
  ⟨source, payload.length, payload, rfl⟩

/-- Where in the container the next byte stands. -/
def position (r : Reader) : Nat := r.source.offset + (r.source.size - r.remaining)

/-- The next `n` bytes, and the reader behind them. -/
def read (n : Int) (r : Reader) : Result (Bytes × Reader) :=
  if n < 0 || r.remaining < n.toNat then
    .error (.framing (.exhausted r.source.id r.position n))
  else
    .ok (r.rest.take n.toNat,
      ⟨r.source, r.remaining - n.toNat, r.rest.drop n.toNat, by simp [r.length_rest]⟩)

/-- Succeeds at the end of the section only. -/
def expectEnd (r : Reader) : Result Unit :=
  if r.remaining = 0 then .ok () else .error (.framing (.trailing r.source.id r.remaining))

end Reader

/-- A computation that reads from one section. -/
abbrev Reading := StateT Reader Result

namespace Reading

/-- The next `n` bytes. -/
def bytes (n : Nat) : Reading Bytes := Reader.read n

/-- The little-endian number in the next `width` bytes. -/
def number (width : Nat) : Reading Nat := do
  return Bytes.toNat (← bytes width)

/-- A word of 32 bits. -/
def word : Reading Nat := number 4

/-- A word of 64 bits. -/
def wideWord : Reading Nat := number 8

/-- The results of reading the same thing a number of times. -/
def many {α : Type} (item : Reading α) : Nat → Reading (List α)
  | 0 => return []
  | n + 1 => do
    let x ← item
    return x :: (← many item n)

/-- The results of reading a number of things that know their number, counted from `i`. -/
def manyFrom {α : Type} (item : Nat → Reading α) : (i n : Nat) → Reading (List α)
  | _, 0 => return []
  | i, n + 1 => do
    let x ← item i
    return x :: (← manyFrom item (i + 1) n)

/-- Succeeds at the end of the section only. -/
def atEnd : Reading Unit := do
  (← get).expectEnd

/-- Fails with the given cause unless the condition holds. -/
def require (holds : Bool) (otherwise : Failure) : Reading Unit :=
  if holds then pure () else throw otherwise

end Reading

end Snark
