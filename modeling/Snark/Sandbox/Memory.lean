import Std.Data.HashMap
import Snark.Position
import Snark.Sandbox.Machine

/-!
# Byte memory

The linear memory of a program: `size` bytes, of which only those that have been written are kept;
the others are zero. An access outside the memory is refused and changes nothing.
-/

namespace Snark

/-- A memory of `size` bytes. -/
structure Memory where
  size : Nat
  written : Std.HashMap Nat UInt8

namespace Memory

/-- A memory of zeros. -/
def zeros (size : Nat) : Memory := ⟨size, ∅⟩

/-- The byte at an address. -/
def byteAt (m : Memory) (address : Nat) : UInt8 := m.written.getD address 0

/-- The `count` bytes from an address on. -/
def bytesAt (m : Memory) (address count : Nat) : Bytes :=
  (List.range count).map fun i => m.byteAt (address + i)

/-- The memory with some bytes stored from an address on. -/
def store (m : Memory) : (address : Nat) → Bytes → Memory
  | _, [] => m
  | address, b :: bs => store ⟨m.size, m.written.insert address b⟩ (address + 1) bs

/-- Whether a range of addresses lies inside the memory. -/
def covers (m : Memory) (address length : Int) : Bool :=
  0 ≤ address && address + length ≤ m.size

/-- The bytes in a range of addresses. The end of the range is a position, so one below zero
counts from the end of the memory. -/
def read? (m : Memory) (address length : Int) : Option Bytes :=
  if m.covers address length then
    let stop := Position.bound m.size (address + length)
    some (m.bytesAt address.toNat (stop - address.toNat))
  else none

/-- The memory with some bytes written. -/
def write? (m : Memory) (address : Int) (bs : Bytes) : Option Memory :=
  if m.covers address bs.length then some (m.store address.toNat bs) else none

theorem size_store (m : Memory) (address : Nat) (bs : Bytes) :
    (m.store address bs).size = m.size := by
  induction bs generalizing m address with
  | nil => rfl
  | cons b bs ih => rw [store, ih]

theorem byteAt_store (m : Memory) (address i : Nat) (bs : Bytes) :
    (m.store address bs).byteAt i =
      if address ≤ i then bs[i - address]?.getD (m.byteAt i) else m.byteAt i := by
  induction bs generalizing m address with
  | nil => simp [store]
  | cons b bs ih =>
    have first : (⟨m.size, m.written.insert address b⟩ : Memory).byteAt i =
        if address = i then b else m.byteAt i := by
      simp [byteAt, Std.HashMap.getD_insert]
    rw [store, ih, first]
    rcases Nat.lt_trichotomy address i with h | h | h
    · obtain ⟨k, rfl⟩ : ∃ k, i = address + 1 + k := ⟨i - (address + 1), by omega⟩
      have shift : address + 1 + k - address = k + 1 := by omega
      have low : address + 1 + k - (address + 1) = k := by omega
      have le : address ≤ address + 1 + k := by omega
      have ne : address ≠ address + 1 + k := by omega
      simp [shift, low, le, ne]
    · subst h
      have hn : ¬ address + 1 ≤ address := by omega
      simp [hn]
    · have hn : ¬ address + 1 ≤ i := by omega
      have hm : ¬ address ≤ i := by omega
      have ne : address ≠ i := by omega
      simp [hn, hm, ne]

/-- What becomes of a refused access. It is reported with the ends of its range. -/
def refusal (m : Memory) (address length : Int) (located : Bool) : Failure :=
  .worded (.program (.memory address length m.size located))

/-- Access to the memory that a program keeps in its state. `located` says whether a refused
access is reported with its place. -/
def access {σ : Type} (memory : σ → Memory) (set : Memory → σ → σ) (located : Bool) : Access σ where
  read address length := do
    let m := memory (← Run.program)
    match m.read? address length with
    | some bs => return bs
    | none => throw (m.refusal address length located)
  write address bs := do
    let m := memory (← Run.program)
    match m.write? address bs with
    | some m' => Run.update (set m')
    | none => throw (m.refusal address bs.length located)

end Memory

end Snark
