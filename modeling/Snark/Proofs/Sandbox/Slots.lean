import Mathlib.Tactic.ByContra
import Snark.Proofs.Bytes
import Snark.Proofs.Sandbox.Memory
import Snark.Proofs.Slot

/-!
# Words in a byte memory

Where the accesses to a memory act on one string of bytes, a word is a part of that string of four
bytes. The cursor is the first of them, and it is set back to what it was by writing what was read.
-/

namespace Snark.Slots

variable {σ : Type} {s : Slots σ} {contents : σ → Bytes} (acts : s.memory.ActsOn contents)
variable {m : Machine σ}
include acts

theorem readWord_eq (address : Nat) (inside : address + 4 ≤ (contents m.program).length) :
    s.readWord address m =
      (.ok (Bytes.toNat (((contents m.program).drop address).take 4)), m) := by
  rw [readWord, Run.bind_apply]
  have read := acts.read_eq inside
  rw [Nat.cast_ofNat] at read
  rw [read]
  rfl

theorem readWord_refused (address : Int)
    (outside : address < 0 ∨ (contents m.program).length < address + 4) :
    ∃ e, s.readWord address m = (.error e, m) := by
  obtain ⟨e, refused⟩ := acts.read_refused (by decide) outside
  exact ⟨e, by rw [readWord, Run.bind_apply, refused]⟩

theorem writeWord_eq (address : Nat) (n : Int)
    (inside : address + 4 ≤ (contents m.program).length) :
    (s.writeWord address n m).1 = .ok () ∧ contents (s.writeWord address n m).2.program =
      (contents m.program).overwrite address (Bytes.ofNat 4 (n % Slot.wordBound).toNat) := by
  have width (n : Nat) : (Bytes.ofNat 4 n).length = 4 := Bytes.length_ofNat 4 n
  constructor
  · exact acts.write_outcome (List.ne_nil_of_length_pos (by rw [width]; decide))
      (by rwa [width])
  · exact acts.write_inside (by rwa [width])

theorem cursor_eq (room : 4 ≤ (contents m.program).length) :
    s.cursor m = (.ok (Bytes.toNat ((contents m.program).take 4)), m) :=
  readWord_eq acts 0 (by rwa [Nat.zero_add])

/-- In a memory with room for it, the cursor is the first word. -/
theorem cursor_eq_ok_iff {c : Nat} :
    (s.cursor m).1 = .ok c ↔
      4 ≤ (contents m.program).length ∧ Bytes.toNat ((contents m.program).take 4) = c := by
  by_cases room : 4 ≤ (contents m.program).length
  · rw [cursor_eq acts room]
    simp [room]
  · obtain ⟨e, refused⟩ := readWord_refused (m := m) acts 0 (.inr (by omega))
    rw [cursor, refused]
    simp [room]

/-- Setting the cursor to a word that has been read writes the bytes of that word. -/
theorem setCursor_toNat (word : Bytes) (width : word.length = 4)
    (room : 4 ≤ (contents m.program).length) :
    (s.setCursor word.toNat m).1 = .ok () ∧
      contents (s.setCursor word.toNat m).2.program = (contents m.program).overwrite 0 word := by
  have small : word.toNat < 2 ^ 32 := Bytes.toNat_lt_of_length width
  have same : ((word.toNat : Int) % Slot.wordBound).toNat = word.toNat := by
    rw [Slot.wordBound]
    omega
  have written := writeWord_eq acts 0 word.toNat (by rwa [Nat.zero_add])
  rwa [same, Bytes.ofNat_toNat_of_length width] at written

/-- A slot that has been written with success holds what its bytes stand for. -/
theorem readSlot_write {address : Nat} {bs : Bytes} {v : Int} (width : bs.length = s.codec.size)
    (value : s.codec.decode bs = .ok v) (done : (s.memory.write address bs m).1 = .ok ()) :
    (s.readSlot address (s.memory.write address bs m).2).1 = .ok v := by
  have inside : address + bs.length ≤ (contents m.program).length := by
    by_contra outside
    obtain ⟨e, refused⟩ : ∃ e, (s.memory.write address bs m).1 = .error e :=
      (acts.write_outside (.inr (by exact_mod_cast Nat.lt_of_not_le outside))).1
    rw [done] at refused
    cases refused
  have held := acts.write_inside inside
  have room : address + s.codec.size ≤
      (contents (s.memory.write address bs m).2.program).length := by
    rwa [acts.length_write, ← width]
  rw [readSlot, Run.bind_apply, acts.read_eq room, held, ← width, Bytes.take_drop_overwrite inside]
  dsimp only
  rw [value]
  rfl

/-- A slot into which an integer has been written with success holds its residue. -/
theorem readSlot_writeSlot (layout : s.codec.HasRoom) {address : Nat} {n : Int}
    (done : (s.writeSlot address n m).1 = .ok ()) :
    (s.readSlot address (s.writeSlot address n m).2).1 = .ok (Int.fmod n s.codec.prime) := by
  obtain ⟨bs, encoded, width, value⟩ := Slot.Codec.decode_encode layout n
  have write : s.writeSlot address n = s.memory.write address bs := by
    rw [writeSlot, encoded]
    rfl
  rw [write] at done ⊢
  exact readSlot_write acts width value done

/-- A word that is written is read back by its low 32 bits, and nothing beside it changes. -/
theorem writeWord_spec (address : Nat) (n : Int)
    (inside : address + 4 ≤ (contents m.program).length) :
    ∃ m', s.writeWord address n m = (.ok (), m') ∧
      s.readWord address m' = (.ok (n % 2 ^ 32).toNat, m') ∧
      Bytes.SameOutside address (address + 4) (contents m.program) (contents m'.program) := by
  let low := Bytes.ofNat 4 (n % Slot.wordBound).toNat
  have width : low.length = 4 := Bytes.length_ofNat 4 _
  have small : (n % Slot.wordBound).toNat < 2 ^ 32 := by
    rw [Slot.wordBound]
    omega
  have room : address + low.length ≤ (contents m.program).length := by rwa [width]
  obtain ⟨done, held⟩ := writeWord_eq acts address n inside
  have same := Bytes.sameOutside_overwrite room
  have back := Bytes.take_drop_overwrite room
  rw [width, ← held] at same back
  refine ⟨(s.writeWord address n m).2, Prod.ext done rfl, ?_, same⟩
  rw [readWord_eq acts address (by rwa [same.length_eq]), back, Bytes.toNat_ofNat_of_lt small]
  rfl

/-- A field element that is written is read back as its residue, and nothing beside its slot
changes. -/
theorem writeSlot_spec (layout : s.codec.HasRoom) (address : Nat) (n : Int)
    (inside : address + s.codec.size ≤ (contents m.program).length) :
    ∃ m', s.writeSlot address n m = (.ok (), m') ∧
      s.readSlot address m' = (.ok (Int.fmod n s.codec.prime), m') ∧
      Bytes.SameOutside address (address + s.codec.size) (contents m.program)
        (contents m'.program) := by
  obtain ⟨slot, encoded, width, value⟩ := Slot.Codec.decode_encode layout n
  have write : s.writeSlot address n = s.memory.write address slot := by
    rw [writeSlot, encoded]
    rfl
  have nonempty : slot ≠ [] := by
    refine List.ne_nil_of_length_pos ?_
    rw [width, Slot.Codec.size]
    omega
  rw [← width] at inside
  have done := acts.write_outcome nonempty inside
  have same := Bytes.sameOutside_overwrite inside
  rw [← acts.write_inside inside, width] at same
  have room : address + s.codec.size ≤
      (contents (s.memory.write address slot m).2.program).length := by
    rwa [same.length_eq, ← width]
  rw [write]
  refine ⟨(s.memory.write address slot m).2, Prod.ext done rfl, ?_, same⟩
  rw [readSlot, Run.bind_apply, acts.read_eq room, acts.write_inside inside, ← width,
    Bytes.take_drop_overwrite inside]
  exact Run.ofFault_eq_ok_iff.2 ⟨value, rfl⟩

end Snark.Slots
