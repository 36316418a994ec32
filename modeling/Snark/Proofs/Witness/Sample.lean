import Snark.Proofs.Witness.Agreement
import Snark.Proofs.Witness.Making

/-!
# A small program

A program over a bare memory with one slot for a value. Every input belongs to the first signal, and
the value that has been handed over last is the whole witness. Programs of this kind differ in how
they start: `moveCursor` takes scratch space and never gives it back, `reset` restores all of the
memory but the cursor, and `flood` leaves a slot with all of its bits set.
-/

namespace Snark.Witness.Sample

/-- The memory before anything runs: the cursor, and the prime behind it. -/
def image : Memory :=
  ((Memory.zeros 256).store 0 (Bytes.ofNat 4 128)).store 16 (Bytes.ofNat 32 scalarOrder)

/-- The machine before anything runs. -/
def machine : Machine Memory := ⟨image, []⟩

/-- Access to the memory. -/
def access : Access Memory := Memory.access id (fun m _ => m) true

/-- A program that starts in the given way. -/
def sandbox (start : Bool → Run Memory Unit) : Sandbox Memory where
  memory := access
  exports _ :=
    { init := start
      locate := fun address _ _ _ => access.write address (Bytes.ofNat 4 1)
      setSignal := fun _ _ _ address => do access.write 64 (← access.read address 40)
      witnessSlot := fun _ => pure 64
      slotLength := pure 40
      primeAddress := pure 16
      witnessSize := pure 1
      witnessBuffer := pure 64 }

/-- Moves the cursor. -/
def moveCursor (_ : Bool) : Run Memory Unit := access.write 0 (Bytes.ofNat 4 200)

/-- Restores the memory behind the cursor. -/
def reset (_ : Bool) : Run Memory Unit := Run.update fun m => image.store 0 (m.contents.take 4)

/-- Sets all bits of the slot of the witness. -/
def flood (_ : Bool) : Run Memory Unit := access.write 64 (List.replicate 40 255)

theorem access_actsOn : access.ActsOn Memory.contents := Memory.access_actsOn (fun _ _ => rfl) true

/-- Two machines look alike if their memories hold the same. -/
def Alike : Machine Memory → Machine Memory → Prop := Machine.Alike (fun _ => ()) Memory.contents

theorem access_agree : access.Agree Alike access :=
  @Memory.access_agree Memory id (fun m _ => m) Unit (fun _ => ()) (fun _ _ => rfl)
    (fun _ _ => rfl) true

/-- What holds of every access and of the start, and passes over to sequences, holds of every
export. -/
theorem exports_each {P : {α : Type} → Run Memory α → Prop} {start : Bool → Run Memory Unit}
    (host : Host Memory) (begins : ∀ sanity, P (start sanity))
    (pure : ∀ {α : Type} (a : α), P (pure a : Run Memory α))
    (bind : ∀ {α β : Type} {x : Run Memory α} {f : α → Run Memory β}, P x → (∀ a, P (f a)) →
      P (x >>= f))
    (read : ∀ address length, P (access.read address length))
    (write : ∀ address bs, P (access.write address bs)) :
    ((sandbox start).exports host).Each P where
  init := begins
  locate _ _ _ _ := write _ _
  setSignal _ _ _ _ := bind (read _ _) fun _ => write _ _
  witnessSlot _ := pure _
  slotLength := pure _
  primeAddress := pure _
  witnessSize := pure _
  witnessBuffer := pure _

/-- What comes of an export depends on nothing but the bytes of the memory, if that is so for the
start. -/
theorem exports_agree {start : Bool → Run Memory Unit} (host : Host Memory)
    (begins : ∀ sanity, Run.Agree Alike (start sanity) (start sanity)) :
    ((sandbox start).exports host).Agree Alike ((sandbox start).exports host) where
  init := begins
  locate _ _ _ _ := access_agree.write _ _
  setSignal _ _ _ _ := (access_agree.read _ _).bind fun _ => access_agree.write _ _
  witnessSlot _ := .pure _
  witnessSize := .pure _
  witnessBuffer := .pure _

@[simp] theorem size_image : image.size = 256 := by
  rw [image, Memory.size_store, Memory.size_store, Memory.zeros]

/-- The cursor stands first in the memory, and the prime at its address. -/
theorem contents_image :
    image.contents.take 4 = Bytes.ofNat 4 128 ∧
      (image.contents.drop 16).take 32 = Bytes.ofNat 32 scalarOrder := by
  let blank := Memory.zeros 256
  have size : (blank.store 0 (Bytes.ofNat 4 128)).size = 256 := Memory.size_store ..
  have cursor : 0 + (Bytes.ofNat 4 128).length ≤ blank.size := by
    rw [Bytes.length_ofNat]
    decide
  have prime : 16 + (Bytes.ofNat 32 scalarOrder).length ≤
      (blank.store 0 (Bytes.ofNat 4 128)).contents.length := by
    rw [Bytes.length_ofNat, Memory.length_contents, size]
    decide
  have stored : image.contents =
      (blank.store 0 (Bytes.ofNat 4 128)).contents.overwrite 16 (Bytes.ofNat 32 scalarOrder) :=
    Memory.contents_store (by rwa [Memory.length_contents] at prime)
  constructor
  · rw [stored, Bytes.take_overwrite (by decide) (Nat.le_trans (Nat.le_add_right _ _) prime),
      Memory.contents_store cursor]
    have inside : 0 + (Bytes.ofNat 4 128).length ≤ blank.contents.length := by
      rwa [Memory.length_contents]
    have first := Bytes.take_drop_overwrite inside
    rwa [List.drop_zero, Bytes.length_ofNat] at first
  · rw [stored]
    have second := Bytes.take_drop_overwrite prime
    rwa [Bytes.length_ofNat] at second

/-- A calculator can be made for every program of this kind, whose slots have eight limbs. -/
theorem exists_make_limbs (start : Bool → Run Memory Unit) :
    ∃ k, Calculator.make (sandbox start) .bn254 [] false machine = (.ok k, machine) ∧
      k.codec.limbs = 8 := by
  have odd : Odd scalarOrder := by decide
  obtain ⟨codec, layout⟩ : ∃ c, Slot.Codec.make scalarOrder 8 = .ok c :=
    Slot.Codec.exists_make_eq_ok odd (by decide)
  obtain ⟨-, limbs, -⟩ := Slot.Codec.make_eq_ok layout
  have read : access.read 16 32 machine = (.ok (Bytes.ofNat 32 scalarOrder), machine) := by
    have inside : 16 + 32 ≤ (machine.program.contents).length := by
      rw [machine, Memory.length_contents, size_image]
      decide
    rw [← contents_image.2]
    exact access_actsOn.read_eq inside
  have prime : Bytes.toNat (Bytes.ofNat 32 scalarOrder) = scalarOrder :=
    Bytes.toNat_ofNat_of_lt (by decide)
  refine ⟨⟨sandbox start, codec, [], false, 1⟩, ?_, Int.ofNat_inj.1 limbs⟩
  rw [Calculator.make]
  refine Run.bind_eq_ok_iff.2 ⟨40, machine, rfl, ?_⟩
  refine Run.bind_eq_ok_iff.2 ⟨16, machine, rfl, ?_⟩
  refine Run.bind_eq_ok_iff.2 ⟨_, machine, read, ?_⟩
  rw [prime]
  refine Run.bind_eq_ok_iff.2 ⟨codec, machine, Run.ofFault_eq_ok_iff.2 ⟨layout, rfl⟩, ?_⟩
  rfl

theorem exists_make_eq_ok (start : Bool → Run Memory Unit) :
    ∃ k, Calculator.make (sandbox start) .bn254 [] false machine = (.ok k, machine) := by
  obtain ⟨k, made, -⟩ := exists_make_limbs start
  exact ⟨k, made⟩

section Flood

/-- The memory is as large as that of the small program. -/
def HasSize (m : Machine Memory) : Prop := m.program.contents.length = 256

theorem hasSize_machine : HasSize machine := by
  rw [HasSize, machine, Memory.length_contents, size_image]

theorem succeeds_read (address length : Nat) (inside : address + length ≤ 256) :
    Run.Succeeds HasSize (access.read address length) := by
  intro m size
  rw [HasSize] at size
  exact ⟨_, m, access_actsOn.read_eq (by rwa [size]), size⟩

theorem succeeds_write (address : Nat) {bs : Bytes} (nonempty : bs ≠ [])
    (inside : address + bs.length ≤ 256) :
    Run.Succeeds HasSize (access.write address bs) := by
  intro m size
  rw [HasSize] at size
  refine ⟨(), (access.write address bs m).2, Prod.ext ?_ rfl, ?_⟩
  · exact access_actsOn.write_outcome nonempty (by rwa [size])
  · rw [HasSize, access_actsOn.length_write, size]

variable {k : Calculator Memory} (program : k.sandbox = sandbox flood)
include program

theorem succeeds_cursor : Run.Succeeds HasSize k.slots.cursor := by
  rw [Slots.cursor, Slots.readWord, Calculator.slots, program]
  exact (succeeds_read 0 4 (by decide)).bind fun _ => .pure _

theorem succeeds_setCursor (n : Int) : Run.Succeeds HasSize (k.slots.setCursor n) := by
  have width (n : Nat) : (Bytes.ofNat 4 n).length = 4 := Bytes.length_ofNat 4 n
  rw [Slots.setCursor, Slots.writeWord, Calculator.slots, program]
  exact succeeds_write 0 (List.ne_nil_of_length_pos (by rw [width]; decide))
    (by rw [width]; decide)

theorem succeeds_allocate (size : Nat) : Run.Succeeds HasSize (k.slots.allocate size) :=
  (succeeds_cursor program).bind fun _ => (succeeds_setCursor program _).bind fun _ => .pure _

/-- The slot of the witness can be read, whatever it holds, since it has all of its limbs. -/
theorem succeeds_readSlot (limbs : k.codec.limbs = 8) :
    Run.Succeeds HasSize (k.slots.readSlot 64) := by
  have width : k.codec.size = 40 := by rw [Slot.Codec.size, limbs]
  intro m size
  rw [HasSize] at size
  have read : access.read (64 : Nat) (40 : Nat) m =
      (.ok ((m.program.contents.drop 64).take 40), m) :=
    access_actsOn.read_eq (by rw [size]; decide)
  have length : ((m.program.contents.drop 64).take 40).length = 40 := by
    rw [List.length_take, List.length_drop, size]
    decide
  obtain ⟨v, value⟩ : ∃ v, k.codec.decode ((m.program.contents.drop 64).take 40) = .ok v := by
    rcases outcome : k.codec.decode ((m.program.contents.drop 64).take 40) with e | v
    · have head : 8 ≤ ((m.program.contents.drop 64).take 40).length := by
        rw [length]
        decide
      have cut := ((Slot.Codec.exists_decode_eq_error_iff head).1 ⟨e, outcome⟩).2
      rw [length, width] at cut
      exact absurd cut (by decide)
    · exact ⟨v, rfl⟩
  refine ⟨v, m, Run.bind_eq_ok_iff.2 ⟨_, m, ?_, Run.ofFault_eq_ok_iff.2 ⟨value, rfl⟩⟩, size⟩
  rw [Calculator.slots, program, width]
  exact read

/-- A run without inputs returns a witness. -/
theorem succeeds_witness (limbs : k.codec.limbs = 8) :
    Run.Succeeds HasSize (k.witness [] false) := by
  have start : k.exports.init (false || k.sanity || k.isObserving) = flood true := by
    rw [Calculator.exports, program]
    rfl
  have size : k.exports.witnessSize = pure 1 := by
    rw [Calculator.exports, program]
    rfl
  have slot : k.exports.witnessSlot (0 : Nat) = pure 64 := by
    rw [Calculator.exports, program]
    rfl
  have run : Run.Succeeds HasSize (k.run [] false) := by
    rw [Calculator.run_eq, start]
    refine (succeeds_write 64 (by decide) (by decide)).bind fun _ => ?_
    exact (succeeds_allocate program 8).bind fun _ =>
      (succeeds_allocate program _).bind fun _ => .pure ()
  rw [Calculator.witness_eq]
  refine (succeeds_cursor program).bind fun n => Run.Succeeds.ensuring ?_
    (succeeds_setCursor program n)
  refine run.bind fun _ => ?_
  have read : Run.Succeeds HasSize (k.readValues 1 0) := by
    rw [Calculator.readValues, slot, pure_bind]
    exact (succeeds_readSlot program limbs).bind fun _ => (Run.Succeeds.pure []).bind fun _ =>
      .pure _
  rw [Calculator.collect, size, pure_bind]
  exact read

end Flood

end Snark.Witness.Sample
