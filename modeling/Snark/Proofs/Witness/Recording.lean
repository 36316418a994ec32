import Snark.Proofs.Sandbox.Recording
import Snark.Proofs.Sandbox.Slots
import Snark.Proofs.Witness.Agreement

/-!
# Recorded runs

A calculator on a recording sandbox does what it does on the sandbox itself. Most of what it asks
for has nothing to do with inputs: words and slots are read and written, and scratch space is taken.
Such a step is quiet, and it fails only where one of its calls does.
-/

namespace Snark

namespace Witness.Calculator

variable {σ : Type} {k : Calculator σ}

/-- The calculator on the recording sandbox. -/
def recording (k : Calculator σ) : Calculator (Recorded σ) :=
  ⟨k.sandbox.recording, k.codec, k.observed, k.sanity, k.witnessSize⟩

theorem slots_recording : k.recording.slots.Agree Machine.Records k.slots :=
  ⟨k.sandbox.memory.agree_recording, rfl⟩

/-- To the program, the host is the one that it has without a record. -/
theorem host_recording (k : Calculator σ) : k.recording.host.unrecorded = k.host := by
  have failure (e : Alarm) : (k.recording.host.failure e).unrecorded = k.host.failure e :=
    Run.unrecorded_eq (agree_failureOf slots_recording e)
  have notify (n : Notice) : (k.recording.host.notify n).unrecorded = k.host.notify n :=
    Run.unrecorded_eq (agree_notify slots_recording rfl Run.agree_record n)
  rw [Host.unrecorded, funext failure, funext notify]

theorem exports_recording (k : Calculator σ) : k.recording.exports = k.exports.recording := by
  have exports : k.recording.exports =
      (k.sandbox.exports k.recording.host.unrecorded).recording := rfl
  rw [exports, host_recording, Calculator.exports]

/-- What is done on the recording sandbox comes to what it comes to on the sandbox itself. -/
theorem agree_recording (k : Calculator σ) : k.recording.Agree Machine.Records k where
  slots := slots_recording
  exports := by
    rw [exports_recording]
    exact k.exports.agree_recording
  observed := rfl
  sanity := rfl

theorem isQuiet_readWord (address : Int) : (k.recording.slots.readWord address).IsQuiet :=
  (Run.IsQuiet.recordAs rfl _).bind fun _ => .pure _

theorem isQuiet_allocate (size : Nat) : (k.recording.slots.allocate size).IsQuiet :=
  (isQuiet_readWord 0).bind fun _ => (Run.IsQuiet.recordAs rfl _).bind fun _ => .pure _

theorem isQuiet_writeSlot (layout : k.codec.HasRoom) (address n : Int) :
    (k.recording.slots.writeSlot address n).IsQuiet := by
  obtain ⟨bs, encoded, -, -⟩ := Slot.Codec.decode_encode layout n
  have write : k.recording.slots.writeSlot address n =
      (k.sandbox.memory.write address bs).recordAs (.write address bs) := by
    rw [Slots.writeSlot, show k.recording.slots.codec = k.codec from rfl, encoded]
    rfl
  rw [write]
  exact .recordAs rfl _

theorem isQuiet_setCursor (n : Int) : (k.recording.slots.setCursor n).IsQuiet := .recordAs rfl _

theorem isSilent_readValues (count index : Nat) :
    (k.recording.readValues count index).IsSilent := by
  induction count generalizing index with
  | zero => exact .ofResult (.ok [])
  | succ count ih =>
    rw [readValues, exports_recording]
    refine (Run.IsQuiet.recordAs rfl _).isSilent.bind fun address => ?_
    refine Run.IsSilent.bind ?_ fun v => (ih (index + 1)).bind fun _ => .ofResult (.ok _)
    exact (Run.IsQuiet.recordAs rfl _).isSilent.bind fun _ => .ofResult _

/-- The values of a witness are read without a transfer. -/
theorem isSilent_collect : k.recording.collect.IsSilent := by
  rw [collect, exports_recording]
  exact (Run.IsQuiet.recordAs rfl _).isSilent.bind fun count => isSilent_readValues count.toNat 0

end Witness.Calculator

end Snark
