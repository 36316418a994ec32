import Snark.Curve
import Snark.Fnv
import Snark.Sandbox.Slots
import Snark.Witness.Input

/-!
# Witness calculator

The calculator drives a witness program. It looks up every named input by the hash of its name,
hands the values over one at a time through a scratch slot, and reads back the values of all wires.
Whatever happens, the allocation cursor of the program ends where it started.
-/

namespace Snark.Witness

/-- Named input values in the order in which they are given to a program. -/
abbrev Inputs := List (Text × Json.Value)

/-- A program with what is needed to drive it. -/
structure Calculator (σ : Type) where
  sandbox : Sandbox σ
  codec : Slot.Codec
  /-- The kinds of notices that are observed. -/
  observed : List NoticeKind
  /-- Whether the program runs its checks even if they are not asked for. -/
  sanity : Bool
  /-- The number of values of the witness when the calculator was made. -/
  witnessSize : Int

namespace Calculator

variable {σ : Type}

/-- The memory of the program. -/
def slots (k : Calculator σ) : Slots σ := ⟨k.sandbox.memory, k.codec⟩

/-- Whether anything is observed. -/
def isObserving (k : Calculator σ) : Bool := !k.observed.isEmpty

/-- The code of the error that compares two values by the addresses of their slots. -/
def comparisonFailed : Int := 7

/-- The message of an error: the text that the program gives, and the operands after it. -/
def alarmMessage (text operands : Text) : Text := Text.trim (text ++ " " ++ operands)

/-- The failure that an error of a program amounts to. -/
def failureOf (s : Slots σ) (e : Alarm) : Run σ Failure := do
  let text ← if e.message = 0 then pure [] else s.readText e.message Slots.textLimit
  if e.code = comparisonFailed then
    let x ← s.readSlot e.b
    let y ← s.readSlot e.c
    return .program (.raised e.code (alarmMessage text s!"{x} != {y}") [x, y])
  else
    let message := alarmMessage text s!"{e.a} {e.b} {e.c} {e.d}"
    return .program (.raised e.code message [e.a, e.b, e.c, e.d])

/-- What an observer sees of a notice. -/
def eventOf (s : Slots σ) : Notice → Run σ Event
  | .getSignal signal address => do return .getSignal signal (← s.readSlot address)
  | .setSignal signal address => do return .setSignal signal (← s.readSlot address)
  | .log address => do return .log (← s.readSlot address)
  | .startComponent c => return .startComponent c
  | .finishComponent c => return .finishComponent c

/-- The host of a program in the hands of a calculator. -/
def host (k : Calculator σ) : Host σ where
  failure e := failureOf k.slots e
  notify n := do
    if k.observed.contains n.kind then
      Run.record (← eventOf k.slots n)

/-- The exports of the program, with the calculator for a host. -/
def exports (k : Calculator σ) : Exports σ := k.sandbox.exports k.host

/-- The number of limbs of a slot of the given length. -/
def limbsOf (length : Int) : Int := length / 4 - 2

/-- Takes a program in hand. Its field has to be the scalar field of the curve; the program has no
host before that is known. -/
def make (sandbox : Sandbox σ) (curve : CurveParams) (observed : List NoticeKind)
    (sanity : Bool) : Run σ (Calculator σ) := do
  let program := sandbox.exports .absent
  let limbs := limbsOf (← program.slotLength)
  if limbs ≤ 0 then
    throw (.program (.slotLength (← program.slotLength)))
  let prime := Bytes.toNat (← sandbox.memory.read (← program.primeAddress) (limbs * 4))
  if (prime : Int) ≠ curve.r then
    throw (.programPrime prime curve.name)
  let codec ← Run.ofFault (Slot.Codec.make prime limbs)
  let witnessSize ← program.witnessSize
  return { sandbox, codec, observed, sanity, witnessSize }

/-- Asks the program where the values of a named input belong. -/
def locate (k : Calculator σ) (scratch : Nat) (name : Text) : Run σ Nat := do
  let hash ← Run.ofFault (Fnv.ofName name)
  tryCatch (k.exports.locate scratch 0 hash.1 hash.2) fun
    | .program cause => throw (.unknownSignal name hash cause)
    | e => throw e
  k.slots.readWord scratch

/-- Hands over values for the signals from `signal` on, each through the slot at `slot`. -/
def deliver (k : Calculator σ) (slot : Nat) : (signal : Int) → List Int → Run σ Unit
  | _, [] => return
  | signal, v :: rest => do
    k.slots.writeSlot slot (Int.fmod v k.codec.prime)
    k.exports.setSignal 0 0 signal slot
    deliver k slot (signal + 1) rest

/-- Hands over all inputs. -/
def feed (k : Calculator σ) (scratch slot : Nat) : Inputs → Run σ Unit
  | [] => return
  | (name, value) :: rest => do
    let base ← k.locate scratch name
    let values ← Run.ofFault (flatten value)
    k.deliver slot base values
    feed k scratch slot rest

/-- Starts the program and hands over all inputs. -/
def run (k : Calculator σ) (inputs : Inputs) (sanity : Bool) : Run σ Unit := do
  k.exports.init (sanity || k.sanity || k.isObserving)
  let scratch ← k.slots.allocateWord
  let slot ← k.slots.allocateSlot
  k.feed scratch slot inputs

/-- The values of the witness from the one of the given index on. -/
def readValues (k : Calculator σ) : (count index : Nat) → Run σ (List Int)
  | 0, _ => return []
  | count + 1, index => do
    let v ← k.slots.readSlot (← k.exports.witnessSlot index)
    return v :: (← readValues k count (index + 1))

/-- Runs `x`, and sets the cursor back afterwards. -/
def keepingCursor {α : Type} (k : Calculator σ) (x : Run σ α) : Run σ α := do
  let start ← k.slots.cursor
  Run.ensuring x (k.slots.setCursor start)

/-- The witness for some inputs, as integers. -/
def witness (k : Calculator σ) (inputs : Inputs) (sanity : Bool) : Run σ (List Int) :=
  k.keepingCursor do
    k.run inputs sanity
    let count ← k.exports.witnessSize
    k.readValues count.toNat 0

/-- The witness for some inputs, as scalars. -/
def witnessScalars (k : Calculator σ) (inputs : Inputs) (sanity : Bool) : Run σ (List Fr) := do
  return (← k.witness inputs sanity).map Residue.ofInt

/-- The witness for some inputs, as the bytes that the program lays out. -/
def witnessBytes (k : Calculator σ) (inputs : Inputs) (sanity : Bool) : Run σ Bytes :=
  k.keepingCursor do
    k.run inputs sanity
    let address ← k.exports.witnessBuffer
    let count ← k.exports.witnessSize
    k.sandbox.memory.read address (count * k.codec.wide * 8)

end Calculator

end Snark.Witness
