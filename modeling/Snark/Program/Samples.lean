import Snark.Bn254.Field
import Snark.Program.Module

/-!
# Sample programs

A few small programs in the form of modules. `multiplier` multiplies two inputs of one word each.
`chatty` stores whatever it is given, tells its host about everything it does, and raises an error
or traps on certain values. The others lack exports, or cannot be made into an instance at all.
-/

namespace Snark.Module.Samples

/-- The address of the prime. -/
def primeAddress : Nat := 16

/-- The address of the message of an error. -/
def messageAddress : UInt32 := 64

/-- The length of a slot. -/
def slotSize : Nat := 40

/-- The address of the slot of signal zero. -/
def slots : UInt32 := 256

/-- The address of the slot of a signal. -/
def slotOf (signal : UInt32) : UInt32 := slots + signal * 40

/-- The image of a memory: the cursor, the prime and the message of an error. -/
def image (cursor : Nat) (message : String) : List (Nat × Bytes) :=
  [(0, Bytes.ofNat 4 cursor), (primeAddress, Bytes.ofNat 32 scalarOrder),
    (messageAddress.toNat, message.toUTF8.toList ++ [0])]

/-- The functions that tell the layout of a program, whose slots all have the same length. -/
def layout (witnessSize buffer : UInt32) : List Function := [
  constant "getFrLen" 40,
  constant "getPRawPrime" 16,
  constant "getNVars" witnessSize,
  constant "getWitnessBuffer" buffer,
  { name := "getPWitness"
    arity := 1
    body := fun
      | _, [index] => return some (slotOf index)
      | _, _ => trap "getPWitness" }]

/-- Raises an error with words for operands. -/
def alarm (host : Host Instance) (code message a b c d : UInt32) : Run Instance Unit :=
  host.raise ⟨signed code, signed message, signed a, signed b, signed c, signed d⟩

namespace Multiplier

/-- Clears the slots, sets the constant signal, and keeps the flag for checks. -/
def init : Host Instance → List UInt32 → Run Instance (Option UInt32)
  | _, [sanity] => do
    Run.update fun s => { s with register := sanity }
    clear "init" slots 160
    store "init" slots 1
    return none
  | _, _ => trap "init"

/-- The inputs are `a` and `b`. -/
def locate : Host Instance → List UInt32 → Run Instance (Option UInt32)
  | host, [address, _, high, low] => do
    if high = 0xaf63dc4c && low = 0x8601ec8c then
      store "getSignalOffset32" address 2
    else if high = 0xaf63df4c && low = 0x8601f1a5 then
      store "getSignalOffset32" address 3
    else
      alarm host 1 messageAddress high low 0 0
    return none
  | _, _ => trap "getSignalOffset32"

/-- Takes the slot of a signal, and multiplies the first words of the two inputs. -/
def setSignal : Host Instance → List UInt32 → Run Instance (Option UInt32)
  | host, [_, _, signal, address] => do
    copy "setSignal" (slotOf signal) address slotSize
    if (← Run.program).register ≠ 0 then
      host.notify (.setSignal (signed signal) (signed address))
    let x ← load "setSignal" (slotOf 2)
    let y ← load "setSignal" (slotOf 3)
    store "setSignal" (slotOf 1) (x * y)
    return none
  | _, _ => trap "setSignal"

end Multiplier

/-- The product of two inputs of one word each. -/
def multiplier : Module where
  pages := 1
  image := image 1024 "Signal not found"
  functions := [⟨"init", 1, Multiplier.init⟩, ⟨"getSignalOffset32", 4, Multiplier.locate⟩,
    ⟨"setSignal", 4, Multiplier.setSignal⟩] ++ layout 4 slots

namespace Chatty

/-- Clears the slots, sets the constant signal, and tells about both. -/
def init : Host Instance → List UInt32 → Run Instance (Option UInt32)
  | host, [_] => do
    clear "init" slots 120
    store "init" slots 1
    host.notify (.startComponent 5)
    host.notify (.log (signed slots))
    return none
  | _, _ => trap "init"

/-- Every input has the same signal. -/
def locate : Host Instance → List UInt32 → Run Instance (Option UInt32)
  | _, [address, _, _, _] => do
    store "getSignalOffset32" address 1
    return none
  | _, _ => trap "getSignalOffset32"

/-- Takes the slot of a signal unless its first word is one of a few that end the run. -/
def setSignal : Host Instance → List UInt32 → Run Instance (Option UInt32)
  | host, [_, _, signal, address] => do
    let v ← load "setSignal" address
    host.notify (.getSignal (signed signal) (signed address))
    if v = 13 then alarm host 7 messageAddress 9 address slots 8
    if v = 14 then alarm host 3 messageAddress 1 (-2) 3 4
    if v = 15 then alarm host 4 0 1 2 3 4
    if v = 16 then trap "setSignal"
    copy "setSignal" (slotOf signal) address slotSize
    host.notify (.setSignal (signed signal) (signed (slotOf signal)))
    host.notify (.finishComponent (signed signal))
    return none
  | _, _ => trap "setSignal"

end Chatty

/-- A program that tells its host about everything. -/
def chatty : Module where
  pages := 1
  image := image 2048 "bad value"
  functions := [⟨"init", 1, Chatty.init⟩, ⟨"getSignalOffset32", 4, Chatty.locate⟩,
    ⟨"setSignal", 4, Chatty.setSignal⟩] ++ layout 3 (-16)

/-- A program without exports. -/
def empty : Module := ⟨0, [], []⟩

/-- A program that needs four pages. -/
def bigMemory : Module := ⟨4, [], [constant "getNVars" (-1)]⟩

/-- A program over another field. -/
def badPrime : Module :=
  ⟨1, [(primeAddress, [97])], [constant "getFrLen" 40, constant "getPRawPrime" 16]⟩

/-- A program whose slots have no room for a limb. -/
def shortSlots : Module := ⟨0, [], [constant "getFrLen" 11]⟩

/-- The sample of a name, or what becomes of the attempt to make a module of it. -/
def named? : String → Option (Result Module)
  | "multiplier" => some (.ok multiplier)
  | "chatty" => some (.ok chatty)
  | "empty" => some (.ok empty)
  | "big_memory" => some (.ok bigMemory)
  | "bad_prime" => some (.ok badPrime)
  | "short_fr" => some (.ok shortSlots)
  | "garbage" => some (.error (.program .invalid))
  | "needs_more" => some (.error (.program .unlinkable))
  | "start_trap" => some (.error (.program .unlinkable))
  | _ => none

end Snark.Module.Samples
