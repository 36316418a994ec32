import Snark.Sandbox.Memory
import Snark.Sandbox.Slots

/-!
# Scripted programs

A witness program given by a script instead of code: a table of signal names by hash, and rules that
compute signals from others. A rule fires once, as soon as all the signals it needs have values. The
program lives in a byte memory like any other. The cursor is at address zero, the prime behind it,
then the messages; the slots of the signals and the buffer of the witness follow.
-/

namespace Snark.Scripted

/-- How the value of a signal is laid out in its slot. -/
inductive Form
  /-- The shortest form that holds the value. -/
  | shortest
  | montgomery
  /-- The long form, with the prime added to the value. -/
  | unreduced
  deriving DecidableEq, Repr

/-- A field operation. -/
inductive Operation
  | mul
  | add
  | sub
  deriving DecidableEq, Repr

/-- The result of an operation on integers. -/
def Operation.apply : Operation → Int → Int → Int
  | mul, x, y => x * y
  | add, x, y => x + y
  | sub, x, y => x - y

/-- What a rule does. Signals and messages are given by number, and message zero is none. -/
inductive Action
  | compute (op : Operation) (out x y : Int)
  | log (signal : Int)
  | get (signal : Int)
  | start (component : Int)
  | finish (component : Int)
  /-- Raises an error unless two signals have the same value. -/
  | equate (x y code message : Int)
  | error (code message a b c d : Int)
  deriving DecidableEq, Repr

/-- Actions that wait for the values of some signals. -/
structure Rule where
  needs : List Int
  actions : List Action
  deriving DecidableEq, Repr

/-- A program. -/
structure Script where
  prime : Int
  limbs : Int
  memory : Nat
  slotLength : Int
  witnessSize : Int
  cursor : Int
  /-- The signals of the inputs by the halves of their hashes; the last entry of a hash counts. -/
  signals : List ((Int × Int) × Int)
  messages : List Bytes
  /-- The code and the message of the error for an unknown signal. -/
  missing : Int × Int
  /-- The forms of the witness slots, taken in turn. -/
  forms : List Form
  rules : List Rule
  deriving Repr

/-- The state of a program. -/
structure State where
  memory : Memory
  /-- The values of the signals, the latest first. -/
  values : List (Int × Int)
  /-- The input values taken so far. -/
  received : List (Int × Int)
  /-- The numbers of the rules that have fired. -/
  fired : List Nat
  sanity : Option Bool

/-- The address of the prime. -/
def primeAddress : Int := 16

/-- The address of the first message. -/
def messageAddress : Nat := 256

/-- The address of the slot of signal zero. -/
def slotAddress : Int := 4096

/-- The address of the buffer of the witness. -/
def bufferAddress : Int := 8192

/-- Access to the memory of a program. -/
def access : Access State := Memory.access State.memory (fun m s => { s with memory := m }) false

/-- The messages with their terminators, each at its address. -/
def layMessages : (address : Nat) → List Bytes → List (Nat × Bytes)
  | _, [] => []
  | address, text :: rest =>
    (address, text ++ [0]) :: layMessages (address + text.length + 1) rest

namespace Script

/-- The addresses of the messages, with address zero for message zero. -/
def messageAddresses (p : Script) : List Int :=
  0 :: (layMessages messageAddress p.messages).map fun m => (m.1 : Int)

/-- Lays out the cursor, a record of one field at the start of the memory. A memory too short for
the record is a fault of the record, and not a refused access. -/
def layCursor (p : Script) : Run State Unit := do
  let record ← Run.ofFault (Bytes.field? 4 p.cursor)
  if !(← Run.program).memory.covers 0 record.length then
    throw (.fault .recordRoom)
  access.write 0 record

/-- Lays out the prime. There has to be room for all its limbs, but of a blank memory only the bytes
that the prime takes have to be written. -/
def layPrime (p : Script) : Run State Unit := do
  let width ← Run.ofFault (Bytes.length? (p.limbs * 4))
  let length := Bytes.lengthOf p.prime.toNat
  if p.prime < 0 || width < length then
    throw (.fault .doesNotFit)
  let memory := (← Run.program).memory
  if !memory.covers primeAddress width then
    throw (memory.refusal primeAddress width false)
  access.write primeAddress (Bytes.ofNat length p.prime.toNat)

/-- The memory of a program before it is started. -/
def initialMemory (p : Script) : Run State Unit := do
  p.layCursor
  p.layPrime
  (layMessages messageAddress p.messages).forM fun m => access.write m.1 m.2

/-- The layout of the field elements of a program. -/
def codec (p : Script) : Except Fault Slot.Codec := Slot.Codec.make p.prime p.limbs

/-- The state of a program before it is started. -/
def load (p : Script) : Result State := do
  let _ ← Result.ofFault p.codec
  let blank : State := ⟨.zeros p.memory, [], [], [], none⟩
  match (p.initialMemory).run.run ⟨blank, []⟩ with
  | (.ok _, m) => return m.program
  | (.error e, _) => throw e

end Script

/-- A program with the layout of its field elements. -/
structure Program where
  script : Script
  codec : Slot.Codec

namespace Program

/-- The value of a signal, zero if it has none. -/
def valueOf (s : State) (signal : Int) : Int := (s.values.lookup signal).getD 0

/-- Sets the value of a signal. -/
def assign (signal v : Int) : Run State Unit :=
  Run.update fun s => { s with values := (signal, v) :: s.values }

/-- The address of the slot of a signal. -/
def addressOf (p : Program) (signal : Int) : Int := slotAddress + signal * p.codec.size

/-- The slot of a value in some form. -/
def slotOf (p : Program) (form : Form) (v : Int) : Except Fault Bytes :=
  match form with
  | .shortest => p.codec.encode v false
  | .montgomery => p.codec.encode v true
  | .unreduced => do
    let body ← Bytes.ofInt? (p.codec.limbs * 4) (v + p.codec.prime)
    return Bytes.ofNat 4 0 ++ Bytes.ofNat 4 Slot.longFlag ++ body

/-- Writes the slot of a signal, and returns its address. -/
def expose (p : Program) (form : Form) (signal : Int) : Run State Int := do
  let v := valueOf (← Run.program) signal
  let address := p.addressOf signal
  access.write address (← Run.ofFault (p.slotOf form v))
  return address

/-- The address of the message of the given number. -/
def messageOf (p : Program) (message : Int) : Run State Int :=
  Run.ofFault (Position.get p.script.messageAddresses message)

/-- Raises an error with the message of the given number. -/
def alarm (p : Program) (host : Host State) (code message a b c d : Int) : Run State Unit := do
  host.raise ⟨code, ← p.messageOf message, a, b, c, d⟩

/-- Tells that a signal has been set, if the program runs with its checks. -/
def notifySet (host : Host State) (signal address : Int) : Run State Unit := do
  if (← Run.program).sanity = some true then
    host.notify (.setSignal signal address)

/-- Performs an action. -/
def perform (p : Program) (host : Host State) : Action → Run State Unit
  | .compute op out x y => do
    let s ← Run.program
    assign out (Int.fmod (op.apply (valueOf s x) (valueOf s y)) p.codec.prime)
    notifySet host out (← p.expose .shortest out)
  | .log signal => do host.notify (.log (← p.expose .shortest signal))
  | .get signal => do host.notify (.getSignal signal (← p.expose .shortest signal))
  | .start component => host.notify (.startComponent component)
  | .finish component => host.notify (.finishComponent component)
  | .equate x y code message => do
    let s ← Run.program
    if valueOf s x ≠ valueOf s y then
      let text ← p.messageOf message
      let ax ← p.expose .shortest x
      let ay ← p.expose .shortest y
      host.raise ⟨code, text, 0, ax, ay, 0⟩
  | .error code message a b c d => p.alarm host code message a b c d

/-- Whether a rule can fire. -/
def isReady (s : State) (rule : Rule) (number : Nat) : Bool :=
  !s.fired.contains number && rule.needs.all fun signal => (s.values.lookup signal).isSome

/-- One pass over the rules, from the first of the given ones on. Tells whether one has fired; a
rule counts as fired even where its actions fail. -/
def pass (p : Program) (host : Host State) : List (Rule × Nat) → Run State Bool
  | [] => return false
  | (rule, number) :: rest => do
    if isReady (← Run.program) rule number then
      Run.update fun s => { s with fired := number :: s.fired }
      rule.actions.forM (p.perform host)
      let _ ← pass p host rest
      return true
    else
      pass p host rest

/-- Passes over the rules until one of them fires none. Each other pass fires a rule that has not
fired before, so `steps` need not exceed the number of rules by more than one. -/
def settle (p : Program) (host : Host State) : (steps : Nat) → Run State Unit
  | 0 => return
  | steps + 1 => do
    if ← p.pass host p.script.rules.zipIdx then
      settle p host steps

/-- Starts a computation. -/
def init (sanity : Bool) : Run State Unit :=
  Run.update fun s =>
    { s with values := [(0, 1)], received := [], fired := [], sanity := some sanity }

/-- Writes the signal of a hash to an address. -/
def locate (p : Program) (host : Host State) (address high low : Int) : Run State Unit := do
  match p.script.signals.reverse.lookup (high, low) with
  | some signal => access.write address (← Run.ofFault (Bytes.field? 4 signal))
  | none => p.alarm host p.script.missing.1 p.script.missing.2 high low 0 0

/-- Takes the value of an input signal, and fires the rules that it enables. -/
def setSignal (p : Program) (host : Host State) (signal address : Int) : Run State Unit := do
  let v ← Run.ofFault (p.codec.decode (← access.read address p.codec.size))
  assign signal v
  Run.update fun s => { s with received := s.received ++ [(signal, v)] }
  notifySet host signal address
  p.settle host (p.script.rules.length + 1)

/-- Writes the slot of a value of the witness, and returns its address. -/
def witnessSlot (p : Program) (index : Int) : Run State Int := do
  if p.script.forms.isEmpty then
    throw (.fault .divisionByZero)
  let form ← Run.ofFault
    (Position.get p.script.forms (Int.fmod index p.script.forms.length))
  p.expose form index

/-- Writes all values of the witness in a row, and returns their address. Without room for all of
them nothing is written. -/
def witnessBuffer (p : Program) : Run State Int := do
  let s ← Run.program
  let width := p.codec.wide * 8
  let count := p.script.witnessSize.toNat
  if !s.memory.covers bufferAddress (count * width : Nat) then
    throw (s.memory.refusal bufferAddress (count * width : Nat) false)
  let values ← Run.ofFault <| (List.range count).mapM fun (i : Nat) =>
    Bytes.ofInt? width (valueOf s i)
  access.write bufferAddress values.flatten
  return bufferAddress

/-- The exports of a program. -/
def exports (p : Program) (host : Host State) : Exports State where
  init := init
  locate address _ high low := p.locate host address high low
  setSignal _ _ signal address := p.setSignal host signal address
  witnessSlot := p.witnessSlot
  slotLength := pure p.script.slotLength
  primeAddress := pure primeAddress
  witnessSize := pure p.script.witnessSize
  witnessBuffer := p.witnessBuffer

/-- The program in its sandbox. -/
def sandbox (p : Program) : Sandbox State := ⟨access, p.exports⟩

end Program

end Snark.Scripted
