import Snark.Failure

/-!
# Sandboxed programs

A witness program runs in a sandbox. The host calls its exports and reads and writes its memory;
while it runs the program can raise an error, and it can notify the host of what it does. All of
that happens in `Run`, where a failure keeps the state that the program has reached. The exports of
a program depend on the host that they report to.
-/

namespace Snark

/-- What a program tells while it runs; a value is given by the address of its slot. -/
inductive Notice
  | getSignal (signal address : Int)
  | setSignal (signal address : Int)
  | log (address : Int)
  | startComponent (component : Int)
  | finishComponent (component : Int)
  deriving DecidableEq, Repr

/-- The kinds of what a program tells. -/
inductive NoticeKind
  | getSignal
  | setSignal
  | log
  | startComponent
  | finishComponent
  deriving DecidableEq, Repr

/-- What an observer has seen: a notice with the value in place of its address. -/
inductive Event
  | getSignal (signal value : Int)
  | setSignal (signal value : Int)
  | log (value : Int)
  | startComponent (component : Int)
  | finishComponent (component : Int)
  deriving DecidableEq, Repr

/-- The kind of a notice. -/
def Notice.kind : Notice → NoticeKind
  | getSignal _ _ => .getSignal
  | setSignal _ _ => .setSignal
  | log _ => .log
  | startComponent _ => .startComponent
  | finishComponent _ => .finishComponent

/-- An error that a program raises, with the address of its message and four operands. -/
structure Alarm where
  code : Int
  message : Int
  a : Int
  b : Int
  c : Int
  d : Int
  deriving DecidableEq, Repr

/-- The state of a program and what its observers have seen so far. -/
structure Machine (σ : Type) where
  program : σ
  events : List Event

/-- A computation on a machine. The state is kept where it fails. -/
abbrev Run (σ α : Type) := ExceptT Failure (StateM (Machine σ)) α

namespace Run

variable {σ α : Type}

/-- The state of the program. -/
def program : Run σ σ := do
  return (← get).program

/-- Changes the state of the program. -/
def update (f : σ → σ) : Run σ Unit := modify fun m => { m with program := f m.program }

/-- Adds to what the observers have seen. -/
def record (e : Event) : Run σ Unit := modify fun m => { m with events := m.events ++ [e] }

/-- The outcome of a computation that does not touch the machine. -/
def ofResult (r : Result α) : Run σ α :=
  match r with
  | .ok a => pure a
  | .error e => throw e

/-- The outcome of a computation whose only failures are faults. -/
def ofFault (r : Except Fault α) : Run σ α := ofResult (Result.ofFault r)

/-- Runs `x` and then, whatever came of it, `restore`. A failure of `restore` is what is reported;
otherwise the outcome is that of `x`. -/
def ensuring (x : Run σ α) (restore : Run σ Unit) : Run σ α := fun m =>
  match x m with
  | (outcome, m) =>
    match restore m with
    | (.ok _, m) => (outcome, m)
    | (.error e, m) => (.error e, m)

end Run

/-- Access to the memory of a program. -/
structure Access (σ : Type) where
  read : (address length : Int) → Run σ Bytes
  write : (address : Int) → Bytes → Run σ Unit

/-- What a program can ask of its host. -/
structure Host (σ : Type) where
  /-- The failure that an error of the program amounts to. -/
  failure : Alarm → Run σ Failure
  /-- Takes note of what the program does. -/
  notify : Notice → Run σ Unit

namespace Host

variable {σ α : Type}

/-- Where no host is listening, an error has no message and notices are lost. -/
def absent : Host σ where
  failure e := pure (.program (.raised e.code [] [e.a, e.b, e.c, e.d]))
  notify _ := pure ()

/-- Ends the run with an error of the program. -/
def raise (host : Host σ) (e : Alarm) : Run σ α := do
  throw (← host.failure e)

end Host

/-- The functions that a witness program offers. -/
structure Exports (σ : Type) where
  /-- Starts a computation, with or without the checks of the program. -/
  init : (sanity : Bool) → Run σ Unit
  /-- Writes where the values of the signal with the given hash belong to the given address. -/
  locate : (address component high low : Int) → Run σ Unit
  /-- Takes the value in the slot at the given address for a signal. -/
  setSignal : (row component signal address : Int) → Run σ Unit
  /-- The address of a slot with a value of the witness. -/
  witnessSlot : (index : Int) → Run σ Int
  /-- The length of a slot. -/
  slotLength : Run σ Int
  /-- The address of the prime. -/
  primeAddress : Run σ Int
  /-- The number of values of the witness. -/
  witnessSize : Run σ Int
  /-- The address of all values of the witness in a row. -/
  witnessBuffer : Run σ Int

/-- A program in its sandbox. -/
structure Sandbox (σ : Type) where
  memory : Access σ
  exports : Host σ → Exports σ

end Snark
