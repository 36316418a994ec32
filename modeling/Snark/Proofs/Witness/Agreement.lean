import Snark.Proofs.Sandbox.Agreement
import Snark.Witness.Calculator

/-!
# Calculators that agree

A calculator only looks at a program through the accesses to its memory and through its exports.
Where these agree for two programs, so does everything that a calculator does with them. The proofs
follow the protocol step by step; the relation of the machines is up to whoever uses them.
-/

namespace Snark.Witness.Calculator

variable {σ τ : Type} {R : Machine σ → Machine τ → Prop}

/-- Two calculators drive programs that agree, in the same way. -/
structure Agree (R : Machine σ → Machine τ → Prop) (k : Calculator σ) (l : Calculator τ) :
    Prop where
  slots : k.slots.Agree R l.slots
  exports : k.exports.Agree R l.exports
  observed : k.observed = l.observed
  sanity : k.sanity = l.sanity

section Host

variable {s : Slots σ} {t : Slots τ}

theorem agree_failureOf (h : s.Agree R t) (e : Alarm) :
    Run.Agree R (failureOf s e) (failureOf t e) := by
  refine .ite ((Run.Agree.pure []).bind fun text => ?_) ((h.readText _ _).bind fun text => ?_)
  all_goals
    exact .ite ((h.readSlot e.b).bind fun _ => (h.readSlot e.c).bind fun _ => .pure _) (.pure _)

theorem agree_eventOf (h : s.Agree R t) (n : Notice) :
    Run.Agree R (eventOf s n) (eventOf t n) := by
  cases n with
  | getSignal signal address => exact (h.readSlot address).bind fun _ => .pure _
  | setSignal signal address => exact (h.readSlot address).bind fun _ => .pure _
  | log address => exact (h.readSlot address).bind fun _ => .pure _
  | startComponent c => exact .pure _
  | finishComponent c => exact .pure _

/-- The notices of two programs are taken down alike, if machines stay related when both of them
record the same. -/
theorem agree_notify {k : Calculator σ} {l : Calculator τ} (h : k.slots.Agree R l.slots)
    (observed : k.observed = l.observed)
    (record : ∀ e, Run.Agree R (Run.record e) (Run.record e)) (n : Notice) :
    Run.Agree R (k.host.notify n) (l.host.notify n) := by
  simp only [host, observed]
  split
  · exact (agree_eventOf h n).bind record
  · exact .pure ()

end Host

/-- Takes scratch space and hands over all inputs, which is a run without the start of the
program. -/
def fill (k : Calculator σ) (inputs : Inputs) : Run σ Unit := do
  let scratch ← k.slots.allocateWord
  let slot ← k.slots.allocateSlot
  k.feed scratch slot inputs

theorem run_eq (k : Calculator σ) (inputs : Inputs) (sanity : Bool) :
    k.run inputs sanity =
      k.exports.init (sanity || k.sanity || k.isObserving) >>= fun _ => k.fill inputs := rfl

/-- What is done with the witness behind a run: its values are read one by one. -/
def collect (k : Calculator σ) : Run σ (List Int) := do
  let count ← k.exports.witnessSize
  k.readValues count.toNat 0

/-- What is done with the witness behind a run: its bytes are read in one piece. -/
def collectBytes (k : Calculator σ) : Run σ Bytes := do
  let address ← k.exports.witnessBuffer
  let count ← k.exports.witnessSize
  k.sandbox.memory.read address (count * k.codec.wide * 8)

theorem witness_eq (k : Calculator σ) (inputs : Inputs) (sanity : Bool) :
    k.witness inputs sanity = k.keepingCursor (k.run inputs sanity >>= fun _ => k.collect) := rfl

theorem witnessBytes_eq (k : Calculator σ) (inputs : Inputs) (sanity : Bool) :
    k.witnessBytes inputs sanity =
      k.keepingCursor (k.run inputs sanity >>= fun _ => k.collectBytes) := rfl

namespace Agree

variable {k : Calculator σ} {l : Calculator τ}

theorem codec (h : Agree R k l) : k.codec = l.codec := h.slots.codec

theorem locate (h : Agree R k l) (scratch : Nat) (name : Text) :
    Run.Agree R (k.locate scratch name) (l.locate scratch name) := by
  refine (Run.Agree.ofResult _).bind fun hash => ?_
  refine Run.Agree.bind ?_ fun _ => h.slots.readWord scratch
  refine (h.exports.locate scratch 0 hash.1 hash.2).tryCatch fun e => ?_
  cases e <;> exact .throw _

theorem deliver (h : Agree R k l) (slot : Nat) (signal : Int) (values : List Int) :
    Run.Agree R (k.deliver slot signal values) (l.deliver slot signal values) := by
  induction values generalizing signal with
  | nil => exact .pure ()
  | cons v rest ih =>
    rw [Calculator.deliver, Calculator.deliver, h.codec]
    exact (h.slots.writeSlot slot _).bind fun _ =>
      (h.exports.setSignal 0 0 signal slot).bind fun _ => ih (signal + 1)

theorem feed (h : Agree R k l) (scratch slot : Nat) (inputs : Inputs) :
    Run.Agree R (k.feed scratch slot inputs) (l.feed scratch slot inputs) := by
  induction inputs with
  | nil => exact .pure ()
  | cons input rest ih =>
    exact (h.locate scratch input.1).bind fun base => (Run.Agree.ofResult _).bind fun values =>
      (h.deliver slot base values).bind fun _ => ih

theorem fill (h : Agree R k l) (inputs : Inputs) :
    Run.Agree R (k.fill inputs) (l.fill inputs) := by
  rw [Calculator.fill, Calculator.fill, Slots.allocateSlot, Slots.allocateSlot, h.slots.codec]
  exact (h.slots.allocate 8).bind fun scratch => (h.slots.allocate _).bind fun slot =>
    h.feed scratch slot inputs

theorem run (h : Agree R k l) (inputs : Inputs) (sanity : Bool) :
    Run.Agree R (k.run inputs sanity) (l.run inputs sanity) := by
  rw [run_eq, run_eq, isObserving, isObserving, h.observed, h.sanity]
  exact (h.exports.init _).bind fun _ => h.fill inputs

theorem readValues (h : Agree R k l) (count index : Nat) :
    Run.Agree R (k.readValues count index) (l.readValues count index) := by
  induction count generalizing index with
  | zero => exact .pure []
  | succ count ih =>
    exact (h.exports.witnessSlot index).bind fun address => (h.slots.readSlot address).bind fun _ =>
      (ih (index + 1)).bind fun _ => .pure _

theorem collect (h : Agree R k l) : Run.Agree R k.collect l.collect :=
  h.exports.witnessSize.bind fun count => h.readValues count.toNat 0

theorem collectBytes (h : Agree R k l) : Run.Agree R k.collectBytes l.collectBytes := by
  rw [Calculator.collectBytes, Calculator.collectBytes, h.codec]
  exact h.exports.witnessBuffer.bind fun address => h.exports.witnessSize.bind fun _ =>
    h.slots.memory.read address _

theorem witness (h : Agree R k l) (inputs : Inputs) (sanity : Bool) :
    Run.Agree R (k.witness inputs sanity) (l.witness inputs sanity) :=
  (h.slots.readWord 0).bind fun start =>
    ((h.run inputs sanity).bind fun _ => h.collect).ensuring (h.slots.writeWord 0 start)

end Agree

end Snark.Witness.Calculator
