import Mathlib.Control.Lawful
import Snark.Proofs.Witness.Input
import Snark.Proofs.Witness.Making
import Snark.Proofs.Witness.Recording
import Snark.Proofs.Witness.Sample

/-!
# Delivery of input values

A run of a calculator looks every named input up and hands its values over one by one. The calls
that do so are read off a recorded run: one block of calls for every input, in the order of the
inputs, and in every block one call for every value, in row-major order. When a value is handed
over, the slot that is named in the call holds the residue of that value. A run that ends early
breaks off in the block of one input, after the blocks of all inputs in front of it.
-/

namespace Snark

namespace Call

variable {σ : Type}

/-- The call asks where the values of the input with the given hash belong. -/
def Asks (c : Call σ) (scratch : Nat) (name : Text) (hash : Nat × Nat) : Prop :=
  Fnv.ofName name = .ok hash ∧ c.request = .locate scratch 0 hash.1 hash.2

/-- The call has returned, and left in the offset slot that the values belong from `base` on. -/
def Places (c : Call σ) (s : Slots σ) (scratch base : Nat) : Prop :=
  c.Succeeds ∧ (s.readWord scratch c.after).1 = .ok base

/-- The call hands over the slot at an address for a signal, and at that moment the slot holds the
residue of `v`. -/
def Hands (c : Call σ) (s : Slots σ) (slot : Nat) (signal v : Int) : Prop :=
  c.request = .setSignal 0 0 signal slot ∧
    (s.readSlot slot c.before).1 = .ok (Int.fmod v s.codec.prime)

end Call

namespace Witness

variable {σ : Type}

/-- Values are handed over for the signals from `signal` on, one call for each. The outcome is a
success only where all of them have been taken. -/
structure Handover (s : Slots σ) (slot : Nat) (signal : Int) (values : List Int)
    (calls : List (Call σ)) (outcome : Result Unit) : Prop where
  counted : calls.length ≤ values.length
  each (i : Nat) (c : Call σ) (v : Int) (hc : calls[i]? = some c) (hv : values[i]? = some v) :
    c.Hands s slot (signal + i) v
  complete : outcome = .ok () → calls.length = values.length ∧ ∀ c ∈ calls, c.Succeeds

namespace Handover

variable {s : Slots σ} {slot : Nat} {signal v : Int} {values : List Int} {calls : List (Call σ)}
variable {c : Call σ} {outcome : Result Unit} {e : Failure}

theorem nil : Handover s slot signal [] [] (.ok ()) where
  counted := Nat.le_refl _
  each i c v hc _ := by simp at hc
  complete _ := by simp

theorem none : Handover s slot signal values [] (.error e) where
  counted := Nat.zero_le _
  each i c v hc _ := by simp at hc
  complete impossible := by cases impossible

theorem cons (hands : c.Hands s slot signal v) (taken : outcome = .ok () → c.Succeeds)
    (h : Handover s slot (signal + 1) values calls outcome) :
    Handover s slot signal (v :: values) (c :: calls) outcome where
  counted := Nat.succ_le_succ h.counted
  each i c' v' hc hv := by
    cases i with
    | zero =>
      rw [List.getElem?_cons_zero] at hc hv
      cases hc
      cases hv
      rwa [Nat.cast_zero, add_zero]
    | succ i =>
      rw [List.getElem?_cons_succ] at hc hv
      have shifted := h.each i c' v' hc hv
      rwa [add_assoc, add_comm 1, ← Nat.cast_succ] at shifted
  complete done := by
    obtain ⟨length, all⟩ := h.complete done
    exact ⟨congrArg Nat.succ length, List.forall_mem_cons.2 ⟨taken done, all⟩⟩

end Handover

/-- What is recorded while values are handed over: the handover, which comes to its end unless a
call has failed. -/
structure Delivered (s : Slots σ) (slot : Nat) (signal : Int) (values : List Int)
    (calls : List (Call σ)) (outcome : Result Unit) : Prop where
  handover : Handover s slot signal values (transfers calls) outcome
  total : AllSucceed calls → outcome = .ok ()

namespace Calculator

variable {k : Calculator σ} {contents : σ → Bytes}

/-- Once the slot holds the first of the values, that value is handed over, and then the others. -/
theorem traces_hand {slot : Nat} {signal v : Int} {values : List Int}
    (rest : (k.recording.deliver slot (signal + 1) values).Traces fun _ calls outcome _ =>
      Delivered k.slots slot (signal + 1) values calls outcome) :
    (k.recording.exports.setSignal 0 0 signal slot >>= fun _ =>
      k.recording.deliver slot (signal + 1) values).Traces fun m calls outcome _ =>
      (k.slots.readSlot slot m).1 = .ok (Int.fmod v k.codec.prime) →
        Delivered k.slots slot signal (v :: values) calls outcome := by
  rw [exports_recording]
  refine (Run.Traces.call (k.exports.setSignal 0 0 signal slot)).bind (fun _ => rest) ?_ ?_
  · rintro m _ e n rfl held
    constructor
    · refine .cons ⟨rfl, held⟩ ?_ .none
      intro impossible
      cases impossible
    · intro all
      have succeeds := all _ (List.mem_singleton.2 rfl)
      cases succeeds
  · rintro m _ ⟨⟩ mid calls' outcome n rfl ⟨handover, total⟩ held
    constructor
    · exact .cons ⟨rfl, held⟩ (fun _ => rfl) handover
    · exact fun all => total (allSucceed_append.1 all).2

section Steps

variable (acts : k.sandbox.memory.ActsOn contents) (layout : k.codec.HasRoom)
include acts layout

theorem traces_deliver (slot : Nat) (signal : Int) (values : List Int) :
    (k.recording.deliver slot signal values).Traces fun _ calls outcome _ =>
      Delivered k.slots slot signal values calls outcome := by
  -- The slot is written anew for every value, so what it holds is known only from that write up to
  -- the call behind it. No more than that has to be carried from one value to the next.
  induction values generalizing signal with
  | nil => exact Run.Traces.pure fun _ => ⟨.nil, fun _ => rfl⟩
  | cons v values ih =>
    have write := Run.Traces.agree (isQuiet_writeSlot layout slot (Int.fmod v k.codec.prime))
      (k.agree_recording.slots.writeSlot slot _)
    have hand := traces_hand (v := v) (ih (signal + 1))
    refine write.bind (fun _ => hand) ?_ ?_
    · rintro m calls e n ⟨quiet, -⟩
      constructor
      · rw [quiet.silent]
        exact .none
      · intro all
        obtain ⟨_, impossible⟩ := quiet.total all
        cases impossible
    · rintro m calls ⟨⟩ mid calls' outcome n ⟨quiet, written⟩ next
      have held :
          (k.slots.readSlot slot (k.slots.writeSlot slot (Int.fmod v k.codec.prime) m).2).1 =
            .ok (Int.fmod (Int.fmod v k.codec.prime) k.codec.prime) :=
        Slots.readSlot_writeSlot acts layout (by rw [written])
      rw [written, Int.fmod_fmod] at held
      obtain ⟨handover, total⟩ := next held
      constructor
      · rwa [transfers_append, quiet.silent]
      · exact fun all => total (allSucceed_append.1 all).2

end Steps

end Calculator

/-- What is reported where an input cannot be looked up: an error of the program under the name of
the input, and any other failure as it is. -/
def reported (name : Text) (hash : Nat × Nat) : Failure → Failure
  | .program cause => .unknownSignal name hash cause
  | e => e

/-- What is recorded while an input is looked up: one call that asks for it. -/
structure LookedUp (s : Slots σ) (scratch : Nat) (name : Text) (hash : Nat × Nat)
    (lookup : Call σ) (calls : List (Call σ)) (outcome : Result Nat) : Prop where
  asks : lookup.Asks scratch name hash
  only : transfers calls = [lookup]
  refused (e : Failure) (h : lookup.outcome = .error e) : outcome = .error (reported name hash e)
  places (base : Nat) (h : outcome = .ok base) : lookup.Places s scratch base
  total : AllSucceed calls → ∃ base, outcome = .ok base

namespace Calculator

variable {k : Calculator σ}

/-- The call by which an input is looked up, before its answer is read. -/
theorem traces_ask (scratch : Nat) (name : Text) (hash : Nat × Nat) :
    (tryCatch (k.exports.recording.locate scratch 0 hash.1 hash.2) fun e =>
      throw (reported name hash e)).Traces fun _ calls outcome n =>
        ∃ lookup : Call σ, calls = [lookup] ∧ lookup.request = .locate scratch 0 hash.1 hash.2 ∧
          lookup.after = n ∧ outcome = lookup.outcome.mapError (reported name hash) := by
  refine (Run.Traces.call _).tryCatch (fun e => Run.Traces.ofResult
    (P := fun m calls outcome n => calls = [] ∧ n = m ∧ outcome = .error (reported name hash e))
    fun m => ⟨rfl, rfl, rfl⟩) ?_ ?_
  · rintro m _ ⟨⟩ n rfl
    exact ⟨_, rfl, rfl, rfl, rfl⟩
  · rintro m _ e mid _ _ _ rfl ⟨rfl, rfl, rfl⟩
    exact ⟨_, rfl, rfl, rfl, rfl⟩

/-- Looking an input up is asking for it and reading the answer. -/
theorem locate_eq {name : Text} {hash : Nat × Nat} (hashed : Fnv.ofName name = .ok hash)
    (scratch : Nat) : k.locate scratch name =
      (tryCatch (k.exports.locate scratch 0 hash.1 hash.2) fun e =>
        throw (reported name hash e)) >>= fun _ => k.slots.readWord scratch := by
  rw [locate, hashed]
  refine congrArg (fun handler : Failure → Run σ Unit =>
    tryCatch (k.exports.locate scratch 0 hash.1 hash.2) handler >>= fun _ =>
      k.slots.readWord scratch) (funext fun e => ?_)
  cases e <;> rfl

theorem traces_lookup {name : Text} {hash : Nat × Nat} (hashed : Fnv.ofName name = .ok hash)
    (scratch : Nat) :
    (k.recording.locate scratch name).Traces fun _ calls outcome _ =>
      ∃ lookup, LookedUp k.slots scratch name hash lookup calls outcome := by
  have read := Run.Traces.agree (isQuiet_readWord (k := k) scratch)
    (k.agree_recording.slots.readWord scratch)
  rw [locate_eq hashed, exports_recording]
  refine (traces_ask scratch name hash).bind (fun _ => read) ?_ ?_
  · rintro m _ e n ⟨lookup, rfl, request, -, outcome⟩
    refine ⟨lookup, ⟨hashed, request⟩, by simp [transfers, request, Request.isTransfer], ?_, ?_, ?_⟩
    · intro e' refused
      rw [refused] at outcome
      exact congrArg Except.error (Except.error.inj outcome)
    · intro base impossible
      cases impossible
    · intro all
      rw [all lookup (List.mem_singleton.2 rfl)] at outcome
      cases outcome
  · rintro m _ ⟨⟩ mid calls' outcome n ⟨lookup, rfl, request, rfl, returned⟩ ⟨quiet, word⟩
    have succeeds : lookup.Succeeds := by
      rw [Call.Succeeds]
      revert returned
      cases lookup.outcome with
      | ok _ => exact fun _ => rfl
      | error e =>
        intro impossible
        cases impossible
    refine ⟨lookup, ⟨hashed, request⟩, ?_, ?_, ?_, ?_⟩
    · rw [transfers_append, quiet.silent]
      simp [transfers, request, Request.isTransfer]
    · intro e refused
      rw [succeeds] at refused
      cases refused
    · intro base found
      exact ⟨succeeds, by rw [word, found]⟩
    · exact fun all => quiet.total (allSucceed_append.1 all).2

end Calculator

/-- The calls for one input and what comes of them: a name without a hash is not asked for; a lookup
may fail, or leave no answer behind; and from where the values belong they are handed over. -/
inductive Attempt (s : Slots σ) (scratch slot : Nat) (name : Text) (values : List Int) :
    List (Call σ) → Result Unit → Prop
  | nameless {fault : Fault} (h : Fnv.ofName name = .error fault) :
    Attempt s scratch slot name values [] (.error (.fault fault))
  | refused {lookup : Call σ} {hash : Nat × Nat} {e : Failure}
      (asks : lookup.Asks scratch name hash) (h : lookup.outcome = .error e) :
    Attempt s scratch slot name values [lookup] (.error (reported name hash e))
  | unplaced {lookup : Call σ} {hash : Nat × Nat} {e : Failure}
      (asks : lookup.Asks scratch name hash) (h : lookup.Succeeds) :
    Attempt s scratch slot name values [lookup] (.error e)
  | placed {lookup : Call σ} {hash : Nat × Nat} {base : Nat} {calls : List (Call σ)}
      {outcome : Result Unit} (asks : lookup.Asks scratch name hash)
      (places : lookup.Places s scratch base)
      (handover : Handover s slot base values calls outcome) :
    Attempt s scratch slot name values (lookup :: calls) outcome

/-- A block that ends well has no failing call in it. -/
theorem Attempt.succeeds {s : Slots σ} {scratch slot : Nat} {name : Text} {values : List Int}
    {block : List (Call σ)} (h : Attempt s scratch slot name values block (.ok ())) :
    AllSucceed block := by
  cases h with
  | placed _ places handover =>
    exact List.forall_mem_cons.2 ⟨places.1, (handover.complete rfl).2⟩

/-- A lookup that the program has refused with an error is the only call of its block, and its error
is reported under the name of the input. -/
theorem Attempt.eq_of_refused {s : Slots σ} {scratch slot : Nat} {name : Text} {values : List Int}
    {block : List (Call σ)} {outcome : Result Unit} {c : Call σ} {e : Failure}
    {address component high low : Int} (h : Attempt s scratch slot name values block outcome)
    (member : c ∈ block) (request : c.request = .locate address component high low)
    (refused : c.outcome = .error e) :
    block = [c] ∧ ∃ hash, c.Asks scratch name hash ∧ outcome = .error (reported name hash e) := by
  cases h with
  | nameless => cases member
  | refused asks h =>
    obtain rfl := List.mem_singleton.1 member
    rw [refused] at h
    cases h
    exact ⟨rfl, _, asks, rfl⟩
  | unplaced _ succeeds =>
    obtain rfl := List.mem_singleton.1 member
    rw [succeeds] at refused
    cases refused
  | placed _ places handover =>
    obtain rfl | member := List.mem_cons.1 member
    · rw [places.1] at refused
      cases refused
    · obtain ⟨i, hi, rfl⟩ := List.getElem_of_mem member
      have counted := Nat.lt_of_lt_of_le hi handover.counted
      obtain ⟨hands, -⟩ := handover.each i _ _ (List.getElem?_eq_getElem hi)
        (List.getElem?_eq_getElem counted)
      rw [request] at hands
      cases hands

/-- How the inputs of a run are delivered. Those in front are served, each by a block of calls that
ends well; then the run has come to its end, or it breaks off in the block of the next input. -/
structure Delivery (s : Slots σ) (scratch slot : Nat) (inputs : List (Text × Tree))
    (calls : List (Call σ)) (outcome : Result Unit) where
  served : List (Text × Tree)
  rest : List (Text × Tree)
  blocks : List (List (Call σ))
  last : List (Call σ)
  inputs_eq : inputs = served ++ rest
  calls_eq : calls = blocks.flatten ++ last
  serves : List.Forall₂ (fun input block =>
    Attempt s scratch slot input.1 input.2.values block (.ok ())) served blocks
  ends : (outcome = .ok () ∧ rest = [] ∧ last = []) ∨
    ∃ e, outcome = .error e ∧ (last = [] ∨ ∃ input others, rest = input :: others ∧
      Attempt s scratch slot input.1 input.2.values last (.error e))

namespace Delivery

variable {s : Slots σ} {scratch slot : Nat} {inputs : List (Text × Tree)} {calls : List (Call σ)}
variable {outcome : Result Unit} {input : Text × Tree}

/-- There is nothing to deliver. -/
def nil : Delivery s scratch slot [] [] (.ok ()) where
  served := []
  rest := []
  blocks := []
  last := []
  inputs_eq := rfl
  calls_eq := rfl
  serves := .nil
  ends := .inl ⟨rfl, rfl, rfl⟩

/-- Nothing is delivered. -/
def none (inputs : List (Text × Tree)) (e : Failure) :
    Delivery s scratch slot inputs [] (.error e) where
  served := []
  rest := inputs
  blocks := []
  last := []
  inputs_eq := rfl
  calls_eq := rfl
  serves := .nil
  ends := .inr ⟨e, rfl, .inl rfl⟩

/-- The first input breaks the run off. -/
def stopped {block : List (Call σ)} {e : Failure} (inputs : List (Text × Tree))
    (h : Attempt s scratch slot input.1 input.2.values block (.error e)) :
    Delivery s scratch slot (input :: inputs) block (.error e) where
  served := []
  rest := input :: inputs
  blocks := []
  last := block
  inputs_eq := rfl
  calls_eq := rfl
  serves := .nil
  ends := .inr ⟨e, rfl, .inr ⟨input, inputs, rfl, h⟩⟩

/-- The first input is served, and then the others are delivered. -/
def cons {block : List (Call σ)}
    (h : Attempt s scratch slot input.1 input.2.values block (.ok ()))
    (d : Delivery s scratch slot inputs calls outcome) :
    Delivery s scratch slot (input :: inputs) (block ++ calls) outcome where
  served := input :: d.served
  rest := d.rest
  blocks := block :: d.blocks
  last := d.last
  inputs_eq := by rw [List.cons_append, ← d.inputs_eq]
  calls_eq := by rw [List.flatten_cons, List.append_assoc, ← d.calls_eq]
  serves := .cons h d.serves
  ends := d.ends

/-- The inputs that are served are served without a failing call. -/
theorem allSucceed_served (d : Delivery s scratch slot inputs calls outcome) :
    AllSucceed d.blocks.flatten := by
  -- The two lists are indices of the relation, so they have to be variables for the induction.
  have serves := d.serves
  revert serves
  generalize d.served = served
  generalize d.blocks = blocks
  intro serves
  induction serves with
  | nil =>
    intro c member
    cases member
  | cons first _ ih => exact allSucceed_append.2 ⟨first.succeeds, ih⟩

/-- A lookup that the program refuses is the last call of all. It is for the first input that has
not been served, and its error is reported under the name of that input. -/
theorem unknown (d : Delivery s scratch slot inputs calls outcome) {c : Call σ}
    {cause : ProgramError} {address component high low : Int} (member : c ∈ calls)
    (request : c.request = .locate address component high low)
    (refused : c.outcome = .error (.program cause)) :
    d.last = [c] ∧ ∃ input others hash, d.rest = input :: others ∧ c.Asks scratch input.1 hash ∧
      outcome = .error (.unknownSignal input.1 hash cause) := by
  rw [d.calls_eq, List.mem_append] at member
  obtain member | member := member
  · have succeeded := d.allSucceed_served c member
    rw [Call.Succeeds, refused] at succeeded
    cases succeeded
  · obtain ⟨-, -, nothing⟩ | ⟨e, ended, nothing | ⟨input, others, rest, attempt⟩⟩ := d.ends
    · rw [nothing] at member
      cases member
    · rw [nothing] at member
      cases member
    · obtain ⟨only, hash, asks, outcome⟩ := attempt.eq_of_refused member request refused
      exact ⟨only, input, others, hash, rest, asks, by rw [ended, outcome]; rfl⟩

end Delivery

/-- Named nested lists as the inputs of a program. -/
def toInputs (inputs : List (Text × Tree)) : Inputs :=
  inputs.map fun input => (input.1, input.2.toValue)

/-- What is recorded while inputs are fed to a program: their delivery, which comes to its end
unless a call has failed or a name has no hash. -/
structure Fed (s : Slots σ) (scratch slot : Nat) (inputs : List (Text × Tree))
    (calls : List (Call σ)) (outcome : Result Unit) : Prop where
  delivery : Nonempty (Delivery s scratch slot inputs (transfers calls) outcome)
  total : AllSucceed calls → (∀ input ∈ inputs, ∃ hash, Fnv.ofName input.1 = .ok hash) →
    outcome = .ok ()

namespace Fed

variable {α : Type} {s : Slots σ} {scratch slot : Nat} {inputs : List (Text × Tree)}
variable {calls calls' : List (Call σ)} {outcome : Result Unit}

/-- Nothing is fed where a step before it has failed. -/
theorem of_failed {e : Failure} (quiet : Quiet calls (.error e : Result α)) :
    Fed s scratch slot inputs calls (.error e) where
  delivery := by
    rw [quiet.silent]
    exact ⟨.none inputs e⟩
  total all := by
    obtain ⟨_, impossible⟩ := quiet.total all
    cases impossible

theorem append {a : α} (quiet : Quiet calls (.ok a : Result α))
    (fed : Fed s scratch slot inputs calls' outcome) :
    Fed s scratch slot inputs (calls ++ calls') outcome where
  delivery := by
    rw [transfers_append, quiet.silent]
    exact fed.delivery
  total all := fed.total (allSucceed_append.1 all).2

end Fed

/-- The computation feeds inputs to a program. If any of them is transferred, that is done by way of
two slots that are taken, as `takes` says, from the machine before the computation on. -/
def Feeds (s : Slots σ) (takes : Machine σ → Nat → Nat → Prop) (inputs : List (Text × Tree))
    (x : Run (Recorded σ) Unit) : Prop :=
  x.Traces fun m calls outcome _ => ∃ scratch slot,
    (transfers calls = [] ∨ takes m scratch slot) ∧ Fed s scratch slot inputs calls outcome

namespace Feeds

variable {α : Type} {s : Slots σ} {inputs : List (Text × Tree)}

theorem of_traces {x : Run (Recorded σ) Unit} {scratch slot : Nat}
    (h : x.Traces fun _ calls outcome _ => Fed s scratch slot inputs calls outcome) :
    Feeds s (fun _ scratch' slot' => scratch' = scratch ∧ slot' = slot) inputs x :=
  h.mono fun _ _ _ _ fed => ⟨scratch, slot, .inr ⟨rfl, rfl⟩, fed⟩

/-- Inputs may be fed behind a quiet step. -/
theorem bind {x : Run (Recorded σ) α} {y : Run σ α} {f : α → Run (Recorded σ) Unit}
    {takes : Machine σ → Nat → Nat → Prop} {takes' : α → Machine σ → Nat → Nat → Prop}
    (quiet : x.IsQuiet) (same : Run.Agree Machine.Records x y)
    (rest : ∀ a, Feeds s (takes' a) inputs (f a))
    (place : ∀ m a mid scratch slot, y m = (.ok a, mid) → takes' a mid scratch slot →
      takes m scratch slot) : Feeds s takes inputs (x >>= f) := by
  refine Run.Traces.bind (quiet.agree same) rest ?_ ?_
  · rintro m calls e n ⟨quiet, -⟩
    exact ⟨0, 0, .inl quiet.silent, .of_failed quiet⟩
  · rintro m calls a mid calls' outcome n ⟨quiet, reached⟩ ⟨scratch, slot, taken, fed⟩
    refine ⟨scratch, slot, taken.imp ?_ (place m a mid scratch slot reached), .append quiet fed⟩
    intro silent
    rw [transfers_append, quiet.silent, silent, List.nil_append]

end Feeds

namespace Calculator

variable {k : Calculator σ} {contents : σ → Bytes}

/-- An input whose value is made of lists of integers is looked up, its integers are handed over,
and then it is the turn of the other inputs. -/
theorem feed_cons (k : Calculator σ) (scratch slot : Nat) (name : Text) (tree : Tree)
    (inputs : Inputs) :
    k.feed scratch slot ((name, tree.toValue) :: inputs) =
      (k.locate scratch name >>= fun base => k.deliver slot base tree.values) >>= fun _ =>
        k.feed scratch slot inputs := by
  rw [bind_assoc, feed, tree.flatten_toValue]
  rfl

/-- The machine behind the start of the program in a run. -/
def started (k : Calculator σ) (sanity : Bool) (m : Machine σ) : Machine σ :=
  (k.exports.init (sanity || k.sanity || k.isObserving) m).2

/-- From the machine `m` on, the offset slot is taken at `scratch` and then the slot for values at
`slot`. -/
def Takes (k : Calculator σ) (m : Machine σ) (scratch slot : Nat) : Prop :=
  ∃ mid, k.slots.allocateWord m = (.ok scratch, mid) ∧ (k.slots.allocateSlot mid).1 = .ok slot

section Feeding

variable (acts : k.sandbox.memory.ActsOn contents) (layout : k.codec.HasRoom)
include acts layout

/-- What is recorded for one input. -/
theorem traces_serve (scratch slot : Nat) (name : Text) (values : List Int) :
    (k.recording.locate scratch name >>= fun base =>
      k.recording.deliver slot base values).Traces fun _ calls outcome _ =>
        Attempt k.slots scratch slot name values (transfers calls) outcome ∧
          (AllSucceed calls → (∃ hash, Fnv.ofName name = .ok hash) → outcome = .ok ()) := by
  rcases hashed : Fnv.ofName name with fault | hash
  · have locate : k.recording.locate scratch name = throw (.fault fault) := by
      rw [Calculator.locate, hashed]
      rfl
    rw [locate]
    refine Run.Traces.ofResult (r := .error (.fault fault)) fun m => ⟨.nameless hashed, ?_⟩
    rintro - ⟨hash, impossible⟩
    cases impossible
  · refine (traces_lookup hashed scratch).bind
      (fun base => traces_deliver acts layout slot base values) ?_ ?_
    · rintro m calls e n ⟨lookup, looked⟩
      constructor
      · rw [looked.only]
        rcases failed : lookup.outcome with e' | _
        · rw [Except.error.inj (looked.refused e' failed)]
          exact .refused looked.asks failed
        · exact .unplaced looked.asks failed
      · intro all
        obtain ⟨_, impossible⟩ := looked.total all
        cases impossible
    · rintro m calls base mid calls' outcome n ⟨lookup, looked⟩ ⟨handover, total⟩
      constructor
      · rw [transfers_append, looked.only]
        exact .placed looked.asks (looked.places base rfl) handover
      · exact fun all _ => total (allSucceed_append.1 all).2

/-- What is recorded for all inputs. -/
theorem traces_feed (scratch slot : Nat) (inputs : List (Text × Tree)) :
    (k.recording.feed scratch slot (toInputs inputs)).Traces fun _ calls outcome _ =>
      Fed k.slots scratch slot inputs calls outcome := by
  induction inputs with
  | nil => exact Run.Traces.pure fun m => ⟨⟨.nil⟩, fun _ _ => rfl⟩
  | cons input inputs ih =>
    rw [toInputs, List.map_cons, feed_cons]
    refine (traces_serve acts layout scratch slot input.1 input.2.values).bind (fun _ => ih) ?_ ?_
    · rintro m calls e n ⟨attempt, total⟩
      refine ⟨⟨.stopped inputs attempt⟩, fun all hashed => ?_⟩
      exact total all (hashed input List.mem_cons_self)
    · rintro m calls ⟨⟩ mid calls' outcome n ⟨attempt, -⟩ ⟨⟨delivery⟩, total⟩
      constructor
      · rw [transfers_append]
        exact ⟨.cons attempt delivery⟩
      · intro all hashed
        exact total (allSucceed_append.1 all).2
          fun other member => hashed other (List.mem_cons_of_mem _ member)

/-- Behind the start of the program, the scratch space is taken and the inputs are fed. -/
theorem feeds_fill (inputs : List (Text × Tree)) :
    Feeds k.slots k.Takes inputs (k.recording.fill (toInputs inputs)) := by
  have behind (word : Nat) : Feeds k.slots
      (fun mid scratch slot => scratch = word ∧ (k.slots.allocateSlot mid).1 = .ok slot) inputs
      (k.recording.slots.allocateSlot >>= fun room =>
        k.recording.feed word room (toInputs inputs)) := by
    refine Feeds.bind (isQuiet_allocate k.codec.size)
      (k.agree_recording.slots.allocate k.codec.size)
      (fun room => .of_traces (traces_feed acts layout word room inputs)) ?_
    rintro m room mid scratch slot taken ⟨rfl, rfl⟩
    exact ⟨rfl, congrArg Prod.fst taken⟩
  refine Feeds.bind (isQuiet_allocate 8) (k.agree_recording.slots.allocate 8) behind ?_
  rintro m word mid scratch slot taken ⟨rfl, taken'⟩
  exact ⟨mid, taken, taken'⟩

/-- A run starts the program first. -/
theorem feeds_run (inputs : List (Text × Tree)) (sanity : Bool) :
    Feeds k.slots (fun m => k.Takes (k.started sanity m)) inputs
      (k.recording.run (toInputs inputs) sanity) := by
  rw [run_eq, exports_recording]
  refine Feeds.bind (.recordAs rfl _) (Run.agree_recordAs _ _)
    (fun _ => feeds_fill acts layout inputs) ?_
  intro m _ mid scratch slot started taken
  have reached : k.started sanity m = mid := congrArg Prod.snd started
  rwa [reached]

end Feeding

/-- Every input value reaches the program once, in order and unchanged. The program may be any that
has been accepted, in a memory that is one string of bytes, and the values any nested lists of
integers. Recording the calls of a run changes nothing about it, and the calls that look inputs up
and hand values over are a delivery of the inputs by way of the scratch space that the run has
taken. If no call fails and every name has a hash, all inputs are served. If the program refuses to
look a name up, that is the last of these calls: the inputs in front of the name have been served,
and the run ends with an error that carries the name. -/
theorem run_delivers {sandbox : Sandbox σ} (acts : sandbox.memory.ActsOn contents)
    {curve : CurveParams} {observed : List NoticeKind} {checks : Bool} {m₀ m₁ : Machine σ}
    (made : make sandbox curve observed checks m₀ = (.ok k, m₁)) (inputs : List (Text × Tree))
    (sanity : Bool) (m : Machine σ) :
    let recorded := k.recording.run (toInputs inputs) sanity m.recording
    (recorded.1, recorded.2.unrecorded) = k.run (toInputs inputs) sanity m ∧
      ∃ scratch slot,
        (transfers recorded.2.calls = [] ∨ k.Takes (k.started sanity m) scratch slot) ∧
        ∃ d : Delivery k.slots scratch slot inputs (transfers recorded.2.calls) recorded.1,
          (AllSucceed recorded.2.calls →
            (∀ input ∈ inputs, ∃ hash, Fnv.ofName input.1 = .ok hash) →
              recorded.1 = .ok () ∧ d.rest = [] ∧ d.last = []) ∧
          ∀ c ∈ recorded.2.calls, ∀ address component high low cause,
            c.request = .locate address component high low →
            c.outcome = .error (.program cause) →
              d.last = [c] ∧ ∃ input others hash, d.rest = input :: others ∧
                c.Asks scratch input.1 hash ∧
                recorded.1 = .error (.unknownSignal input.1 hash cause) := by
  intro recorded
  obtain ⟨rfl, layout⟩ := hasRoom_of_make acts made
  obtain ⟨calls, appended, scratch, slot, place, ⟨⟨d⟩, total⟩⟩ :=
    feeds_run acts layout inputs sanity m.recording
  obtain rfl : recorded.2.calls = calls := by
    exact appended.trans (List.nil_append calls)
  obtain ⟨outcome, reached⟩ :=
    k.agree_recording.run (toInputs inputs) sanity m.recording m rfl
  refine ⟨Prod.ext outcome reached, scratch, slot, place, d, ?_, ?_⟩
  · intro all hashed
    have done := total all hashed
    obtain ⟨-, rest, last⟩ | ⟨e, failed, -⟩ := d.ends
    · exact ⟨done, rest, last⟩
    · rw [failed] at done
      cases done
  · intro c member address component high low cause request refused
    refine d.unknown (List.mem_filter.2 ⟨member, ?_⟩) request refused
    rw [request]
    rfl

/-- The delivery of two values in nested lists. -/
theorem run_delivers_moveCursor :
    ∃ k, make (Sample.sandbox Sample.moveCursor) .bn254 [] false Sample.machine =
        (.ok k, Sample.machine) ∧
      let inputs : List (Text × Tree) := [("a", .node [.leaf 3, .node [.leaf (-1)]])]
      let recorded := k.recording.run (toInputs inputs) true Sample.machine.recording
      (recorded.1, recorded.2.unrecorded) = k.run (toInputs inputs) true Sample.machine ∧
        ∃ scratch slot,
          Nonempty
            (Delivery k.slots scratch slot inputs (transfers recorded.2.calls) recorded.1) := by
  obtain ⟨k, made⟩ := Sample.exists_make_eq_ok Sample.moveCursor
  obtain ⟨erased, scratch, slot, -, delivery, -⟩ := run_delivers Sample.access_actsOn made
    [("a", .node [.leaf 3, .node [.leaf (-1)]])] true Sample.machine
  exact ⟨k, made, erased, scratch, slot, ⟨delivery⟩⟩

end Calculator

end Witness

end Snark
