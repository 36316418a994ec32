import Mathlib.Data.List.Basic
import Snark.Proofs.Sandbox.Agreement

/-!
# Recorded calls

A sandbox can be made to record what is asked of it, with the machine before and after every call
and what came of it. Nothing else changes: a computation on the recording sandbox comes to what it
comes to on the sandbox itself. What a computation records is put behind what has been recorded
before, so it is described piece by piece along the way in which computations are put together.
Steps that have nothing to do with inputs are quiet.
-/

namespace Snark

/-- What is asked of a sandbox. -/
inductive Request
  | init (sanity : Bool)
  | locate (address component high low : Int)
  | setSignal (row component signal address : Int)
  | witnessSlot (index : Int)
  | slotLength
  | primeAddress
  | witnessSize
  | witnessBuffer
  | read (address length : Int)
  | write (address : Int) (bs : Bytes)
  deriving DecidableEq, Repr

/-- A call into a sandbox. -/
structure Call (σ : Type) where
  request : Request
  before : Machine σ
  /-- What came of the call, but for the value that it returned. -/
  outcome : Result Unit
  after : Machine σ

/-- The state of a program with the calls that have been made. -/
structure Recorded (σ : Type) where
  program : σ
  calls : List (Call σ)

namespace Call

variable {σ : Type}

/-- The call has returned. -/
def Succeeds (c : Call σ) : Prop := c.outcome = .ok ()

end Call

namespace Machine

variable {σ : Type}

/-- The machine without the record. -/
def unrecorded (m : Machine (Recorded σ)) : Machine σ := ⟨m.program.program, m.events⟩

/-- The machine with an empty record. -/
def recording (m : Machine σ) : Machine (Recorded σ) := ⟨⟨m.program, []⟩, m.events⟩

/-- What has been recorded. -/
def calls (m : Machine (Recorded σ)) : List (Call σ) := m.program.calls

/-- One machine is the other with a record. -/
def Records (m : Machine (Recorded σ)) (n : Machine σ) : Prop := m.unrecorded = n

end Machine

namespace Run

variable {σ α β : Type}

/-- Records a call. -/
def recordAs (request : Request) (x : Run σ α) : Run (Recorded σ) α := fun m =>
  match x m.unrecorded with
  | (outcome, n) =>
    let call : Call σ := ⟨request, m.unrecorded, outcome.map fun _ => (), n⟩
    (outcome, ⟨⟨n.program, m.calls ++ [call]⟩, n.events⟩)

/-- A computation without its record. -/
def unrecorded (x : Run (Recorded σ) α) : Run σ α := fun m =>
  match x m.recording with
  | (outcome, n) => (outcome, n.unrecorded)

theorem agree_recordAs (request : Request) (x : Run σ α) :
    Agree Machine.Records (x.recordAs request) x := by
  rintro m _ rfl
  exact ⟨rfl, rfl⟩

theorem agree_record (e : Event) :
    Agree Machine.Records (record e : Run (Recorded σ) Unit) (record e) := by
  rintro m _ rfl
  exact ⟨rfl, rfl⟩

/-- A computation that agrees with one on the recording machines is that one without its record. -/
theorem unrecorded_eq {x : Run (Recorded σ) α} {y : Run σ α} (h : Agree Machine.Records x y) :
    x.unrecorded = y := by
  funext m
  obtain ⟨same, reached⟩ := h m.recording m rfl
  exact Prod.ext same reached

end Run

section Recording

variable {σ : Type}

/-- The accesses, recorded. -/
def Access.recording (a : Access σ) : Access (Recorded σ) where
  read address length := (a.read address length).recordAs (.read address length)
  write address bs := (a.write address bs).recordAs (.write address bs)

/-- The exports, recorded. -/
def Exports.recording (e : Exports σ) : Exports (Recorded σ) where
  init sanity := (e.init sanity).recordAs (.init sanity)
  locate address component high low :=
    (e.locate address component high low).recordAs (.locate address component high low)
  setSignal row component signal address :=
    (e.setSignal row component signal address).recordAs (.setSignal row component signal address)
  witnessSlot index := (e.witnessSlot index).recordAs (.witnessSlot index)
  slotLength := e.slotLength.recordAs .slotLength
  primeAddress := e.primeAddress.recordAs .primeAddress
  witnessSize := e.witnessSize.recordAs .witnessSize
  witnessBuffer := e.witnessBuffer.recordAs .witnessBuffer

/-- The host of a recording sandbox as the host of the sandbox itself. What the host does while the
program is running is no call into the sandbox. -/
def Host.unrecorded (host : Host (Recorded σ)) : Host σ where
  failure e := (host.failure e).unrecorded
  notify n := (host.notify n).unrecorded

/-- The sandbox that records the calls into it. -/
def Sandbox.recording (s : Sandbox σ) : Sandbox (Recorded σ) where
  memory := s.memory.recording
  exports host := (s.exports host.unrecorded).recording

theorem Access.agree_recording (a : Access σ) : a.recording.Agree Machine.Records a where
  read _ _ := Run.agree_recordAs _ _
  write _ _ := Run.agree_recordAs _ _

theorem Exports.agree_recording (e : Exports σ) : e.recording.Agree Machine.Records e where
  init _ := Run.agree_recordAs _ _
  locate _ _ _ _ := Run.agree_recordAs _ _
  setSignal _ _ _ _ := Run.agree_recordAs _ _
  witnessSlot _ := Run.agree_recordAs _ _
  witnessSize := Run.agree_recordAs _ _
  witnessBuffer := Run.agree_recordAs _ _

end Recording

namespace Run

variable {σ α β : Type}

/-- What a computation records, what comes of it, and the machines without the record before and
after it meet `P`, whatever has been recorded before. -/
def Traces (x : Run (Recorded σ) α)
    (P : Machine σ → List (Call σ) → Result α → Machine σ → Prop) : Prop :=
  ∀ m, ∃ calls, (x m).2.calls = m.calls ++ calls ∧
    P m.unrecorded calls (x m).1 (x m).2.unrecorded

namespace Traces

variable {x : Run (Recorded σ) α} {P : Machine σ → List (Call σ) → Result α → Machine σ → Prop}

theorem ofResult {r : Result α} (h : ∀ m, P m [] r m) : (ofResult r).Traces P := by
  intro m
  refine ⟨[], ?_⟩
  cases r with
  | ok a => exact ⟨(List.append_nil _).symm, h m.unrecorded⟩
  | error e => exact ⟨(List.append_nil _).symm, h m.unrecorded⟩

theorem pure {a : α} (h : ∀ m, P m [] (.ok a) m) : (pure a : Run (Recorded σ) α).Traces P :=
  ofResult (r := .ok a) h

theorem recordAs {request : Request} {y : Run σ α}
    (h : ∀ m, P m [⟨request, m, (y m).1.map fun _ => (), (y m).2⟩] (y m).1 (y m).2) :
    (y.recordAs request).Traces P := by
  intro m
  exact ⟨_, rfl, h m.unrecorded⟩

/-- A recorded call without a value is the only one. -/
theorem call {request : Request} (y : Run σ Unit) :
    (y.recordAs request).Traces fun m calls outcome n =>
      calls = [⟨request, m, outcome, n⟩] := by
  refine recordAs fun m => ?_
  cases (y m).1 <;> rfl

/-- Besides, a computation comes to what it comes to on the machines without the record. -/
theorem agree {y : Run σ α} (h : x.Traces P) (same : Agree Machine.Records x y) :
    x.Traces fun m calls outcome n => P m calls outcome n ∧ y m = (outcome, n) := by
  intro m
  obtain ⟨calls, recorded, hP⟩ := h m
  obtain ⟨outcome, reached⟩ := same m m.unrecorded rfl
  exact ⟨calls, recorded, hP, Prod.ext outcome.symm reached.symm⟩

theorem mono {Q : Machine σ → List (Call σ) → Result α → Machine σ → Prop} (h : x.Traces P)
    (weaken : ∀ m calls outcome n, P m calls outcome n → Q m calls outcome n) : x.Traces Q := by
  intro m
  obtain ⟨calls, recorded, hP⟩ := h m
  exact ⟨calls, recorded, weaken _ _ _ _ hP⟩

/-- A sequence records what its first part records, and behind it, if the first part has succeeded,
what the second part records. -/
theorem bind {f : α → Run (Recorded σ) β}
    {Q : α → Machine σ → List (Call σ) → Result β → Machine σ → Prop}
    {S : Machine σ → List (Call σ) → Result β → Machine σ → Prop} (first : x.Traces P)
    (rest : ∀ a, (f a).Traces (Q a))
    (failed : ∀ m calls e n, P m calls (.error e) n → S m calls (.error e) n)
    (next : ∀ m calls a mid calls' outcome n, P m calls (.ok a) mid → Q a mid calls' outcome n →
      S m (calls ++ calls') outcome n) : (x >>= f).Traces S := by
  intro m
  obtain ⟨calls, recorded, hP⟩ := first m
  rw [Run.bind_apply]
  revert recorded hP
  rcases x m with ⟨_ | a, mid⟩
  · intro recorded hP
    exact ⟨calls, recorded, failed _ _ _ _ hP⟩
  · intro recorded hP
    obtain ⟨calls', recorded', hQ⟩ := rest a mid
    refine ⟨calls ++ calls', ?_, next _ _ _ _ _ _ _ hP hQ⟩
    rw [recorded', recorded, List.append_assoc]

/-- Where an attempt fails, what is recorded after it comes behind what it has recorded. -/
theorem tryCatch {f : Failure → Run (Recorded σ) α}
    {Q : Failure → Machine σ → List (Call σ) → Result α → Machine σ → Prop}
    {S : Machine σ → List (Call σ) → Result α → Machine σ → Prop} (first : x.Traces P)
    (rest : ∀ e, (f e).Traces (Q e))
    (returned : ∀ m calls a n, P m calls (.ok a) n → S m calls (.ok a) n)
    (caught : ∀ m calls e mid calls' outcome n, P m calls (.error e) mid →
      Q e mid calls' outcome n → S m (calls ++ calls') outcome n) :
    (tryCatch x f).Traces S := by
  intro m
  obtain ⟨calls, recorded, hP⟩ := first m
  rw [tryCatch_apply]
  revert recorded hP
  rcases x m with ⟨e | _, mid⟩
  · intro recorded hP
    obtain ⟨calls', recorded', hQ⟩ := rest e mid
    refine ⟨calls ++ calls', ?_, caught _ _ _ _ _ _ _ hP hQ⟩
    rw [recorded', recorded, List.append_assoc]
  · intro recorded hP
    exact ⟨calls, recorded, returned _ _ _ _ hP⟩

/-- What comes after a computation in any case is recorded behind it. -/
theorem ensuring {restore : Run (Recorded σ) Unit}
    {Q : Machine σ → List (Call σ) → Result Unit → Machine σ → Prop}
    {S : Machine σ → List (Call σ) → Result α → Machine σ → Prop} (first : x.Traces P)
    (last : restore.Traces Q)
    (restored : ∀ m calls outcome mid calls' n, P m calls outcome mid → Q mid calls' (.ok ()) n →
      S m (calls ++ calls') outcome n)
    (failed : ∀ m calls outcome mid calls' e n, P m calls outcome mid →
      Q mid calls' (.error e) n → S m (calls ++ calls') (.error e) n) :
    (Run.ensuring x restore).Traces S := by
  intro m
  obtain ⟨calls, recorded, hP⟩ := first m
  rw [Run.ensuring]
  revert recorded hP
  rcases x m with ⟨outcome, mid⟩
  intro recorded hP
  obtain ⟨calls', recorded', hQ⟩ := last mid
  dsimp only
  revert recorded' hQ
  rcases restore mid with ⟨e | _, n⟩
  · intro recorded' hQ
    refine ⟨calls ++ calls', ?_, failed _ _ _ _ _ _ _ hP hQ⟩
    rw [recorded', recorded, List.append_assoc]
  · intro recorded' hQ
    refine ⟨calls ++ calls', ?_, restored _ _ _ _ _ _ hP hQ⟩
    rw [recorded', recorded, List.append_assoc]

end Traces

end Run

/-- Whether an input is looked up, or a value of it handed over. -/
def Request.isTransfer : Request → Bool
  | .locate _ _ _ _ => true
  | .setSignal _ _ _ _ => true
  | _ => false

section Quiet

variable {σ α β : Type}

/-- The calls that look inputs up and hand values over. -/
def transfers (calls : List (Call σ)) : List (Call σ) := calls.filter fun c => c.request.isTransfer

@[simp] theorem transfers_append (calls calls' : List (Call σ)) :
    transfers (calls ++ calls') = transfers calls ++ transfers calls' :=
  List.filter_append ..

/-- Every call has returned. -/
def AllSucceed (calls : List (Call σ)) : Prop := ∀ c ∈ calls, c.Succeeds

@[simp] theorem allSucceed_append {calls calls' : List (Call σ)} :
    AllSucceed (calls ++ calls') ↔ AllSucceed calls ∧ AllSucceed calls' :=
  List.forall_mem_append

/-- No input is looked up and no value handed over, and there is a result unless a call has
failed. -/
structure Quiet (calls : List (Call σ)) (outcome : Result α) : Prop where
  silent : transfers calls = []
  total : AllSucceed calls → ∃ a, outcome = .ok a

namespace Quiet

theorem ok (a : α) : Quiet ([] : List (Call σ)) (.ok a : Result α) where
  silent := rfl
  total _ := ⟨a, rfl⟩

theorem error {calls : List (Call σ)} {e : Failure} (h : Quiet calls (.error e : Result α)) :
    Quiet calls (.error e : Result β) where
  silent := h.silent
  total all := by
    obtain ⟨a, impossible⟩ := h.total all
    cases impossible

theorem append {calls calls' : List (Call σ)} {a : α} {outcome : Result β}
    (h : Quiet calls (.ok a : Result α)) (h' : Quiet calls' outcome) :
    Quiet (calls ++ calls') outcome where
  silent := by rw [transfers_append, h.silent, h'.silent, List.append_nil]
  total all := h'.total (allSucceed_append.1 all).2

end Quiet

/-- A step is quiet. -/
def Run.IsQuiet (x : Run (Recorded σ) α) : Prop :=
  x.Traces fun _ calls outcome _ => Quiet calls outcome

namespace Run.IsQuiet

theorem pure (a : α) : IsQuiet (pure a : Run (Recorded σ) α) := Traces.pure fun _ => .ok a

theorem bind {x : Run (Recorded σ) α} {f : α → Run (Recorded σ) β} (first : x.IsQuiet)
    (rest : ∀ a, (f a).IsQuiet) : IsQuiet (x >>= f) :=
  Traces.bind first rest (fun _ _ _ _ h => h.error) fun _ _ _ _ _ _ _ h h' => h.append h'

theorem recordAs {request : Request} (h : request.isTransfer = false) (x : Run σ α) :
    (x.recordAs request).IsQuiet := by
  refine Traces.recordAs fun m => ?_
  constructor
  · simp [transfers, h]
  · intro all
    have returned := all _ (List.mem_singleton.2 rfl)
    rw [Call.Succeeds] at returned
    revert returned
    cases (x m).1 with
    | ok a => exact fun _ => ⟨a, rfl⟩
    | error e =>
      intro impossible
      cases impossible

end Run.IsQuiet

/-- A step in which no input is looked up and no value handed over. Other than a quiet step it may
fail without a failing call, where it makes nothing of what it has read. -/
def Run.IsSilent (x : Run (Recorded σ) α) : Prop :=
  x.Traces fun _ calls _ _ => transfers calls = []

namespace Run.IsSilent

theorem ofResult (r : Result α) : IsSilent (ofResult r : Run (Recorded σ) α) :=
  Traces.ofResult fun _ => rfl

theorem bind {x : Run (Recorded σ) α} {f : α → Run (Recorded σ) β} (first : x.IsSilent)
    (rest : ∀ a, (f a).IsSilent) : IsSilent (x >>= f) :=
  Traces.bind first rest (fun _ _ _ _ h => h) fun _ _ _ _ _ _ _ h h' => by
    rw [transfers_append, h, h', List.append_nil]

end Run.IsSilent

theorem Run.IsQuiet.isSilent {x : Run (Recorded σ) α} (h : x.IsQuiet) : x.IsSilent :=
  h.mono fun _ _ _ _ quiet => quiet.silent

end Quiet

end Snark
