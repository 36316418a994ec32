import Snark.Proofs.Except
import Snark.Sandbox.Slots

/-!
# Computations that agree

Two computations agree along a relation of machines if from related machines they come to the same
outcome and to related machines. Agreement is built up along the way in which computations are put
together, so what holds of the accesses and the exports of two sandboxes holds of everything that
is done with them. A computation that keeps an invariant agrees with itself along the machines that
are equal and meet it.
-/

namespace Snark

namespace Run

variable {σ τ α β : Type}

theorem program_apply (m : Machine σ) : (program : Run σ σ) m = (.ok m.program, m) := rfl

theorem bind_apply (x : Run σ α) (f : α → Run σ β) (m : Machine σ) :
    (x >>= f) m = match x m with
      | (.ok a, n) => f a n
      | (.error e, n) => (.error e, n) := by
  rw [ExceptT.bind_apply_state]
  rcases x m with ⟨_ | _, n⟩ <;> rfl

/-- A sequence succeeds exactly if both of its parts do. -/
theorem bind_eq_ok_iff {x : Run σ α} {f : α → Run σ β} {m n : Machine σ} {b : β} :
    (x >>= f) m = (.ok b, n) ↔ ∃ a mid, x m = (.ok a, mid) ∧ f a mid = (.ok b, n) := by
  rw [bind_apply]
  rcases x m with ⟨_ | a, mid⟩
  · constructor
    · intro h
      cases h
    · rintro ⟨a, mid, h, -⟩
      cases h
  · constructor
    · intro h
      exact ⟨a, mid, rfl, h⟩
    · rintro ⟨a, mid, h, h'⟩
      cases h
      exact h'

theorem ofFault_eq_ok_iff {r : Except Fault α} {m n : Machine σ} {a : α} :
    (ofFault r : Run σ α) m = (.ok a, n) ↔ r = .ok a ∧ m = n := by
  cases r with
  | ok b =>
    constructor
    · intro h
      cases h
      exact ⟨rfl, rfl⟩
    · rintro ⟨⟨⟩, rfl⟩
      rfl
  | error e =>
    constructor
    · intro h
      cases h
    · rintro ⟨h, -⟩
      cases h

/-- A computation that is followed by `restore` in any case succeeds exactly if both do. -/
theorem ensuring_eq_ok_iff {x : Run σ α} {restore : Run σ Unit} {m n : Machine σ} {a : α} :
    ensuring x restore m = (.ok a, n) ↔
      ∃ mid, x m = (.ok a, mid) ∧ restore mid = (.ok (), n) := by
  rw [ensuring]
  rcases x m with ⟨outcome, mid⟩
  dsimp only
  rcases final : restore mid with ⟨_ | _, last⟩
  · constructor
    · intro h
      cases h
    · rintro ⟨_, ⟨⟩, h⟩
      rw [final] at h
      cases h
  · constructor
    · rintro ⟨⟩
      exact ⟨mid, rfl, final⟩
    · rintro ⟨_, ⟨⟩, h⟩
      rw [final] at h
      cases h
      rfl

theorem tryCatch_apply (x : Run σ α) (f : Failure → Run σ α) (m : Machine σ) :
    (tryCatch x f) m = match x m with
      | (.ok a, n) => (.ok a, n)
      | (.error e, n) => f e n := by
  simp only [tryCatch, tryCatchThe, MonadExceptOf.tryCatch, ExceptT.tryCatch, ExceptT.mk, bind,
    StateT.bind]
  rcases x m with ⟨_ | _, n⟩ <;> rfl

/-- From related machines, both computations have the same outcome and reach related machines. -/
def Agree (R : Machine σ → Machine τ → Prop) (x : Run σ α) (y : Run τ α) : Prop :=
  ∀ m n, R m n → (x m).1 = (y n).1 ∧ R (x m).2 (y n).2

/-- Machines that meet `I` are left as machines that meet it. -/
def Keeps (I : Machine σ → Prop) (x : Run σ α) : Prop := ∀ m, I m → I (x m).2

/-- Two machines are one and the same, and meet `I`. -/
def Same (I : Machine σ → Prop) (m n : Machine σ) : Prop := m = n ∧ I m

theorem agree_same_iff {I : Machine σ → Prop} {x : Run σ α} :
    Agree (Same I) x x ↔ Keeps I x := by
  constructor
  · intro h m hm
    exact (h m m ⟨rfl, hm⟩).2.2
  · rintro h m n ⟨rfl, hm⟩
    exact ⟨rfl, rfl, h m hm⟩

namespace Keeps

variable {I : Machine σ → Prop}

theorem pure (a : α) : Keeps I (pure a : Run σ α) := fun _ h => h

theorem bind {x : Run σ α} {f : α → Run σ β} (first : Keeps I x) (rest : ∀ a, Keeps I (f a)) :
    Keeps I (x >>= f) := by
  intro m h
  have reached := first m h
  rw [bind_apply]
  revert reached
  rcases x m with ⟨_ | a, mid⟩
  · exact id
  · exact rest a mid

end Keeps

/-- From every machine that meets `I` the computation succeeds, and reaches one that meets it. -/
def Succeeds (I : Machine σ → Prop) (x : Run σ α) : Prop :=
  ∀ m, I m → ∃ a n, x m = (.ok a, n) ∧ I n

namespace Succeeds

variable {I : Machine σ → Prop} {x : Run σ α}

theorem pure (a : α) : Succeeds I (pure a : Run σ α) := fun m h => ⟨a, m, rfl, h⟩

theorem bind {f : α → Run σ β} (first : Succeeds I x) (rest : ∀ a, Succeeds I (f a)) :
    Succeeds I (x >>= f) := by
  intro m h
  obtain ⟨a, mid, done, kept⟩ := first m h
  obtain ⟨b, n, done', kept'⟩ := rest a mid kept
  exact ⟨b, n, bind_eq_ok_iff.2 ⟨a, mid, done, done'⟩, kept'⟩

theorem ensuring {restore : Run σ Unit} (first : Succeeds I x) (last : Succeeds I restore) :
    Succeeds I (ensuring x restore) := by
  intro m h
  obtain ⟨a, mid, done, kept⟩ := first m h
  obtain ⟨_, n, done', kept'⟩ := last mid kept
  exact ⟨a, n, ensuring_eq_ok_iff.2 ⟨mid, done, done'⟩, kept'⟩

end Succeeds

namespace Agree

variable {R : Machine σ → Machine τ → Prop} {x : Run σ α} {y : Run τ α}

theorem pure (a : α) : Agree R (pure a : Run σ α) (pure a : Run τ α) :=
  fun _ _ related => ⟨rfl, related⟩

theorem throw (e : Failure) : Agree R (throw e : Run σ α) (throw e : Run τ α) :=
  fun _ _ related => ⟨rfl, related⟩

theorem ofResult (r : Result α) : Agree R (ofResult r : Run σ α) (Run.ofResult r : Run τ α) := by
  cases r with
  | ok a => exact .pure a
  | error e => exact .throw e

theorem ite {c : Prop} [Decidable c] {x' : Run σ α} {y' : Run τ α} (h : Agree R x y)
    (h' : Agree R x' y') : Agree R (if c then x else x') (if c then y else y') := by
  split
  · exact h
  · exact h'

/-- What follows two computations agrees, wherever these have come to the same outcome and to
related machines. -/
theorem bind_apply {f : α → Run σ β} {g : α → Run τ β} {m : Machine σ} {n : Machine τ}
    (same : (x m).1 = (y n).1) (related : R (x m).2 (y n).2) (rest : ∀ a, Agree R (f a) (g a)) :
    ((x >>= f) m).1 = ((y >>= g) n).1 ∧ R ((x >>= f) m).2 ((y >>= g) n).2 := by
  rw [Run.bind_apply, Run.bind_apply]
  revert same related
  rcases x m with ⟨outcome, m⟩
  rcases y n with ⟨_, n⟩
  rintro rfl related
  cases outcome with
  | ok a => exact rest a m n related
  | error e => exact ⟨rfl, related⟩

theorem bind {f : α → Run σ β} {g : α → Run τ β} (first : Agree R x y)
    (rest : ∀ a, Agree R (f a) (g a)) : Agree R (x >>= f) (y >>= g) := by
  intro m n related
  obtain ⟨same, related⟩ := first m n related
  exact bind_apply same related rest

theorem tryCatch {f : Failure → Run σ α} {g : Failure → Run τ α} (first : Agree R x y)
    (rest : ∀ e, Agree R (f e) (g e)) : Agree R (tryCatch x f) (tryCatch y g) := by
  intro m n related
  obtain ⟨same, related⟩ := first m n related
  rw [tryCatch_apply, tryCatch_apply]
  revert same related
  rcases x m with ⟨outcome, m⟩
  rcases y n with ⟨_, n⟩
  rintro rfl related
  cases outcome with
  | ok a => exact ⟨rfl, related⟩
  | error e => exact rest e m n related

theorem ensuring {x' : Run σ Unit} {y' : Run τ Unit} (first : Agree R x y)
    (last : Agree R x' y') : Agree R (ensuring x x') (Run.ensuring y y') := by
  intro m n related
  obtain ⟨same, related⟩ := first m n related
  rw [Run.ensuring, Run.ensuring]
  revert same related
  rcases x m with ⟨outcome, m⟩
  rcases y n with ⟨_, n⟩
  rintro rfl related
  obtain ⟨same, related⟩ := last m n related
  dsimp only
  revert same related
  rcases x' m with ⟨final, m⟩
  rcases y' n with ⟨_, n⟩
  rintro rfl related
  cases final with
  | ok _ => exact ⟨rfl, related⟩
  | error e => exact ⟨rfl, related⟩

end Agree

end Run

/-- The accesses to two memories agree. -/
structure Access.Agree {σ τ : Type} (R : Machine σ → Machine τ → Prop) (a : Access σ)
    (b : Access τ) : Prop where
  read (address length : Int) : Run.Agree R (a.read address length) (b.read address length)
  write (address : Int) (bs : Bytes) : Run.Agree R (a.write address bs) (b.write address bs)

namespace Exports

variable {σ τ : Type}

/-- Every export has the property `P`, whatever it is called with. -/
structure Each (P : {α : Type} → Run σ α → Prop) (e : Exports σ) : Prop where
  init (sanity : Bool) : P (e.init sanity)
  locate (address component high low : Int) : P (e.locate address component high low)
  setSignal (row component signal address : Int) : P (e.setSignal row component signal address)
  witnessSlot (index : Int) : P (e.witnessSlot index)
  slotLength : P e.slotLength
  primeAddress : P e.primeAddress
  witnessSize : P e.witnessSize
  witnessBuffer : P e.witnessBuffer

theorem Each.mono {P Q : {α : Type} → Run σ α → Prop} {e : Exports σ} (h : e.Each P)
    (weaken : ∀ {α : Type} {x : Run σ α}, P x → Q x) : e.Each Q where
  init _ := weaken (h.init _)
  locate _ _ _ _ := weaken (h.locate _ _ _ _)
  setSignal _ _ _ _ := weaken (h.setSignal _ _ _ _)
  witnessSlot _ := weaken (h.witnessSlot _)
  slotLength := weaken h.slotLength
  primeAddress := weaken h.primeAddress
  witnessSize := weaken h.witnessSize
  witnessBuffer := weaken h.witnessBuffer

/-- The exports of two programs agree. -/
structure Agree (R : Machine σ → Machine τ → Prop) (e : Exports σ) (f : Exports τ) : Prop where
  init (sanity : Bool) : Run.Agree R (e.init sanity) (f.init sanity)
  locate (address component high low : Int) :
    Run.Agree R (e.locate address component high low) (f.locate address component high low)
  setSignal (row component signal address : Int) :
    Run.Agree R (e.setSignal row component signal address)
      (f.setSignal row component signal address)
  witnessSlot (index : Int) : Run.Agree R (e.witnessSlot index) (f.witnessSlot index)
  witnessSize : Run.Agree R e.witnessSize f.witnessSize
  witnessBuffer : Run.Agree R e.witnessBuffer f.witnessBuffer

end Exports

namespace Slots

variable {σ τ : Type} {R : Machine σ → Machine τ → Prop}

/-- The slots of two programs agree: they have one layout, and the accesses to the memories
agree. -/
structure Agree (R : Machine σ → Machine τ → Prop) (s : Slots σ) (t : Slots τ) : Prop where
  memory : s.memory.Agree R t.memory
  codec : s.codec = t.codec

namespace Agree

variable {s : Slots σ} {t : Slots τ}

theorem readWord (h : Agree R s t) (address : Int) :
    Run.Agree R (s.readWord address) (t.readWord address) :=
  (h.memory.read address 4).bind fun _ => .pure _

theorem writeWord (h : Agree R s t) (address n : Int) :
    Run.Agree R (s.writeWord address n) (t.writeWord address n) :=
  h.memory.write address _

theorem allocate (h : Agree R s t) (size : Nat) :
    Run.Agree R (s.allocate size) (t.allocate size) :=
  (h.readWord 0).bind fun _ => (h.writeWord 0 _).bind fun _ => .pure _

theorem readSlot (h : Agree R s t) (address : Int) :
    Run.Agree R (s.readSlot address) (t.readSlot address) := by
  rw [Slots.readSlot, Slots.readSlot, h.codec]
  exact (h.memory.read address _).bind fun _ => .ofResult _

theorem writeSlot (h : Agree R s t) (address n : Int) :
    Run.Agree R (s.writeSlot address n) (t.writeSlot address n) := by
  rw [Slots.writeSlot, Slots.writeSlot, h.codec]
  exact (Run.Agree.ofResult _).bind fun bs => h.memory.write address bs

theorem readUntilZero (h : Agree R s t) (limit : Nat) (address : Int) :
    Run.Agree R (s.readUntilZero limit address) (t.readUntilZero limit address) := by
  induction limit generalizing address with
  | zero => exact .pure []
  | succ limit ih =>
    refine (h.memory.read address 1).bind fun chunk => ?_
    split
    · exact .pure []
    · exact (ih _).bind fun _ => .pure _

theorem readText (h : Agree R s t) (address : Int) (limit : Nat) :
    Run.Agree R (s.readText address limit) (t.readText address limit) :=
  (h.readUntilZero limit address).bind fun _ => .pure _

end Agree

end Slots

end Snark
