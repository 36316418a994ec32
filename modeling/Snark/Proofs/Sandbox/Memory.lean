import Snark.Program.Module
import Snark.Program.Scripted
import Snark.Proofs.Sandbox.Agreement

/-!
# Accesses to one string of bytes

The accesses to the memory of a program act on one string of bytes if reading gives a part of it and
changes nothing, writing replaces a part of it and nothing else, and whatever lies outside of it is
refused. The accesses of modules and of scripted programs are of this kind, and what comes of them
depends on those bytes alone.
-/

namespace Snark

/-- The string with the bytes from an address on replaced. -/
def Bytes.overwrite (contents : Bytes) (address : Nat) (bs : Bytes) : Bytes :=
  contents.take address ++ bs ++ contents.drop (address + bs.length)

namespace Bytes

variable {contents bs : Bytes} {address : Nat}

theorem length_overwrite (inside : address + bs.length ≤ contents.length) :
    (contents.overwrite address bs).length = contents.length := by
  rw [overwrite, List.length_append, List.length_append, List.length_take, List.length_drop]
  omega

/-- What has been written is what is read back. -/
theorem take_drop_overwrite (inside : address + bs.length ≤ contents.length) :
    ((contents.overwrite address bs).drop address).take bs.length = bs := by
  have start : (contents.take address).length = address := by
    rw [List.length_take]
    omega
  rw [overwrite, List.append_assoc, List.drop_left' start, List.take_left]

/-- The bytes in front are left alone. -/
theorem take_overwrite {count : Nat} (before : count ≤ address)
    (inside : address ≤ contents.length) :
    (contents.overwrite address bs).take count = contents.take count := by
  rw [overwrite, List.append_assoc, List.take_append_of_le_length, List.take_take,
    Nat.min_eq_left before]
  rw [List.length_take]
  omega

theorem getElem?_overwrite (inside : address + bs.length ≤ contents.length) (i : Nat) :
    (contents.overwrite address bs)[i]? =
      if address ≤ i then (bs[i - address]?).or contents[i]? else contents[i]? := by
  have start : (contents.take address).length = address := by
    rw [List.length_take]
    omega
  rw [overwrite, List.append_assoc]
  split
  next late =>
    rw [List.getElem?_append_right (by omega), start, List.getElem?_append, List.getElem?_drop]
    split
    next within => rw [List.getElem?_eq_getElem within, Option.some_or]
    next beyond =>
      have same : address + bs.length + (i - address - bs.length) = i := by omega
      rw [List.getElem?_eq_none (Nat.not_lt.1 beyond), Option.none_or, same]
  next early =>
    rw [List.getElem?_append_left (by omega), List.getElem?_take_of_lt (by omega)]

/-- Two strings of one length, which differ between two places at most. -/
structure SameOutside (start stop : Nat) (bs bs' : Bytes) : Prop where
  length_eq : bs'.length = bs.length
  getElem?_eq {i : Nat} (outside : i < start ∨ stop ≤ i) : bs'[i]? = bs[i]?

theorem sameOutside_overwrite (inside : address + bs.length ≤ contents.length) :
    SameOutside address (address + bs.length) contents (contents.overwrite address bs) where
  length_eq := length_overwrite inside
  getElem?_eq {i} outside := by
    rw [getElem?_overwrite inside]
    split
    next late => rw [List.getElem?_eq_none (by omega), Option.none_or]
    next => rfl

namespace SameOutside

variable {start stop : Nat} {bs bs' : Bytes} (same : SameOutside start stop bs bs')
include same

theorem mono {stop' : Nat} (later : stop ≤ stop') : SameOutside start stop' bs bs' where
  length_eq := same.length_eq
  getElem?_eq outside := same.getElem?_eq (by omega)

/-- A part that lies in front of what differs or behind it is the same. -/
theorem take_drop_eq {address count : Nat} (apart : address + count ≤ start ∨ stop ≤ address) :
    (bs'.drop address).take count = (bs.drop address).take count := by
  apply List.ext_getElem?
  intro i
  rw [List.getElem?_take, List.getElem?_take, List.getElem?_drop, List.getElem?_drop]
  split
  next within => exact same.getElem?_eq (by omega)
  next => rfl

end SameOutside

end Bytes

/-- Two machines look alike: their programs agree in what `view` shows and in the bytes of their
memories. What observers have seen does not count. -/
def Machine.Alike {σ π : Type} (view : σ → π) (contents : σ → Bytes) (m n : Machine σ) : Prop :=
  view m.program = view n.program ∧ contents m.program = contents n.program

/-- A read that succeeds gives as many bytes as it is asked for. -/
def Access.ReadsInFull {σ : Type} (a : Access σ) : Prop :=
  ∀ {address length : Int} {m n : Machine σ} {bs : Bytes}, 0 ≤ length →
    a.read address length m = (.ok bs, n) → (bs.length : Int) = length

/-- The accesses act on the given string of bytes. Whether an empty write is refused is left
open. -/
structure Access.ActsOn {σ : Type} (a : Access σ) (contents : σ → Bytes) : Prop where
  read_state (address length : Int) (m : Machine σ) : (a.read address length m).2 = m
  read_inside {address length : Nat} {m : Machine σ}
    (inside : address + length ≤ (contents m.program).length) :
    (a.read address length m).1 = .ok (((contents m.program).drop address).take length)
  read_outside {address length : Int} {m : Machine σ} (counts : 0 ≤ length)
    (outside : address < 0 ∨ (contents m.program).length < address + length) :
    ∃ e, (a.read address length m).1 = .error e
  write_outcome {address : Nat} {bs : Bytes} {m : Machine σ} (nonempty : bs ≠ [])
    (inside : address + bs.length ≤ (contents m.program).length) :
    (a.write address bs m).1 = .ok ()
  write_inside {address : Nat} {bs : Bytes} {m : Machine σ}
    (inside : address + bs.length ≤ (contents m.program).length) :
    contents (a.write address bs m).2.program = (contents m.program).overwrite address bs
  write_outside {address : Int} {bs : Bytes} {m : Machine σ}
    (outside : address < 0 ∨ (contents m.program).length < address + bs.length) :
    (∃ e, (a.write address bs m).1 = .error e) ∧
      contents (a.write address bs m).2.program = contents m.program

namespace Access.ActsOn

variable {σ : Type} {a : Access σ} {contents : σ → Bytes} (acts : a.ActsOn contents)
include acts

/-- A read inside the memory succeeds and leaves the machine as it is. -/
theorem read_eq {address length : Nat} {m : Machine σ}
    (inside : address + length ≤ (contents m.program).length) :
    a.read address length m = (.ok (((contents m.program).drop address).take length), m) :=
  Prod.ext (acts.read_inside inside) (acts.read_state _ _ m)

/-- A read outside of the memory fails and leaves the machine as it is. -/
theorem read_refused {address length : Int} {m : Machine σ} (counts : 0 ≤ length)
    (outside : address < 0 ∨ (contents m.program).length < address + length) :
    ∃ e, a.read address length m = (.error e, m) := by
  obtain ⟨e, refused⟩ := acts.read_outside counts outside
  exact ⟨e, Prod.ext refused (acts.read_state _ _ m)⟩

theorem readsInFull : a.ReadsInFull := by
  intro address length m n bs counts h
  by_cases outside : address < 0 ∨ (contents m.program).length < address + length
  · obtain ⟨e, refused⟩ := acts.read_refused counts outside
    rw [refused] at h
    cases h
  · obtain ⟨start, rfl⟩ : ∃ start : Nat, address = start := ⟨address.toNat, by omega⟩
    obtain ⟨count, rfl⟩ : ∃ count : Nat, length = count := ⟨length.toNat, by omega⟩
    have inside : start + count ≤ (contents m.program).length := by omega
    rw [acts.read_eq inside] at h
    cases h
    rw [List.length_take, List.length_drop]
    omega

/-- No access changes the size of the memory. -/
theorem length_write (address : Int) (bs : Bytes) (m : Machine σ) :
    (contents (a.write address bs m).2.program).length = (contents m.program).length := by
  by_cases outside : address < 0 ∨ (contents m.program).length < address + bs.length
  · rw [(acts.write_outside outside).2]
  · obtain ⟨start, rfl⟩ : ∃ start : Nat, address = start := ⟨address.toNat, by omega⟩
    have inside : start + bs.length ≤ (contents m.program).length := by omega
    rw [acts.write_inside inside, Bytes.length_overwrite inside]

/-- Two machines that are one stay one through every access, and so does the size of the memory. -/
theorem agree_length (good : Nat → Prop) :
    a.Agree (Run.Same fun m => good (contents m.program).length) a where
  read address length := Run.agree_same_iff.2 fun m h => by rwa [acts.read_state]
  write address bs := Run.agree_same_iff.2 fun m h => by rwa [acts.length_write]

end Access.ActsOn

namespace Memory

/-- All bytes of a memory. -/
def contents (m : Memory) : Bytes := m.bytesAt 0 m.size

variable {m : Memory}

@[simp] theorem length_contents (m : Memory) : m.contents.length = m.size := by
  simp [contents, bytesAt]

theorem getElem?_contents (i : Nat) :
    m.contents[i]? = if i < m.size then some (m.byteAt i) else none := by
  split
  next inside => simp [contents, bytesAt, inside]
  next outside => exact List.getElem?_eq_none (by simpa using outside)

theorem covers_eq_false {address length : Int} (h : address < 0 ∨ m.size < address + length) :
    m.covers address length = false := by
  rw [covers, Bool.and_eq_false_iff, decide_eq_false_iff_not, decide_eq_false_iff_not]
  omega

theorem covers_natCast {address length : Nat} (inside : address + length ≤ m.size) :
    m.covers address length = true := by
  rw [covers, Bool.and_eq_true, decide_eq_true_iff, decide_eq_true_iff]
  omega

/-- The bytes of a range inside a memory are a part of its contents. -/
theorem bytesAt_eq {address count : Nat} (inside : address + count ≤ m.size) :
    m.bytesAt address count = (m.contents.drop address).take count := by
  apply List.ext_getElem?
  intro i
  rw [List.getElem?_take, List.getElem?_drop, getElem?_contents]
  by_cases h : i < count
  · have : address + i < m.size := by omega
    simp [bytesAt, h, this]
  · rw [if_neg h, List.getElem?_eq_none]
    simpa [bytesAt] using h

theorem contents_store {address : Nat} {bs : Bytes} (inside : address + bs.length ≤ m.size) :
    (m.store address bs).contents = m.contents.overwrite address bs := by
  apply List.ext_getElem?
  intro i
  rw [Bytes.getElem?_overwrite (by simpa using inside), getElem?_contents, getElem?_contents,
    size_store, byteAt_store]
  by_cases late : address ≤ i
  · rw [if_pos late, if_pos late]
    by_cases within : i - address < bs.length
    · have : i < m.size := by omega
      simp [within, this]
    · simp [Nat.not_lt.1 within]
  · rw [if_neg late, if_neg late]

theorem read?_eq {address length : Nat} (inside : address + length ≤ m.size) :
    m.read? address length = some ((m.contents.drop address).take length) := by
  have stop : Position.bound m.size ((address : Int) + length) = address + length := by
    rw [Position.bound]
    omega
  rw [read?, if_pos (covers_natCast inside), stop, Int.toNat_natCast]
  dsimp only
  rw [Nat.add_sub_cancel_left, bytesAt_eq inside]

theorem write?_eq {address : Nat} {bs : Bytes} (inside : address + bs.length ≤ m.size) :
    m.write? address bs = some (m.store address bs) := by
  rw [write?, if_pos (covers_natCast inside), Int.toNat_natCast]

section Congr

variable {m n : Memory} (same : m.contents = n.contents)
include same

theorem size_congr : m.size = n.size := by
  rw [← length_contents, same, length_contents]

/-- What a memory holds decides what is read from it. -/
theorem read?_congr (address length : Int) : m.read? address length = n.read? address length := by
  rw [read?, read?, covers, covers, size_congr same]
  split
  next inside =>
    refine congrArg some (List.map_congr_left fun i member => ?_)
    have stop : Position.bound n.size (address + length) ≤ n.size := Nat.min_le_right _ _
    have within : address.toNat + i < n.size := by
      have := List.mem_range.1 member
      omega
    have both : m.contents[address.toNat + i]? = n.contents[address.toNat + i]? := by rw [same]
    rw [getElem?_contents, getElem?_contents, size_congr same, if_pos within, if_pos within] at both
    exact Option.some.inj both
  next => rfl

/-- What a memory holds decides what it holds after a write. -/
theorem write?_congr (address : Int) (bs : Bytes) :
    (m.write? address bs).map contents = (n.write? address bs).map contents := by
  rw [write?, write?, covers, covers, size_congr same]
  split
  next inside =>
    rw [Bool.and_eq_true, decide_eq_true_iff, decide_eq_true_iff] at inside
    have stop : address.toNat + bs.length ≤ n.size := by omega
    rw [Option.map_some, Option.map_some, contents_store (size_congr same ▸ stop),
      contents_store stop, same]
  next => rfl

theorem refusal_congr (address length : Int) (located : Bool) :
    m.refusal address length located = n.refusal address length located := by
  rw [refusal, refusal, size_congr same]

end Congr

section Access

variable {σ : Type} {memory : σ → Memory} {set : Memory → σ → σ}

theorem read_access (located : Bool) (address length : Int) (m : Machine σ) :
    (access memory set located).read address length m =
      match (memory m.program).read? address length with
        | some bs => (.ok bs, m)
        | none => (.error ((memory m.program).refusal address length located), m) := by
  simp only [access, Run.bind_apply, Run.program_apply]
  cases (memory m.program).read? address length <;> rfl

theorem write_access (located : Bool) (address : Int) (bs : Bytes) (m : Machine σ) :
    (access memory set located).write address bs m =
      match (memory m.program).write? address bs with
        | some written => (.ok (), { m with program := set written m.program })
        | none => (.error ((memory m.program).refusal address bs.length located), m) := by
  simp only [access, Run.bind_apply, Run.program_apply]
  cases (memory m.program).write? address bs <;> rfl

theorem access_actsOn (kept : ∀ (written : Memory) (s : σ), memory (set written s) = written)
    (located : Bool) : (access memory set located).ActsOn fun s => (memory s).contents where
  read_state address length m := by
    rw [read_access]
    split <;> rfl
  read_inside inside := by
    rw [length_contents] at inside
    rw [read_access, read?_eq inside]
  read_outside {address length m} _ outside := by
    rw [length_contents] at outside
    rw [read_access, read?, covers_eq_false outside]
    exact ⟨_, rfl⟩
  write_outcome {address bs m} _ inside := by
    rw [length_contents] at inside
    rw [write_access, write?_eq inside]
  write_inside {address bs m} inside := by
    rw [length_contents] at inside
    rw [write_access, write?_eq inside]
    dsimp only
    rw [kept, contents_store inside]
  write_outside {address bs m} outside := by
    rw [length_contents] at outside
    rw [write_access, write?, covers_eq_false outside]
    exact ⟨⟨_, rfl⟩, rfl⟩

/-- What comes of an access depends on nothing but what the memory holds. -/
theorem access_agree {π : Type} {view : σ → π}
    (kept : ∀ (written : Memory) (s : σ), memory (set written s) = written)
    (beside : ∀ (written : Memory) (s : σ), view (set written s) = view s) (located : Bool) :
    (access memory set located).Agree (Machine.Alike view fun s => (memory s).contents)
      (access memory set located) where
  read address length := by
    rintro m n ⟨aside, same⟩
    rw [read_access, read_access, read?_congr same, refusal_congr same]
    cases (memory n.program).read? address length with
    | some bs => exact ⟨rfl, aside, same⟩
    | none => exact ⟨rfl, aside, same⟩
  write address bs := by
    rintro m n ⟨aside, same⟩
    have after := write?_congr same address bs
    rw [write_access, write_access, refusal_congr same]
    revert after
    cases (memory m.program).write? address bs with
    | some written =>
      cases (memory n.program).write? address bs with
      | some written' =>
        intro after
        refine ⟨rfl, by rw [beside, beside, aside], ?_⟩
        dsimp only
        rw [kept, kept, Option.some.inj after]
      | none => exact fun after => absurd after (Option.some_ne_none _)
    | none =>
      cases (memory n.program).write? address bs with
      | some written' => exact fun after => absurd after.symm (Option.some_ne_none _)
      | none => exact fun _ => ⟨rfl, aside, same⟩

end Access

end Memory

/-- The accesses to the memory of a scripted program act on that memory. -/
theorem Scripted.access_actsOn : Scripted.access.ActsOn fun s => s.memory.contents :=
  Memory.access_actsOn (fun _ _ => rfl) false

namespace Module

/-- The accesses to the memory of an instance, but for the check of where an empty write starts. -/
def plainAccess : Access Instance :=
  Memory.access Instance.memory (fun m s => { s with memory := m }) true

theorem plainAccess_actsOn : plainAccess.ActsOn fun s => s.memory.contents :=
  Memory.access_actsOn (fun _ _ => rfl) true

theorem write_access (address : Int) (bs : Bytes) (m : Machine Instance) :
    access.write address bs m =
      match plainAccess.write address bs m with
      | (.ok _, n) =>
        if address = n.program.memory.size then (.error (.fault .memoryEnd), n) else (.ok (), n)
      | (.error e, n) => (.error e, n) := by
  have step : access.write address bs = plainAccess.write address bs >>= fun _ =>
      Run.program >>= fun s =>
        if address = s.memory.size then throw (.fault .memoryEnd) else pure () := rfl
  rw [step, Run.bind_apply]
  rcases plainAccess.write address bs m with ⟨_ | _, n⟩
  · rfl
  · dsimp only
    rw [Run.bind_apply, Run.program_apply]
    dsimp only
    split <;> rfl

/-- A check that fails comes after the write. -/
theorem state_write_access (address : Int) (bs : Bytes) (m : Machine Instance) :
    (access.write address bs m).2 = (plainAccess.write address bs m).2 := by
  rw [write_access]
  rcases plainAccess.write address bs m with ⟨_ | _, n⟩
  · rfl
  · dsimp only
    split <;> rfl

/-- The accesses to the memory of an instance act on that memory. -/
theorem access_actsOn : access.ActsOn fun s => s.memory.contents where
  read_state := plainAccess_actsOn.read_state
  read_inside := plainAccess_actsOn.read_inside
  read_outside := plainAccess_actsOn.read_outside
  write_outcome {address bs m} nonempty inside := by
    have done := plainAccess_actsOn.write_outcome nonempty inside
    have size := congrArg List.length (plainAccess_actsOn.write_inside inside)
    rw [Bytes.length_overwrite inside, Memory.length_contents] at size
    have room := List.length_pos_iff.2 nonempty
    rw [write_access]
    revert done size
    rcases plainAccess.write address bs m with ⟨outcome, n⟩
    rintro rfl size
    -- The check behind the write can only fail for an empty write at the very end.
    have apart : ¬ (address : Int) = n.program.memory.size := by
      dsimp only at size
      omega
    dsimp only
    rw [if_neg apart]
  write_inside {address bs m} inside := by
    rw [state_write_access]
    exact plainAccess_actsOn.write_inside inside
  write_outside {address bs m} outside := by
    obtain ⟨⟨e, refused⟩, kept⟩ := plainAccess_actsOn.write_outside outside
    rw [state_write_access]
    refine ⟨⟨e, ?_⟩, kept⟩
    rw [write_access]
    revert refused
    rcases plainAccess.write address bs m with ⟨outcome, n⟩
    rintro rfl
    rfl

end Module

end Snark
