import Mathlib.Data.List.Forall2
import Snark.Container.Reader
import Snark.Proofs.Except

/-!
# What a reader accepts

What a computation over a section does is given by a relation between bytes and values: it returns a
value exactly if the section goes on with bytes that stand for the value, and then it has read these
bytes. Relations compose as the computations do, so that a file format can be read off its reader.
-/

namespace Snark

namespace Reader

variable {source : Section} {input : Bytes}

@[simp] theorem ofPayload_source : (ofPayload source input).source = source := rfl

@[simp] theorem ofPayload_rest : (ofPayload source input).rest = input := rfl

@[simp] theorem ofPayload_remaining : (ofPayload source input).remaining = input.length := rfl

/-- A reader is known by its section and the bytes that are still to be read. -/
theorem eq_ofPayload (r : Reader) : r = ofPayload r.source r.rest := by
  obtain ⟨source, remaining, rest, length⟩ := r
  subst length
  rfl

/-- The reader behind the next `k` bytes. -/
def skip (k : Nat) (r : Reader) : Reader :=
  ⟨r.source, r.remaining - k, r.rest.drop k, by simp [r.length_rest]⟩

/-- A read is refused if too few bytes are left, or if their number is negative. -/
theorem read_of_refused {r : Reader} {n : Int} (h : n < 0 ∨ (r.remaining : Int) < n) :
    r.read n = .error (.framing (.exhausted r.source.id r.position n)) := by
  have short : (decide (n < 0) || decide (r.remaining < n.toNat)) = true := by
    rw [Bool.or_eq_true, decide_eq_true_iff, decide_eq_true_iff]
    omega
  rw [read, if_pos short]

/-- Any other read gives the next bytes. -/
theorem read_of_granted {r : Reader} {n : Int} (h : ¬ (n < 0 ∨ (r.remaining : Int) < n)) :
    r.read n = .ok (r.rest.take n.toNat, r.skip n.toNat) := by
  have enough : ¬ (decide (n < 0) || decide (r.remaining < n.toNat)) = true := by
    rw [Bool.or_eq_true, decide_eq_true_iff, decide_eq_true_iff]
    omega
  rw [read, if_neg enough, skip]

end Reader

namespace Reading

variable {α β : Type}

/-- A computation that returns a value exactly if the next bytes stand for it, and reads those. -/
def Means (item : Reading α) (stands : Bytes → α → Prop) : Prop :=
  ∀ source input x r, item.run (.ofPayload source input) = .ok (x, r) ↔
    ∃ bs tail, input = bs ++ tail ∧ stands bs x ∧ r = .ofPayload source tail

theorem Means.pure (x : α) : Means (pure x) fun bs y => bs = [] ∧ y = x := by
  intro source input y r
  change Except.ok (x, Reader.ofPayload source input) = .ok (y, r) ↔ _
  rw [Except.ok.injEq, Prod.mk.injEq]
  constructor
  · rintro ⟨rfl, rfl⟩
    exact ⟨[], input, rfl, ⟨rfl, rfl⟩, rfl⟩
  · rintro ⟨bs, tail, rfl, ⟨rfl, rfl⟩, rfl⟩
    exact ⟨rfl, rfl⟩

theorem Means.bind {item : Reading α} {next : α → Reading β} {stands : Bytes → α → Prop}
    {follows : α → Bytes → β → Prop} (first : item.Means stands)
    (second : ∀ x, (next x).Means (follows x)) :
    (item >>= next).Means fun bs y =>
      ∃ bs₁ bs₂ x, bs = bs₁ ++ bs₂ ∧ stands bs₁ x ∧ follows x bs₂ y := by
  intro source input y r
  rw [StateT.run_bind, Except.bind_eq_ok_iff]
  constructor
  · rintro ⟨⟨x, middle⟩, read, rest⟩
    obtain ⟨bs₁, tail₁, rfl, stands₁, rfl⟩ := (first _ _ _ _).1 read
    obtain ⟨bs₂, tail₂, rfl, stands₂, rfl⟩ := (second _ _ _ _ _).1 rest
    exact ⟨bs₁ ++ bs₂, tail₂, (List.append_assoc ..).symm, ⟨bs₁, bs₂, x, rfl, stands₁, stands₂⟩,
      rfl⟩
  · rintro ⟨bs, tail, rfl, ⟨bs₁, bs₂, x, rfl, stands₁, stands₂⟩, rfl⟩
    refine ⟨(x, .ofPayload source (bs₂ ++ tail)), ?_, ?_⟩
    · exact (first _ _ _ _).2 ⟨bs₁, bs₂ ++ tail, List.append_assoc .., stands₁, rfl⟩
    · exact (second _ _ _ _ _).2 ⟨bs₂, tail, rfl, stands₂, rfl⟩

/-- The same relation, written in another way. -/
theorem Means.congr {item : Reading α} {stands stands' : Bytes → α → Prop}
    (h : item.Means stands) (same : ∀ bs x, stands bs x ↔ stands' bs x) : item.Means stands' := by
  intro source input x r
  rw [h]
  simp only [same]

theorem Means.lift (x : Result α) : Means (liftM x) fun bs y => bs = [] ∧ x = .ok y := by
  cases x with
  | error e =>
    intro source input y r
    constructor
    · intro failed
      cases failed
    · rintro ⟨_, _, _, ⟨_, failed⟩, _⟩
      cases failed
  | ok x =>
    refine (Means.pure x).congr fun bs y => ?_
    rw [Except.ok.injEq, eq_comm (a := x)]

theorem Means.require (holds : Bool) (otherwise : Failure) :
    Means (require holds otherwise) fun bs _ => bs = [] ∧ holds = true := by
  cases holds with
  | false =>
    intro source input y r
    constructor
    · intro failed
      cases failed
    · rintro ⟨_, _, _, ⟨_, failed⟩, _⟩
      cases failed
  | true =>
    refine (Means.pure ()).congr fun bs y => ?_
    simp

/-- A read takes the next bytes, and fails if there are too few. -/
theorem run_bytes (n : Nat) (source : Section) (input : Bytes) :
    (bytes n).run (.ofPayload source input) =
      if input.length < n then
        .error (.framing (.exhausted source.id (Reader.ofPayload source input).position n))
      else .ok (input.take n, .ofPayload source (input.drop n)) := by
  change Reader.read n (.ofPayload source input) = _
  by_cases few : input.length < n
  · rw [if_pos few, Reader.read_of_refused (.inr (Int.ofNat_lt.2 few)),
      Reader.ofPayload_source]
  · have granted : ¬ ((n : Int) < 0 ∨ (input.length : Int) < n) := by omega
    rw [if_neg few, Reader.read_of_granted granted]
    exact congrArg (fun r => Except.ok (input.take n, r)) (Reader.eq_ofPayload _)

theorem Means.bytes (n : Nat) : Means (bytes n) fun bs x => bs = x ∧ x.length = n := by
  intro source input x r
  rw [run_bytes]
  constructor
  · intro read
    split_ifs at read with few
    obtain ⟨rfl, rfl⟩ := Prod.mk.inj (Except.ok.inj read)
    exact ⟨input.take n, input.drop n, (List.take_append_drop n input).symm,
      ⟨rfl, List.length_take_of_le (Nat.not_lt.1 few)⟩, rfl⟩
  · rintro ⟨_, tail, rfl, ⟨rfl, rfl⟩, rfl⟩
    rw [if_neg (by simp), List.take_left, List.drop_left]

/-- Numbers of a fixed width have no other bytes than their own. -/
theorem Means.number (width : Nat) :
    Means (number width) fun bs n => bs = Bytes.ofNat width n ∧ n < Bytes.capacity width := by
  refine (Means.bind (Means.bytes width) fun bs => Means.pure bs.toNat).congr fun bs n => ?_
  constructor
  · rintro ⟨_, _, bs, rfl, ⟨rfl, rfl⟩, rfl, rfl⟩
    rw [List.append_nil, Bytes.ofNat_toNat]
    exact ⟨rfl, Bytes.toNat_lt _⟩
  · rintro ⟨rfl, fits⟩
    exact ⟨_, [], _, (List.append_nil _).symm, ⟨rfl, Bytes.length_ofNat width n⟩, rfl,
      (Bytes.toNat_ofNat_of_lt fits).symm⟩

/-- Some bytes stand for a number of values, one after another. -/
def StandMany (stands : Bytes → α → Prop) (n : Nat) (bs : Bytes) (xs : List α) : Prop :=
  ∃ blocks, bs = blocks.flatten ∧ List.Forall₂ stands blocks xs ∧ xs.length = n

theorem Means.manyFrom {item : Nat → Reading α} {stands : Bytes → α → Prop}
    (h : ∀ i, (item i).Means stands) (i n : Nat) :
    Means (manyFrom item i n) (StandMany stands n) := by
  induction n generalizing i with
  | zero =>
    refine (Means.pure []).congr fun bs xs => ?_
    constructor
    · rintro ⟨rfl, rfl⟩
      exact ⟨[], rfl, .nil, rfl⟩
    · rintro ⟨blocks, rfl, each, none⟩
      obtain rfl := List.eq_nil_of_length_eq_zero none
      cases each
      exact ⟨rfl, rfl⟩
  | succ n ih =>
    refine ((h i).bind fun x => (ih (i + 1)).bind fun xs => Means.pure (x :: xs)).congr
      fun bs xs => ?_
    constructor
    · rintro ⟨bs₁, _, x, rfl, first, _, _, xs, rfl, ⟨blocks, rfl, rest, rfl⟩, rfl, rfl⟩
      exact ⟨bs₁ :: blocks, by simp, .cons first rest, rfl⟩
    · rintro ⟨blocks, rfl, each, length⟩
      cases each with
      | nil => cases length
      | @cons bs₁ x blocks xs first rest =>
        exact ⟨bs₁, blocks.flatten, x, rfl, first, blocks.flatten, [], xs, by simp,
          ⟨blocks, rfl, rest, Nat.succ.inj length⟩, rfl, rfl⟩

/-- Things that are all read alike need not know their numbers. -/
theorem manyFrom_const (item : Reading α) (i n : Nat) :
    manyFrom (fun _ => item) i n = many item n := by
  induction n generalizing i with
  | zero => rfl
  | succ n ih => rw [manyFrom, many, ih]

theorem Means.many {item : Reading α} {stands : Bytes → α → Prop} (h : item.Means stands)
    (n : Nat) : Means (many item n) (StandMany stands n) := by
  rw [← manyFrom_const item 0 n]
  exact Means.manyFrom (fun _ => h) 0 n

/-- A computation that, started in front of a section, returns a value exactly if the section as a
whole stands for it. -/
def MeansWhole (item : Reading α) (stands : Bytes → α → Prop) : Prop :=
  ∀ source input x, source.size = input.length →
    ((∃ r, item.run (.ofPayload source input) = .ok (x, r)) ↔ stands input x)

theorem MeansWhole.congr {item : Reading α} {stands stands' : Bytes → α → Prop}
    (h : item.MeansWhole stands) (same : ∀ bs x, stands bs x ↔ stands' bs x) :
    item.MeansWhole stands' := by
  intro source input x size_eq
  rw [h source input x size_eq, same]

/-- A computation that is told the length of the section and reads as many bytes. -/
theorem MeansWhole.sized {item : Nat → Reading α} {stands : Nat → Bytes → α → Prop}
    (h : ∀ size, (item size).Means (stands size))
    (fills : ∀ {size bs x}, stands size bs x → bs.length = size) :
    MeansWhole (do item (← get).source.size) fun bs x => stands bs.length bs x := by
  intro source input x size_eq
  change (∃ r, (item source.size).run (.ofPayload source input) = .ok (x, r)) ↔ _
  constructor
  · rintro ⟨r, read⟩
    obtain ⟨bs, tail, rfl, stands, -⟩ := (h _ _ _ _ _).1 read
    have length : bs.length = source.size := fills stands
    obtain rfl : tail = [] := by
      rw [List.length_append] at size_eq
      exact List.eq_nil_of_length_eq_zero (by omega)
    rwa [List.append_nil, length]
  · intro stands
    refine ⟨.ofPayload source [], (h _ _ _ _ _).2 ⟨input, [], ?_, ?_, rfl⟩⟩
    · exact (List.append_nil input).symm
    · rwa [size_eq]

/-- The end of a section is where nothing is left of it. -/
theorem run_atEnd (r : Reader) :
    atEnd.run r = if r.remaining = 0 then .ok ((), r)
      else .error (.framing (.trailing r.source.id r.remaining)) := by
  change (r.expectEnd >>= fun u => Except.ok (u, r)) = _
  rw [Reader.expectEnd]
  by_cases finished : r.remaining = 0
  · rw [if_pos finished, if_pos finished, Except.ok_bind]
  · rw [if_neg finished, if_neg finished, Except.error_bind]

/-- A computation that reads up to the end of the section. -/
theorem MeansWhole.ended {item : Reading α} {stands : Bytes → α → Prop} (h : item.Means stands) :
    MeansWhole (do let x ← item; atEnd; return x) stands := by
  intro source input x _
  have finish (tail : Bytes) (y : α) (r : Reader) :
      (do atEnd; return y : Reading α).run (.ofPayload source tail) = .ok (x, r) ↔
        tail = [] ∧ y = x ∧ .ofPayload source tail = r := by
    rw [StateT.run_bind, run_atEnd, Reader.ofPayload_remaining]
    by_cases empty : tail.length = 0
    · rw [if_pos empty, Except.ok_bind]
      change Except.ok (y, Reader.ofPayload source tail) = _ ↔ _
      rw [Except.ok.injEq, Prod.mk.injEq, ← List.length_eq_zero_iff, iff_true_intro empty, true_and]
    · rw [if_neg empty, Except.error_bind, ← List.length_eq_zero_iff, iff_false_intro empty,
        false_and]
      exact iff_of_false (fun failed => by cases failed) id
  constructor
  · rintro ⟨r, read⟩
    rw [StateT.run_bind] at read
    obtain ⟨⟨y, middle⟩, first, rest⟩ := Except.bind_eq_ok_iff.1 read
    obtain ⟨bs, tail, rfl, stands, rfl⟩ := (h _ _ _ _).1 first
    obtain ⟨rfl, rfl, -⟩ := (finish _ _ _).1 rest
    rwa [List.append_nil]
  · intro stands
    refine ⟨.ofPayload source [], ?_⟩
    rw [StateT.run_bind]
    refine Except.bind_eq_ok_iff.2 ⟨(x, .ofPayload source []), ?_, (finish _ _ _).2 ⟨rfl, rfl, rfl⟩⟩
    exact (h _ _ _ _).2 ⟨input, [], (List.append_nil input).symm, stands, rfl⟩

/-- Every failure of a computation is of a given sort, wherever it starts. -/
def FailsIn (sort : Failure → Prop) (item : Reading α) : Prop :=
  ∀ r, Except.FailsIn sort (item.run r)

namespace FailsIn

variable {sort : Failure → Prop} {item : Reading α}

theorem pure (x : α) : FailsIn sort (pure x : Reading α) := fun r => .ok (x, r)

theorem bind {next : α → Reading β} (first : FailsIn sort item)
    (second : ∀ x, FailsIn sort (next x)) : FailsIn sort (item >>= next) := by
  intro r
  rw [StateT.run_bind]
  exact (first r).bind fun ⟨x, r'⟩ _ => second x r'

theorem lift {x : Result α} (h : Except.FailsIn sort x) : FailsIn sort (liftM x : Reading α) := by
  intro r
  exact h.bind fun a _ => .ok (a, r)

theorem require (holds : Bool) {otherwise : Failure} (h : sort otherwise) :
    FailsIn sort (require holds otherwise) := by
  cases holds with
  | false => exact fun r => .error h
  | true => exact pure ()

theorem manyFrom {item : Nat → Reading α} (h : ∀ i, FailsIn sort (item i)) (i n : Nat) :
    FailsIn sort (manyFrom item i n) := by
  induction n generalizing i with
  | zero => exact pure []
  | succ n ih => exact (h i).bind fun x => (ih (i + 1)).bind fun xs => pure (x :: xs)

theorem many (h : FailsIn sort item) (n : Nat) : FailsIn sort (many item n) := by
  rw [← manyFrom_const item 0 n]
  exact manyFrom (fun _ => h) 0 n

theorem sized {item : Nat → Reading α} (h : ∀ size, FailsIn sort (item size)) :
    FailsIn sort (do item (← get).source.size) :=
  fun r => h r.source.size r

theorem atEnd (framing : ∀ e, sort (.framing e)) : FailsIn sort atEnd := by
  intro r
  rw [run_atEnd]
  exact .ite (fun _ => .ok _) fun _ => .error (framing _)

theorem bytes (framing : ∀ e, sort (.framing e)) (n : Nat) : FailsIn sort (bytes n) := by
  intro r
  rw [r.eq_ofPayload, run_bytes]
  split_ifs
  · exact .error (framing _)
  · exact .ok _

theorem number (framing : ∀ e, sort (.framing e)) (width : Nat) : FailsIn sort (number width) :=
  (bytes framing width).bind fun bs => pure bs.toNat

end FailsIn

end Reading

end Snark
