import Snark.Proofs.Container.Framing
import Snark.Proofs.Failure

/-!
# Readers that do not know where they stand

A section is read from its payload alone. Where the section stands in the container enters only the
report of a read that ran out of bytes, so from sections with the same id and the same payload a
computation comes to the same outcome up to that place. This is built up along the way in which
computations are put together, and it carries over to containers in which the first sections with
an id have the same payload.
-/

namespace Snark

namespace Result

variable {α β γ δ : Type}

/-- Two outcomes are related values, or failures that differ at most in a place. -/
inductive Agree (R : α → β → Prop) : Result α → Result β → Prop
  | ok {a : α} {b : β} (related : R a b) : Agree R (.ok a) (.ok b)
  | error {e e' : Failure} (same : e.SameUpToPlace e') : Agree R (.error e) (.error e')

namespace Agree

theorem refl (x : Result α) : Agree Eq x x := by
  cases x with
  | ok a => exact .ok rfl
  | error e => exact .error (.refl e)

theorem bind {R : α → β → Prop} {S : γ → δ → Prop} {x : Result α} {y : Result β}
    {f : α → Result γ} {g : β → Result δ} (first : Agree R x y)
    (rest : ∀ a b, R a b → Agree S (f a) (g b)) : Agree S (x >>= f) (y >>= g) := by
  cases first with
  | ok related => exact rest _ _ related
  | error same => exact .error same

/-- What follows two operations that return the same value. -/
theorem bindEq {S : γ → δ → Prop} {x y : Result α} {f : α → Result γ} {g : α → Result δ}
    (first : Agree Eq x y) (rest : ∀ a, Agree S (f a) (g a)) : Agree S (x >>= f) (y >>= g) :=
  first.bind fun a _ same => same ▸ rest a

end Agree

/-- Two outcomes are the same value, or failures that a caller cannot tell apart. -/
def Same (x y : Result α) : Prop :=
  (∃ a, x = .ok a ∧ y = .ok a) ∨ ∃ e e', x = .error e ∧ y = .error e' ∧ e.SameKind e'

theorem Same.eq_ok {x y : Result α} {a : α} (h : Same x y) (hx : x = .ok a) : y = .ok a := by
  obtain ⟨b, same, hy⟩ | ⟨e, e', failed, -⟩ := h
  · rw [hy, ← same, hx]
  · cases hx.symm.trans failed

theorem Agree.same {x y : Result α} (h : Agree Eq x y) : Same x y := by
  cases h with
  | ok related => exact .inl ⟨_, rfl, related ▸ rfl⟩
  | error same => exact .inr ⟨_, _, rfl, rfl, same.sameKind⟩

end Result

/-- Two readers hold the same bytes of sections with the same id and the same length. -/
structure Reader.SameUpToPlace (r r' : Reader) : Prop where
  id_eq : r.source.id = r'.source.id
  size_eq : r.source.size = r'.source.size
  rest_eq : r.rest = r'.rest

theorem Reader.SameUpToPlace.remaining_eq {r r' : Reader} (h : r.SameUpToPlace r') :
    r.remaining = r'.remaining := by
  rw [← r.length_rest, ← r'.length_rest, h.rest_eq]

namespace Reading

variable {α β : Type}

/-- A computation does not depend on where the section stands. -/
def Placeless (item : Reading α) : Prop :=
  ∀ r r', r.SameUpToPlace r' →
    Result.Agree (fun o o' => o.1 = o'.1 ∧ o.2.SameUpToPlace o'.2) (item.run r) (item.run r')

namespace Placeless

variable {item : Reading α}

theorem pure (x : α) : Placeless (pure x : Reading α) := fun _ _ same => .ok ⟨rfl, same⟩

theorem throw (e : Failure) : Placeless (throw e : Reading α) := fun _ _ _ => .error (.refl e)

theorem bind {next : α → Reading β} (first : Placeless item) (second : ∀ x, Placeless (next x)) :
    Placeless (item >>= next) := by
  intro r r' same
  rw [StateT.run_bind, StateT.run_bind]
  refine (first r r' same).bind ?_
  rintro ⟨x, s⟩ ⟨_, s'⟩ ⟨rfl, same⟩
  exact second x s s' same

theorem lift (x : Result α) : Placeless (liftM x : Reading α) := by
  cases x with
  | ok x => exact pure x
  | error e => exact throw e

theorem require (holds : Bool) (otherwise : Failure) : Placeless (require holds otherwise) := by
  cases holds with
  | false => exact throw otherwise
  | true => exact pure ()

theorem bytes (n : Nat) : Placeless (bytes n) := by
  intro r r' same
  rw [r.eq_ofPayload, r'.eq_ofPayload, run_bytes, run_bytes, same.rest_eq, same.id_eq]
  split_ifs
  · -- The report names the position, and nothing else about it differs.
    exact .error (.exhausted ..)
  · exact .ok ⟨rfl, same.id_eq, same.size_eq, rfl⟩

theorem number (width : Nat) : Placeless (number width) :=
  (bytes width).bind fun bs => pure bs.toNat

theorem manyFrom {item : Nat → Reading α} (h : ∀ i, Placeless (item i)) (i n : Nat) :
    Placeless (manyFrom item i n) := by
  induction n generalizing i with
  | zero => exact pure []
  | succ n ih => exact (h i).bind fun x => (ih (i + 1)).bind fun xs => pure (x :: xs)

theorem many (h : Placeless item) (n : Nat) : Placeless (many item n) := by
  rw [← manyFrom_const item 0 n]
  exact manyFrom (fun _ => h) 0 n

/-- A computation may look at the reader if it does not see where the section stands. -/
theorem get {next : Reader → Reading α} (blind : ∀ r r', r.SameUpToPlace r' → next r = next r')
    (h : ∀ r, Placeless (next r)) : Placeless (get >>= next) := by
  intro r r' same
  change Result.Agree _ ((next r).run r) ((next r').run r')
  rw [blind r r' same]
  exact h r' r r' same

theorem atEnd : Placeless atEnd := by
  intro r r' same
  rw [run_atEnd, run_atEnd, same.remaining_eq, same.id_eq]
  split_ifs
  · exact .ok ⟨rfl, same⟩
  · exact .error (.refl _)

end Placeless

end Reading

namespace Container

variable {c c' : Container} {ids : List Nat}

/-- The first sections with certain ids have the same id, length and payload, or are
both missing. -/
structure Alike (ids : List Nat) (c c' : Container) : Prop where
  version_eq : c.version = c'.version
  find_agree : ∀ id ∈ ids, Result.Agree
    (fun s s' => s.id = s'.id ∧ s.size = s'.size ∧ c.payload s = c'.payload s')
    (c.find id) (c'.find id)

section SameFirst

variable {magic data data' tail tail' : Bytes} {version : Nat} {parts parts' : List (Nat × Bytes)}

/-- Two byte strings are containers of one type and version in which the first sections with certain
ids have the same payload, or are both missing. -/
def SameFirst (magic : Bytes) (version : Nat) (ids : List Nat) (data data' : Bytes) : Prop :=
  ∃ c c', parse magic [version] data = .ok c ∧ parse magic [version] data' = .ok c' ∧
    ∀ id ∈ ids, c.contents.lookup id = c'.contents.lookup id

/-- Framed bytes are compared by their sections. -/
theorem Framed.sameFirst (h : Framed magic version parts tail data)
    (h' : Framed magic version parts' tail' data') (hmagic : magic.length = 4)
    (hversion : version < Bytes.capacity 4) {name : String} (named : nameOf magic = .ok name)
    (same : ∀ id ∈ ids, parts.lookup id = parts'.lookup id) :
    SameFirst magic version ids data data' := by
  obtain ⟨c, read, -, rfl⟩ := h.exists_parse hmagic hversion named
  obtain ⟨c', read', -, rfl⟩ := h'.exists_parse hmagic hversion named
  exact ⟨c, c', read, read', same⟩

theorem name_of_parse {versions : List Int} (h : parse magic versions data = .ok c) :
    nameOf magic = .ok c.name := by
  obtain ⟨_, _, _, _, -, -, -, -, -, -, named, rfl⟩ := parse_eq_ok_iff.1 h
  exact named

/-- Sections with the same payload are found at the same time, wherever they stand. -/
theorem SameFirst.exists_alike (h : SameFirst magic version ids data data') :
    ∃ c c', parse magic [version] data = .ok c ∧ parse magic [version] data' = .ok c' ∧
      Alike ids c c' := by
  obtain ⟨c, c', read, read', same⟩ := h
  obtain ⟨_, consists, version_eq, -⟩ := framed_of_parse read
  obtain ⟨_, consists', version_eq', -⟩ := framed_of_parse read'
  have name_eq : c.name = c'.name :=
    Except.ok.inj ((name_of_parse read).symm.trans (name_of_parse read'))
  refine ⟨c, c', read, read', version_eq.trans version_eq'.symm, fun id hid => ?_⟩
  have found := same id hid
  rw [lookup_contents, lookup_contents] at found
  rw [find, find]
  cases first : c.sections.find? fun s => (s.id : Int) = id with
  | none =>
    rw [first, Option.map_none, eq_comm, Option.map_eq_none_iff] at found
    rw [found, name_eq]
    exact .error (.refl _)
  | some s =>
    rw [first, Option.map_some, eq_comm, Option.map_eq_some_iff] at found
    obtain ⟨s', first', payload_eq⟩ := found
    rw [first']
    refine .ok ⟨(id_eq_of_find? first).trans (id_eq_of_find? first').symm, ?_, payload_eq.symm⟩
    rw [consists.size_eq (List.mem_of_find?_eq_some first),
      consists'.size_eq (List.mem_of_find?_eq_some first'), payload_eq]

end SameFirst

theorem Alike.reader (h : Alike ids c c') (id : Nat) (mem : id ∈ ids) :
    Result.Agree Reader.SameUpToPlace (c.reader id) (c'.reader id) := by
  refine (h.find_agree id mem).bind ?_
  rintro s s' ⟨id_eq, size_eq, payload_eq⟩
  exact .ok ⟨id_eq, size_eq, payload_eq⟩

theorem Alike.readSection {α : Type} {item : Reading α} (h : Alike ids c c') (id : Nat)
    (mem : id ∈ ids) (placeless : item.Placeless) :
    Result.Agree Eq (c.readSection id item) (c'.readSection id item) := by
  refine (h.reader id mem).bind fun r r' same => ?_
  exact (placeless r r' same).bind fun o o' same => .ok same.1

end Container

end Snark
