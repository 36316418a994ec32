import Snark.Proofs.Sandbox.Slots
import Snark.Proofs.Witness.Agreement
import Snark.Proofs.Witness.Sample

/-!
# The cursor between calls

A call of a calculator moves the allocation cursor of the program, and so may the program. Whatever
comes of the call, the cursor is what it was before: the call keeps the memory as large as it has
to be for that, and its last step writes the first word back.
-/

namespace Snark

/-- A computation never takes anything away from the memory. -/
def Run.Grows {σ α : Type} (contents : σ → Bytes) (x : Run σ α) : Prop :=
  ∀ m, (contents m.program).length ≤ (contents (x m).2.program).length

/-- The memory has room for the cursor. -/
def Machine.HasCursor {σ : Type} (contents : σ → Bytes) (m : Machine σ) : Prop :=
  4 ≤ (contents m.program).length

namespace Run.Grows

variable {σ α β : Type} {contents : σ → Bytes} {x : Run σ α}

theorem pure (a : α) : (pure a : Run σ α).Grows contents := fun _ => Nat.le_refl _

theorem bind {f : α → Run σ β} (first : x.Grows contents) (rest : ∀ a, (f a).Grows contents) :
    (x >>= f).Grows contents := by
  intro m
  have reached := first m
  rw [bind_apply]
  revert reached
  rcases x m with ⟨_ | a, mid⟩
  · exact id
  · exact fun reached => Nat.le_trans reached (rest a mid)

theorem keeps_hasCursor (h : x.Grows contents) : x.Keeps (Machine.HasCursor contents) :=
  fun m room => Nat.le_trans room (h m)

end Run.Grows

namespace Access.ActsOn

variable {σ : Type} {a : Access σ} {contents : σ → Bytes} (acts : a.ActsOn contents)
include acts

theorem grows_read (address length : Int) : (a.read address length).Grows contents := by
  intro m
  rw [acts.read_state]

theorem grows_write (address : Int) (bs : Bytes) : (a.write address bs).Grows contents := by
  intro m
  rw [acts.length_write]

end Access.ActsOn

namespace Witness

/-- A call of a calculator: for the values of a witness, or for its bytes. -/
inductive Query
  | values (inputs : Inputs) (sanity : Bool)
  | bytes (inputs : Inputs) (sanity : Bool)

namespace Calculator

variable {σ : Type} {k : Calculator σ} {contents : σ → Bytes}

/-- The machine after a call, whatever came of it. -/
def afterQuery (k : Calculator σ) (m : Machine σ) : Query → Machine σ
  | .values inputs sanity => (k.witness inputs sanity m).2
  | .bytes inputs sanity => (k.witnessBytes inputs sanity m).2

/-- The machine after some calls, one after the other. -/
def after (k : Calculator σ) (m : Machine σ) (history : List Query) : Machine σ :=
  history.foldl k.afterQuery m

section Keeping

variable (acts : k.sandbox.memory.ActsOn contents) {α : Type} {x : Run σ α} {m : Machine σ}
include acts

/-- A computation that leaves room for the cursor has the same outcome with the cursor set back
after it, and the first word is put back over what it leaves in the memory. -/
theorem keepingCursor_eq (keeps : x.Keeps (Machine.HasCursor contents))
    (room : m.HasCursor contents) :
    (k.keepingCursor x m).1 = (x m).1 ∧
      contents (k.keepingCursor x m).2.program =
        (contents (x m).2.program).overwrite 0 ((contents m.program).take 4) := by
  have width : ((contents m.program).take 4).length = 4 := List.length_take_of_le room
  obtain ⟨done, written⟩ := Slots.setCursor_toNat (s := k.slots) acts _ width (keeps m room)
  -- Setting the cursor back succeeds, so it does not replace the outcome by an error of its own.
  rw [keepingCursor, Run.bind_apply, Slots.cursor_eq acts room]
  dsimp only
  rw [Run.ensuring]
  revert done written
  rcases x m with ⟨outcome, n⟩
  dsimp only
  rcases k.slots.setCursor _ n with ⟨final, n⟩
  rintro rfl written
  exact ⟨rfl, written⟩

/-- Without room for the cursor nothing is done. -/
theorem keepingCursor_of_not_hasCursor (full : ¬ m.HasCursor contents) :
    (k.keepingCursor x m).2 = m := by
  obtain ⟨e, refused⟩ := Slots.readWord_refused (s := k.slots) (m := m) acts 0
    (.inr (by rw [Machine.HasCursor] at full; omega))
  rw [keepingCursor, Run.bind_apply, Slots.cursor, refused]

theorem after_of_not_hasCursor (full : ¬ m.HasCursor contents) (history : List Query) :
    k.after m history = m := by
  induction history with
  | nil => rfl
  | cons q history ih =>
    have still : k.afterQuery m q = m := by
      cases q <;> exact keepingCursor_of_not_hasCursor acts full
    rw [after, List.foldl_cons, still]
    exact ih

/-- The first word of the memory stays what it is. -/
theorem take_keepingCursor (keeps : x.Keeps (Machine.HasCursor contents))
    (room : m.HasCursor contents) :
    (k.keepingCursor x m).2.HasCursor contents ∧
      (contents (k.keepingCursor x m).2.program).take 4 = (contents m.program).take 4 := by
  have width : ((contents m.program).take 4).length = 4 := List.length_take_of_le room
  have inside : 0 + ((contents m.program).take 4).length ≤ (contents (x m).2.program).length := by
    rw [width]
    exact keeps m room
  obtain ⟨-, written⟩ := keepingCursor_eq acts keeps room
  have first := Bytes.take_drop_overwrite inside
  rw [List.drop_zero, width] at first
  rw [Machine.HasCursor, written, Bytes.length_overwrite inside]
  exact ⟨keeps m room, first⟩

/-- With exports that leave room for the cursor, two machines that are one and have such room stay
one through everything that a calculator does, and keep it. -/
theorem agree_hasCursor (keeps : k.exports.Each (Run.Keeps (Machine.HasCursor contents))) :
    k.Agree (Run.Same (Machine.HasCursor contents)) k where
  slots := { memory := acts.agree_length (4 ≤ ·), codec := rfl }
  exports := {
    init := fun _ => Run.agree_same_iff.2 (keeps.init _)
    locate := fun _ _ _ _ => Run.agree_same_iff.2 (keeps.locate _ _ _ _)
    setSignal := fun _ _ _ _ => Run.agree_same_iff.2 (keeps.setSignal _ _ _ _)
    witnessSlot := fun _ => Run.agree_same_iff.2 (keeps.witnessSlot _)
    witnessSize := Run.agree_same_iff.2 keeps.witnessSize
    witnessBuffer := Run.agree_same_iff.2 keeps.witnessBuffer }
  observed := rfl
  sanity := rfl

variable (keeps : k.exports.Each (Run.Keeps (Machine.HasCursor contents)))
include keeps

/-- What a call does between reading the cursor and setting it back leaves room for it. -/
theorem body_keeps {β : Type} (inputs : Inputs) (sanity : Bool) {last : Run σ β}
    (rest : Run.Agree (Run.Same (Machine.HasCursor contents)) last last) :
    (k.run inputs sanity >>= fun _ => last).Keeps (Machine.HasCursor contents) :=
  Run.agree_same_iff.1 (((agree_hasCursor acts keeps).run inputs sanity).bind fun _ => rest)

theorem take_afterQuery (q : Query) (room : m.HasCursor contents) :
    (k.afterQuery m q).HasCursor contents ∧
      (contents (k.afterQuery m q).program).take 4 = (contents m.program).take 4 := by
  have agree := agree_hasCursor acts keeps
  cases q with
  | values inputs sanity =>
    rw [afterQuery, witness_eq]
    exact take_keepingCursor acts (body_keeps acts keeps inputs sanity agree.collect) room
  | bytes inputs sanity =>
    rw [afterQuery, witnessBytes_eq]
    exact take_keepingCursor acts (body_keeps acts keeps inputs sanity agree.collectBytes) room

theorem take_after (history : List Query) (room : m.HasCursor contents) :
    (k.after m history).HasCursor contents ∧
      (contents (k.after m history).program).take 4 = (contents m.program).take 4 := by
  induction history generalizing m with
  | nil => exact ⟨room, rfl⟩
  | cons q history ih =>
    obtain ⟨room', same⟩ := take_afterQuery acts keeps q room
    obtain ⟨room'', same'⟩ := ih room'
    exact ⟨room'', same'.trans same⟩

end Keeping

/-- A cursor that can be read is the same after any calls, whatever comes of them, if the exports
never make the memory smaller. -/
theorem cursor_after (acts : k.sandbox.memory.ActsOn contents)
    (grows : k.exports.Each (Run.Grows contents)) {m : Machine σ} {c : Nat}
    (h : (k.slots.cursor m).1 = .ok c) (history : List Query) :
    (k.slots.cursor (k.after m history)).1 = .ok c := by
  obtain ⟨room, start⟩ := (Slots.cursor_eq_ok_iff acts).1 h
  have keeps := grows.mono fun x => x.keeps_hasCursor
  obtain ⟨room', same⟩ := take_after acts keeps history room
  exact (Slots.cursor_eq_ok_iff acts).2 ⟨room', by rw [same, start]⟩

/-- The cursor of a program that moves it and never sets it back. -/
theorem cursor_after_moveCursor :
    ∃ k, make (Sample.sandbox Sample.moveCursor) .bn254 [] false Sample.machine =
        (.ok k, Sample.machine) ∧
      (k.slots.cursor Sample.machine).1 = .ok 128 ∧
      ∀ history, (k.slots.cursor (k.after Sample.machine history)).1 = .ok 128 := by
  obtain ⟨k, made⟩ := Sample.exists_make_eq_ok Sample.moveCursor
  obtain ⟨same, -⟩ := hasRoom_of_make Sample.access_actsOn made
  have acts : k.sandbox.memory.ActsOn Memory.contents := by
    rw [same]
    exact Sample.access_actsOn
  have grows : k.exports.Each (Run.Grows Memory.contents) := by
    rw [exports, same]
    exact Sample.exports_each k.host (fun _ => Sample.access_actsOn.grows_write _ _) .pure .bind
      Sample.access_actsOn.grows_read Sample.access_actsOn.grows_write
  have start : (k.slots.cursor Sample.machine).1 = .ok 128 := by
    refine (Slots.cursor_eq_ok_iff acts).2 ⟨?_, ?_⟩
    · rw [Sample.machine, Memory.length_contents, Sample.size_image]
      decide
    · rw [Sample.machine, Sample.contents_image.1]
      decide
  exact ⟨k, made, start, cursor_after acts grows start⟩

end Calculator

end Witness

end Snark
