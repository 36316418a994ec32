import Mathlib.Control.Lawful
import Snark.Proofs.Witness.Cursor

/-!
# Calls without a past

A program whose start puts everything but the cursor into a fixed state forgets what has been asked
of it before. The cursor is the one thing that could tell, and that is set back after every call:
so the outcome of a call is the same after any other calls.
-/

namespace Snark

/-- A start of a program leaves the cursor alone and puts all else into a fixed state: what `view`
shows of the program beside its memory, and the memory behind the cursor. -/
def Run.Resets {σ π : Type} (view : σ → π) (contents : σ → Bytes) (start : Run σ Unit) : Prop :=
  ∃ outcome state rest, ∀ m : Machine σ, m.HasCursor contents →
    (start m).1 = outcome ∧ view (start m).2.program = state ∧
      contents (start m).2.program = (contents m.program).take 4 ++ rest

namespace Witness.Calculator

variable {σ π : Type} {k : Calculator σ} {view : σ → π} {contents : σ → Bytes}

section Body

variable (alike : k.Agree (Machine.Alike view contents) k)
variable (resets : ∀ sanity, (k.exports.init sanity).Resets view contents)
variable {α : Type} {last : Run σ α}
variable (rest : Run.Agree (Machine.Alike view contents) last last)
include alike resets rest

/-- What a call does behind the start of the program has the same outcome on all machines with the
same cursor, since the start makes them alike. -/
theorem body_outcome (inputs : Inputs) (sanity : Bool) {m n : Machine σ}
    (hm : m.HasCursor contents) (hn : n.HasCursor contents)
    (same : (contents m.program).take 4 = (contents n.program).take 4) :
    ((k.run inputs sanity >>= fun _ => last) m).1 =
      ((k.run inputs sanity >>= fun _ => last) n).1 := by
  obtain ⟨outcome, state, back, start⟩ := resets (sanity || k.sanity || k.isObserving)
  obtain ⟨outcome_m, view_m, contents_m⟩ := start m hm
  obtain ⟨outcome_n, view_n, contents_n⟩ := start n hn
  have reached : Machine.Alike view contents
      (k.exports.init (sanity || k.sanity || k.isObserving) m).2
      (k.exports.init (sanity || k.sanity || k.isObserving) n).2 :=
    ⟨view_m.trans view_n.symm, by rw [contents_m, contents_n, same]⟩
  -- The machines are not alike before the start, so agreement cannot be used for the whole run.
  rw [run_eq, bind_assoc]
  exact (Run.Agree.bind_apply (outcome_m.trans outcome_n.symm) reached fun _ =>
    (alike.fill inputs).bind fun _ => rest).1

end Body

section Calls

variable (acts : k.sandbox.memory.ActsOn contents)
variable (alike : k.Agree (Machine.Alike view contents) k)
variable (keeps : k.exports.Each (Run.Keeps (Machine.HasCursor contents)))
variable (resets : ∀ sanity, (k.exports.init sanity).Resets view contents)
variable {α : Type} {last : Run σ α}
variable (rest : Run.Agree (Machine.Alike view contents) last last)
variable (room : Run.Agree (Run.Same (Machine.HasCursor contents)) last last)
include acts alike keeps resets rest room

/-- The outcome of what is done between reading the cursor and setting it back is the same after any
calls. -/
theorem keepingCursor_after (inputs : Inputs) (sanity : Bool) (m : Machine σ)
    (history : List Query) :
    (k.keepingCursor (k.run inputs sanity >>= fun _ => last) (k.after m history)).1 =
      (k.keepingCursor (k.run inputs sanity >>= fun _ => last) m).1 := by
  by_cases hm : m.HasCursor contents
  · obtain ⟨hn, same⟩ := take_after acts keeps history hm
    have body := body_keeps acts keeps inputs sanity room
    rw [(keepingCursor_eq acts body hn).1, (keepingCursor_eq acts body hm).1]
    exact body_outcome alike resets rest inputs sanity hn hm same
  · rw [after_of_not_hasCursor acts hm]

end Calls

/-- The values of a witness do not depend on what has been asked for before, and neither does
the error that is raised in their place. The program may be any whose start forgets what was
there, whose exports and memory answer by what is there, and whose memory never falls short of
the cursor. -/
theorem witness_after (acts : k.sandbox.memory.ActsOn contents)
    (memory : k.sandbox.memory.Agree (Machine.Alike view contents) k.sandbox.memory)
    (exports : k.exports.Agree (Machine.Alike view contents) k.exports)
    (room : k.exports.Each (Run.Keeps (Machine.HasCursor contents)))
    (resets : ∀ sanity, (k.exports.init sanity).Resets view contents) (inputs : Inputs)
    (sanity : Bool) (m : Machine σ) (history : List Query) :
    (k.witness inputs sanity (k.after m history)).1 = (k.witness inputs sanity m).1 := by
  have alike : k.Agree (Machine.Alike view contents) k :=
    ⟨⟨memory, rfl⟩, exports, rfl, rfl⟩
  exact keepingCursor_after acts alike room resets alike.collect
    (agree_hasCursor acts room).collect inputs sanity m history

/-- The start that restores the memory behind the cursor brings all machines to the same. -/
theorem resets_reset (sanity : Bool) :
    (Sample.reset sanity).Resets (fun _ => ()) Memory.contents := by
  refine ⟨.ok (), (), Sample.image.contents.drop 4, fun m room => ⟨rfl, rfl, ?_⟩⟩
  have width : (m.program.contents.take 4).length = 4 := List.length_take_of_le room
  change (Sample.image.store 0 (m.program.contents.take 4)).contents = _
  rw [Memory.contents_store, Bytes.overwrite, width]
  · rfl
  · rw [width, Sample.size_image]
    decide

theorem agree_reset (sanity : Bool) :
    Run.Agree Sample.Alike (Sample.reset sanity) (Sample.reset sanity) := by
  rintro m n ⟨-, same⟩
  refine ⟨rfl, rfl, ?_⟩
  change (Sample.image.store 0 (m.program.contents.take 4)).contents =
    (Sample.image.store 0 (n.program.contents.take 4)).contents
  rw [same]

theorem keeps_reset (sanity : Bool) :
    (Sample.reset sanity).Keeps (Machine.HasCursor Memory.contents) := by
  intro m _
  change 4 ≤ (Sample.image.store 0 (m.program.contents.take 4)).contents.length
  rw [Memory.length_contents, Memory.size_store, Sample.size_image]
  decide

/-- The witness of a program that restores its memory. -/
theorem witness_after_reset :
    ∃ k, make (Sample.sandbox Sample.reset) .bn254 [] false Sample.machine =
        (.ok k, Sample.machine) ∧
      ∀ inputs sanity history,
        (k.witness inputs sanity (k.after Sample.machine history)).1 =
          (k.witness inputs sanity Sample.machine).1 := by
  obtain ⟨k, made⟩ := Sample.exists_make_eq_ok Sample.reset
  obtain ⟨same, -⟩ := hasRoom_of_make Sample.access_actsOn made
  have acts : k.sandbox.memory.ActsOn Memory.contents := by
    rw [same]
    exact Sample.access_actsOn
  have memory : k.sandbox.memory.Agree Sample.Alike k.sandbox.memory := by
    rw [same]
    exact Sample.access_agree
  have agree : k.exports.Agree Sample.Alike k.exports := by
    rw [exports, same]
    exact Sample.exports_agree k.host agree_reset
  have room : k.exports.Each (Run.Keeps (Machine.HasCursor Memory.contents)) := by
    rw [exports, same]
    exact Sample.exports_each k.host keeps_reset Run.Keeps.pure Run.Keeps.bind
      (fun _ _ => (Sample.access_actsOn.grows_read _ _).keeps_hasCursor)
      (fun _ _ => (Sample.access_actsOn.grows_write _ _).keeps_hasCursor)
  have resets (sanity : Bool) : (k.exports.init sanity).Resets (fun _ => ()) Memory.contents := by
    rw [exports, same]
    exact resets_reset sanity
  exact ⟨k, made, fun inputs sanity history =>
    witness_after acts memory agree room resets inputs sanity Sample.machine history⟩

end Witness.Calculator

end Snark
