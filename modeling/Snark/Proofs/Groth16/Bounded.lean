import Snark.Groth16.Bounded
import Snark.Proofs.Except

/-!
# Limited room does not change what is made

With limited room, rows, columns and keys are made exactly if they are made at all and their lists
are short enough, and then they are the same. So what is known of them holds here as well.
-/

namespace Snark.Groth16.Bounded

/-- A list of the given number of elements can be made; there are none below zero. -/
def HasRoom (n : Int) : Prop := -(Length.bound : Int) ≤ n ∧ n < Position.lengthLimit

theorem hasRoom_iff {n : Int} : HasRoom n ↔ Length.fits n ∧ ¬ (Position.lengthLimit : Int) ≤ n := by
  have below : (Position.lengthLimit : Int) ≤ Length.bound := by decide
  simp only [HasRoom, Length.fits, Bool.and_eq_true, decide_eq_true_iff]
  omega

section Rows

variable {G₁ G₂ : Type} {pk : ProvingKey G₁ G₂} {w : List Fr}

theorem requireRows_eq_ok_iff {u : Unit} : requireRows pk w = .ok u ↔ HasRoom pk.domain := by
  have below : (Position.lengthLimit : Int) ≤ Length.limit := by decide
  rw [requireRows, hasRoom_iff]
  by_cases large : (Position.lengthLimit : Int) ≤ pk.domain
  · rw [if_pos large]
    refine iff_of_false (fun passed => ?_) fun room => room.2 large
    obtain ⟨_, -, passed⟩ := Except.bind_eq_ok_iff.1 passed
    obtain ⟨_, -, impossible⟩ := Except.bind_eq_ok_iff.1 passed
    cases impossible
  · rw [if_neg large]
    constructor
    · intro passed
      obtain ⟨_, checked, -⟩ := Except.bind_eq_ok_iff.1 passed
      exact ⟨(Length.check_eq_ok_iff.1 checked).1, large⟩
    · intro room
      rw [Length.check_eq_ok_iff.2 ⟨room.1, by omega⟩]
      rfl

/-- The rows are made exactly if there is room for them, and they are the same. -/
theorem rows_eq_ok_iff {t : Rows} :
    rows pk w = .ok t ↔ HasRoom pk.domain ∧ Groth16.rows pk w = .ok t := by
  rw [rows, Except.bind_eq_ok_iff]
  simp only [requireRows_eq_ok_iff, exists_const]

end Rows

section Columns

variable {s : ConstraintSystem} {tau : Fr} {n : Int}

theorem requireColumns_eq_ok_iff {u : Unit} :
    requireColumns s tau n = .ok u ↔ HasRoom s.wires := by
  have refused : (!Length.fits s.wires || decide ((Position.lengthLimit : Int) ≤ s.wires)) = true ↔
      ¬ HasRoom s.wires := by
    rw [hasRoom_iff, Bool.or_eq_true, Bool.not_eq_true', decide_eq_true_iff, not_and_or, not_not,
      Bool.not_eq_true]
  rw [requireColumns]
  by_cases room : HasRoom s.wires
  · rw [if_neg fun large => refused.1 large room]
    exact iff_of_true rfl room
  · rw [if_pos (refused.2 room)]
    refine iff_of_false (fun passed => ?_) room
    obtain ⟨_, -, passed⟩ := Except.bind_eq_ok_iff.1 passed
    obtain ⟨_, -, passed⟩ := Except.bind_eq_ok_iff.1 passed
    obtain ⟨_, -, impossible⟩ := Except.bind_eq_ok_iff.1 passed
    cases impossible

/-- The columns are made exactly if there is room for them, and they are the same. -/
theorem columns_eq_ok_iff {t : Columns} :
    columns s tau n = .ok t ↔ HasRoom s.wires ∧ Groth16.columns s tau n = .ok t := by
  rw [columns, Except.bind_eq_ok_iff]
  simp only [requireColumns_eq_ok_iff, exists_const]

/-- The keys are made exactly if there is room for the columns, and they are the same. -/
theorem setup_eq_ok_iff {G₁ G₂ : Type} [CurveGroup G₁] [CurveGroup G₂] {secrets : Secrets}
    {pk : ProvingKey G₁ G₂} :
    setup s secrets = .ok pk ↔ HasRoom s.wires ∧ Groth16.setup s secrets = .ok pk := by
  rw [setup, Except.bind_eq_ok_iff]
  simp only [requireColumns_eq_ok_iff, exists_const]

end Columns

end Snark.Groth16.Bounded
