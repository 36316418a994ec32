import Snark.Report

/-!
# Kinds of failure

A caller tells failures apart by the kind of their reports. A fault has no report and is told apart
by what it is.
-/

namespace Snark.Failure

/-- A failure is reported, and the report is of the given kind. -/
def ReportedAs (kind : ReportKind) (e : Failure) : Prop :=
  ∃ r, e.report? = some r ∧ r.kind = kind

theorem reportedAs_abi (e : AbiError) : ReportedAs .encoding (.abi e) := by
  refine ⟨e.report, rfl, ?_⟩
  cases e <;> rfl

/-- A failure that tells of nothing too long is told in its words. -/
theorem worded_of_isWritable {e : Failure} (h : e.isWritable = true) : e.worded = e := if_pos h

/-- A caller cannot tell the failures apart. -/
structure SameKind (e e' : Failure) : Prop where
  report_kind : e.report?.map Report.kind = e'.report?.map Report.kind
  fault_iff : ∀ f, e = .fault f ↔ e' = .fault f

/-- The failures differ at most in where a read ran out of bytes. -/
inductive SameUpToPlace : Failure → Failure → Prop
  | refl (e : Failure) : SameUpToPlace e e
  | exhausted (id offset offset' : Nat) (wanted : Int) :
    SameUpToPlace (.framing (.exhausted id offset wanted)) (.framing (.exhausted id offset' wanted))

theorem SameUpToPlace.sameKind {e e' : Failure} (h : e.SameUpToPlace e') : e.SameKind e' := by
  cases h with
  | refl => exact ⟨rfl, fun _ => .rfl⟩
  | exhausted id offset offset' wanted =>
    have kind (place : Nat) :
        (Failure.framing (.exhausted id place wanted)).report?.map Report.kind =
          some .truncated := rfl
    exact ⟨(kind offset).trans (kind offset').symm,
      fun f => iff_of_false (fun h => by cases h) fun h => by cases h⟩

end Snark.Failure

namespace Snark.Result

variable {α β : Type} {kind : ReportKind}

/-- An operation fails, and the failure is reported with the given kind. -/
def FailsAs (kind : ReportKind) (x : Result α) : Prop := ∃ e, x = .error e ∧ e.ReportedAs kind

theorem FailsAs.bind {x : Result α} (h : FailsAs kind x) (f : α → Result β) :
    FailsAs kind (x >>= f) := by
  obtain ⟨e, rfl, reported⟩ := h
  exact ⟨e, rfl, reported⟩

end Snark.Result
