import Mathlib.Algebra.BigOperators.Group.List.Basic
import Snark.Proofs.Except
import Snark.Proofs.Field.Prime
import Snark.Proofs.Position
import Snark.System.Assignment

/-!
# Evaluating a constraint system

A system is well formed if its counts fit and its combinations name wires that exist. Every
assignment of all wires then gives every combination a value, which is the sum of the products of
its coefficients with the values of the wires.
-/

namespace Snark

namespace LinearCombination

/-- All wires of a combination are among the given number of wires. -/
def InRange (wires : Int) (lc : LinearCombination) : Prop := ∀ t ∈ lc, 0 ≤ t.1 ∧ t.1 < wires

instance (wires : Int) (lc : LinearCombination) : Decidable (lc.InRange wires) :=
  inferInstanceAs (Decidable (∀ t ∈ lc, 0 ≤ t.1 ∧ t.1 < wires))

/-- The sum of the products of coefficients and values. -/
def value (w : List Fr) (lc : LinearCombination) : Fr :=
  (lc.map fun t => t.2 * w.getD t.1.toNat 0).sum

@[simp] theorem value_nil (w : List Fr) : value w [] = 0 := rfl

@[simp] theorem value_cons (w : List Fr) (t : Int × Fr) (lc : LinearCombination) :
    value w (t :: lc) = t.2 * w.getD t.1.toNat 0 + value w lc := by
  rw [value, List.map_cons, List.sum_cons]
  rfl

theorem eval_eq_value {w : List Fr} {lc : LinearCombination} (h : lc.InRange w.length) :
    eval w lc = .ok (lc.value w) := by
  induction lc with
  | nil => rfl
  | cons t rest ih =>
    obtain ⟨nonneg, below⟩ := h t List.mem_cons_self
    rw [eval, Position.get_eq_getD 0 nonneg below, Except.ok_bind,
      ih fun u hu => h u (List.mem_cons_of_mem t hu), value_cons]
    rfl

end LinearCombination

namespace Constraint

/-- All wires of a constraint are among the given number of wires. -/
def InRange (wires : Int) (k : Constraint) : Prop :=
  k.a.InRange wires ∧ k.b.InRange wires ∧ k.c.InRange wires

instance (wires : Int) (k : Constraint) : Decidable (k.InRange wires) :=
  inferInstanceAs (Decidable (_ ∧ _ ∧ _))

/-- The values of the three combinations. -/
def values (w : List Fr) (k : Constraint) : Fr × Fr × Fr :=
  (k.a.value w, k.b.value w, k.c.value w)

theorem eval_eq_values {w : List Fr} {k : Constraint} (h : k.InRange w.length) :
    eval w k = .ok (k.values w) := by
  obtain ⟨a, b, c⟩ := h
  rw [eval, LinearCombination.eval_eq_value a, LinearCombination.eval_eq_value b,
    LinearCombination.eval_eq_value c]
  rfl

end Constraint

namespace ConstraintSystem

/-- The counts fit, and all wires exist. -/
structure WellFormed (s : ConstraintSystem) : Prop where
  publicSignals_nonneg : 0 ≤ s.publicSignals
  publicWires_le : s.publicWires ≤ s.wires
  inRange : ∀ k ∈ s.constraints, k.InRange s.wires

instance (s : ConstraintSystem) : Decidable s.WellFormed :=
  decidable_of_iff (0 ≤ s.publicSignals ∧ s.publicWires ≤ s.wires ∧
    ∀ k ∈ s.constraints, k.InRange s.wires)
    ⟨fun ⟨h₁, h₂, h₃⟩ => ⟨h₁, h₂, h₃⟩, fun ⟨h₁, h₂, h₃⟩ => ⟨h₁, h₂, h₃⟩⟩

variable {s : ConstraintSystem} {w : List Fr}

theorem WellFormed.wires_nonneg (hs : s.WellFormed) : 0 ≤ s.wires := by
  have := hs.publicSignals_nonneg
  have := hs.publicWires_le
  rw [publicWires] at this
  omega

theorem evaluations_eq (hs : s.WellFormed) (hw : (w.length : Int) = s.wires) :
    (Circuit.mk s (some w)).evaluations =
      .ok (s.constraints.map (Constraint.values w)) := by
  have each : ∀ k ∈ s.constraints, k.eval w = .ok (k.values w) := by
    intro k hk
    apply Constraint.eval_eq_values
    rw [hw]
    exact hs.inRange k hk
  rw [Circuit.evaluations, Circuit.assignment, Except.ok_bind]
  exact congrArg Result.ofFault (Except.mapM_eq_ok each)

/-- An assignment satisfies a well-formed system exactly if every product is right. -/
theorem isSatisfied_iff (hs : s.WellFormed) (hw : (w.length : Int) = s.wires) :
    (Circuit.mk s (some w)).isSatisfied = .ok true ↔
      ∀ k ∈ s.constraints, k.a.value w * k.b.value w = k.c.value w := by
  rw [Circuit.isSatisfied, Circuit.unsatisfied, evaluations_eq hs hw, Except.ok_bind,
    Except.pure_eq_ok, Except.ok_bind, Except.pure_eq_ok, Except.ok.injEq, List.isEmpty_iff,
    List.map_eq_nil_iff, List.filter_eq_nil_iff]
  constructor
  · intro h k hk
    obtain ⟨i, inside, rfl⟩ := List.getElem_of_mem hk
    have member := h (s.constraints[i].values w, i)
      (List.mem_zipIdx_iff_getElem?.2 (by simp [inside]))
    by_contra differs
    exact member (decide_eq_true differs)
  · rintro h ⟨row, i⟩ member
    obtain ⟨k, hk, rfl⟩ := List.mem_map.1 (List.fst_mem_of_mem_zipIdx member)
    exact fun differs => of_decide_eq_true differs (h k hk)

/-- The system of a single product: the public wire 1 is the product of the wires 2 and 3. -/
def multiplier : ConstraintSystem where
  fieldWidth := 32
  prime := scalarOrder
  wires := 4
  publicOutputs := 1
  publicInputs := 0
  privateInputs := 2
  labels := 4
  constraints := [⟨[(2, 1)], [(3, 1)], [(1, 1)]⟩]
  wireLabels := [0, 1, 2, 3]
  version := 1

end ConstraintSystem

end Snark
