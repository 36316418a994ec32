import Mathlib.Data.List.Forall2
import Snark.Failure
import Snark.Field.Residue

/-!
# Operations that may fail

A sequence of operations succeeds exactly if each of them does, and a list is mapped by an operation
that may fail exactly if it succeeds on every element. The operations of the library are taken apart
by these rules, and never by looking at how a sequence is carried out.
-/

namespace Except

variable {ε α β : Type}

@[simp] theorem ok_bind (a : α) (f : α → Except ε β) : (Except.ok a >>= f) = f a := rfl

@[simp] theorem error_bind (e : ε) (f : α → Except ε β) :
    ((Except.error e : Except ε α) >>= f) = .error e := rfl

@[simp] theorem pure_eq_ok (a : α) : (pure a : Except ε α) = .ok a := rfl

@[simp] theorem throw_eq_error (e : ε) : (throw e : Except ε α) = .error e := rfl

theorem bind_eq_ok_iff {x : Except ε α} {f : α → Except ε β} {b : β} :
    x >>= f = .ok b ↔ ∃ a, x = .ok a ∧ f a = .ok b := by
  cases x <;> simp

theorem bind_eq_error_iff {x : Except ε α} {f : α → Except ε β} {e : ε} :
    x >>= f = .error e ↔ x = .error e ∨ ∃ a, x = .ok a ∧ f a = .error e := by
  cases x <;> simp

theorem ite_error_eq_ok_iff {c : Prop} [Decidable c] {e : ε} {x : Except ε α} {a : α} :
    (if c then .error e else x) = .ok a ↔ ¬ c ∧ x = .ok a := by
  by_cases h : c <;> simp [h]

/-- An operation that succeeds on every element maps the list. -/
theorem mapM_eq_ok {f : α → Except ε β} {g : α → β} {xs : List α}
    (h : ∀ x ∈ xs, f x = .ok (g x)) : xs.mapM f = .ok (xs.map g) := by
  induction xs with
  | nil => rfl
  | cons x xs ih =>
    rw [List.mapM_cons, h x List.mem_cons_self, ih fun y hy => h y (List.mem_cons_of_mem x hy)]
    rfl

/-- A list is mapped to another one exactly if each of its elements is mapped to the one there. -/
theorem mapM_eq_ok_iff {f : α → Except ε β} {xs : List α} {ys : List β} :
    xs.mapM f = .ok ys ↔ List.Forall₂ (fun x y => f x = .ok y) xs ys := by
  induction xs generalizing ys with
  | nil =>
    rw [List.forall₂_nil_left_iff]
    constructor
    · rintro ⟨⟩
      rfl
    · rintro rfl
      rfl
  | cons x xs ih =>
    rw [List.mapM_cons, List.forall₂_cons_left_iff]
    simp only [bind_eq_ok_iff, ih]
    constructor
    · rintro ⟨y, first, rest, others, ⟨⟩⟩
      exact ⟨y, rest, first, others, rfl⟩
    · rintro ⟨y, rest, first, others, rfl⟩
      exact ⟨y, first, rest, others, rfl⟩

/-- Every element of a list is related to something exactly if the list is related to
another one. -/
theorem exists_forall₂_iff {r : α → β → Prop} {xs : List α} :
    (∃ ys, List.Forall₂ r xs ys) ↔ ∀ x ∈ xs, ∃ y, r x y := by
  induction xs with
  | nil => exact iff_of_true ⟨[], .nil⟩ (List.forall_mem_nil _)
  | cons x xs ih =>
    rw [List.forall_mem_cons, ← ih]
    simp only [List.forall₂_cons_left_iff]
    constructor
    · rintro ⟨_, y, ys, first, others, rfl⟩
      exact ⟨⟨y, first⟩, ys, others⟩
    · rintro ⟨⟨y, first⟩, ys, others⟩
      exact ⟨_, y, ys, first, others, rfl⟩

/-- A list is mapped exactly if the operation succeeds on each of its elements. -/
theorem exists_mapM_eq_ok_iff {f : α → Except ε β} {xs : List α} :
    (∃ ys, xs.mapM f = .ok ys) ↔ ∀ x ∈ xs, ∃ y, f x = .ok y := by
  simp only [mapM_eq_ok_iff, exists_forall₂_iff]

/-- If the operation succeeds exactly on the elements with a property, it maps the lists
of these. -/
theorem mapM_eq_ok_iff_map {f : α → Except ε β} {p : α → Prop} {g : α → β}
    (h : ∀ x y, f x = .ok y ↔ p x ∧ y = g x) {xs : List α} {ys : List β} :
    xs.mapM f = .ok ys ↔ (∀ x ∈ xs, p x) ∧ ys = xs.map g := by
  constructor
  · intro mapped
    have each := mapM_eq_ok_iff.1 mapped
    induction each with
    | nil => exact ⟨by simp, rfl⟩
    | @cons x y xs ys first others ih =>
      obtain ⟨px, rfl⟩ := (h x y).1 first
      obtain ⟨pxs, rfl⟩ := ih (mapM_eq_ok_iff.2 others)
      exact ⟨List.forall_mem_cons.2 ⟨px, pxs⟩, rfl⟩
  · rintro ⟨each, rfl⟩
    exact mapM_eq_ok fun x hx => (h x (g x)).2 ⟨each x hx, rfl⟩

/-- A walk along a list passes some elements and stops at the next one. -/
def StopsAt (passes stops : α → Prop) (xs : List α) : Prop :=
  ∃ before x after, xs = before ++ x :: after ∧ (∀ y ∈ before, passes y) ∧ stops x

theorem stopsAt_nil {passes stops : α → Prop} : ¬ StopsAt passes stops [] := by
  rintro ⟨before, x, after, split, -⟩
  exact absurd split.symm (List.append_ne_nil_of_right_ne_nil before (List.cons_ne_nil x after))

theorem stopsAt_cons {passes stops : α → Prop} {x : α} {xs : List α} :
    StopsAt passes stops (x :: xs) ↔ stops x ∨ passes x ∧ StopsAt passes stops xs := by
  constructor
  · rintro ⟨before, y, after, split, passed, stopped⟩
    obtain ⟨rfl, split⟩ | ⟨before, rfl, rfl⟩ := List.cons_eq_append_iff.1 split
    · cases split
      exact .inl stopped
    · obtain ⟨first, others⟩ := List.forall_mem_cons.1 passed
      exact .inr ⟨first, before, y, after, rfl, others, stopped⟩
  · rintro (stopped | ⟨first, before, y, after, rfl, others, stopped⟩)
    · exact ⟨[], x, xs, rfl, List.forall_mem_nil _, stopped⟩
    · exact ⟨x :: before, y, after, rfl, List.forall_mem_cons.2 ⟨first, others⟩, stopped⟩

theorem stopsAt_append {passes stops : α → Prop} {xs ys : List α} :
    StopsAt passes stops (xs ++ ys) ↔
      StopsAt passes stops xs ∨ (∀ x ∈ xs, passes x) ∧ StopsAt passes stops ys := by
  induction xs with
  | nil => simp [stopsAt_nil]
  | cons x xs ih =>
    rw [List.cons_append, stopsAt_cons, stopsAt_cons, List.forall_mem_cons, ih]
    tauto

/-- What is the same wherever a walk may stop can be taken out of it. -/
theorem stopsAt_congr_and {passes stops stops' : α → Prop} {c : Prop} {xs : List α}
    (h : ∀ x ∈ xs, stops x ↔ c ∧ stops' x) :
    StopsAt passes stops xs ↔ c ∧ StopsAt passes stops' xs := by
  constructor
  · rintro ⟨before, x, after, rfl, passed, stopped⟩
    obtain ⟨common, stopped⟩ := (h x List.mem_append_cons_self).1 stopped
    exact ⟨common, before, x, after, rfl, passed, stopped⟩
  · rintro ⟨common, before, x, after, rfl, passed, stopped⟩
    exact ⟨before, x, after, rfl, passed, (h x List.mem_append_cons_self).2 ⟨common, stopped⟩⟩

/-- The error of a list is that of the first element on which the operation fails. -/
theorem mapM_eq_error_iff {f : α → Except ε β} {xs : List α} {e : ε} :
    xs.mapM f = .error e ↔
      StopsAt (fun x => ∃ y, f x = .ok y) (fun x => f x = .error e) xs := by
  induction xs with
  | nil => exact iff_of_false (fun h => by cases h) stopsAt_nil
  | cons x xs ih =>
    rw [List.mapM_cons, bind_eq_error_iff, stopsAt_cons]
    refine or_congr_right ?_
    rw [← ih]
    constructor
    · rintro ⟨y, passed, failed⟩
      obtain failed | ⟨_, -, impossible⟩ := bind_eq_error_iff.1 failed
      · exact ⟨⟨y, passed⟩, failed⟩
      · cases impossible
    · rintro ⟨⟨y, passed⟩, failed⟩
      exact ⟨y, passed, bind_eq_error_iff.2 (.inl failed)⟩

/-- Every error of an operation is of a given sort. -/
def FailsIn (sort : ε → Prop) (x : Except ε α) : Prop := ∀ e, x = .error e → sort e

namespace FailsIn

variable {sort : ε → Prop}

theorem ok (a : α) : FailsIn sort (.ok a : Except ε α) := by
  intro e h
  cases h

theorem error {e : ε} (h : sort e) : FailsIn sort (.error e : Except ε α) := by
  intro e' h'
  cases h'
  exact h

theorem ite {c : Prop} [Decidable c] {x y : Except ε α} (hx : c → FailsIn sort x)
    (hy : ¬ c → FailsIn sort y) : FailsIn sort (if c then x else y) := by
  by_cases h : c
  · rw [if_pos h]
    exact hx h
  · rw [if_neg h]
    exact hy h

theorem bind {x : Except ε α} {f : α → Except ε β} (hx : FailsIn sort x)
    (hf : ∀ a, x = .ok a → FailsIn sort (f a)) : FailsIn sort (x >>= f) := by
  intro e h
  obtain failed | ⟨a, succeeded, failed⟩ := bind_eq_error_iff.1 h
  · exact hx e failed
  · exact hf a succeeded e failed

theorem mapM {f : α → Except ε β} {xs : List α} (h : ∀ x ∈ xs, FailsIn sort (f x)) :
    FailsIn sort (xs.mapM f) := by
  induction xs with
  | nil => exact ok []
  | cons x xs ih =>
    obtain ⟨first, others⟩ := List.forall_mem_cons.1 h
    rw [List.mapM_cons]
    exact bind first fun _ _ => bind (ih others) fun _ _ => ok _

end FailsIn

end Except

/-- A computation on a state that it keeps where it fails: what follows starts where the first part
has ended, and is left out where that has failed. -/
theorem ExceptT.bind_apply_state {ε σ α β : Type} (x : ExceptT ε (StateM σ) α)
    (f : α → ExceptT ε (StateM σ) β) (s : σ) :
    (x >>= f) s = match x s with
      | (.ok a, t) => f a t
      | (.error e, t) => (.error e, t) := by
  change StateT.bind x (ExceptT.bindCont f) s = _
  rw [StateT.bind]
  rcases x s with ⟨_ | _, t⟩ <;> rfl

namespace Snark.Result

variable {α : Type}

@[simp] theorem ofFault_ok (a : α) : ofFault (.ok a) = .ok a := rfl

theorem ofFault_eq_ok_iff {x : Except Fault α} {a : α} : ofFault x = .ok a ↔ x = .ok a := by
  cases x <;> simp [ofFault]

/-- An integer is taken for a residue exactly if it is the least representative. -/
theorem least_eq_ok_iff {m : Nat} [Modulus m] {v : Int} {e : Failure} {x : Residue m} :
    (if 0 ≤ v && v < (m : Int) then (.ok (.ofInt v) : Result (Residue m)) else .error e) = .ok x ↔
      v = x.val := by
  constructor
  · intro h
    split_ifs at h with least
    cases h
    obtain ⟨nonneg, lt⟩ : 0 ≤ v ∧ v < m := by simpa using least
    change v = ((v % m).toNat : Int)
    rw [Int.emod_eq_of_lt nonneg lt, Int.toNat_of_nonneg nonneg]
  · rintro rfl
    have lt := x.isLt
    rw [if_pos (by simp; omega)]
    refine congrArg Except.ok (Residue.ext ?_)
    change ((x.val : Int) % m).toNat = x.val
    rw [Int.emod_eq_of_lt (by omega) (by omega), Int.toNat_natCast]

end Snark.Result
