import Snark.Proofs.Exchange.Document
import Snark.Proofs.Failure

/-!
# How malformed documents are reported

What is wrong with a proof or a key in JSON is reported as an encoding error, with four exceptions:
an infinite number where an integer is read, input points that are not given as parts of a value, a
count of public values that stands for no integer, and a report that would name an integer too long
to be written. Each of them comes to the caller as a fault. Members are read in a fixed order and
reading ends at the first that is wrong, so a fault escapes exactly where all that is read before it
is in order.
-/

namespace Snark.Exchange

open Json (Value)
open Except (StopsAt)

section Reports

variable {α β : Type} {escapes : Fault → Prop}

/-- A computation reports what is wrong as an encoding error, but for the faults that escape. -/
structure Reports (x : Result α) (escapes : Fault → Prop) : Prop where
  failsIn : x.FailsIn fun e => e.ReportedAs .encoding ∨ ∃ f, e = .fault f
  fault_iff (f : Fault) : x = .error (.fault f) ↔ escapes f

theorem reportedAs_exchange (e : ExchangeError) : Failure.ReportedAs .encoding (.exchange e) := by
  refine ⟨e.report, rfl, ?_⟩
  cases e <;> rfl

theorem not_reportedAs_fault (kind : ReportKind) (f : Fault) :
    ¬ Failure.ReportedAs kind (.fault f) := by
  rintro ⟨r, impossible, -⟩
  cases impossible

namespace Reports

/-- Where all errors are encoding errors, no fault escapes. -/
theorem of_failsIn {x : Result α} (h : x.FailsIn (Failure.ReportedAs .encoding)) :
    Reports x fun _ => False where
  failsIn e failed := .inl (h e failed)
  fault_iff f := iff_of_false (fun failed => not_reportedAs_fault _ f (h _ failed)) id

theorem pure (a : α) : Reports (pure a : Result α) fun _ => False := of_failsIn (.ok a)

theorem fault (f : Fault) : Reports (.error (.fault f) : Result α) (· = f) where
  failsIn := .error (.inr ⟨f, rfl⟩)
  fault_iff f' := by
    constructor
    · rintro ⟨⟩
      rfl
    · rintro rfl
      rfl

theorem congr {x : Result α} {escapes' : Fault → Prop} (h : Reports x escapes)
    (same : ∀ f, escapes f ↔ escapes' f) : Reports x escapes' where
  failsIn := h.failsIn
  fault_iff f := (h.fault_iff f).trans (same f)

theorem ofFault (x : Except Fault α) : Reports (Result.ofFault x) fun f => x = .error f := by
  cases x with
  | ok a => exact (of_failsIn (.ok a)).congr fun f => by simp
  | error e => exact (fault e).congr fun f => by simp [eq_comm]

/-- What is wrong is reported, unless the report would name an integer that is too long. -/
theorem refused (e : ExchangeError) :
    Reports (.error (refusal e) : Result α) fun f => f = .numeralLength ∧ ¬ e.isWritable := by
  by_cases h : e.isWritable
  · rw [refusal, Failure.worded_of_isWritable (e := .exchange e) h]
    exact (of_failsIn (.error (reportedAs_exchange e))).congr fun f => by simp [h]
  · have spoilt : refusal e = .fault .numeralLength := if_neg h
    rw [spoilt]
    exact (fault .numeralLength).congr fun f => by simp [h]

theorem ite {c : Prop} [Decidable c] {x y : Result α} {escapes' : Fault → Prop}
    (hx : Reports x escapes) (hy : Reports y escapes') :
    Reports (if c then x else y) fun f => c ∧ escapes f ∨ ¬ c ∧ escapes' f := by
  by_cases h : c
  · rw [if_pos h]
    exact hx.congr fun f => by simp [h]
  · rw [if_neg h]
    exact hy.congr fun f => by simp [h]

/-- A fault escapes from a sequence if it escapes from the first part, or if the first part succeeds
and it escapes from the second. -/
theorem bind {x : Result α} {next : α → Result β} {escapes' : α → Fault → Prop}
    (first : Reports x escapes) (rest : ∀ a, x = .ok a → Reports (next a) (escapes' a)) :
    Reports (x >>= next) fun f => escapes f ∨ ∃ a, x = .ok a ∧ escapes' a f where
  failsIn := first.failsIn.bind fun a found => (rest a found).failsIn
  fault_iff f := by
    rw [Except.bind_eq_error_iff, first.fault_iff]
    exact or_congr_right (exists_congr fun a =>
      and_congr_right fun found => (rest a found).fault_iff f)

/-- Where both parts of a sequence walk along a list and what follows lets nothing escape, the whole
walks along both lists. -/
theorem walk {γ δ : Type} {passes stops : δ → Prop} {x : Result α} {y : Result β}
    {next : α → β → Result γ} {xs ys : List δ} {fault : Fault}
    (first : Reports x fun f => f = fault ∧ StopsAt passes stops xs)
    (passed : (∃ a, x = .ok a) ↔ ∀ n ∈ xs, passes n)
    (second : Reports y fun f => f = fault ∧ StopsAt passes stops ys)
    (rest : ∀ a b, x = .ok a → y = .ok b → Reports (next a b) fun _ => False) :
    Reports (x >>= fun a => y >>= fun b => next a b) fun f =>
      f = fault ∧ StopsAt passes stops (xs ++ ys) := by
  refine (first.bind fun a ha => second.bind fun b hb => rest a b ha hb).congr fun f => ?_
  rw [Except.stopsAt_append, ← passed]
  constructor
  · rintro (⟨rfl, stopped⟩ | ⟨a, ha, ⟨rfl, stopped⟩ | ⟨_, -, impossible⟩⟩)
    · exact ⟨rfl, .inl stopped⟩
    · exact ⟨rfl, .inr ⟨⟨a, ha⟩, stopped⟩⟩
    · cases impossible
  · rintro ⟨rfl, stopped | ⟨⟨a, ha⟩, stopped⟩⟩
    · exact .inl ⟨rfl, stopped⟩
    · exact .inr ⟨a, ha, .inl ⟨rfl, stopped⟩⟩

end Reports

end Reports

section Integers

variable {v : Value} {f : Fault}

/-- A value stands for an integer. -/
def IsInteger (v : Value) : Prop := ∃ n, v.toInt = .ok n

/-- A value is an infinite number. -/
def IsInfinite (v : Value) : Prop := ∃ negative, v = .real (.infinite negative)

/-- A value stands for a pair of integers. -/
def IsPair (v : Value) : Prop := ∃ n, readPair v = .ok n

/-- A value has two parts, and an infinite number is the first of them that stands for
no integer. -/
def IsInfinitePair (v : Value) : Prop :=
  ∃ a b, v.items? = some [a, b] ∧ StopsAt IsInteger IsInfinite [a, b]

/-- Only an infinite number is too large for an integer. -/
theorem toInt_eq_error (failed : v.toInt = .error f) :
    f = .infinite ∧ IsInfinite v ∨ f.kind ≠ .overflow := by
  cases v with
  | real x =>
    cases x with
    | finite => cases failed
    | infinite negative =>
      cases failed
      exact .inl ⟨rfl, negative, rfl⟩
    | nan =>
      cases failed
      exact .inr (by decide)
  | text s =>
    rw [Value.toInt, Value.readInteger] at failed
    split at failed
    · cases failed
    all_goals
      cases failed
      exact .inr (by decide)
  | int => cases failed
  | bool => cases failed
  | null | list | object =>
    cases failed
    exact .inr (by decide)

theorem toInt_eq_infinite_iff : v.toInt = .error .infinite ↔ IsInfinite v := by
  constructor
  · intro failed
    obtain ⟨-, infinite⟩ | other := toInt_eq_error failed
    · exact infinite
    · exact absurd rfl other
  · rintro ⟨negative, rfl⟩
    rfl

theorem readPair_eq_error (failed : readPair v = .error f) :
    f = .infinite ∧ IsInfinitePair v ∨ f.kind ≠ .overflow := by
  rw [readPair] at failed
  split at failed
  · cases failed
    exact .inr (by decide)
  · rename_i a b parts
    obtain failed | ⟨n, first, failed⟩ := Except.bind_eq_error_iff.1 failed
    · obtain ⟨same, infinite⟩ | other := toInt_eq_error failed
      · exact .inl ⟨same, a, b, parts, Except.stopsAt_cons.2 (.inl infinite)⟩
      · exact .inr other
    · obtain failed | ⟨_, -, impossible⟩ := Except.bind_eq_error_iff.1 failed
      · obtain ⟨same, infinite⟩ | other := toInt_eq_error failed
        · have stops : StopsAt IsInteger IsInfinite [a, b] :=
            Except.stopsAt_cons.2 (.inr ⟨⟨n, first⟩, Except.stopsAt_cons.2 (.inl infinite)⟩)
          exact .inl ⟨same, a, b, parts, stops⟩
        · exact .inr other
      · cases impossible
  · cases failed
    exact .inr (by decide)

theorem readPair_eq_infinite_iff : readPair v = .error .infinite ↔ IsInfinitePair v := by
  constructor
  · intro failed
    obtain ⟨-, infinite⟩ | other := readPair_eq_error failed
    · exact infinite
    · exact absurd rfl other
  · rintro ⟨a, b, parts, stops⟩
    rw [readPair, parts]
    obtain infinite | ⟨⟨n, first⟩, stops⟩ := Except.stopsAt_cons.1 stops
    · exact Except.bind_eq_error_iff.2 (.inl (toInt_eq_infinite_iff.2 infinite))
    · obtain infinite | ⟨-, impossible⟩ := Except.stopsAt_cons.1 stops
      · refine Except.bind_eq_error_iff.2 (.inr ⟨n, first, ?_⟩)
        exact Except.bind_eq_error_iff.2 (.inl (toInt_eq_infinite_iff.2 infinite))
      · exact absurd impossible Except.stopsAt_nil

end Integers

section Three

/-- The items that stand for something are read, and of the other ones those that are infinite, and
no others, are said to be too large. -/
structure Sorts {α : Type} (item : Value → Except Fault α) (stands infinite : Value → Prop) :
    Prop where
  eq_ok_iff (v : Value) : (∃ x, item v = .ok x) ↔ stands v
  eq_infinite_iff (v : Value) : item v = .error .infinite ↔ infinite v
  kind_ne {v : Value} {f : Fault} (failed : item v = .error f) (finite : f ≠ .infinite) :
    f.kind ≠ .overflow

theorem sorts_toInt : Sorts Value.toInt IsInteger IsInfinite where
  eq_ok_iff _ := .rfl
  eq_infinite_iff _ := toInt_eq_infinite_iff
  kind_ne failed finite := (toInt_eq_error failed).resolve_left fun h => finite h.1

theorem sorts_readPair : Sorts readPair IsPair IsInfinitePair where
  eq_ok_iff _ := .rfl
  eq_infinite_iff _ := readPair_eq_infinite_iff
  kind_ne failed finite := (readPair_eq_error failed).resolve_left fun h => finite h.1

/-- A value has three parts, and each of them stands for something. -/
def HasThree (stands : Value → Prop) (v : Value) : Prop :=
  ∃ a b c, v.items? = some [a, b, c] ∧ stands a ∧ stands b ∧ stands c

/-- Of the parts of a value, an infinite one is the first that stands for nothing. A fourth part is
looked at, those after it are not. -/
def IsUnbounded (stands infinite : Value → Prop) (v : Value) : Prop :=
  ∃ items, v.items? = some items ∧ StopsAt stands infinite (items.take 4)

variable {α : Type} {item : Value → Except Fault α} {data : Value} {items : List Value}
variable {stands infinite : Value → Prop} (sorts : Sorts item stands infinite)
include sorts

theorem three_eq_infinite_iff :
    three item items = .error .infinite ↔ StopsAt stands infinite (items.take 4) := by
  rw [three, Except.bind_eq_error_iff, Except.mapM_eq_error_iff]
  simp only [sorts.eq_ok_iff, sorts.eq_infinite_iff]
  refine or_iff_left ?_
  rintro ⟨read, -, failed⟩
  split at failed <;> cases failed

theorem exists_three_iff : (∃ t, three item items = .ok t) ↔
    ∃ a b c, items = [a, b, c] ∧ stands a ∧ stands b ∧ stands c := by
  simp only [Prod.exists, three_eq_ok_iff, ← sorts.eq_ok_iff]
  constructor
  · rintro ⟨x, y, z, a, b, c, rfl, first, second, third⟩
    exact ⟨a, b, c, rfl, ⟨x, first⟩, ⟨y, second⟩, ⟨z, third⟩⟩
  · rintro ⟨a, b, c, rfl, ⟨x, first⟩, ⟨y, second⟩, ⟨z, third⟩⟩
    exact ⟨x, y, z, a, b, c, rfl, first, second, third⟩

theorem kind_of_three {f : Fault} (failed : three item items = .error f) (finite : f ≠ .infinite) :
    f.kind ≠ .overflow := by
  obtain failed | ⟨read, -, failed⟩ := Except.bind_eq_error_iff.1 failed
  · obtain ⟨_, v, _, -, -, failed⟩ := Except.mapM_eq_error_iff.1 failed
    exact sorts.kind_ne failed finite
  · split at failed
    · cases failed
    · cases failed
      decide

/-- Of the parts of a point, an infinite one comes as a fault if all parts in front of it are in
order. Parts that are wrong otherwise are reported, if the report can be written. -/
theorem reports_readThree (otherwise : ExchangeError) :
    Reports (readThree item otherwise data) fun f =>
      f = .infinite ∧ IsUnbounded stands infinite data ∨
      f = .numeralLength ∧ ¬ HasThree stands data ∧ ¬ IsUnbounded stands infinite data ∧
        ¬ otherwise.isWritable := by
  rw [readThree, IsUnbounded, HasThree]
  cases data.items? with
  | none => exact (Reports.refused otherwise).congr fun f => by simp
  | some items =>
    simp only [Option.some.injEq, exists_eq_left', ← three_eq_infinite_iff sorts,
      ← exists_three_iff sorts]
    cases read : three item items with
    | ok v => exact (Reports.of_failsIn (.ok v)).congr fun f => by simp
    | error e =>
      by_cases same : e = .infinite
      · subst same
        exact (Reports.fault .infinite).congr fun f => by simp
      · dsimp only
        rw [if_neg (kind_of_three sorts read same)]
        exact (Reports.refused otherwise).congr fun f => by simp [same]

end Three

section Points

/-- The faults that escape where a value is read as a point of which the parts stand for
something in `α`. An infinite part escapes. Otherwise the value is no point, and what is wrong
with it is told by an integer that is too long to be written: by any in the whole value if its
parts are wrong, by one of the third part if that is neither zero nor one, and else by the first
that is no coordinate. -/
inductive PointEscapes {α : Type} (item : Value → Except Fault α) (stands infinite : Value → Prop)
    (integers : α → List Int) (zero one : α) (v : Value) : Fault → Prop
  | infinite (unbounded : IsUnbounded stands infinite v) :
    PointEscapes item stands infinite integers zero one v .infinite
  | whole (parts : ¬ HasThree stands v) (bounded : ¬ IsUnbounded stands infinite v)
    (long : ¬ v.isWritable) : PointEscapes item stands infinite integers zero one v .numeralLength
  | scale {a b c : Value} {x y z : α} (parts : v.items? = some [a, b, c]) (first : item a = .ok x)
    (second : item b = .ok y) (third : item c = .ok z) (other : z ≠ zero ∧ z ≠ one)
    (long : ∃ n ∈ integers z, ¬ Text.Numeral.isWritable n) :
    PointEscapes item stands infinite integers zero one v .numeralLength
  | coordinate {a b c : Value} {x y : α} (parts : v.items? = some [a, b, c])
    (first : item a = .ok x) (second : item b = .ok y) (third : item c = .ok one)
    (long : StopsAt InField (¬ Text.Numeral.isWritable ·) (integers x ++ integers y)) :
    PointEscapes item stands infinite integers zero one v .numeralLength

section Standing

variable {F α : Type} [DecidableEq F] [Zero F] [One F] [Sub F] [Mul F] {least : F → α} {b : F}
variable {read : α → Result F} {scale : α → ExchangeError} {outside : α → α → ExchangeError}
variable {integers : α → List Int}

/-- Coordinates are told by their integers, where they are refused. -/
structure Tells (read : α → Result F) (scale : α → ExchangeError)
    (outside : α → α → ExchangeError) (integers : α → List Int) : Prop where
  reports (x : α) : Reports (read x) fun f =>
    f = .numeralLength ∧ StopsAt InField (¬ Text.Numeral.isWritable ·) (integers x)
  inField_iff (x : α) : (∃ r, read x = .ok r) ↔ ∀ n ∈ integers x, InField n
  scale_iff (z : α) : (scale z).isWritable ↔ ∀ n ∈ integers z, Text.Numeral.isWritable n
  outside_isWritable {x y : α} (hx : ∀ n ∈ integers x, InField n)
    (hy : ∀ n ∈ integers y, InField n) : (outside x y).isWritable

theorem reports_place [DecidableEq α] (tells : Tells read scale outside integers)
    (distinct : least 1 ≠ least 0) (x y z : α) :
    Reports (place least b read scale outside x y z) fun f => f = .numeralLength ∧
      ((z ≠ least 0 ∧ z ≠ least 1) ∧ (∃ n ∈ integers z, ¬ Text.Numeral.isWritable n) ∨
        z = least 1 ∧
          StopsAt InField (¬ Text.Numeral.isWritable ·) (integers x ++ integers y)) := by
  have finite : Reports (do
      let p ← read x
      let q ← read y
      if Point.isOn b (.affine p q) then .ok (.affine p q) else .error (refusal (outside x y)) :
        Result (Point F)) fun f => f = .numeralLength ∧
          StopsAt InField (¬ Text.Numeral.isWritable ·) (integers x ++ integers y) := by
    refine .walk (tells.reports x) (tells.inField_iff x) (tells.reports y) fun p q hp hq => ?_
    have writable := tells.outside_isWritable ((tells.inField_iff x).1 ⟨p, hp⟩)
      ((tells.inField_iff y).1 ⟨q, hq⟩)
    refine (Reports.ite (.pure _) (.refused (outside x y))).congr fun f => ?_
    simp [writable]
  have long : ¬ (scale z).isWritable ↔ ∃ n ∈ integers z, ¬ Text.Numeral.isWritable n := by
    rw [tells.scale_iff]
    push Not
    rfl
  refine (Reports.ite (.pure _) (.ite (.refused (scale z)) finite)).congr fun f => ?_
  rw [long]
  by_cases one : z = least 1
  · subst one
    simp [distinct]
  · simp only [one, ne_eq, not_false_eq_true, not_true_eq_false, and_false, and_true, false_and,
      true_and, or_false, false_or]
    tauto

/-- A fault escapes from the reading of a value exactly as the parts and their integers say. -/
theorem reports_toPoint [DecidableEq α] {item : Value → Except Fault α}
    {stands infinite : Value → Prop} {otherwise : ExchangeError} {v : Value}
    (sorts : Sorts item stands infinite) (tells : Tells read scale outside integers)
    (distinct : least 1 ≠ least 0) (whole : otherwise.isWritable = v.isWritable) :
    Reports (toPoint item least b read otherwise scale outside v)
      (PointEscapes item stands infinite integers (least 0) (least 1) v) := by
  refine ((reports_readThree sorts otherwise).bind fun parts _ =>
    reports_place tells distinct parts.1 parts.2.1 parts.2.2).congr fun f => ?_
  rw [whole]
  constructor
  · rintro ((⟨rfl, unbounded⟩ | ⟨rfl, parts, bounded, long⟩) |
      ⟨⟨x, y, z⟩, found, rfl, ⟨other, long⟩ | ⟨rfl, long⟩⟩)
    · exact .infinite unbounded
    · exact .whole parts bounded long
    · obtain ⟨_, _, _, parts, first, second, third⟩ := readThree_eq_ok_iff.1 found
      exact .scale parts first second third other long
    · obtain ⟨_, _, _, parts, first, second, third⟩ := readThree_eq_ok_iff.1 found
      exact .coordinate parts first second third long
  · rintro (unbounded | ⟨parts, bounded, long⟩ | ⟨parts, first, second, third, other, long⟩ |
      ⟨parts, first, second, third, long⟩)
    · exact .inl (.inl ⟨rfl, unbounded⟩)
    · exact .inl (.inr ⟨rfl, parts, bounded, long⟩)
    · exact .inr ⟨_, readThree_eq_ok_iff.2 ⟨_, _, _, parts, first, second, third⟩, rfl,
        .inl ⟨other, long⟩⟩
    · exact .inr ⟨_, readThree_eq_ok_iff.2 ⟨_, _, _, parts, first, second, third⟩, rfl,
        .inr ⟨rfl, long⟩⟩

end Standing

theorem reports_readCoordinate (n : Int) : Reports (readCoordinate n) fun f =>
    f = .numeralLength ∧ StopsAt InField (¬ Text.Numeral.isWritable ·) [n] := by
  refine (Reports.ite (.pure _) (.refused (.coordinate n))).congr fun f => ?_
  have stops : StopsAt InField (¬ Text.Numeral.isWritable ·) [n] ↔
      ¬ Text.Numeral.isWritable n := by
    rw [Except.stopsAt_cons, or_iff_left fun h => Except.stopsAt_nil h.2]
  have least : (0 ≤ n && n < (baseOrder : Int)) = true ↔ InField n := by
    rw [Bool.and_eq_true, decide_eq_true_iff, decide_eq_true_iff, InField]
  rw [stops, least, and_false, false_or]
  constructor
  · exact fun ⟨_, long⟩ => long
  · exact fun ⟨same, long⟩ => ⟨fun inside => long inside.isWritable, same, long⟩

theorem exists_readCoordinate_iff {n : Int} : (∃ x, readCoordinate n = .ok x) ↔ InField n := by
  simp only [readCoordinate_eq_ok_iff]
  constructor
  · rintro ⟨x, rfl⟩
    exact inField_val x
  · rintro ⟨nonneg, below⟩
    exact ⟨⟨n.toNat, by omega⟩, (Int.toNat_of_nonneg nonneg).symm⟩

theorem tells_curve : Tells readCoordinate .curveScale .outsideCurve fun x => [x] where
  reports := reports_readCoordinate
  inField_iff n := by rw [List.forall_mem_singleton, exists_readCoordinate_iff]
  scale_iff z := by rw [List.forall_mem_singleton]; rfl
  outside_isWritable hx hy := by
    rw [ExchangeError.isWritable, (hx _ (List.mem_singleton_self _)).isWritable,
      (hy _ (List.mem_singleton_self _)).isWritable]
    rfl

theorem tells_twist : Tells readComponents (fun z => .twistScale z.1 z.2)
    (fun x _ => .outsideTwist x.1 x.2) fun x => [x.1, x.2] where
  reports x := by
    refine .walk (reports_readCoordinate x.1) ?_ (reports_readCoordinate x.2) fun _ _ _ _ => .pure _
    rw [List.forall_mem_singleton, exists_readCoordinate_iff]
  inField_iff x := by
    rw [List.forall_mem_cons, List.forall_mem_singleton, ← exists_readCoordinate_iff,
      ← exists_readCoordinate_iff]
    constructor
    · rintro ⟨r, read⟩
      obtain ⟨a, first, read⟩ := Except.bind_eq_ok_iff.1 read
      obtain ⟨b, second, -⟩ := Except.bind_eq_ok_iff.1 read
      exact ⟨⟨a, first⟩, ⟨b, second⟩⟩
    · rintro ⟨⟨a, first⟩, ⟨b, second⟩⟩
      exact ⟨⟨a, b⟩, by rw [readComponents, first, Except.ok_bind, second]; rfl⟩
  scale_iff z := by simp [ExchangeError.isWritable]
  outside_isWritable hx _ := by
    obtain ⟨first, second⟩ := List.forall_mem_cons.1 hx
    rw [ExchangeError.isWritable, first.isWritable,
      (second _ (List.mem_singleton_self _)).isWritable]
    rfl

/-- The curves that points are read from. -/
inductive Group
  | curve
  | twist

/-- A value stands for a point. -/
def Group.Stands : Group → Value → Prop
  | curve, v => ∃ p, StandsForG1 v p
  | twist, v => ∃ p, StandsForG2 v p

/-- The faults that escape where a value is read as a point. -/
def Group.Escapes : Group → Value → Fault → Prop
  | curve => PointEscapes Value.toInt IsInteger IsInfinite (fun x => [x]) 0 1
  | twist => PointEscapes readPair IsPair IsInfinitePair (fun x => [x.1, x.2]) (0, 0) (1, 0)

theorem reports_toG1 (v : Value) : Reports (toG1 v) (Group.curve.Escapes v) := by
  rw [toG1_eq_toPoint]
  exact reports_toPoint sorts_toInt tells_curve (by decide) rfl

theorem reports_toG2 (v : Value) : Reports (toG2 v) (Group.twist.Escapes v) := by
  rw [toG2_eq_toPoint]
  exact reports_toPoint sorts_readPair tells_twist (by decide) rfl

end Points

section Members

variable {α β : Type} {members : List (Text × Value)} {missing : String → ExchangeError}
variable {name : String} {later : Fault → Prop}

/-- Each of the given members stands for a point. -/
def PointsStand (data : Value) (points : List (String × Group)) : Prop :=
  ∀ m ∈ points, HasMember data m.1 m.2.Stands

/-- A fault escapes where one of the given members is read as a point, and those in front of it
stand for points. -/
def PointsEscape (data : Value) (points : List (String × Group)) (f : Fault) : Prop :=
  StopsAt (fun m => HasMember data m.1 m.2.Stands)
    (fun m => HasMember data m.1 (m.2.Escapes · f)) points

/-- A fault escapes while the points in the given members are read, or all of them stand for points
and it escapes later. -/
def Along (data : Value) (points : List (String × Group)) (later : Fault → Prop) (f : Fault) :
    Prop :=
  PointsEscape data points f ∨ PointsStand data points ∧ later f

theorem along_nil {data : Value} {f : Fault} : Along data [] later f ↔ later f := by
  have stands : PointsStand data [] := List.forall_mem_nil _
  have none : ¬ PointsEscape data [] f := Except.stopsAt_nil
  rw [Along, or_iff_right none, and_iff_right stands]

theorem along_cons {data : Value} {group : Group} {points : List (String × Group)} {f : Fault} :
    Along data ((name, group) :: points) later f ↔ HasMember data name fun v =>
      group.Escapes v f ∨ group.Stands v ∧ Along data points later f := by
  rw [Along, PointsEscape, PointsStand, Except.stopsAt_cons, List.forall_mem_cons]
  constructor
  · rintro ((⟨v, found, escapes⟩ | ⟨⟨v, found, stands⟩, stops⟩) |
      ⟨⟨⟨v, found, stands⟩, others⟩, last⟩)
    · exact ⟨v, found, .inl escapes⟩
    · exact ⟨v, found, .inr ⟨stands, .inl stops⟩⟩
    · exact ⟨v, found, .inr ⟨stands, .inr ⟨others, last⟩⟩⟩
  · rintro ⟨v, found, escapes | ⟨stands, stops | ⟨others, last⟩⟩⟩
    · exact .inl (.inl ⟨v, found, escapes⟩)
    · exact .inl (.inr ⟨⟨v, found, stands⟩, stops⟩)
    · exact .inr ⟨⟨⟨v, found, stands⟩, others⟩, last⟩

/-- A member that is missing is reported, and of one that is there it depends on its value. -/
theorem reports_member {read : Value → Result α} {escapes : Value → Fault → Prop}
    (reads : ∀ v, Reports (read v) (escapes v)) :
    Reports (require missing (.object members) name >>= read) fun f =>
      HasMember (.object members) name (escapes · f) := by
  rw [require]
  cases found : members.lookup (name : Text) with
  | none =>
    refine (Reports.of_failsIn (.error (reportedAs_exchange _))).congr fun f => ?_
    simp [HasMember, Value.member?, found]
  | some v =>
    refine (reads v).congr fun f => ?_
    simp [HasMember, Value.member?, found]

variable {points : List (String × Group)}

theorem reports_curve {next : G1 → Result α}
    (rest : ∀ p, Reports (next p) (Along (.object members) points later)) :
    Reports (require missing (.object members) name >>= fun v => toG1 v >>= next)
      (Along (.object members) ((name, .curve) :: points) later) := by
  refine (reports_member fun v => (reports_toG1 v).bind fun p _ => rest p).congr fun f => ?_
  simp only [toG1_eq_ok_iff, exists_and_right]
  exact along_cons.symm

theorem reports_twist {next : G2 → Result α}
    (rest : ∀ p, Reports (next p) (Along (.object members) points later)) :
    Reports (require missing (.object members) name >>= fun v => toG2 v >>= next)
      (Along (.object members) ((name, .twist) :: points) later) := by
  refine (reports_member fun v => (reports_toG2 v).bind fun p _ => rest p).congr fun f => ?_
  simp only [toG2_eq_ok_iff, exists_and_right]
  exact along_cons.symm

/-- After the last of the points, what is left decides. -/
theorem reports_rest {x : Result α} (rest : Reports x later) (data : Value) :
    Reports x (Along data [] later) :=
  rest.congr fun _ => along_nil.symm

end Members

section Documents

variable {members : List (Text × Value)}

/-- The points of a proof, in the order in which they are read. -/
def proofPoints : List (String × Group) := [("pi_a", .curve), ("pi_b", .twist), ("pi_c", .curve)]

/-- The single points of a key, in the order in which they are read. -/
def keyPoints : List (String × Group) :=
  [("vk_alpha_1", .curve), ("vk_beta_2", .twist), ("vk_gamma_2", .twist), ("vk_delta_2", .twist)]

/-- A key names another proof system, by a value that is too long to be told. -/
def ProtocolEscapes (data : Value) (f : Fault) : Prop :=
  f = .numeralLength ∧ HasMember data "protocol" fun v => v ≠ .text protocol ∧ ¬ v.isWritable

/-- The count of public values stands for no integer, or it is not that of the given number of
points and too long to be told. -/
def CountEscapes (data : Value) (points : Nat) (f : Fault) : Prop :=
  HasMember data "nPublic" fun v => v.toInt = .error f ∨
    f = .numeralLength ∧ (∃ n, v.toInt = .ok n ∧ n + 1 ≠ points) ∧ ¬ v.isWritable

/-- What a key gets wrong that is not reported, where the proof system is right. -/
inductive KeyEscapes (data : Value) : Fault → Prop
  | point {f : Fault} (stops : PointsEscape data keyPoints f) : KeyEscapes data f
  | noParts (points : PointsStand data keyPoints) (whole : HasMember data "IC" (·.items? = none)) :
    KeyEscapes data .wrongShape
  | input {f : Fault} (points : PointsStand data keyPoints)
    (stops : HasMember data "IC" fun v => ∃ items, v.items? = some items ∧
      StopsAt Group.curve.Stands (Group.curve.Escapes · f) items) : KeyEscapes data f
  | count {f : Fault} (points : PointsStand data keyPoints)
    (inputs : HasMember data "IC" fun v => ∃ items, v.items? = some items ∧
      (∀ w ∈ items, Group.curve.Stands w) ∧ CountEscapes data items.length f) : KeyEscapes data f

theorem reports_toProof :
    Reports (toProof (.object members)) (PointsEscape (.object members) proofPoints) := by
  refine Reports.congr (reports_curve fun _ => reports_twist fun _ => reports_curve fun _ =>
    reports_rest (.pure _) _) fun f => ?_
  rw [Along, and_false, or_false, proofPoints]

theorem reports_checkProtocol :
    Reports (checkProtocol (.object members)) (ProtocolEscapes (.object members)) := by
  unfold ProtocolEscapes HasMember
  rw [checkProtocol, Value.member?]
  split
  next none =>
    exact (Reports.of_failsIn (.ok ())).congr fun f => by simp [none]
  next s found =>
    refine (Reports.ite (.pure ()) (.refused (.protocol (.text s)))).congr fun f => ?_
    simp [found, ExchangeError.isWritable, Value.isWritable]
  next v other found =>
    refine (Reports.refused (.protocol v)).congr fun f => ?_
    have differs : v ≠ .text protocol := fun same => other _ same
    simp [found, differs, ExchangeError.isWritable]

theorem reports_checkCount (data : Value) {vk : VerifyingKey G1 G2} {points : Nat}
    (length : vk.inputs.length = points) :
    Reports (checkCount data vk) (CountEscapes data points) := by
  unfold CountEscapes HasMember
  rw [checkCount]
  cases found : data.member? "nPublic" with
  | none => exact (Reports.of_failsIn (.ok ())).congr fun f => by simp
  | some declared =>
    refine ((Reports.ofFault declared.toInt).bind fun n _ => Reports.ite
      (.refused (.inputPoints declared vk.inputs.length)) (.pure ())).congr fun f => ?_
    have differs (n : Int) : n ≠ vk.publicSignals ↔ n + 1 ≠ points := by
      rw [VerifyingKey.publicSignals, length]
      omega
    simp only [differs, Result.ofFault_eq_ok_iff, ExchangeError.isWritable, Option.some.injEq,
      exists_eq_left', and_false, or_false]
    refine or_congr_right ?_
    constructor
    · rintro ⟨n, read, other, same, long⟩
      exact ⟨same, ⟨n, read, other⟩, long⟩
    · rintro ⟨same, ⟨n, read, other⟩, long⟩
      exact ⟨n, read, other, same, long⟩

/-- Points are read one after another. -/
theorem reports_mapM (items : List Value) : Reports (items.mapM toG1) fun f =>
    StopsAt Group.curve.Stands (Group.curve.Escapes · f) items where
  failsIn := .mapM fun v _ => (reports_toG1 v).failsIn
  fault_iff f := by
    rw [Except.mapM_eq_error_iff]
    simp only [toG1_eq_ok_iff, (reports_toG1 _).fault_iff]
    rfl

/-- What a value with the input points gets wrong that is not reported, and what the count behind it
does. -/
def InputsEscape (data v : Value) (f : Fault) : Prop :=
  v.items? = none ∧ f = .wrongShape ∨
    ∃ items, v.items? = some items ∧
      (StopsAt Group.curve.Stands (Group.curve.Escapes · f) items ∨
        (∀ w ∈ items, Group.curve.Stands w) ∧ CountEscapes data items.length f)

theorem reports_inputs (alpha : G1) (beta gamma delta : G2) (data v : Value) :
    Reports (match v.items? with
      | none => throw (.fault .wrongShape)
      | some items => do
        let vk : VerifyingKey G1 G2 := ⟨alpha, beta, gamma, delta, ← items.mapM toG1⟩
        checkCount data vk
        return vk) (InputsEscape data v) := by
  cases parts : v.items? with
  | none => exact (Reports.fault .wrongShape).congr fun f => by simp [InputsEscape, parts]
  | some items =>
    have counted {inputs : List G1} (read : items.mapM toG1 = .ok inputs) :
        Reports (do
          let vk : VerifyingKey G1 G2 := ⟨alpha, beta, gamma, delta, inputs⟩
          checkCount data vk
          return vk) (CountEscapes data items.length) := by
      have length : inputs.length = items.length := (Except.mapM_eq_ok_iff.1 read).length_eq.symm
      exact ((reports_checkCount data length).bind fun _ _ => .pure _).congr fun f => by simp
    refine ((reports_mapM items).bind fun inputs read => counted read).congr fun f => ?_
    simp only [exists_and_right, Except.exists_mapM_eq_ok_iff, toG1_eq_ok_iff, InputsEscape, parts,
      reduceCtorEq, false_and, false_or, Option.some.injEq, exists_eq_left']
    rfl

theorem reports_toKey : Reports (toKey (.object members)) fun f =>
    ProtocolEscapes (.object members) f ∨
      (∀ v, (Value.object members).member? "protocol" = some v → v = .text protocol) ∧
        KeyEscapes (.object members) f := by
  refine Reports.congr (reports_checkProtocol.bind fun _ _ => reports_curve fun alpha =>
    reports_twist fun beta => reports_twist fun gamma => reports_twist fun delta =>
      reports_rest (reports_member fun v => reports_inputs alpha beta gamma delta _ v) _)
    fun f => ?_
  have named : (∃ a, checkProtocol (.object members) = .ok a) ↔
      checkProtocol (.object members) = .ok () := ⟨fun ⟨_, h⟩ => h, fun h => ⟨(), h⟩⟩
  rw [exists_and_right, named, checkProtocol_object_eq_ok_iff]
  refine or_congr_right (and_congr_right fun _ => ?_)
  constructor
  · rintro (stops | ⟨points, v, found, ⟨whole, rfl⟩ | ⟨items, parts, stops | ⟨stand, escapes⟩⟩⟩)
    · exact .point stops
    · exact .noParts points ⟨v, found, whole⟩
    · exact .input points ⟨v, found, items, parts, stops⟩
    · exact .count points ⟨v, found, items, parts, stand, escapes⟩
  · rintro (stops | ⟨points, v, found, whole⟩ | ⟨points, v, found, items, parts, stops⟩ |
      ⟨points, v, found, items, parts, stand, escapes⟩)
    · exact .inl stops
    · exact .inr ⟨points, v, found, .inl ⟨whole, rfl⟩⟩
    · exact .inr ⟨points, v, found, .inr ⟨items, parts, .inl stops⟩⟩
    · exact .inr ⟨points, v, found, .inr ⟨items, parts, .inr ⟨stand, escapes⟩⟩⟩

/-- Every object is read as a proof, or it is reported as an encoding error, unless an infinite
number comes where a coordinate is looked for, or a point is wrong in a way that is told by an
integer too long to be written. It is read as a key, or it is reported, unless this happens to
one of its points, or the input points are no parts of a value, or the count of public values
stands for no integer, or the proof system or the count is wrong and told by an integer too long
to be written. -/
theorem documents_report (members : List (Text × Value)) :
    Reports (toProof (.object members)) (PointsEscape (.object members) proofPoints) ∧
    Reports (toKey (.object members)) fun f =>
      ProtocolEscapes (.object members) f ∨
        (∀ v, (Value.object members).member? "protocol" = some v → v = .text protocol) ∧
          KeyEscapes (.object members) f :=
  ⟨reports_toProof, reports_toKey⟩

/-- A key with one input point, of which the count of public values is null. -/
def uncountedKey : Value :=
  .object [
    ("nPublic", .null),
    ("vk_alpha_1", ofG1 .infinity),
    ("vk_beta_2", ofG2 .infinity),
    ("vk_gamma_2", ofG2 .infinity),
    ("vk_delta_2", ofG2 .infinity),
    ("IC", .list [ofG1 .infinity])]

/-- A proof with an infinite coordinate. -/
def unboundedProof : Value :=
  .object [
    ("pi_a", .list [.real (.infinite false), .int 1, .int 1]),
    ("pi_b", ofG2 .infinity),
    ("pi_c", ofG1 .infinity)]

/-- Not all that is wrong is reported. -/
theorem documents_report_uncountedKey :
    toKey uncountedKey = .error (.fault .wrongShape) ∧
    toProof unboundedProof = .error (.fault .infinite) ∧
    ¬ Failure.ReportedAs .encoding (.fault .wrongShape) ∧
    ¬ Failure.ReportedAs .encoding (.fault .infinite) :=
  ⟨rfl, rfl, not_reportedAs_fault _ _, not_reportedAs_fault _ _⟩

end Documents

end Snark.Exchange
