import Snark.Proofs.Exchange.Reporting
import Snark.Proofs.Json.Parser

/-!
# Documents that were read

No document holds an integer that is too long to be written, so all that is wrong with one can be
told. What escapes the reports is an infinite number in a point, input points that are not given as
parts of a value, and a count of public values that stands for no integer.
-/

namespace Snark.Exchange

open Json (Value)
open Except (StopsAt)

variable {data v : Value} {f : Fault}

section Points

theorem pointEscapes_iff_of_short {α : Type} {item : Value → Except Fault α}
    {stands infinite : Value → Prop} {integers : α → List Int} {zero one : α} (short : v.Short)
    (told : ∀ {w x}, w.Short → item w = .ok x → ∀ n ∈ integers x, Text.Numeral.isWritable n) :
    PointEscapes item stands infinite integers zero one v f ↔
      f = .infinite ∧ IsUnbounded stands infinite v := by
  constructor
  · rintro (unbounded | ⟨-, -, long⟩ | ⟨parts, first, second, third, -, n, member, long⟩ |
      ⟨parts, first, second, third, before, n, after, integers, -, long⟩)
    · exact ⟨rfl, unbounded⟩
    · exact absurd short.isWritable long
    · have each := short.of_mem_items parts
      exact absurd (told (each _ (by simp)) third n member) long
    · have each := short.of_mem_items parts
      have member : n ∈ _ ++ _ := integers ▸ List.mem_append_cons_self
      obtain member | member := List.mem_append.1 member
      · exact absurd (told (each _ (by simp)) first n member) long
      · exact absurd (told (each _ (by simp)) second n member) long
  · rintro ⟨rfl, unbounded⟩
    exact .infinite unbounded

theorem isWritable_of_readPair {x : Int × Int} (short : v.Short) (read : readPair v = .ok x) :
    ∀ n ∈ [x.1, x.2], Text.Numeral.isWritable n := by
  obtain ⟨a, b, parts, first, second⟩ := readPair_eq_ok_iff.1 read
  have each := short.of_mem_items parts
  exact List.forall_mem_cons.2 ⟨(each a (by simp)).isWritable_of_toInt first,
    List.forall_mem_singleton.2 ((each b (by simp)).isWritable_of_toInt second)⟩

/-- Of the parts of a value, an infinite one is the first that stands for nothing. -/
def Group.IsUnbounded : Group → Value → Prop
  | curve => Exchange.IsUnbounded IsInteger IsInfinite
  | twist => Exchange.IsUnbounded IsPair IsInfinitePair

theorem Group.escapes_iff_of_short (group : Group) (short : v.Short) :
    group.Escapes v f ↔ f = .infinite ∧ group.IsUnbounded v := by
  cases group with
  | curve =>
    exact pointEscapes_iff_of_short short fun part read =>
      List.forall_mem_singleton.2 (part.isWritable_of_toInt read)
  | twist => exact pointEscapes_iff_of_short short isWritable_of_readPair

/-- One of the given members is the first that stands for no point, and has an infinite part. -/
def PointsUnbounded (data : Value) (points : List (String × Group)) : Prop :=
  StopsAt (fun m => HasMember data m.1 m.2.Stands) (fun m => HasMember data m.1 m.2.IsUnbounded)
    points

/-- A member of a short value is wrong in the same way as its value. -/
theorem hasMember_congr_and {name : String} {holds holds' : Value → Prop} {c : Prop}
    (short : data.Short) (same : ∀ {w}, w.Short → (holds w ↔ c ∧ holds' w)) :
    HasMember data name holds ↔ c ∧ HasMember data name holds' := by
  constructor
  · rintro ⟨w, found, held⟩
    obtain ⟨common, held⟩ := (same (short.of_member found)).1 held
    exact ⟨common, w, found, held⟩
  · rintro ⟨common, w, found, held⟩
    exact ⟨w, found, (same (short.of_member found)).2 ⟨common, held⟩⟩

theorem pointsEscape_iff_of_short {points : List (String × Group)} (short : data.Short) :
    PointsEscape data points f ↔ f = .infinite ∧ PointsUnbounded data points :=
  Except.stopsAt_congr_and fun m _ => hasMember_congr_and short m.2.escapes_iff_of_short

end Points

section Documents

theorem not_protocolEscapes_of_short (short : data.Short) : ¬ ProtocolEscapes data f := by
  rintro ⟨-, v, found, -, long⟩
  exact long (short.of_member found).isWritable

theorem countEscapes_iff_of_short {points : Nat} (short : data.Short) :
    CountEscapes data points f ↔ HasMember data "nPublic" (·.toInt = .error f) := by
  constructor
  · rintro ⟨v, found, failed | ⟨-, -, long⟩⟩
    · exact ⟨v, found, failed⟩
    · exact absurd (short.of_member found).isWritable long
  · rintro ⟨v, found, failed⟩
    exact ⟨v, found, .inl failed⟩

/-- What a key that was read gets wrong that is not reported, where the proof system is right. -/
inductive ReadKeyEscapes (data : Value) : Fault → Prop
  | point (unbounded : PointsUnbounded data keyPoints) : ReadKeyEscapes data .infinite
  | noParts (points : PointsStand data keyPoints) (whole : HasMember data "IC" (·.items? = none)) :
    ReadKeyEscapes data .wrongShape
  | input (points : PointsStand data keyPoints)
    (unbounded : HasMember data "IC" fun v => ∃ items, v.items? = some items ∧
      StopsAt Group.curve.Stands Group.curve.IsUnbounded items) : ReadKeyEscapes data .infinite
  | count {f : Fault} (points : PointsStand data keyPoints)
    (inputs : HasMember data "IC" fun v => ∃ items, v.items? = some items ∧
      ∀ w ∈ items, Group.curve.Stands w)
    (declared : HasMember data "nPublic" (·.toInt = .error f)) : ReadKeyEscapes data f

theorem keyEscapes_iff_of_short (short : data.Short) :
    KeyEscapes data f ↔ ReadKeyEscapes data f := by
  have inputs {v : Value} {items : List Value} (found : data.member? "IC" = some v)
      (parts : v.items? = some items) :
      StopsAt Group.curve.Stands (Group.curve.Escapes · f) items ↔
        f = .infinite ∧ StopsAt Group.curve.Stands Group.curve.IsUnbounded items :=
    Except.stopsAt_congr_and fun w member => Group.curve.escapes_iff_of_short
      ((short.of_member found).of_mem_items parts w member)
  constructor
  · rintro (stops | ⟨points, whole⟩ | ⟨points, v, found, items, parts, stops⟩ |
      ⟨points, v, found, items, parts, stand, escapes⟩)
    · obtain ⟨rfl, unbounded⟩ := (pointsEscape_iff_of_short short).1 stops
      exact .point unbounded
    · exact .noParts points whole
    · obtain ⟨rfl, unbounded⟩ := (inputs found parts).1 stops
      exact .input points ⟨v, found, items, parts, unbounded⟩
    · have declared := (countEscapes_iff_of_short short).1 escapes
      exact .count points ⟨v, found, items, parts, stand⟩ declared
  · rintro (unbounded | ⟨points, whole⟩ | ⟨points, v, found, items, parts, unbounded⟩ |
      ⟨points, ⟨v, found, items, parts, stand⟩, declared⟩)
    · exact .point ((pointsEscape_iff_of_short short).2 ⟨rfl, unbounded⟩)
    · exact .noParts points whole
    · exact .input points ⟨v, found, items, parts, (inputs found parts).2 ⟨rfl, unbounded⟩⟩
    · have escapes : CountEscapes data items.length f :=
        (countEscapes_iff_of_short short).2 declared
      exact .count points ⟨v, found, items, parts, stand, escapes⟩

/-- An object that was read as JSON is read as a proof, or what is wrong with it is reported, unless
a point has an infinite part. It is read as a key, or what is wrong is reported, unless a point has
an infinite part, the input points are not given as parts, or the count stands for no integer. -/
theorem reports_of_parse? {s : String} {members : List (Text × Value)}
    (read : Json.parse? s = some (.object members)) :
    Reports (toProof (.object members)) (fun f =>
      f = .infinite ∧ PointsUnbounded (.object members) proofPoints) ∧
    Reports (toKey (.object members)) fun f =>
      (∀ v, (Value.object members).member? "protocol" = some v → v = .text protocol) ∧
        ReadKeyEscapes (.object members) f := by
  have short := Json.short_of_parse? read
  refine ⟨reports_toProof.congr fun f => pointsEscape_iff_of_short short,
    reports_toKey.congr fun f => ?_⟩
  rw [or_iff_right (not_protocolEscapes_of_short short), keyEscapes_iff_of_short short]

end Documents

end Snark.Exchange
