import Snark.Json.Integer
import Snark.Json.Parser
import Snark.Proofs.Double
import Snark.Proofs.Text.Numeral

/-!
# Numbers in a document

An integer in a document has at most as many digits as a numeral may have, and a number with a
fraction is a double. So every number that is read is short enough to be written once its fraction
is dropped, and so is every integer that a part of the document stands for.
-/

namespace Snark.Json

namespace Value

/-- Every number in a value is short enough to be written, once its fraction is dropped. -/
inductive Short : Value → Prop
  | null : Short .null
  | bool (b : Bool) : Short (.bool b)
  | int {n : Int} (short : Text.Numeral.isWritable n) : Short (.int n)
  | real {x : Double} (short : ∀ n, x.truncate? = some n → Text.Numeral.isWritable n) :
    Short (.real x)
  | text (s : Text) : Short (.text s)
  | list {items : List Value} (each : ∀ v ∈ items, Short v) : Short (.list items)
  | object {members : List (Text × Value)} (each : ∀ m ∈ members, Short m.2) :
    Short (.object members)

variable {v w : Value} {n : Int}

theorem allWritable_iff {items : List Value} :
    allWritable items = true ↔ ∀ v ∈ items, v.isWritable = true := by
  induction items with
  | nil => simp [allWritable]
  | cons v rest ih => rw [allWritable, Bool.and_eq_true, ih, List.forall_mem_cons]

theorem membersWritable_iff {members : List (Text × Value)} :
    membersWritable members = true ↔ ∀ m ∈ members, m.2.isWritable = true := by
  induction members with
  | nil => simp [membersWritable]
  | cons m rest ih => rw [membersWritable, Bool.and_eq_true, ih, List.forall_mem_cons]

namespace Short

theorem isWritable (h : v.Short) : v.isWritable = true := by
  induction h with
  | int short => exact short
  | list _ each => exact allWritable_iff.2 each
  | object _ each => exact membersWritable_iff.2 each
  | null | bool | real | text => rfl

/-- What a short value stands for is short enough to be written. -/
theorem isWritable_of_toInt (h : v.Short) (stands : v.toInt = .ok n) :
    Text.Numeral.isWritable n = true := by
  cases h with
  | int short =>
    cases stands
    exact short
  | bool b =>
    cases stands
    refine Text.Numeral.isWritable_of_lt_pow (k := 1) ?_ (by decide)
    cases b <;> decide
  | text s =>
    rw [toInt, readInteger] at stands
    split at stands
    · rename_i read
      cases stands
      exact (Text.Numeral.read_decimal_eq_ok_iff.1 read).isWritable
    all_goals cases stands
  | @real x short =>
    cases x with
    | finite =>
      cases stands
      exact short _ rfl
    | infinite | nan => cases stands
  | null | list | object => cases stands

/-- The parts of a short value are short. -/
theorem of_mem_items {items : List Value} (h : v.Short) (parts : v.items? = some items) :
    ∀ w ∈ items, w.Short := by
  cases h with
  | list each =>
    cases parts
    exact each
  | text s =>
    cases parts
    exact List.forall_mem_map.2 fun _ _ => .text _
  | object each =>
    cases parts
    exact List.forall_mem_map.2 fun _ _ => .text _
  | null | bool | int | real => cases parts

/-- The members of a short value are short. -/
theorem of_member {name : Text} (h : v.Short) (found : v.member? name = some w) : w.Short := by
  cases h with
  | object each =>
    obtain ⟨before, after, rfl, -⟩ := List.lookup_eq_some_iff.1 found
    exact each (name, w) List.mem_append_cons_self
  | null | bool | int | real | text | list => cases found

end Short

end Value

open Value (Short)

section Numbers

variable {cs ds rest : List Char} {negative : Bool} {v : Value}

theorem natOfDigits_lt (h : ∀ c ∈ ds, c.isDigit = true) : natOfDigits ds < 10 ^ ds.length := by
  have value : natOfDigits ds = Text.Numeral.value 10 (ds.map fun c => c.toNat - '0'.toNat) := by
    rw [natOfDigits, Text.Numeral.value, List.foldl_map]
  rw [value, ← List.length_map (f := fun c : Char => c.toNat - '0'.toNat)]
  refine Text.Numeral.value_lt (by decide) (List.forall_mem_map.2 fun c hc => ?_)
  have range : 48 ≤ c.toNat ∧ c.toNat ≤ 57 := Char.isDigit_iff_toNat.1 (h c hc)
  change c.toNat - 48 < 10
  omega

/-- An integer with too many digits is not read, and a number with a fraction or an exponent is
a double. -/
theorem short_of_number? (read : number? negative cs = some (v, rest)) : v.Short := by
  have whole : ∀ c ∈ (spanDigits cs).1, c.isDigit = true := fun _ => List.mem_takeWhile_imp
  rw [number?] at read
  dsimp only at read
  split at read
  · cases read
  obtain ⟨⟨fraction, more⟩, -, read⟩ := Option.bind_eq_some_iff.1 read
  obtain ⟨⟨exponent, tail⟩, -, read⟩ := Option.bind_eq_some_iff.1 read
  dsimp only at read
  split at read
  · by_cases long : Text.maxDigits < (spanDigits cs).1.length
    · rw [if_pos long] at read
      cases read
    · rw [if_neg long] at read
      cases read
      refine .int (Text.Numeral.isWritable_of_lt_pow ?_ (Nat.not_lt.1 long))
      rw [Text.Numeral.natAbs_signed]
      exact natOfDigits_lt whole
  · cases read
    refine .real fun n truncated => ?_
    have small := Double.natAbs_lt_of_truncate?_ofDecimal truncated le_rfl
    exact Text.Numeral.isWritable_of_lt_pow small (by decide)

theorem short_of_scalar? (read : scalar? cs = some (v, rest)) : v.Short := by
  have not_number : (Value.real .nan).Short := .real fun _ truncated => by cases truncated
  have unbounded (negative : Bool) : (Value.real (.infinite negative)).Short :=
    .real fun _ truncated => by cases truncated
  unfold scalar? at read
  split at read
  case h_8 | h_9 => exact short_of_number? read
  all_goals
    obtain ⟨_, -, ⟨⟩⟩ := Option.map_eq_some_iff.1 read
    first | exact .null | exact .bool _ | exact .text _ | exact not_number | exact unbounded _

end Numbers

theorem short_of_mem_setMember {name : Text} {v : Value} {members : List (Text × Value)}
    (short : v.Short) (each : ∀ m ∈ members, m.2.Short) :
    ∀ m ∈ setMember name v members, m.2.Short := by
  induction members with
  | nil => exact List.forall_mem_singleton.2 short
  | cons m members ih =>
    obtain ⟨first, others⟩ := List.forall_mem_cons.1 each
    obtain ⟨k, old⟩ := m
    rw [setMember]
    split
    · exact List.forall_mem_cons.2 ⟨short, others⟩
    · exact List.forall_mem_cons.2 ⟨first, ih others⟩

mutual

theorem short_of_value? {v : Value} {rest : List Char} : (fuel : Nat) → (cs : List Char) →
    value? fuel cs = some (v, rest) → v.Short
  | 0, _, read => by cases read
  | fuel + 1, cs, read => by
    rw [value?] at read
    split at read
    · split at read
      · cases read
        exact .list (List.forall_mem_nil _)
      · obtain ⟨_, items, ⟨⟩⟩ := Option.map_eq_some_iff.1 read
        exact .list (short_of_items? fuel _ items)
    · split at read
      · cases read
        exact .object (List.forall_mem_nil _)
      · obtain ⟨_, members, ⟨⟩⟩ := Option.map_eq_some_iff.1 read
        exact .object (short_of_members? fuel [] _ (List.forall_mem_nil _) members)
    · exact short_of_scalar? read

theorem short_of_items? {vs : List Value} {rest : List Char} : (fuel : Nat) → (cs : List Char) →
    items? fuel cs = some (vs, rest) → ∀ v ∈ vs, v.Short
  | 0, _, read => by cases read
  | fuel + 1, cs, read => by
    rw [items?] at read
    obtain ⟨⟨v, more⟩, first, read⟩ := Option.bind_eq_some_iff.1 read
    have short := short_of_value? fuel cs first
    dsimp only at read
    split at read
    · obtain ⟨_, others, ⟨⟩⟩ := Option.bind_eq_some_iff.1 read
      exact List.forall_mem_cons.2 ⟨short, short_of_items? fuel _ others⟩
    · cases read
      exact List.forall_mem_singleton.2 short
    · cases read

theorem short_of_members? {members : List (Text × Value)} {rest : List Char} : (fuel : Nat) →
    (seen : List (Text × Value)) → (cs : List Char) → (∀ m ∈ seen, m.2.Short) →
    members? fuel seen cs = some (members, rest) → ∀ m ∈ members, m.2.Short
  | 0, _, _, _, read => by cases read
  | fuel + 1, seen, cs, each, read => by
    rw [members?] at read
    split at read
    · obtain ⟨⟨name, more⟩, -, read⟩ := Option.bind_eq_some_iff.1 read
      dsimp only at read
      split at read
      · obtain ⟨⟨v, more⟩, value, read⟩ := Option.bind_eq_some_iff.1 read
        have known : ∀ m ∈ setMember name v seen, m.2.Short :=
          short_of_mem_setMember (short_of_value? fuel _ value) each
        dsimp only at read
        split at read
        · exact short_of_members? fuel _ _ known read
        · cases read
          exact known
        · cases read
      · cases read
    · cases read

end

/-- Every number in a document that was read is short enough to be written. -/
theorem short_of_parse? {s : String} {v : Value} (read : parse? s = some v) : v.Short := by
  obtain ⟨⟨v, rest⟩, value, read⟩ := Option.bind_eq_some_iff.1 read
  dsimp only at read
  split at read
  · cases read
    exact short_of_value? _ _ value
  · cases read

end Snark.Json
