import Snark.Exchange.Point
import Snark.Proofs.Except
import Snark.Proofs.Text.Numeral

/-!
# Points in JSON

A point is read from every value that has three parts of which the third is zero, or is one behind
the coordinates of a point of the curve. The parts may be spelled in many ways, and the value that
is written for a point is one of them. Both groups are read and written in this manner: a coordinate
on the curve is an integer, and one on the twist is a pair of them.
-/

namespace Snark.Exchange

open Json (Value)

section Standing

variable {F α : Type} [DecidableEq F] [Zero F] [One F] [Sub F] [Mul F]

/-- What a value has to be made of to be taken for a point of the curve with the constant `b`: the
parts are read by `item`, and an element of the field has to be given by its `least`
representative. -/
inductive StandsFor (item : Value → Except Fault α) (least : F → α) (b : F) (data : Value) :
    Point F → Prop
  | infinity {u v w : Value} {x y : α} (parts : data.items? = some [u, v, w])
    (first : item u = .ok x) (second : item v = .ok y) (third : item w = .ok (least 0)) :
    StandsFor item least b data .infinity
  | affine {u v w : Value} {x y : F} (parts : data.items? = some [u, v, w])
    (first : item u = .ok (least x)) (second : item v = .ok (least y))
    (third : item w = .ok (least 1)) (on : Point.isOn b (.affine x y) = true) :
    StandsFor item least b data (.affine x y)

/-- The point of the curve with the constant `b` that has the given coordinates. -/
def place [DecidableEq α] (least : F → α) (b : F) (read : α → Result F) (scale : α → ExchangeError)
    (outside : α → α → ExchangeError) (x y z : α) : Result (Point F) := do
  if z = least 0 then
    return .infinity
  if z ≠ least 1 then
    throw (refusal (scale z))
  let p : Point F := .affine (← read x) (← read y)
  if p.isOn b then return p else throw (refusal (outside x y))

/-- Reads a point of the curve with the constant `b`. -/
def toPoint [DecidableEq α] (item : Value → Except Fault α) (least : F → α) (b : F)
    (read : α → Result F) (otherwise : ExchangeError) (scale : α → ExchangeError)
    (outside : α → α → ExchangeError) (data : Value) : Result (Point F) := do
  let parts ← readThree item otherwise data
  place least b read scale outside parts.1 parts.2.1 parts.2.2

/-- A point as JSON, of which `write` writes the coordinates. -/
def ofPoint (write : F → Value) : Point F → Value
  | .infinity => .list [write 0, write 1, write 0]
  | .affine x y => .list [write x, write y, write 1]

variable {item : Value → Except Fault α} {least : F → α} {b : F} {data : Value} {p : Point F}

theorem StandsFor.isOn (h : StandsFor item least b data p) : p.isOn b = true := by
  cases h with
  | infinity => rfl
  | affine _ _ _ _ on => exact on

theorem three_eq_ok_iff {items : List Value} {x y z : α} :
    three item items = .ok (x, y, z) ↔
      ∃ u v w, items = [u, v, w] ∧ item u = .ok x ∧ item v = .ok y ∧ item w = .ok z := by
  constructor
  · intro h
    obtain ⟨read, each, rest⟩ := Except.bind_eq_ok_iff.1 h
    obtain rfl : read = [x, y, z] := by
      split at rest
      · cases rest
        rfl
      · cases rest
    have values := Except.mapM_eq_ok_iff.1 each
    -- A fourth item would have been read as well.
    have count : items.length = 3 := by
      have length := values.length_eq
      simp only [List.length_take, List.length_cons, List.length_nil] at length
      omega
    obtain ⟨u, v, w, rfl⟩ := List.length_eq_three.1 count
    cases values with
    | cons first others =>
      cases others with
      | cons second others =>
        cases others with
        | cons third _ => exact ⟨u, v, w, rfl, first, second, third⟩
  · rintro ⟨u, v, w, rfl, first, second, third⟩
    have each : [u, v, w].mapM item = .ok [x, y, z] :=
      Except.mapM_eq_ok_iff.2 (.cons first (.cons second (.cons third .nil)))
    exact Except.bind_eq_ok_iff.2 ⟨[x, y, z], each, rfl⟩

theorem readThree_eq_ok_iff {otherwise : ExchangeError} {x y z : α} :
    readThree item otherwise data = .ok (x, y, z) ↔
      ∃ u v w, data.items? = some [u, v, w] ∧ item u = .ok x ∧ item v = .ok y ∧
        item w = .ok z := by
  rw [readThree]
  cases data.items? with
  | none => simp
  | some items =>
    simp only [Option.some.injEq, ← three_eq_ok_iff]
    cases three item items <;> simp

/-- A point is read from a value exactly if the value stands for it. -/
theorem toPoint_eq_ok_iff [DecidableEq α] {read : α → Result F} {otherwise : ExchangeError}
    {scale : α → ExchangeError} {outside : α → α → ExchangeError}
    (reads : ∀ v x, read v = .ok x ↔ v = least x) (distinct : least 1 ≠ least 0) :
    toPoint item least b read otherwise scale outside data = .ok p ↔
      StandsFor item least b data p := by
  constructor
  · intro h
    obtain ⟨⟨x, y, z⟩, found, rest⟩ := Except.bind_eq_ok_iff.1 h
    obtain ⟨u, v, w, parts, first, second, third⟩ := readThree_eq_ok_iff.1 found
    dsimp only at rest
    rw [place] at rest
    by_cases zero : z = least 0
    · rw [if_pos zero] at rest
      cases rest
      exact .infinity parts first second (third.trans (congrArg Except.ok zero))
    · rw [if_neg zero] at rest
      simp only [Except.throw_eq_error, Except.error_bind, Except.ite_error_eq_ok_iff,
        Except.bind_eq_ok_iff, Except.pure_eq_ok, reads] at rest
      obtain ⟨one, x, rfl, y, rfl, last⟩ := rest
      split_ifs at last with on
      cases last
      exact .affine parts first second (third.trans (congrArg Except.ok (not_not.1 one))) on
  · intro h
    cases h with
    | infinity parts first second third =>
      refine Except.bind_eq_ok_iff.2
        ⟨_, readThree_eq_ok_iff.2 ⟨_, _, _, parts, first, second, third⟩, ?_⟩
      exact if_pos rfl
    | affine parts first second third on =>
      refine Except.bind_eq_ok_iff.2
        ⟨_, readThree_eq_ok_iff.2 ⟨_, _, _, parts, first, second, third⟩, ?_⟩
      dsimp only
      rw [place, if_neg distinct, if_neg (not_not.2 rfl), (reads _ _).2 rfl, (reads _ _).2 rfl]
      exact if_pos on

theorem standsFor_ofPoint {write : F → Value} (reads : ∀ x, item (write x) = .ok (least x))
    (on : p.isOn b = true) : StandsFor item least b (ofPoint write p) p := by
  cases p with
  | infinity => exact .infinity rfl (reads 0) (reads 1) (reads 0)
  | affine x y => exact .affine rfl (reads x) (reads y) (reads 1) on

end Standing

theorem readPair_eq_ok_iff {v : Value} {x y : Int} :
    readPair v = .ok (x, y) ↔
      ∃ a b, v.items? = some [a, b] ∧ a.toInt = .ok x ∧ b.toInt = .ok y := by
  rw [readPair]
  cases v.items? with
  | none => simp
  | some items =>
    match items with
    | [a, b] => simp [Except.bind_eq_ok_iff]
    | [] | [_] | _ :: _ :: _ :: _ => simp

/-- An integer that is short enough to be written is read back. -/
theorem toInt_number {n : Int} (h : Text.Numeral.isWritable n = true) :
    (number n).toInt = .ok n := by
  change Value.readInteger .decimal (Text.chars (Text.ofChars (toString n).toList)) = .ok n
  rw [Text.chars_ofChars, Value.readInteger, Text.Numeral.read_toString h]

/-- An integer can be a coordinate, or a component of one. -/
def InField (n : Int) : Prop := 0 ≤ n ∧ n < baseOrder

theorem InField.isWritable {n : Int} (h : InField n) : Text.Numeral.isWritable n = true := by
  have short : baseOrder ≤ Text.Numeral.bound := by decide +kernel
  obtain ⟨nonneg, below⟩ := h
  have small : n.natAbs < baseOrder := by omega
  exact decide_eq_true (Nat.lt_of_lt_of_le small short)

theorem inField_val (x : Fq) : InField x.val := ⟨Int.natCast_nonneg _, Int.ofNat_lt.2 x.isLt⟩

theorem toInt_coordinate (x : Fq) : (coordinate x).toInt = .ok (x.val : Int) :=
  toInt_number (inField_val x).isWritable

theorem readPair_components (x : Fq2) :
    readPair (components x) = .ok ((x.re.val : Int), (x.im.val : Int)) :=
  readPair_eq_ok_iff.2 ⟨_, _, rfl, toInt_coordinate x.re, toInt_coordinate x.im⟩

theorem readCoordinate_eq_ok_iff {v : Int} {x : Fq} : readCoordinate v = .ok x ↔ v = x.val :=
  Result.least_eq_ok_iff

/-- Reads an element of the field of the twist by its components. -/
def readComponents (v : Int × Int) : Result Fq2 := do
  return ⟨← readCoordinate v.1, ← readCoordinate v.2⟩

theorem readComponents_eq_ok_iff {v : Int × Int} {x : Fq2} :
    readComponents v = .ok x ↔ v = ((x.re.val : Int), (x.im.val : Int)) := by
  obtain ⟨re, im⟩ := v
  obtain ⟨a, b⟩ := x
  simp only [readComponents, Except.bind_eq_ok_iff, readCoordinate_eq_ok_iff, Prod.mk.injEq]
  constructor
  · rintro ⟨x, rfl, y, rfl, ⟨⟩⟩
    exact ⟨rfl, rfl⟩
  · rintro ⟨rfl, rfl⟩
    exact ⟨a, rfl, b, rfl, rfl⟩

/-- A value stands for a point of the curve: its parts are integers, the third one is zero, or it is
one and the other two are the coordinates, from zero to below the order of the field. -/
def StandsForG1 : Value → G1 → Prop :=
  StandsFor Value.toInt (fun x : Fq => (x.val : Int)) Bn254.curveConstant

/-- A value stands for a point of the twist: its parts are pairs of integers, the third one is
`(0, 0)`, or it is `(1, 0)` and the other two are the coordinates by their components. -/
def StandsForG2 : Value → G2 → Prop :=
  StandsFor readPair (fun x : Fq2 => ((x.re.val : Int), (x.im.val : Int))) Bn254.twistConstant

theorem toG1_eq_toPoint (data : Value) : toG1 data = toPoint Value.toInt
    (fun x : Fq => (x.val : Int)) Bn254.curveConstant readCoordinate (.curvePoint data) .curveScale
    .outsideCurve data := rfl

theorem toG2_eq_toPoint (data : Value) : toG2 data = toPoint readPair
    (fun x : Fq2 => ((x.re.val : Int), (x.im.val : Int))) Bn254.twistConstant readComponents
    (.twistPoint data) (fun z => .twistScale z.1 z.2) (fun x _ => .outsideTwist x.1 x.2) data := by
  simp only [toPoint, place, readComponents, bind_assoc, pure_bind]
  rfl

theorem toG1_eq_ok_iff {data : Value} {p : G1} : toG1 data = .ok p ↔ StandsForG1 data p := by
  rw [toG1_eq_toPoint]
  exact toPoint_eq_ok_iff (fun _ _ => readCoordinate_eq_ok_iff) (by decide)

theorem toG2_eq_ok_iff {data : Value} {p : G2} : toG2 data = .ok p ↔ StandsForG2 data p := by
  rw [toG2_eq_toPoint]
  exact toPoint_eq_ok_iff (fun _ _ => readComponents_eq_ok_iff) (by decide)

theorem standsForG1_ofG1 {p : G1} (h : Bn254.isOnCurve p = true) : StandsForG1 (ofG1 p) p := by
  have written : ofG1 p = ofPoint coordinate p := by cases p <;> rfl
  rw [written]
  exact standsFor_ofPoint toInt_coordinate h

theorem standsForG2_ofG2 {p : G2} (h : Bn254.isOnTwist p = true) : StandsForG2 (ofG2 p) p := by
  have written : ofG2 p = ofPoint components p := by cases p <;> rfl
  rw [written]
  exact standsFor_ofPoint readPair_components h

end Snark.Exchange
