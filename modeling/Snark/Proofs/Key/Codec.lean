import Snark.Key.PointCodec
import Snark.Proofs.Bn254.Coordinates
import Snark.Proofs.Container.Codec
import Snark.Proofs.Field.Prime
import Snark.Proofs.Montgomery

/-!
# Stored points and coefficients

A point is stored by its coordinates, with zeros for the point at infinity. The zeros are on neither
curve, so bytes are read as a point exactly if the point is at infinity or on its curve and has the
stored coordinates. Of the bytes that are read as a point, those that hold least representatives are
the ones that it is written in.
-/

namespace Snark.KeyFile

open Montgomery

/-- The radix of coordinates. -/
noncomputable def coordinateRadix : Fqˣ :=
  (isUnit_radix (by rw [Nat.odd_iff]; rfl : Odd baseOrder) 32).unit

/-- The radix of scalars. -/
noncomputable def scalarRadix : Frˣ :=
  (isUnit_radix (by rw [Nat.odd_iff]; rfl : Odd scalarOrder) 32).unit

theorem baseOrder_lt_capacity : baseOrder < Bytes.capacity 32 := by decide

theorem scalarOrder_lt_capacity : scalarOrder < Bytes.capacity 32 := by decide

/-- The bytes of a coordinate. -/
noncomputable def storedCoordinate (x : Fq) : Bytes := stored coordinateRadix 32 1 x

@[simp] theorem length_storedCoordinate (x : Fq) : (storedCoordinate x).length = 32 :=
  length_stored ..

/-- The coordinate that some bytes hold. -/
noncomputable def coordinate (bs : Bytes) : Fq := unstored coordinateRadix 1 bs

/-- A stored coordinate is a least representative. -/
def LeastCoordinate (bs : Bytes) : Prop := bs.toNat < baseOrder

@[simp] theorem bn254_q : CurveParams.bn254.q = (baseOrder : Int) := rfl

@[simp] theorem bn254_r : CurveParams.bn254.r = (scalarOrder : Int) := rfl

@[simp] theorem bn254_baseWidth : CurveParams.bn254.baseWidth = 32 := rfl

@[simp] theorem bn254_scalarWidth : CurveParams.bn254.scalarWidth = 32 := rfl

theorem width?_eq : Bytes.width? 32 = .ok 32 := rfl

theorem room?_eq : Bytes.room? 32 = .ok 32 := rfl

theorem ofInt?_eq {width n : Nat} (h : n < Bytes.capacity width) :
    Bytes.ofInt? width n = .ok (Bytes.ofNat width n) := by
  rw [Bytes.ofInt?, Int.toNat_natCast, decide_eq_false (Int.natCast_nonneg n).not_gt,
    decide_eq_false h.not_ge]
  rfl

theorem readCoordinate_eq (bs : Bytes) :
    readCoordinate .bn254 bs = .ok ((coordinate bs).val : Int) := by
  have radix : ((Montgomery.radix 32 : Nat) : Fq) = coordinateRadix := (IsUnit.unit_spec _).symm
  rw [readCoordinate, bn254_q, bn254_baseWidth, width?_eq, Except.ok_bind, decode_eq radix,
    Int.cast_natCast, Result.ofFault_ok, coordinate, unstored]

theorem coordinateBytes_eq (x : Fq) : coordinateBytes .bn254 x = .ok (storedCoordinate x) := by
  have radix : ((Montgomery.radix 32 : Nat) : Fq) = coordinateRadix := (IsUnit.unit_spec _).symm
  rw [coordinateBytes, bn254_q, bn254_baseWidth, width?_eq, Except.ok_bind, encode_eq radix,
    Int.cast_natCast, Residue.cast_val, Except.ok_bind, room?_eq, Except.ok_bind,
    ofInt?_eq ((Residue.isLt _).trans baseOrder_lt_capacity), storedCoordinate, stored]

theorem decodeScalar_eq (bs : Bytes) :
    decodeScalar .bn254 bs = .ok (unstored scalarRadix 2 bs) := by
  have radix : ((Montgomery.radix 32 : Nat) : Fr) = scalarRadix := (IsUnit.unit_spec _).symm
  rw [decodeScalar, bn254_r, bn254_scalarWidth, width?_eq, Except.ok_bind, decode_eq radix,
    Except.ok_bind, Except.pure_eq_ok, Result.ofFault_ok, Residue.ofInt_eq_cast, Int.cast_natCast,
    Int.cast_natCast, Residue.cast_val, unstored]

theorem encodeScalar_eq (x : Fr) :
    encodeScalar .bn254 x.val = .ok (stored scalarRadix 32 2 x) := by
  have radix : ((Montgomery.radix 32 : Nat) : Fr) = scalarRadix := (IsUnit.unit_spec _).symm
  rw [encodeScalar, bn254_r, bn254_scalarWidth, width?_eq, Except.ok_bind, encode_eq radix,
    Int.cast_natCast, Residue.cast_val, Except.ok_bind, room?_eq, Except.ok_bind,
    ofInt?_eq ((Residue.isLt _).trans scalarOrder_lt_capacity), stored]

section Points

/-- The coordinates of a point of the curve; those of the point at infinity are zero. -/
def coordinates₁ : G1 → List Fq
  | .infinity => [0, 0]
  | .affine x y => [x, y]

/-- The coordinates of a point of the twist; those of the point at infinity are zero. -/
def coordinates₂ : G2 → List Fq
  | .infinity => [0, 0, 0, 0]
  | .affine x y => [x.re, x.im, y.re, y.im]

/-- The first coordinates that some bytes hold. -/
noncomputable def coordinatesAt (n : Nat) (bs : Bytes) : List Fq :=
  (List.range n).map fun i => coordinate (coordinateAt .bn254 i bs)

theorem val_eq_zero_iff (x : Fq) : (x.val : Int) = 0 ↔ x = 0 := by
  rw [Int.natCast_eq_zero]
  exact ⟨fun h => Residue.ext h, fun h => congrArg Residue.val h⟩

theorem ofInt_val (x : Fq) : Residue.ofInt (x.val : Int) = x := by
  rw [Residue.ofInt_eq_cast, Int.cast_natCast, Residue.cast_val]

theorem knownBy_coordinates₁ : Point.KnownBy Bn254.isOnCurve coordinates₁ :=
  .of_pair rfl Bn254.isOnCurve_zero rfl (fun _ _ => rfl) fun _ _ _ _ same => by
    simpa [coordinates₁] using same

theorem knownBy_coordinates₂ : Point.KnownBy Bn254.isOnTwist coordinates₂ :=
  .of_pair rfl Bn254.isOnTwist_zero rfl (fun _ _ => rfl) fun ⟨_, _⟩ ⟨_, _⟩ ⟨_, _⟩ ⟨_, _⟩ same => by
    simpa [coordinates₂, and_assoc] using same

theorem decodeG1_eq_ok_iff {bs : Bytes} {p : G1} :
    decodeG1 .bn254 bs = .ok p ↔
      Bn254.isOnCurve p = true ∧ coordinates₁ p = coordinatesAt 2 bs := by
  rw [decodeG1, readCoordinate_eq, Except.ok_bind, readCoordinate_eq, Except.ok_bind, ofInt_val,
    ofInt_val]
  refine knownBy_coordinates₁.read_eq_ok_iff ?_
  rw [Bool.and_eq_true, decide_eq_true_iff, decide_eq_true_iff, val_eq_zero_iff, val_eq_zero_iff]
  simp [coordinates₁]

theorem decodeG2_eq_ok_iff {bs : Bytes} {p : G2} :
    decodeG2 .bn254 bs = .ok p ↔
      Bn254.isOnTwist p = true ∧ coordinates₂ p = coordinatesAt 4 bs := by
  rw [decodeG2, readCoordinate_eq, Except.ok_bind, readCoordinate_eq, Except.ok_bind,
    readCoordinate_eq, Except.ok_bind, readCoordinate_eq, Except.ok_bind, ofInt_val, ofInt_val,
    ofInt_val, ofInt_val]
  refine knownBy_coordinates₂.read_eq_ok_iff ?_
  simp only [Bool.and_eq_true, decide_eq_true_iff, val_eq_zero_iff]
  simp [coordinates₂, and_assoc]

/-- The bytes of some coordinates. -/
noncomputable def coordinatesBytes (cs : List Fq) : Bytes := cs.flatMap storedCoordinate

theorem storedCoordinate_zero : storedCoordinate 0 = List.replicate 32 0 := by
  have value : (storedCoordinate 0).toNat = 0 := by
    rw [storedCoordinate, toNat_stored _ baseOrder_lt_capacity.le, zero_mul, Residue.val_zero]
  rw [Bytes.eq_replicate_of_toNat_eq_zero value, length_storedCoordinate]

theorem infinityBytes_eq {n : Nat} (room : Bytes.room? (n * 32) = .ok (n * 32)) :
    infinityBytes .bn254 n = .ok (coordinatesBytes (List.replicate n 0)) := by
  rw [infinityBytes, bn254_baseWidth, room, Except.ok_bind, Except.pure_eq_ok, coordinatesBytes,
    List.flatMap_replicate, storedCoordinate_zero, List.flatten_replicate_replicate]

theorem encodeG1_eq (p : G1) : encodeG1 .bn254 p = .ok (coordinatesBytes (coordinates₁ p)) := by
  cases p with
  | infinity => exact infinityBytes_eq rfl
  | affine x y =>
    rw [encodeG1, coordinateBytes_eq, coordinateBytes_eq]
    simp [coordinatesBytes, coordinates₁]

theorem encodeG2_eq (p : G2) : encodeG2 .bn254 p = .ok (coordinatesBytes (coordinates₂ p)) := by
  cases p with
  | infinity => exact infinityBytes_eq rfl
  | affine x y =>
    rw [encodeG2, coordinateBytes_eq, coordinateBytes_eq, coordinateBytes_eq, coordinateBytes_eq]
    simp [coordinatesBytes, coordinates₂]

end Points

section Blocks

variable {b bs : Bytes}

theorem coordinateAt_zero (hb : b.length = 32) : coordinateAt .bn254 0 (b ++ bs) = b := by
  change ((b ++ bs).drop (0 * 32)).take 32 = b
  rw [Nat.zero_mul, List.drop_zero, List.take_left' hb]

theorem coordinateAt_succ (hb : b.length = 32) (i : Nat) :
    coordinateAt .bn254 (i + 1) (b ++ bs) = coordinateAt .bn254 i bs := by
  change ((b ++ bs).drop ((i + 1) * 32)).take 32 = (bs.drop (i * 32)).take 32
  rw [Nat.succ_mul, Nat.add_comm, ← List.drop_drop, List.drop_left' hb]

theorem coordinatesAt_succ (hb : b.length = 32) (n : Nat) :
    coordinatesAt (n + 1) (b ++ bs) = coordinate b :: coordinatesAt n bs := by
  rw [coordinatesAt, List.range_succ_eq_map, List.map_cons, List.map_map, coordinateAt_zero hb]
  simp only [Function.comp_def, Nat.succ_eq_add_one, coordinateAt_succ hb]
  rfl

theorem coordinatesAt_bytes (cs : List Fq) :
    coordinatesAt cs.length (coordinatesBytes cs) = cs := by
  induction cs with
  | nil => rfl
  | cons c cs ih =>
    rw [coordinatesBytes, List.flatMap_cons, List.length_cons,
      coordinatesAt_succ (length_storedCoordinate c), ← coordinatesBytes, ih, storedCoordinate,
      coordinate, unstored_stored _ baseOrder_lt_capacity.le]

theorem length_coordinatesBytes (cs : List Fq) :
    (coordinatesBytes cs).length = 32 * cs.length := by
  induction cs with
  | nil => rfl
  | cons c cs ih =>
    rw [coordinatesBytes, List.flatMap_cons, List.length_append, ← coordinatesBytes, ih,
      length_storedCoordinate, List.length_cons, Nat.mul_succ, Nat.add_comm]

/-- The bytes of coordinates hold least representatives, and are the only ones that do. -/
theorem eachBlock_coordinatesBytes (cs : List Fq) :
    Bytes.EachBlock 32 LeastCoordinate (coordinatesBytes cs) := by
  rw [coordinatesBytes, List.flatMap_def, Bytes.eachBlock_flatten (by decide) (k := 1)]
  · intro block hblock
    obtain ⟨c, -, rfl⟩ := List.mem_map.1 hblock
    rw [Bytes.eachBlock_of_length (by decide) (length_storedCoordinate c)]
    exact toNat_stored_lt _ baseOrder_lt_capacity.le c
  · intro block hblock
    obtain ⟨c, -, rfl⟩ := List.mem_map.1 hblock
    exact length_storedCoordinate c

theorem coordinatesBytes_at {n : Nat} (length : bs.length = 32 * n)
    (least : Bytes.EachBlock 32 LeastCoordinate bs) :
    coordinatesBytes (coordinatesAt n bs) = bs := by
  induction n generalizing bs with
  | zero => exact (List.eq_nil_of_length_eq_zero length).symm
  | succ n ih =>
    have first : (bs.take 32).length = 32 := List.length_take_of_le (by omega)
    obtain ⟨b, tail, hb, rfl⟩ : ∃ b tail, b.length = 32 ∧ bs = b ++ tail :=
      ⟨bs.take 32, bs.drop 32, first, (List.take_append_drop 32 bs).symm⟩
    obtain ⟨least_b, least_tail⟩ := (Bytes.eachBlock_append (k := 1) hb).1 least
    rw [Bytes.eachBlock_of_length (by decide) hb] at least_b
    rw [coordinatesAt_succ hb, coordinatesBytes, List.flatMap_cons, ← coordinatesBytes,
      ih (by rw [List.length_append] at length; omega) least_tail, storedCoordinate, coordinate,
      stored_unstored _ hb least_b]

/-- Points are written in the bytes of their coordinates. -/
theorem encodes_point {F : Type} {coordinates : Point F → List Fq} {on : Point F → Bool} {n : Nat}
    {decode : Bytes → Result (Point F)} (count : ∀ p, (coordinates p).length = n)
    (h : ∀ {bs p}, decode bs = .ok p ↔ on p = true ∧ coordinates p = coordinatesAt n bs) :
    Encodes (fun bs p => bs.length = 32 * n ∧ decode bs = .ok p)
      (fun p => coordinatesBytes (coordinates p)) (fun p => on p = true) (32 * n) 32
      LeastCoordinate where
  block_pos := by decide
  width_eq := ⟨n, rfl⟩
  length_eq hx := hx.1
  valid_of hx := (h.1 hx.2).1
  stands_bytes {p} hp := by
    refine ⟨by rw [length_coordinatesBytes, count], h.2 ⟨hp, ?_⟩⟩
    rw [← count p, coordinatesAt_bytes]
  canonical_bytes _ := eachBlock_coordinatesBytes _
  bytes_eq hx least := by
    rw [(h.1 hx.2).2, coordinatesBytes_at hx.1 least]

/-- Some bytes stand for a point of the curve. -/
def StandsG1 (bs : Bytes) (p : G1) : Prop := bs.length = 64 ∧ decodeG1 .bn254 bs = .ok p

/-- Some bytes stand for a point of the twist. -/
def StandsG2 (bs : Bytes) (p : G2) : Prop := bs.length = 128 ∧ decodeG2 .bn254 bs = .ok p

/-- The bytes of a point of the curve. -/
noncomputable def g1Bytes (p : G1) : Bytes := coordinatesBytes (coordinates₁ p)

/-- The bytes of a point of the twist. -/
noncomputable def g2Bytes (p : G2) : Bytes := coordinatesBytes (coordinates₂ p)

theorem encodes_G1 :
    Encodes StandsG1 g1Bytes (fun p => Bn254.isOnCurve p = true) 64 32 LeastCoordinate :=
  encodes_point (fun p => by cases p <;> rfl) decodeG1_eq_ok_iff

theorem encodes_G2 :
    Encodes StandsG2 g2Bytes (fun p => Bn254.isOnTwist p = true) 128 32 LeastCoordinate :=
  encodes_point (fun p => by cases p <;> rfl) decodeG2_eq_ok_iff

end Blocks

end Snark.KeyFile
