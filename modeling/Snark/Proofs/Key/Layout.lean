import Snark.Proofs.Container.Framing
import Snark.Proofs.Key.Header

/-!
# What a key file holds

A key is made of the values in nine sections. A file is read exactly if its first section of each id
holds such values: the checks of the layout, which come before any point is read, leave no bytes
unread in the sections of points and of entries.
-/

namespace Snark.KeyFile

open Reading (Means StandMany)

/-- The values in the sections of a key file. -/
structure Parts where
  counts : Counts
  single : SinglePoints
  inputs : List G1
  a : List G1
  b₁ : List G1
  b₂ : List G2
  l : List G1
  h : List G1
  coefficients : List Coefficient

/-- The key that is made of the values. -/
def Parts.key (k : Parts) : ProvingKey G1 G2 where
  verifying := ⟨k.single.alpha, k.single.beta₂, k.single.gamma, k.single.delta₂, k.inputs⟩
  beta := k.single.beta₁
  delta := k.single.delta₁
  a := k.a
  b₁ := k.b₁
  b₂ := k.b₂
  l := k.l
  h := k.h
  coefficients := k.coefficients
  wires := k.counts.wires
  publicSignals := k.counts.publicSignals
  domain := k.counts.domain
  q := CurveParams.bn254.q
  r := CurveParams.bn254.r
  baseWidth := CurveParams.bn254.baseWidth
  scalarWidth := CurveParams.bn254.scalarWidth

/-- The first section with an id holds a number of values and nothing else. -/
def HoldsMany {α : Type} (file : Container) (id : Int) (stands : Bytes → α → Prop) (n : Nat)
    (xs : List α) : Prop :=
  ∃ bs, file.Holds id bs ∧ StandMany stands n bs xs

/-- The first section with an id holds entries with their number in front, and nothing else. -/
def HoldsEntries (file : Container) (n : Counts) (es : List Coefficient) : Prop :=
  ∃ bs, file.Holds 4 (Bytes.ofNat 4 es.length ++ bs) ∧ es.length < Bytes.capacity 4 ∧
    StandMany (StandsEntry n) es.length bs es

/-- The first sections of a file hold the values of a key. -/
structure Describes (file : Container) (k : Parts) : Prop where
  prover : ∃ rest, file.Holds 1 (Bytes.ofNat 4 groth16 ++ rest)
  header : ∃ points, file.Holds 2 (fieldsBytes k.counts ++ points) ∧ StandsSingle points k.single
  counts : k.counts.Valid
  inputs : HoldsMany file 3 StandsG1 (k.counts.publicSignals + 1) k.inputs
  a : HoldsMany file 5 StandsG1 k.counts.wires k.a
  b₁ : HoldsMany file 6 StandsG1 k.counts.wires k.b₁
  b₂ : HoldsMany file 7 StandsG2 k.counts.wires k.b₂
  l : HoldsMany file 8 StandsG1 (k.counts.wires - k.counts.publicSignals - 1) k.l
  h : HoldsMany file 9 StandsG1 k.counts.domain k.h
  coefficients : HoldsEntries file k.counts k.coefficients

section Checks

variable {file : Container} {tail : Bytes} {id count width : Nat}

theorem checkPoints_eq_ok_iff (consists : file.Consists tail) (pos : 0 < width) :
    checkPoints file id count width = .ok () ↔
      ∃ bs, file.Holds id bs ∧ bs.length = count * width := by
  rw [checkPoints, Except.bind_eq_ok_iff]
  simp only [Except.throw_eq_error, Except.error_bind, Except.pure_eq_ok,
    Except.ite_error_eq_ok_iff, ne_eq, not_not, and_true]
  constructor
  · rintro ⟨s, found, -, whole, rfl⟩
    have holds := consists.holds_of_find found
    refine ⟨file.payload s, holds, ?_⟩
    rw [Nat.div_mul_cancel (Nat.dvd_of_mod_eq_zero whole), holds.size_eq found]
  · rintro ⟨bs, holds, length⟩
    have ⟨s, found, _⟩ := holds
    refine ⟨s, found, pos.ne', ?_⟩
    rw [holds.size_eq found, length]
    exact ⟨Nat.mul_mod_left count width, Nat.mul_div_cancel count pos⟩

theorem checkCoefficients_eq_ok_iff (consists : file.Consists tail) :
    checkCoefficients file .bn254 = .ok () ↔
      ∃ bs, file.Holds 4 bs ∧ 4 ≤ bs.length ∧ bs.length = 4 + Bytes.toNat (bs.take 4) * 44 := by
  rw [checkCoefficients, Except.bind_eq_ok_iff]
  simp only [Except.throw_eq_error, Except.error_bind, Except.pure_eq_ok,
    Except.ite_error_eq_ok_iff, ne_eq, not_not, and_true, not_lt]
  constructor
  · rintro ⟨s, found, long, fits⟩
    have holds := consists.holds_of_find found
    rw [holds.size_eq found] at long fits
    exact ⟨file.payload s, holds, long, fits⟩
  · rintro ⟨_, holds, long, length⟩
    have ⟨s, found, same, _⟩ := holds
    refine ⟨s, found, ?_⟩
    rw [holds.size_eq found, same]
    exact ⟨long, length⟩

/-- A section of the checked length is read to its end. -/
theorem readMany_iff (consists : file.Consists tail) {α : Type} {item : Reading α}
    {stands : Bytes → α → Prop} {bytes : α → Bytes} {valid : α → Prop} {block : Nat}
    {canonical : Bytes → Prop} (means : item.Means stands)
    (encodes : Encodes stands bytes valid width block canonical) (pos : 0 < width) {xs : List α} :
    (checkPoints file id count width = .ok () ∧
      file.readSection id (Reading.many item count) = .ok xs) ↔
        HoldsMany file id stands count xs := by
  rw [checkPoints_eq_ok_iff consists pos, consists.readSection_eq_ok_iff (means.many count)]
  constructor
  · rintro ⟨⟨_, whole, length⟩, bs, rest, holds, stands⟩
    obtain rfl := whole.unique holds
    rw [List.length_append, (encodes.many count).length_eq stands] at length
    obtain rfl := List.eq_nil_of_length_eq_zero (show rest.length = 0 by omega)
    rw [List.append_nil] at holds
    exact ⟨bs, holds, stands⟩
  · rintro ⟨bs, holds, stands⟩
    refine ⟨⟨bs, holds, (encodes.many count).length_eq stands⟩, bs, [], ?_, stands⟩
    rwa [List.append_nil]

theorem readManyG1_iff (consists : file.Consists tail) {xs : List G1} :
    (checkPoints file id count 64 = .ok () ∧
      file.readSection id (Reading.many (readG1 .bn254) count) = .ok xs) ↔
        HoldsMany file id StandsG1 count xs :=
  readMany_iff consists means_readG1 encodes_G1 (by decide)

theorem readManyG2_iff (consists : file.Consists tail) {xs : List G2} :
    (checkPoints file id count 128 = .ok () ∧
      file.readSection id (Reading.many (readG2 .bn254) count) = .ok xs) ↔
        HoldsMany file id StandsG2 count xs :=
  readMany_iff consists means_readG2 encodes_G2 (by decide)

theorem readCoefficients_iff (consists : file.Consists tail) {n : Counts} (valid : n.Valid)
    {es : List Coefficient} :
    (checkCoefficients file .bn254 = .ok () ∧
      file.readSection 4 (readCoefficients .bn254 n) = .ok es) ↔ HoldsEntries file n es := by
  have encodes := valid.encodes_entries es.length
  rw [checkCoefficients_eq_ok_iff consists,
    consists.readSection_eq_ok_iff (means_readCoefficients n)]
  constructor
  · rintro ⟨⟨_, whole, -, length⟩, _, rest, holds, bs, rfl, fits, stands⟩
    obtain rfl := whole.unique holds
    rw [List.append_assoc, List.take_left' (Bytes.length_ofNat 4 es.length),
      Bytes.toNat_ofNat_of_lt fits, List.length_append, List.length_append, Bytes.length_ofNat,
      encodes.length_eq stands] at length
    obtain rfl := List.eq_nil_of_length_eq_zero (show rest.length = 0 by omega)
    rw [List.append_nil] at holds
    exact ⟨bs, holds, fits, stands⟩
  · rintro ⟨bs, holds, fits, stands⟩
    refine ⟨⟨_, holds, ?_, ?_⟩, _, [], ?_, bs, rfl, fits, stands⟩
    · simp
    · rw [List.take_left' (Bytes.length_ofNat 4 es.length), Bytes.toNat_ofNat_of_lt fits,
        List.length_append, Bytes.length_ofNat, encodes.length_eq stands]
    · rwa [List.append_nil]

end Checks

section Parse

variable {data : Bytes} {file : Container} {tail : Bytes}

theorem checkLayout_eq_ok_iff {n : Counts} :
    checkLayout file .bn254 n = .ok () ↔
      checkPoints file 3 (n.publicSignals + 1) 64 = .ok () ∧
      checkPoints file 5 n.wires 64 = .ok () ∧ checkPoints file 6 n.wires 64 = .ok () ∧
      checkPoints file 7 n.wires 128 = .ok () ∧
      checkPoints file 8 (n.wires - n.publicSignals - 1) 64 = .ok () ∧
      checkPoints file 9 n.domain 64 = .ok () ∧ checkCoefficients file .bn254 = .ok () := by
  simp only [checkLayout, Except.bind_eq_ok_iff]
  constructor
  · rintro ⟨⟨⟩, inputs, ⟨⟩, a, ⟨⟩, b₁, ⟨⟩, b₂, ⟨⟩, l, ⟨⟩, h, coefficients⟩
    exact ⟨inputs, a, b₁, b₂, l, h, coefficients⟩
  · rintro ⟨inputs, a, b₁, b₂, l, h, coefficients⟩
    exact ⟨(), inputs, (), a, (), b₁, (), b₂, (), l, (), h, coefficients⟩

/-- The header of a file is read if its points are. -/
theorem readHeader_iff (consists : file.Consists tail) {n : Counts} {s : SinglePoints} :
    (∃ opened points last, file.reader 2 = .ok opened ∧
      (readCounts .bn254).run opened = .ok (n, points) ∧
      (readSinglePoints .bn254).run points = .ok (s, last)) ↔
    n.Valid ∧ ∃ points, file.Holds 2 (fieldsBytes n ++ points) ∧ StandsSingle points s := by
  constructor
  · rintro ⟨opened, points, last, found, counts, read⟩
    obtain ⟨source, payload, -, holds, rfl⟩ := consists.reader_eq_ok_iff.1 found
    obtain ⟨bs, rfl, room, valid, rfl⟩ := run_readCounts.1 counts
    obtain ⟨front, rest, rfl, stands, -⟩ := (means_readSinglePoints _ _ _ _).1 read
    rw [List.length_append, encodes_single.length_eq stands] at room
    obtain rfl := List.eq_nil_of_length_eq_zero (show rest.length = 0 by omega)
    rw [List.append_nil] at holds
    exact ⟨valid, front, holds, stands⟩
  · rintro ⟨valid, points, holds, stands⟩
    have ⟨source, found, _⟩ := holds
    refine ⟨_, .ofPayload source points, .ofPayload source [],
      consists.reader_eq_ok_iff.2 ⟨source, _, found, holds, rfl⟩, ?_, ?_⟩
    · exact run_readCounts.2 ⟨points, rfl, encodes_single.length_eq stands, valid, rfl⟩
    · exact (means_readSinglePoints _ _ _ _).2
        ⟨points, [], (List.append_nil points).symm, stands, rfl⟩

/-- A file is read exactly if its sections hold the values of the key. -/
theorem parse_eq_ok_iff {pk : ProvingKey G1 G2} :
    parse .bn254 data = .ok pk ↔
      ∃ file k, Container.parse magic [formatVersion] data = .ok file ∧ Describes file k ∧
        pk = k.key := by
  simp only [parse, Except.bind_eq_ok_iff, Prod.exists]
  constructor
  · rintro ⟨file, framed, ⟨⟩, prover, opened, found, n, points, counts, ⟨⟩, layout, single, last,
      singlePoints, inputs, readInputs, a, readA, b₁, readB₁, b₂, readB₂, l, readL, h, readH,
      coefficients, readCoefficients, same⟩
    cases same
    obtain ⟨-, -, -, tail, consists⟩ := Container.consists_of_parse framed
    obtain ⟨valid, header⟩ :=
      (readHeader_iff consists).1 ⟨opened, points, last, found, counts, singlePoints⟩
    obtain ⟨_, rest, holds, rfl⟩ := (consists.readSection_eq_ok_iff means_readProver).1 prover
    obtain ⟨inputsRoom, aRoom, b₁Room, b₂Room, lRoom, hRoom, room⟩ := checkLayout_eq_ok_iff.1 layout
    refine ⟨file, ⟨n, single, inputs, a, b₁, b₂, l, h, coefficients⟩, framed, ?_, rfl⟩
    exact {
      prover := ⟨rest, holds⟩
      header := header
      counts := valid
      inputs := (readManyG1_iff consists).1 ⟨inputsRoom, readInputs⟩
      a := (readManyG1_iff consists).1 ⟨aRoom, readA⟩
      b₁ := (readManyG1_iff consists).1 ⟨b₁Room, readB₁⟩
      b₂ := (readManyG2_iff consists).1 ⟨b₂Room, readB₂⟩
      l := (readManyG1_iff consists).1 ⟨lRoom, readL⟩
      h := (readManyG1_iff consists).1 ⟨hRoom, readH⟩
      coefficients := (readCoefficients_iff consists valid).1 ⟨room, readCoefficients⟩ }
  · rintro ⟨file, k, framed, describes, rfl⟩
    obtain ⟨-, -, -, tail, consists⟩ := Container.consists_of_parse framed
    obtain ⟨opened, points, last, found, counts, singlePoints⟩ :=
      (readHeader_iff consists).2 ⟨describes.counts, describes.header⟩
    obtain ⟨rest, holds⟩ := describes.prover
    have prover : file.readSection 1 readProver = .ok () :=
      (consists.readSection_eq_ok_iff means_readProver).2 ⟨_, rest, holds, rfl⟩
    obtain ⟨inputsRoom, readInputs⟩ := (readManyG1_iff consists).2 describes.inputs
    obtain ⟨aRoom, readA⟩ := (readManyG1_iff consists).2 describes.a
    obtain ⟨b₁Room, readB₁⟩ := (readManyG1_iff consists).2 describes.b₁
    obtain ⟨b₂Room, readB₂⟩ := (readManyG2_iff consists).2 describes.b₂
    obtain ⟨lRoom, readL⟩ := (readManyG1_iff consists).2 describes.l
    obtain ⟨hRoom, readH⟩ := (readManyG1_iff consists).2 describes.h
    obtain ⟨room, readCoefficients⟩ :=
      (readCoefficients_iff consists describes.counts).2 describes.coefficients
    exact ⟨file, framed, (), prover, opened, found, k.counts, points, counts, (),
      checkLayout_eq_ok_iff.2 ⟨inputsRoom, aRoom, b₁Room, b₂Room, lRoom, hRoom, room⟩,
      k.single, last, singlePoints, k.inputs, readInputs, k.a, readA, k.b₁, readB₁, k.b₂, readB₂,
      k.l, readL, k.h, readH, k.coefficients, readCoefficients, rfl⟩

end Parse

end Snark.KeyFile
