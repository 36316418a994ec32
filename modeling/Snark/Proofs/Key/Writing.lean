import Snark.Proofs.Key.Layout

/-!
# The file of a key

A key is written whenever its counts and the places of its entries are words and no section is too
long; its file consists of the bytes of its values in nine sections. This is so for every
well-formed key.
-/

namespace Snark.KeyFile

namespace Parts

/-- The values fit the counts, and the points are on their curves. -/
structure Valid (k : Parts) : Prop where
  counts : k.counts.Valid
  single : k.single.Valid
  inputs : k.inputs.length = k.counts.publicSignals + 1 ∧ ∀ p ∈ k.inputs, Bn254.isOnCurve p = true
  a : k.a.length = k.counts.wires ∧ ∀ p ∈ k.a, Bn254.isOnCurve p = true
  b₁ : k.b₁.length = k.counts.wires ∧ ∀ p ∈ k.b₁, Bn254.isOnCurve p = true
  b₂ : k.b₂.length = k.counts.wires ∧ ∀ p ∈ k.b₂, Bn254.isOnTwist p = true
  l : k.l.length = k.counts.wires - k.counts.publicSignals - 1 ∧
    ∀ p ∈ k.l, Bn254.isOnCurve p = true
  h : k.h.length = k.counts.domain ∧ ∀ p ∈ k.h, Bn254.isOnCurve p = true
  coefficients : k.coefficients.length < Bytes.capacity 4 ∧
    ∀ e ∈ k.coefficients, e.Valid k.counts.domain k.counts.wires

variable {k : Parts}

/-- A key made of such values is well-formed. -/
theorem Valid.wellFormed (valid : k.Valid) : k.key.WellFormed where
  on_curve := by
    intro p hp
    simp only [ProvingKey.curvePoints, key, List.mem_append, or_assoc] at hp
    obtain hp | hp | hp | hp | hp | hp := hp
    · exact valid.single.on_curve p hp
    · exact valid.inputs.2 p hp
    · exact valid.a.2 p hp
    · exact valid.b₁.2 p hp
    · exact valid.l.2 p hp
    · exact valid.h.2 p hp
  on_twist := by
    intro p hp
    obtain hp | hp := List.mem_append.1 hp
    · exact valid.single.on_twist p hp
    · exact valid.b₂.2 p hp
  publicSignals_nonneg := Int.natCast_nonneg _
  publicSignals_lt := Int.ofNat_lt.2 valid.counts.publicSignals_lt
  wires_lt := Int.ofNat_lt.2 valid.counts.wires_lt
  domain_eq := by
    obtain ⟨e, he⟩ := valid.counts.domain_eq
    have bounded : 2 ^ e < 2 ^ 32 := he ▸ valid.counts.domain_lt
    refine ⟨e, (Nat.pow_lt_pow_iff_right (by decide)).1 bounded, ?_⟩
    change (k.counts.domain : Int) = 2 ^ e
    rw [he, Nat.cast_pow, Nat.cast_ofNat]
  length_inputs := congrArg Nat.cast valid.inputs.1
  length_a := congrArg Nat.cast valid.a.1
  length_b₁ := congrArg Nat.cast valid.b₁.1
  length_b₂ := congrArg Nat.cast valid.b₂.1
  length_l := by
    have enough := valid.counts.publicSignals_lt
    change (k.l.length : Int) = k.counts.wires - k.counts.publicSignals - 1
    rw [valid.l.1]
    omega
  length_h := congrArg Nat.cast valid.h.1
  length_coefficients := valid.coefficients.1
  coefficients_valid := valid.coefficients.2
  q_eq := rfl
  r_eq := rfl
  baseWidth_eq := rfl
  scalarWidth_eq := rfl

/-- The values that a key is made of. -/
def of (pk : ProvingKey G1 G2) : Parts where
  counts := ⟨pk.wires.toNat, pk.publicSignals.toNat, pk.domain.toNat⟩
  single := ⟨pk.verifying.alpha, pk.beta, pk.verifying.beta, pk.verifying.gamma, pk.delta,
    pk.verifying.delta⟩
  inputs := pk.verifying.inputs
  a := pk.a
  b₁ := pk.b₁
  b₂ := pk.b₂
  l := pk.l
  h := pk.h
  coefficients := pk.coefficients

section WellFormed

variable {pk : ProvingKey G1 G2}

theorem cast_counts_of (h : pk.WellFormed) :
    ((of pk).counts.wires : Int) = pk.wires ∧
      ((of pk).counts.publicSignals : Int) = pk.publicSignals ∧
        ((of pk).counts.domain : Int) = pk.domain := by
  have nonneg := h.publicSignals_nonneg
  obtain ⟨e, -, power⟩ := h.domain_eq
  refine ⟨Int.toNat_of_nonneg (nonneg.trans h.publicSignals_lt.le), Int.toNat_of_nonneg nonneg,
    Int.toNat_of_nonneg ?_⟩
  rw [power]
  exact pow_nonneg (by decide) e

theorem key_of (h : pk.WellFormed) : (of pk).key = pk := by
  obtain ⟨wires, publicSignals, domain⟩ := cast_counts_of h
  rw [key, wires, publicSignals, domain, bn254_q.trans h.q_eq.symm, bn254_r.trans h.r_eq.symm,
    bn254_baseWidth.trans h.baseWidth_eq.symm, bn254_scalarWidth.trans h.scalarWidth_eq.symm]
  rfl

theorem valid_of (h : pk.WellFormed) : (of pk).Valid := by
  obtain ⟨wires, publicSignals, domain⟩ := cast_counts_of h
  have on_curve := h.on_curve
  have on_twist := h.on_twist
  simp only [ProvingKey.curvePoints, List.forall_mem_append] at on_curve
  simp only [ProvingKey.twistPoints, List.forall_mem_append] at on_twist
  obtain ⟨⟨⟨⟨⟨on_single, on_inputs⟩, on_a⟩, on_b₁⟩, on_l⟩, on_h⟩ := on_curve
  have publicSignals_lt : (of pk).counts.publicSignals < (of pk).counts.wires := by
    have := h.publicSignals_lt
    omega
  have wires_lt : (of pk).counts.wires < 2 ^ 32 := by
    have := h.wires_lt
    omega
  have length_inputs : ((of pk).inputs.length : Int) = pk.publicSignals + 1 := h.length_inputs
  have length_l : ((of pk).l.length : Int) = pk.wires - pk.publicSignals - 1 := h.length_l
  obtain ⟨e, he, power⟩ := h.domain_eq
  have domain_eq : (of pk).counts.domain = 2 ^ e := by
    rw [← domain] at power
    exact_mod_cast power
  exact {
    counts := {
      wires_lt
      publicSignals_lt
      domain_lt := domain_eq ▸ Nat.pow_lt_pow_right (by decide) he
      domain_eq := ⟨e, domain_eq⟩ }
    single := ⟨on_single, on_twist.1⟩
    inputs := ⟨by omega, on_inputs⟩
    a := ⟨Int.ofNat_inj.1 (h.length_a.trans wires.symm), on_a⟩
    b₁ := ⟨Int.ofNat_inj.1 (h.length_b₁.trans wires.symm), on_b₁⟩
    b₂ := ⟨Int.ofNat_inj.1 (h.length_b₂.trans wires.symm), on_twist.2⟩
    l := ⟨by omega, on_l⟩
    h := ⟨Int.ofNat_inj.1 (h.length_h.trans domain.symm), on_h⟩
    coefficients := ⟨h.length_coefficients, fun c hc => by
      rw [wires, domain]
      exact h.coefficients_valid c hc⟩ }

end WellFormed

end Parts

section Payloads

variable {k : Parts}

/-- The ids of the sections of a key file. -/
def sectionIds : List Nat := [1, 2, 3, 4, 5, 6, 7, 8, 9]

/-- The bytes of the section with an id. -/
noncomputable def payload (k : Parts) : (id : Nat) → Bytes
  | 1 => Bytes.ofNat 4 groth16
  | 2 => fieldsBytes k.counts ++ singleBytes k.single
  | 3 => k.inputs.flatMap g1Bytes
  | 4 => Bytes.ofNat 4 k.coefficients.length ++ k.coefficients.flatMap entryBytes
  | 5 => k.a.flatMap g1Bytes
  | 6 => k.b₁.flatMap g1Bytes
  | 7 => k.b₂.flatMap g2Bytes
  | 8 => k.l.flatMap g1Bytes
  | 9 => k.h.flatMap g1Bytes
  | _ => []

/-- The sections of the file of a key. -/
noncomputable def payloads (k : Parts) : List (Nat × Bytes) :=
  sectionIds.map fun id => (id, payload k id)

theorem field?_width : Bytes.field? 4 32 = .ok (Bytes.ofNat 4 32) := rfl

/-- The header is written exactly if the counts are words. -/
theorem headerBytes_eq_ok_iff {pk : ProvingKey G1 G2} {bs : Bytes} :
    headerBytes .bn254 pk = .ok bs ↔
      (IsWord pk.wires ∧ IsWord pk.publicSignals ∧ IsWord pk.domain) ∧
        bs = fieldsBytes (Parts.of pk).counts ++ singleBytes (Parts.of pk).single := by
  have q : Bytes.ofInt? CurveParams.bn254.baseWidth.toNat CurveParams.bn254.q =
      .ok (Bytes.ofNat 32 baseOrder) := ofInt?_eq baseOrder_lt_capacity
  have r : Bytes.ofInt? CurveParams.bn254.scalarWidth.toNat CurveParams.bn254.r =
      .ok (Bytes.ofNat 32 scalarOrder) := ofInt?_eq scalarOrder_lt_capacity
  rw [headerBytes, q, r, bn254_baseWidth, bn254_scalarWidth, field?_width]
  simp only [Except.ok_bind, encodeG1_eq, encodeG2_eq, Except.bind_eq_ok_iff,
    Bytes.field?_eq_ok_iff, Except.pure_eq_ok, Except.ok.injEq, Parts.of, fieldsBytes,
    parametersBytes, sizesBytes, singleBytes, g1Bytes, g2Bytes, List.append_assoc]
  constructor
  · rintro ⟨_, ⟨wires, rfl⟩, _, ⟨publicSignals, rfl⟩, _, ⟨domain, rfl⟩, rfl⟩
    exact ⟨⟨wires, publicSignals, domain⟩, rfl⟩
  · rintro ⟨⟨wires, publicSignals, domain⟩, rfl⟩
    exact ⟨_, ⟨wires, rfl⟩, _, ⟨publicSignals, rfl⟩, _, ⟨domain, rfl⟩, rfl⟩

theorem pointsBytes_eq (points : List G1) :
    pointsBytes .bn254 points = .ok (points.flatMap g1Bytes) := by
  have each : points.mapM (encodeG1 .bn254) = .ok (points.map g1Bytes) :=
    Except.mapM_eq_ok fun p _ => encodeG1_eq p
  rw [pointsBytes, each, Except.ok_bind, Except.pure_eq_ok, List.flatMap_def]

/-- No section is too long for the field that holds its length. -/
theorem fits_payloads (valid : k.Valid) : ∀ part ∈ payloads k, Container.Fits part := by
  have room : Bytes.capacity 4 * 128 + 660 < Bytes.capacity 8 := by decide
  have wires_lt := valid.counts.wires_lt
  have publicSignals_lt := valid.counts.publicSignals_lt
  have domain_lt := valid.counts.domain_lt
  have count_lt := valid.coefficients.1
  have length_inputs := (encodes_G1.many _).length_bytes valid.inputs
  have length_entries :=
    (valid.counts.encodes_entries _).length_bytes ⟨rfl, valid.coefficients.2⟩
  have length_a := (encodes_G1.many _).length_bytes valid.a
  have length_b₁ := (encodes_G1.many _).length_bytes valid.b₁
  have length_b₂ := (encodes_G2.many _).length_bytes valid.b₂
  have length_l := (encodes_G1.many _).length_bytes valid.l
  have length_h := (encodes_G1.many _).length_bytes valid.h
  have length_single := encodes_single.length_bytes valid.single
  simp only [payloads, sectionIds, payload, List.map_cons, List.map_nil, List.forall_mem_cons,
    Container.Fits, List.length_append, Bytes.length_ofNat, length_fieldsBytes, length_inputs,
    length_entries, length_a, length_b₁, length_b₂, length_l, length_h, length_single]
  have id_lt : 9 < Bytes.capacity 4 := by decide
  refine ⟨?_, ?_, ?_, ?_, ?_, ?_, ?_, ?_, ?_, by simp⟩ <;> omega

theorem length_payloads (k : Parts) : (payloads k).length < Bytes.capacity 4 := by
  rw [payloads, List.length_map]
  decide

/-- The counts of a key and the places of its entries are words, and the bytes are the framed
sections of the key. -/
structure Written (pk : ProvingKey G1 G2) (bytes : Bytes) : Prop where
  counts : IsWord pk.wires ∧ IsWord pk.publicSignals ∧ IsWord pk.domain
  count_lt : pk.coefficients.length < Bytes.capacity 4
  places : ∀ e ∈ pk.coefficients, HasPlace e
  framed : Container.Framed magic formatVersion (payloads (.of pk)) [] bytes

theorem formatVersion_lt : formatVersion < Bytes.capacity 4 := by decide

/-- A key is written exactly if its counts and the places of its entries are words, and its sections
are not too long. -/
theorem write_eq_ok_iff {pk : ProvingKey G1 G2} {bytes : Bytes} :
    write .bn254 pk = .ok bytes ↔ Written pk bytes := by
  have b₂ : pk.b₂.mapM (encodeG2 .bn254) = .ok (pk.b₂.map g2Bytes) :=
    Except.mapM_eq_ok fun p _ => encodeG2_eq p
  have sections : (payloads (.of pk)).map (fun part => ((part.1 : Int), part.2)) =
      [(1, Bytes.ofNat 4 groth16),
        (2, fieldsBytes (Parts.of pk).counts ++ singleBytes (Parts.of pk).single),
        (3, pk.verifying.inputs.flatMap g1Bytes),
        (4, Bytes.ofNat 4 pk.coefficients.length ++ pk.coefficients.flatMap entryBytes),
        (5, pk.a.flatMap g1Bytes), (6, pk.b₁.flatMap g1Bytes), (7, pk.b₂.flatMap g2Bytes),
        (8, pk.l.flatMap g1Bytes), (9, pk.h.flatMap g1Bytes)] := by
    simp only [payloads, sectionIds, payload, List.map_cons, List.map_nil, Nat.cast_one,
      Nat.cast_ofNat, Parts.of]
  rw [write, pointsBytes_eq, pointsBytes_eq, pointsBytes_eq, b₂, pointsBytes_eq, pointsBytes_eq]
  simp only [Except.bind_eq_ok_iff, headerBytes_eq_ok_iff, Bytes.field?_eq_ok_iff,
    Except.mapM_eq_ok_iff_map fun _ _ => coefficientBytes_eq_ok_iff, Except.ok.injEq]
  constructor
  · rintro ⟨_, ⟨counts, rfl⟩, _, ⟨⟨-, count_lt⟩, rfl⟩, _, ⟨places, rfl⟩, _, rfl, _, rfl, _, rfl,
      _, rfl, _, rfl, _, rfl, written⟩
    rw [← List.flatMap_def, ← List.flatMap_def, Int.toNat_natCast, ← sections] at written
    exact ⟨counts, Int.ofNat_lt.1 count_lt, places,
      (Container.write_eq_ok_iff rfl formatVersion_lt).1 written⟩
  · rintro ⟨counts, count_lt, places, framed⟩
    refine ⟨_, ⟨counts, rfl⟩, _, ⟨isWord_natCast count_lt, rfl⟩, _, ⟨places, rfl⟩, _, rfl, _, rfl,
      _, rfl, _, rfl, _, rfl, _, rfl, ?_⟩
    rw [← List.flatMap_def, ← List.flatMap_def, Int.toNat_natCast, ← sections]
    exact (Container.write_eq_ok_iff rfl formatVersion_lt).2 framed

/-- The bytes of the file of a key. -/
noncomputable def fileBytes (k : Parts) : Bytes :=
  Container.header magic formatVersion (payloads k).length ++ (payloads k).flatMap Container.entry

theorem framed_fileBytes (valid : k.Valid) :
    Container.Framed magic formatVersion (payloads k) [] (fileBytes k) :=
  ⟨(List.append_nil _).symm, length_payloads k, fits_payloads valid⟩

theorem of_key (k : Parts) : Parts.of k.key = k := by
  simp [Parts.of, Parts.key]

/-- The file of a key consists of the bytes of its values. -/
theorem write_eq (valid : k.Valid) : write .bn254 k.key = .ok (fileBytes k) := by
  rw [write_eq_ok_iff]
  refine ⟨⟨isWord_natCast valid.counts.wires_lt, isWord_natCast ?_,
    isWord_natCast valid.counts.domain_lt⟩, valid.coefficients.1, fun e he => ?_, ?_⟩
  · exact valid.counts.publicSignals_lt.trans valid.counts.wires_lt
  · exact hasPlace_of_valid (valid.coefficients.2 e he) valid.counts.domain_lt.le
      valid.counts.wires_lt.le
  · rw [of_key]
    exact framed_fileBytes valid

end Payloads

end Snark.KeyFile
