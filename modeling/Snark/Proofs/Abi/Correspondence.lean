import Snark.Proofs.Abi.Layout
import Snark.Proofs.Bn254.Coordinates
import Snark.Proofs.Key.Basic

/-!
# Contract values and what they stand for

A contract value stands for a point, a proof or a key if each pair of coordinates in it is zero or
lies on its curve. These values correspond one to one to what they stand for, as the zeros lie on
neither curve. Any other value is refused when it is asked for its points.
-/

namespace Snark.Abi

section Correspondence

variable {α β : Type}

/-- Things of which some are `good`, and values of which some are `valid`, are turned into
each other. The good things and the valid values correspond one to one, and the other values
are refused. -/
structure Corresponds (good : α → Prop) (encode : α → Result β) (valid : β → Prop)
    (decode : β → Result α) : Prop where
  decode_encode : ∀ x, good x → ∃ v, encode x = .ok v ∧ decode v = .ok x
  encode_decode : ∀ v, valid v → ∃ x, good x ∧ decode v = .ok x ∧ encode x = .ok v
  refuses_iff : ∀ v, (decode v).FailsAs .encoding ↔ ¬ valid v

/-- A decoder that finds exactly the good thing that a value is the encoding of. -/
theorem Corresponds.of_reads {good : α → Prop} {encode : α → Result β} {valid : β → Prop}
    {decode : β → Result α} (total : ∀ x, good x → ∃ v, encode x = .ok v)
    (reads : ∀ v x, decode v = .ok x ↔ good x ∧ encode x = .ok v)
    (accepts : ∀ v, (∃ x, decode v = .ok x) ↔ valid v)
    (refuses : ∀ v, (decode v).FailsIn (Failure.ReportedAs .encoding)) :
    Corresponds good encode valid decode where
  decode_encode x hx := by
    obtain ⟨v, encoded⟩ := total x hx
    exact ⟨v, encoded, (reads v x).2 ⟨hx, encoded⟩⟩
  encode_decode v hv := by
    obtain ⟨x, read⟩ := (accepts v).2 hv
    obtain ⟨hx, encoded⟩ := (reads v x).1 read
    exact ⟨x, hx, read, encoded⟩
  refuses_iff v := by
    rw [← accepts]
    constructor
    · rintro ⟨e, failed, -⟩ ⟨x, read⟩
      cases failed.symm.trans read
    · intro unread
      cases outcome : decode v with
      | ok x => exact absurd ⟨x, outcome⟩ unread
      | error e => exact ⟨e, rfl, refuses v e outcome⟩

end Correspondence

namespace CurvePoint

/-- The coordinates are zero or those of a point of the curve. -/
def Valid (v : CurvePoint) : Prop := v = ⟨0, 0⟩ ∨ Bn254.isOnCurve (.affine v.x v.y) = true

instance : DecidablePred Valid := fun _ => inferInstanceAs (Decidable (_ ∨ _))

theorem knownBy_ofPoint : Point.KnownBy Bn254.isOnCurve ofPoint :=
  .of_pair rfl Bn254.isOnCurve_zero rfl (fun _ _ => rfl) fun _ _ _ _ => CurvePoint.mk.inj

variable {v : CurvePoint}

theorem toPoint_eq_ok_iff {p : G1} :
    v.toPoint = .ok p ↔ Bn254.isOnCurve p = true ∧ ofPoint p = v := by
  refine knownBy_ofPoint.read_eq_ok_iff ?_
  simp [ofPoint]

theorem exists_toPoint_iff : (∃ p, v.toPoint = .ok p) ↔ v.Valid := by
  simp only [toPoint_eq_ok_iff]
  exact knownBy_ofPoint.exists_on_iff

theorem toPoint_failsIn (v : CurvePoint) : v.toPoint.FailsIn (Failure.ReportedAs .encoding) :=
  .ite (fun _ => .ok _) fun _ => .ite (fun _ => .ok _) fun _ => .error (Failure.reportedAs_abi _)

theorem corresponds : Corresponds (Bn254.isOnCurve · = true) (fun p => .ok (ofPoint p)) Valid
    toPoint := by
  refine .of_reads (fun _ _ => ⟨_, rfl⟩) (fun v p => ?_) (fun _ => exists_toPoint_iff)
    toPoint_failsIn
  rw [toPoint_eq_ok_iff, Except.ok.injEq]

end CurvePoint

namespace TwistPoint

/-- The coordinates are zero or those of a point of the twist. -/
def Valid (v : TwistPoint) : Prop := v = ⟨0, 0⟩ ∨ Bn254.isOnTwist (.affine v.x v.y) = true

instance : DecidablePred Valid := fun _ => inferInstanceAs (Decidable (_ ∨ _))

theorem knownBy_ofPoint : Point.KnownBy Bn254.isOnTwist ofPoint :=
  .of_pair rfl Bn254.isOnTwist_zero rfl (fun _ _ => rfl) fun _ _ _ _ => TwistPoint.mk.inj

variable {v : TwistPoint}

theorem toPoint_eq_ok_iff {p : G2} :
    v.toPoint = .ok p ↔ Bn254.isOnTwist p = true ∧ ofPoint p = v := by
  refine knownBy_ofPoint.read_eq_ok_iff ?_
  simp [ofPoint]

theorem exists_toPoint_iff : (∃ p, v.toPoint = .ok p) ↔ v.Valid := by
  simp only [toPoint_eq_ok_iff]
  exact knownBy_ofPoint.exists_on_iff

theorem toPoint_failsIn (v : TwistPoint) : v.toPoint.FailsIn (Failure.ReportedAs .encoding) :=
  .ite (fun _ => .ok _) fun _ => .ite (fun _ => .ok _) fun _ => .error (Failure.reportedAs_abi _)

theorem corresponds : Corresponds (Bn254.isOnTwist · = true) (fun p => .ok (ofPoint p)) Valid
    toPoint := by
  refine .of_reads (fun _ _ => ⟨_, rfl⟩) (fun v p => ?_) (fun _ => exists_toPoint_iff)
    toPoint_failsIn
  rw [toPoint_eq_ok_iff, Except.ok.injEq]

end TwistPoint

namespace Proof

/-- Each pair of coordinates is zero or lies on its curve. -/
def Valid (v : Proof) : Prop := v.a.Valid ∧ v.b.Valid ∧ v.c.Valid

instance : DecidablePred Valid := fun _ => inferInstanceAs (Decidable (_ ∧ _))

variable {v : Proof}

theorem toProof_eq_ok_iff {p : Snark.Proof G1 G2} :
    v.toProof = .ok p ↔ p.OnCurves ∧ ofProof p = v := by
  rw [toProof]
  simp only [Except.bind_eq_ok_iff, Except.pure_eq_ok, CurvePoint.toPoint_eq_ok_iff,
    TwistPoint.toPoint_eq_ok_iff]
  constructor
  · rintro ⟨a, ⟨on_a, ha⟩, b, ⟨on_b, hb⟩, c, ⟨on_c, hc⟩, ⟨⟩⟩
    exact ⟨⟨on_a, on_b, on_c⟩, by rw [ofProof, ha, hb, hc]⟩
  · rintro ⟨⟨on_a, on_b, on_c⟩, rfl⟩
    exact ⟨p.a, ⟨on_a, rfl⟩, p.b, ⟨on_b, rfl⟩, p.c, ⟨on_c, rfl⟩, rfl⟩

theorem exists_toProof_iff : (∃ p, v.toProof = .ok p) ↔ v.Valid := by
  rw [Valid, ← CurvePoint.exists_toPoint_iff, ← TwistPoint.exists_toPoint_iff,
    ← CurvePoint.exists_toPoint_iff, toProof]
  simp only [Except.bind_eq_ok_iff, Except.pure_eq_ok]
  constructor
  · rintro ⟨_, a, ha, b, hb, c, hc, -⟩
    exact ⟨⟨a, ha⟩, ⟨b, hb⟩, ⟨c, hc⟩⟩
  · rintro ⟨⟨a, ha⟩, ⟨b, hb⟩, ⟨c, hc⟩⟩
    exact ⟨_, a, ha, b, hb, c, hc, rfl⟩

theorem toProof_failsIn (v : Proof) : v.toProof.FailsIn (Failure.ReportedAs .encoding) :=
  .bind (CurvePoint.toPoint_failsIn _) fun _ _ => .bind (TwistPoint.toPoint_failsIn _) fun _ _ =>
    .bind (CurvePoint.toPoint_failsIn _) fun _ _ => .ok _

theorem corresponds : Corresponds Snark.Proof.OnCurves (fun p => .ok (ofProof p)) Valid
    toProof := by
  refine .of_reads (fun _ _ => ⟨_, rfl⟩) (fun v p => ?_) (fun _ => exists_toProof_iff)
    toProof_failsIn
  rw [toProof_eq_ok_iff, Except.ok.injEq]

end Proof

namespace VerifyingKey

/-- Each pair of coordinates is zero or lies on its curve. -/
structure Valid (v : VerifyingKey) : Prop where
  alpha : v.alpha.Valid
  beta : v.beta.Valid
  gamma : v.gamma.Valid
  delta : v.delta.Valid
  inputs : ∀ p ∈ v.inputs, p.Valid

variable {v : VerifyingKey}

theorem mapM_toPoint_eq_ok_iff {vs : List CurvePoint} {ps : List G1} :
    vs.mapM CurvePoint.toPoint = .ok ps ↔
      (∀ p ∈ ps, Bn254.isOnCurve p = true) ∧ ps.map CurvePoint.ofPoint = vs := by
  simp only [Except.mapM_eq_ok_iff, CurvePoint.toPoint_eq_ok_iff]
  rw [← List.forall₂_eq_eq_eq, List.forall₂_map_left_iff, ← List.forall₂_and_left]
  exact ⟨List.Forall₂.flip, List.Forall₂.flip⟩

theorem ofKey_eq_ok_iff {vk : Snark.VerifyingKey G1 G2} : ofKey vk = .ok v ↔
    CurvePoint.ofPoint vk.alpha = v.alpha ∧ TwistPoint.ofPoint vk.beta = v.beta ∧
      TwistPoint.ofPoint vk.gamma = v.gamma ∧ TwistPoint.ofPoint vk.delta = v.delta ∧
        vk.inputs.map CurvePoint.ofPoint = v.inputs :=
  make_eq_ok_iff

theorem toKey_eq_ok_iff {vk : Snark.VerifyingKey G1 G2} :
    v.toKey = .ok vk ↔ vk.OnCurves ∧ ofKey vk = .ok v := by
  rw [toKey, ofKey_eq_ok_iff]
  simp only [Except.bind_eq_ok_iff, Except.pure_eq_ok, CurvePoint.toPoint_eq_ok_iff,
    TwistPoint.toPoint_eq_ok_iff, mapM_toPoint_eq_ok_iff]
  constructor
  · rintro ⟨_, ⟨alpha, ha⟩, _, ⟨beta, hb⟩, _, ⟨gamma, hc⟩, _, ⟨delta, hd⟩, _, ⟨inputs, hi⟩, ⟨⟩⟩
    exact ⟨⟨alpha, beta, gamma, delta, inputs⟩, ha, hb, hc, hd, hi⟩
  · rintro ⟨⟨alpha, beta, gamma, delta, inputs⟩, ha, hb, hc, hd, hi⟩
    exact ⟨_, ⟨alpha, ha⟩, _, ⟨beta, hb⟩, _, ⟨gamma, hc⟩, _, ⟨delta, hd⟩, _, ⟨inputs, hi⟩, rfl⟩

theorem exists_toKey_iff : (∃ vk, v.toKey = .ok vk) ↔ v.Valid := by
  have inputs : (∃ ps, v.inputs.mapM CurvePoint.toPoint = .ok ps) ↔ ∀ p ∈ v.inputs, p.Valid := by
    simp only [Except.exists_mapM_eq_ok_iff, CurvePoint.exists_toPoint_iff]
  rw [toKey]
  simp only [Except.bind_eq_ok_iff, Except.pure_eq_ok]
  constructor
  · rintro ⟨_, _, ha, _, hb, _, hc, _, hd, _, hi, -⟩
    exact ⟨CurvePoint.exists_toPoint_iff.1 ⟨_, ha⟩, TwistPoint.exists_toPoint_iff.1 ⟨_, hb⟩,
      TwistPoint.exists_toPoint_iff.1 ⟨_, hc⟩, TwistPoint.exists_toPoint_iff.1 ⟨_, hd⟩,
      inputs.1 ⟨_, hi⟩⟩
  · intro valid
    obtain ⟨_, ha⟩ := CurvePoint.exists_toPoint_iff.2 valid.alpha
    obtain ⟨_, hb⟩ := TwistPoint.exists_toPoint_iff.2 valid.beta
    obtain ⟨_, hc⟩ := TwistPoint.exists_toPoint_iff.2 valid.gamma
    obtain ⟨_, hd⟩ := TwistPoint.exists_toPoint_iff.2 valid.delta
    obtain ⟨_, hi⟩ := inputs.2 valid.inputs
    exact ⟨_, _, ha, _, hb, _, hc, _, hd, _, hi, rfl⟩

theorem toKey_failsIn (v : VerifyingKey) : v.toKey.FailsIn (Failure.ReportedAs .encoding) := by
  refine .bind (CurvePoint.toPoint_failsIn _) fun alpha _ => ?_
  refine .bind (TwistPoint.toPoint_failsIn _) fun beta _ => ?_
  refine .bind (TwistPoint.toPoint_failsIn _) fun gamma _ => ?_
  refine .bind (TwistPoint.toPoint_failsIn _) fun delta _ => ?_
  exact .bind (.mapM fun p _ => p.toPoint_failsIn) fun inputs _ => .ok _

/-- A key with a point for the inputs has a contract value. -/
theorem exists_ofKey {vk : Snark.VerifyingKey G1 G2} (nonempty : vk.inputs ≠ []) :
    ∃ v, ofKey vk = .ok v :=
  ⟨_, dif_neg (mt List.map_eq_nil_iff.1 nonempty)⟩

theorem corresponds :
    Corresponds (fun vk => vk.inputs ≠ [] ∧ Snark.VerifyingKey.OnCurves vk) ofKey Valid toKey := by
  refine .of_reads (fun _ good => exists_ofKey good.1) (fun v vk => ?_)
    (fun _ => exists_toKey_iff) toKey_failsIn
  rw [toKey_eq_ok_iff]
  constructor
  · rintro ⟨on, made⟩
    have same := (ofKey_eq_ok_iff.1 made).2.2.2.2
    refine ⟨⟨fun none => v.inputs_ne_nil ?_, on⟩, made⟩
    rw [← same, none, List.map_nil]
  · rintro ⟨⟨-, on⟩, made⟩
    exact ⟨on, made⟩

end VerifyingKey

/-- Points of the curve and of the twist, proofs and keys with at least one point for the
inputs correspond one to one to the contract values in which each pair of coordinates is zero
or lies on its curve, and every other value is refused. Infinity is the only point whose
coordinates are zeros. -/
theorem values_correspond :
    Corresponds (fun p => Bn254.isOnCurve p = true) (fun p => .ok (CurvePoint.ofPoint p))
      CurvePoint.Valid CurvePoint.toPoint ∧
    Corresponds (fun p => Bn254.isOnTwist p = true) (fun p => .ok (TwistPoint.ofPoint p))
      TwistPoint.Valid TwistPoint.toPoint ∧
    Corresponds Snark.Proof.OnCurves (fun p => .ok (Proof.ofProof p)) Proof.Valid Proof.toProof ∧
    Corresponds (fun vk => vk.inputs ≠ [] ∧ Snark.VerifyingKey.OnCurves vk) VerifyingKey.ofKey
      VerifyingKey.Valid VerifyingKey.toKey ∧
    (∀ p : G1, Bn254.isOnCurve p = true ∧ CurvePoint.ofPoint p = ⟨0, 0⟩ ↔ p = .infinity) ∧
    ∀ p : G2, Bn254.isOnTwist p = true ∧ TwistPoint.ofPoint p = ⟨0, 0⟩ ↔ p = .infinity := by
  refine ⟨CurvePoint.corresponds, TwistPoint.corresponds, Proof.corresponds,
    VerifyingKey.corresponds, fun p => ?_, fun p => ?_⟩
  · exact CurvePoint.knownBy_ofPoint.on_and_eq_infinity_iff
  · exact TwistPoint.knownBy_ofPoint.on_and_eq_infinity_iff

/-- A proof and a key with generators and infinity among their points come back, and coordinates
that are off the curve are refused. -/
theorem values_correspond_generators :
    (∃ v, VerifyingKey.ofKey ⟨.infinity, Bn254.generator₂, .infinity, Bn254.generator₂,
        [.infinity, Bn254.generator₁]⟩ = .ok v ∧
      v.toKey = .ok ⟨.infinity, Bn254.generator₂, .infinity, Bn254.generator₂,
        [.infinity, Bn254.generator₁]⟩) ∧
    (Proof.ofProof ⟨Bn254.generator₁, .infinity, Bn254.generator₁⟩).toProof =
      .ok ⟨Bn254.generator₁, .infinity, Bn254.generator₁⟩ ∧
    (Proof.toProof ⟨⟨0, 1⟩, ⟨0, 0⟩, ⟨0, 0⟩⟩).FailsAs .encoding := by
  obtain ⟨-, -, proofs, keys, -⟩ := values_correspond
  have on₁ : Bn254.isOnCurve Bn254.generator₁ = true := by decide
  have on₂ : Bn254.isOnTwist Bn254.generator₂ = true := by decide +kernel
  refine ⟨keys.decode_encode _ ⟨by simp, rfl, on₂, rfl, on₂, ?_⟩, ?_, ?_⟩
  · exact List.forall_mem_cons.2 ⟨rfl, List.forall_mem_singleton.2 on₁⟩
  · obtain ⟨_, ⟨⟩, back⟩ := proofs.decode_encode
      ⟨Bn254.generator₁, .infinity, Bn254.generator₁⟩ ⟨on₁, rfl, on₁⟩
    exact back
  · exact (proofs.refuses_iff ⟨⟨0, 1⟩, ⟨0, 0⟩, ⟨0, 0⟩⟩).2 (by decide)

end Snark.Abi
