import Snark.Exchange.Document
import Snark.Proofs.Exchange.Point
import Snark.Proofs.Key.Basic

/-!
# Proofs and verifying keys in JSON

A document is read exactly if it has a member for every point that it is read for, and every member
stands for its point. It may say more, in another order and in other spellings than the document
that is written; what is read is written as a document that is read as the same.
-/

namespace Snark

namespace Exchange

open Json (Value)

section Member

variable {data v : Value} {name : String}

/-- A value is an object that has a member of the given name, and the member is as it should be. -/
def HasMember (data : Value) (name : String) (holds : Value → Prop) : Prop :=
  ∃ v, data.member? name = some v ∧ holds v

theorem require_eq_ok_iff {missing : String → ExchangeError} :
    require missing data name = .ok v ↔ data.member? name = some v := by
  cases data with
  | object members =>
    rw [require, Value.member?]
    cases members.lookup (name : Text) <;> simp
  | _ => simp [require, Value.member?]

end Member

section Proof

variable {data : Value} {p : Proof G1 G2}

/-- A document stands for a proof. -/
structure StandsForProof (data : Value) (p : Proof G1 G2) : Prop where
  a : HasMember data "pi_a" (StandsForG1 · p.a)
  b : HasMember data "pi_b" (StandsForG2 · p.b)
  c : HasMember data "pi_c" (StandsForG1 · p.c)

theorem StandsForProof.onCurves (h : StandsForProof data p) : p.OnCurves := by
  obtain ⟨⟨_, -, a⟩, ⟨_, -, b⟩, ⟨_, -, c⟩⟩ := h
  exact ⟨a.isOn, b.isOn, c.isOn⟩

theorem toProof_eq_ok_iff : toProof data = .ok p ↔ StandsForProof data p := by
  rw [toProof]
  simp only [Except.bind_eq_ok_iff, Except.pure_eq_ok, require_eq_ok_iff, toG1_eq_ok_iff,
    toG2_eq_ok_iff]
  constructor
  · rintro ⟨u, hu, a, first, v, hv, b, second, w, hw, c, third, ⟨⟩⟩
    exact ⟨⟨u, hu, first⟩, ⟨v, hv, second⟩, ⟨w, hw, third⟩⟩
  · rintro ⟨⟨u, hu, first⟩, ⟨v, hv, second⟩, ⟨w, hw, third⟩⟩
    exact ⟨u, hu, _, first, v, hv, _, second, w, hw, _, third, rfl⟩

theorem standsForProof_ofProof (h : p.OnCurves) : StandsForProof (ofProof p) p where
  a := ⟨_, rfl, standsForG1_ofG1 h.1⟩
  b := ⟨_, rfl, standsForG2_ofG2 h.2.1⟩
  c := ⟨_, rfl, standsForG1_ofG1 h.2.2⟩

end Proof

section Key

variable {data : Value} {vk : VerifyingKey G1 G2}

/-- A document stands for a verifying key. It need not name the proof system or count the public
values, but if it does so it has to be right. -/
structure StandsForKey (data : Value) (vk : VerifyingKey G1 G2) : Prop where
  protocol_eq : ∀ v, data.member? "protocol" = some v → v = .text protocol
  alpha : HasMember data "vk_alpha_1" (StandsForG1 · vk.alpha)
  beta : HasMember data "vk_beta_2" (StandsForG2 · vk.beta)
  gamma : HasMember data "vk_gamma_2" (StandsForG2 · vk.gamma)
  delta : HasMember data "vk_delta_2" (StandsForG2 · vk.delta)
  inputs : HasMember data "IC" fun v =>
    ∃ items, v.items? = some items ∧ List.Forall₂ StandsForG1 items vk.inputs
  count : ∀ v, data.member? "nPublic" = some v → v.toInt = .ok vk.publicSignals

theorem isOnCurve_of_standsForG1 {items : List Value} {points : List G1}
    (h : List.Forall₂ StandsForG1 items points) : ∀ p ∈ points, Bn254.isOnCurve p = true := by
  induction h with
  | nil => exact List.forall_mem_nil _
  | cons stands _ ih => exact List.forall_mem_cons.2 ⟨stands.isOn, ih⟩

theorem StandsForKey.onCurves (h : StandsForKey data vk) : vk.OnCurves where
  alpha := let ⟨_, _, stands⟩ := h.alpha; stands.isOn
  beta := let ⟨_, _, stands⟩ := h.beta; stands.isOn
  gamma := let ⟨_, _, stands⟩ := h.gamma; stands.isOn
  delta := let ⟨_, _, stands⟩ := h.delta; stands.isOn
  inputs := by
    obtain ⟨_, -, _, -, stand⟩ := h.inputs
    exact isOnCurve_of_standsForG1 stand

theorem checkProtocol_object_eq_ok_iff {members : List (Text × Value)} :
    checkProtocol (.object members) = .ok () ↔
      ∀ v, (Value.object members).member? "protocol" = some v → v = .text protocol := by
  rw [checkProtocol, Value.member?]
  cases members.lookup (("protocol" : String) : Text) with
  | none => simp
  | some found =>
    cases found with
    | text s =>
      by_cases same : s = protocol <;> simp [same]
    | _ => simp

theorem checkProtocol_eq_ok_iff {name : String} {v : Value} (h : data.member? name = some v) :
    checkProtocol data = .ok () ↔
      ∀ v, data.member? "protocol" = some v → v = .text protocol := by
  cases data with
  | object members => exact checkProtocol_object_eq_ok_iff
  | _ => cases h

theorem checkCount_eq_ok_iff :
    checkCount data vk = .ok () ↔
      ∀ v, data.member? "nPublic" = some v → v.toInt = .ok vk.publicSignals := by
  rw [checkCount]
  cases data.member? "nPublic" with
  | none => simp
  | some declared =>
    simp only [Except.throw_eq_error, Except.ite_error_eq_ok_iff, Except.bind_eq_ok_iff,
      Result.ofFault_eq_ok_iff]
    constructor
    · rintro ⟨n, read, same, -⟩ v ⟨⟩
      exact read.trans (congrArg Except.ok (not_not.1 same))
    · intro right
      exact ⟨_, right declared rfl, not_not.2 rfl, rfl⟩

theorem mapM_toG1_eq_ok_iff {items : List Value} {points : List G1} :
    items.mapM toG1 = .ok points ↔ List.Forall₂ StandsForG1 items points := by
  simp only [Except.mapM_eq_ok_iff, toG1_eq_ok_iff]

theorem toKey_eq_ok_iff : toKey data = .ok vk ↔ StandsForKey data vk := by
  rw [toKey]
  simp only [Except.bind_eq_ok_iff, Except.pure_eq_ok, require_eq_ok_iff, toG1_eq_ok_iff,
    toG2_eq_ok_iff]
  constructor
  · rintro ⟨_, named, u₁, h₁, alpha, first, u₂, h₂, beta, second, u₃, h₃, gamma, third, u₄, h₄,
      delta, fourth, v, hv, rest⟩
    cases parts : v.items? with
    | none =>
      rw [parts] at rest
      cases rest
    | some items =>
      rw [parts] at rest
      obtain ⟨points, each, rest⟩ := Except.bind_eq_ok_iff.1 rest
      obtain ⟨_, counted, last⟩ := Except.bind_eq_ok_iff.1 rest
      cases last
      exact ⟨(checkProtocol_eq_ok_iff h₁).1 named, ⟨u₁, h₁, first⟩, ⟨u₂, h₂, second⟩,
        ⟨u₃, h₃, third⟩, ⟨u₄, h₄, fourth⟩, ⟨v, hv, items, parts, mapM_toG1_eq_ok_iff.1 each⟩,
        checkCount_eq_ok_iff.1 counted⟩
  · rintro ⟨named, ⟨u₁, h₁, first⟩, ⟨u₂, h₂, second⟩, ⟨u₃, h₃, third⟩, ⟨u₄, h₄, fourth⟩,
      ⟨v, hv, items, parts, each⟩, counted⟩
    refine ⟨(), (checkProtocol_eq_ok_iff h₁).2 named, u₁, h₁, _, first, u₂, h₂, _, second, u₃, h₃,
      _, third, u₄, h₄, _, fourth, v, hv, ?_⟩
    rw [parts]
    dsimp only
    rw [mapM_toG1_eq_ok_iff.2 each, Except.ok_bind, checkCount_eq_ok_iff.2 counted]
    rfl

theorem standsForKey_ofKey (h : vk.OnCurves) : StandsForKey (ofKey vk) vk where
  protocol_eq := by
    rintro v ⟨⟩
    rfl
  alpha := ⟨_, rfl, standsForG1_ofG1 h.alpha⟩
  beta := ⟨_, rfl, standsForG2_ofG2 h.beta⟩
  gamma := ⟨_, rfl, standsForG2_ofG2 h.gamma⟩
  delta := ⟨_, rfl, standsForG2_ofG2 h.delta⟩
  inputs := by
    refine ⟨_, rfl, _, rfl, List.forall₂_map_left_iff.2 (List.forall₂_same.2 fun p member => ?_)⟩
    exact standsForG1_ofG1 (h.inputs p member)
  count := by
    rintro v ⟨⟩
    rfl

end Key

/-- Proofs and verifying keys go through JSON without loss. What is written is read back. What is
read is on its curves, was given by its coordinates, and goes through JSON without loss in turn. -/
theorem exchange_lossless :
    (∀ p : Proof G1 G2, p.OnCurves → toProof (ofProof p) = .ok p) ∧
    (∀ vk : VerifyingKey G1 G2, vk.OnCurves → toKey (ofKey vk) = .ok vk) ∧
    (∀ data p, toProof data = .ok p →
      p.OnCurves ∧ StandsForProof data p ∧ toProof (ofProof p) = .ok p) ∧
    ∀ data vk, toKey data = .ok vk →
      vk.OnCurves ∧ StandsForKey data vk ∧ toKey (ofKey vk) = .ok vk := by
  have proof_back (p : Proof G1 G2) (on : p.OnCurves) : toProof (ofProof p) = .ok p :=
    toProof_eq_ok_iff.2 (standsForProof_ofProof on)
  have key_back (vk : VerifyingKey G1 G2) (on : vk.OnCurves) : toKey (ofKey vk) = .ok vk :=
    toKey_eq_ok_iff.2 (standsForKey_ofKey on)
  refine ⟨proof_back, key_back, ?_, ?_⟩
  · intro data p read
    have stands := toProof_eq_ok_iff.1 read
    exact ⟨stands.onCurves, stands, proof_back p stands.onCurves⟩
  · intro data vk read
    have stands := toKey_eq_ok_iff.1 read
    exact ⟨stands.onCurves, stands, key_back vk stands.onCurves⟩

/-- A proof of the generator and twice infinity: its points are a text, a list and the names of the
members of an object. -/
def unusualProof : Value :=
  .object [
    ("pi_c", .object [("5", .null), (" 6", .null), ("0_0", .null)]),
    ("pi_b", .list [.text "12", .list [.bool true, .int 7], .text "00"]),
    ("pi_a", .text "121")]

/-- A key for no public values, of which the count is written with a sign. -/
def unusualKey : Value :=
  .object [
    ("IC", .list [.list [.int 1, .text "+2", .bool true]]),
    ("vk_alpha_1", .text "560"),
    ("vk_beta_2", .list [.text "12", .text "34", .text "00"]),
    ("vk_gamma_2", .list [.text "12", .text "34", .text "00"]),
    ("vk_delta_2", .list [.text "12", .text "34", .text "00"]),
    ("nPublic", .text " -0 ")]

/-- Proofs and keys are read back, one without any input point among them, and the unusual documents
stand for what they are read as. -/
theorem exchange_lossless_unusual :
    toProof (ofProof ⟨Bn254.generator₁, Bn254.generator₂, .infinity⟩) =
      .ok ⟨Bn254.generator₁, Bn254.generator₂, .infinity⟩ ∧
    toKey (ofKey ⟨Bn254.generator₁, Bn254.generator₂, .infinity, .infinity, []⟩) =
      .ok ⟨Bn254.generator₁, Bn254.generator₂, .infinity, .infinity, []⟩ ∧
    StandsForProof unusualProof ⟨Bn254.generator₁, .infinity, .infinity⟩ ∧
    StandsForKey unusualKey ⟨.infinity, .infinity, .infinity, .infinity, [Bn254.generator₁]⟩ := by
  have on₂ : Bn254.isOnTwist Bn254.generator₂ = true := by decide +kernel
  obtain ⟨proof_back, key_back, proof_read, key_read⟩ := exchange_lossless
  refine ⟨proof_back _ ⟨by decide, on₂, rfl⟩,
    key_back _ ⟨by decide, on₂, rfl, rfl, List.forall_mem_nil _⟩, ?_, ?_⟩
  · exact (proof_read unusualProof ⟨Bn254.generator₁, .infinity, .infinity⟩ rfl).2.1
  · exact (key_read unusualKey
      ⟨.infinity, .infinity, .infinity, .infinity, [Bn254.generator₁]⟩ rfl).2.1

end Exchange

end Snark
