import Snark.Exchange.Point
import Snark.Key.Basic

/-!
# Proofs and keys in JSON

The documents in which provers and verifiers exchange proofs, public values and verifying keys.
Each is an object that names the proof system and the curve beside its points.
-/

namespace Snark.Exchange

open Json (Value)

/-- The name of the proof system. -/
def protocol : String := "groth16"

/-- The name of the curve. -/
def curve : String := "bn128"

/-- A scalar as JSON. -/
def ofScalar (x : Fr) : Value := number x.val

/-- Reads a scalar; the integer is reduced. -/
def toScalar (v : Value) : Result Fr := do
  return .ofInt (← Result.ofFault v.toInt)

/-- Public values as JSON. -/
def ofPublic (xs : List Int) : Value := .list (xs.map number)

/-- Reads public values. -/
def toPublic (data : Value) : Result (List Fr) :=
  match data.items? with
  | some items => items.mapM toScalar
  | none => .error (.fault .wrongShape)

/-- A proof as JSON. -/
def ofProof (p : Proof G1 G2) : Value :=
  .object [
    ("pi_a", ofG1 p.a),
    ("pi_b", ofG2 p.b),
    ("pi_c", ofG1 p.c),
    ("protocol", .text protocol),
    ("curve", .text curve)]

/-- The member of an object that has to be there; `missing` says so if it is not. -/
def require (missing : String → ExchangeError) (data : Value) (name : String) : Result Value :=
  match data with
  | .object members =>
    match members.lookup (name : Text) with
    | some v => .ok v
    | none => .error (.exchange (missing name))
  | _ => .error (.fault .wrongShape)

/-- Reads a proof. -/
def toProof (data : Value) : Result (Proof G1 G2) := do
  let a ← toG1 (← require .proofMember data "pi_a")
  let b ← toG2 (← require .proofMember data "pi_b")
  let c ← toG1 (← require .proofMember data "pi_c")
  return ⟨a, b, c⟩

/-- A verifying key as JSON. -/
def ofKey (vk : VerifyingKey G1 G2) : Value :=
  .object [
    ("protocol", .text protocol),
    ("curve", .text curve),
    ("nPublic", .int vk.publicSignals),
    ("vk_alpha_1", ofG1 vk.alpha),
    ("vk_beta_2", ofG2 vk.beta),
    ("vk_gamma_2", ofG2 vk.gamma),
    ("vk_delta_2", ofG2 vk.delta),
    ("IC", .list (vk.inputs.map ofG1))]

/-- Refuses a key that names another proof system; one that names none passes. -/
def checkProtocol (data : Value) : Result Unit :=
  match data with
  | .object members =>
    match members.lookup ("protocol" : Text) with
    | none => .ok ()
    | some (.text s) =>
      if s = protocol then .ok () else .error (refusal (.protocol (.text s)))
    | some v => .error (refusal (.protocol v))
  | _ => .error (.fault .noMembers)

/-- Refuses a key whose count of public values, if it gives one, is not that of its points. -/
def checkCount (data : Value) (vk : VerifyingKey G1 G2) : Result Unit :=
  match data.member? "nPublic" with
  | none => .ok ()
  | some declared => do
    let n ← Result.ofFault declared.toInt
    if n ≠ vk.publicSignals then
      throw (refusal (.inputPoints declared vk.inputs.length))

/-- Reads a verifying key. -/
def toKey (data : Value) : Result (VerifyingKey G1 G2) := do
  checkProtocol data
  let alpha ← toG1 (← require .keyMember data "vk_alpha_1")
  let beta ← toG2 (← require .keyMember data "vk_beta_2")
  let gamma ← toG2 (← require .keyMember data "vk_gamma_2")
  let delta ← toG2 (← require .keyMember data "vk_delta_2")
  let points ← require .keyMember data "IC"
  match points.items? with
  | none => throw (.fault .wrongShape)
  | some items =>
    let vk : VerifyingKey G1 G2 := ⟨alpha, beta, gamma, delta, ← items.mapM toG1⟩
    checkCount data vk
    return vk

end Snark.Exchange
