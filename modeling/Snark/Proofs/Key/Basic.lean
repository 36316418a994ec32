import Mathlib.Tactic.Ring
import Snark.Bn254.Pairing
import Snark.Key.Basic

/-!
# Well-formed keys

The points of a well-formed key are on their curves, its lists have the lengths that its counts ask
for, its entries stand in a row of the domain and belong to a wire, and its parameters are those of
the curve. The counts fit a word of 32 bits each. Of proofs and verifying keys nothing is asked but
that their points are on their curves.
-/

namespace Snark

/-- The points of a proof are on their curves. -/
def Proof.OnCurves (p : Proof G1 G2) : Prop :=
  Bn254.isOnCurve p.a = true ∧ Bn254.isOnTwist p.b = true ∧ Bn254.isOnCurve p.c = true

/-- The points of a verifying key are on their curves. -/
structure VerifyingKey.OnCurves (vk : VerifyingKey G1 G2) : Prop where
  alpha : Bn254.isOnCurve vk.alpha = true
  beta : Bn254.isOnTwist vk.beta = true
  gamma : Bn254.isOnTwist vk.gamma = true
  delta : Bn254.isOnTwist vk.delta = true
  inputs : ∀ p ∈ vk.inputs, Bn254.isOnCurve p = true

namespace Coefficient

/-- The entry stands in one of the given rows and belongs to one of the given wires. -/
def InRange (rows wires : Int) (e : Coefficient) : Prop :=
  (0 ≤ e.row ∧ e.row < rows) ∧ 0 ≤ e.signal ∧ e.signal < wires

instance (rows wires : Int) (e : Coefficient) : Decidable (e.InRange rows wires) :=
  inferInstanceAs (Decidable (_ ∧ _))

theorem InRange.mono {rows rows' wires : Int} {e : Coefficient} (h : e.InRange rows wires)
    (hle : rows ≤ rows') : e.InRange rows' wires :=
  ⟨⟨h.1.1, Int.lt_of_lt_of_le h.1.2 hle⟩, h.2⟩

/-- The entry belongs to the first or the second matrix, and is in range. -/
def Valid (rows wires : Int) (e : Coefficient) : Prop :=
  (e.matrix = 0 ∨ e.matrix = 1) ∧ e.InRange rows wires

instance (rows wires : Int) (e : Coefficient) : Decidable (e.Valid rows wires) :=
  inferInstanceAs (Decidable (_ ∧ _))

end Coefficient

namespace ProvingKey

/-- All points of a key in the first group. -/
def curvePoints {G₁ G₂ : Type} (pk : ProvingKey G₁ G₂) : List G₁ :=
  [pk.verifying.alpha, pk.beta, pk.delta] ++ pk.verifying.inputs ++ pk.a ++ pk.b₁ ++ pk.l ++ pk.h

/-- All points of a key in the second group. -/
def twistPoints {G₁ G₂ : Type} (pk : ProvingKey G₁ G₂) : List G₂ :=
  [pk.verifying.beta, pk.verifying.gamma, pk.verifying.delta] ++ pk.b₂

/-- The parts of a key fit together. -/
structure WellFormed (pk : ProvingKey G1 G2) : Prop where
  on_curve : ∀ p ∈ pk.curvePoints, Bn254.isOnCurve p = true
  on_twist : ∀ p ∈ pk.twistPoints, Bn254.isOnTwist p = true
  publicSignals_nonneg : 0 ≤ pk.publicSignals
  publicSignals_lt : pk.publicSignals < pk.wires
  wires_lt : pk.wires < 2 ^ 32
  domain_eq : ∃ k < 32, pk.domain = 2 ^ k
  length_inputs : (pk.verifying.inputs.length : Int) = pk.publicSignals + 1
  length_a : (pk.a.length : Int) = pk.wires
  length_b₁ : (pk.b₁.length : Int) = pk.wires
  length_b₂ : (pk.b₂.length : Int) = pk.wires
  length_l : (pk.l.length : Int) = pk.wires - pk.publicSignals - 1
  length_h : (pk.h.length : Int) = pk.domain
  length_coefficients : pk.coefficients.length < 2 ^ 32
  coefficients_valid : ∀ e ∈ pk.coefficients, e.Valid pk.domain pk.wires
  q_eq : pk.q = baseOrder
  r_eq : pk.r = scalarOrder
  baseWidth_eq : pk.baseWidth = 32
  scalarWidth_eq : pk.scalarWidth = 32

/-- The key takes as many public values as it says. -/
theorem WellFormed.publicSignals_eq {pk : ProvingKey G1 G2} (h : pk.WellFormed) :
    pk.verifying.publicSignals = pk.publicSignals := by
  have := h.length_inputs
  rw [VerifyingKey.publicSignals]
  omega

end ProvingKey

end Snark
