import Snark.Groth16.Verify
import Snark.Proofs.Groth16.Scalars

/-!
# What the verifier accepts

A proof made of known multiples of the generators is accepted exactly if their scalars satisfy the
equation of the verifier. For a proof that the prover made, of any values of the wires, the
equation says that the residual of the constraints and the differences between the public wires and
the public values cancel out, each weighted as the secrets of the setup weigh it.
-/

namespace Snark.Groth16

open CurveGroup

section Verifier

variable {G₁ G₂ T : Type} [CurveGroup G₁] [CurveGroup G₂] [PairingGroups G₁ G₂ T]
variable {xs : List Int}

theorem checkInputs_eq_ok (i : Nat) (h : ∀ x ∈ xs, 0 ≤ x ∧ x < scalarOrder) :
    checkInputs i xs = .ok () := by
  induction xs generalizing i with
  | nil => rfl
  | cons x xs ih =>
    rw [checkInputs, ih (i + 1) fun y hy => h y (List.mem_cons_of_mem x hy)]
    simp [h x List.mem_cons_self]

variable [LawfulCurveGroup G₁]

omit [CurveGroup G₂] in
/-- The public values are combined with the points of the key behind the constant one. -/
theorem prepareInputs_ofScalar {vk : VerifyingKey G₁ G₂} {qs : List Fr}
    (hqs : vk.inputs = qs.map ofScalar) (length : qs.length = xs.length + 1)
    (hxs : ∀ x ∈ xs, 0 ≤ x ∧ x < scalarOrder) :
    prepareInputs vk xs = .ok (ofScalar (∑ j ∈ Finset.range (xs.length + 1),
      (1 :: xs.map Residue.ofInt).getD j 0 * qs.getD j 0)) := by
  obtain ⟨first, rest, rfl⟩ := List.exists_cons_of_ne_nil (List.ne_nil_of_length_eq_add_one length)
  have count : (xs.length : Int) = vk.publicSignals := by
    rw [VerifyingKey.publicSignals, hqs, List.length_map, length]
    omega
  rw [prepareInputs, if_neg (not_not_intro count), checkInputs_eq_ok 0 hxs, hqs]
  simp only [Except.pure_eq_ok, Except.ok_bind, List.map_cons]
  rw [combination_ofScalar _ _ (n := xs.length) (by rw [List.length_map]), add_ofScalar,
    Finset.sum_range_succ']
  simp only [List.getD_cons_succ, List.getD_cons_zero, one_mul]
  rw [add_comm]

variable [LawfulCurveGroup G₂] [LawfulPairing G₁ G₂]

/-- A proof of known multiples is accepted exactly if their scalars satisfy the equation. -/
theorem verify_ofScalar {alpha beta gamma delta x : Fr} {vk : VerifyingKey G₁ G₂}
    {inputs : List G₁}
    (hvk : vk = ⟨ofScalar alpha, ofScalar beta, ofScalar gamma, ofScalar delta, inputs⟩)
    (hx : prepareInputs vk xs = .ok (ofScalar x)) (a b c : Fr) :
    ∃ accepted, verify vk ⟨ofScalar a, ofScalar b, ofScalar c⟩ xs = .ok accepted ∧
      (accepted = true ↔ a * b = alpha * beta + x * gamma + c * delta) := by
  subst hvk
  obtain ⟨target, injective, additive, products⟩ := exists_target G₁ G₂
  let _ : DecidableEq T := PairingGroups.decEq G₁ G₂
  refine ⟨decide (target (a * b) = target (alpha * beta + x * gamma + c * delta)), ?_, ?_⟩
  · simp only [verify, hx, expected, products, additive, Except.ok_bind, Except.pure_eq_ok,
      Result.ofFault_ok]
  · rw [decide_eq_true_iff, injective.eq_iff]

end Verifier

section Honest

variable {s : ConstraintSystem} {secrets : Secrets} {w : List Fr} {xs : List Int} {k : Nat}
variable (G₁ G₂ : Type) {T : Type} [CurveGroup G₁] [CurveGroup G₂] [PairingGroups G₁ G₂ T]

/-- The difference that public values make, if they are not those of the public wires. -/
def publicError (secrets : Secrets) (t : Columns) (w : List Fr) (xs : List Int) : Fr :=
  ∑ j ∈ Finset.range (xs.length + 1),
    (w.getD j 0 - (1 :: xs.map Residue.ofInt).getD j 0) * mixture secrets t j

theorem publicError_eq (t : Columns) :
    publicError secrets t w xs = publicPart secrets t (xs.length + 1) w -
      publicPart secrets t (xs.length + 1) (1 :: xs.map Residue.ofInt) := by
  rw [publicError, publicPart, publicPart, ← Finset.sum_sub_distrib]
  apply Finset.sum_congr rfl
  intro j _
  rw [sub_mul]

theorem publicError_eq_zero (t : Columns)
    (h : w.take (xs.length + 1) = 1 :: xs.map Residue.ofInt) :
    publicError secrets t w xs = 0 := by
  apply Finset.sum_eq_zero
  intro j hj
  rw [← h, List.getD_eq_getElem?_getD, List.getD_eq_getElem?_getD,
    List.getElem?_take_of_lt (Finset.mem_range.1 hj), sub_self, zero_mul]

omit [PairingGroups G₁ G₂ T] in
theorem prepareInputs_keyOf [LawfulCurveGroup G₁] (hs : s.WellFormed)
    (hgamma : secrets.gamma ≠ 0) (length : (xs.length : Int) = s.publicSignals)
    (hxs : ∀ x ∈ xs, 0 ≤ x ∧ x < scalarOrder) :
    ∃ x, prepareInputs (keyOf G₁ G₂ s secrets k).verifying xs = .ok (ofScalar x) ∧
      x * secrets.gamma = publicPart secrets (secretColumns s secrets k) (xs.length + 1)
        (1 :: xs.map Residue.ofInt) := by
  have count : s.publicWires.toNat = xs.length + 1 := by
    rw [ConstraintSystem.publicWires]
    omega
  have fits : s.publicWires.toNat ≤ s.wires.toNat := Int.toNat_le_toNat hs.publicWires_le
  have enough : (((mixtures s secrets k).take s.publicWires.toNat).map
      (· / secrets.gamma)).length = xs.length + 1 := by
    rw [List.length_map, List.length_take, mixtures, List.length_map, List.length_range]
    omega
  refine ⟨_, prepareInputs_ofScalar rfl enough hxs, ?_⟩
  rw [Finset.sum_mul, publicPart]
  apply Finset.sum_congr rfl
  intro j hj
  have inside : j < xs.length + 1 := Finset.mem_range.1 hj
  rw [getD_map_div, List.getD_eq_getElem?_getD (l := List.take _ _),
    List.getElem?_take_of_lt (by omega), ← List.getD_eq_getElem?_getD, getD_mixtures (by omega),
    mul_assoc, div_mul_cancel₀ _ hgamma]

variable [LawfulCurveGroup G₁] [LawfulCurveGroup G₂] [LawfulPairing G₁ G₂]

/-- Setup, prover and verifier fit together: a proof made of any values of the wires is accepted
exactly if the residual of the constraints and the difference of the public values cancel out. In
particular it is accepted if the values satisfy the system and begin with the public ones. -/
theorem verify_prove_iff (hs : s.WellFormed) (hsize : domainSize s ≤ 2 ^ 27)
    (hgamma : secrets.gamma ≠ 0) (hdelta : secrets.delta ≠ 0)
    (htau : secrets.tau ^ (2 * domainSize s) ≠ 1) (hw : (w.length : Int) = s.wires)
    (length : (xs.length : Int) = s.publicSignals) (hxs : ∀ x ∈ xs, 0 ≤ x ∧ x < scalarOrder)
    (r t : Fr) :
    ∃ rows basis cols, ∃ pk : ProvingKey G₁ G₂, ∃ proof accepted,
      (Circuit.mk s (some w)).evaluations = .ok rows ∧
      lagrange secrets.tau (domainSize s) = .ok basis ∧
      columns s secrets.tau (domainSize s) = .ok cols ∧
      setup s secrets = .ok pk ∧
      prove pk w r t = .ok proof ∧
      verify pk.verifying proof xs = .ok accepted ∧
      (accepted = true ↔ residual rows basis + publicError secrets cols w xs = 0) ∧
      ((Circuit.mk s (some w)).isSatisfied = .ok true →
        w.take (xs.length + 1) = 1 :: xs.map Residue.ofInt → accepted = true) := by
  obtain ⟨k, hk, size, hn⟩ := exists_exponent hs hsize
  rw [size, ← pow_succ'] at htau
  have basis : lagrange secrets.tau ((2 ^ k : Nat) : Int) = .ok (basisList k secrets.tau) :=
    lagrange_eq hk.le secrets.tau
  have columns : columns s secrets.tau ((2 ^ k : Nat) : Int) = .ok (secretColumns s secrets k) :=
    columns_eq hs hn (length_basisList k secrets.tau) basis
  obtain ⟨x, prepared, combined⟩ := prepareInputs_keyOf G₁ G₂ (k := k) hs hgamma
    length hxs
  obtain ⟨accepted, verified, equation⟩ := verify_ofScalar rfl prepared
    (firstScalar s secrets k w r) (secondScalar s secrets k w t) (thirdScalar s secrets k w r t)
  have count : s.publicWires.toNat = xs.length + 1 := by
    rw [ConstraintSystem.publicWires]
    omega
  have criterion : accepted = true ↔
      residual (s.constraints.map (Constraint.values w)) (basisList k secrets.tau) +
        publicError secrets (secretColumns s secrets k) w xs = 0 := by
    have third := mul_thirdScalar hs hw hk hn hdelta htau r t
    rw [equation, publicError_eq, ← combined, mul_comm (thirdScalar s secrets k w r t), third,
      count]
    constructor
    · intro h
      linear_combination h
    · intro h
      linear_combination h
  refine ⟨_, _, _, _, _, accepted, ConstraintSystem.evaluations_eq hs hw, size ▸ basis,
    size ▸ columns, setup_eq hs hk size hn, prove_keyOf hs hw hk hn htau r t, verified, criterion,
    ?_⟩
  intro satisfied begins
  rw [criterion, residual_eq_zero ((ConstraintSystem.isSatisfied_iff hs hw).1 satisfied),
    publicError_eq_zero _ begins, add_zero]

end Honest

/-- A proof that six is a product is accepted. -/
theorem verify_prove_multiplier :
    ∃ pk : ProvingKey Logarithm Logarithm, ∃ proof,
      setup .multiplier ⟨2, 3, 5, 7, 11⟩ = .ok pk ∧
      prove pk [1, 6, 2, 3] 13 17 = .ok proof ∧
      verify pk.verifying proof [6] = .ok true := by
  obtain ⟨_, _, _, pk, proof, accepted, -, -, -, made, proved, verified, -, complete⟩ :=
    @verify_prove_iff .multiplier ⟨2, 3, 5, 7, 11⟩ [1, 6, 2, 3] [6] Logarithm Logarithm _
      _ _ _ _ _ _ (by decide) (by decide) (by decide) (by decide) (by decide) (by decide)
      (by decide) (by decide) 13 17
  rw [complete rfl (by decide)] at verified
  exact ⟨pk, proof, made, proved, verified⟩

end Snark.Groth16
