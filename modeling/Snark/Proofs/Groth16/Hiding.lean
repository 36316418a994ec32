import Mathlib.Probability.Distributions.Uniform
import Snark.Proofs.Groth16.Scalars

/-!
# Proofs hide the inner wires

The two blinding scalars shift the first two elements of a proof to any values, and for values of
the wires that satisfy the system the third element is determined by these two and by the public
wires. Two such assignments with the same public wires thus give the same proofs, each under
blinding scalars that differ by a constant, so that uniform blinding gives the same distribution
of proofs.
-/

namespace Snark.Groth16

open CurveGroup

/-- A uniform choice stays uniform when it is permuted. -/
theorem map_uniformOfFintype_comp {α β : Type} [Fintype α] [Nonempty α] (e : α ≃ α) (f : α → β) :
    (PMF.uniformOfFintype α).map (f ∘ e) = (PMF.uniformOfFintype α).map f := by
  classical
  ext b
  rw [PMF.map_apply, PMF.map_apply]
  simp only [Function.comp_apply, PMF.uniformOfFintype_apply]
  exact e.tsum_eq fun a => if b = f a then (Fintype.card α : ENNReal)⁻¹ else 0

section Blinding

variable {s : ConstraintSystem} {secrets : Secrets} {w w' : List Fr} {k : Nat}

/-- What a blinding scalar has to change by when the values of the wires change. -/
def shift (delta : Fr) (column : List Fr) (wires : Nat) (w w' : List Fr) : Fr :=
  (∑ j ∈ Finset.range wires, w.getD j 0 * column.getD j 0 -
    ∑ j ∈ Finset.range wires, w'.getD j 0 * column.getD j 0) / delta

theorem blinded_eq_iff {base delta : Fr} {column : List Fr} {wires : Nat} (hdelta : delta ≠ 0)
    (r r' : Fr) :
    blinded base delta column wires w' r' = blinded base delta column wires w r ↔
      r' = r + shift delta column wires w w' := by
  rw [blinded, blinded, shift]
  field_simp
  constructor
  · intro h
    linear_combination h
  · intro h
    linear_combination h

/-- Only the public wires count. -/
theorem publicPart_congr (secrets : Secrets) (t : Columns) {count : Nat}
    (h : w.take count = w'.take count) :
    publicPart secrets t count w = publicPart secrets t count w' := by
  apply Finset.sum_congr rfl
  intro j hj
  have inside : j < count := Finset.mem_range.1 hj
  congr 1
  rw [List.getD_eq_getElem?_getD, List.getD_eq_getElem?_getD, ← List.getElem?_take_of_lt inside, h,
    List.getElem?_take_of_lt inside]

/-- For satisfying values the third element is determined by the others and the public wires. -/
theorem thirdScalar_congr (hs : s.WellFormed) (hk : k < 28) (hn : rowCount s ≤ 2 ^ k)
    (hdelta : secrets.delta ≠ 0) (htau : secrets.tau ^ 2 ^ (k + 1) ≠ 1)
    (hw : (w.length : Int) = s.wires) (hw' : (w'.length : Int) = s.wires)
    (satisfied : (Circuit.mk s (some w)).isSatisfied = .ok true)
    (satisfied' : (Circuit.mk s (some w')).isSatisfied = .ok true)
    (agree : w.take s.publicWires.toNat = w'.take s.publicWires.toNat) {r t r' t' : Fr}
    (first : firstScalar s secrets k w' r' = firstScalar s secrets k w r)
    (second : secondScalar s secrets k w' t' = secondScalar s secrets k w t) :
    thirdScalar s secrets k w' r' t' = thirdScalar s secrets k w r t := by
  apply mul_left_cancel₀ hdelta
  rw [mul_thirdScalar hs hw' hk hn hdelta htau, mul_thirdScalar hs hw hk hn hdelta htau, first,
    second, publicPart_congr secrets _ agree,
    residual_eq_zero ((ConstraintSystem.isSatisfied_iff hs hw').1 satisfied'),
    residual_eq_zero ((ConstraintSystem.isSatisfied_iff hs hw).1 satisfied)]

end Blinding

section Hiding

variable {s : ConstraintSystem} {secrets : Secrets} {w w' : List Fr}
variable (G₁ G₂ : Type) [CurveGroup G₁] [CurveGroup G₂]
variable [LawfulCurveGroup G₁] [LawfulCurveGroup G₂]

/-- Two satisfying assignments with the same public wires give the same proofs: for every blinding
of the one there is exactly one of the other that gives the same proof, and uniform blinding gives
the same distribution of proofs. -/
theorem prove_hiding (hs : s.WellFormed) (hsize : domainSize s ≤ 2 ^ 27)
    (hdelta : secrets.delta ≠ 0) (htau : secrets.tau ^ (2 * domainSize s) ≠ 1)
    (hw : (w.length : Int) = s.wires) (hw' : (w'.length : Int) = s.wires)
    (satisfied : (Circuit.mk s (some w)).isSatisfied = .ok true)
    (satisfied' : (Circuit.mk s (some w')).isSatisfied = .ok true)
    (agree : w.take s.publicWires.toNat = w'.take s.publicWires.toNat) :
    ∃ pk : ProvingKey G₁ G₂, setup s secrets = .ok pk ∧
      (∀ r t, ∃ proof, prove pk w r t = .ok proof ∧
        ∃! p : Fr × Fr, prove pk w' p.1 p.2 = .ok proof) ∧
      (PMF.uniformOfFintype (Fr × Fr)).map (fun p => prove pk w p.1 p.2) =
        (PMF.uniformOfFintype (Fr × Fr)).map (fun p => prove pk w' p.1 p.2) := by
  obtain ⟨k, hk, size, hn⟩ := exists_exponent hs hsize
  rw [size, ← pow_succ'] at htau
  let a := shift secrets.delta (secretColumns s secrets k).u s.wires.toNat w w'
  let b := shift secrets.delta (secretColumns s secrets k).v s.wires.toNat w w'
  have first (r r' : Fr) :
      firstScalar s secrets k w' r' = firstScalar s secrets k w r ↔ r' = r + a :=
    blinded_eq_iff hdelta r r'
  have second (t t' : Fr) :
      secondScalar s secrets k w' t' = secondScalar s secrets k w t ↔ t' = t + b :=
    blinded_eq_iff hdelta t t'
  have same (r t r' t' : Fr) :
      prove (keyOf G₁ G₂ s secrets k) w' r' t' = prove (keyOf G₁ G₂ s secrets k) w r t ↔
        r' = r + a ∧ t' = t + b := by
    rw [prove_keyOf hs hw hk hn htau, prove_keyOf hs hw' hk hn htau, Except.ok.injEq,
      Proof.mk.injEq, ofScalar_injective.eq_iff, ofScalar_injective.eq_iff,
      ofScalar_injective.eq_iff, ← first, ← second]
    constructor
    · rintro ⟨ha, hb, -⟩
      exact ⟨ha, hb⟩
    · rintro ⟨ha, hb⟩
      exact ⟨ha, hb, thirdScalar_congr hs hk hn hdelta htau hw hw' satisfied satisfied' agree ha
        hb⟩
  refine ⟨keyOf G₁ G₂ s secrets k, setup_eq hs hk size hn, ?_, ?_⟩
  · intro r t
    refine ⟨_, prove_keyOf hs hw hk hn htau r t, ?_⟩
    rw [← prove_keyOf hs hw hk hn htau r t]
    refine ⟨(r + a, t + b), (same _ _ _ _).2 ⟨rfl, rfl⟩, ?_⟩
    rintro ⟨r', t'⟩ equal
    obtain ⟨rfl, rfl⟩ := (same _ _ _ _).1 equal
    rfl
  · rw [← map_uniformOfFintype_comp (Equiv.addRight (a, b))
      fun p : Fr × Fr => prove (keyOf G₁ G₂ s secrets k) w' p.1 p.2]
    congr 1
    funext ⟨r, t⟩
    exact ((same _ _ _ _).2 ⟨rfl, rfl⟩).symm

end Hiding

/-- Proofs that six is a product do not tell of which numbers. -/
theorem prove_hiding_multiplier :
    ∃ pk : ProvingKey Logarithm Logarithm, setup .multiplier ⟨2, 3, 5, 7, 11⟩ = .ok pk ∧
      ∀ r t, ∃ proof, prove pk [1, 6, 2, 3] r t = .ok proof ∧
        ∃! p : Fr × Fr, prove pk [1, 6, 1, 6] p.1 p.2 = .ok proof := by
  obtain ⟨pk, made, hidden, -⟩ :=
    @prove_hiding .multiplier ⟨2, 3, 5, 7, 11⟩ [1, 6, 2, 3] [1, 6, 1, 6] Logarithm Logarithm
      _ _ _ _ (by decide) (by decide) (by decide) (by decide) (by decide) (by decide) rfl rfl
      (by decide)
  exact ⟨pk, made, hidden⟩

end Snark.Groth16
