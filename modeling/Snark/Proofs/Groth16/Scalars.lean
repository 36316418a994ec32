import Mathlib.Tactic.FieldSimp
import Mathlib.Tactic.LinearCombination
import Snark.Proofs.Group
import Snark.Proofs.Groth16.Domain
import Snark.Proofs.Groth16.Quotient

/-!
# Keys and proofs in scalars

Every point of a key that the setup makes is a known multiple of a generator, and so is every
element of a proof. The third element is determined by the other two, the values of the public
wires, and the residual of the constraints, which is zero for an assignment that satisfies them.
-/

namespace Snark.Groth16

open CurveGroup

/-- The defects of the constraints at the rows of the domain, weighted by the Lagrange basis. -/
def residual (rows : List (Fr × Fr × Fr)) (basis : List Fr) : Fr :=
  ((rows.zip basis).map fun ((a, b, c), l) => (a * b - c) * l).sum

/-- What a wire contributes to the combination of the three matrices. -/
def mixture (secrets : Secrets) (t : Columns) (j : Nat) : Fr :=
  secrets.beta * t.u.getD j 0 + secrets.alpha * t.v.getD j 0 + t.w.getD j 0

/-- The contribution of the public wires for the given values of them. -/
def publicPart (secrets : Secrets) (t : Columns) (count : Nat) (xs : List Fr) : Fr :=
  ∑ j ∈ Finset.range count, xs.getD j 0 * mixture secrets t j

theorem sum_zipWith_mul (xs ys : List Fr) {n : Nat} (h : xs.length ≤ n) :
    (xs.zipWith (· * ·) ys).sum = ∑ i ∈ Finset.range n, xs.getD i 0 * ys.getD i 0 := by
  induction xs generalizing ys n with
  | nil => simp
  | cons x xs ih =>
    obtain ⟨n, rfl⟩ : ∃ m, n = m + 1 := ⟨n - 1, by rw [List.length_cons] at h; omega⟩
    cases ys with
    | nil => simp
    | cons y ys =>
      rw [List.zipWith_cons_cons, List.sum_cons, ih ys (Nat.le_of_succ_le_succ h),
        Finset.sum_range_succ', add_comm]
      rfl

section Residual

variable {s : ConstraintSystem} {w basis : List Fr} {n : Nat}

/-- Only the rows of the constraints count, because the second values are zero in all others. -/
theorem residual_eq_sum (hn : rowCount s ≤ n) :
    residual (s.constraints.map (Constraint.values w)) basis =
      ∑ i ∈ Finset.range n,
        ((firstValues s w).getD i 0 * (s.constraints.map (·.b.value w)).getD i 0 -
          (s.constraints.map (·.c.value w)).getD i 0) * basis.getD i 0 := by
  have listed : residual (s.constraints.map (Constraint.values w)) basis =
      ((s.constraints.map fun k => k.a.value w * k.b.value w - k.c.value w).zipWith (· * ·)
        basis).sum := by
    rw [residual, List.zip, List.map_zipWith, List.zipWith_map_left, List.zipWith_map_left]
    rfl
  rw [listed, sum_zipWith_mul _ _ (length_map_constraints_le _ hn)]
  apply Finset.sum_congr rfl
  intro i _
  congr 1
  by_cases inside : i < s.constraints.length
  · rw [firstValues, List.getD_append _ _ _ _ (by rwa [List.length_map])]
    simp [inside]
  · simp [inside]

theorem residual_eq_zero (h : ∀ k ∈ s.constraints, k.a.value w * k.b.value w = k.c.value w) :
    residual (s.constraints.map (Constraint.values w)) basis = 0 := by
  apply List.sum_eq_zero
  intro x hx
  obtain ⟨⟨row, l⟩, member, rfl⟩ := List.mem_map.1 hx
  obtain ⟨k, hk, rfl⟩ := List.mem_map.1 (List.of_mem_zip member).1
  change (k.a.value w * k.b.value w - k.c.value w) * l = 0
  rw [h k hk, sub_self, zero_mul]

end Residual

section Keys

variable {s : ConstraintSystem} {secrets : Secrets} {w : List Fr} {k : Nat}

/-- The Lagrange basis of the domain of size `2 ^ k` at a point. -/
def basisList (k : Nat) (tau : Fr) : List Fr :=
  (List.range (2 ^ k)).map (basisAt (dyadicRoot k) (2 ^ k) tau)

@[simp] theorem length_basisList (k : Nat) (tau : Fr) : (basisList k tau).length = 2 ^ k := by
  rw [basisList, List.length_map, List.length_range]

theorem getD_basisList {i : Nat} (hi : i < 2 ^ k) (tau : Fr) :
    (basisList k tau).getD i 0 = basisAt (dyadicRoot k) (2 ^ k) tau i := by
  rw [basisList, getD_map_range _ hi]

/-- The columns of a system at the secret point. -/
def secretColumns (s : ConstraintSystem) (secrets : Secrets) (k : Nat) : Columns :=
  columnsOf s (basisList k secrets.tau)

/-- The contributions of all wires. -/
def mixtures (s : ConstraintSystem) (secrets : Secrets) (k : Nat) : List Fr :=
  (List.range s.wires.toNat).map (mixture secrets (secretColumns s secrets k))

/-- The scalars of the points for the quotient. -/
def oddScalars (secrets : Secrets) (k : Nat) : List Fr :=
  (List.range (2 ^ k)).map fun i =>
    basisAt (dyadicRoot (k + 1)) (2 ^ (k + 1)) secrets.tau (2 * i + 1) / secrets.delta

theorem map_zip_columns (s : ConstraintSystem) (secrets : Secrets) (k : Nat) :
    ((secretColumns s secrets k).u.zip
        ((secretColumns s secrets k).v.zip (secretColumns s secrets k).w)).map
      (fun (u, v, w) => secrets.beta * u + secrets.alpha * v + w) = mixtures s secrets k := by
  apply List.ext_getElem
  · simp [secretColumns, columnsOf, mixtures]
  · intro j h₁ h₂
    have inside : j < s.wires.toNat := by simpa [mixtures] using h₂
    simp only [List.getElem_map, List.getElem_zip, mixtures, List.getElem_range, mixture]
    rw [List.getD_eq_getElem, List.getD_eq_getElem, List.getD_eq_getElem]

variable {G₁ G₂ : Type} [CurveGroup G₁] [CurveGroup G₂]

/-- The key that the setup makes, by the scalars of its points. -/
def keyOf (G₁ G₂ : Type) [CurveGroup G₁] [CurveGroup G₂] (s : ConstraintSystem)
    (secrets : Secrets) (k : Nat) : ProvingKey G₁ G₂ where
  verifying := {
    alpha := ofScalar secrets.alpha
    beta := ofScalar secrets.beta
    gamma := ofScalar secrets.gamma
    delta := ofScalar secrets.delta
    inputs := (((mixtures s secrets k).take s.publicWires.toNat).map (· / secrets.gamma)).map
      ofScalar }
  beta := ofScalar secrets.beta
  delta := ofScalar secrets.delta
  a := (secretColumns s secrets k).u.map ofScalar
  b₁ := (secretColumns s secrets k).v.map ofScalar
  b₂ := (secretColumns s secrets k).v.map ofScalar
  l := (((mixtures s secrets k).drop s.publicWires.toNat).map (· / secrets.delta)).map ofScalar
  h := (oddScalars secrets k).map ofScalar
  coefficients := coefficients s
  wires := s.wires
  publicSignals := s.publicSignals
  domain := (2 ^ k : Nat)
  q := CurveParams.bn254.q
  r := CurveParams.bn254.r
  baseWidth := CurveParams.bn254.baseWidth
  scalarWidth := CurveParams.bn254.scalarWidth

theorem setup_eq (hs : s.WellFormed) (hk : k < 28) (size : domainSize s = 2 ^ k)
    (hn : rowCount s ≤ 2 ^ k) : setup s secrets = .ok (keyOf G₁ G₂ s secrets k) := by
  have basis : lagrange secrets.tau ((2 ^ k : Nat) : Int) = .ok (basisList k secrets.tau) :=
    lagrange_eq hk.le secrets.tau
  rw [setup, size]
  dsimp only
  rw [columns_eq hs hn (length_basisList k secrets.tau) basis, Except.ok_bind, quotientPoints,
    quotientScalars_eq hk, Except.ok_bind, Except.pure_eq_ok, Except.ok_bind, Except.pure_eq_ok,
    ← secretColumns, map_zip_columns, keyOf]
  simp only [oddScalars, List.map_map]
  rfl

theorem mixture_eq (t : Columns) (w : List Fr) (wires : Nat) :
    ∑ j ∈ Finset.range wires, w.getD j 0 * mixture secrets t j =
      secrets.beta * ∑ j ∈ Finset.range wires, w.getD j 0 * t.u.getD j 0 +
        secrets.alpha * ∑ j ∈ Finset.range wires, w.getD j 0 * t.v.getD j 0 +
        ∑ j ∈ Finset.range wires, w.getD j 0 * t.w.getD j 0 := by
  rw [Finset.mul_sum, Finset.mul_sum, ← Finset.sum_add_distrib, ← Finset.sum_add_distrib]
  apply Finset.sum_congr rfl
  intro j _
  rw [mixture]
  ring

theorem getD_map_div (xs : List Fr) (d : Fr) (j : Nat) :
    (xs.map (· / d)).getD j 0 = xs.getD j 0 / d := by
  rw [List.getD_eq_getElem?_getD, List.getD_eq_getElem?_getD, List.getElem?_map]
  cases xs[j]? <;> simp

theorem getD_mixtures {j : Nat} (hj : j < s.wires.toNat) :
    (mixtures s secrets k).getD j 0 = mixture secrets (secretColumns s secrets k) j := by
  rw [mixtures, getD_map_range _ hj]

theorem getD_drop (xs : List Fr) (m i : Nat) : (xs.drop m).getD i 0 = xs.getD (m + i) 0 := by
  rw [List.getD_eq_getElem?_getD, List.getD_eq_getElem?_getD, List.getElem?_drop]

/-- The contribution of the wires that are not public. -/
theorem sum_privatePart (hs : s.WellFormed) (hw : (w.length : Int) = s.wires) :
    ∑ i ∈ Finset.range (w.drop s.publicWires.toNat).length,
        (w.drop s.publicWires.toNat).getD i 0 *
          (((mixtures s secrets k).drop s.publicWires.toNat).map (· / secrets.delta)).getD i 0 =
      (∑ j ∈ Finset.range s.wires.toNat,
          w.getD j 0 * mixture secrets (secretColumns s secrets k) j -
        publicPart secrets (secretColumns s secrets k) s.publicWires.toNat w) /
        secrets.delta := by
  have fits : s.publicWires.toNat ≤ s.wires.toNat := Int.toNat_le_toNat hs.publicWires_le
  have whole : s.wires.toNat =
      s.publicWires.toNat + (w.drop s.publicWires.toNat).length := by
    rw [List.length_drop]
    omega
  rw [publicPart, whole, Finset.sum_range_add, add_sub_cancel_left, Finset.sum_div]
  apply Finset.sum_congr rfl
  intro i hi
  have inside : s.publicWires.toNat + i < s.wires.toNat := by
    rw [whole]
    have := Finset.mem_range.1 hi
    omega
  rw [getD_map_div, getD_drop, getD_drop, getD_mixtures inside]
  ring

/-- A combination of a column with the values of the wires, blinded by a multiple of `delta`. -/
def blinded (base delta : Fr) (column : List Fr) (wires : Nat) (w : List Fr) (r : Fr) : Fr :=
  base + ∑ j ∈ Finset.range wires, w.getD j 0 * column.getD j 0 + r * delta

/-- The scalar of the first element of a proof. -/
def firstScalar (s : ConstraintSystem) (secrets : Secrets) (k : Nat) (w : List Fr) (r : Fr) : Fr :=
  blinded secrets.alpha secrets.delta (secretColumns s secrets k).u s.wires.toNat w r

/-- The scalar of the second element of a proof. -/
def secondScalar (s : ConstraintSystem) (secrets : Secrets) (k : Nat) (w : List Fr) (t : Fr) : Fr :=
  blinded secrets.beta secrets.delta (secretColumns s secrets k).v s.wires.toNat w t

/-- The scalar of the third element of a proof. -/
noncomputable def thirdScalar (s : ConstraintSystem) (secrets : Secrets) (k : Nat) (w : List Fr)
    (r t : Fr) : Fr :=
  (∑ j ∈ Finset.range s.wires.toNat, w.getD j 0 * mixture secrets (secretColumns s secrets k) j -
      publicPart secrets (secretColumns s secrets k) s.publicWires.toNat w) / secrets.delta +
    (defect k (rowsOf (2 ^ k) (coefficients s) w)).eval secrets.tau / secrets.delta +
    t * firstScalar s secrets k w r + r * secondScalar s secrets k w t - r * t * secrets.delta

theorem proveValues_eq [LawfulCurveGroup G₁] [LawfulCurveGroup G₂] (hs : s.WellFormed)
    (hw : (w.length : Int) = s.wires) (hk : k < 28) (hn : rowCount s ≤ 2 ^ k)
    (htau : secrets.tau ^ 2 ^ (k + 1) ≠ 1) (r t : Fr) :
    proveValues (keyOf G₁ G₂ s secrets k) w r t =
      .ok ⟨ofScalar (firstScalar s secrets k w r), ofScalar (secondScalar s secrets k w t),
        ofScalar (thirdScalar s secrets k w r t)⟩ := by
  have wires : w.length ≤ s.wires.toNat := by omega
  have start : (keyOf G₁ G₂ s secrets k).publicSignals + 1 = (s.publicWires.toNat : Int) := by
    have := hs.publicSignals_nonneg
    rw [ConstraintSystem.publicWires, Int.toNat_of_nonneg (by omega), add_comm]
    rfl
  have inside : s.publicWires.toNat ≤ w.length := by
    have := hs.publicWires_le
    omega
  have inRange : ∀ e ∈ (keyOf G₁ G₂ s secrets k).coefficients,
      e.InRange (2 ^ k : Nat) w.length := inRange_coefficients hs hw hn
  rw [proveValues, quotient_eq hk rfl inRange, Except.ok_bind, Except.pure_eq_ok, start,
    Position.suffix_eq_drop inside]
  simp only [keyOf]
  rw [combination_ofScalar _ _ wires, combination_ofScalar _ _ wires,
    combination_ofScalar _ _ wires, combination_ofScalar _ _ le_rfl, sum_privatePart hs hw,
    combination_ofScalar _ _ (n := 2 ^ k) (by simp), oddScalars,
    sum_oddValues_mul hk htau secrets.delta fun i _ => rowsOf_c _ _ _ i]
  simp only [add_ofScalar, scale_ofScalar, neg_ofScalar, ← sub_eq_add_neg]
  rfl

theorem prove_keyOf [LawfulCurveGroup G₁] [LawfulCurveGroup G₂] (hs : s.WellFormed)
    (hw : (w.length : Int) = s.wires) (hk : k < 28) (hn : rowCount s ≤ 2 ^ k)
    (htau : secrets.tau ^ 2 ^ (k + 1) ≠ 1) (r t : Fr) :
    prove (keyOf G₁ G₂ s secrets k) w r t =
      .ok ⟨ofScalar (firstScalar s secrets k w r), ofScalar (secondScalar s secrets k w t),
        ofScalar (thirdScalar s secrets k w r t)⟩ := by
  have wires : (w.length : Int) = (keyOf G₁ G₂ s secrets k).wires := hw
  rw [prove, if_pos wires, proveValues_eq hs hw hk hn htau, Result.ofFault_ok]

/-- The value of the defect at the secret, by the columns there and the residual. -/
theorem eval_defect_secret (hs : s.WellFormed) (hw : (w.length : Int) = s.wires) (hk : k < 28)
    (hn : rowCount s ≤ 2 ^ k) (htau : secrets.tau ^ 2 ^ (k + 1) ≠ 1) :
    (defect k (rowsOf (2 ^ k) (coefficients s) w)).eval secrets.tau =
      (∑ j ∈ Finset.range s.wires.toNat, w.getD j 0 * (secretColumns s secrets k).u.getD j 0) *
          ∑ j ∈ Finset.range s.wires.toNat, w.getD j 0 * (secretColumns s secrets k).v.getD j 0 -
        ∑ j ∈ Finset.range s.wires.toNat, w.getD j 0 * (secretColumns s secrets k).w.getD j 0 -
        residual (s.constraints.map (Constraint.values w)) (basisList k secrets.tau) := by
  have outside : secrets.tau ^ 2 ^ k ≠ 1 := by
    intro inside
    apply htau
    rw [pow_succ, pow_mul, inside, one_pow]
  have weighted (ys zs : List Fr) (same : ∀ i < 2 ^ k, ys.getD i 0 = zs.getD i 0) :
      (through k ys).eval secrets.tau =
        ∑ i ∈ Finset.range (2 ^ k), (basisList k secrets.tau).getD i 0 * zs.getD i 0 := by
    rw [eval_through_eq_sum hk.le outside]
    apply Finset.sum_congr rfl
    intro i hi
    have inside := Finset.mem_range.1 hi
    rw [getD_basisList inside, same i inside]
  obtain ⟨u, v, third⟩ := sum_mul_columnsOf hs hn w (basisList k secrets.tau)
  rw [defect, Polynomial.eval_sub, Polynomial.eval_mul,
    weighted _ _ fun i hi => (getD_rowsOf hs hw hn hi).1,
    weighted _ _ fun i hi => (getD_rowsOf hs hw hn hi).2, weighted _ _ fun i _ => rfl,
    secretColumns, u, v, third, residual_eq_sum hn, sub_sub, ← Finset.sum_add_distrib]
  congr 1
  apply Finset.sum_congr rfl
  intro i hi
  obtain ⟨a, b⟩ := getD_rowsOf hs hw hn (Finset.mem_range.1 hi)
  rw [rowsOf_c, a, b]
  ring

/-- The third element is determined by the others, up to the public wires and the residual. -/
theorem mul_thirdScalar (hs : s.WellFormed) (hw : (w.length : Int) = s.wires) (hk : k < 28)
    (hn : rowCount s ≤ 2 ^ k) (hdelta : secrets.delta ≠ 0)
    (htau : secrets.tau ^ 2 ^ (k + 1) ≠ 1) (r t : Fr) :
    secrets.delta * thirdScalar s secrets k w r t =
      firstScalar s secrets k w r * secondScalar s secrets k w t -
        secrets.alpha * secrets.beta -
        publicPart secrets (secretColumns s secrets k) s.publicWires.toNat w -
        residual (s.constraints.map (Constraint.values w)) (basisList k secrets.tau) := by
  rw [thirdScalar, eval_defect_secret hs hw hk hn htau, mixture_eq, firstScalar, secondScalar,
    blinded, blinded]
  field_simp
  ring

end Keys

end Snark.Groth16
