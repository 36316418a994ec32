import Mathlib.Algebra.BigOperators.Ring.Finset
import Mathlib.Data.List.GetD
import Mathlib.Tactic.Ring
import Snark.Group
import Snark.Proofs.Except
import Snark.Proofs.Field.Prime

/-!
# The laws of groups with a pairing

All points that keys and proofs are made of are multiples of a generator. `LawfulCurveGroup` says
that these are a cyclic group of `scalarOrder` elements and `LawfulPairing` that the pairing is
defined on them, bilinear and not degenerate; nothing is assumed of other points, and nothing of
the values of the pairing. A point is then known by its scalar, and a product of pairings by the
sum of the products of scalars.
-/

namespace Snark

open CurveGroup

/-- The multiples of the generator are a cyclic group of `scalarOrder` elements. -/
class LawfulCurveGroup (G : Type) [CurveGroup G] : Prop where
  multiple_zero : multiple 0 (generator : G) = zero
  multiple_one : multiple 1 (generator : G) = generator
  add_multiple (a b : Nat) :
    add (multiple a generator) (multiple b generator) = multiple (a + b) (generator : G)
  /-- The negative of a multiple is a multiple, and adds up with it to zero. -/
  neg_multiple (a : Nat) : ∃ b, neg (multiple a (generator : G)) = multiple b generator ∧
    add (multiple a generator) (multiple b (generator : G)) = zero
  multiple_multiple (a b : Nat) :
    multiple a (multiple b (generator : G)) = multiple (a * b) generator
  multiple_eq_iff (a b : Nat) :
    multiple a (generator : G) = multiple b generator ↔ a ≡ b [MOD scalarOrder]

/-- The pairing is defined on the multiples of the generators, where it is bilinear and not
degenerate. -/
class LawfulPairing (G₁ G₂ : Type) {T : Type} [CurveGroup G₁] [CurveGroup G₂]
    [PairingGroups G₁ G₂ T] : Prop where
  pair_defined (a b : Nat) :
    ∃ t : T, PairingGroups.pair (multiple a (generator : G₂)) (multiple b (generator : G₁)) = .ok t
  pair_add_left {a a' b : Nat} {t t' : T}
    (h : PairingGroups.pair (multiple a (generator : G₂)) (multiple b (generator : G₁)) = .ok t)
    (h' : PairingGroups.pair (multiple a' (generator : G₂)) (multiple b (generator : G₁)) =
      .ok t') :
    PairingGroups.pair (add (multiple a (generator : G₂)) (multiple a' generator))
      (multiple b (generator : G₁)) = .ok (PairingGroups.combine G₁ G₂ t t')
  pair_add_right {a b b' : Nat} {t t' : T}
    (h : PairingGroups.pair (multiple a (generator : G₂)) (multiple b (generator : G₁)) = .ok t)
    (h' : PairingGroups.pair (multiple a (generator : G₂)) (multiple b' (generator : G₁)) =
      .ok t') :
    PairingGroups.pair (multiple a (generator : G₂))
      (add (multiple b (generator : G₁)) (multiple b' generator)) =
        .ok (PairingGroups.combine G₁ G₂ t t')
  nondegenerate :
    PairingGroups.pair (generator : G₂) (generator : G₁) ≠
      PairingGroups.pair (zero : G₂) (generator : G₁)

namespace CurveGroup

section Scalars

variable {G : Type} [CurveGroup G] [LawfulCurveGroup G]

theorem multiple_eq_ofScalar (n : Nat) : multiple n (generator : G) = ofScalar n := by
  rw [ofScalar, scale, LawfulCurveGroup.multiple_eq_iff]
  exact (Nat.mod_modEq n scalarOrder).symm

omit [LawfulCurveGroup G] in
theorem ofScalar_eq_multiple (a : Fr) : (ofScalar a : G) = multiple a.val generator := rfl

@[simp] theorem ofScalar_zero : (ofScalar 0 : G) = zero :=
  LawfulCurveGroup.multiple_zero

theorem ofScalar_one : (ofScalar 1 : G) = generator :=
  LawfulCurveGroup.multiple_one

theorem ofScalar_injective : Function.Injective (ofScalar : Fr → G) := by
  intro a b h
  have congruent := (LawfulCurveGroup.multiple_eq_iff _ _).1 h
  apply Residue.ext
  rwa [Nat.ModEq, Nat.mod_eq_of_lt a.isLt, Nat.mod_eq_of_lt b.isLt] at congruent

@[simp] theorem add_ofScalar (a b : Fr) :
    add (ofScalar a) (ofScalar b) = (ofScalar (a + b) : G) := by
  rw [ofScalar_eq_multiple, ofScalar_eq_multiple, LawfulCurveGroup.add_multiple,
    multiple_eq_ofScalar, Nat.cast_add, Residue.cast_val, Residue.cast_val]

@[simp] theorem neg_ofScalar (a : Fr) : neg (ofScalar a) = (ofScalar (-a) : G) := by
  obtain ⟨b, negative, sum⟩ := LawfulCurveGroup.neg_multiple (G := G) a.val
  rw [ofScalar_eq_multiple, negative, multiple_eq_ofScalar]
  rw [LawfulCurveGroup.add_multiple, multiple_eq_ofScalar, ← ofScalar_zero] at sum
  have opposite := ofScalar_injective sum
  rw [Nat.cast_add, Residue.cast_val] at opposite
  rw [eq_neg_of_add_eq_zero_right opposite]

@[simp] theorem scale_ofScalar (k a : Fr) : scale k (ofScalar a) = (ofScalar (k * a) : G) := by
  rw [scale, ofScalar_eq_multiple, LawfulCurveGroup.multiple_multiple, multiple_eq_ofScalar,
    Nat.cast_mul, Residue.cast_val, Residue.cast_val]

/-- A combination of points is the point of the combination of their scalars. -/
theorem combination_ofScalar (ks qs : List Fr) {n : Nat} (h : ks.length ≤ n) :
    combination ks (qs.map ofScalar) =
      (ofScalar (∑ i ∈ Finset.range n, ks.getD i 0 * qs.getD i 0) : G) := by
  have fold (c : Fr) :
      (ks.zip (qs.map ofScalar)).foldl (fun acc kp => add acc (scale kp.1 kp.2)) (ofScalar c) =
        (ofScalar (c + ∑ i ∈ Finset.range n, ks.getD i 0 * qs.getD i 0) : G) := by
    induction ks generalizing qs n c with
    | nil => simp
    | cons k ks ih =>
      cases qs with
      | nil => simp
      | cons q qs =>
        obtain ⟨n, rfl⟩ : ∃ m, n = m + 1 := ⟨n - 1, by rw [List.length_cons] at h; omega⟩
        rw [List.map_cons, List.zip_cons_cons, List.foldl_cons, scale_ofScalar, add_ofScalar,
          ih qs (Nat.le_of_succ_le_succ h), Finset.sum_range_succ']
        simp only [List.getD_cons_succ, List.getD_cons_zero]
        congr 1
        ring
  rw [combination, ← ofScalar_zero, fold, zero_add]

end Scalars

section Pairing

variable (G₁ G₂ : Type) {T : Type} [PairingGroups G₁ G₂ T]

open PairingGroups

/-- A function that is additive for the product of the target and not constant is injective. -/
theorem injective_of_combine {f : Fr → T} (additive : ∀ a b, f (a + b) = combine G₁ G₂ (f a) (f b))
    (proper : f 1 ≠ f 0) : Function.Injective f := by
  intro a b same
  by_contra differs
  have shift : f (a - b) = f 0 := by
    rw [sub_eq_add_neg, additive, same, ← additive, add_neg_cancel]
  have multiples (n : Nat) : f ((a - b) * n) = f 0 := by
    induction n with
    | zero => rw [Nat.cast_zero, mul_zero]
    | succ n ih => rw [Nat.cast_succ, mul_add, mul_one, additive, ih, shift, ← additive, add_zero]
  apply proper
  have whole := multiples (a - b)⁻¹.val
  rwa [Residue.cast_val, mul_inv_cancel₀ (sub_ne_zero.2 differs)] at whole

variable [CurveGroup G₁] [CurveGroup G₂]
variable [LawfulCurveGroup G₁] [LawfulCurveGroup G₂] [LawfulPairing G₁ G₂]

/-- Pairings of points are known by the products of their scalars. -/
theorem exists_target :
    ∃ target : Fr → T, Function.Injective target ∧
      (∀ a b, combine G₁ G₂ (target a) (target b) = target (a + b)) ∧
      ∀ a b, pair (ofScalar a : G₂) (ofScalar b : G₁) = .ok (target (b * a)) := by
  have defined (a b : Fr) : ∃ t : T, pair (ofScalar a : G₂) (ofScalar b : G₁) = .ok t :=
    LawfulPairing.pair_defined a.val b.val
  choose f hf using defined
  have left (a a' b : Fr) : f (a + a') b = combine G₁ G₂ (f a b) (f a' b) := by
    have sum := LawfulPairing.pair_add_left (hf a b) (hf a' b)
    rw [← ofScalar_eq_multiple, ← ofScalar_eq_multiple, ← ofScalar_eq_multiple, add_ofScalar,
      hf] at sum
    exact Except.ok.inj sum
  have right (a b b' : Fr) : f a (b + b') = combine G₁ G₂ (f a b) (f a b') := by
    have sum := LawfulPairing.pair_add_right (hf a b) (hf a b')
    rw [← ofScalar_eq_multiple, ← ofScalar_eq_multiple, ← ofScalar_eq_multiple, add_ofScalar,
      hf] at sum
    exact Except.ok.inj sum
  have proper : f 1 1 ≠ f 0 1 := by
    intro same
    have distinct : pair (generator : G₂) (generator : G₁) ≠ pair (zero : G₂) (generator : G₁) :=
      LawfulPairing.nondegenerate
    apply distinct
    rw [← ofScalar_one, ← ofScalar_one, ← ofScalar_zero, hf, hf, same]
  -- Nothing is known of the pairing with zero yet, so the induction is on positive multiples.
  have product (a : Fr) (n : Nat) : f a ((n + 1 : Nat) : Fr) = f (((n + 1 : Nat) : Fr) * a) 1 := by
    induction n with
    | zero => rw [Nat.cast_one, one_mul]
    | succ n ih => rw [Nat.cast_succ, right, ih, ← left, add_one_mul]
  refine ⟨fun k => f k 1, injective_of_combine G₁ G₂ (fun a b => left a b 1) proper,
    fun a b => (left a b 1).symm, fun a b => ?_⟩
  obtain ⟨n, rfl⟩ : ∃ n : Nat, ((n + 1 : Nat) : Fr) = b := by
    refine ⟨(b - 1).val, ?_⟩
    rw [Nat.cast_succ, Residue.cast_val, sub_add_cancel]
  rw [hf, product]

end Pairing

end CurveGroup

/-- The logarithms of points: scalars that are added, with the product for the pairing. Every two
lawful groups are a copy of this one, as far as the multiples of their generators go. -/
def Logarithm : Type := Fr

namespace Logarithm

instance : CommRing Logarithm := inferInstanceAs (CommRing Fr)

instance : Nontrivial Logarithm := inferInstanceAs (Nontrivial Fr)

instance : CurveGroup Logarithm where
  zero := 0
  generator := 1
  add x y := x + y
  neg x := -x
  multiple n x := n * x

instance : PairingGroups Logarithm Logarithm Logarithm where
  pair y x := .ok (y * x)
  combine x y := x + y
  decEq := inferInstanceAs (DecidableEq Fr)

instance : LawfulCurveGroup Logarithm where
  multiple_zero := by
    change ((0 : Nat) : Logarithm) * 1 = 0
    rw [Nat.cast_zero, zero_mul]
  multiple_one := by
    change ((1 : Nat) : Logarithm) * 1 = 1
    rw [Nat.cast_one, one_mul]
  add_multiple a b := by
    change (a * 1 + b * 1 : Logarithm) = ((a + b : Nat) : Logarithm) * 1
    rw [Nat.cast_add, add_mul]
  neg_multiple a := by
    refine ⟨(-(a : Fr)).val, ?_, ?_⟩
    · change -(a * 1 : Fr) = (((-(a : Fr)).val : Nat) : Fr) * 1
      rw [Residue.cast_val, mul_one, mul_one]
    · change (a * 1 + (((-(a : Fr)).val : Nat) : Fr) * 1 : Fr) = 0
      rw [Residue.cast_val, mul_one, mul_one, add_neg_cancel]
  multiple_multiple a b := by
    change (a * (b * 1) : Logarithm) = ((a * b : Nat) : Logarithm) * 1
    rw [Nat.cast_mul, mul_assoc]
  multiple_eq_iff a b := by
    change (a * 1 : Fr) = b * 1 ↔ a ≡ b [MOD scalarOrder]
    rw [mul_one, mul_one]
    exact Residue.cast_eq_cast_iff

instance : LawfulPairing Logarithm Logarithm where
  pair_defined _ _ := ⟨_, rfl⟩
  pair_add_left h h' := by
    cases h
    cases h'
    exact congrArg Except.ok (add_mul _ _ _)
  pair_add_right h h' := by
    cases h
    cases h'
    exact congrArg Except.ok (mul_add _ _ _)
  nondegenerate := by
    intro same
    have equal : (1 * 1 : Logarithm) = 0 * 1 := Except.ok.inj same
    rw [mul_one, mul_one] at equal
    exact one_ne_zero equal

end Logarithm

end Snark
