import Mathlib.Algebra.Field.ZMod
import Mathlib.Data.Fintype.Card
import Snark.Field.Residue
import Snark.Proofs.Field.Inverse

/-!
# The ring of residues

Residues modulo `m` embed into the integers modulo `m` of the mathematical library, and the
operations on least representatives are those of that ring. Residues therefore form a commutative
ring, and a field if `m` is prime. The instances keep the operations of the residues themselves, so
a law of rings applies to them as they stand.
-/

namespace Snark

namespace Modulus

variable {m : Nat}

instance neZero [Modulus m] : NeZero m := ⟨Nat.ne_of_gt pos⟩

instance ofPrime [p : Fact m.Prime] : Modulus m := ⟨p.out.pos⟩

end Modulus

namespace Residue

variable {m : Nat}

/-- The class of a residue. -/
def toZMod (a : Residue m) : ZMod m := (a.val : ZMod m)

theorem toZMod_injective : Function.Injective (toZMod (m := m)) := by
  intro a b h
  apply ext
  have congruent := (ZMod.natCast_eq_natCast_iff' _ _ _).1 h
  rwa [Nat.mod_eq_of_lt a.isLt, Nat.mod_eq_of_lt b.isLt] at congruent

variable [Modulus m]

instance : NatCast (Residue m) := ⟨ofNat⟩

instance : IntCast (Residue m) := ⟨ofInt⟩

instance : Pow (Residue m) Nat := ⟨pow⟩

instance : SMul Nat (Residue m) := ⟨fun n a => ofNat n * a⟩

instance : SMul Int (Residue m) := ⟨fun n a => ofInt n * a⟩

instance : Inv (Residue m) := ⟨inv⟩

theorem toZMod_ofNat (n : Nat) : toZMod (ofNat n : Residue m) = n := by
  rw [toZMod, val_ofNat, ZMod.natCast_mod]

theorem toZMod_ofInt (n : Int) : toZMod (ofInt n : Residue m) = n := by
  have nonneg : 0 ≤ n % m := Int.emod_nonneg n (Int.ofNat_ne_zero.2 (NeZero.ne m))
  calc toZMod (ofInt n : Residue m)
      _ = (((n % m).toNat : Int) : ZMod m) := by rw [Int.cast_natCast]; rfl
      _ = n := by rw [Int.toNat_of_nonneg nonneg, ZMod.intCast_mod]

theorem toZMod_add (a b : Residue m) : toZMod (a + b) = toZMod a + toZMod b := by
  rw [toZMod, val_add, ZMod.natCast_mod, Nat.cast_add]
  rfl

theorem toZMod_mul (a b : Residue m) : toZMod (a * b) = toZMod a * toZMod b := by
  rw [toZMod, val_mul, ZMod.natCast_mod, Nat.cast_mul]
  rfl

theorem toZMod_neg (a : Residue m) : toZMod (-a) = -toZMod a := by
  rw [toZMod, val_neg, ZMod.natCast_mod, Nat.cast_sub a.isLt.le, ZMod.natCast_self, zero_sub]
  rfl

theorem toZMod_sub (a b : Residue m) : toZMod (a - b) = toZMod a - toZMod b := by
  rw [toZMod, val_sub, ZMod.natCast_mod, Nat.cast_add, Nat.cast_sub b.isLt.le, ZMod.natCast_self,
    zero_sub, ← sub_eq_add_neg]
  rfl

theorem toZMod_pow (a : Residue m) (n : Nat) : toZMod (a ^ n) = toZMod a ^ n := by
  have power : (a ^ n).val = a.val ^ n % m := Modular.power_eq m a.val n
  rw [toZMod, power, ZMod.natCast_mod, Nat.cast_pow]
  rfl

instance : CommRing (Residue m) :=
  toZMod_injective.commRing toZMod
    (by rw [← Nat.cast_zero]; exact toZMod_ofNat 0) (by rw [← Nat.cast_one]; exact toZMod_ofNat 1)
    toZMod_add toZMod_mul toZMod_neg toZMod_sub
    (fun n a => by rw [nsmul_eq_mul, ← toZMod_ofNat]; exact toZMod_mul _ _)
    (fun n a => by rw [zsmul_eq_mul, ← toZMod_ofInt]; exact toZMod_mul _ _)
    toZMod_pow toZMod_ofNat toZMod_ofInt

theorem ofInt_eq_cast (n : Int) : (ofInt n : Residue m) = n := rfl

theorem pow_eq (a : Residue m) (n : Nat) : a.pow n = a ^ n := rfl

/-- A residue is the cast of its least representative. -/
@[simp] theorem cast_val (a : Residue m) : ((a.val : Nat) : Residue m) = a := ofNat_val a

theorem cast_eq_cast_iff {a b : Nat} : (a : Residue m) = b ↔ a % m = b % m := by
  constructor
  · intro h
    exact congrArg val h
  · intro h
    exact ext h

/-- The inverse of a residue prime to the modulus. -/
theorem mul_inv_of_coprime {a : Residue m} (h : Nat.gcd m a.val = 1) : a * inv a = 1 := by
  have product := Modular.bezout_mul_modEq m a.val
  rw [h, ← ZMod.intCast_eq_intCast_iff, Int.cast_mul, Int.cast_natCast, Int.cast_natCast] at product
  apply toZMod_injective
  calc toZMod (a * inv a)
      _ = ((1 : Nat) : ZMod m) := by rw [toZMod_mul, mul_comm, inv, toZMod_ofInt]; exact product
      _ = toZMod 1 := (toZMod_ofNat 1).symm

theorem inv_zero' : inv (0 : Residue m) = 0 := by
  have unused : Modular.bezout m 0 0 1 = (m, 0) := by
    rw [Modular.bezout, if_pos rfl]
  rw [inv, val_zero, unused]
  exact Int.cast_zero

instance : Fintype (Residue m) :=
  Fintype.ofEquiv (Fin m)
    { toFun := fun i => ⟨i.val, i.isLt⟩
      invFun := fun a => ⟨a.val, a.isLt⟩ }

omit [Modulus m] in
theorem card : Fintype.card (Residue m) = m :=
  (Fintype.ofEquiv_card _).trans (Fintype.card_fin m)

section Field

variable {p : Nat} [Fact p.Prime]

instance : Nontrivial (Residue p) := by
  refine ⟨0, 1, fun h => ?_⟩
  have equal := congrArg val h
  rw [val_zero, val_one, Nat.mod_eq_of_lt (Fact.out : p.Prime).one_lt] at equal
  exact absurd equal (by decide)

theorem mul_inv_of_ne_zero {a : Residue p} (h : a ≠ 0) : a * inv a = 1 := by
  apply mul_inv_of_coprime
  rw [← Nat.Coprime, Nat.Prime.coprime_iff_not_dvd Fact.out]
  intro divides
  exact h (ext (by rw [val_zero, Nat.eq_zero_of_dvd_of_lt divides a.isLt]))

instance : Field (Residue p) where
  inv := inv
  div a b := a / b
  div_eq_mul_inv := div_eq
  mul_inv_cancel _ := mul_inv_of_ne_zero
  inv_zero := inv_zero'
  nnqsmul := _
  nnqsmul_def := fun _ _ => rfl
  qsmul := _
  qsmul_def := fun _ _ => rfl

end Field

end Residue

end Snark
