import Snark.Field.Modular

/-!
# Residues

The residues modulo `m`, each kept as its least representative. Addition, multiplication and
powers are those of the ring of integers modulo `m`; `inv` is the inverse where there is one, and
takes zero to zero, so that a division by zero gives zero.
-/

namespace Snark

/-- A number that there are residues for. -/
class Modulus (m : Nat) : Prop where
  pos : 0 < m

/-- A residue modulo `m`. -/
structure Residue (m : Nat) where
  /-- The least representative. -/
  val : Nat
  isLt : val < m
  deriving DecidableEq

namespace Residue

variable {m : Nat}

@[ext] theorem ext {a b : Residue m} (h : a.val = b.val) : a = b := by
  cases a
  cases b
  cases h
  rfl

instance : Repr (Residue m) where
  reprPrec a n := reprPrec a.val n

variable [Modulus m]

/-- The residue of a natural number. -/
def ofNat (n : Nat) : Residue m := ⟨n % m, Nat.mod_lt _ Modulus.pos⟩

/-- The residue of an integer. -/
def ofInt (n : Int) : Residue m :=
  ⟨(n % m).toNat, by
    have pos : (0 : Int) < m := Int.natCast_pos.2 Modulus.pos
    have := Int.emod_nonneg n (Int.ne_of_gt pos)
    have := Int.emod_lt_of_pos n pos
    omega⟩

instance : Zero (Residue m) := ⟨ofNat 0⟩

instance : One (Residue m) := ⟨ofNat 1⟩

instance : Inhabited (Residue m) := ⟨0⟩

instance : Add (Residue m) := ⟨fun a b => ofNat (a.val + b.val)⟩

instance : Mul (Residue m) := ⟨fun a b => ofNat (a.val * b.val)⟩

instance : Neg (Residue m) := ⟨fun a => ofNat (m - a.val)⟩

instance : Sub (Residue m) := ⟨fun a b => ofNat (a.val + (m - b.val))⟩

/-- The power with a natural exponent. -/
def pow (a : Residue m) (n : Nat) : Residue m :=
  ⟨Modular.power m a.val n, Nat.mod_lt _ Modulus.pos⟩

/-- The inverse, and zero for zero. -/
def inv (a : Residue m) : Residue m :=
  ofInt (Modular.bezout m a.val 0 1).2

instance : Div (Residue m) := ⟨fun a b => a * inv b⟩

@[simp] theorem val_ofNat (n : Nat) : (ofNat n : Residue m).val = n % m := rfl

@[simp] theorem val_zero : (0 : Residue m).val = 0 := Nat.zero_mod m

theorem val_one : (1 : Residue m).val = 1 % m := rfl

theorem val_add (a b : Residue m) : (a + b).val = (a.val + b.val) % m := rfl

theorem val_mul (a b : Residue m) : (a * b).val = a.val * b.val % m := rfl

theorem val_neg (a : Residue m) : (-a).val = (m - a.val) % m := rfl

theorem val_sub (a b : Residue m) : (a - b).val = (a.val + (m - b.val)) % m := rfl

theorem div_eq (a b : Residue m) : a / b = a * inv b := rfl

@[simp] theorem ofNat_val (a : Residue m) : ofNat a.val = a :=
  ext (Nat.mod_eq_of_lt a.isLt)

end Residue

end Snark
