import Mathlib.Algebra.Ring.Int.Parity
import Mathlib.RingTheory.Coprime.Lemmas
import Snark.Montgomery
import Snark.Proofs.Bytes
import Snark.Proofs.Except
import Snark.Proofs.Field.Algebra

/-!
# Montgomery form of residues

The radix is a unit modulo every odd number. Conversion in either direction multiplies by a power
of it and takes the least representative, so that rounds add up and undo each other as the
exponents do.
-/

namespace Snark

namespace Residue

variable {m : Nat} [Modulus m]

theorem intCast_eq_intCast_iff {a b : Int} : (a : Residue m) = b ↔ a ≡ b [ZMOD m] := by
  rw [← toZMod_injective.eq_iff, ← ofInt_eq_cast, ← ofInt_eq_cast, toZMod_ofInt, toZMod_ofInt,
    ZMod.intCast_eq_intCast_iff]

/-- The least representative of an integer is its remainder. -/
theorem val_intCast (n : Int) : ((n : Residue m).val : Int) = Int.fmod n m := by
  have pos : (0 : Int) < m := Int.natCast_pos.2 Modulus.pos
  rw [Int.fmod_eq_emod_of_nonneg n pos.le]
  exact Int.toNat_of_nonneg (Int.emod_nonneg n pos.ne')

theorem val_pow_cast (b n : Nat) : ((b : Residue m) ^ n).val = Modular.power m b n := by
  have power : ((b : Residue m) ^ n).val = Modular.power m (b % m) n := rfl
  rw [power, Modular.power_eq, Modular.power_eq]
  exact (Nat.pow_mod b n m).symm

/-- An integer whose residue is a unit is prime to the modulus. -/
theorem gcd_eq_one_of_unit (u : (Residue m)ˣ) {n : Int} (h : (n : Residue m) = u) :
    Int.gcd n m = 1 := by
  have product : ((n * ((u⁻¹ : (Residue m)ˣ) : Residue m).val : Int) : Residue m) = (1 : Int) := by
    push_cast
    rw [h, cast_val, Units.mul_inv]
  obtain ⟨d, hd⟩ := (intCast_eq_intCast_iff.1 product).dvd
  rw [← Int.isCoprime_iff_gcd_eq_one]
  refine ⟨((u⁻¹ : (Residue m)ˣ) : Residue m).val, d, ?_⟩
  rw [mul_comm, mul_comm d, ← hd]
  ring

/-- A number prime to the modulus is a unit. -/
theorem isUnit_of_coprime {n : Nat} (h : Nat.Coprime m n) : IsUnit (n : Residue m) := by
  apply IsUnit.of_mul_eq_one (inv (n : Residue m))
  apply mul_inv_of_coprime
  change Nat.gcd m (n % m) = 1
  rw [Nat.gcd_comm, ← Nat.gcd_rec]
  exact h

end Residue

namespace Modular

variable {m : Nat} [Modulus m]

/-- A power of a unit is found whatever the sign of the exponent. -/
theorem power?_eq (u : (Residue m)ˣ) {base : Int} (h : (base : Residue m) = u) (e : Int) :
    power? m base e = .ok (((u ^ e : (Residue m)ˣ) : Residue m).val : Int) := by
  have pos : 0 < m := Modulus.pos
  have natural (b n : Nat) : Int.fmod (power m b n) m = (((b : Residue m) ^ n).val : Int) := by
    rw [← Residue.val_pow_cast, Int.fmod_eq_emod_of_nonneg _ (Int.natCast_nonneg m),
      Int.emod_eq_of_lt (Int.natCast_nonneg _) (Int.ofNat_lt.2 (Residue.isLt _))]
  rw [power?, if_neg (Int.natCast_ne_zero.2 pos.ne'), Int.natAbs_natCast]
  by_cases negative : e < 0
  · obtain ⟨b, found, -, inverse⟩ := exists_inverse? pos (Residue.gcd_eq_one_of_unit u h)
    have hb : (b : Residue m) = (u⁻¹ : (Residue m)ˣ) := by
      rw [← Residue.intCast_eq_intCast_iff] at inverse
      push_cast at inverse
      rw [← Units.mul_left_inj u, Units.inv_mul, ← h, inverse]
    have exponent : e = -(e.natAbs : Int) := by omega
    simp only [if_pos negative, found, natural, hb]
    rw [exponent, zpow_neg, ← inv_zpow, zpow_natCast, Units.val_pow_eq_pow_val,
      Int.natAbs_neg, Int.natAbs_natCast]
  · have hb : (((base % m).toNat : Nat) : Residue m) = u := by
      rw [← h]
      apply Residue.ext
      exact Nat.mod_eq_of_lt (by have := Int.emod_lt_of_pos base (Int.natCast_pos.2 pos); omega)
    have exponent : e = (e.natAbs : Int) := by omega
    simp only [if_neg negative, natural, hb]
    rw [exponent, zpow_natCast, Units.val_pow_eq_pow_val, Int.natAbs_natCast]

end Modular

namespace Montgomery

variable {m width : Nat} [Modulus m]

theorem isUnit_radix (hm : Odd m) (width : Nat) : IsUnit ((radix width : Nat) : Residue m) :=
  Residue.isUnit_of_coprime
    (Nat.Coprime.pow_right width ((Nat.coprime_pow_right_iff (by decide) m 2).2
      (Nat.coprime_two_right.2 hm) : Nat.Coprime m (2 ^ 8)))

variable {R : (Residue m)ˣ}

theorem cast_residue (hR : ((radix width : Nat) : Residue m) = R) :
    ((residue m width : Int) : Residue m) = R := by
  rw [← hR, residue_eq, Int.natAbs_natCast, Int.cast_natCast, Residue.cast_eq_cast_iff,
    Nat.mod_mod]

/-- Conversion multiplies by a power of the radix. -/
theorem encode_eq (hR : ((radix width : Nat) : Residue m) = R) (rounds v : Int) :
    encode m width rounds v =
      .ok (((v : Residue m) * ((R ^ rounds : (Residue m)ˣ) : Residue m)).val : Int) := by
  have nonzero : (m : Int) ≠ 0 := Int.natCast_ne_zero.2 (Modulus.pos (m := m)).ne'
  rw [encode, if_neg nonzero, Modular.power?_eq R (cast_residue hR)]
  simp only [Except.pure_eq_ok, Except.ok_bind]
  rw [← Residue.val_intCast, Int.cast_mul, Int.cast_natCast, Residue.cast_val]

/-- Conversion back divides by the same power. -/
theorem decode_eq (hR : ((radix width : Nat) : Residue m) = R) (rounds raw : Int) :
    decode m width rounds raw =
      .ok (((raw : Residue m) * ((R ^ (-rounds) : (Residue m)ˣ) : Residue m)).val : Int) := by
  have nonzero : (m : Int) ≠ 0 := Int.natCast_ne_zero.2 (Modulus.pos (m := m)).ne'
  have inverse : (((((R ^ (-1 : Int) : (Residue m)ˣ) : Residue m).val : Nat) : Int) : Residue m) =
      (R⁻¹ : (Residue m)ˣ) := by
    rw [Int.cast_natCast, Residue.cast_val, zpow_neg_one]
  rw [decode, if_neg nonzero, Modular.power?_eq R (cast_residue hR)]
  simp only [Except.pure_eq_ok, Except.ok_bind]
  rw [Modular.power?_eq R⁻¹ inverse, Except.ok_bind, ← Residue.val_intCast, Int.cast_mul,
    Int.cast_natCast, Residue.cast_val, inv_zpow']

/-- The bytes that a residue is stored in. -/
def stored (R : (Residue m)ˣ) (width : Nat) (rounds : Int) (x : Residue m) : Bytes :=
  Bytes.ofNat width (x * ((R ^ rounds : (Residue m)ˣ) : Residue m)).val

/-- The residue that is stored in some bytes. -/
def unstored (R : (Residue m)ˣ) (rounds : Int) (bs : Bytes) : Residue m :=
  (bs.toNat : Residue m) * ((R ^ (-rounds) : (Residue m)ˣ) : Residue m)

section Stored

variable (R) {rounds : Int}

@[simp] theorem length_stored (rounds : Int) (x : Residue m) :
    (stored R width rounds x).length = width :=
  Bytes.length_ofNat ..

theorem toNat_stored (fits : m ≤ Bytes.capacity width) (x : Residue m) :
    (stored R width rounds x).toNat = (x * ((R ^ rounds : (Residue m)ˣ) : Residue m)).val :=
  Bytes.toNat_ofNat_of_lt ((Residue.isLt _).trans_le fits)

/-- What is stored is a least representative. -/
theorem toNat_stored_lt (fits : m ≤ Bytes.capacity width) (x : Residue m) :
    (stored R width rounds x).toNat < m := by
  rw [toNat_stored R fits]
  exact Residue.isLt _

theorem unstored_stored (fits : m ≤ Bytes.capacity width) (x : Residue m) :
    unstored R rounds (stored R width rounds x) = x := by
  rw [unstored, toNat_stored R fits, Residue.cast_val, mul_assoc, ← Units.val_mul, ← zpow_add,
    add_neg_cancel, zpow_zero, Units.val_one, mul_one]

/-- A least representative is what its residue is stored in. -/
theorem stored_unstored {bs : Bytes} (length : bs.length = width) (least : bs.toNat < m) :
    stored R width rounds (unstored R rounds bs) = bs := by
  have value : ((bs.toNat : Nat) : Residue m).val = bs.toNat := Nat.mod_eq_of_lt least
  rw [stored, unstored, mul_assoc, ← Units.val_mul, ← zpow_add, neg_add_cancel, zpow_zero,
    Units.val_one, mul_one, value, Bytes.ofNat_toNat_of_length length]

end Stored

section Rounds

/-- Conversion back is conversion by as many rounds below zero. -/
theorem decode_eq_encode (hR : ((radix width : Nat) : Residue m) = R) (rounds raw : Int) :
    decode m width rounds raw = encode m width (-rounds) raw := by
  rw [decode_eq hR, encode_eq hR]

/-- Rounds that follow one another add up. -/
theorem encode_bind_encode (hR : ((radix width : Nat) : Residue m) = R) (k j v : Int) :
    (encode m width k v >>= encode m width j) = encode m width (k + j) v := by
  rw [encode_eq hR, Except.ok_bind, encode_eq hR, encode_eq hR, Int.cast_natCast, Residue.cast_val,
    mul_assoc, ← Units.val_mul, ← zpow_add]

/-- Without a round there is only the reduction. -/
theorem encode_zero (hR : ((radix width : Nat) : Residue m) = R) (v : Int) :
    encode m width 0 v = .ok (v % m) := by
  rw [encode_eq hR, zpow_zero, Units.val_one, mul_one, Residue.val_intCast,
    Int.fmod_eq_emod_of_nonneg _ (Int.natCast_nonneg m)]

/-- Every round multiplies by the radix. -/
theorem encode_natCast (hR : ((radix width : Nat) : Residue m) = R) (n : Nat) (v : Int) :
    encode m width n v = .ok (v * (radix width : Int) ^ n % m) := by
  have product : ((v * (radix width : Int) ^ n : Int) : Residue m) =
      v * ((R ^ n : (Residue m)ˣ) : Residue m) := by
    rw [Int.cast_mul, Int.cast_pow, Int.cast_natCast, hR, Units.val_pow_eq_pow_val]
  rw [encode_eq hR, zpow_natCast, ← product, Residue.val_intCast,
    Int.fmod_eq_emod_of_nonneg _ (Int.natCast_nonneg m)]

theorem exists_encode (hR : ((radix width : Nat) : Residue m) = R) (rounds v : Int) :
    ∃ x, encode m width rounds v = .ok x ∧ 0 ≤ x ∧ x < m :=
  ⟨_, encode_eq hR rounds v, Int.natCast_nonneg _, Int.ofNat_lt.2 (Residue.isLt _)⟩

omit [Modulus m] in
/-- The radix has no inverse modulo an even number. -/
theorem decode_eq_error (hm : 0 < m) (even : Even m) (wide : 0 < width) (rounds raw : Int) :
    decode m width rounds raw = .error .notInvertible := by
  have nonzero : (m : Int) ≠ 0 := Int.natCast_ne_zero.2 hm.ne'
  have divides_radix : 2 ∣ radix width := dvd_pow (by decide : 2 ∣ 256) wide.ne'
  have common : 2 ∣ Int.gcd (residue m width) m := by
    rw [residue_eq, Int.natAbs_natCast, Int.gcd_natCast_natCast]
    exact Nat.dvd_gcd ((Nat.dvd_mod_iff even.two_dvd).2 divides_radix) even.two_dvd
  have shared : Int.gcd (residue m width) m ≠ 1 := by
    intro one
    rw [one] at common
    exact absurd common (by decide)
  have refused : Modular.power? m (residue m width) (-1) = .error .notInvertible := by
    rw [Modular.power?, if_neg nonzero, Int.natAbs_natCast]
    simp only [if_pos (by decide : (-1 : Int) < 0), Modular.inverse?_eq_none hm shared]
  rw [decode, if_neg nonzero, refused]
  rfl

/-- The rounds of conversion are a group that acts on the residues modulo an odd number: they take
integers to least representatives and add up, whatever their signs, and conversion back takes them
off again. Modulo an even number there is no conversion back. -/
theorem rounds_act (width : Nat) :
    (∀ m : Int, 1 ≤ m → Odd m → ∀ v k j : Int,
      (∃ x, encode m width k v = .ok x ∧ 0 ≤ x ∧ x < m) ∧
      (∃ x, decode m width k v = .ok x ∧ 0 ≤ x ∧ x < m) ∧
      (encode m width k v >>= decode m width j) = encode m width (k - j) v ∧
      (decode m width k v >>= encode m width j) = decode m width (k - j) v ∧
      (encode m width k v >>= decode m width k) = .ok (v % m) ∧
      (decode m width k v >>= encode m width k) = .ok (v % m) ∧
      ∀ n : Nat, encode m width n v = .ok (v * (2 ^ (8 * width)) ^ n % m)) ∧
    ∀ m : Int, 2 ≤ m → Even m → 1 ≤ width → ∀ raw rounds : Int,
      ∃ f, decode m width rounds raw = .error f ∧ f.kind = .value := by
  constructor
  · intro m positive odd v k j
    obtain ⟨m, rfl⟩ := Int.eq_ofNat_of_zero_le (by omega : 0 ≤ m)
    have : Modulus m := ⟨by omega⟩
    obtain ⟨R, hR⟩ := isUnit_radix ((Int.odd_coe_nat m).1 odd) width
    have hR := hR.symm
    have forth (k j : Int) :
        (encode m width k v >>= decode m width j) = encode m width (k - j) v := by
      rw [funext (decode_eq_encode hR j), encode_bind_encode hR, sub_eq_add_neg]
    have back (k j : Int) :
        (decode m width k v >>= encode m width j) = decode m width (k - j) v := by
      rw [decode_eq_encode hR, encode_bind_encode hR, decode_eq_encode hR, neg_sub, neg_add_eq_sub]
    refine ⟨exists_encode hR k v, ?_, forth k j, back k j, ?_, ?_, ?_⟩
    · rw [decode_eq_encode hR]
      exact exists_encode hR (-k) v
    · rw [forth, sub_self, encode_zero hR]
    · rw [back, sub_self, decode_eq_encode hR, neg_zero, encode_zero hR]
    · intro n
      have bits : (radix width : Int) = 2 ^ (8 * width) := by
        rw [pow_mul]
        exact Nat.cast_pow 256 width
      rw [encode_natCast hR, bits]
  · intro m large even wide raw rounds
    obtain ⟨m, rfl⟩ := Int.eq_ofNat_of_zero_le (by omega : 0 ≤ m)
    exact ⟨.notInvertible, decode_eq_error (by omega) ((Int.even_coe_nat m).1 even) wide rounds raw,
      rfl⟩

/-- Modulo 35 a byte has the radix 11: two rounds forth and back, a negative number of them, and a
number that is taken by its residue. Modulo 6 there is no way back. -/
theorem rounds_act_thirtyFive :
    encode 35 1 2 3 = .ok 13 ∧
    (encode 35 1 (-2) (-7) >>= decode 35 1 3) = encode 35 1 (-5) (-7) ∧
    (decode 35 1 (-2) (-7) >>= encode 35 1 3) = decode 35 1 (-5) (-7) ∧
    (decode 35 1 (-2) (-7) >>= encode 35 1 (-2)) = .ok 28 ∧
    ∃ f, decode 6 1 (-1) 5 = .error f ∧ f.kind = .value := by
  obtain ⟨odd, even⟩ := rounds_act 1
  obtain ⟨-, -, forth, back, -, undone, -⟩ := odd 35 (by decide) (by decide) (-7) (-2) 3
  obtain ⟨-, -, -, -, -, -, multiplied⟩ := odd 35 (by decide) (by decide) 3 0 0
  exact ⟨multiplied 2, forth, back, undone, even 6 (by decide) (by decide) le_rfl 5 (-1)⟩

end Rounds

end Montgomery

end Snark
