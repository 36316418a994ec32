import Mathlib.Algebra.Ring.Nat
import Mathlib.Data.List.Basic
import Snark.Bytes

/-!
# Bytes in blocks

Numbers of a known width and byte strings that are blocks of one width after another.
-/

namespace Snark.Bytes

variable {bs cs : Bytes} {n : Nat}

theorem ofNat_toNat_of_length (h : bs.length = n) : ofNat n bs.toNat = bs := by
  subst h
  exact ofNat_toNat bs

theorem toNat_lt_of_length (h : bs.length = n) : bs.toNat < capacity n := by
  subst h
  exact toNat_lt bs

/-- Numbers that fit a width are told apart by their bytes. -/
theorem eq_of_ofNat_eq {m width : Nat} (hm : m < capacity width) (hn : n < capacity width)
    (h : ofNat width m = ofNat width n) : m = n := by
  rw [← toNat_ofNat_of_lt hm, h, toNat_ofNat_of_lt hn]

/-- An integer has a field exactly if it is a number that fits it. -/
theorem field?_eq_ok_iff {width : Nat} {i : Int} :
    field? width i = .ok bs ↔ (0 ≤ i ∧ i < capacity width) ∧ bs = ofNat width i.toNat := by
  rw [field?]
  by_cases fits : 0 ≤ i ∧ i < capacity width
  · simp [fits, eq_comm]
  · simp [fits]

/-- Bytes that spell zero are zeros. -/
theorem eq_replicate_of_toNat_eq_zero (h : bs.toNat = 0) : bs = List.replicate bs.length 0 := by
  induction bs with
  | nil => rfl
  | cons b bs ih =>
    rw [toNat] at h
    have low : b = 0 := UInt8.toNat_inj.1 (by rw [UInt8.toNat_zero]; omega)
    rw [List.length_cons, List.replicate_succ, ← ih (by omega), low]

/-- Every whole block of the given width has a property. -/
def EachBlock (width : Nat) (good : Bytes → Prop) (bs : Bytes) : Prop :=
  ∀ i, width * (i + 1) ≤ bs.length → good ((bs.drop (width * i)).take width)

section EachBlock

variable {width : Nat} {good : Bytes → Prop}

theorem eachBlock_of_length (pos : 0 < width) (h : bs.length = width) :
    EachBlock width good bs ↔ good bs := by
  constructor
  · intro each
    have first := each 0 (by omega)
    rwa [mul_zero, List.drop_zero, ← h, List.take_length] at first
  · intro hbs i hi
    obtain rfl : i = 0 := by
      by_contra nonzero
      have : width * 2 ≤ width * (i + 1) := Nat.mul_le_mul_left width (by omega)
      omega
    rwa [mul_zero, List.drop_zero, ← h, List.take_length]

/-- Blocks of a string are those of a first part of whole blocks and those of the rest. -/
theorem eachBlock_append {k : Nat} (h : bs.length = width * k) :
    EachBlock width good (bs ++ cs) ↔ EachBlock width good bs ∧ EachBlock width good cs := by
  have first (i : Nat) (hi : width * (i + 1) ≤ bs.length) :
      ((bs ++ cs).drop (width * i)).take width = (bs.drop (width * i)).take width := by
    rw [mul_add, mul_one] at hi
    rw [List.drop_append_of_le_length (by omega), List.take_append_of_le_length]
    rw [List.length_drop]
    omega
  have second (i : Nat) :
      ((bs ++ cs).drop (width * (k + i))).take width = (cs.drop (width * i)).take width := by
    rw [mul_add, ← h, ← List.drop_drop, List.drop_left]
  constructor
  · intro each
    constructor
    · intro i hi
      rw [← first i hi]
      exact each i (Nat.le_trans hi (by rw [List.length_append]; omega))
    · intro i hi
      rw [← second i]
      apply each
      rw [List.length_append, h, add_assoc, mul_add]
      omega
  · rintro ⟨hbs, hcs⟩ i hi
    by_cases inside : i < k
    · have whole : width * (i + 1) ≤ bs.length := by
        rw [h]
        exact Nat.mul_le_mul_left width inside
      rw [first i whole]
      exact hbs i whole
    · obtain ⟨j, rfl⟩ := Nat.exists_eq_add_of_le (Nat.not_lt.1 inside)
      rw [second]
      apply hcs
      rw [List.length_append, h, add_assoc, mul_add] at hi
      omega

/-- Blocks that are themselves made of blocks. -/
theorem eachBlock_flatten (pos : 0 < width) {k : Nat} {blocks : List Bytes}
    (h : ∀ block ∈ blocks, block.length = width * k) :
    EachBlock width good blocks.flatten ↔ ∀ block ∈ blocks, EachBlock width good block := by
  induction blocks with
  | nil =>
    constructor
    · intro _ block member
      cases member
    · rintro - i hi
      exact absurd hi (Nat.not_le.2 (Nat.mul_pos pos (Nat.succ_pos i)))
  | cons block blocks ih =>
    rw [List.flatten_cons, eachBlock_append (h block List.mem_cons_self), List.forall_mem_cons,
      ih fun other member => h other (List.mem_cons_of_mem block member)]

end EachBlock

end Snark.Bytes
