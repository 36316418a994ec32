import Snark.Abi.Word
import Snark.Field.Residue
import Snark.Proofs.Bytes

/-!
# Words and the numbers in them

Bytes hold numbers exactly if they are the words of these numbers, one after another. The words of
the residues modulo `m` are those whose numbers are below `m`.
-/

namespace Snark.Abi

theorem word_toNatBE {bs : Bytes} (h : bs.length = wordSize) : word bs.toNatBE = bs := by
  rw [word, ← h, Bytes.ofNatBE_toNatBE]

theorem toNatBE_word {n : Nat} (h : n < Bytes.capacity wordSize) : (word n).toNatBE = n :=
  Bytes.toNatBE_ofNatBE_of_lt h

theorem toNatBE_lt {bs : Bytes} (h : bs.length = wordSize) :
    bs.toNatBE < Bytes.capacity wordSize := by
  rw [← h, ← List.length_reverse, Bytes.toNatBE]
  exact Bytes.toNat_lt _

section Words

variable {count : Nat} {bs : Bytes} {ns : List Nat}

theorem length_flatMap_word (ns : List Nat) :
    (ns.flatMap word).length = ns.length * wordSize := by
  rw [List.length_flatMap]
  simp

/-- The words of numbers hold the numbers. -/
theorem wordsAt_flatMap_word (h : ∀ n ∈ ns, n < Bytes.capacity wordSize) :
    wordsAt ns.length (ns.flatMap word) = ns := by
  induction ns with
  | nil => rfl
  | cons n ns ih =>
    obtain ⟨fits, each⟩ := List.forall_mem_cons.1 h
    rw [List.flatMap_cons, List.length_cons, wordsAt, List.take_left' (length_word n),
      List.drop_left' (length_word n), ih each, toNatBE_word fits]

/-- Whole words are the words of the numbers that they hold. -/
theorem flatMap_word_wordsAt (h : bs.length = count * wordSize) :
    (wordsAt count bs).flatMap word = bs := by
  induction count generalizing bs with
  | zero => rw [wordsAt, List.flatMap_nil, List.eq_nil_of_length_eq_zero (by omega : bs.length = 0)]
  | succ count ih =>
    rw [Nat.succ_mul] at h
    rw [wordsAt, List.flatMap_cons, word_toNatBE (List.length_take_of_le (by omega)),
      ih (by rw [List.length_drop]; omega), List.take_append_drop]

theorem length_wordsAt (count : Nat) (bs : Bytes) : (wordsAt count bs).length = count := by
  induction count generalizing bs with
  | zero => rfl
  | succ count ih => rw [wordsAt, List.length_cons, ih]

theorem wordsAt_lt (h : bs.length = count * wordSize) :
    ∀ n ∈ wordsAt count bs, n < Bytes.capacity wordSize := by
  induction count generalizing bs with
  | zero => exact fun n none => by cases none
  | succ count ih =>
    rw [Nat.succ_mul] at h
    rw [wordsAt]
    exact List.forall_mem_cons.2 ⟨toNatBE_lt (List.length_take_of_le (by omega)),
      ih (by rw [List.length_drop]; omega)⟩

/-- Bytes hold numbers exactly if they are the words of these numbers. -/
theorem words_eq_ok_iff : words count bs = .ok ns ↔
    ns.length = count ∧ (∀ n ∈ ns, n < Bytes.capacity wordSize) ∧ ns.flatMap word = bs := by
  constructor
  · intro h
    rw [words] at h
    split_ifs at h with length
    cases h
    exact ⟨length_wordsAt count bs, wordsAt_lt length, flatMap_word_wordsAt length⟩
  · rintro ⟨rfl, small, rfl⟩
    rw [words, if_pos (length_flatMap_word ns), wordsAt_flatMap_word small]

/-- The number in a word is short enough to be written. -/
theorem isWritable_of_lt {n : Nat} (h : n < Bytes.capacity wordSize) :
    Text.Numeral.isWritable n = true := by
  have short : Bytes.capacity wordSize ≤ Text.Numeral.bound := by decide +kernel
  exact decide_eq_true (Nat.lt_of_lt_of_le h short)

theorem isWritable_of_words (h : words count bs = .ok ns) :
    ∀ n ∈ ns, Text.Numeral.isWritable n = true :=
  fun n hn => isWritable_of_lt ((words_eq_ok_iff.1 h).2.1 n hn)

/-- Every word of some bytes holds a number below a bound. -/
def WordsBelow (bound : Nat) (bs : Bytes) : Prop :=
  bs.EachBlock wordSize fun w => w.toNatBE < bound

theorem wordsBelow_flatMap_word {bound : Nat} (h : ∀ n ∈ ns, n < Bytes.capacity wordSize) :
    WordsBelow bound (ns.flatMap word) ↔ ∀ n ∈ ns, n < bound := by
  have blocks : ∀ block ∈ ns.map word, block.length = wordSize * 1 :=
    List.forall_mem_map.2 fun n _ => length_word n
  rw [WordsBelow, List.flatMap_def, Bytes.eachBlock_flatten (by decide) blocks,
    List.forall_mem_map]
  refine forall₂_congr fun n hn => ?_
  rw [Bytes.eachBlock_of_length (by decide) (length_word n), toNatBE_word (h n hn)]

end Words

section Residues

variable {m : Nat}

/-- The words of residues. -/
def residueWords (rs : List (Residue m)) : Bytes := rs.flatMap fun x => word x.val

theorem residueWords_eq (rs : List (Residue m)) :
    residueWords rs = (rs.map Residue.val).flatMap word := by
  rw [residueWords, List.flatMap_map]

/-- The words of residues hold their least representatives. -/
theorem words_residueWords (room : m ≤ Bytes.capacity wordSize) (rs : List (Residue m)) :
    words rs.length (residueWords rs) = .ok (rs.map Residue.val) := by
  have small : ∀ n ∈ rs.map Residue.val, n < Bytes.capacity wordSize :=
    List.forall_mem_map.2 fun x _ => Nat.lt_of_lt_of_le x.isLt room
  exact words_eq_ok_iff.2 ⟨List.length_map _, small, (residueWords_eq rs).symm⟩

/-- Whole words are the words of residues exactly if each holds a number below the modulus. -/
theorem exists_residueWords_iff (room : m ≤ Bytes.capacity wordSize) {count : Nat} {bs : Bytes} :
    (∃ rs : List (Residue m), rs.length = count ∧ residueWords rs = bs) ↔
      bs.length = count * wordSize ∧ WordsBelow m bs := by
  constructor
  · rintro ⟨rs, rfl, rfl⟩
    have below : ∀ n ∈ rs.map Residue.val, n < m := List.forall_mem_map.2 fun x _ => x.isLt
    rw [residueWords_eq, length_flatMap_word, List.length_map,
      wordsBelow_flatMap_word fun n hn => Nat.lt_of_lt_of_le (below n hn) room]
    exact ⟨rfl, below⟩
  · rintro ⟨length, below⟩
    rw [← flatMap_word_wordsAt length, wordsBelow_flatMap_word (wordsAt_lt length)] at below
    refine ⟨(wordsAt count bs).pmap Residue.mk below, ?_, ?_⟩
    · rw [List.length_pmap, length_wordsAt]
    · rw [residueWords_eq, List.map_pmap, List.pmap_eq_map, List.map_id',
        flatMap_word_wordsAt length]

end Residues

end Snark.Abi
