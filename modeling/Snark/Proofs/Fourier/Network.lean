import Mathlib.Tactic.Ring
import Snark.Fourier.Network
import Snark.Proofs.Fourier.Transform

/-!
# The transform in place is the transform

A round of butterflies works on each of its blocks alone. So what the rounds make of two lists that
stand one after the other is what they make of each, as long as the blocks are no longer than the
lists; the last round then joins the two results as the recursion joins the transforms of both
halves. The order by reversed indices is what brings the halves of even and of odd index one after
the other, at every depth of the recursion.
-/

namespace Snark.Fourier

section Digits

@[simp] theorem length_binaryDigits (k i : Nat) : (binaryDigits k i).length = k := by
  induction k generalizing i with
  | zero => rfl
  | succ k ih => rw [binaryDigits, List.length_cons, ih]

theorem ofBinaryDigits_binaryDigits {k i : Nat} (h : i < 2 ^ k) :
    ofBinaryDigits (binaryDigits k i) = i := by
  induction k generalizing i with
  | zero =>
    rw [pow_zero] at h
    simp [binaryDigits, ofBinaryDigits]
    omega
  | succ k ih =>
    rw [pow_succ] at h
    rw [binaryDigits, ofBinaryDigits, ih (by omega)]
    omega

theorem binaryDigits_ofBinaryDigits {bs : List Nat} (h : ∀ b ∈ bs, b < 2) :
    binaryDigits bs.length (ofBinaryDigits bs) = bs := by
  induction bs with
  | nil => rfl
  | cons b bs ih =>
    obtain ⟨digit, rest⟩ := List.forall_mem_cons.1 h
    have lowest : (b + 2 * ofBinaryDigits bs) % 2 = b := by omega
    have others : (b + 2 * ofBinaryDigits bs) / 2 = ofBinaryDigits bs := by omega
    rw [List.length_cons, ofBinaryDigits, binaryDigits, lowest, others, ih rest]

theorem lt_two_of_mem_binaryDigits {k i b : Nat} (h : b ∈ binaryDigits k i) : b < 2 := by
  induction k generalizing i with
  | zero => cases h
  | succ k ih =>
    obtain rfl | later := List.mem_cons.1 h
    · exact Nat.mod_lt i (by decide)
    · exact ih later

theorem ofBinaryDigits_lt {bs : List Nat} (h : ∀ b ∈ bs, b < 2) :
    ofBinaryDigits bs < 2 ^ bs.length := by
  induction bs with
  | nil => exact Nat.one_pos
  | cons b bs ih =>
    obtain ⟨digit, rest⟩ := List.forall_mem_cons.1 h
    have := ih rest
    rw [ofBinaryDigits, List.length_cons, pow_succ]
    omega

theorem binaryDigits_succ_last (k i : Nat) :
    binaryDigits (k + 1) i = binaryDigits k i ++ [i / 2 ^ k % 2] := by
  induction k generalizing i with
  | zero => simp [binaryDigits]
  | succ k ih =>
    rw [binaryDigits, ih, binaryDigits, List.cons_append, Nat.div_div_eq_div_mul, pow_succ']

theorem binaryDigits_add_two_pow (k i : Nat) : binaryDigits k (2 ^ k + i) = binaryDigits k i := by
  induction k generalizing i with
  | zero => rfl
  | succ k ih =>
    have lowest : (2 ^ (k + 1) + i) % 2 = i % 2 := by omega
    have others : (2 ^ (k + 1) + i) / 2 = 2 ^ k + i / 2 := by omega
    rw [binaryDigits, binaryDigits, lowest, others, ih]

end Digits

section Reversal

variable {k i : Nat}

theorem lt_two_of_mem_reverse : ∀ b ∈ (binaryDigits k i).reverse, b < 2 := by
  intro b hb
  exact lt_two_of_mem_binaryDigits (List.mem_reverse.1 hb)

theorem reverseBits_lt (k i : Nat) : reverseBits k i < 2 ^ k := by
  have bound := ofBinaryDigits_lt (lt_two_of_mem_reverse (k := k) (i := i))
  rwa [List.length_reverse, length_binaryDigits] at bound

/-- Reversing the digits twice leads back. -/
theorem reverseBits_reverseBits (h : i < 2 ^ k) : reverseBits k (reverseBits k i) = i := by
  have digits := binaryDigits_ofBinaryDigits (lt_two_of_mem_reverse (k := k) (i := i))
  rw [List.length_reverse, length_binaryDigits] at digits
  rw [reverseBits, reverseBits, digits, List.reverse_reverse, ofBinaryDigits_binaryDigits h]

/-- The indices of the first half are reversed to the even ones. -/
theorem reverseBits_succ_of_lt (h : i < 2 ^ k) : reverseBits (k + 1) i = 2 * reverseBits k i := by
  rw [reverseBits, binaryDigits_succ_last, List.reverse_append, Nat.div_eq_of_lt h]
  simp [ofBinaryDigits, reverseBits]

/-- The indices of the second half are reversed to the odd ones. -/
theorem reverseBits_succ_add (h : i < 2 ^ k) :
    reverseBits (k + 1) (2 ^ k + i) = 2 * reverseBits k i + 1 := by
  have highest : (2 ^ k + i) / 2 ^ k = 1 := by
    rw [Nat.add_div_left i (Nat.two_pow_pos k), Nat.div_eq_of_lt h]
  rw [reverseBits, binaryDigits_succ_last, List.reverse_append, highest, binaryDigits_add_two_pow]
  simp [ofBinaryDigits, reverseBits, Nat.add_comm]

end Reversal

section Reordering

/-- The elements in the order of their reversed indices. -/
def reversed (k : Nat) (cs : List Fr) : List Fr :=
  (List.range (2 ^ k)).map fun i => cs.getD (reverseBits k i) 0

theorem getD_set (xs : List Fr) (i p : Nat) (x : Fr) (h : i < xs.length) :
    (xs.set i x).getD p 0 = if p = i then x else xs.getD p 0 := by
  rw [List.getD_eq_getElem?_getD, List.getD_eq_getElem?_getD, List.getElem?_set]
  by_cases same : i = p
  · subst same
    simp [h]
  · rw [if_neg same, if_neg (Ne.symm same)]

@[simp] theorem length_exchange (i j : Nat) (xs : List Fr) :
    (exchange i j xs).length = xs.length := by
  simp [exchange]

theorem getD_exchange {i j : Nat} {xs : List Fr} (hi : i < xs.length) (hj : j < xs.length)
    (p : Nat) : (exchange i j xs).getD p 0 =
      if p = j then xs.getD i 0 else if p = i then xs.getD j 0 else xs.getD p 0 := by
  rw [exchange, getD_set _ _ _ _ (by simpa using hj), getD_set _ _ _ _ hi]

/-- The element at a position once all positions below `i` have been visited: an element is moved
when the smaller of its two indices is. -/
def visited (k i : Nat) (cs : List Fr) (p : Nat) : Fr :=
  if p < i ∨ reverseBits k p < i then cs.getD (reverseBits k p) 0 else cs.getD p 0

variable {k : Nat} {cs : List Fr}

/-- Visiting one more position moves at most the pair that it belongs to. -/
theorem visited_succ {i : Nat} {xs : List Fr} (hi : i < 2 ^ k) (count : xs.length = 2 ^ k)
    (h : ∀ p < 2 ^ k, xs.getD p 0 = visited k i cs p) :
    ∀ p < 2 ^ k, (if i < reverseBits k i then exchange i (reverseBits k i) xs else xs).getD p 0 =
      visited k (i + 1) cs p := by
  intro p hp
  have hj := reverseBits_lt k i
  have twice := reverseBits_reverseBits hi
  have twice' := reverseBits_reverseBits hp
  by_cases first : i < reverseBits k i
  · rw [if_pos first, getD_exchange (count ▸ hi) (count ▸ hj), h i hi, h _ hj, h p hp]
    simp only [visited, twice]
    by_cases atPartner : p = reverseBits k i
    · subst atPartner
      rw [if_pos rfl, if_neg (by omega), if_pos (by omega), twice]
    · by_cases here : p = i
      · subst here
        rw [if_neg atPartner, if_pos rfl, if_neg (by omega), if_pos (by omega)]
      · have other : reverseBits k p ≠ i := fun same => atPartner (by rw [← same, twice'])
        have same : (p < i + 1 ∨ reverseBits k p < i + 1) ↔ p < i ∨ reverseBits k p < i := by omega
        rw [if_neg atPartner, if_neg here, if_congr same rfl rfl]
  · rw [if_neg first, h p hp]
    simp only [visited]
    by_cases here : p = i
    · subst here
      by_cases fixed : reverseBits k p = p
      · rw [fixed, ite_self, ite_self]
      · rw [if_pos (by omega), if_pos (by omega)]
    · by_cases partner : reverseBits k p = i
      · have : p < i := by
          rw [← partner, twice'] at first
          omega
        rw [if_pos (Or.inl this), if_pos (by omega)]
      · have same : (p < i + 1 ∨ reverseBits k p < i + 1) ↔ p < i ∨ reverseBits k p < i := by omega
        rw [if_congr same rfl rfl]

theorem reorderFrom_visited {left i : Nat} {xs : List Fr} (hi : i + left = 2 ^ k)
    (count : xs.length = 2 ^ k) (h : ∀ p < 2 ^ k, xs.getD p 0 = visited k i cs p) :
    (reorderFrom k left i xs).length = 2 ^ k ∧
      ∀ p < 2 ^ k, (reorderFrom k left i xs).getD p 0 = visited k (2 ^ k) cs p := by
  induction left generalizing i xs with
  | zero =>
    obtain rfl : i = 2 ^ k := by omega
    exact ⟨count, h⟩
  | succ left ih =>
    rw [reorderFrom]
    refine ih (by omega) ?_ (visited_succ (by omega) count h)
    split
    · rw [length_exchange, count]
    · exact count

/-- Exchanging pairs puts the elements in the order of their reversed indices. -/
theorem reorderFrom_eq (count : cs.length = 2 ^ k) :
    reorderFrom k (2 ^ k) 0 cs = reversed k cs := by
  have start : ∀ p < 2 ^ k, cs.getD p 0 = visited k 0 cs p := by
    intro p _
    rw [visited, if_neg (by omega)]
  obtain ⟨length_eq, elements⟩ := reorderFrom_visited (Nat.zero_add _) count start
  apply List.ext_getElem
  · simp [length_eq, reversed]
  · intro p hp _
    have inside : p < 2 ^ k := length_eq ▸ hp
    have moved := elements p inside
    rw [visited, if_pos (Or.inl inside), List.getD_eq_getElem _ _ hp] at moved
    simp [reversed, moved]

theorem getD_split (cs : List Fr) (i : Nat) :
    (split cs).1.getD i 0 = cs.getD (2 * i) 0 ∧ (split cs).2.getD i 0 = cs.getD (2 * i + 1) 0 := by
  fun_induction split cs generalizing i with
  | case1 => exact ⟨rfl, rfl⟩
  | case2 x =>
    cases i with
    | zero => exact ⟨rfl, rfl⟩
    | succ i => simp
  | case3 x y rest ih =>
    cases i with
    | zero => exact ⟨rfl, rfl⟩
    | succ i => simpa [Nat.mul_succ] using ih i

/-- The order by reversed indices has the elements of even index in front of those of odd index. -/
theorem reversed_succ (k : Nat) (cs : List Fr) :
    reversed (k + 1) cs = reversed k (split cs).1 ++ reversed k (split cs).2 := by
  have halves : 2 ^ (k + 1) = 2 ^ k + 2 ^ k := by rw [pow_succ, mul_two]
  rw [reversed, halves, List.range_add, List.map_append, List.map_map]
  congr 1
  · apply List.map_congr_left
    intro i hi
    rw [reverseBits_succ_of_lt (List.mem_range.1 hi), (getD_split cs _).1]
  · apply List.map_congr_left
    intro i hi
    rw [Function.comp_apply, reverseBits_succ_add (List.mem_range.1 hi), (getD_split cs _).2]

@[simp] theorem length_reversed (k : Nat) (cs : List Fr) : (reversed k cs).length = 2 ^ k := by
  simp [reversed]

end Reordering

section Locality

variable (half : Nat) (step : Fr)

theorem getD_append_add (xs ys : List Fr) (j : Nat) :
    (xs ++ ys).getD (xs.length + j) 0 = ys.getD j 0 := by
  rw [List.getD_append_right _ _ _ _ (Nat.le_add_right _ _), Nat.add_sub_cancel_left]

@[simp] theorem length_butterfly (j : Nat) (w : Fr) (xs : List Fr) :
    (butterfly half j w xs).length = xs.length := by
  simp [butterfly]

@[simp] theorem length_butterflies (left j : Nat) (w : Fr) (xs : List Fr) :
    (butterflies half step left j w xs).length = xs.length := by
  induction left generalizing j w xs with
  | zero => rfl
  | succ left ih => rw [butterflies, ih, length_butterfly]

@[simp] theorem length_joinBlocks (left start : Nat) (xs : List Fr) :
    (joinBlocks half step left start xs).length = xs.length := by
  induction left generalizing start xs with
  | zero => rfl
  | succ left ih => rw [joinBlocks, ih, length_butterflies]

variable {half} in
theorem butterfly_append_left {j : Nat} (w : Fr) {xs ys : List Fr} (h : j + half < xs.length) :
    butterfly half j w (xs ++ ys) = butterfly half j w xs ++ ys := by
  have first : j < xs.length := by omega
  simp only [butterfly, List.getD_append _ _ _ _ h, List.getD_append _ _ _ _ first]
  rw [List.set_append_left _ _ first, List.set_append_left _ _ (by simpa using h)]

theorem butterfly_append_right (j : Nat) (w : Fr) (xs ys : List Fr) :
    butterfly half (xs.length + j) w (xs ++ ys) = xs ++ butterfly half j w ys := by
  simp only [butterfly, Nat.add_assoc, getD_append_add]
  simp

variable {half} in
theorem butterflies_append_left {left j : Nat} (w : Fr) {xs ys : List Fr}
    (h : j + left + half ≤ xs.length) :
    butterflies half step left j w (xs ++ ys) = butterflies half step left j w xs ++ ys := by
  induction left generalizing j w xs with
  | zero => rfl
  | succ left ih =>
    rw [butterflies, butterflies, butterfly_append_left w (by omega),
      ih _ (by rw [length_butterfly]; omega)]

theorem butterflies_append_right (left j : Nat) (w : Fr) (xs ys : List Fr) :
    butterflies half step left (xs.length + j) w (xs ++ ys) =
      xs ++ butterflies half step left j w ys := by
  induction left generalizing j w ys with
  | zero => rfl
  | succ left ih => rw [butterflies, butterflies, butterfly_append_right, Nat.add_assoc, ih]

variable {half} in
theorem joinBlocks_append_left {left start : Nat} {xs ys : List Fr}
    (h : start + left * (2 * half) ≤ xs.length) :
    joinBlocks half step left start (xs ++ ys) = joinBlocks half step left start xs ++ ys := by
  induction left generalizing start xs with
  | zero => rfl
  | succ left ih =>
    rw [Nat.succ_mul] at h
    rw [joinBlocks, joinBlocks, butterflies_append_left step 1 (by omega),
      ih (by rw [length_butterflies]; omega)]

theorem joinBlocks_append_right (left start : Nat) (xs ys : List Fr) :
    joinBlocks half step left (xs.length + start) (xs ++ ys) =
      xs ++ joinBlocks half step left start ys := by
  induction left generalizing start ys with
  | zero => rfl
  | succ left ih => rw [joinBlocks, joinBlocks, butterflies_append_right, Nat.add_assoc, ih]

theorem joinBlocks_add (left left' start : Nat) (xs : List Fr) :
    joinBlocks half step (left + left') start xs =
      joinBlocks half step left' (start + left * (2 * half))
        (joinBlocks half step left start xs) := by
  induction left generalizing start xs with
  | zero => rw [Nat.zero_add, Nat.zero_mul, Nat.add_zero, joinBlocks]
  | succ left ih =>
    have place : start + 2 * half + left * (2 * half) = start + (left + 1) * (2 * half) := by ring
    rw [Nat.succ_add, joinBlocks, joinBlocks, ih, place]

/-- The blocks of two lists that stand one after the other are joined in each of them alone. -/
theorem joinBlocks_append {blocks : Nat} {xs ys : List Fr} (h : xs.length = blocks * (2 * half)) :
    joinBlocks half step (blocks + blocks) 0 (xs ++ ys) =
      joinBlocks half step blocks 0 xs ++ joinBlocks half step blocks 0 ys := by
  have behind : 0 + blocks * (2 * half) = (joinBlocks half step blocks 0 xs).length + 0 := by
    rw [length_joinBlocks, h, Nat.add_comm]
  rw [joinBlocks_add, joinBlocks_append_left step (by omega), behind, joinBlocks_append_right]

end Locality

section Rounds

theorem butterfly_between {half : Nat} (w x y : Fr) {pre mid : List Fr} (xs ys : List Fr)
    (h : half = (x :: xs).length + mid.length) :
    butterfly half pre.length w (pre ++ (x :: xs) ++ mid ++ (y :: ys)) =
      pre ++ ((x + y * w) :: xs) ++ mid ++ ((x - y * w) :: ys) := by
  have place : pre.length + half = (pre ++ (x :: xs) ++ mid).length + 0 := by
    simp only [List.length_append, h]
    omega
  have place' (z : Fr) : pre.length + half = (pre ++ (z :: xs) ++ mid).length + 0 := by
    simpa using place
  have first : (pre ++ (x :: xs) ++ mid ++ (y :: ys)).getD pre.length 0 = x := by simp
  have second : (pre ++ (x :: xs) ++ mid ++ (y :: ys)).getD (pre.length + half) 0 = y := by
    rw [place, getD_append_add, List.getD_cons_zero]
  have written (z : Fr) : (pre ++ (x :: xs) ++ mid ++ (y :: ys)).set pre.length z =
      pre ++ (z :: xs) ++ mid ++ (y :: ys) := by simp
  rw [butterfly]
  simp only [first, second, written]
  rw [place' (x + y * w)]
  simp only [Nat.add_zero, List.set_append_right _ _ (le_refl _), Nat.sub_self, List.set_cons_zero]

/-- Butterflies join two lists of one length, which may have others in front and between. -/
theorem butterflies_between {half : Nat} (step w : Fr) (pre xs mid ys : List Fr)
    (same : xs.length = ys.length) (h : half = xs.length + mid.length) :
    butterflies half step xs.length pre.length w (pre ++ xs ++ mid ++ ys) =
      let zs := ys.zipWith (· * ·) (geometric w step ys.length)
      pre ++ xs.zipWith (· + ·) zs ++ mid ++ xs.zipWith (· - ·) zs := by
  induction xs generalizing w pre mid ys with
  | nil =>
    obtain rfl := List.eq_nil_of_length_eq_zero same.symm
    rfl
  | cons x xs ih =>
    obtain ⟨y, ys, rfl⟩ := List.exists_cons_of_length_eq_add_one same.symm
    have next := ih (w * step) (pre ++ [x + y * w]) (mid ++ [x - y * w]) ys (Nat.succ.inj same)
      (by simp only [List.length_cons, List.length_append, List.length_nil] at h ⊢; omega)
    rw [List.length_append, List.length_singleton] at next
    rw [List.length_cons, butterflies, butterfly_between w x y xs ys h]
    simpa [geometric] using next

/-- The only block of the last round is joined as the recursion joins the halves. -/
theorem joinBlocks_one {half : Nat} (step : Fr) {xs ys : List Fr} (hx : xs.length = half)
    (hy : ys.length = half) :
    joinBlocks half step 1 0 (xs ++ ys) =
      let zs := ys.zipWith (· * ·) (geometric 1 step ys.length)
      xs.zipWith (· + ·) zs ++ xs.zipWith (· - ·) zs := by
  subst hx
  have joined := butterflies_between step 1 [] xs [] ys hy.symm rfl
  rw [joinBlocks, joinBlocks]
  simpa using joined

@[simp] theorem length_rounds (ω : Fr) (n r : Nat) (xs : List Fr) :
    (rounds ω n r xs).length = xs.length := by
  induction r with
  | zero => rfl
  | succ r ih => rw [rounds, length_joinBlocks, ih]

/-- Rounds whose blocks fit into both of two lists work on each list alone, with the square of the
root. -/
theorem rounds_append {k r : Nat} (ω : Fr) (hr : r ≤ k) {xs ys : List Fr}
    (hx : xs.length = 2 ^ k) :
    rounds ω (2 ^ (k + 1)) r (xs ++ ys) =
      rounds (ω * ω) (2 ^ k) r xs ++ rounds (ω * ω) (2 ^ k) r ys := by
  induction r with
  | zero => rfl
  | succ r ih =>
    obtain ⟨d, rfl⟩ := Nat.exists_eq_add_of_le hr
    have size : 2 * Nat.pow 2 r = 2 ^ (r + 1) := (pow_succ' 2 r).symm
    have inner : 2 ^ (r + 1 + d) / 2 ^ (r + 1) = 2 ^ d := by
      rw [pow_add, Nat.mul_div_cancel_left _ (Nat.two_pow_pos _)]
    have outer : 2 ^ (r + 1 + d + 1) / 2 ^ (r + 1) = 2 ^ d + 2 ^ d := by
      rw [Nat.add_assoc, pow_add, Nat.mul_div_cancel_left _ (Nat.two_pow_pos _), pow_succ, mul_two]
    have factor : ω.pow (2 ^ d + 2 ^ d) = (ω * ω).pow (2 ^ d) := by
      rw [Residue.pow_eq, Residue.pow_eq, mul_pow, pow_add]
    rw [rounds, rounds, rounds, ih (by omega)]
    simp only [size, inner, outer, factor]
    rw [joinBlocks_append]
    rw [length_rounds, hx, size, pow_add, Nat.mul_comm]

/-- On elements in the order of their reversed indices, the rounds do what the recursion does. -/
theorem rounds_reversed (k : Nat) (cs : List Fr) (ω : Fr) (h : cs.length = 2 ^ k) :
    rounds ω (2 ^ k) k (reversed k cs) = values k cs ω := by
  induction k generalizing cs ω with
  | zero =>
    obtain ⟨c, rfl⟩ := List.length_eq_one_iff.1 h
    rfl
  | succ k ih =>
    obtain ⟨evens, odds⟩ := length_split cs (by rw [h, pow_succ, mul_comm])
    have length_even : (values k (split cs).1 (ω * ω)).length = 2 ^ k := by
      rw [← ih _ _ evens, length_rounds, length_reversed]
    have length_odd : (values k (split cs).2 (ω * ω)).length = 2 ^ k := by
      rw [← ih _ _ odds, length_rounds, length_reversed]
    have blocks : 2 ^ (k + 1) / (2 * Nat.pow 2 k) = 1 := by
      rw [pow_succ']
      exact Nat.div_self (Nat.mul_pos Nat.two_pos (Nat.two_pow_pos k))
    rw [rounds, reversed_succ, rounds_append ω le_rfl (length_reversed k _), ih _ _ evens,
      ih _ _ odds]
    simp only [blocks, Residue.pow_eq, pow_one]
    change joinBlocks (2 ^ k) ω 1 0 _ = _
    rw [joinBlocks_one ω length_even length_odd, length_odd]
    simp only [values, odds]

end Rounds

/-- Both ways to compute the transform agree, whatever the root and the number of coefficients. -/
theorem transformInPlace_eq (cs : List Fr) (ω : Fr) : transformInPlace cs ω = transform cs ω := by
  rw [transformInPlace, transform]
  by_cases power : isPowerOfTwo cs.length = true
  · obtain ⟨k, count⟩ := isPowerOfTwo_iff.1 power
    rw [if_pos power, if_pos power]
    simp only [count, Nat.log2_two_pow]
    rw [reorderFrom_eq count, rounds_reversed k cs ω count]
  · rw [if_neg power, if_neg power]

section Values

/-- The powers of `ω` start again after `n` of them, and with the other sign after half as many. -/
def IsDomainRoot (ω : Fr) (n : Nat) : Prop := ω ^ n = 1 ∧ (2 ≤ n → ω ^ (n / 2) = -1)

/-- The elements of `ys` are the sums over the coefficients multiplied by the powers of the powers
of `ω`. -/
def IsDiscreteTransform (ω : Fr) (cs ys : List Fr) : Prop :=
  ys.length = cs.length ∧ ∀ i < cs.length,
    ys[i]? = some (∑ j ∈ Finset.range cs.length, cs.getD j 0 * ω ^ (i * j))

variable {k : Nat} {ω : Fr} {cs : List Fr}

theorem isDiscreteTransform_values (count : cs.length = 2 ^ k) (root : IsDomainRoot ω (2 ^ k)) :
    IsDiscreteTransform ω cs (values k cs ω) := by
  have halves : ∀ j, k = j + 1 → ω ^ 2 ^ j = -1 := by
    rintro j rfl
    have half : 2 ^ (j + 1) / 2 = 2 ^ j := by omega
    have negated := root.2 (by rw [pow_succ]; have := Nat.two_pow_pos j; omega)
    rwa [half] at negated
  rw [values_eq k cs ω count halves]
  refine ⟨by simp [count], fun i hi => ?_⟩
  rw [List.getElem?_map, List.getElem?_range (count ▸ hi), Option.map_some, eval_poly_eq_sum]
  simp only [pow_mul]

/-- The transform is the discrete Fourier transform of its coefficients, also of coefficients that
are given as integers, and it can be computed in place. Numbers of coefficients that are no power of
two are refused. -/
theorem transform_discrete (ω : Fr) :
    (∀ (k : Nat) (cs : List Fr), cs.length = 2 ^ k → IsDomainRoot ω (2 ^ k) →
      ∃ ys, transform cs ω = .ok ys ∧ transformInPlace cs ω = .ok ys ∧
        IsDiscreteTransform ω cs ys) ∧
    (∀ (k : Nat) (zs : List Int), zs.length = 2 ^ k → IsDomainRoot ω (2 ^ k) →
      ∃ ys, transform (zs.map Residue.ofInt) ω = .ok ys ∧
        transformInPlace (zs.map Residue.ofInt) ω = .ok ys ∧ ys.length = zs.length ∧
        ∀ i < zs.length, ys[i]? =
          some (∑ j ∈ Finset.range zs.length, ((zs.getD j 0 : Int) : Fr) * ω ^ (i * j))) ∧
    ∀ cs : List Fr, (∀ k, cs.length ≠ 2 ^ k) →
      ∃ f, transform cs ω = .error f ∧ transformInPlace cs ω = .error f ∧ f.kind = .value := by
  have computed (k : Nat) (cs : List Fr) (count : cs.length = 2 ^ k) :
      transform cs ω = .ok (values k cs ω) := by
    rw [transform, count, if_pos (isPowerOfTwo_two_pow k), Nat.log2_two_pow]
  refine ⟨fun k cs count root => ?_, fun k zs count root => ?_, fun cs other => ?_⟩
  · exact ⟨values k cs ω, computed k cs count,
      (transformInPlace_eq cs ω).trans (computed k cs count),
      isDiscreteTransform_values count root⟩
  · have count' : (zs.map (Residue.ofInt : Int → Fr)).length = 2 ^ k := by
      rw [List.length_map, count]
    obtain ⟨length_eq, elements⟩ := isDiscreteTransform_values count' root
    rw [List.length_map] at length_eq elements
    refine ⟨values k _ ω, computed k _ count',
      (transformInPlace_eq _ ω).trans (computed k _ count'),
      length_eq, fun i hi => (elements i hi).trans ?_⟩
    congr 1
    apply Finset.sum_congr rfl
    intro j hj
    have inside := Finset.mem_range.1 hj
    rw [List.getD_eq_getElem _ _ (by simpa using inside), List.getD_eq_getElem _ _ inside,
      List.getElem_map, Residue.ofInt_eq_cast]
  · have refused : transform cs ω = .error (.transformLength cs.length) := by
      rw [transform, if_neg]
      intro power
      obtain ⟨k, count⟩ := isPowerOfTwo_iff.1 power
      exact other k count
    exact ⟨_, refused, (transformInPlace_eq cs ω).trans refused, rfl⟩

/-- Four coefficients and a root of order four, and three coefficients. -/
theorem transform_discrete_four :
    IsDomainRoot (dyadicRoot 2) (2 ^ 2) ∧
    (∃ ys, transform [1, 2, 3, 0] (dyadicRoot 2) = .ok ys ∧
      transformInPlace [1, 2, 3, 0] (dyadicRoot 2) = .ok ys ∧
      IsDiscreteTransform (dyadicRoot 2) [1, 2, 3, 0] ys) ∧
    (∃ ys, transform ([-1, 2, -3, 0].map Residue.ofInt) (dyadicRoot 2) = .ok ys ∧
      transformInPlace ([-1, 2, -3, 0].map Residue.ofInt) (dyadicRoot 2) = .ok ys ∧
      ys.length = 4 ∧ ∀ i < 4, ys[i]? = some (∑ j ∈ Finset.range 4,
        (([-1, 2, -3, 0].getD j 0 : Int) : Fr) * dyadicRoot 2 ^ (i * j))) ∧
    ∃ f, transform [1, 2, 3] (dyadicRoot 2) = .error f ∧
      transformInPlace [1, 2, 3] (dyadicRoot 2) = .error f ∧ f.kind = .value := by
  have root : IsDomainRoot (dyadicRoot 2) (2 ^ 2) :=
    ⟨by decide +kernel, fun _ => by decide +kernel⟩
  obtain ⟨elements, integers, others⟩ := transform_discrete (dyadicRoot 2)
  refine ⟨root, elements 2 _ rfl root, integers 2 [-1, 2, -3, 0] rfl root,
    others [1, 2, 3] fun k count => ?_⟩
  have power : isPowerOfTwo 3 = true := isPowerOfTwo_iff.2 ⟨k, count⟩
  exact absurd power (by decide)

end Values

end Snark.Fourier
