import Mathlib.Algebra.Order.Ring.Canonical
import Mathlib.Data.Nat.Prime.Basic
import Mathlib.Tactic.ByContra
import Mathlib.Tactic.Ring
import Snark.Proofs.Bytes
import Snark.Proofs.Except
import Snark.Proofs.Field.Inverse
import Snark.Slot

/-!
# Reading slots back

A slot is written in the shortest form that holds the value, and read back as the residue of the
value, whichever form that is: a short value as it is, a short negative one by its distance from the
prime, and a long one by its limbs. The limbs have to have room for the prime. In Montgomery form
the limbs hold the product with the radix, which has an inverse modulo every odd number.
-/

namespace Snark.Slot

/-- The words of a number give the number back, up to what they can hold. -/
theorem ofWords_wordsOf (count n : Nat) :
    ofWords ((wordsOf count n).map Nat.cast) = n % 2 ^ (32 * count) := by
  induction count generalizing n with
  | zero => simp [wordsOf, ofWords, Nat.mod_one]
  | succ count ih =>
    have low : ((n : Int) % wordBound).toNat = n % wordBound := by
      rw [← Int.natCast_emod, Int.toNat_natCast]
    have word : (((n % wordBound : Nat) : Int) % wordBound).toNat = n % wordBound := by
      rw [← Int.natCast_emod, Int.toNat_natCast, Nat.mod_mod]
    have radix : 2 ^ (32 * (count + 1)) = wordBound * 2 ^ (32 * count) := by
      rw [mul_add, pow_add, mul_comm]
      rfl
    rw [wordsOf, low, ← Int.natCast_ediv, List.map_cons, ofWords, word, ih, radix, Nat.mod_mul]

/-- The words of limbs in a row are the limbs. -/
theorem wordsAt_flatMap (ws : List Nat) (small : ∀ w ∈ ws, w < wordBound) :
    Codec.wordsAt ws.length (ws.flatMap (Bytes.ofNat 4)) = ws.map Nat.cast := by
  induction ws with
  | nil => rfl
  | cons w ws ih =>
    have width := Bytes.length_ofNat 4 w
    rw [List.length_cons, Codec.wordsAt, List.flatMap_cons, List.take_left' width,
      List.drop_left' width, ih fun v hv => small v (List.mem_cons_of_mem w hv),
      Bytes.toNat_ofNat_of_lt (small w List.mem_cons_self), List.map_cons]

theorem length_flatMap_ofNat (ws : List Nat) :
    (ws.flatMap (Bytes.ofNat 4)).length = ws.length * 4 := by
  induction ws with
  | nil => rfl
  | cons w ws ih =>
    rw [List.flatMap_cons, List.length_append, ih, Bytes.length_ofNat, List.length_cons]
    omega

theorem lt_of_mem_wordsOf {count w : Nat} {n : Int} (h : w ∈ wordsOf count n) : w < wordBound := by
  induction count generalizing n with
  | zero => cases h
  | succ count ih =>
    obtain rfl | h := List.mem_cons.1 h
    · rw [wordBound]
      omega
    · exact ih h

/-- A slot is in long form: the top bit of its second word is set, so the limbs hold the value. -/
def IsLong (slot : Bytes) : Prop := (Bytes.toNat ((slot.drop 4).take 4)).testBit 31 = true

/-- The top bit of a word tells the upper half of its range. -/
theorem testBit_of_lt {w : Nat} (small : w < wordBound) : w.testBit 31 = true ↔ longFlag ≤ w := by
  rw [Nat.testBit_eq_decide_div_mod_eq, decide_eq_true_iff, longFlag]
  rw [wordBound] at small
  omega

namespace Codec

variable {c : Codec}

/-- The prime is one, and the limbs have room for it. -/
structure HasRoom (c : Codec) : Prop where
  pos : 0 < c.prime
  fits : c.prime ≤ 2 ^ (32 * c.limbs)

/-- A layout is for the prime and for the positive number of limbs that it is made of, and nothing
is laid out modulo zero. -/
theorem make_eq_ok {prime limbs : Int} (h : make prime limbs = .ok c) :
    c.prime = prime ∧ c.limbs = limbs ∧ prime ≠ 0 := by
  have pos : ¬ limbs ≤ 0 := by
    intro bad
    rw [make, if_pos bad] at h
    cases h
  have nonzero : prime ≠ 0 := by
    rintro rfl
    rw [make, if_neg pos, Modular.power?, if_pos rfl] at h
    cases h
  rw [make, if_neg pos] at h
  obtain ⟨inverse, -, h⟩ := Except.bind_eq_ok_iff.1 h
  cases h
  exact ⟨rfl, Int.toNat_of_nonneg (by omega), nonzero⟩

/-- The Montgomery radix is a power of two, so it has an inverse modulo every odd number. -/
theorem exists_radixInverse {prime : Nat} (odd : Odd prime) :
    ∃ inverse, Modular.power? prime (radixOf prime) (-1) = .ok inverse ∧
      radixOf prime * inverse ≡ 1 [ZMOD prime] := by
  have radix : Int.gcd (radixOf prime : Int) prime = 1 := by
    rw [Int.gcd_natCast_natCast, radixOf, Nat.one_shiftLeft]
    exact (Nat.coprime_two_left.2 odd).pow_left _
  obtain ⟨b, found, -, inverse⟩ := Modular.exists_inverse? odd.pos radix
  have nonzero : (prime : Int) ≠ 0 := Int.natCast_ne_zero.2 odd.pos.ne'
  refine ⟨Int.fmod (Modular.power prime b 1) prime, ?_, ?_⟩
  · rw [Modular.power?, if_neg nonzero]
    dsimp only
    rw [if_pos (by decide), Int.natAbs_natCast, found]
    rfl
  · have first : Nat.pow b 1 = b := Nat.pow_one b
    rw [Modular.power_eq, first, Int.fmod_eq_emod_of_nonneg _ (Int.natCast_nonneg prime),
      Int.natCast_emod, Int.emod_emod, mul_comm]
    exact ((Int.mod_modEq b prime).mul_right _).trans inverse

/-- There is a layout for every odd prime, and it keeps an inverse of the radix. -/
theorem exists_make {prime : Nat} (odd : Odd prime) {limbs : Int} (pos : 0 < limbs) :
    ∃ c, make prime limbs = .ok c ∧ c.radix * c.radixInverse ≡ 1 [ZMOD c.prime] := by
  obtain ⟨inverse, found, unit⟩ := exists_radixInverse odd
  refine ⟨⟨prime, limbs.toNat, inverse⟩, ?_, unit⟩
  rw [make, if_neg (by omega)]
  dsimp only
  rw [found]
  rfl

theorem exists_make_eq_ok {prime : Nat} (odd : Odd prime) {limbs : Int} (pos : 0 < limbs) :
    ∃ c, make prime limbs = .ok c := by
  obtain ⟨c, made, -⟩ := exists_make odd pos
  exact ⟨c, made⟩

/-- The limbs of a number with room for it are read back as its residue, divided by the radix if
they are in Montgomery form. -/
theorem decodeLimbs_encodeLimbs {v : Nat} (fits : v < 2 ^ (32 * c.limbs)) (montgomery : Bool) :
    c.decodeLimbs (wordsAt c.limbs ((c.encodeLimbs v).flatMap (Bytes.ofNat 4))) montgomery =
      Int.fmod (if montgomery then v * c.radixInverse else v) c.prime := by
  have words := wordsAt_flatMap (c.encodeLimbs v) fun w h => lt_of_mem_wordsOf h
  rw [encodeLimbs, length_wordsOf] at words
  rw [decodeLimbs, encodeLimbs, words, ofWords_wordsOf, Nat.mod_eq_of_lt fits]

/-- A slot packed from words and limbs is read by its two words. -/
theorem decode_packed (word₀ word₁ : Nat) (limbs : List Nat) (small₀ : word₀ < wordBound)
    (small₁ : word₁ < wordBound) (width : limbs.length = c.limbs) :
    ∃ bs, pack word₀ word₁ limbs = .ok bs ∧ bs.length = c.size ∧
      (IsLong bs ↔ longFlag ≤ word₁) ∧
      c.decode bs =
        if longFlag ≤ word₁ then
          .ok (c.decodeLimbs (wordsAt c.limbs (limbs.flatMap (Bytes.ofNat 4)))
            (montgomeryFlag ≤ word₁ - longFlag))
        else if shortBound ≤ word₀ then .ok (Int.fmod (c.prime + word₀ - wordBound) c.prime)
        else .ok word₀ := by
  have width₀ := Bytes.length_ofNat 4 word₀
  have width₁ := Bytes.length_ofNat 4 word₁
  have read₀ : Bytes.toNat (Bytes.ofNat 4 word₀) = word₀ := Bytes.toNat_ofNat_of_lt small₀
  have read₁ : Bytes.toNat (Bytes.ofNat 4 word₁) = word₁ := Bytes.toNat_ofNat_of_lt small₁
  have length : (Bytes.ofNat 4 word₀ ++ (Bytes.ofNat 4 word₁ ++
      limbs.flatMap (Bytes.ofNat 4))).length = c.size := by
    rw [List.length_append, List.length_append, width₀, width₁, length_flatMap_ofNat, width, size]
    omega
  have tail : (Bytes.ofNat 4 word₀ ++ (Bytes.ofNat 4 word₁ ++
      limbs.flatMap (Bytes.ofNat 4))).drop 8 = limbs.flatMap (Bytes.ofNat 4) := by
    rw [← List.drop_drop (i := 4) (j := 4), List.drop_left' width₀, List.drop_left' width₁]
  have enough : ¬ c.size < 8 := by
    rw [size]
    omega
  refine ⟨_, by rw [pack, Bytes.field?_of_lt small₀, Except.ok_bind, Except.pure_eq_ok,
    List.append_assoc], length, ?_, ?_⟩
  · rw [IsLong, List.drop_left' width₀, List.take_left' width₁, read₁, testBit_of_lt small₁]
  · rw [decode, length, if_neg enough]
    dsimp only
    rw [if_neg (Nat.lt_irrefl _), tail, List.take_left' width₀, List.drop_left' width₀,
      List.take_left' width₁, read₀, read₁]

/-- A short value is read as it is. -/
theorem decode_short {v : Nat} (short : v < shortBound) :
    ∃ bs, pack v 0 (List.replicate c.limbs 0) = .ok bs ∧ bs.length = c.size ∧ ¬ IsLong bs ∧
      c.decode bs = .ok v := by
  have small : v < wordBound := Nat.lt_trans short (by decide)
  obtain ⟨bs, packed, length, long, read⟩ :=
    decode_packed (c := c) v 0 _ small (by decide) List.length_replicate
  refine ⟨bs, packed, length, ?_, ?_⟩
  · rw [long]
    decide
  · rw [read, if_neg (by decide), if_neg (Nat.not_le.2 short)]

/-- A short value just below the prime is read by its distance from the prime. -/
theorem decode_negative {w : Nat} (high : shortBound ≤ w) (small : w < wordBound) :
    ∃ bs, pack w 0 (List.replicate c.limbs 0) = .ok bs ∧ bs.length = c.size ∧ ¬ IsLong bs ∧
      c.decode bs = .ok (Int.fmod (c.prime + w - wordBound) c.prime) := by
  obtain ⟨bs, packed, length, long, read⟩ :=
    decode_packed (c := c) w 0 _ small (by decide) List.length_replicate
  refine ⟨bs, packed, length, ?_, ?_⟩
  · rw [long]
    decide
  · rw [read, if_neg (by decide), if_pos high]

/-- A long value is read by its limbs. -/
theorem decode_long {v : Nat} (fits : v < 2 ^ (32 * c.limbs)) (montgomery : Bool) :
    ∃ bs, pack 0 (longFlag + if montgomery then montgomeryFlag else 0) (c.encodeLimbs v) = .ok bs ∧
      bs.length = c.size ∧ IsLong bs ∧
      c.decode bs = .ok (Int.fmod (if montgomery then v * c.radixInverse else v) c.prime) := by
  have small : longFlag + (if montgomery then montgomeryFlag else 0) < wordBound := by
    cases montgomery <;> decide
  have flag : decide (montgomeryFlag ≤
      longFlag + (if montgomery then montgomeryFlag else 0) - longFlag) = montgomery := by
    cases montgomery <;> decide
  obtain ⟨bs, packed, length, long, read⟩ :=
    decode_packed (c := c) 0 _ (c.encodeLimbs v) (by decide) small (length_wordsOf _ _)
  refine ⟨bs, packed, length, long.2 (Nat.le_add_right _ _), ?_⟩
  rw [read, if_pos (Nat.le_add_right _ _), flag, decodeLimbs_encodeLimbs fits]

/-- The slot of an integer holds its residue, and is in long form exactly if the residue is neither
small nor just below the prime. -/
theorem decode_encode_form (h : c.HasRoom) (n : Int) :
    ∃ bs, c.encode n false = .ok bs ∧ bs.length = c.size ∧
      (IsLong bs ↔ shortBound ≤ Int.fmod n c.prime ∧ Int.fmod n c.prime < c.shortMin) ∧
      c.decode bs = .ok (Int.fmod n c.prime) := by
  have high := Int.fmod_lt_of_pos n h.pos
  obtain ⟨v, hv⟩ := Int.eq_ofNat_of_zero_le (Int.fmod_nonneg_of_pos n h.pos)
  rw [encode, hv, if_neg Bool.false_ne_true]
  rw [hv] at high
  have still : Int.fmod v c.prime = v := Int.fmod_eq_of_lt (by omega) high
  split
  next short =>
    obtain ⟨bs, packed, length, form, read⟩ :=
      decode_short (c := c) (v := v) (by exact_mod_cast short)
    exact ⟨bs, packed, length, iff_of_false form fun middle => by omega, read⟩
  next long =>
    split
    next negative =>
      have below := negative
      rw [shortMin, shortBound] at negative
      obtain ⟨w, hw⟩ : ∃ w : Nat, v - c.prime + wordBound = w :=
        Int.eq_ofNat_of_zero_le (by rw [wordBound]; omega)
      rw [wordBound] at hw
      obtain ⟨bs, packed, length, form, read⟩ := decode_negative (c := c) (w := w)
        (by rw [shortBound]; omega) (by rw [wordBound]; omega)
      have back : c.prime + w - wordBound = v := by
        rw [wordBound]
        omega
      exact ⟨bs, by rw [wordBound, hw, packed], length, iff_of_false form fun middle => by omega,
        by rw [read, back, still]⟩
    next middle =>
      have bound : (v : Int) < 2 ^ (32 * c.limbs) := Int.lt_of_lt_of_le high h.fits
      obtain ⟨bs, packed, length, form, read⟩ :=
        decode_long (c := c) (v := v) (by exact_mod_cast bound) false
      rw [if_neg Bool.false_ne_true, still] at read
      exact ⟨bs, packed, length, iff_of_true form ⟨by omega, by omega⟩, read⟩

/-- The slot of an integer holds its residue. -/
theorem decode_encode (h : c.HasRoom) (n : Int) :
    ∃ bs, c.encode n false = .ok bs ∧ bs.length = c.size ∧
      c.decode bs = .ok (Int.fmod n c.prime) := by
  obtain ⟨bs, encoded, length, -, read⟩ := decode_encode_form h n
  exact ⟨bs, encoded, length, read⟩

/-- A slot in Montgomery form holds the residue as well. -/
theorem decode_encode_montgomery (h : c.HasRoom)
    (unit : c.radix * c.radixInverse ≡ 1 [ZMOD c.prime]) (n : Int) :
    ∃ bs, c.encode n true = .ok bs ∧ bs.length = c.size ∧
      c.decode bs = .ok (Int.fmod n c.prime) := by
  have residue (k : Int) : Int.fmod k c.prime = k % c.prime :=
    Int.fmod_eq_emod_of_nonneg k h.pos.le
  obtain ⟨w, hw⟩ := Int.eq_ofNat_of_zero_le
    (Int.fmod_nonneg_of_pos (Int.fmod n c.prime * c.radix) h.pos)
  have small := Int.fmod_lt_of_pos (Int.fmod n c.prime * c.radix) h.pos
  rw [hw] at small
  have bound : (w : Int) < 2 ^ (32 * c.limbs) := Int.lt_of_lt_of_le small h.fits
  obtain ⟨bs, packed, length, -, read⟩ :=
    decode_long (c := c) (v := w) (by exact_mod_cast bound) true
  have back : w * c.radixInverse ≡ n [ZMOD c.prime] :=
    calc (w : Int) * c.radixInverse
      _ ≡ n * c.radix * c.radixInverse [ZMOD c.prime] := by
        rw [← hw, residue, residue]
        exact ((Int.mod_modEq _ _).trans ((Int.mod_modEq n _).mul_right _)).mul_right _
      _ = n * (c.radix * c.radixInverse) := mul_assoc ..
      _ ≡ n * 1 [ZMOD c.prime] := unit.mul_left n
      _ = n := mul_one n
  refine ⟨bs, ?_, length, ?_⟩
  · rw [encode, if_pos rfl, hw]
    exact packed
  · rw [read, if_pos rfl, residue, residue]
    exact congrArg Except.ok back

/-- Whatever integer is written to a slot, its residue is read back, in Montgomery form or not. A
slot that is not in Montgomery form is long exactly if the residue is neither small nor just below
the prime, which never happens where the two ranges of short values meet. -/
theorem make_roundTrip {prime limbs : Nat} (odd : Odd prime) (pos : 1 ≤ limbs)
    (fits : prime < 2 ^ (32 * limbs)) :
    ∃ c, make prime limbs = .ok c ∧ ∀ (v : Int) (montgomery : Bool),
      ∃ bs, c.encode v montgomery = .ok bs ∧ bs.length = limbs * 4 + 8 ∧
        c.decode bs = .ok (v % prime) ∧
        (montgomery = false →
          (IsLong bs ↔ 2 ^ 31 ≤ v % prime ∧ v % prime < prime - 2 ^ 31)) := by
  obtain ⟨c, made, unit⟩ := exists_make odd (Int.ofNat_lt.2 pos)
  obtain ⟨prime_eq, limbs_eq, -⟩ := make_eq_ok made
  have limbs_eq : c.limbs = limbs := Int.ofNat_inj.1 limbs_eq
  have room : c.HasRoom := by
    constructor
    · rw [prime_eq]
      exact_mod_cast odd.pos
    · rw [prime_eq, limbs_eq]
      exact_mod_cast fits.le
  have residue (v : Int) : Int.fmod v c.prime = v % prime := by
    rw [prime_eq, Int.fmod_eq_emod_of_nonneg v (Int.natCast_nonneg prime)]
  have size : c.size = limbs * 4 + 8 := by rw [Codec.size, limbs_eq]
  refine ⟨c, made, fun v montgomery => ?_⟩
  rw [← size, ← residue]
  cases montgomery with
  | true =>
    obtain ⟨bs, encoded, length, read⟩ := decode_encode_montgomery room unit v
    exact ⟨bs, encoded, length, read, fun impossible => by cases impossible⟩
  | false =>
    obtain ⟨bs, encoded, length, form, read⟩ := decode_encode_form room v
    refine ⟨bs, encoded, length, read, fun _ => ?_⟩
    rw [form, shortMin, prime_eq]
    rfl

/-- A prime of 32 bits, above half their range: its residues are all short, small or negative. -/
theorem make_roundTrip_overlap : (Odd 3221225473 ∧ 1 ≤ 1 ∧ 3221225473 < 2 ^ (32 * 1)) ∧
    ∃ c, make (3221225473 : Nat) (1 : Nat) = .ok c ∧ ∀ (v : Int) (montgomery : Bool),
      ∃ bs, c.encode v montgomery = .ok bs ∧ bs.length = 1 * 4 + 8 ∧
        c.decode bs = .ok (v % (3221225473 : Nat)) ∧
        (montgomery = false → (IsLong bs ↔
          2 ^ 31 ≤ v % (3221225473 : Nat) ∧
            v % (3221225473 : Nat) < (3221225473 : Nat) - 2 ^ 31)) :=
  ⟨⟨by decide, by decide, by decide⟩, make_roundTrip (by decide) (by decide) (by decide)⟩

section Bytes

variable {bs : Bytes}

/-- A long slot without all of its limbs is refused, and every other slot is read as what its form
gives, which is a residue but for a short value. -/
theorem decode_outcome (head : 8 ≤ bs.length) :
    (IsLong bs ∧ bs.length < c.size ∧ c.decode bs = .error (.shortLongSlot c.size bs.length)) ∨
      ((IsLong bs → c.size ≤ bs.length) ∧
        ((∃ n, c.decode bs = .ok (Int.fmod n c.prime)) ∨
          ∃ w : Nat, w < shortBound ∧ c.decode bs = .ok w)) := by
  have width : ((bs.drop 4).take 4).length = 4 := by
    rw [List.length_take, List.length_drop]
    omega
  have long : IsLong bs ↔ longFlag ≤ Bytes.toNat ((bs.drop 4).take 4) :=
    testBit_of_lt (Bytes.toNat_lt_of_length width)
  rw [long, decode, if_neg (Nat.not_lt.2 head)]
  dsimp only
  split_ifs with flag cut negative
  · exact .inl ⟨flag, cut, rfl⟩
  · exact .inr ⟨fun _ => Nat.not_lt.1 cut, .inl ⟨_, by rw [decodeLimbs]⟩⟩
  · exact .inr ⟨fun impossible => absurd impossible flag, .inl ⟨_, rfl⟩⟩
  · exact .inr ⟨fun impossible => absurd impossible flag, .inr ⟨_, Nat.not_le.1 negative, rfl⟩⟩

/-- Bytes with room for a header are refused exactly if they are a long slot without all of its
limbs. -/
theorem exists_decode_eq_error_iff (head : 8 ≤ bs.length) :
    (∃ e, c.decode bs = .error e) ↔ IsLong bs ∧ bs.length < c.size := by
  obtain ⟨long, cut, refused⟩ | ⟨whole, read⟩ := decode_outcome (c := c) head
  · exact iff_of_true ⟨_, refused⟩ ⟨long, cut⟩
  · refine iff_of_false ?_ fun ⟨long, cut⟩ => Nat.not_le.2 cut (whole long)
    rintro ⟨e, refused⟩
    obtain ⟨n, read⟩ | ⟨w, -, read⟩ := read <;>
      (rw [read] at refused; cases refused)

/-- A layout refuses bytes for their number only. -/
theorem decode_failsIn (c : Codec) (bs : Bytes) :
    (c.decode bs).FailsIn (·.kind = .value) := by
  rw [decode]
  exact .ite (fun _ => .error rfl) fun _ =>
    .ite (fun _ => .ite (fun _ => .error rfl) fun _ => .ok _) fun _ =>
      .ite (fun _ => .ok _) fun _ => .ok _

/-- What is read is the least representative of its residue, whatever the bytes are: an element is
reduced in every form but the short one, and a short value is less than the prime. -/
theorem decode_mem_range (large : (shortBound : Int) ≤ c.prime) {v : Int}
    (read : c.decode bs = .ok v) : 0 ≤ v ∧ v < c.prime := by
  have pos : 0 < c.prime := Int.lt_of_lt_of_le (by decide) large
  have head : 8 ≤ bs.length := by
    by_contra short
    rw [decode, if_pos (Nat.not_le.1 short)] at read
    cases read
  obtain ⟨-, -, refused⟩ | ⟨-, ⟨n, residue⟩ | ⟨w, small, short⟩⟩ := decode_outcome (c := c) head
  · rw [read] at refused
    cases refused
  · rw [read] at residue
    cases residue
    exact ⟨Int.fmod_nonneg_of_pos n pos, Int.fmod_lt_of_pos n pos⟩
  · rw [read] at short
    cases short
    exact ⟨Int.natCast_nonneg w, Int.lt_of_lt_of_le (Int.ofNat_lt.2 small) large⟩

end Bytes

/-- A layout for an odd prime that no short value reaches reads every string of bytes as the least
representative of a residue. Bytes with room for a header are refused, for their value, exactly if
they are a long slot without all of its limbs. -/
theorem make_canonical {prime limbs : Nat} (odd : Odd prime) (large : 2 ^ 31 ≤ prime)
    (pos : 1 ≤ limbs) :
    ∃ c, make prime limbs = .ok c ∧ ∀ bs : Bytes, 8 ≤ bs.length →
      ((∃ e, c.decode bs = .error e) ↔ IsLong bs ∧ bs.length < limbs * 4 + 8) ∧
      (∀ e, c.decode bs = .error e → e.kind = .value) ∧
      (∀ v, c.decode bs = .ok v → 0 ≤ v ∧ v < prime) := by
  obtain ⟨c, made⟩ := exists_make_eq_ok odd (Int.ofNat_lt.2 pos)
  obtain ⟨prime_eq, limbs_eq, -⟩ := make_eq_ok made
  have size : c.size = limbs * 4 + 8 := by rw [Codec.size, Int.ofNat_inj.1 limbs_eq]
  have range : (shortBound : Int) ≤ c.prime := by
    rw [prime_eq]
    exact Int.ofNat_le.2 large
  refine ⟨c, made, fun bs head => ⟨?_, decode_failsIn c bs, fun v read => ?_⟩⟩
  · rw [← size]
    exact exists_decode_eq_error_iff head
  · rw [← prime_eq]
    exact decode_mem_range range read

end Codec

end Snark.Slot
