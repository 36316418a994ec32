import Mathlib.Data.List.TakeWhile
import Mathlib.Data.Nat.Digits.Defs
import Mathlib.Tactic.Common
import Snark.Text.Numeral

/-!
# Decimal numerals

`Spells` is the notation of an integer that reading accepts: digits of any script, of which two may
be parted by an underscore, behind a sign or none and with padding around the whole. It is stated by
what a numeral is put together from, and `read_decimal_eq_ok_iff` says that nothing else is read.

An integer is written with a minus sign if it is negative and with the decimal digits of its
magnitude. That spells it as long as there are not too many digits, so an integer that is short
enough to be written is read back from what was written.
-/

namespace Snark.Text.Numeral

section Reading

variable {c : Char} {cs run after : List Char} {ds : List Nat} {n : Int}

/-- No blank is a digit. -/
theorem digitOf?_of_isPadding (h : isPadding c = true) : digitOf? 10 c = none := by
  have table : ∀ z ∈ zeros, ∀ k < 10, isPadding (Char.ofNat (z + k)) = false := by decide +kernel
  rw [Option.eq_none_iff_forall_ne_some]
  intro d digit
  obtain ⟨read, small⟩ := Option.filter_eq_some_iff.1 digit
  simp only [decide_eq_true_eq] at small
  have visible : isPadding c = false := by
    rw [digitValue?] at read
    split_ifs at read with lower upper
    · cases read
      simp only [Bool.and_eq_true, decide_eq_true_eq] at lower
      omega
    · cases read
      omega
    · obtain ⟨z, found, rfl⟩ := Option.map_eq_some_iff.1 read
      have member := List.mem_of_find?_eq_some found
      have range := List.find?_some found
      simp only [Bool.and_eq_true, decide_eq_true_eq] at range
      have place : c = Char.ofNat (z + (c.toNat - z)) := by
        rw [Nat.add_sub_cancel' range.1, Char.ofNat_toNat]
      rw [place]
      exact table z member _ (by omega)
  rw [h] at visible
  cases visible

/-- Decimal digits, of which two may be parted by an underscore, and their values. -/
inductive Run : List Char → List Nat → Prop
  | last {c : Char} {d : Nat} : digitOf? 10 c = some d → Run [c] [d]
  | next {c : Char} {d : Nat} {cs : List Char} {ds : List Nat} :
    digitOf? 10 c = some d → Run cs ds → Run (c :: cs) (d :: ds)
  | parted {c : Char} {d : Nat} {cs : List Char} {ds : List Nat} :
    digitOf? 10 c = some d → Run cs ds → Run (c :: '_' :: cs) (d :: ds)

theorem Run.exists_cons (h : Run run ds) :
    ∃ c d cs es, run = c :: cs ∧ ds = d :: es ∧ digitOf? 10 c = some d := by
  cases h with
  | last digit | next digit | parted digit => exact ⟨_, _, _, _, rfl, rfl, digit⟩

/-- A text that does not go on with a digit or an underscore ends a run. -/
def EndsRun (after : List Char) : Prop := ∀ c ∈ after.head?, digitOf? 10 c = none ∧ c ≠ '_'

theorem digits_of_endsRun (h : EndsRun after) : digits 10 after = ([], after) := by
  cases after with
  | nil => rfl
  | cons c cs =>
    obtain ⟨digit, mark⟩ := h c rfl
    simp [digits, digit, mark]

/-- Padding ends a run. -/
theorem endsRun_of_padded (h : ∀ c ∈ after, isPadding c = true) : EndsRun after := by
  intro c first
  have blank := h c (List.mem_of_mem_head? first)
  refine ⟨digitOf?_of_isPadding blank, ?_⟩
  rintro rfl
  cases blank

/-- A run is scanned to its end. -/
theorem Run.digits_append (h : Run run ds) (stop : EndsRun after) :
    digits 10 (run ++ after) = (ds, after) := by
  induction h with
  | last digit => simp only [List.singleton_append, digits, digit, digits_of_endsRun stop]
  | next digit _ ih => simp only [List.cons_append, digits, digit, ih]
  | @parted c d cs ds digit more ih =>
    have mark : digitOf? 10 '_' = none := by decide
    have starts : startsWithDigit 10 (cs ++ after) = true := by
      obtain ⟨c, d, cs, es, rfl, rfl, first⟩ := more.exists_cons
      simp [startsWithDigit, first]
    simp only [List.cons_append, digits, digit, mark, starts, decide_true, Bool.and_self, if_true,
      ih]

/-- What is scanned is a run, unless there is no digit at the start or behind an
underscore there. -/
theorem exists_run (cs : List Char) : digits 10 cs = ([], cs) ∨
    ∃ run ds after, Run run ds ∧ (cs = run ++ after ∨ cs = '_' :: run ++ after) ∧
      digits 10 cs = (ds, after) := by
  induction cs with
  | nil => exact .inl rfl
  | cons c cs ih =>
    cases digit : digitOf? 10 c with
    | some d =>
      refine .inr ?_
      simp only [digits, digit]
      obtain none | ⟨run, ds, after, more, rfl | rfl, scanned⟩ := ih
      · exact ⟨[c], [d], cs, .last digit, .inl rfl, by rw [none]⟩
      · exact ⟨c :: run, d :: ds, after, .next digit more, .inl rfl, by rw [scanned]⟩
      · exact ⟨c :: '_' :: run, d :: ds, after, .parted digit more, .inl rfl, by rw [scanned]⟩
    | none =>
      by_cases passed : c = '_' && startsWithDigit 10 cs
      · have skipped : digits 10 (c :: cs) = digits 10 cs := by
          simp only [digits, digit, if_pos passed]
        obtain ⟨rfl, starts⟩ : c = '_' ∧ startsWithDigit 10 cs = true := by simpa using passed
        rw [skipped]
        obtain none | ⟨run, ds, after, more, rfl | rfl, scanned⟩ := ih
        · cases cs with
          | nil => cases starts
          | cons c' cs' =>
            obtain ⟨d, first⟩ := Option.isSome_iff_exists.1 starts
            simp [digits, first] at none
        · exact .inr ⟨run, ds, after, more, .inr rfl, scanned⟩
        · cases starts
      · left
        simp only [digits, digit, if_neg passed]

/-- A magnitude is a run that is not too long, with padding behind it. -/
theorem unsigned_decimal_eq_ok_iff {m : Nat} : unsigned .decimal cs = .ok m ↔
    ∃ run ds after, Run run ds ∧ cs = run ++ after ∧ (∀ c ∈ after, isPadding c = true) ∧
      ds.length ≤ maxDigits ∧ m = value 10 ds := by
  rw [unsigned, unmarked]
  constructor
  · intro read
    split_ifs at read with mark
    rw [magnitude] at read
    obtain none | ⟨run, ds, after, more, rfl | rfl, scanned⟩ := exists_run cs
    · rw [none] at read
      cases read
    · simp only [scanned] at read
      split_ifs at read with stop long padded
      cases read
      refine ⟨run, ds, after, more, rfl, List.all_eq_true.1 padded, ?_, rfl⟩
      simpa using long
    · exact absurd rfl mark
  · rintro ⟨run, ds, after, more, rfl, padded, short, rfl⟩
    have stop : EndsRun after := endsRun_of_padded padded
    have opens : (run ++ after).head? ≠ some '_' := by
      obtain ⟨c, d, cs, es, rfl, rfl, digit⟩ := more.exists_cons
      rintro ⟨⟩
      cases digit
    have some_digit : ds.isEmpty = false := by
      obtain ⟨c, d, cs, es, rfl, rfl, -⟩ := more.exists_cons
      rfl
    have closes : after.head? ≠ some '_' := fun first => (stop '_' first).2 rfl
    have whole : after.all isPadding = true := List.all_eq_true.2 padded
    rw [if_neg opens, magnitude, more.digits_append stop]
    simp [some_digit, closes, whole, Nat.not_lt.2 short]

/-- The marks in front of a magnitude, and whether they make it negative. -/
def signs : List (List Char × Bool) := [([], false), (['+'], false), (['-'], true)]

theorem exists_sign (cs : List Char) :
    ∃ mark, (mark, (sign cs).1) ∈ signs ∧ cs = mark ++ (sign cs).2 := by
  unfold sign
  split
  · exact ⟨['+'], by simp [signs], rfl⟩
  · exact ⟨['-'], by simp [signs], rfl⟩
  · exact ⟨[], by simp [signs], rfl⟩

/-- A mark is taken off a text that starts with a digit behind it. -/
theorem sign_append {mark : List Char} {negative : Bool} {d : Nat} (h : (mark, negative) ∈ signs)
    (digit : digitOf? 10 c = some d) : sign (mark ++ c :: cs) = (negative, c :: cs) := by
  have plus : c ≠ '+' := by
    rintro rfl
    cases digit
  have minus : c ≠ '-' := by
    rintro rfl
    cases digit
  simp only [signs, List.mem_cons, Prod.mk.injEq, List.not_mem_nil, or_false] at h
  obtain ⟨rfl, rfl⟩ | ⟨rfl, rfl⟩ | ⟨rfl, rfl⟩ := h
  · rw [List.nil_append, sign]
    · rintro _ ⟨⟩
      exact plus rfl
    · rintro _ ⟨⟩
      exact minus rfl
  · rfl
  · rfl

theorem dropWhile_isPadding_append {before mark : List Char} {negative : Bool} {d : Nat}
    (padded : ∀ c ∈ before, isPadding c = true) (h : (mark, negative) ∈ signs)
    (digit : digitOf? 10 c = some d) :
    (before ++ (mark ++ c :: cs)).dropWhile isPadding = mark ++ c :: cs := by
  have visible : ¬ isPadding c = true := by
    intro blank
    rw [digitOf?_of_isPadding blank] at digit
    cases digit
  rw [List.dropWhile_append_of_pos padded]
  simp only [signs, List.mem_cons, Prod.mk.injEq, List.not_mem_nil, or_false] at h
  obtain ⟨rfl, -⟩ | ⟨rfl, -⟩ | ⟨rfl, -⟩ := h
  · exact List.dropWhile_cons_of_neg visible
  · exact List.dropWhile_cons_of_neg (by decide)
  · exact List.dropWhile_cons_of_neg (by decide)

/-- How an integer is written in decimal: a sign or none, a run that is not too long, and padding
around both. -/
def Spells (cs : List Char) (n : Int) : Prop :=
  ∃ before mark negative run ds after, cs = before ++ (mark ++ (run ++ after)) ∧
    (∀ c ∈ before, isPadding c = true) ∧ (mark, negative) ∈ signs ∧ Run run ds ∧
    ds.length ≤ maxDigits ∧ (∀ c ∈ after, isPadding c = true) ∧
    n = if negative then -(value 10 ds : Int) else value 10 ds

/-- What is taken for an integer is what spells it. -/
theorem read_decimal_eq_ok_iff : read .decimal cs = .ok n ↔ Spells cs n := by
  constructor
  · intro h
    obtain ⟨mark, known, body⟩ := exists_sign (cs.dropWhile isPadding)
    cases magnitude : unsigned .decimal (sign (cs.dropWhile isPadding)).2 with
    | error e => simp only [read, magnitude, reduceCtorEq] at h
    | ok m =>
      obtain ⟨run, ds, after, more, rest, padded, short, rfl⟩ :=
        unsigned_decimal_eq_ok_iff.1 magnitude
      simp only [read, magnitude, Except.ok.injEq] at h
      refine ⟨cs.takeWhile isPadding, mark, _, run, ds, after, ?_, fun c => List.mem_takeWhile_imp,
        known, more, short, padded, h.symm⟩
      rw [← rest, ← body, List.takeWhile_append_dropWhile]
  · rintro ⟨before, mark, negative, run, ds, after, rfl, padded, known, more, short, ends, rfl⟩
    have magnitude : unsigned .decimal (run ++ after) = .ok (value 10 ds) :=
      unsigned_decimal_eq_ok_iff.2 ⟨run, ds, after, more, rfl, ends, short, rfl⟩
    obtain ⟨c, d, cs, es, rfl, -, digit⟩ := more.exists_cons
    rw [List.cons_append] at magnitude ⊢
    simp only [read, dropWhile_isPadding_append padded known digit, sign_append known digit,
      magnitude]

end Reading

section Writing

theorem digitOf?_of_isDigit {c : Char} (h : c.isDigit = true) :
    digitOf? 10 c = some (c.toNat - '0'.toNat) := by
  obtain ⟨low, high⟩ : 48 ≤ c.toNat ∧ c.toNat ≤ 57 := Char.isDigit_iff_toNat.1 h
  have lower : ¬ ('a' ≤ c) := by
    intro le
    have : 97 ≤ c.toNat := le
    omega
  have upper : ¬ ('A' ≤ c) := by
    intro le
    have : 65 ≤ c.toNat := le
    omega
  have first : zeros.find? (fun z => z ≤ c.toNat && c.toNat < z + 10) = some 0x30 := by
    rw [zeros, List.find?_cons_of_pos]
    simp only [Bool.and_eq_true, decide_eq_true_eq]
    omega
  have read : digitValue? c = some (c.toNat - '0'.toNat) := by
    simp only [digitValue?, lower, upper, decide_false, Bool.false_and, Bool.false_eq_true,
      if_false, decimalValue?, first, Option.map_some]
    rfl
  have small : c.toNat - '0'.toNat < 10 := by
    change c.toNat - 48 < 10
    omega
  rw [digitOf?, read, Option.filter_some, if_pos (decide_eq_true small)]

theorem value_map_digit (cs : List Char) :
    value 10 (cs.map fun c => c.toNat - '0'.toNat) = Nat.ofDigitChars 10 cs 0 := by
  rw [value, List.foldl_map, Nat.ofDigitChars]
  simp only [Nat.mul_comm]

theorem isDigit_of_mem_toDigits {n : Nat} {c : Char} (h : c ∈ Nat.toDigits 10 n) :
    c.isDigit = true :=
  Nat.isDigit_of_mem_toDigits (by decide) (by decide) h

/-- The digits of a number are no longer than a numeral may be exactly if the number is small. -/
theorem length_toDigits_le_iff {n : Nat} : (Nat.toDigits 10 n).length ≤ maxDigits ↔ n < bound := by
  have pos : 0 < maxDigits := by decide
  unfold bound
  generalize maxDigits = k at pos ⊢
  exact Nat.length_toDigits_le_iff (by decide) pos

theorem isBlank_of_isDigit {c : Char} (h : c.isDigit = true) : isBlank c = false := by
  have range : 48 ≤ c.toNat ∧ c.toNat ≤ 57 := Char.isDigit_iff_toNat.1 h
  simp only [isBlank]
  grind

theorem toList_toString_ofNat (m : Nat) : (toString (Int.ofNat m)).toList = Nat.toDigits 10 m :=
  Nat.toList_repr

theorem toList_toString_negSucc (m : Nat) :
    (toString (Int.negSucc m)).toList = '-' :: Nat.toDigits 10 (m + 1) := by
  change ("-" ++ (m + 1).repr).toList = _
  rw [String.toList_append, Nat.toList_repr]
  rfl

theorem mem_toString {n : Int} {c : Char} (h : c ∈ (toString n).toList) :
    c = '-' ∨ c.isDigit = true := by
  cases n with
  | ofNat m =>
    rw [toList_toString_ofNat] at h
    exact .inr (isDigit_of_mem_toDigits h)
  | negSucc m =>
    rw [toList_toString_negSucc] at h
    exact (List.mem_cons.1 h).imp_right isDigit_of_mem_toDigits

/-- Digits are a run. -/
theorem run_of_isDigit {cs : List Char} (some : cs ≠ []) (h : ∀ c ∈ cs, c.isDigit = true) :
    Run cs (cs.map fun c => c.toNat - '0'.toNat) := by
  induction cs with
  | nil => exact absurd rfl some
  | cons c cs ih =>
    obtain ⟨first, others⟩ := List.forall_mem_cons.1 h
    cases cs with
    | nil => exact .last (digitOf?_of_isDigit first)
    | cons c' cs => exact .next (digitOf?_of_isDigit first) (ih (List.cons_ne_nil _ _) others)

/-- What is written for an integer spells it, if it is not too long. -/
theorem spells_toString {n : Int} (short : (Nat.toDigits 10 n.natAbs).length ≤ maxDigits) :
    Spells (toString n).toList n := by
  have run (m : Nat) :
      Run (Nat.toDigits 10 m) ((Nat.toDigits 10 m).map fun c => c.toNat - '0'.toNat) :=
    run_of_isDigit Nat.toDigits_ne_nil fun _ => isDigit_of_mem_toDigits
  have denoted (m : Nat) :
      value 10 ((Nat.toDigits 10 m).map fun c => c.toNat - '0'.toNat) = m := by
    rw [value_map_digit, Nat.ofDigitChars_ten_toDigits]
  rw [← List.length_map (f := fun c => c.toNat - '0'.toNat)] at short
  cases n with
  | ofNat m =>
    rw [toList_toString_ofNat]
    refine ⟨[], [], false, _, _, [], (List.append_nil _).symm, nofun, by simp [signs], run m, short,
      nofun, ?_⟩
    rw [denoted]
    rfl
  | negSucc m =>
    rw [toList_toString_negSucc]
    refine ⟨[], ['-'], true, _, _, [], ?_, nofun, by simp [signs], run (m + 1), short, nofun, ?_⟩
    · rw [List.append_nil]
      rfl
    · rw [denoted]
      rfl

/-- Digits denote less than the power of the base that has one more digit. -/
theorem value_lt {base : Nat} {ds : List Nat} (hbase : 1 < base) (h : ∀ d ∈ ds, d < base) :
    value base ds < base ^ ds.length := by
  have digits : value base ds = Nat.ofDigits base ds.reverse := by
    rw [Nat.ofDigits_eq_foldr, List.foldr_reverse, value]
    simp only [Nat.cast_id, Nat.mul_comm, Nat.add_comm]
  rw [digits, ← List.length_reverse]
  exact Nat.ofDigits_lt_base_pow_length hbase fun d hd => h d (List.mem_reverse.1 hd)

theorem natAbs_signed (negative : Bool) (m : Nat) :
    (if negative then -(m : Int) else m).natAbs = m := by
  cases negative
  · exact Int.natAbs_natCast m
  · exact Int.natAbs_neg m

theorem isWritable_of_lt_pow {n : Int} {k : Nat} (small : n.natAbs < 10 ^ k) (le : k ≤ maxDigits) :
    isWritable n = true := by
  have places : 10 ^ k ≤ bound := by
    unfold bound
    generalize maxDigits = limit at le ⊢
    exact Nat.pow_le_pow_right (by decide) le
  exact decide_eq_true (small.trans_le places)

theorem Run.lt_ten {run : List Char} {ds : List Nat} (h : Run run ds) : ∀ d ∈ ds, d < 10 := by
  have small {c : Char} {d : Nat} (digit : digitOf? 10 c = some d) : d < 10 :=
    of_decide_eq_true (Option.filter_eq_some_iff.1 digit).2
  induction h with
  | last digit => exact List.forall_mem_singleton.2 (small digit)
  | next digit _ ih | parted digit _ ih => exact List.forall_mem_cons.2 ⟨small digit, ih⟩

/-- What a numeral spells is short enough to be written. -/
theorem Spells.isWritable {cs : List Char} {n : Int} (h : Spells cs n) : isWritable n = true := by
  obtain ⟨before, mark, negative, run, ds, after, -, -, -, more, short, -, rfl⟩ := h
  refine isWritable_of_lt_pow ?_ short
  rw [natAbs_signed]
  exact value_lt (by decide) more.lt_ten

/-- An integer that is short enough to be written is read back. -/
theorem read_toString {n : Int} (h : isWritable n = true) :
    read .decimal (toString n).toList = .ok n :=
  read_decimal_eq_ok_iff.2 (spells_toString (length_toDigits_le_iff.2 (of_decide_eq_true h)))

end Writing

end Snark.Text.Numeral
