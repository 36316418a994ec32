import Snark.Proofs.Bytes
import Snark.Proofs.Container.Reading

/-!
# Spellings

The grammar of a section is put together from spellings: numbers of a fixed width, fields one after
another, and lists with or without their length in front. A spelling can be told from what follows
it, so bytes are spelled by one value at most, even where a reader maps several values to one.
-/

namespace Snark

/-- What may stand in a part of a file, and its bytes. Where the bytes of a value end can be told
from the bytes themselves. -/
structure Spelling (τ : Type) where
  bytes : τ → Bytes
  Valid : τ → Prop
  unique {t t' : τ} {rest rest' : Bytes} (ht : Valid t) (ht' : Valid t')
    (same : bytes t ++ rest = bytes t' ++ rest') : t = t' ∧ rest = rest'

namespace Spelling

variable {τ σ α β : Type} {spelling : Spelling τ} {denote : τ → α}

theorem bytes_inj {t t' : τ} (ht : spelling.Valid t) (ht' : spelling.Valid t')
    (same : spelling.bytes t = spelling.bytes t') : t = t' :=
  (spelling.unique ht ht' (congrArg (· ++ []) same)).1

/-- A little-endian number of a fixed width. -/
def number (width : Nat) : Spelling Nat where
  bytes n := Bytes.ofNat width n
  Valid n := n < Bytes.capacity width
  unique := by
    intro n n' rest rest' hn hn' same
    have lengths : (Bytes.ofNat width n).length = (Bytes.ofNat width n').length := by
      rw [Bytes.length_ofNat, Bytes.length_ofNat]
    obtain ⟨bytes_eq, rest_eq⟩ := List.append_inj same lengths
    refine ⟨?_, rest_eq⟩
    rw [← Bytes.toNat_ofNat_of_lt hn, bytes_eq, Bytes.toNat_ofNat_of_lt hn']

/-- A value with a property. -/
def restrict (spelling : Spelling τ) (good : τ → Prop) : Spelling τ where
  bytes := spelling.bytes
  Valid t := spelling.Valid t ∧ good t
  unique ht ht' same := spelling.unique ht.1 ht'.1 same

/-- Two values one after the other. -/
def pair (first : Spelling τ) (second : Spelling σ) : Spelling (τ × σ) where
  bytes t := first.bytes t.1 ++ second.bytes t.2
  Valid t := first.Valid t.1 ∧ second.Valid t.2
  unique := by
    rintro ⟨t, u⟩ ⟨t', u'⟩ rest rest' ⟨ht, hu⟩ ⟨ht', hu'⟩ same
    rw [List.append_assoc, List.append_assoc] at same
    obtain ⟨rfl, later⟩ := first.unique ht ht' same
    obtain ⟨rfl, rfl⟩ := second.unique hu hu' later
    exact ⟨rfl, rfl⟩

/-- A number of values one after another. -/
def many (spelling : Spelling τ) (n : Nat) : Spelling (List τ) where
  bytes ts := ts.flatMap spelling.bytes
  Valid ts := ts.length = n ∧ ∀ t ∈ ts, spelling.Valid t
  unique := by
    intro ts ts' rest rest' hts hts' same
    induction n generalizing ts ts' with
    | zero =>
      obtain rfl := List.eq_nil_of_length_eq_zero hts.1
      obtain rfl := List.eq_nil_of_length_eq_zero hts'.1
      exact ⟨rfl, same⟩
    | succ n ih =>
      obtain ⟨t, ts, rfl⟩ := List.exists_cons_of_length_eq_add_one hts.1
      obtain ⟨t', ts', rfl⟩ := List.exists_cons_of_length_eq_add_one hts'.1
      obtain ⟨ht, each⟩ := List.forall_mem_cons.1 hts.2
      obtain ⟨ht', each'⟩ := List.forall_mem_cons.1 hts'.2
      rw [List.flatMap_cons, List.flatMap_cons, List.append_assoc, List.append_assoc] at same
      obtain ⟨rfl, later⟩ := spelling.unique ht ht' same
      obtain ⟨rfl, rfl⟩ := ih ⟨Nat.succ.inj hts.1, each⟩ ⟨Nat.succ.inj hts'.1, each'⟩ later
      exact ⟨rfl, rfl⟩

/-- A list with its length in front, as a number of the given width. -/
def counted (spelling : Spelling τ) (width : Nat) : Spelling (List τ) where
  bytes ts := Bytes.ofNat width ts.length ++ ts.flatMap spelling.bytes
  Valid ts := ts.length < Bytes.capacity width ∧ ∀ t ∈ ts, spelling.Valid t
  unique := by
    rintro ts ts' rest rest' ⟨hlength, each⟩ ⟨hlength', each'⟩ same
    rw [List.append_assoc, List.append_assoc] at same
    obtain ⟨length_eq, later⟩ := (number width).unique hlength hlength' same
    exact (spelling.many ts.length).unique ⟨rfl, each⟩ ⟨length_eq.symm, each'⟩ later

/-- Bytes stand for what the value denotes that they spell. -/
def Stands (spelling : Spelling τ) (denote : τ → α) (bs : Bytes) (x : α) : Prop :=
  ∃ t, spelling.Valid t ∧ bs = spelling.bytes t ∧ x = denote t

end Spelling

namespace Reading

open Spelling (Stands)

variable {τ σ α β : Type} {spelling : Spelling τ} {denote : τ → α} {item : Reading α}

theorem Means.spelled_number (width : Nat) :
    (Reading.number width).Means ((Spelling.number width).Stands id) := by
  refine (Means.number width).congr fun bs n => ?_
  constructor
  · rintro ⟨rfl, fits⟩
    exact ⟨n, fits, rfl, rfl⟩
  · rintro ⟨_, fits, rfl, rfl⟩
    exact ⟨rfl, fits⟩

theorem standMany_stands_iff {n : Nat} {bs : Bytes} {xs : List α} :
    StandMany (spelling.Stands denote) n bs xs ↔
      (spelling.many n).Stands (List.map denote) bs xs := by
  constructor
  · rintro ⟨blocks, rfl, each, rfl⟩
    induction each with
    | nil => exact ⟨[], ⟨rfl, by simp⟩, rfl, rfl⟩
    | cons first _ ih =>
      obtain ⟨t, ht, rfl, rfl⟩ := first
      obtain ⟨ts, ⟨length, hts⟩, bytes_eq, rfl⟩ := ih
      refine ⟨t :: ts, ⟨?_, List.forall_mem_cons.2 ⟨ht, hts⟩⟩, ?_, rfl⟩
      · rw [List.length_cons, List.length_cons, length]
      · rw [List.flatten_cons, bytes_eq]
        rfl
  · rintro ⟨ts, ⟨rfl, hts⟩, rfl, rfl⟩
    refine ⟨ts.map spelling.bytes, List.flatMap_def, ?_, List.length_map _⟩
    rw [List.forall₂_map_left_iff, List.forall₂_map_right_iff, List.forall₂_same]
    intro t ht
    exact ⟨t, hts t ht, rfl, rfl⟩

theorem Means.spelled_manyFrom {item : Nat → Reading α}
    (h : ∀ i, (item i).Means (spelling.Stands denote)) (i n : Nat) :
    (Reading.manyFrom item i n).Means ((spelling.many n).Stands (List.map denote)) :=
  (Means.manyFrom h i n).congr fun _ _ => standMany_stands_iff

theorem Means.spelled_many (h : item.Means (spelling.Stands denote)) (n : Nat) :
    (Reading.many item n).Means ((spelling.many n).Stands (List.map denote)) :=
  (h.many n).congr fun _ _ => standMany_stands_iff

theorem Means.spelled_counted (h : item.Means (spelling.Stands denote)) (width : Nat) :
    (do let n ← Reading.number width; Reading.many item n).Means
      ((spelling.counted width).Stands (List.map denote)) := by
  refine ((Means.number width).bind fun n => h.spelled_many n).congr fun bs xs => ?_
  constructor
  · rintro ⟨_, _, n, rfl, ⟨rfl, fits⟩, ts, ⟨rfl, hts⟩, rfl, rfl⟩
    exact ⟨ts, ⟨fits, hts⟩, rfl, rfl⟩
  · rintro ⟨ts, ⟨fits, hts⟩, rfl, rfl⟩
    exact ⟨_, _, ts.length, rfl, ⟨rfl, fits⟩, ts, ⟨rfl, hts⟩, rfl, rfl⟩

/-- Two values are read one after the other. -/
theorem Means.spelled_pair {second : Reading β} {spelling' : Spelling σ} {denote' : σ → β}
    (h : item.Means (spelling.Stands denote)) (h' : second.Means (spelling'.Stands denote')) :
    (do let x ← item; let y ← second; return (x, y)).Means
      ((spelling.pair spelling').Stands (Prod.map denote denote')) := by
  refine (h.bind fun x => h'.bind fun y => Means.pure (x, y)).congr fun bs z => ?_
  constructor
  · rintro ⟨_, _, _, rfl, ⟨t, ht, rfl, rfl⟩, _, _, _, rfl, ⟨u, hu, rfl, rfl⟩, rfl, rfl⟩
    refine ⟨(t, u), ⟨ht, hu⟩, ?_, rfl⟩
    rw [List.append_nil]
    rfl
  · rintro ⟨⟨t, u⟩, ⟨ht, hu⟩, rfl, rfl⟩
    exact ⟨_, _, _, rfl, ⟨t, ht, rfl, rfl⟩, _, [], _, (List.append_nil _).symm,
      ⟨u, hu, rfl, rfl⟩, rfl, rfl⟩

/-- What is read is returned in another form. -/
theorem Means.spelled_map {f : α → β} (h : item.Means (spelling.Stands denote)) :
    (do let x ← item; return f x).Means (spelling.Stands fun t => f (denote t)) := by
  refine (h.bind fun x => Means.pure (f x)).congr fun bs y => ?_
  constructor
  · rintro ⟨_, _, _, rfl, ⟨t, ht, rfl, rfl⟩, rfl, rfl⟩
    exact ⟨t, ht, List.append_nil _, rfl⟩
  · rintro ⟨t, ht, rfl, rfl⟩
    exact ⟨_, [], _, (List.append_nil _).symm, ⟨t, ht, rfl, rfl⟩, rfl, rfl⟩

/-- What is read is checked before anything else is read. -/
theorem Means.spelled_restrict {good : τ → Prop} {check : α → Bool} {cause : α → Failure}
    (h : item.Means (spelling.Stands denote))
    (decides : ∀ t, check (denote t) = true ↔ good t) :
    (do let x ← item; Reading.require (check x) (cause x); return x).Means
      ((spelling.restrict good).Stands denote) := by
  refine (h.bind fun x => (Means.require (check x) (cause x)).bind fun _ => Means.pure x).congr
    fun bs y => ?_
  constructor
  · rintro ⟨_, _, _, rfl, ⟨t, ht, rfl, rfl⟩, _, _, _, rfl, ⟨rfl, checked⟩, rfl, rfl⟩
    exact ⟨t, ⟨ht, (decides t).1 checked⟩, List.append_nil _, rfl⟩
  · rintro ⟨t, ⟨ht, hgood⟩, rfl, rfl⟩
    exact ⟨_, [], _, (List.append_nil _).symm, ⟨t, ht, rfl, rfl⟩, [], [], (), rfl,
      ⟨rfl, (decides t).2 hgood⟩, rfl, rfl⟩

end Reading

end Snark
