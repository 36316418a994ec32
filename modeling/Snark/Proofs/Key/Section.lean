import Mathlib.Tactic.Ring
import Snark.Key.File
import Snark.Proofs.Failure
import Snark.Proofs.Key.Basic
import Snark.Proofs.Key.Codec

/-!
# Sections of a key file

What the readers of the sections accept, as relations between bytes and what they stand for, and the
bytes that are written for it.
-/

namespace Snark.KeyFile

open Reading (Means)
open Montgomery

section Points

theorem means_readG1 : (readG1 .bn254).Means StandsG1 := by
  refine ((Means.bytes 64).bind fun bs => Means.lift (decodeG1 .bn254 bs)).congr fun bs p => ?_
  constructor
  · rintro ⟨_, _, bs, rfl, ⟨rfl, length⟩, rfl, decoded⟩
    rw [List.append_nil]
    exact ⟨length, decoded⟩
  · rintro ⟨length, decoded⟩
    exact ⟨bs, [], bs, (List.append_nil bs).symm, ⟨rfl, length⟩, rfl, decoded⟩

theorem means_readG2 : (readG2 .bn254).Means StandsG2 := by
  refine ((Means.bytes 128).bind fun bs => Means.lift (decodeG2 .bn254 bs)).congr fun bs p => ?_
  constructor
  · rintro ⟨_, _, bs, rfl, ⟨rfl, length⟩, rfl, decoded⟩
    rw [List.append_nil]
    exact ⟨length, decoded⟩
  · rintro ⟨length, decoded⟩
    exact ⟨bs, [], bs, (List.append_nil bs).symm, ⟨rfl, length⟩, rfl, decoded⟩

end Points

section Entries

variable {n : Counts}

/-- Some bytes stand for an entry of a matrix. -/
def StandsEntry (n : Counts) (bs : Bytes) (e : Coefficient) : Prop :=
  ∃ (matrix row signal : Nat) (value : Bytes),
    bs = Bytes.ofNat 4 matrix ++ Bytes.ofNat 4 row ++ Bytes.ofNat 4 signal ++ value ∧
    (matrix < Bytes.capacity 4 ∧ row < Bytes.capacity 4 ∧ signal < Bytes.capacity 4 ∧
      value.length = 32) ∧
    (matrix = 0 ∨ matrix = 1) ∧ row < n.domain ∧ signal < n.wires ∧
    e = ⟨matrix, row, signal, unstored scalarRadix 2 value⟩

/-- Reads the value of an entry whose place has been read, and checks the place. -/
def readValue (n : Counts) (matrix row signal : Nat) : Reading Coefficient := do
  Reading.require (matrix = 0 || matrix = 1) (.key (.matrix matrix))
  Reading.require (row < n.domain) (.key (.row row n.domain))
  Reading.require (signal < n.wires) (.key (.signal signal n.wires))
  let value ← decodeScalar .bn254 (← Reading.bytes 32)
  return ⟨matrix, row, signal, value⟩

theorem means_readValue (n : Counts) (matrix row signal : Nat) :
    (readValue n matrix row signal).Means fun bs e =>
      bs.length = 32 ∧ (matrix = 0 ∨ matrix = 1) ∧ row < n.domain ∧ signal < n.wires ∧
        e = ⟨matrix, row, signal, unstored scalarRadix 2 bs⟩ := by
  refine (Means.bind (Means.require _ _) fun _ => Means.bind (Means.require _ _) fun _ =>
    Means.bind (Means.require _ _) fun _ => Means.bind (Means.bytes 32) fun value =>
      Means.bind (Means.lift _) fun v => Means.pure _).congr fun bs e => ?_
  simp only [decodeScalar_eq, Except.ok.injEq, Bool.or_eq_true, decide_eq_true_eq]
  constructor
  · rintro ⟨_, _, _, rfl, ⟨rfl, known⟩, _, _, _, rfl, ⟨rfl, inRow⟩, _, _, _, rfl, ⟨rfl, inWires⟩,
      _, _, _, rfl, ⟨rfl, length⟩, _, _, _, rfl, ⟨rfl, rfl⟩, rfl, rfl⟩
    simp only [List.nil_append, List.append_nil, and_true]
    exact ⟨length, known, inRow, inWires⟩
  · rintro ⟨length, known, inRow, inWires, rfl⟩
    exact ⟨[], bs, (), rfl, ⟨rfl, known⟩, [], bs, (), rfl, ⟨rfl, inRow⟩, [], bs, (), rfl,
      ⟨rfl, inWires⟩, bs, [], bs, (List.append_nil bs).symm, ⟨rfl, length⟩, [], [], _, rfl,
      ⟨rfl, rfl⟩, rfl, rfl⟩

theorem readCoefficient_eq (n : Counts) : readCoefficient .bn254 n = (do
    let entry ← Reading.bytes 12
    readValue n (Bytes.toNat (entry.take 4)) (Bytes.toNat ((entry.drop 4).take 4))
      (Bytes.toNat (entry.drop 8))) :=
  rfl

theorem means_readCoefficient (n : Counts) :
    (readCoefficient .bn254 n).Means (StandsEntry n) := by
  rw [readCoefficient_eq]
  refine (Means.bind (Means.bytes 12) fun entry => means_readValue n _ _ _).congr fun bs e => ?_
  constructor
  · rintro ⟨entry, value, _, rfl, ⟨rfl, length⟩, width, known, inRow, inWires, rfl⟩
    have matrix_length : (entry.take 4).length = 4 := List.length_take_of_le (by omega)
    have row_length : ((entry.drop 4).take 4).length = 4 :=
      List.length_take_of_le (by rw [List.length_drop]; omega)
    have signal_length : (entry.drop 8).length = 4 := by rw [List.length_drop]; omega
    refine ⟨_, _, _, value, ?_, ⟨Bytes.toNat_lt_of_length matrix_length,
      Bytes.toNat_lt_of_length row_length, Bytes.toNat_lt_of_length signal_length, width⟩, known,
      inRow, inWires, rfl⟩
    have eight : entry.drop 8 = (entry.drop 4).drop 4 := by rw [List.drop_drop]
    rw [Bytes.ofNat_toNat_of_length matrix_length, Bytes.ofNat_toNat_of_length row_length,
      Bytes.ofNat_toNat_of_length signal_length, eight, List.append_assoc (entry.take 4),
      List.take_append_drop, List.take_append_drop]
  · rintro ⟨matrix, row, signal, value, rfl, ⟨matrix_lt, row_lt, signal_lt, width⟩, known, inRow,
      inWires, rfl⟩
    have matrix_eq : (Bytes.ofNat 4 matrix ++ Bytes.ofNat 4 row ++ Bytes.ofNat 4 signal).take 4 =
        Bytes.ofNat 4 matrix := by
      rw [List.append_assoc, List.take_left' (Bytes.length_ofNat 4 matrix)]
    have row_eq : ((Bytes.ofNat 4 matrix ++ Bytes.ofNat 4 row ++
        Bytes.ofNat 4 signal).drop 4).take 4 = Bytes.ofNat 4 row := by
      rw [List.append_assoc, List.drop_left' (Bytes.length_ofNat 4 matrix),
        List.take_left' (Bytes.length_ofNat 4 row)]
    have signal_eq : (Bytes.ofNat 4 matrix ++ Bytes.ofNat 4 row ++
        Bytes.ofNat 4 signal).drop 8 = Bytes.ofNat 4 signal := by
      rw [List.drop_left' (by rw [List.length_append, Bytes.length_ofNat, Bytes.length_ofNat])]
    refine ⟨_, value, _, rfl, ⟨rfl, by simp⟩, width, ?_⟩
    rw [matrix_eq, row_eq, signal_eq, Bytes.toNat_ofNat_of_lt matrix_lt,
      Bytes.toNat_ofNat_of_lt row_lt, Bytes.toNat_ofNat_of_lt signal_lt]
    exact ⟨known, inRow, inWires, rfl⟩

/-- The bytes of an entry. -/
noncomputable def entryBytes (e : Coefficient) : Bytes :=
  Bytes.ofNat 4 e.matrix.toNat ++ Bytes.ofNat 4 e.row.toNat ++ Bytes.ofNat 4 e.signal.toNat ++
    stored scalarRadix 32 2 e.value

theorem length_entryBytes (e : Coefficient) : (entryBytes e).length = 44 := by
  simp [entryBytes]

theorem StandsEntry.length_eq {bs : Bytes} {e : Coefficient} (h : StandsEntry n bs e) :
    bs.length = 44 := by
  obtain ⟨_, _, _, value, rfl, ⟨-, -, -, width⟩, -⟩ := h
  simp [width]

/-- The value in the bytes of an entry is a least representative. -/
def LeastValue (bs : Bytes) : Prop := Bytes.toNat (bs.drop 12) < scalarOrder

/-- The numbers of a valid entry are those of words. -/
theorem exists_words {e : Coefficient} (valid : e.Valid n.domain n.wires)
    (hdomain : n.domain ≤ Bytes.capacity 4) (hwires : n.wires ≤ Bytes.capacity 4) :
    ∃ matrix row signal : Nat, e = ⟨matrix, row, signal, e.value⟩ ∧
      (matrix < Bytes.capacity 4 ∧ row < Bytes.capacity 4 ∧ signal < Bytes.capacity 4) ∧
      (matrix = 0 ∨ matrix = 1) ∧ row < n.domain ∧ signal < n.wires := by
  obtain ⟨matrix, row, signal, value⟩ := e
  obtain ⟨known, ⟨row_nonneg, row_lt⟩, signal_nonneg, signal_lt⟩ := valid
  dsimp only at known row_nonneg row_lt signal_nonneg signal_lt
  have one_lt : 1 < Bytes.capacity 4 := by decide
  obtain ⟨matrix, rfl⟩ := Int.eq_ofNat_of_zero_le (show 0 ≤ matrix by omega)
  obtain ⟨row, rfl⟩ := Int.eq_ofNat_of_zero_le row_nonneg
  obtain ⟨signal, rfl⟩ := Int.eq_ofNat_of_zero_le signal_nonneg
  exact ⟨matrix, row, signal, rfl, by omega, by omega, by omega, by omega⟩

/-- A number that fits a field of four bytes. -/
def IsWord (i : Int) : Prop := 0 ≤ i ∧ i < Bytes.capacity 4

theorem IsWord.toNat_lt {i : Int} (h : IsWord i) : i.toNat < Bytes.capacity 4 := by
  have := h.1
  have := h.2
  omega

theorem IsWord.cast_toNat {i : Int} (h : IsWord i) : (i.toNat : Int) = i :=
  Int.toNat_of_nonneg h.1

theorem isWord_natCast {i : Nat} (h : i < Bytes.capacity 4) : IsWord i :=
  ⟨Int.natCast_nonneg i, Int.ofNat_lt.2 h⟩

/-- The place of an entry is given by words. -/
def HasPlace (e : Coefficient) : Prop := IsWord e.matrix ∧ IsWord e.row ∧ IsWord e.signal

/-- An entry is written exactly if its place is given by words. -/
theorem coefficientBytes_eq_ok_iff {e : Coefficient} {bs : Bytes} :
    coefficientBytes .bn254 e = .ok bs ↔ HasPlace e ∧ bs = entryBytes e := by
  simp only [coefficientBytes, Except.bind_eq_ok_iff, Bytes.field?_eq_ok_iff, encodeScalar_eq,
    Except.ok_bind, Except.pure_eq_ok, Except.ok.injEq]
  constructor
  · rintro ⟨_, ⟨matrix, rfl⟩, _, ⟨row, rfl⟩, _, ⟨signal, rfl⟩, rfl⟩
    exact ⟨⟨matrix, row, signal⟩, rfl⟩
  · rintro ⟨⟨matrix, row, signal⟩, rfl⟩
    exact ⟨_, ⟨matrix, rfl⟩, _, ⟨row, rfl⟩, _, ⟨signal, rfl⟩, rfl⟩

theorem hasPlace_of_valid {e : Coefficient} (valid : e.Valid n.domain n.wires)
    (hdomain : n.domain ≤ Bytes.capacity 4) (hwires : n.wires ≤ Bytes.capacity 4) :
    HasPlace e := by
  obtain ⟨matrix, row, signal, same, ⟨matrix_lt, row_lt, signal_lt⟩, -⟩ :=
    exists_words valid hdomain hwires
  rw [same]
  exact ⟨isWord_natCast matrix_lt, isWord_natCast row_lt, isWord_natCast signal_lt⟩

theorem drop_entry {matrix row signal value : Bytes} (hmatrix : matrix.length = 4)
    (hrow : row.length = 4) (hsignal : signal.length = 4) :
    (matrix ++ row ++ signal ++ value).drop 12 = value := by
  rw [List.drop_left']
  rw [List.length_append, List.length_append, hmatrix, hrow, hsignal]

/-- Entries are written as they are read. -/
theorem encodes_entry (hdomain : n.domain ≤ Bytes.capacity 4)
    (hwires : n.wires ≤ Bytes.capacity 4) :
    Encodes (StandsEntry n) entryBytes (fun e => e.Valid n.domain n.wires) 44 44 LeastValue where
  block_pos := by decide
  width_eq := ⟨1, rfl⟩
  length_eq h := h.length_eq
  valid_of := by
    rintro _ e ⟨matrix, row, signal, value, -, -, known, inRow, inWires, rfl⟩
    refine ⟨?_, ⟨Int.natCast_nonneg row, Int.ofNat_lt.2 inRow⟩, Int.natCast_nonneg signal,
      Int.ofNat_lt.2 inWires⟩
    change (matrix : Int) = 0 ∨ (matrix : Int) = 1
    omega
  stands_bytes := by
    intro e valid
    obtain ⟨matrix, row, signal, same, ⟨matrix_lt, row_lt, signal_lt⟩, checks⟩ :=
      exists_words valid hdomain hwires
    refine ⟨matrix, row, signal, stored scalarRadix 32 2 e.value, ?_,
      ⟨matrix_lt, row_lt, signal_lt, length_stored ..⟩, checks.1, checks.2.1, checks.2.2, ?_⟩
    · rw [same, entryBytes]
      rfl
    · rw [unstored_stored _ scalarOrder_lt_capacity.le]
      exact same
  canonical_bytes := by
    intro e _
    rw [Bytes.eachBlock_of_length (by decide) (length_entryBytes e), LeastValue, entryBytes,
      drop_entry (Bytes.length_ofNat ..) (Bytes.length_ofNat ..) (Bytes.length_ofNat ..)]
    exact toNat_stored_lt _ scalarOrder_lt_capacity.le _
  bytes_eq := by
    rintro _ e ⟨matrix, row, signal, value, rfl, ⟨-, -, -, width⟩, -, -, -, rfl⟩ least
    rw [Bytes.eachBlock_of_length (by decide) (by simp [width]), LeastValue,
      drop_entry (Bytes.length_ofNat ..) (Bytes.length_ofNat ..) (Bytes.length_ofNat ..)] at least
    simp only [entryBytes, Int.toNat_natCast]
    rw [stored_unstored _ width least]

/-- The entries of a section have their number in front. -/
theorem means_readCoefficients (n : Counts) :
    (readCoefficients .bn254 n).Means fun bs es => ∃ entries,
      bs = Bytes.ofNat 4 es.length ++ entries ∧ es.length < Bytes.capacity 4 ∧
        Reading.StandMany (StandsEntry n) es.length entries es := by
  refine ((Means.number 4).bind fun count => (means_readCoefficient n).many count).congr
    fun bs es => ?_
  constructor
  · rintro ⟨_, entries, _, rfl, ⟨rfl, fits⟩, blocks, rfl, each, rfl⟩
    exact ⟨_, rfl, fits, blocks, rfl, each, rfl⟩
  · rintro ⟨entries, rfl, fits, each⟩
    exact ⟨_, _, _, rfl, ⟨rfl, fits⟩, each⟩

end Entries

section Failures

variable {sort : Failure → Prop} (framing : ∀ e, sort (.framing e))
  (format : ∀ e, (Failure.key e).ReportedAs .format → sort (.key e))

include format in
theorem decodeG1_failsIn (bs : Bytes) : Except.FailsIn sort (decodeG1 .bn254 bs) := by
  rw [decodeG1, readCoordinate_eq, Except.ok_bind, readCoordinate_eq, Except.ok_bind]
  refine .ite (fun _ => .ok _) fun _ => .ite (fun _ => .ok _) fun _ => ?_
  exact .error (format _ ⟨_, rfl, rfl⟩)

include format in
theorem decodeG2_failsIn (bs : Bytes) : Except.FailsIn sort (decodeG2 .bn254 bs) := by
  rw [decodeG2, readCoordinate_eq, Except.ok_bind, readCoordinate_eq, Except.ok_bind,
    readCoordinate_eq, Except.ok_bind, readCoordinate_eq, Except.ok_bind]
  refine .ite (fun _ => .ok _) fun _ => .ite (fun _ => .ok _) fun _ => ?_
  exact .error (format _ ⟨_, rfl, rfl⟩)

include framing format

theorem readG1_failsIn : (readG1 .bn254).FailsIn sort :=
  (Reading.FailsIn.bytes framing 64).bind fun bs => .lift (decodeG1_failsIn format bs)

theorem readG2_failsIn : (readG2 .bn254).FailsIn sort :=
  (Reading.FailsIn.bytes framing 128).bind fun bs => .lift (decodeG2_failsIn format bs)

theorem readCoefficients_failsIn (wire : ∀ signal wires, sort (.key (.signal signal wires)))
    (n : Counts) : (readCoefficients .bn254 n).FailsIn sort := by
  refine (Reading.FailsIn.number framing 4).bind fun count => .many ?_ count
  rw [readCoefficient_eq]
  refine (Reading.FailsIn.bytes framing 12).bind fun entry => ?_
  refine (Reading.FailsIn.require _ (format _ ⟨_, rfl, rfl⟩)).bind fun _ => ?_
  refine (Reading.FailsIn.require _ (format _ ⟨_, rfl, rfl⟩)).bind fun _ => ?_
  refine (Reading.FailsIn.require _ (wire _ _)).bind fun _ => ?_
  refine (Reading.FailsIn.bytes framing 32).bind fun value => ?_
  rw [decodeScalar_eq]
  exact (Reading.FailsIn.lift (.ok _)).bind fun v => .pure _

end Failures

end Snark.KeyFile
