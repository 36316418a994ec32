import Snark.Proofs.Container.Framing
import Snark.Proofs.Container.Spelling
import Snark.Proofs.Key.Codec
import Snark.System.File

/-!
# The grammar of constraint-system files

The header is a fixed record of numbers, the constraints are triples of counted lists of terms, and
the labels are as many numbers as there are wires. Coefficients are stored as numbers, which the
reader reduces: the grammar speaks of the stored numbers, and the system that they denote is a
function of them.
-/

namespace Snark.ConstraintSystem

open KeyFile (bn254_r bn254_scalarWidth scalarOrder_lt_capacity)
open Reading (Means MeansWhole)

section Header

/-- The counts of a header fit their fields and one another. -/
structure Header.Fits (h : Header) : Prop where
  wires_lt : h.wires < Bytes.capacity 4
  publicOutputs_lt : h.publicOutputs < Bytes.capacity 4
  publicInputs_lt : h.publicInputs < Bytes.capacity 4
  privateInputs_lt : h.privateInputs < Bytes.capacity 4
  labels_lt : h.labels < Bytes.capacity 8
  constraints_lt : h.constraints < Bytes.capacity 4
  signals_le : 1 + (h.publicOutputs + h.publicInputs + h.privateInputs) ≤ h.wires

/-- The counts of a header fit, and it is for the scalar field. -/
structure Header.Valid (h : Header) : Prop extends h.Fits where
  fieldWidth_eq : h.fieldWidth = 32
  prime_eq : h.prime = scalarOrder

/-- The bytes of the field of the coefficients. -/
def spelledField (fieldWidth prime : Nat) : Bytes :=
  Bytes.ofNat 4 fieldWidth ++ Bytes.ofNat fieldWidth prime

/-- The bytes of the counts of a header. -/
def Header.spelledCounts (h : Header) : Bytes :=
  Bytes.ofNat 4 h.wires ++ (Bytes.ofNat 4 h.publicOutputs ++ (Bytes.ofNat 4 h.publicInputs ++
    (Bytes.ofNat 4 h.privateInputs ++ (Bytes.ofNat 8 h.labels ++ Bytes.ofNat 4 h.constraints))))

/-- The bytes of a header. -/
def Header.spelled (h : Header) : Bytes := spelledField h.fieldWidth h.prime ++ h.spelledCounts

theorem Header.length_spelled (h : Header) : h.spelled.length = 32 + h.fieldWidth := by
  simp only [spelled, spelledField, spelledCounts, List.length_append, Bytes.length_ofNat]
  omega

/-- Reads the field of the coefficients from a header of the given size. -/
def readField (curve : CurveParams) (size : Nat) : Reading (Nat × Nat) := do
  let fieldWidth ← Reading.word
  Reading.require (fieldWidth = curve.scalarWidth)
    (.system (.fieldWidth fieldWidth curve.scalarWidth))
  Reading.require (size = 32 + fieldWidth) (.system (.headerSize size))
  let prime ← Reading.number fieldWidth
  Reading.require (prime = curve.r) (.system (.prime prime curve.name))
  return (fieldWidth, prime)

theorem means_readField (size : Nat) : (readField .bn254 size).Means fun bs x =>
    bs = spelledField x.1 x.2 ∧ size = 64 ∧ x = (32, scalarOrder) := by
  refine (Means.bind (Means.number 4) fun _ => Means.bind (Means.require _ _) fun _ =>
    Means.bind (Means.require _ _) fun _ => Means.bind (Means.number _) fun _ =>
    Means.bind (Means.require _ _) fun _ => Means.pure _).congr fun bs x => ?_
  constructor
  · rintro ⟨_, _, width, rfl, ⟨rfl, -⟩, _, _, _, rfl, ⟨rfl, same_width⟩, _, _, _, rfl,
      ⟨rfl, same_size⟩, _, _, prime, rfl, ⟨rfl, -⟩, _, _, _, rfl, ⟨rfl, same_prime⟩, rfl, rfl⟩
    obtain rfl : width = 32 := Int.ofNat_inj.1 (of_decide_eq_true same_width)
    obtain rfl : prime = scalarOrder := Int.ofNat_inj.1 (of_decide_eq_true same_prime)
    refine ⟨?_, of_decide_eq_true same_size, rfl⟩
    simp only [spelledField, List.nil_append, List.append_nil]
  · rintro ⟨rfl, rfl, rfl⟩
    exact ⟨_, _, 32, rfl, ⟨rfl, by decide⟩, [], _, (), rfl, ⟨rfl, rfl⟩, [], _, (), rfl, ⟨rfl, rfl⟩,
      _, [], scalarOrder, (List.append_nil _).symm, ⟨rfl, scalarOrder_lt_capacity⟩,
      [], [], (), rfl, ⟨rfl, decide_eq_true rfl⟩, rfl, rfl⟩

/-- Reads the counts of a header. -/
def readCounts (fieldWidth prime : Nat) : Reading Header := do
  let wires ← Reading.word
  let publicOutputs ← Reading.word
  let publicInputs ← Reading.word
  let privateInputs ← Reading.word
  let labels ← Reading.wideWord
  let constraints ← Reading.word
  let signals := publicOutputs + publicInputs + privateInputs
  Reading.require (1 + signals ≤ wires) (.system (.signals wires signals))
  return ⟨fieldWidth, prime, wires, publicOutputs, publicInputs, privateInputs, labels, constraints⟩

theorem means_readCounts (fieldWidth prime : Nat) :
    (readCounts fieldWidth prime).Means fun bs h =>
      bs = h.spelledCounts ∧ h.Fits ∧ h.fieldWidth = fieldWidth ∧ h.prime = prime := by
  refine (Means.bind (Means.number 4) fun _ => Means.bind (Means.number 4) fun _ =>
    Means.bind (Means.number 4) fun _ => Means.bind (Means.number 4) fun _ =>
    Means.bind (Means.number 8) fun _ => Means.bind (Means.number 4) fun _ =>
    Means.bind (Means.require _ _) fun _ => Means.pure _).congr fun bs h => ?_
  simp only [decide_eq_true_eq]
  constructor
  · rintro ⟨_, _, wires, rfl, ⟨rfl, wires_lt⟩, _, _, outputs, rfl, ⟨rfl, outputs_lt⟩,
      _, _, inputs, rfl, ⟨rfl, inputs_lt⟩, _, _, hidden, rfl, ⟨rfl, hidden_lt⟩,
      _, _, labels, rfl, ⟨rfl, labels_lt⟩, _, _, constraints, rfl, ⟨rfl, constraints_lt⟩,
      _, _, _, rfl, ⟨rfl, signals_le⟩, rfl, rfl⟩
    refine ⟨?_, ⟨wires_lt, outputs_lt, inputs_lt, hidden_lt, labels_lt, constraints_lt, signals_le⟩,
      rfl, rfl⟩
    simp only [Header.spelledCounts, List.append_nil]
  · rintro ⟨rfl, fits, rfl, rfl⟩
    exact ⟨_, _, h.wires, rfl, ⟨rfl, fits.wires_lt⟩,
      _, _, h.publicOutputs, rfl, ⟨rfl, fits.publicOutputs_lt⟩,
      _, _, h.publicInputs, rfl, ⟨rfl, fits.publicInputs_lt⟩,
      _, _, h.privateInputs, rfl, ⟨rfl, fits.privateInputs_lt⟩,
      _, _, h.labels, rfl, ⟨rfl, fits.labels_lt⟩,
      _, [], h.constraints, (List.append_nil _).symm, ⟨rfl, fits.constraints_lt⟩,
      [], [], (), rfl, ⟨rfl, fits.signals_le⟩, rfl, rfl⟩

/-- Reads a header from a section of the given size. -/
def readFields (curve : CurveParams) (size : Nat) : Reading Header := do
  let (fieldWidth, prime) ← readField curve size
  readCounts fieldWidth prime

theorem readHeader_eq (curve : CurveParams) :
    readHeader curve = (do readFields curve (← get).source.size) := by
  simp only [readHeader, readFields, readField, readCounts, bind_assoc, pure_bind]

theorem means_readFields (size : Nat) : (readFields .bn254 size).Means fun bs h =>
    bs = h.spelled ∧ h.Valid ∧ size = 64 := by
  refine ((means_readField size).bind fun x => means_readCounts x.1 x.2).congr fun bs h => ?_
  constructor
  · rintro ⟨_, _, _, rfl, ⟨rfl, same_size, rfl⟩, rfl, fits, same_width, same_prime⟩
    refine ⟨?_, ⟨fits, same_width, same_prime⟩, same_size⟩
    rw [Header.spelled, same_width, same_prime]
  · rintro ⟨rfl, valid, same_size⟩
    refine ⟨_, _, (h.fieldWidth, h.prime), rfl, ⟨rfl, same_size, ?_⟩, rfl, valid.toFits, rfl, rfl⟩
    rw [valid.fieldWidth_eq, valid.prime_eq]

/-- The header section is a valid header and nothing else. -/
theorem means_readHeader : (readHeader .bn254).MeansWhole fun bs h =>
    bs = h.spelled ∧ h.Valid := by
  have length {h : Header} (valid : h.Valid) : h.spelled.length = 64 := by
    rw [h.length_spelled, valid.fieldWidth_eq]
  rw [readHeader_eq]
  refine (MeansWhole.sized means_readFields ?_).congr fun bs h => ?_
  · rintro size bs h ⟨rfl, valid, rfl⟩
    exact length valid
  · constructor
    · rintro ⟨spelled, valid, -⟩
      exact ⟨spelled, valid⟩
    · rintro ⟨rfl, valid⟩
      exact ⟨rfl, valid, length valid⟩

end Header

section Constraints

/-- A combination as it is stored: wires with the numbers that their coefficients are read from. -/
abbrev StoredCombination := List (Nat × Nat)

/-- A wire that exists, and the number of a coefficient. -/
def termSpelling (wires : Nat) : Spelling (Nat × Nat) :=
  ((Spelling.number 4).restrict (· < wires)).pair (Spelling.number 32)

/-- The number of the terms of a combination, and the terms. -/
def combinationSpelling (wires : Nat) : Spelling StoredCombination :=
  (termSpelling wires).counted 4

/-- The three combinations of a constraint. -/
def constraintSpelling (wires : Nat) :
    Spelling (StoredCombination × StoredCombination × StoredCombination) :=
  (combinationSpelling wires).pair ((combinationSpelling wires).pair (combinationSpelling wires))

/-- The term that a stored one denotes. -/
def termOf (t : Nat × Nat) : Int × Fr := (t.1, .ofNat t.2)

/-- The combination that a stored one denotes. -/
def combinationOf (ts : StoredCombination) : LinearCombination := ts.map termOf

/-- The constraint that a stored one denotes. -/
def constraintOf (k : StoredCombination × StoredCombination × StoredCombination) : Constraint :=
  ⟨combinationOf k.1, combinationOf k.2.1, combinationOf k.2.2⟩

variable (wires i : Nat)

theorem means_readTerm :
    (readTerm wires 32 i).Means ((termSpelling wires).Stands termOf) := by
  have reader_eq : readTerm wires 32 i = (do
      let t ← (do
        let wire ← (do
          let wire ← Reading.number 4
          Reading.require (wire < wires) (.system (.wire i wire wires))
          return wire)
        let coeff ← Reading.number 32
        return (wire, coeff))
      return termOf t) := by
    simp only [readTerm, termOf, bind_assoc, pure_bind]
    rfl
  have exists_wire : (do
      let wire ← Reading.number 4
      Reading.require (wire < wires) (.system (.wire i wire wires))
      return wire : Reading Nat).Means (((Spelling.number 4).restrict (· < wires)).Stands id) :=
    (Means.spelled_number 4).spelled_restrict fun wire => decide_eq_true_iff
  rw [reader_eq]
  exact (exists_wire.spelled_pair (Means.spelled_number 32)).spelled_map

theorem means_readCombination :
    (readCombination wires 32 i).Means ((combinationSpelling wires).Stands combinationOf) :=
  (means_readTerm wires i).spelled_counted 4

theorem means_readConstraint :
    (readConstraint wires 32 i).Means ((constraintSpelling wires).Stands constraintOf) := by
  have reader_eq : readConstraint wires 32 i = (do
      let k ← (do
        let a ← readCombination wires 32 i
        let bc ← (do
          let b ← readCombination wires 32 i
          let c ← readCombination wires 32 i
          return (b, c))
        return (a, bc))
      return ⟨k.1, k.2.1, k.2.2⟩) := by
    simp only [readConstraint, bind_assoc, pure_bind]
  have combination := means_readCombination wires i
  rw [reader_eq]
  exact (combination.spelled_pair (combination.spelled_pair combination)).spelled_map

/-- The constraints section is as many constraints as the header says, and nothing else. -/
theorem means_readConstraints {h : Header} (width : h.fieldWidth = 32) :
    (readConstraints h).MeansWhole
      (((constraintSpelling h.wires).many h.constraints).Stands (List.map constraintOf)) := by
  have each (i : Nat) := means_readConstraint h.wires i
  rw [← width] at each
  exact MeansWhole.ended (Means.spelled_manyFrom each 0 h.constraints)

end Constraints

section Labels

/-- The labels of the wires. -/
def labelsSpelling (wires : Nat) : Spelling (List Nat) :=
  ((Spelling.number 8).many wires).restrict fun labels => ∀ first ∈ labels.head?, first = 0

theorem length_labelsSpelling {wires : Nat} {labels : List Nat}
    (h : (labelsSpelling wires).Valid labels) :
    ((labelsSpelling wires).bytes labels).length = wires * 8 := by
  obtain ⟨⟨rfl, -⟩, -⟩ := h
  change (labels.flatMap fun n => Bytes.ofNat 8 n).length = _
  rw [List.length_flatMap]
  simp

/-- The label of the constant wire is zero. -/
def checkFirst (labels : List Nat) : Reading (List Nat) :=
  match labels with
  | [] => return labels
  | first :: _ => do
    Reading.require (first = 0) (.system (.firstLabel first))
    return labels

theorem means_checkFirst (labels : List Nat) : (checkFirst labels).Means fun bs x =>
    bs = [] ∧ (∀ first ∈ labels.head?, first = 0) ∧ x = labels := by
  cases labels with
  | nil =>
    refine (Means.pure []).congr fun bs x => ?_
    simp
  | cons first rest =>
    refine ((Means.require _ _).bind fun _ => Means.pure _).congr fun bs x => ?_
    simp

/-- Reads the labels from a section of the given size. -/
def readLabelsOf (wires size : Nat) : Reading (List Nat) := do
  Reading.require (size = wires * 8) (.system (.labelsSize size wires))
  let labels ← Reading.many Reading.wideWord wires
  checkFirst labels

theorem readLabels_eq (wires : Nat) :
    readLabels wires = (do readLabelsOf wires (← get).source.size) := rfl

theorem means_readLabelsOf (wires size : Nat) : (readLabelsOf wires size).Means fun bs labels =>
    (labelsSpelling wires).Stands id bs labels ∧ size = wires * 8 := by
  refine ((Means.require _ _).bind fun _ =>
    ((Means.spelled_number 8).spelled_many wires).bind fun labels =>
      means_checkFirst labels).congr fun bs labels => ?_
  rw [decide_eq_true_eq]
  constructor
  · rintro ⟨_, _, _, rfl, ⟨rfl, same_size⟩, _, _, _, rfl, ⟨ts, valid, rfl, rfl⟩, rfl, zero, rfl⟩
    rw [List.map_id] at zero ⊢
    refine ⟨⟨ts, ⟨valid, zero⟩, ?_, rfl⟩, same_size⟩
    rw [List.nil_append, List.append_nil]
    rfl
  · rintro ⟨⟨_, ⟨valid, zero⟩, rfl, rfl⟩, same_size⟩
    refine ⟨[], _, (), rfl, ⟨rfl, same_size⟩, _, [], _, (List.append_nil _).symm,
      ⟨_, valid, rfl, rfl⟩, rfl, ?_, ?_⟩
    · rwa [List.map_id]
    · rw [List.map_id]

/-- The labels section is a label for every wire, and nothing else. -/
theorem means_readLabels (wires : Nat) :
    (readLabels wires).MeansWhole ((labelsSpelling wires).Stands id) := by
  rw [readLabels_eq]
  refine (MeansWhole.sized (means_readLabelsOf wires) ?_).congr fun bs labels => ?_
  · rintro size bs labels ⟨⟨_, valid, rfl, rfl⟩, rfl⟩
    exact length_labelsSpelling valid
  · constructor
    · rintro ⟨stands, -⟩
      exact stands
    · rintro ⟨_, valid, rfl, rfl⟩
      exact ⟨⟨_, valid, rfl, rfl⟩, length_labelsSpelling valid⟩

end Labels

/-- What a file says: its header, the constraints as they are stored, and the labels. -/
structure Parts where
  header : Header
  constraints : List (StoredCombination × StoredCombination × StoredCombination)
  labels : List Nat

namespace Parts

/-- The parts may stand in a file. -/
structure Valid (k : Parts) : Prop where
  header : k.header.Valid
  constraints : ((constraintSpelling k.header.wires).many k.header.constraints).Valid k.constraints
  labels : (labelsSpelling k.header.wires).Valid k.labels

/-- The bytes of the constraints section. -/
def constraintsBytes (k : Parts) : Bytes :=
  ((constraintSpelling k.header.wires).many k.header.constraints).bytes k.constraints

/-- The bytes of the labels section. -/
def labelsBytes (k : Parts) : Bytes := (labelsSpelling k.header.wires).bytes k.labels

/-- The system that the parts are the parts of. -/
def system (k : Parts) : ConstraintSystem where
  fieldWidth := k.header.fieldWidth
  prime := k.header.prime
  wires := k.header.wires
  publicOutputs := k.header.publicOutputs
  publicInputs := k.header.publicInputs
  privateInputs := k.header.privateInputs
  labels := k.header.labels
  constraints := k.constraints.map constraintOf
  wireLabels := k.labels.map fun (n : Nat) => (n : Int)
  version := formatVersion

end Parts

section File

variable {data tail : Bytes} {sections : List (Nat × Bytes)} {k : Parts} {s : ConstraintSystem}

/-- Bytes are a file with the given parts: a container with the given sections, the first of which
with the ids 1, 2 and 3 are the header, the constraints and the labels. -/
structure IsFile (data : Bytes) (sections : List (Nat × Bytes)) (tail : Bytes) (k : Parts) :
    Prop where
  framed : Container.Framed magic formatVersion sections tail data
  header : sections.lookup 1 = some k.header.spelled
  constraints : sections.lookup 2 = some k.constraintsBytes
  labels : sections.lookup 3 = some k.labelsBytes
  valid : k.Valid

theorem nameOf_magic : Container.nameOf magic = .ok "r1cs" := rfl

/-- What is read is the system of the parts of a file. -/
theorem parse_eq_ok_iff :
    parse .bn254 data = .ok s ↔ ∃ sections tail k, IsFile data sections tail k ∧ s = k.system := by
  constructor
  · intro read
    obtain ⟨c, framed, read⟩ := Except.bind_eq_ok_iff.1 read
    obtain ⟨h, header, read⟩ := Except.bind_eq_ok_iff.1 read
    obtain ⟨constraints, body, read⟩ := Except.bind_eq_ok_iff.1 read
    obtain ⟨labels, table, read⟩ := Except.bind_eq_ok_iff.1 read
    obtain ⟨tail, consists, version_eq, framed⟩ := Container.framed_of_parse framed
    obtain ⟨_, holds_header, rfl, valid⟩ :=
      (consists.readSection_whole_iff means_readHeader).1 header
    obtain ⟨_, holds_body, ks, hks, rfl, rfl⟩ :=
      (consists.readSection_whole_iff (means_readConstraints valid.fieldWidth_eq)).1 body
    obtain ⟨_, holds_table, _, hlabels, rfl, rfl⟩ :=
      (consists.readSection_whole_iff (means_readLabels h.wires)).1 table
    refine ⟨c.contents, tail, ⟨h, ks, labels⟩, ⟨framed, ?_, ?_, ?_, valid, hks, hlabels⟩, ?_⟩
    · exact consists.holds_iff_lookup.1 holds_header
    · exact consists.holds_iff_lookup.1 holds_body
    · exact consists.holds_iff_lookup.1 holds_table
    · cases read
      rw [Parts.system, version_eq]
  · rintro ⟨sections, tail, k, file, rfl⟩
    obtain ⟨c, framed, version_eq, rfl⟩ := file.framed.exists_parse rfl (by decide) nameOf_magic
    obtain ⟨tail, consists, -⟩ := Container.framed_of_parse framed
    have header := (consists.readSection_whole_iff means_readHeader).2
      ⟨_, consists.holds_iff_lookup.2 file.header, rfl, file.valid.header⟩
    have body := (consists.readSection_whole_iff
      (means_readConstraints file.valid.header.fieldWidth_eq)).2
      ⟨_, consists.holds_iff_lookup.2 file.constraints, _, file.valid.constraints, rfl, rfl⟩
    have table := (consists.readSection_whole_iff (means_readLabels k.header.wires)).2
      ⟨_, consists.holds_iff_lookup.2 file.labels, _, file.valid.labels, rfl, rfl⟩
    refine Except.bind_eq_ok_iff.2 ⟨c, framed, Except.bind_eq_ok_iff.2 ⟨_, header,
      Except.bind_eq_ok_iff.2 ⟨_, body, Except.bind_eq_ok_iff.2 ⟨_, table, ?_⟩⟩⟩⟩
    rw [Parts.system, version_eq]
    rfl

end File

end Snark.ConstraintSystem
