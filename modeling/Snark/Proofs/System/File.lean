import Snark.Proofs.Key.File
import Snark.Proofs.System.Evaluation
import Snark.Proofs.System.Grammar

/-!
# Constraint-system files

A system has a file exactly if its numbers fit the fields of one, and then it is read back from it.
Files of the same system differ in their framing or in a coefficient that is not a least
representative. Bytes that are no file are refused.
-/

namespace Snark

section Storable

/-- The number of the terms of a constraint. -/
def Constraint.termCount (k : Constraint) : Nat := k.a.length + k.b.length + k.c.length

/-- The combinations of a constraint are short enough for a file. -/
def Constraint.Short (k : Constraint) : Prop :=
  k.a.length < Bytes.capacity 4 ∧ k.b.length < Bytes.capacity 4 ∧ k.c.length < Bytes.capacity 4

instance (k : Constraint) : Decidable k.Short := inferInstanceAs (Decidable (_ ∧ _))

namespace ConstraintSystem

/-- The numbers of a system fit the fields of a file and one another. -/
structure Storable (s : ConstraintSystem) : Prop where
  version_eq : s.version = formatVersion
  fieldWidth_eq : s.fieldWidth = 32
  prime_eq : s.prime = scalarOrder
  wires_lt : s.wires < Bytes.capacity 4
  publicOutputs : 0 ≤ s.publicOutputs ∧ s.publicOutputs < Bytes.capacity 4
  publicInputs : 0 ≤ s.publicInputs ∧ s.publicInputs < Bytes.capacity 4
  privateInputs : 0 ≤ s.privateInputs ∧ s.privateInputs < Bytes.capacity 4
  labels : 0 ≤ s.labels ∧ s.labels < Bytes.capacity 8
  signals_le : 1 + (s.publicOutputs + s.publicInputs + s.privateInputs) ≤ s.wires
  length_constraints : s.constraints.length < Bytes.capacity 4
  short : ∀ k ∈ s.constraints, k.Short
  inRange : ∀ k ∈ s.constraints, k.InRange s.wires
  length_wireLabels : s.wireLabels.length = s.wires
  wireLabels : ∀ n ∈ s.wireLabels, 0 ≤ n ∧ n < Bytes.capacity 8
  first_label : s.wireLabels.head? = some 0

/-- The size of the constraints section of the file of a system. -/
def constraintsSize (s : ConstraintSystem) : Nat :=
  (s.constraints.map fun k => 12 + 36 * k.termCount).sum

end ConstraintSystem

end Storable

namespace ConstraintSystem

section Stored

variable {wires : Nat} {ts : StoredCombination} {lc : LinearCombination} {k : Constraint}
  {c : StoredCombination × StoredCombination × StoredCombination}

/-- What is undone on every element is undone on the list. -/
theorem map_map_eq_self {α β : Type} {f : α → β} {g : β → α} {xs : List α}
    (h : ∀ x ∈ xs, g (f x) = x) : (xs.map f).map g = xs := by
  rw [List.map_map]
  conv_rhs => rw [← List.map_id xs]
  exact List.map_congr_left h

/-- A combination with the least representatives of its coefficients. -/
def storedCombination (lc : LinearCombination) : StoredCombination :=
  lc.map fun t => (t.1.toNat, t.2.val)

/-- A constraint with the least representatives of its coefficients. -/
def storedConstraint (k : Constraint) :
    StoredCombination × StoredCombination × StoredCombination :=
  (storedCombination k.a, storedCombination k.b, storedCombination k.c)

/-- The numbers of the coefficients of a combination are least representatives. -/
def LeastCombination (ts : StoredCombination) : Prop := ∀ t ∈ ts, t.2 < scalarOrder

/-- The numbers of the coefficients of a constraint are least representatives. -/
def LeastConstraint (c : StoredCombination × StoredCombination × StoredCombination) : Prop :=
  LeastCombination c.1 ∧ LeastCombination c.2.1 ∧ LeastCombination c.2.2

theorem leastCombination_stored (lc : LinearCombination) :
    LeastCombination (storedCombination lc) := by
  intro t ht
  obtain ⟨u, -, rfl⟩ := List.mem_map.1 ht
  exact u.2.isLt

theorem leastConstraint_stored (k : Constraint) : LeastConstraint (storedConstraint k) :=
  ⟨leastCombination_stored k.a, leastCombination_stored k.b, leastCombination_stored k.c⟩

theorem combinationOf_stored (h : lc.InRange wires) :
    combinationOf (storedCombination lc) = lc := by
  refine map_map_eq_self fun t ht => ?_
  show ((t.1.toNat : Int), (.ofNat t.2.val : Fr)) = t
  rw [Int.toNat_of_nonneg (h t ht).1, Residue.ofNat_val]

theorem constraintOf_stored (h : k.InRange wires) : constraintOf (storedConstraint k) = k := by
  obtain ⟨a, b, c⟩ := h
  rw [constraintOf, storedConstraint]
  dsimp only
  rw [combinationOf_stored a, combinationOf_stored b, combinationOf_stored c]

theorem stored_combinationOf (h : LeastCombination ts) :
    storedCombination (combinationOf ts) = ts := by
  refine map_map_eq_self fun t ht => ?_
  show ((t.1 : Int).toNat, t.2 % scalarOrder) = t
  rw [Int.toNat_natCast, Nat.mod_eq_of_lt (h t ht)]

theorem stored_constraintOf (h : LeastConstraint c) : storedConstraint (constraintOf c) = c := by
  obtain ⟨ha, hb, hc⟩ := h
  rw [constraintOf, storedConstraint]
  dsimp only
  rw [stored_combinationOf ha, stored_combinationOf hb, stored_combinationOf hc]

theorem inRange_combinationOf (h : (combinationSpelling wires).Valid ts) :
    (combinationOf ts).InRange wires := by
  intro t ht
  obtain ⟨u, hu, rfl⟩ := List.mem_map.1 ht
  exact ⟨Int.natCast_nonneg _, Int.ofNat_lt.2 (h.2 u hu).1.2⟩

theorem inRange_constraintOf (h : (constraintSpelling wires).Valid c) :
    (constraintOf c).InRange wires :=
  ⟨inRange_combinationOf h.1, inRange_combinationOf h.2.1, inRange_combinationOf h.2.2⟩

theorem short_constraintOf (h : (constraintSpelling wires).Valid c) : (constraintOf c).Short := by
  obtain ⟨ha, hb, hc⟩ := h
  refine ⟨?_, ?_, ?_⟩
  · exact lt_of_eq_of_lt (List.length_map _) ha.1
  · exact lt_of_eq_of_lt (List.length_map _) hb.1
  · exact lt_of_eq_of_lt (List.length_map _) hc.1

theorem valid_storedCombination (wires_le : wires ≤ Bytes.capacity 4)
    (short : lc.length < Bytes.capacity 4) (h : lc.InRange wires) :
    (combinationSpelling wires).Valid (storedCombination lc) := by
  refine ⟨lt_of_eq_of_lt (List.length_map _) short, fun t ht => ?_⟩
  obtain ⟨u, hu, rfl⟩ := List.mem_map.1 ht
  obtain ⟨nonneg, below⟩ := h u hu
  have wire_lt : u.1.toNat < wires := by omega
  exact ⟨⟨wire_lt.trans_le wires_le, wire_lt⟩, u.2.isLt.trans KeyFile.scalarOrder_lt_capacity⟩

theorem valid_storedConstraint (wires_le : wires ≤ Bytes.capacity 4) (short : k.Short)
    (h : k.InRange wires) : (constraintSpelling wires).Valid (storedConstraint k) :=
  ⟨valid_storedCombination wires_le short.1 h.1, valid_storedCombination wires_le short.2.1 h.2.1,
    valid_storedCombination wires_le short.2.2 h.2.2⟩

/-- A combination is written as it is stored. -/
theorem combinationBytes_eq (h : (combinationSpelling wires).Valid ts)
    (least : LeastCombination ts) :
    combinationBytes 32 (combinationOf ts) = .ok ((combinationSpelling wires).bytes ts) := by
  obtain ⟨short, each⟩ := h
  have terms : (combinationOf ts).mapM (fun t => do
      return (← Bytes.field? 4 t.1) ++ (← Bytes.ofInt? 32 t.2.val)) =
        Except.ok (ts.map fun t => Bytes.ofNat 4 t.1 ++ Bytes.ofNat 32 t.2) := by
    rw [combinationOf, List.mapM_map]
    refine Except.mapM_eq_ok fun t ht => ?_
    obtain ⟨⟨wire_lt, -⟩, coeff_lt⟩ := each t ht
    have wire : Bytes.field? 4 (termOf t).1 = .ok (Bytes.ofNat 4 t.1) := Bytes.field?_of_lt wire_lt
    have coeff : Bytes.ofInt? 32 (termOf t).2.val = .ok (Bytes.ofNat 32 t.2) := by
      rw [termOf, Residue.val_ofNat, Nat.mod_eq_of_lt (least t ht)]
      exact KeyFile.ofInt?_eq coeff_lt
    rw [Function.comp_apply, wire, coeff]
    rfl
  have count : Bytes.field? 4 (combinationOf ts).length = .ok (Bytes.ofNat 4 ts.length) := by
    rw [combinationOf, List.length_map]
    exact Bytes.field?_of_lt short
  rw [combinationBytes, count, Except.ok_bind, terms, Except.ok_bind, Except.pure_eq_ok,
    ← List.flatMap_def]
  rfl

theorem constraintBytes_eq (h : (constraintSpelling wires).Valid c) (least : LeastConstraint c) :
    constraintBytes 32 (constraintOf c) = .ok ((constraintSpelling wires).bytes c) := by
  obtain ⟨ha, hb, hc⟩ := h
  rw [constraintBytes, constraintOf, combinationBytes_eq ha least.1,
    combinationBytes_eq hb least.2.1, combinationBytes_eq hc least.2.2]
  simp only [Except.ok_bind, Except.pure_eq_ok, List.append_assoc]
  rfl

theorem length_combinationSpelling (wires : Nat) (ts : StoredCombination) :
    ((combinationSpelling wires).bytes ts).length = 4 + 36 * ts.length := by
  change (Bytes.ofNat 4 ts.length ++ ts.flatMap fun t =>
    Bytes.ofNat 4 t.1 ++ Bytes.ofNat 32 t.2).length = _
  rw [List.length_append, Bytes.length_ofNat, List.length_flatMap]
  simp [Nat.mul_comm]

theorem length_constraintSpelling (wires : Nat)
    (c : StoredCombination × StoredCombination × StoredCombination) :
    ((constraintSpelling wires).bytes c).length = 12 + 36 * (constraintOf c).termCount := by
  change (_ ++ (_ ++ _) : Bytes).length = _
  rw [List.length_append, List.length_append, length_combinationSpelling,
    length_combinationSpelling, length_combinationSpelling]
  simp only [Constraint.termCount, constraintOf, combinationOf, List.length_map]
  omega

end Stored

section Parts

variable {s : ConstraintSystem} {k : Parts}

/-- The parts of the file of a system. -/
def Parts.of (s : ConstraintSystem) : Parts where
  header := ⟨s.fieldWidth.toNat, s.prime.toNat, s.wires.toNat, s.publicOutputs.toNat,
    s.publicInputs.toNat, s.privateInputs.toNat, s.labels.toNat, s.constraints.length⟩
  constraints := s.constraints.map storedConstraint
  labels := s.wireLabels.map Int.toNat

/-- All coefficients are stored as least representatives. -/
def Parts.Least (k : Parts) : Prop := ∀ c ∈ k.constraints, LeastConstraint c

theorem Parts.least_of (s : ConstraintSystem) : (Parts.of s).Least := by
  intro c hc
  obtain ⟨k, -, rfl⟩ := List.mem_map.1 hc
  exact leastConstraint_stored k

namespace Storable

theorem wires_nonneg (h : s.Storable) : 0 ≤ s.wires := by
  have := h.signals_le
  have := h.publicOutputs.1
  have := h.publicInputs.1
  have := h.privateInputs.1
  omega

/-- The numbers of a system are those of its parts. -/
theorem cast_header (h : s.Storable) :
    ((Parts.of s).header.wires : Int) = s.wires ∧
      ((Parts.of s).header.publicOutputs : Int) = s.publicOutputs ∧
      ((Parts.of s).header.publicInputs : Int) = s.publicInputs ∧
      ((Parts.of s).header.privateInputs : Int) = s.privateInputs ∧
      ((Parts.of s).header.labels : Int) = s.labels :=
  ⟨Int.toNat_of_nonneg h.wires_nonneg, Int.toNat_of_nonneg h.publicOutputs.1,
    Int.toNat_of_nonneg h.publicInputs.1, Int.toNat_of_nonneg h.privateInputs.1,
    Int.toNat_of_nonneg h.labels.1⟩

theorem valid_header (h : s.Storable) : (Parts.of s).header.Valid := by
  obtain ⟨wires, outputs, inputs, hidden, labels⟩ := h.cast_header
  have wires_lt := h.wires_lt
  have outputs_lt := h.publicOutputs.2
  have inputs_lt := h.publicInputs.2
  have hidden_lt := h.privateInputs.2
  have labels_lt := h.labels.2
  have signals_le := h.signals_le
  refine ⟨⟨by omega, by omega, by omega, by omega, by omega, h.length_constraints, by omega⟩,
    ?_, ?_⟩
  · show s.fieldWidth.toNat = 32
    rw [h.fieldWidth_eq]
    rfl
  · show s.prime.toNat = scalarOrder
    rw [h.prime_eq, Int.toNat_natCast]

theorem valid_constraints (h : s.Storable) :
    ((constraintSpelling (Parts.of s).header.wires).many s.constraints.length).Valid
      (s.constraints.map storedConstraint) := by
  refine ⟨List.length_map _, ?_⟩
  intro c hc
  obtain ⟨k, hk, rfl⟩ := List.mem_map.1 hc
  refine valid_storedConstraint h.valid_header.wires_lt.le (h.short k hk) ?_
  rw [h.cast_header.1]
  exact h.inRange k hk

theorem valid_labels (h : s.Storable) :
    (labelsSpelling (Parts.of s).header.wires).Valid (s.wireLabels.map Int.toNat) := by
  refine ⟨⟨?_, ?_⟩, ?_⟩
  · have length := h.length_wireLabels
    have wires := h.cast_header.1
    rw [List.length_map]
    omega
  · intro n hn
    obtain ⟨label, hlabel, rfl⟩ := List.mem_map.1 hn
    obtain ⟨nonneg, label_lt⟩ := h.wireLabels label hlabel
    show label.toNat < Bytes.capacity 8
    omega
  · intro first hfirst
    rw [List.head?_map, h.first_label] at hfirst
    cases hfirst
    rfl

theorem valid_of (h : s.Storable) : (Parts.of s).Valid :=
  ⟨h.valid_header, h.valid_constraints, h.valid_labels⟩

theorem system_of (h : s.Storable) : (Parts.of s).system = s := by
  obtain ⟨wires, outputs, inputs, hidden, labels⟩ := h.cast_header
  have constraints : (s.constraints.map storedConstraint).map constraintOf = s.constraints := by
    refine map_map_eq_self fun k hk => ?_
    have inRange : k.InRange s.wires.toNat := by
      rw [Int.toNat_of_nonneg h.wires_nonneg]
      exact h.inRange k hk
    exact constraintOf_stored inRange
  have wireLabels : (s.wireLabels.map Int.toNat).map (fun (n : Nat) => (n : Int)) =
      s.wireLabels :=
    map_map_eq_self fun n hn => Int.toNat_of_nonneg (h.wireLabels n hn).1
  have width : (s.fieldWidth.toNat : Int) = s.fieldWidth := by
    rw [h.fieldWidth_eq]
    rfl
  have prime : (s.prime.toNat : Int) = s.prime := by rw [h.prime_eq, Int.toNat_natCast]
  rw [Parts.system, wires, outputs, inputs, hidden, labels, ← h.version_eq]
  change ({ s with
    fieldWidth := (s.fieldWidth.toNat : Int)
    prime := (s.prime.toNat : Int)
    constraints := (s.constraints.map storedConstraint).map constraintOf
    wireLabels := (s.wireLabels.map Int.toNat).map fun (n : Nat) => (n : Int) } :
      ConstraintSystem) = s
  rw [constraints, wireLabels, width, prime]

end Storable

namespace Parts

theorem Valid.wires_pos (valid : k.Valid) : 0 < k.header.wires := by
  have := valid.header.signals_le
  omega

theorem Valid.first_label (valid : k.Valid) : k.labels.head? = some 0 := by
  obtain ⟨⟨length, -⟩, zero⟩ := valid.labels
  cases labels : k.labels with
  | nil =>
    have pos := valid.wires_pos
    rw [← length, labels] at pos
    cases pos
  | cons first rest =>
    rw [labels] at zero
    rw [zero first rfl]
    rfl

/-- A system that is made of valid parts fits a file. -/
theorem Valid.storable (valid : k.Valid) : k.system.Storable where
  version_eq := rfl
  fieldWidth_eq := congrArg Nat.cast valid.header.fieldWidth_eq
  prime_eq := congrArg Nat.cast valid.header.prime_eq
  wires_lt := Int.ofNat_lt.2 valid.header.wires_lt
  publicOutputs := ⟨Int.natCast_nonneg _, Int.ofNat_lt.2 valid.header.publicOutputs_lt⟩
  publicInputs := ⟨Int.natCast_nonneg _, Int.ofNat_lt.2 valid.header.publicInputs_lt⟩
  privateInputs := ⟨Int.natCast_nonneg _, Int.ofNat_lt.2 valid.header.privateInputs_lt⟩
  labels := ⟨Int.natCast_nonneg _, Int.ofNat_lt.2 valid.header.labels_lt⟩
  signals_le := Int.ofNat_le.2 valid.header.signals_le
  length_constraints := by
    rw [system, List.length_map, valid.constraints.1]
    exact valid.header.constraints_lt
  short := by
    intro k' hk
    obtain ⟨c, hc, rfl⟩ := List.mem_map.1 hk
    exact short_constraintOf (valid.constraints.2 c hc)
  inRange := by
    intro k' hk
    obtain ⟨c, hc, rfl⟩ := List.mem_map.1 hk
    exact inRange_constraintOf (valid.constraints.2 c hc)
  length_wireLabels := by
    rw [system, List.length_map, valid.labels.1.1]
  wireLabels := by
    intro n hn
    obtain ⟨label, hlabel, rfl⟩ := List.mem_map.1 hn
    exact ⟨Int.natCast_nonneg _, Int.ofNat_lt.2 (valid.labels.1.2 label hlabel)⟩
  first_label := by
    rw [system, List.head?_map, valid.first_label]
    rfl

/-- A system keeps the header that it was made of. -/
theorem Valid.header_of_system (valid : k.Valid) : (of k.system).header = k.header := by
  have count : (k.constraints.map constraintOf).length = k.header.constraints := by
    rw [List.length_map, valid.constraints.1]
  change { k.header with constraints := (k.constraints.map constraintOf).length } = k.header
  rw [count]

theorem labels_of_system (k : Parts) : (of k.system).labels = k.labels :=
  map_map_eq_self fun (n : Nat) _ => Int.toNat_natCast n

/-- A system keeps the parts that it was made of exactly if its coefficients are stored as least
representatives. -/
theorem Valid.of_system (valid : k.Valid) (least : k.Least) : of k.system = k := by
  have constraints : (of k.system).constraints = k.constraints :=
    map_map_eq_self fun c hc => stored_constraintOf (least c hc)
  calc of k.system
      = ⟨(of k.system).header, (of k.system).constraints, (of k.system).labels⟩ := rfl
    _ = k := by rw [valid.header_of_system, constraints, labels_of_system]

theorem length_constraintsBytes (k : Parts) :
    k.constraintsBytes.length = k.system.constraintsSize := by
  change (k.constraints.flatMap (constraintSpelling k.header.wires).bytes).length =
    ((k.constraints.map constraintOf).map fun c => 12 + 36 * c.termCount).sum
  rw [List.length_flatMap, List.map_map]
  congr 1
  exact List.map_congr_left fun c _ => length_constraintSpelling k.header.wires c

end Parts

end Parts

section RoundTrip

variable {s : ConstraintSystem} {k : Parts} {data tail : Bytes} {sections : List (Nat × Bytes)}

/-- The sections of the file of a system. -/
def payloads (k : Parts) : List (Nat × Bytes) :=
  [(1, k.header.spelled), (2, k.constraintsBytes), (3, k.labelsBytes)]

/-- The bytes of the file of a system. -/
def fileBytes (k : Parts) : Bytes :=
  Container.header magic formatVersion (payloads k).length ++ (payloads k).flatMap Container.entry

/-- The sections fit their fields if the constraints do. -/
theorem fits_payloads (valid : k.Valid) (room : k.system.constraintsSize < Bytes.capacity 8) :
    ∀ part ∈ payloads k, Container.Fits part := by
  have id_lt : 3 < Bytes.capacity 4 := by decide
  have header : k.header.spelled.length < Bytes.capacity 8 := by
    rw [Header.length_spelled, valid.header.fieldWidth_eq]
    decide
  have constraints : k.constraintsBytes.length < Bytes.capacity 8 := by
    rwa [Parts.length_constraintsBytes]
  have labels : k.labelsBytes.length < Bytes.capacity 8 := by
    have few : Bytes.capacity 4 * 8 < Bytes.capacity 8 := by decide
    have wires_lt := valid.header.wires_lt
    rw [Parts.labelsBytes, length_labelsSpelling valid.labels]
    omega
  simp only [payloads, List.forall_mem_cons, Container.Fits]
  exact ⟨⟨by omega, header⟩, ⟨by omega, constraints⟩, ⟨id_lt, labels⟩, by simp⟩

theorem length_payloads_lt (k : Parts) : (payloads k).length < Bytes.capacity 4 := by
  show 3 < Bytes.capacity 4
  decide

/-- The file of a system is one with its parts. -/
theorem isFile_fileBytes (valid : k.Valid) (room : k.system.constraintsSize < Bytes.capacity 8) :
    IsFile (fileBytes k) (payloads k) [] k where
  framed := ⟨(List.append_nil _).symm, length_payloads_lt k, fits_payloads valid room⟩
  header := rfl
  constraints := rfl
  labels := rfl
  valid := valid

/-- The constraints of a file fit the field that holds their size. -/
theorem IsFile.constraintsSize_lt (file : IsFile data sections tail k) :
    k.system.constraintsSize < Bytes.capacity 8 := by
  have member : (2, k.constraintsBytes) ∈ sections := by
    obtain ⟨before, later, rfl, -⟩ := List.lookup_eq_some_iff.1 file.constraints
    simp
  rw [← Parts.length_constraintsBytes]
  exact (file.framed.fits _ member).2

theorem headerBytes_eq (valid : k.Valid) : headerBytes k.system = .ok k.header.spelled := by
  have width : Bytes.field? 4 (32 : Nat) = .ok (Bytes.ofNat 4 32) := rfl
  have prime : Bytes.ofInt? 32 scalarOrder = .ok (Bytes.ofNat 32 scalarOrder) :=
    KeyFile.ofInt?_eq KeyFile.scalarOrder_lt_capacity
  have count : Bytes.field? 4 (k.constraints.map constraintOf).length =
      .ok (Bytes.ofNat 4 k.header.constraints) := by
    rw [List.length_map, valid.constraints.1]
    exact Bytes.field?_of_lt valid.header.constraints_lt
  simp only [headerBytes, Parts.system, valid.header.fieldWidth_eq, valid.header.prime_eq,
    Int.toNat_natCast, width, prime, Bytes.field?_of_lt valid.header.wires_lt,
    Bytes.field?_of_lt valid.header.publicOutputs_lt,
    Bytes.field?_of_lt valid.header.publicInputs_lt,
    Bytes.field?_of_lt valid.header.privateInputs_lt, Bytes.field?_of_lt valid.header.labels_lt,
    count, Except.ok_bind, Except.pure_eq_ok, Header.spelled, spelledField, Header.spelledCounts,
    List.append_assoc]

theorem labelBytes_eq (valid : k.Valid) : labelBytes k.system = .ok k.labelsBytes := by
  obtain ⟨⟨length, labels⟩, -⟩ := valid.labels
  have each : (k.labels.map fun (n : Nat) => (n : Int)).mapM (Bytes.field? 8) =
      .ok (k.labels.map fun n => Bytes.ofNat 8 n) := by
    rw [List.mapM_map]
    refine Except.mapM_eq_ok fun n hn => ?_
    have label_lt : n < Bytes.capacity 8 := labels n hn
    rw [Function.comp_apply, Bytes.field?_of_lt label_lt]
  have enough : ¬ k.system.wires ≠ k.system.wireLabels.length := by
    rw [Parts.system, List.length_map, length]
    exact not_not_intro rfl
  rw [labelBytes, if_neg enough]
  change ((k.labels.map fun (n : Nat) => (n : Int)).mapM (Bytes.field? 8) >>= fun ls =>
    Except.ok ls.flatten) = _
  rw [each, Except.ok_bind, ← List.flatMap_def]
  rfl

/-- A system whose coefficients are least representatives is written as the file of its parts. -/
theorem write_eq (valid : k.Valid) (least : k.Least)
    (room : k.system.constraintsSize < Bytes.capacity 8) :
    write k.system = .ok (fileBytes k) := by
  have constraints : k.system.constraints.mapM (constraintBytes 32) =
      .ok (k.constraints.map (constraintSpelling k.header.wires).bytes) := by
    rw [Parts.system, List.mapM_map]
    refine Except.mapM_eq_ok fun c hc => ?_
    rw [Function.comp_apply, constraintBytes_eq (valid.constraints.2 c hc) (least c hc)]
  have width : k.system.fieldWidth.toNat = 32 := by
    rw [Parts.system, Int.toNat_natCast, valid.header.fieldWidth_eq]
  have version : k.system.version = formatVersion := rfl
  have length_magic : magic.length = 4 := rfl
  have framed := Container.write_eq length_magic (by decide : formatVersion < Bytes.capacity 4)
    (length_payloads_lt k) (fits_payloads valid room)
  rw [write, headerBytes_eq valid, Except.ok_bind, width, constraints, Except.ok_bind,
    labelBytes_eq valid, Except.ok_bind, ← List.flatMap_def, fileBytes, ← framed, version]
  rfl

/-- The file of a system is read as the system. -/
theorem parse_fileBytes (valid : k.Valid) (room : k.system.constraintsSize < Bytes.capacity 8) :
    parse .bn254 (fileBytes k) = .ok k.system :=
  parse_eq_ok_iff.2 ⟨_, _, k, isFile_fileBytes valid room, rfl⟩

/-- A system is written and read back exactly if its numbers fit the fields of a file. One of these
fields holds the size of the constraints section, so no file has `2 ^ 64` bytes of constraints. -/
theorem parse_write_iff :
    (∃ bytes, write s = .ok bytes ∧ parse .bn254 bytes = .ok s) ↔
      s.Storable ∧ s.constraintsSize < Bytes.capacity 8 := by
  constructor
  · rintro ⟨bytes, -, read⟩
    obtain ⟨sections, tail, k, file, rfl⟩ := parse_eq_ok_iff.1 read
    exact ⟨file.valid.storable, file.constraintsSize_lt⟩
  · rintro ⟨storable, room⟩
    rw [← storable.system_of] at room
    refine ⟨fileBytes (.of s), ?_, ?_⟩
    · rw [← write_eq storable.valid_of (Parts.least_of s) room, storable.system_of]
    · rw [parse_fileBytes storable.valid_of room, storable.system_of]

theorem storable_multiplier : multiplier.Storable := by
  constructor <;> decide

theorem constraintsSize_multiplier : (Parts.of multiplier).system.constraintsSize <
    Bytes.capacity 8 := by
  rw [storable_multiplier.system_of]
  decide

theorem isFile_multiplier : IsFile (fileBytes (.of multiplier)) (payloads (.of multiplier)) []
    (.of multiplier) :=
  isFile_fileBytes storable_multiplier.valid_of constraintsSize_multiplier

theorem parse_multiplier : parse .bn254 (fileBytes (.of multiplier)) = .ok multiplier := by
  rw [parse_fileBytes storable_multiplier.valid_of constraintsSize_multiplier,
    storable_multiplier.system_of]

end RoundTrip

section Outcome

open KeyFile (Refused refused_framing)

variable {data tail : Bytes} {sections : List (Nat × Bytes)} {k : Parts}

theorem refused_system (e : SystemError) : Refused (.system e) := by
  refine ⟨e.report, rfl, ?_⟩
  cases e <;> simp [SystemError.report, Report.make]

theorem readHeader_failsIn : (readHeader .bn254).FailsIn Refused := by
  have number (width : Nat) : (Reading.number width).FailsIn Refused :=
    .number refused_framing width
  have require (holds : Bool) (e : SystemError) :
      (Reading.require holds (.system e)).FailsIn Refused := .require holds (refused_system e)
  have field (size : Nat) : (readField .bn254 size).FailsIn Refused :=
    (number 4).bind fun _ => (require _ _).bind fun _ => (require _ _).bind fun _ =>
      (number _).bind fun _ => (require _ _).bind fun _ => .pure _
  have counts (fieldWidth prime : Nat) : (readCounts fieldWidth prime).FailsIn Refused :=
    (number 4).bind fun _ => (number 4).bind fun _ => (number 4).bind fun _ =>
      (number 4).bind fun _ => (number 8).bind fun _ => (number 4).bind fun _ =>
        (require _ _).bind fun _ => .pure _
  rw [readHeader_eq]
  exact .sized fun size => (field size).bind fun x => counts x.1 x.2

theorem readConstraints_failsIn (h : Header) : (readConstraints h).FailsIn Refused := by
  have term (i : Nat) : (readTerm h.wires h.fieldWidth i).FailsIn Refused :=
    (Reading.FailsIn.number refused_framing 4).bind fun _ =>
      (Reading.FailsIn.require _ (refused_system _)).bind fun _ =>
        (Reading.FailsIn.number refused_framing _).bind fun _ => .pure _
  have combination (i : Nat) : (readCombination h.wires h.fieldWidth i).FailsIn Refused :=
    (Reading.FailsIn.number refused_framing 4).bind fun n => (term i).many n
  have constraint (i : Nat) : (readConstraint h.wires h.fieldWidth i).FailsIn Refused :=
    (combination i).bind fun _ => (combination i).bind fun _ =>
      (combination i).bind fun _ => .pure _
  exact (Reading.FailsIn.manyFrom constraint 0 h.constraints).bind fun _ =>
    (Reading.FailsIn.atEnd refused_framing).bind fun _ => .pure _

theorem readLabels_failsIn (wires : Nat) : (readLabels wires).FailsIn Refused := by
  have check (labels : List Nat) : (checkFirst labels).FailsIn Refused := by
    cases labels with
    | nil => exact .pure []
    | cons first rest =>
      exact (Reading.FailsIn.require _ (refused_system _)).bind fun _ => .pure _
  rw [readLabels_eq]
  exact .sized fun size => (Reading.FailsIn.require _ (refused_system _)).bind fun _ =>
    ((Reading.FailsIn.number refused_framing 8).many wires).bind check

/-- Bytes that are no file of a system are refused, whatever is wrong with them. -/
theorem parse_failsIn (data : Bytes) : Except.FailsIn Refused (parse .bn254 data) := by
  refine (Container.parse_failsIn refused_framing nameOf_magic).bind fun file _ => ?_
  have read {α : Type} {id : Int} {item : Reading α} (fails : item.FailsIn Refused) :
      Except.FailsIn Refused (file.readSection id item) :=
    Container.readSection_failsIn refused_framing fails
  exact (read readHeader_failsIn).bind fun h _ => (read (readConstraints_failsIn h)).bind fun _ _ =>
    (read (readLabels_failsIn h.wires)).bind fun _ _ => .ok _

/-- The sections of a file are those that are written if there are no others. -/
theorem IsFile.sections_eq (file : IsFile data sections tail k)
    (ids : sections.map Prod.fst = [1, 2, 3]) : sections = payloads k := by
  obtain ⟨p₁, rest, rfl, id₁, ids⟩ := List.map_eq_cons_iff.1 ids
  obtain ⟨p₂, rest, rfl, id₂, ids⟩ := List.map_eq_cons_iff.1 ids
  obtain ⟨p₃, rest, rfl, id₃, ids⟩ := List.map_eq_cons_iff.1 ids
  obtain rfl := List.map_eq_nil_iff.1 ids
  obtain ⟨_, bs₁⟩ := p₁
  obtain ⟨_, bs₂⟩ := p₂
  obtain ⟨_, bs₃⟩ := p₃
  cases id₁
  cases id₂
  cases id₃
  have header : bs₁ = k.header.spelled := Option.some.inj file.header
  have constraints : bs₂ = k.constraintsBytes := Option.some.inj file.constraints
  have labels : bs₃ = k.labelsBytes := Option.some.inj file.labels
  rw [payloads, header, constraints, labels]

/-- A file is the one that its system is written in exactly if it has the three sections in order
and nothing else, and all coefficients are least representatives. -/
theorem IsFile.fileBytes_eq_iff (file : IsFile data sections tail k) :
    fileBytes (.of k.system) = data ↔
      sections.map Prod.fst = [1, 2, 3] ∧ tail = [] ∧ k.Least := by
  have valid := file.valid
  have storable := valid.storable
  constructor
  · intro same
    have room := file.constraintsSize_lt
    rw [← storable.system_of] at room
    have written := isFile_fileBytes storable.valid_of room
    rw [same] at written
    obtain ⟨rfl, rfl⟩ := file.framed.unique written.framed rfl (by decide) nameOf_magic
    refine ⟨rfl, rfl, ?_⟩
    -- The constraints section spells the stored coefficients and the least ones.
    have bytes_eq : k.constraintsBytes = (Parts.of k.system).constraintsBytes :=
      Option.some.inj (file.constraints.symm.trans written.constraints)
    have stored := storable.valid_of.constraints
    rw [Parts.constraintsBytes, Parts.constraintsBytes, valid.header_of_system] at bytes_eq
    rw [valid.header_of_system] at stored
    have constraints := Spelling.bytes_inj valid.constraints stored bytes_eq
    rw [Parts.Least, constraints]
    exact Parts.least_of k.system
  · rintro ⟨ids, rfl, least⟩
    rw [valid.of_system least, file.framed.bytes_eq, file.sections_eq ids, List.append_nil,
      fileBytes]

/-- Bytes are the file of a system or refused, and a system that is read has a file, which is the
bytes that were read exactly if these are canonical. -/
theorem parse_grammar (data : Bytes) :
    (∀ s, parse .bn254 data = .ok s ↔
      ∃ sections tail k, IsFile data sections tail k ∧ s = k.system) ∧
    (∀ e, parse .bn254 data = .error e → Refused e) ∧
    ∀ sections tail k, IsFile data sections tail k → ∃ out, write k.system = .ok out ∧
      (out = data ↔ sections.map Prod.fst = [1, 2, 3] ∧ tail = [] ∧ k.Least) := by
  refine ⟨fun s => parse_eq_ok_iff, parse_failsIn data, fun sections tail k file => ?_⟩
  have storable := file.valid.storable
  have room := file.constraintsSize_lt
  rw [← storable.system_of] at room
  refine ⟨fileBytes (.of k.system), ?_, file.fileBytes_eq_iff⟩
  rw [← write_eq storable.valid_of (Parts.least_of k.system) room, storable.system_of]

end Outcome

end ConstraintSystem

end Snark
