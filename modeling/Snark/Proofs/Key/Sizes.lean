import Snark.Proofs.Key.File

/-!
# Lengths of the sections of a key file

The counts in the header of a key file say how long its sections are. A key is read only from a file
whose sections have these lengths, so that no byte of them is left out. The first section is the
exception: nothing checks what follows the number of the proof system. Other files are refused, and
neither the curve nor a wire is to blame where the header names the curve and a length is wrong.
-/

namespace Snark.KeyFile

variable {data tail : Bytes} {file : Container} {n : Counts}

/-- The first section with an id has a length. -/
def HasSize (file : Container) (id : Int) (size : Nat) : Prop :=
  ∃ s, file.find id = .ok s ∧ s.size = size

/-- The sections of a file are as long as the counts ask for. The first one has room for the number
of the proof system. -/
structure Sized (file : Container) (n : Counts) : Prop where
  prover : ∃ size, HasSize file 1 size ∧ 4 ≤ size
  header : HasSize file 2 (4 + 32 + 4 + 32 + 12 + 3 * 64 + 3 * 128)
  inputs : HasSize file 3 ((n.publicSignals + 1) * 64)
  coefficients : ∃ s, file.find 4 = .ok s ∧
    s.size = 4 + Bytes.toNat ((file.payload s).take 4) * 44
  a : HasSize file 5 (n.wires * 64)
  b₁ : HasSize file 6 (n.wires * 64)
  b₂ : HasSize file 7 (n.wires * 128)
  l : HasSize file 8 ((n.wires - n.publicSignals - 1) * 64)
  h : HasSize file 9 (n.domain * 64)

theorem hasSize_of_holds {id : Int} {payload : Bytes} (holds : file.Holds id payload) :
    HasSize file id payload.length := by
  obtain ⟨s, found, -, size⟩ := holds
  exact ⟨s, found, size⟩

theorem hasSize_of_checkPoints (consists : file.Consists tail) {id count width : Nat}
    (pos : 0 < width) (checked : checkPoints file id count width = .ok ()) :
    HasSize file id (count * width) := by
  obtain ⟨bs, holds, length⟩ := (checkPoints_eq_ok_iff consists pos).1 checked
  rw [← length]
  exact hasSize_of_holds holds

/-- The checks that come before any point is read see to all lengths. -/
theorem sized_of_checks (consists : file.Consists tail) {opened points : Reader}
    (prover : file.readSection 1 readProver = .ok ()) (found : file.reader 2 = .ok opened)
    (counts : (readCounts .bn254).run opened = .ok (n, points))
    (layout : checkLayout file .bn254 n = .ok ()) :
    declaredCounts file = .ok n ∧ Sized file n := by
  obtain ⟨_, rest, first, rfl⟩ := (consists.readSection_eq_ok_iff means_readProver).1 prover
  obtain ⟨source, payload, -, header, rfl⟩ := consists.reader_eq_ok_iff.1 found
  obtain ⟨points, rfl, room, valid, -⟩ := run_readCounts.1 counts
  obtain ⟨inputs, a, b₁, b₂, l, h, coefficients⟩ := checkLayout_eq_ok_iff.1 layout
  obtain ⟨_, ⟨s, here, rfl, size⟩, -, length⟩ :=
    (checkCoefficients_eq_ok_iff consists).1 coefficients
  have size₁ := hasSize_of_holds first
  have size₂ := hasSize_of_holds header
  rw [List.length_append, length_fieldsBytes, room] at size₂
  refine ⟨declaredCounts_eq valid header, ?_⟩
  exact {
    prover := ⟨_, size₁, by rw [List.length_append, Bytes.length_ofNat]; omega⟩
    header := size₂
    inputs := hasSize_of_checkPoints consists (by decide) inputs
    coefficients := ⟨s, here, size.trans length⟩
    a := hasSize_of_checkPoints consists (by decide) a
    b₁ := hasSize_of_checkPoints consists (by decide) b₁
    b₂ := hasSize_of_checkPoints consists (by decide) b₂
    l := hasSize_of_checkPoints consists (by decide) l
    h := hasSize_of_checkPoints consists (by decide) h }

/-- A failure is reported as a format error, or as the one that the bytes end too early. -/
def Malformed (e : Failure) : Prop := e.ReportedAs .format ∨ e.ReportedAs .truncated

theorem malformed_framing (e : FramingError) : Malformed (.framing e) := by
  cases e <;> first | exact .inl ⟨_, rfl, rfl⟩ | exact .inr ⟨_, rfl, rfl⟩

/-- Why some bytes are no key: they are malformed, or their header begins with the parameters of
another curve, or all lengths are right and a wire is unknown. -/
inductive Rejected (data : Bytes) (e : Failure) : Prop
  | malformed (reported : Malformed e)
  | otherCurve {file : Container} {s : Section} (reported : e.ReportedAs .curveMismatch)
    (framed : Container.parse magic [formatVersion] data = .ok file) (found : file.find 2 = .ok s)
    (differs : (file.payload s).take 72 ≠ parametersBytes)
  | unknownWire {file : Container} {n : Counts} (reported : e.ReportedAs .wireOutOfRange)
    (framed : Container.parse magic [formatVersion] data = .ok file)
    (counts : declaredCounts file = .ok n) (sized : Sized file n)

/-- Behind the parameters of the curve, a header is refused as malformed. -/
theorem readCounts_rejects {source : Section} {input : Bytes} {e : Failure}
    (failed : (readCounts .bn254).run (.ofPayload source input) = .error e) :
    Malformed e ∨ e.ReportedAs .curveMismatch ∧ input.take 72 ≠ parametersBytes := by
  have format (e : KeyFileError) (h : (Failure.key e).ReportedAs .format) : Malformed (.key e) :=
    .inl h
  have parameters : (readParameters .bn254).FailsIn fun e =>
      Malformed e ∨ e.ReportedAs .curveMismatch :=
    readParameters_failsIn (fun e => .inl (malformed_framing e)) fun _ h => .inr h
  rw [readCounts_eq, StateT.run_bind] at failed
  obtain failed | ⟨⟨_, r⟩, -, failed⟩ := Except.bind_eq_error_iff.1 failed
  · refine (parameters _ e failed).imp_right fun mismatch => ⟨mismatch, fun same => ?_⟩
    have whole : input = parametersBytes ++ input.drop 72 := by
      rw [← same, List.take_append_drop]
    have read := (means_readParameters source input () _).2 ⟨_, _, whole, rfl, rfl⟩
    rw [failed] at read
    cases read
  · left
    have rest := (readSizes_failsIn malformed_framing format).bind fun n =>
      (checkRoom_failsIn format).bind fun _ => Reading.FailsIn.pure n
    exact rest r e failed

/-- What is not read is rejected for one of three reasons. -/
theorem parse_rejects (data : Bytes) : Except.FailsIn (Rejected data) (parse .bn254 data) := by
  have framing (e : FramingError) : Rejected data (.framing e) := .malformed (malformed_framing e)
  have format (e : KeyFileError) (h : (Failure.key e).ReportedAs .format) :
      Rejected data (.key e) := .malformed (.inl h)
  have g1 := readG1_failsIn framing format
  have g2 := readG2_failsIn framing format
  refine (Container.parse_failsIn framing nameOf_magic).bind fun file framed => ?_
  have read {α : Type} {id : Int} {item : Reading α} (fails : item.FailsIn (Rejected data)) :
      Except.FailsIn (Rejected data) (file.readSection id item) :=
    Container.readSection_failsIn framing fails
  obtain ⟨-, -, -, tail, consists⟩ := Container.consists_of_parse framed
  refine (read (readProver_failsIn framing format)).bind fun _ prover => ?_
  refine (Container.reader_failsIn framing).bind fun header opened => ?_
  obtain ⟨source, payload, found, holds, rfl⟩ := consists.reader_eq_ok_iff.1 opened
  have counts : Except.FailsIn (Rejected data)
      ((readCounts .bn254).run (.ofPayload source payload)) := by
    intro e failed
    obtain ⟨_, found', rfl, -⟩ := holds
    obtain reported | ⟨reported, differs⟩ := readCounts_rejects failed
    · exact .malformed reported
    · exact .otherCurve reported framed found' differs
  refine counts.bind fun ⟨n, points⟩ counts => ?_
  refine (checkLayout_failsIn framing format file n).bind fun _ layout => ?_
  obtain ⟨declared, sized⟩ := sized_of_checks consists prover opened counts layout
  have wire (signal wires : Nat) : Rejected data (.key (.signal signal wires)) :=
    .unknownWire ⟨_, rfl, rfl⟩ framed declared sized
  refine (readSinglePoints_failsIn framing format points).bind fun ⟨single, _⟩ _ => ?_
  refine (read (g1.many _)).bind fun inputs _ => (read (g1.many _)).bind fun a _ => ?_
  refine (read (g1.many _)).bind fun b₁ _ => (read (g2.many _)).bind fun b₂ _ => ?_
  refine (read (g1.many _)).bind fun l _ => (read (g1.many _)).bind fun h _ => ?_
  exact (read (readCoefficients_failsIn framing format wire n)).bind fun _ _ => .ok _

/-- A key is read only from a file whose sections have the lengths that its counts ask for. A file
with other lengths is malformed, unless its header begins with the parameters of another curve. -/
theorem parse_sizes (data : Bytes) :
    match parse .bn254 data with
    | .error e => Rejected data e
    | .ok pk => ∃ file n, Container.parse magic [formatVersion] data = .ok file ∧
        declaredCounts file = .ok n ∧
        (pk.wires = n.wires ∧ pk.publicSignals = n.publicSignals ∧ pk.domain = n.domain) ∧
        Sized file n := by
  cases parsed : parse .bn254 data with
  | error e => exact parse_rejects data e parsed
  | ok pk =>
    simp only [parse, Except.bind_eq_ok_iff, Prod.exists] at parsed
    obtain ⟨file, framed, ⟨⟩, prover, opened, found, n, points, counts, ⟨⟩, layout, _, _, -, _, -,
      _, -, _, -, _, -, _, -, _, -, _, -, same⟩ := parsed
    cases same
    obtain ⟨-, -, -, tail, consists⟩ := Container.consists_of_parse framed
    obtain ⟨declared, sized⟩ := sized_of_checks consists prover found counts layout
    exact ⟨file, n, framed, declared, ⟨rfl, rfl, rfl⟩, sized⟩

section Padded

variable {k : Parts} {padding : Bytes}

/-- The sections of a key with some bytes behind the number of the proof system. -/
noncomputable def paddedPayloads (k : Parts) (padding : Bytes) : List (Nat × Bytes) :=
  (1, Bytes.ofNat 4 groth16 ++ padding) :: (payloads k).tail

/-- The file with these sections. -/
noncomputable def paddedBytes (k : Parts) (padding : Bytes) : Bytes :=
  Container.header magic formatVersion (paddedPayloads k padding).length ++
    (paddedPayloads k padding).flatMap Container.entry

theorem map_fst_paddedPayloads (k : Parts) (padding : Bytes) :
    (paddedPayloads k padding).map Prod.fst = sectionIds := by
  rw [paddedPayloads, List.map_cons, List.map_tail, map_fst_payloads]
  rfl

theorem framed_paddedBytes (valid : k.Valid) (short : 4 + padding.length < Bytes.capacity 8) :
    Container.Framed magic formatVersion (paddedPayloads k padding) []
      (paddedBytes k padding) where
  bytes_eq := by rw [List.append_nil, paddedBytes]
  count_lt := by
    rw [← List.length_map Prod.fst, map_fst_paddedPayloads]
    decide
  fits part member := by
    obtain rfl | later := List.mem_cons.1 member
    · refine ⟨(by decide : 1 < Bytes.capacity 4), ?_⟩
      rwa [List.length_append, Bytes.length_ofNat]
    · exact fits_payloads valid part (List.mem_of_mem_tail later)

/-- What follows the number of the proof system is not looked at. -/
theorem parse_paddedBytes (valid : k.Valid) (short : 4 + padding.length < Bytes.capacity 8) :
    (∃ file, Container.parse magic [formatVersion] (paddedBytes k padding) = .ok file ∧
      HasSize file 1 (4 + padding.length)) ∧
    parse .bn254 (paddedBytes k padding) = .ok k.key := by
  obtain ⟨file, framed, -, same⟩ :=
    (framed_paddedBytes valid short).exists_parse rfl formatVersion_lt nameOf_magic
  obtain ⟨-, -, -, tail, consists⟩ := Container.consists_of_parse framed
  have nodup : (file.contents.map Prod.fst).Nodup := by
    rw [same, map_fst_paddedPayloads]
    exact nodup_sectionIds
  have prover : file.Holds 1 (Bytes.ofNat 4 groth16 ++ padding) := by
    refine consists.holds_of_mem nodup ?_
    rw [same]
    exact List.mem_cons_self
  have others : ∀ id ∈ sectionIds.tail, file.Holds id (payload k id) := by
    intro id hid
    refine consists.holds_of_mem nodup ?_
    rw [same, paddedPayloads, payloads, ← List.map_tail]
    exact List.mem_cons_of_mem _ (List.mem_map_of_mem hid)
  have size := hasSize_of_holds prover
  rw [List.length_append, Bytes.length_ofNat] at size
  exact ⟨⟨file, framed, size⟩, parse_eq_ok_iff.2
    ⟨file, k, framed, describes_of_holds valid ⟨padding, prover⟩ others, rfl⟩⟩

/-- A file whose first section is longer than the number of the proof system is read as a key. -/
theorem parse_paddedBytes_sampleKey :
    (∃ file, Container.parse magic [formatVersion] (paddedBytes (.of sampleKey) [0]) = .ok file ∧
      HasSize file 1 5 ∧ ¬ HasSize file 1 4) ∧
    parse .bn254 (paddedBytes (.of sampleKey) [0]) = .ok sampleKey := by
  obtain ⟨⟨file, framed, size⟩, read⟩ :=
    @parse_paddedBytes _ [0] (Parts.valid_of sampleKey_wellFormed) (by decide)
  rw [Parts.key_of sampleKey_wellFormed] at read
  refine ⟨⟨file, framed, size, ?_⟩, read⟩
  rintro ⟨s, found, four⟩
  obtain ⟨s', found', five⟩ := size
  cases found.symm.trans found'
  exact absurd (four.symm.trans five) (by decide)

end Padded

end Snark.KeyFile
