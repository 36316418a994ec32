import Snark.Proofs.Key.Writing
import Snark.Report

/-!
# Key files

What is read is a well-formed key, and every well-formed key is read back from its file. Other files
of the same key differ from that one in their framing or in a stored integer that is not a least
representative.
-/

namespace Snark.KeyFile

/-- The section with an id is no longer than it has to be, and holds least representatives. -/
def CanonicalPayload : (id : Nat) → (bs : Bytes) → Prop
  | 1, bs => bs.length = 4
  | 2, bs => Bytes.EachBlock 32 LeastCoordinate (bs.drop 84)
  | 4, bs => Bytes.EachBlock 44 LeastValue (bs.drop 4)
  | _, bs => Bytes.EachBlock 32 LeastCoordinate bs

/-- The file of a key has its sections in order and nothing behind them, and holds least
representatives. -/
structure Canonical (file : Container) : Prop where
  ids : file.sections.map (·.id) = sectionIds
  no_tail : file.bytes.length = file.endOffset
  payloads : ∀ s ∈ file.sections, CanonicalPayload s.id (file.payload s)

theorem nodup_sectionIds : sectionIds.Nodup := by decide

section Describes

variable {α : Type} {file : Container} {k : Parts} {tail bs : Bytes} {id n width block : Nat}
  {stands : Bytes → α → Prop} {bytes : α → Bytes} {good : α → Prop} {canonical : Bytes → Prop}
  {xs : List α}

theorem HoldsMany.valid (h : HoldsMany file id stands n xs)
    (encodes : Encodes stands bytes good width block canonical) :
    xs.length = n ∧ ∀ x ∈ xs, good x := by
  obtain ⟨bs, -, stands⟩ := h
  exact (encodes.many n).valid_of stands

theorem HoldsMany.eq_iff (h : HoldsMany file id stands n xs)
    (encodes : Encodes stands bytes good width block canonical) (holds : file.Holds id bs) :
    bs = xs.flatMap bytes ↔ Bytes.EachBlock block canonical bs := by
  obtain ⟨bs', holds', stands⟩ := h
  obtain rfl := holds.unique holds'
  rw [eq_comm]
  exact (encodes.many n).bytes_eq_iff stands

/-- Values that stand in a file fit their counts and are on their curves. -/
theorem Describes.valid (h : Describes file k) : k.Valid := by
  obtain ⟨points, -, single⟩ := h.header
  obtain ⟨bs, -, count_lt, entries⟩ := h.coefficients
  exact {
    counts := h.counts
    single := encodes_single.valid_of single
    inputs := HoldsMany.valid h.inputs encodes_G1
    a := HoldsMany.valid h.a encodes_G1
    b₁ := HoldsMany.valid h.b₁ encodes_G1
    b₂ := HoldsMany.valid h.b₂ encodes_G2
    l := HoldsMany.valid h.l encodes_G1
    h := HoldsMany.valid h.h encodes_G1
    coefficients := ⟨count_lt, ((h.counts.encodes_entries _).valid_of entries).2⟩ }

/-- A section of the file of a key holds what is written there exactly if it is canonical. -/
theorem Describes.eq_payload_iff (h : Describes file k) (hid : id ∈ sectionIds)
    (holds : file.Holds id bs) : bs = payload k id ↔ CanonicalPayload id bs := by
  simp only [sectionIds, List.mem_cons, List.not_mem_nil, or_false] at hid
  obtain rfl | rfl | rfl | rfl | rfl | rfl | rfl | rfl | rfl := hid
  · obtain ⟨rest, prover⟩ := h.prover
    obtain rfl := holds.unique prover
    simp [payload, CanonicalPayload]
  · obtain ⟨points, header, stands⟩ := h.header
    obtain rfl := holds.unique header
    rw [payload, CanonicalPayload, List.append_right_inj, eq_comm,
      List.drop_left' (length_fieldsBytes k.counts)]
    exact encodes_single.bytes_eq_iff stands
  · exact HoldsMany.eq_iff h.inputs encodes_G1 holds
  · obtain ⟨entries, coefficients, -, stands⟩ := h.coefficients
    obtain rfl := holds.unique coefficients
    rw [payload, CanonicalPayload, List.append_right_inj, eq_comm,
      List.drop_left' (Bytes.length_ofNat 4 k.coefficients.length)]
    exact (h.counts.encodes_entries _).bytes_eq_iff stands
  · exact HoldsMany.eq_iff h.a encodes_G1 holds
  · exact HoldsMany.eq_iff h.b₁ encodes_G1 holds
  · exact HoldsMany.eq_iff h.b₂ encodes_G2 holds
  · exact HoldsMany.eq_iff h.l encodes_G1 holds
  · exact HoldsMany.eq_iff h.h encodes_G1 holds

theorem map_fst_payloads (k : Parts) : (payloads k).map Prod.fst = sectionIds := by
  rw [payloads, List.map_map]
  exact List.map_id sectionIds

theorem holds_of_contents (consists : file.Consists tail) (same : file.contents = payloads k) :
    ∀ id ∈ sectionIds, file.Holds id (payload k id) := by
  intro id hid
  refine consists.holds_of_mem ?_ ?_
  · rw [same, map_fst_payloads]
    exact nodup_sectionIds
  · rw [same, payloads]
    exact List.mem_map_of_mem hid

/-- A file whose sections hold what is written for a key holds the values of the key. In the first
section something may follow. -/
theorem describes_of_holds (valid : k.Valid)
    (prover : ∃ rest, file.Holds 1 (Bytes.ofNat 4 groth16 ++ rest))
    (others : ∀ id ∈ sectionIds.tail, file.Holds id (payload k id)) : Describes file k := by
  simp only [sectionIds, List.tail_cons, List.forall_mem_cons] at others
  obtain ⟨h₂, h₃, h₄, h₅, h₆, h₇, h₈, h₉, -⟩ := others
  exact {
    prover
    header := ⟨_, h₂, encodes_single.stands_bytes valid.single⟩
    counts := valid.counts
    inputs := ⟨_, h₃, (encodes_G1.many _).stands_bytes valid.inputs⟩
    a := ⟨_, h₅, (encodes_G1.many _).stands_bytes valid.a⟩
    b₁ := ⟨_, h₆, (encodes_G1.many _).stands_bytes valid.b₁⟩
    b₂ := ⟨_, h₇, (encodes_G2.many _).stands_bytes valid.b₂⟩
    l := ⟨_, h₈, (encodes_G1.many _).stands_bytes valid.l⟩
    h := ⟨_, h₉, (encodes_G1.many _).stands_bytes valid.h⟩
    coefficients := ⟨_, h₄, valid.coefficients.1,
      (valid.counts.encodes_entries _).stands_bytes ⟨rfl, valid.coefficients.2⟩⟩ }

/-- A file with the sections of a key holds the values of the key. -/
theorem describes_of_contents (consists : file.Consists tail) (valid : k.Valid)
    (same : file.contents = payloads k) : Describes file k := by
  have holds := holds_of_contents consists same
  refine describes_of_holds valid ⟨[], ?_⟩ fun id hid => holds id (List.mem_of_mem_tail hid)
  rw [List.append_nil]
  exact holds 1 (by decide)

end Describes

section RoundTrip

variable {data : Bytes} {file : Container} {k : Parts}

theorem nameOf_magic : Container.nameOf magic = .ok "zkey" := rfl

/-- The file of a key has the sections of the key. -/
theorem exists_parse_fileBytes (valid : k.Valid) :
    ∃ file, Container.parse magic [formatVersion] (fileBytes k) = .ok file ∧
      file.contents = payloads k := by
  obtain ⟨file, framed, -, same⟩ :=
    (framed_fileBytes valid).exists_parse rfl formatVersion_lt nameOf_magic
  exact ⟨file, framed, same⟩

/-- The file of a key is read as the key. -/
theorem parse_fileBytes (valid : k.Valid) : parse .bn254 (fileBytes k) = .ok k.key := by
  obtain ⟨file, framed, same⟩ := exists_parse_fileBytes valid
  obtain ⟨-, -, -, tail, consists⟩ := Container.consists_of_parse framed
  exact parse_eq_ok_iff.2 ⟨file, k, framed, describes_of_contents consists valid same, rfl⟩

/-- Every well-formed key is read back from its file. -/
theorem parse_write {pk : ProvingKey G1 G2} (h : pk.WellFormed) :
    ∃ bytes, write .bn254 pk = .ok bytes ∧ parse .bn254 bytes = .ok pk := by
  have valid := Parts.valid_of h
  refine ⟨fileBytes (.of pk), ?_, ?_⟩
  · rw [← write_eq valid, Parts.key_of h]
  · rw [parse_fileBytes valid, Parts.key_of h]

/-- A key for a circuit with one public wire and a domain of two rows. -/
def sampleKey : ProvingKey G1 G2 where
  verifying := ⟨Bn254.generator₁, Bn254.generator₂, Bn254.generator₂, Bn254.generator₂,
    [Bn254.generator₁, .infinity]⟩
  beta := Bn254.generator₁
  delta := Bn254.generator₁
  a := [.infinity, Bn254.generator₁, .infinity]
  b₁ := [.infinity, .infinity, Bn254.generator₁]
  b₂ := [.infinity, .infinity, Bn254.generator₂]
  l := [Bn254.generator₁]
  h := [.infinity, Bn254.generator₁]
  coefficients := [⟨0, 1, 2, .ofInt (-1)⟩, ⟨1, 0, 1, .ofNat 5⟩]
  wires := 3
  publicSignals := 1
  domain := 2
  q := baseOrder
  r := scalarOrder
  baseWidth := 32
  scalarWidth := 32

theorem sampleKey_wellFormed : sampleKey.WellFormed where
  on_curve := by decide +kernel
  on_twist := by decide +kernel
  publicSignals_nonneg := by decide
  publicSignals_lt := by decide
  wires_lt := by decide
  domain_eq := ⟨1, by decide, rfl⟩
  length_inputs := rfl
  length_a := rfl
  length_b₁ := rfl
  length_b₂ := rfl
  length_l := rfl
  length_h := rfl
  length_coefficients := by decide
  coefficients_valid := by decide +kernel
  q_eq := rfl
  r_eq := rfl
  baseWidth_eq := rfl
  scalarWidth_eq := rfl

theorem framed_sampleKey : Container.Framed magic formatVersion (payloads (.of sampleKey)) []
    (fileBytes (.of sampleKey)) :=
  framed_fileBytes (Parts.valid_of sampleKey_wellFormed)

theorem parse_sampleKey : parse .bn254 (fileBytes (.of sampleKey)) = .ok sampleKey := by
  rw [parse_fileBytes (Parts.valid_of sampleKey_wellFormed), Parts.key_of sampleKey_wellFormed]

theorem parse_write_sampleKey : sampleKey.WellFormed ∧
    ∃ bytes, write .bn254 sampleKey = .ok bytes ∧ parse .bn254 bytes = .ok sampleKey :=
  ⟨sampleKey_wellFormed, parse_write sampleKey_wellFormed⟩

/-- The sections of a file are those of a key if they have the same ids and bytes. -/
theorem contents_eq_payloads_iff :
    file.contents = payloads k ↔ file.sections.map (·.id) = sectionIds ∧
      ∀ s ∈ file.sections, file.payload s = payload k s.id := by
  constructor
  · intro same
    constructor
    · rw [← map_fst_payloads k, ← same, Container.contents, List.map_map]
      rfl
    · intro s hs
      have mem : (s.id, file.payload s) ∈ payloads k := by
        rw [← same]
        exact List.mem_map_of_mem hs
      obtain ⟨id, -, eq⟩ := List.mem_map.1 mem
      obtain ⟨rfl, eq⟩ := Prod.mk.inj eq
      exact eq.symm
  · rintro ⟨ids, each⟩
    rw [Container.contents, payloads, ← ids, List.map_map]
    exact List.map_congr_left fun s hs => congrArg (Prod.mk s.id) (each s hs)

/-- A file is the one that its key is written in exactly if it is canonical. -/
theorem fileBytes_eq_iff (framed : Container.parse magic [formatVersion] data = .ok file)
    (describes : Describes file k) : fileBytes k = data ↔ Canonical file := by
  obtain ⟨bytes_eq, magic_eq, version, tail, consists⟩ := Container.consists_of_parse framed
  have version_eq : file.version = formatVersion := Int.ofNat_inj.1 (List.mem_singleton.1 version)
  have same_iff : file.contents = payloads k ↔ file.sections.map (·.id) = sectionIds ∧
      ∀ s ∈ file.sections, CanonicalPayload s.id (file.payload s) := by
    rw [contents_eq_payloads_iff]
    refine and_congr_right fun ids => forall₂_congr fun s hs => ?_
    have member : s.id ∈ sectionIds := ids ▸ List.mem_map_of_mem hs
    refine describes.eq_payload_iff member (consists.holds_of_mem ?_ (List.mem_map_of_mem hs))
    rw [Container.contents, List.map_map]
    exact ids ▸ nodup_sectionIds
  constructor
  · rintro rfl
    obtain ⟨file', framed', same⟩ := exists_parse_fileBytes describes.valid
    cases framed.symm.trans framed'
    obtain ⟨ids, canonical⟩ := same_iff.1 same
    refine ⟨ids, ?_, canonical⟩
    rw [consists.endOffset_eq, same, bytes_eq, fileBytes, List.length_append,
      Container.length_header rfl]
  · rintro ⟨ids, no_tail, canonical⟩
    have same := same_iff.2 ⟨ids, canonical⟩
    obtain rfl : tail = [] := by
      have length := consists.length_bytes
      exact List.eq_nil_of_length_eq_zero (by omega)
    rw [← bytes_eq, consists.bytes_eq, same, magic_eq, version_eq, List.append_nil, fileBytes]

end RoundTrip

section Outcome

variable {data : Bytes}

/-- A malformed file is reported as one: it is cut short or in another format, it was made for
another curve, or it mentions a wire that the circuit lacks. -/
def Refused (e : Failure) : Prop :=
  ∃ r, e.report? = some r ∧
    r.kind ∈ [ReportKind.format, .truncated, .curveMismatch, .wireOutOfRange]

theorem refused_framing (e : FramingError) : Refused (.framing e) := by
  refine ⟨e.report, rfl, ?_⟩
  cases e <;> simp [FramingError.report, Report.make]

theorem refused_key (e : KeyFileError) : Refused (.key e) := by
  refine ⟨e.report, rfl, ?_⟩
  cases e <;> simp [KeyFileError.report, Report.make]

section Checks

variable {sort : Failure → Prop} (framing : ∀ e, sort (.framing e))
  (format : ∀ e, (Failure.key e).ReportedAs .format → sort (.key e))
include framing format

theorem checkPoints_failsIn (file : Container) (id count width : Nat) (pos : 0 < width) :
    Except.FailsIn sort (checkPoints file id count width) := by
  rw [checkPoints]
  refine (Container.find_failsIn framing).bind fun s _ => ?_
  rw [if_neg pos.ne']
  exact .ite (fun _ => .error (format _ ⟨_, rfl, rfl⟩)) fun _ =>
    .ite (fun _ => .error (format _ ⟨_, rfl, rfl⟩)) fun _ => .ok _

theorem checkLayout_failsIn (file : Container) (n : Counts) :
    Except.FailsIn sort (checkLayout file .bn254 n) := by
  have g1 (id count : Nat) : Except.FailsIn sort (checkPoints file id count 64) :=
    checkPoints_failsIn framing format file id count 64 (by decide)
  have g2 (id count : Nat) : Except.FailsIn sort (checkPoints file id count 128) :=
    checkPoints_failsIn framing format file id count 128 (by decide)
  refine (g1 3 _).bind fun _ _ => (g1 5 _).bind fun _ _ => (g1 6 _).bind fun _ _ =>
    (g2 7 _).bind fun _ _ => (g1 8 _).bind fun _ _ => (g1 9 _).bind fun _ _ => ?_
  refine (Container.find_failsIn framing).bind fun s _ => ?_
  exact .ite (fun _ => .error (format _ ⟨_, rfl, rfl⟩)) fun _ =>
    .ite (fun _ => .error (format _ ⟨_, rfl, rfl⟩)) fun _ => .ok _

end Checks

/-- Bytes that are no key are refused, whatever is wrong with them. -/
theorem parse_failsIn (data : Bytes) : Except.FailsIn Refused (parse .bn254 data) := by
  have format (e : KeyFileError) (_ : (Failure.key e).ReportedAs .format) : Refused (.key e) :=
    refused_key e
  have g1 := readG1_failsIn refused_framing format
  have g2 := readG2_failsIn refused_framing format
  refine (Container.parse_failsIn refused_framing nameOf_magic).bind fun file _ => ?_
  have read {α : Type} {id : Int} {item : Reading α} (fails : item.FailsIn Refused) :
      Except.FailsIn Refused (file.readSection id item) :=
    Container.readSection_failsIn refused_framing fails
  refine (read (readProver_failsIn refused_framing format)).bind fun _ _ => ?_
  refine (Container.reader_failsIn refused_framing).bind fun header _ => ?_
  refine (readCounts_failsIn refused_framing format (fun e _ => refused_key e) header).bind
    fun ⟨n, points⟩ _ => ?_
  refine (checkLayout_failsIn refused_framing format file n).bind fun _ _ => ?_
  refine (readSinglePoints_failsIn refused_framing format points).bind fun ⟨single, _⟩ _ => ?_
  refine (read (g1.many _)).bind fun inputs _ => (read (g1.many _)).bind fun a _ => ?_
  refine (read (g1.many _)).bind fun b₁ _ => (read (g2.many _)).bind fun b₂ _ => ?_
  refine (read (g1.many _)).bind fun l _ => (read (g1.many _)).bind fun h _ => ?_
  exact (read (readCoefficients_failsIn refused_framing format (fun _ _ => refused_key _) n)).bind
    fun _ _ => .ok _

/-- The counts in the header of a file. -/
def declaredCounts (file : Container) : Result Counts := do
  let header := file.payload (← file.find 2)
  return ⟨Bytes.toNat ((header.drop 72).take 4), Bytes.toNat ((header.drop 76).take 4),
    Bytes.toNat ((header.drop 80).take 4)⟩

theorem declaredCounts_eq {file : Container} {n : Counts} {points : Bytes} (valid : n.Valid)
    (holds : file.Holds 2 (fieldsBytes n ++ points)) : declaredCounts file = .ok n := by
  obtain ⟨s, found, header, -⟩ := holds
  have publicSignals_lt := valid.publicSignals_lt.trans valid.wires_lt
  have wires : (file.payload s).drop 72 = Bytes.ofNat 4 n.wires ++
      (Bytes.ofNat 4 n.publicSignals ++ (Bytes.ofNat 4 n.domain ++ points)) := by
    rw [header, fieldsBytes, List.append_assoc, List.drop_left' length_parametersBytes, sizesBytes,
      List.append_assoc, List.append_assoc]
  have publicSignals : (file.payload s).drop 76 =
      Bytes.ofNat 4 n.publicSignals ++ (Bytes.ofNat 4 n.domain ++ points) := by
    have split : (file.payload s).drop 76 = ((file.payload s).drop 72).drop 4 := by
      rw [List.drop_drop]
    rw [split, wires, List.drop_left' (Bytes.length_ofNat ..)]
  have domain : (file.payload s).drop 80 = Bytes.ofNat 4 n.domain ++ points := by
    have split : (file.payload s).drop 80 = ((file.payload s).drop 76).drop 4 := by
      rw [List.drop_drop]
    rw [split, publicSignals, List.drop_left' (Bytes.length_ofNat ..)]
  rw [declaredCounts, found, Except.ok_bind]
  dsimp only
  rw [wires, publicSignals, domain, List.take_left' (Bytes.length_ofNat ..),
    List.take_left' (Bytes.length_ofNat ..), List.take_left' (Bytes.length_ofNat ..),
    Bytes.toNat_ofNat_of_lt valid.wires_lt, Bytes.toNat_ofNat_of_lt publicSignals_lt,
    Bytes.toNat_ofNat_of_lt valid.domain_lt]
  rfl

theorem Describes.declaredCounts_eq {file : Container} {k : Parts} (h : Describes file k) :
    declaredCounts file = .ok k.counts := by
  obtain ⟨points, holds, -⟩ := h.header
  exact KeyFile.declaredCounts_eq h.counts holds

/-- Bytes are refused, or they are a well-formed key with the counts that they declare. Such a key
is read back from its file, which is the bytes that were read exactly if these are canonical. -/
theorem parse_outcome (data : Bytes) :
    match parse .bn254 data with
    | .error e => Refused e
    | .ok pk => pk.WellFormed ∧ pk.verifying.publicSignals = pk.publicSignals ∧
        ∃ file n out, Container.parse magic [formatVersion] data = .ok file ∧
          declaredCounts file = .ok n ∧
          (pk.wires = n.wires ∧ pk.publicSignals = n.publicSignals ∧ pk.domain = n.domain) ∧
          write .bn254 pk = .ok out ∧ parse .bn254 out = .ok pk ∧
          (out = data ↔ Canonical file) := by
  cases parsed : parse .bn254 data with
  | error e => exact parse_failsIn data e parsed
  | ok pk =>
    obtain ⟨file, k, framed, describes, rfl⟩ := parse_eq_ok_iff.1 parsed
    have valid := describes.valid
    exact ⟨valid.wellFormed, valid.wellFormed.publicSignals_eq, file, k.counts, fileBytes k, framed,
      describes.declaredCounts_eq, ⟨rfl, rfl, rfl⟩, write_eq valid, parse_fileBytes valid,
      fileBytes_eq_iff framed describes⟩

end Outcome

end Snark.KeyFile
