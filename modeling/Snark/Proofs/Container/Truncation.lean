import Snark.Proofs.Container.Framing
import Snark.Proofs.Failure
import Snark.Proofs.Key.File
import Snark.Proofs.System.File

/-!
# Containers that are cut off

Sections declare their lengths, and all of them are walked over before one is read. So a container
that is cut in front of the end of its last section is refused for being too short, wherever it is
cut and whatever else is wrong with it, and what stands behind that end is never looked at.
-/

namespace Snark.Container

variable {magic data tail : Bytes} {versions : List Int} {c : Container}

/-- Where the last of some sections ends, and the given place if there are none. -/
def endFrom (offset : Nat) (sections : List Section) : Nat :=
  (sections.getLast?.map fun s => s.offset + s.size).getD offset

/-- Where the last of the sections that a container declares ends. -/
def lastEnd (c : Container) : Nat := endFrom headerSize c.sections

theorem endFrom_cons (s : Section) (sections : List Section) (offset : Nat) :
    endFrom offset (s :: sections) = endFrom (s.offset + s.size) sections := by
  rw [endFrom, endFrom, List.getLast?_cons]
  cases sections.getLast? <;> rfl

/-- Sections that follow one another end where their bytes do. -/
theorem endFrom_place (offset : Nat) (parts : List (Nat × Bytes)) :
    endFrom offset (place offset parts) = offset + (parts.flatMap entry).length := by
  induction parts generalizing offset with
  | nil => rfl
  | cons part parts ih =>
    obtain ⟨id, payload⟩ := part
    rw [place, endFrom_cons, ih, List.flatMap_cons, List.length_append, length_entry]
    dsimp only
    omega

theorem Consists.lastEnd_eq (h : c.Consists tail) : c.lastEnd = c.endOffset := by
  rw [h.endOffset_eq, lastEnd, h.sections_eq, endFrom_place]

/-- The sections of a container are not found in a proper part of their bytes. -/
theorem scan_take_failsAs {count offset k : Nat} {parts : List (Nat × Bytes)}
    (hcount : parts.length = count) (fits : ∀ part ∈ parts, Fits part)
    (cut : k < (parts.flatMap entry).length) :
    Result.FailsAs .truncated (scan count count offset ((parts.flatMap entry ++ tail).take k)) := by
  have whole : scan count count offset (parts.flatMap entry ++ tail) = .ok (place offset parts) :=
    scan_eq_ok_iff.2 ⟨parts, tail, rfl, hcount, fits, rfl⟩
  cases scanned : scan count count offset ((parts.flatMap entry ++ tail).take k) with
  | error e =>
    have reported : e.ReportedAs .truncated :=
      scan_failsIn (fun _ _ _ => ⟨_, rfl, rfl⟩) (fun _ _ _ => ⟨_, rfl, rfl⟩) e scanned
    exact ⟨e, rfl, reported⟩
  | ok sections =>
    -- The sections that were found would be those of the whole, which do not fit.
    obtain ⟨parts', tail', split, hcount', fits', rfl⟩ := scan_eq_ok_iff.1 scanned
    have extended : scan count count offset (parts.flatMap entry ++ tail) =
        .ok (place offset parts') := by
      refine scan_eq_ok_iff.2
        ⟨parts', tail' ++ (parts.flatMap entry ++ tail).drop k, ?_, hcount', fits', rfl⟩
      rw [← List.append_assoc, ← split, List.take_append_drop]
    have same : place offset parts = place offset parts' :=
      Except.ok.inj (whole.symm.trans extended)
    have length_eq : (parts.flatMap entry).length = (parts'.flatMap entry).length := by
      rw [← sum_place offset parts, ← sum_place offset parts', same]
    have short := congrArg List.length split
    rw [List.length_take, List.length_append, List.length_append] at short
    omega

/-- A container that is cut in front of the end of its last section is refused as too short, by
every reader that takes its version. -/
theorem parse_take_failsAs {versions' : List Int} (h : parse magic versions data = .ok c)
    (known : (c.version : Int) ∈ versions') {k : Nat} (cut : k < c.lastEnd) :
    Result.FailsAs .truncated (parse magic versions' (data.take k)) := by
  obtain ⟨bytes_eq, magic_eq, -, tail, consists⟩ := consists_of_parse h
  have end_eq := consists.lastEnd_eq.trans consists.endOffset_eq
  have header_length := length_header consists.magic_length c.version c.contents.length
  -- A cut in the header is found first, and any other cut leaves the header as it is.
  by_cases early : k < headerSize
  · have short : (data.take k).length < headerSize := by
      rw [List.length_take]
      omega
    refine ⟨.framing (.shortHeader (data.take k).length), ?_, ⟨_, rfl, rfl⟩⟩
    rw [parse, if_pos short]
    rfl
  · have kept : data.take k = header c.magic c.version c.contents.length ++
        (c.contents.flatMap entry ++ tail).take (k - headerSize) := by
      rw [← bytes_eq, consists.bytes_eq, List.append_assoc, List.take_append, header_length,
        List.take_of_length_le (by omega)]
    rw [kept, ← magic_eq, parse_header_append consists.magic_length consists.version_lt known
      consists.count_lt]
    refine (scan_take_failsAs rfl consists.fits ?_).bind _
    omega

/-- What begins with the bytes of a container up to the end of its last section is a container with
the same sections. -/
theorem exists_parse_of_prefix {data' : Bytes} (h : parse magic versions data = .ok c)
    (same : data.take c.lastEnd <+: data') :
    ∃ c', parse magic versions data' = .ok c' ∧ c'.version = c.version ∧
      c'.sections = c.sections := by
  obtain ⟨version, parts, tail, name, rfl, hmagic, hversion, known, hcount, fits, named, rfl⟩ :=
    parse_eq_ok_iff.1 h
  have length (bytes : Bytes) : (header magic version parts.length ++ parts.flatMap entry).length =
      lastEnd ⟨bytes, magic, name, version, place headerSize parts⟩ := by
    rw [lastEnd, endFrom_place, List.length_append, length_header hmagic]
  rw [List.take_left' (length _)] at same
  obtain ⟨rest, rfl⟩ := same
  exact ⟨_, parse_eq_ok_iff.2 ⟨version, parts, rest, name, rfl, hmagic, hversion, known, hcount,
    fits, named, rfl⟩, rfl, rfl⟩

/-- A container that is cut in front of the end of its last section is refused as too short, also by
the readers of the two file types, and the bytes behind that end make no difference. -/
theorem parse_cut (h : parse magic versions data = .ok c) :
    (∀ k < c.lastEnd,
      Result.FailsAs .truncated (parse magic versions (data.take k)) ∧
      (magic = ConstraintSystem.magic → c.version = ConstraintSystem.formatVersion → ∀ curve,
        Result.FailsAs .truncated (ConstraintSystem.parse curve (data.take k))) ∧
      (magic = KeyFile.magic → c.version = KeyFile.formatVersion → ∀ curve,
        Result.FailsAs .truncated (KeyFile.parse curve (data.take k)))) ∧
    ∀ data', data.take c.lastEnd <+: data' → ∃ c', parse magic versions data' = .ok c' ∧
      c'.version = c.version ∧ c'.sections = c.sections := by
  have refused (version : Nat) (same : c.version = version) (k : Nat) (cut : k < c.lastEnd) :
      Result.FailsAs .truncated (parse magic [version] (data.take k)) :=
    parse_take_failsAs h (by rw [same]; exact List.mem_singleton_self _) cut
  refine ⟨fun k cut => ⟨?_, ?_, ?_⟩, fun data' same => exists_parse_of_prefix h same⟩
  · obtain ⟨-, -, known, -⟩ := consists_of_parse h
    exact parse_take_failsAs h known cut
  · rintro rfl version_eq curve
    exact (refused _ version_eq k cut).bind _
  · rintro rfl version_eq curve
    exact (refused _ version_eq k cut).bind _

/-- Bytes without a tail end where the last section does. -/
theorem Framed.exists_lastEnd {version : Nat} {parts : List (Nat × Bytes)}
    (h : Framed magic version parts [] data) (hmagic : magic.length = 4)
    (hversion : version < Bytes.capacity 4) {name : String} (named : nameOf magic = .ok name) :
    ∃ c, parse magic [version] data = .ok c ∧ c.version = version ∧ c.lastEnd = data.length := by
  obtain ⟨c, read, version_eq, contents_eq⟩ := h.exists_parse hmagic hversion named
  obtain ⟨-, -, -, _, consists⟩ := consists_of_parse read
  refine ⟨c, read, version_eq, ?_⟩
  rw [consists.lastEnd_eq, consists.endOffset_eq, contents_eq, h.bytes_eq, List.append_nil,
    List.length_append, length_header hmagic]

/-- The files of the multiplier and of a key are refused as too short wherever they are cut. -/
theorem parse_cut_files :
    (∀ k < (ConstraintSystem.fileBytes (.of .multiplier)).length, Result.FailsAs .truncated
      (ConstraintSystem.parse .bn254 ((ConstraintSystem.fileBytes (.of .multiplier)).take k))) ∧
    ∀ k < (KeyFile.fileBytes (.of KeyFile.sampleKey)).length, Result.FailsAs .truncated
      (KeyFile.parse .bn254 ((KeyFile.fileBytes (.of KeyFile.sampleKey)).take k)) := by
  have version_lt : 1 < Bytes.capacity 4 := by decide
  constructor
  · intro k cut
    obtain ⟨c, read, version_eq, end_eq⟩ := ConstraintSystem.isFile_multiplier.framed.exists_lastEnd
      rfl version_lt ConstraintSystem.nameOf_magic
    rw [← end_eq] at cut
    exact ((parse_cut read).1 k cut).2.1 rfl version_eq .bn254
  · intro k cut
    obtain ⟨c, read, version_eq, end_eq⟩ := KeyFile.framed_sampleKey.exists_lastEnd
      rfl version_lt KeyFile.nameOf_magic
    rw [← end_eq] at cut
    exact ((parse_cut read).1 k cut).2.2 rfl version_eq .bn254

end Snark.Container
