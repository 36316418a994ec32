import Mathlib.Algebra.Order.Ring.Int
import Snark.Proofs.Container.Truncation

/-!
# Containers are framed without loss

Sections that are written are read back with their ids, their payloads and their order. Sections
that are read stand one after another, each behind the bytes of its id and its length and inside the
bytes of the container, so writing them again gives these bytes up to the end of the last section.
-/

namespace Snark.Container

section Place

variable {parts : List (Nat × Bytes)} {offset : Nat} {s : Section}

theorem le_offset_of_mem_place (h : s ∈ place offset parts) : offset + entrySize ≤ s.offset := by
  induction parts generalizing offset with
  | nil => cases h
  | cons part parts ih =>
    obtain rfl | later := List.mem_cons.1 h
    · exact le_rfl
    · have := ih later
      omega

/-- Sections that follow one another do not overlap, and stand in the order of their offsets. -/
theorem pairwise_place (offset : Nat) (parts : List (Nat × Bytes)) :
    (place offset parts).Pairwise fun s t => s.offset + s.size + entrySize ≤ t.offset := by
  induction parts generalizing offset with
  | nil => exact .nil
  | cons part parts ih => exact .cons (fun t ht => le_offset_of_mem_place ht) (ih _)

/-- Nothing but its entry stands between a section and the one before. -/
theorem isChain_place (offset : Nat) (parts : List (Nat × Bytes)) :
    (place offset parts).IsChain fun s t => t.offset = s.offset + s.size + entrySize := by
  induction parts generalizing offset with
  | nil => exact .nil
  | cons part parts ih =>
    cases parts with
    | nil => exact .singleton _
    | cons next parts => exact .cons_cons rfl (ih _)

theorem head?_place (h : (place offset parts).head? = some s) :
    s.offset = offset + entrySize := by
  cases parts with
  | nil => cases h
  | cons part parts =>
    cases h
    rfl

/-- The bytes in front of a section are those of its id and its length. -/
theorem entry_of_mem_place {pre tail : Bytes} (h : s ∈ place pre.length parts) :
    ((pre ++ parts.flatMap entry ++ tail).drop (s.offset - entrySize)).take entrySize =
      Bytes.ofNat 4 s.id ++ Bytes.ofNat 8 s.size := by
  induction parts generalizing pre with
  | nil => cases h
  | cons part parts ih =>
    obtain ⟨id, payload⟩ := part
    have whole : pre ++ ((id, payload) :: parts).flatMap entry ++ tail =
        pre ++ entry (id, payload) ++ parts.flatMap entry ++ tail := by
      simp only [List.flatMap_cons, List.append_assoc]
    have length_front : (Bytes.ofNat 4 id ++ Bytes.ofNat 8 payload.length).length = entrySize := by
      rw [List.length_append, Bytes.length_ofNat, Bytes.length_ofNat, entrySize]
    obtain rfl | later := List.mem_cons.1 h
    · have front : pre ++ entry (id, payload) ++ parts.flatMap entry ++ tail =
          pre ++ ((Bytes.ofNat 4 id ++ Bytes.ofNat 8 payload.length) ++
            (payload ++ (parts.flatMap entry ++ tail))) := by
        simp only [entry, List.append_assoc]
      rw [whole, front]
      dsimp only
      rw [Nat.add_sub_cancel, List.drop_left, List.take_left' length_front]
    · rw [whole]
      apply ih
      rwa [List.length_append, length_entry, ← Nat.add_assoc]

end Place

section Groups

/-- Sections that are grouped by their ids are no others than those that are not. -/
theorem perm_flatMap_filter (sections : List Section) {ids : List Nat} (distinct : ids.Nodup)
    (covered : ∀ s ∈ sections, s.id ∈ ids) :
    (ids.flatMap fun id => sections.filter (·.id = id)).Perm sections := by
  rw [List.perm_iff_count]
  intro s
  have group (id : Nat) : (sections.filter (·.id = id)).count s =
      if id = s.id then sections.count s else 0 := by
    by_cases same : id = s.id
    · rw [if_pos same, List.count_filter (by simpa using same.symm)]
    · rw [if_neg same, List.count_eq_zero]
      intro member
      exact same (of_decide_eq_true (List.mem_filter.1 member).2).symm
  have total : (ids.map fun id => if id = s.id then sections.count s else 0).sum =
      ids.count s.id • if s.id = s.id then sections.count s else 0 :=
    List.sum_map_eq_nsmul_single s.id _ fun id other _ => if_neg other
  rw [List.count_flatMap]
  simp only [Function.comp_def, group]
  rw [total, if_pos rfl]
  by_cases member : s ∈ sections
  · rw [List.count_eq_one_of_mem distinct (covered s member), one_nsmul]
  · rw [List.count_eq_zero_of_not_mem member, smul_zero]

/-- The groups of sections, taken in the order of the offsets, are the sections in the order of the
file. -/
theorem mergeSort_groups {c : Container}
    (ordered : c.sections.Pairwise fun s t => s.offset < t.offset)
    {ids : List Nat} (distinct : ids.Nodup) (covered : ∀ s ∈ c.sections, s.id ∈ ids) :
    (ids.flatMap c.all).mergeSort (fun s t => s.offset ≤ t.offset) = c.sections := by
  have perm : ((ids.flatMap c.all).mergeSort fun s t => s.offset ≤ t.offset).Perm c.sections :=
    (List.mergeSort_perm _ _).trans (perm_flatMap_filter c.sections distinct covered)
  have sorted : ((ids.flatMap c.all).mergeSort fun s t => s.offset ≤ t.offset).Pairwise
      fun s t => s.offset ≤ t.offset := by
    refine (List.pairwise_mergeSort ?_ ?_ _).imp of_decide_eq_true
    · intro s t u
      simp only [decide_eq_true_eq]
      exact le_trans
    · intro s t
      simpa using le_total s.offset t.offset
  -- No two sections start at one place, so there is one order only.
  have apart : (c.sections.map (·.offset)).Nodup := List.pairwise_map.2 (ordered.imp ne_of_lt)
  refine List.Perm.eq_of_pairwise (fun s t hs ht first second => ?_) sorted
    (ordered.imp le_of_lt) perm
  exact List.inj_on_of_nodup_map apart (perm.mem_iff.1 hs) ht (le_antisymm first second)

end Groups

section Written

/-- A container holds the given sections: for every id their payloads in the order of the list, of
which the first is found, and no others. -/
structure HoldsSections (c : Container) (sections : List (Int × Bytes)) : Prop where
  payloads_eq (id : Nat) : (c.all id).map c.payload =
    (sections.filter fun part => part.1 = (id : Int)).map Prod.snd
  find_eq (id : Int) (payload : Bytes) (h : sections.lookup id = some payload) :
    ∃ s, c.find id = .ok s ∧ (c.all id.toNat).head? = some s ∧ c.payload s = payload
  find_failsAs (id : Int) (h : ∀ part ∈ sections, part.1 ≠ id) :
    Result.FailsAs .format (c.find id)

/-- The ids and payloads of the sections in the order of the file, as they are written. -/
def written (c : Container) : List (Int × Bytes) :=
  c.sections.map fun s => ((s.id : Int), c.payload s)

theorem written_eq (c : Container) :
    c.written = c.contents.map fun part => ((part.1 : Int), part.2) := by
  rw [written, contents, List.map_map]
  rfl

theorem holdsSections_written (c : Container) : c.HoldsSections c.written where
  payloads_eq id := by
    simp [written, all, List.filter_map, Function.comp_def]
  find_eq id payload h := by
    rw [written, lookup_map_eq_find?] at h
    obtain ⟨s, found, rfl⟩ := Option.map_eq_some_iff.1 h
    have same := List.find?_some found
    obtain rfl : (s.id : Int) = id := of_decide_eq_true same
    refine ⟨s, by rw [find, found], ?_, rfl⟩
    rw [all, List.head?_filter, Int.toNat_natCast]
    simpa using found
  find_failsAs id h := by
    rw [find]
    split
    · rename_i s found
      have same := List.find?_some found
      have member : ((s.id : Int), c.payload s) ∈ c.written :=
        List.mem_map.2 ⟨s, List.mem_of_find?_eq_some found, rfl⟩
      exact absurd (of_decide_eq_true same) (h _ member)
    · exact ⟨_, rfl, _, rfl, rfl⟩

/-- A number that fits 32 bits, and a payload whose length fits 64 bits. -/
def FitsWords (part : Int × Bytes) : Prop :=
  (0 ≤ part.1 ∧ part.1 < 2 ^ 32) ∧ part.2.length < 2 ^ 64

/-- What is written is read back as a container with the same sections. -/
theorem exists_parse_write {magic : Bytes} {version : Int} {sections : List (Int × Bytes)}
    (hmagic : magic.length = 4) (text : (Text.Utf8.decode? magic).isSome)
    (hversion : 0 ≤ version ∧ version < 2 ^ 32) (hcount : sections.length < 2 ^ 32)
    (fits : ∀ part ∈ sections, FitsWords part) :
    ∃ data c, write magic version sections = .ok data ∧ parse magic [version] data = .ok c ∧
      c.written = sections := by
  obtain ⟨version, rfl⟩ := Int.eq_ofNat_of_zero_le hversion.1
  obtain ⟨parts, rfl⟩ : ∃ parts : List (Nat × Bytes),
      parts.map (fun part => ((part.1 : Int), part.2)) = sections := by
    refine ⟨sections.map fun part => (part.1.toNat, part.2), ?_⟩
    rw [List.map_map]
    refine (List.map_congr_left fun part hpart => ?_).trans (List.map_id sections)
    exact Prod.ext (Int.toNat_of_nonneg (fits part hpart).1.1) rfl
  obtain ⟨cs, decoded⟩ := Option.isSome_iff_exists.1 text
  have named : nameOf magic = .ok (String.ofList cs) := by rw [nameOf, decoded]
  have version_lt : version < Bytes.capacity 4 := by
    have : version < 2 ^ 32 := by exact_mod_cast hversion.2
    exact this
  have each : ∀ part ∈ parts, Fits part := by
    intro part hpart
    obtain ⟨⟨-, id_lt⟩, length_lt⟩ := fits _ (List.mem_map_of_mem hpart)
    change (part.1 : Int) < 2 ^ 32 at id_lt
    have : part.1 < 2 ^ 32 := by exact_mod_cast id_lt
    exact ⟨this, length_lt⟩
  rw [List.length_map] at hcount
  obtain ⟨c, read, contents_eq⟩ : ∃ c, parse magic [(version : Int)]
      (header magic version parts.length ++ parts.flatMap entry ++ []) = .ok c ∧
        c.contents = parts :=
    exists_parse hmagic version_lt (List.mem_singleton_self _) hcount each named
  rw [List.append_nil] at read
  exact ⟨_, c, write_eq hmagic version_lt hcount each, read, by rw [written_eq, contents_eq]⟩

end Written

section Found

variable {magic data tail : Bytes} {versions : List Int} {c : Container}

/-- The sections of a container stand in its bytes one after another from the header on, in the
order of their offsets, each behind the bytes of its id and its length. -/
structure LaidOut (c : Container) (data : Bytes) : Prop where
  inside : ∀ s ∈ c.sections, s.offset + s.size ≤ data.length
  disjoint : c.sections.Pairwise fun s t => s.offset + s.size ≤ t.offset
  first : ∀ s, c.sections.head? = some s → s.offset = headerSize + entrySize
  next : c.sections.IsChain fun s t => t.offset = s.offset + s.size + entrySize
  entries : ∀ s ∈ c.sections, (data.drop (s.offset - entrySize)).take entrySize =
    Bytes.ofNat 4 s.id ++ Bytes.ofNat 8 s.size
  grouped : ∀ ids : List Nat, ids.Nodup → (∀ s ∈ c.sections, s.id ∈ ids) →
    (ids.flatMap c.all).mergeSort (fun s t => s.offset ≤ t.offset) = c.sections

theorem Consists.laidOut (h : c.Consists tail) : c.LaidOut c.bytes := by
  have placed := h.sections_eq
  have ordered := pairwise_place headerSize c.contents
  rw [← placed] at ordered
  refine ⟨fun s => h.end_le, ordered.imp fun _ => by omega, fun s hs => ?_, ?_, fun s hs => ?_, ?_⟩
  · rw [placed] at hs
    exact head?_place hs
  · rw [placed]
    exact isChain_place headerSize c.contents
  · rw [placed, ← length_header h.magic_length c.version c.contents.length] at hs
    rw [h.bytes_eq]
    exact entry_of_mem_place hs
  · intro ids distinct covered
    exact mergeSort_groups (ordered.imp fun _ => by rw [entrySize] at *; omega) distinct covered

/-- Writing the sections of a container gives its bytes up to the end of the last section. -/
theorem Consists.write_written (h : c.Consists tail) :
    write c.magic c.version c.written = .ok (c.bytes.take c.lastEnd) := by
  have length_eq : (header c.magic c.version c.contents.length ++
      c.contents.flatMap entry).length = c.lastEnd := by
    rw [h.lastEnd_eq, h.endOffset_eq, List.length_append, length_header h.magic_length]
  rw [written_eq, write_eq h.magic_length h.version_lt h.count_lt h.fits, h.bytes_eq,
    List.take_left' length_eq]

end Found

/-- Containers are framed without loss: sections that are written are the sections that are read,
and bytes that are read are written again as far as their sections reach. -/
theorem framing_lossless :
    (∀ (magic : Bytes) (version : Int) (sections : List (Int × Bytes)), magic.length = 4 →
      (Text.Utf8.decode? magic).isSome → 0 ≤ version ∧ version < 2 ^ 32 →
      sections.length < 2 ^ 32 → (∀ part ∈ sections, FitsWords part) →
      ∃ data c, write magic version sections = .ok data ∧ parse magic [version] data = .ok c ∧
        (c.version : Int) = version ∧ c.HoldsSections sections) ∧
    ∀ (magic data : Bytes) (versions : List Int) (c : Container),
      parse magic versions data = .ok c →
      c.LaidOut data ∧ write c.magic c.version c.written = .ok (data.take c.lastEnd) := by
  constructor
  · intro magic version sections hmagic text hversion hcount fits
    obtain ⟨data, c, wrote, read, rfl⟩ := exists_parse_write hmagic text hversion hcount fits
    obtain ⟨-, -, known, -⟩ := consists_of_parse read
    exact ⟨data, c, wrote, read, List.mem_singleton.1 known, holdsSections_written c⟩
  · intro magic data versions c read
    obtain ⟨rfl, -, -, tail, consists⟩ := consists_of_parse read
    exact ⟨consists.laidOut, consists.write_written⟩

/-- Two sections share an id, and the one between them is empty. -/
theorem framing_lossless_repeated :
    ∃ data c, write [0x72, 0x31, 0x63, 0x73] 1 [(2, [7]), (5, []), (2, [8, 9])] = .ok data ∧
      parse [0x72, 0x31, 0x63, 0x73] [1] data = .ok c ∧
      c.HoldsSections [(2, [7]), (5, []), (2, [8, 9])] ∧ c.LaidOut data ∧
      write c.magic c.version c.written = .ok (data.take c.lastEnd) := by
  obtain ⟨data, c, wrote, read, -, holds⟩ := framing_lossless.1 [0x72, 0x31, 0x63, 0x73] 1
    [(2, [7]), (5, []), (2, [8, 9])] (by decide) (by decide +kernel) (by decide) (by decide)
    (by simp [FitsWords])
  obtain ⟨laid, rewrote⟩ := framing_lossless.2 [0x72, 0x31, 0x63, 0x73] data [1] c read
  exact ⟨data, c, wrote, read, holds, laid, rewrote⟩

end Snark.Container
