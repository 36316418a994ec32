import Mathlib.Algebra.BigOperators.Group.List.Basic
import Mathlib.Data.List.Nodup
import Snark.Container.Framing
import Snark.Proofs.Bytes
import Snark.Proofs.Container.Reading

/-!
# What a container consists of

A container is a header, sections one after another, and a tail that nothing reads. Scanning finds
exactly the sections that the bytes were made of, so a container is known by the ids and payloads of
its sections; what is written in this form is read back, and what is read and has no tail is written
as it was.
-/

namespace Snark.Container

/-- The bytes of a section with its id and its length. -/
def entry (part : Nat × Bytes) : Bytes :=
  Bytes.ofNat 4 part.1 ++ Bytes.ofNat 8 part.2.length ++ part.2

@[simp] theorem length_entry (part : Nat × Bytes) :
    (entry part).length = entrySize + part.2.length := by
  rw [entry, List.length_append, List.length_append, Bytes.length_ofNat, Bytes.length_ofNat,
    entrySize]

/-- The id and the length of a section fit their fields. -/
def Fits (part : Nat × Bytes) : Prop :=
  part.1 < Bytes.capacity 4 ∧ part.2.length < Bytes.capacity 8

/-- Where sections stand that follow one another from `offset` on. -/
def place : (offset : Nat) → List (Nat × Bytes) → List Section
  | _, [] => []
  | offset, (id, payload) :: parts =>
    ⟨id, offset + entrySize, payload.length⟩ :: place (offset + entrySize + payload.length) parts

/-- The header of a container. -/
def header (magic : Bytes) (version count : Nat) : Bytes :=
  magic ++ Bytes.ofNat 4 version ++ Bytes.ofNat 4 count

theorem length_header {magic : Bytes} (h : magic.length = 4) (version count : Nat) :
    (header magic version count).length = headerSize := by
  rw [header, List.length_append, List.length_append, Bytes.length_ofNat, Bytes.length_ofNat, h,
    headerSize]

section Scan

variable {count : Nat}

theorem scan_entry {part : Nat × Bytes} (h : Fits part) (left offset : Nat) (rest : Bytes) :
    scan count (left + 1) offset (entry part ++ rest) =
      (scan count left (offset + entrySize + part.2.length) rest).map
        (⟨part.1, offset + entrySize, part.2.length⟩ :: ·) := by
  obtain ⟨id, payload⟩ := part
  have id_eq : Bytes.toNat ((entry (id, payload) ++ rest).take 4) = id := by
    rw [entry, List.append_assoc, List.append_assoc, List.take_left' (Bytes.length_ofNat 4 id),
      Bytes.toNat_ofNat_of_lt h.1]
  have size_eq : Bytes.toNat (((entry (id, payload) ++ rest).drop 4).take 8) = payload.length := by
    rw [entry, List.append_assoc, List.append_assoc, List.drop_left' (Bytes.length_ofNat 4 id),
      List.take_left' (Bytes.length_ofNat 8 payload.length), Bytes.toNat_ofNat_of_lt h.2]
  have payload_eq : (entry (id, payload) ++ rest).drop entrySize = payload ++ rest := by
    rw [entry, List.append_assoc, List.append_assoc, ← List.append_assoc, List.drop_left']
    rw [List.length_append, Bytes.length_ofNat, Bytes.length_ofNat, entrySize]
  have enough : ¬ (entry (id, payload) ++ rest).length < entrySize := by
    rw [List.length_append, length_entry]
    omega
  have inside : ¬ (payload ++ rest).length < payload.length := by simp
  rw [scan, if_neg enough]
  simp only [id_eq, size_eq, payload_eq, if_neg inside, List.drop_left]
  cases scan count left (offset + entrySize + payload.length) rest <;> rfl

/-- Bytes that are long enough begin with a section. -/
theorem exists_entry {rest : Bytes} (long : entrySize ≤ rest.length)
    (inside : Bytes.toNat ((rest.drop 4).take 8) ≤ (rest.drop entrySize).length) :
    ∃ part tail, rest = entry part ++ tail ∧ Fits part := by
  let size := Bytes.toNat ((rest.drop 4).take 8)
  have id_length : (rest.take 4).length = 4 := by
    rw [entrySize] at long
    exact List.length_take_of_le (by omega)
  have size_length : ((rest.drop 4).take 8).length = 8 := by
    rw [entrySize] at long
    exact List.length_take_of_le (by rw [List.length_drop]; omega)
  have payload_length : ((rest.drop entrySize).take size).length = size :=
    List.length_take_of_le inside
  refine ⟨(Bytes.toNat (rest.take 4), (rest.drop entrySize).take size),
    (rest.drop entrySize).drop size, ?_, Bytes.toNat_lt_of_length id_length, ?_⟩
  · rw [entry, payload_length, Bytes.ofNat_toNat_of_length id_length,
      Bytes.ofNat_toNat_of_length size_length, List.append_assoc, List.append_assoc,
      List.take_append_drop]
    change rest = rest.take 4 ++ ((rest.drop 4).take 8 ++ rest.drop (4 + 8))
    rw [← List.drop_drop, List.take_append_drop, List.take_append_drop]
  · rw [payload_length]
    exact Bytes.toNat_lt_of_length size_length

/-- Scanning finds the sections that the bytes consist of. -/
theorem scan_eq_ok_iff {left offset : Nat} {rest : Bytes} {sections : List Section} :
    scan count left offset rest = .ok sections ↔
      ∃ parts tail, rest = parts.flatMap entry ++ tail ∧ parts.length = left ∧
        (∀ part ∈ parts, Fits part) ∧ sections = place offset parts := by
  induction left generalizing offset rest sections with
  | zero =>
    constructor
    · intro h
      cases h
      exact ⟨[], rest, rfl, rfl, by simp, rfl⟩
    · rintro ⟨parts, tail, -, none, -, rfl⟩
      obtain rfl := List.eq_nil_of_length_eq_zero none
      rfl
  | succ left ih =>
    constructor
    · intro h
      have long : entrySize ≤ rest.length := by
        by_contra short
        rw [scan, if_pos (Nat.not_le.1 short)] at h
        cases h
      have inside : Bytes.toNat ((rest.drop 4).take 8) ≤ (rest.drop entrySize).length := by
        by_contra cut
        rw [scan, if_neg (Nat.not_lt.2 long)] at h
        dsimp only at h
        rw [if_pos (Nat.not_le.1 cut)] at h
        cases h
      obtain ⟨part, rest', rfl, fits⟩ := exists_entry long inside
      rw [scan_entry fits] at h
      cases found : scan count left (offset + entrySize + part.2.length) rest' with
      | error e =>
        rw [found] at h
        cases h
      | ok later =>
        rw [found] at h
        cases h
        obtain ⟨parts, tail, rfl, rfl, each, rfl⟩ := ih.1 found
        refine ⟨part :: parts, tail, ?_, rfl, List.forall_mem_cons.2 ⟨fits, each⟩, rfl⟩
        rw [List.flatMap_cons, List.append_assoc]
    · rintro ⟨parts, tail, rfl, length, each, rfl⟩
      cases parts with
      | nil => cases length
      | cons part parts =>
        obtain ⟨fits, each⟩ := List.forall_mem_cons.1 each
        rw [List.flatMap_cons, List.append_assoc, scan_entry fits,
          ih.2 ⟨parts, tail, rfl, Nat.succ.inj length, each, rfl⟩]
        rfl

/-- Scanning fails only where the bytes end in front of the payload of a section, or in it. -/
theorem scan_failsIn {sort : Failure → Prop} {left offset : Nat} {rest : Bytes}
    (inEntry : ∀ i n offset, sort (.framing (.shortEntry i n offset)))
    (inSection : ∀ id size left, sort (.framing (.shortSection id size left))) :
    Except.FailsIn sort (scan count left offset rest) := by
  induction left generalizing offset rest with
  | zero => exact .ok _
  | succ left ih =>
    rw [scan]
    dsimp only
    split_ifs
    · exact .error (inEntry _ _ _)
    · exact .error (inSection _ _ _)
    · split
      · rename_i failed
        exact .error (ih _ failed)
      · exact .ok _

end Scan

section Parse

variable {magic data : Bytes} {versions : List Int} {c : Container}

theorem take_drop_header (hmagic : magic.length = 4) {version count : Nat}
    (hversion : version < Bytes.capacity 4) (hcount : count < Bytes.capacity 4) (rest : Bytes) :
    (header magic version count ++ rest).take 4 = magic ∧
      Bytes.toNat (((header magic version count ++ rest).drop 4).take 4) = version ∧
      Bytes.toNat (((header magic version count ++ rest).drop 8).take 4) = count ∧
      (header magic version count ++ rest).drop headerSize = rest := by
  refine ⟨?_, ?_, ?_, List.drop_left' (length_header hmagic version count)⟩
  · rw [header, List.append_assoc, List.append_assoc, List.take_left' hmagic]
  · rw [header, List.append_assoc, List.append_assoc, List.drop_left' hmagic,
      List.take_left' (Bytes.length_ofNat 4 version), Bytes.toNat_ofNat_of_lt hversion]
  · have first : (magic ++ Bytes.ofNat 4 version).length = 8 := by
      rw [List.length_append, hmagic, Bytes.length_ofNat]
    rw [header, List.append_assoc, List.drop_left' first,
      List.take_left' (Bytes.length_ofNat 4 count), Bytes.toNat_ofNat_of_lt hcount]

theorem length_take_header (long : headerSize ≤ data.length) :
    (data.take 4).length = 4 ∧ ((data.drop 4).take 4).length = 4 ∧
      ((data.drop 8).take 4).length = 4 := by
  rw [headerSize] at long
  simp only [List.length_take, List.length_drop]
  omega

/-- Bytes that are long enough begin with a header. -/
theorem eq_header (long : headerSize ≤ data.length) :
    data = header (data.take 4) (Bytes.toNat ((data.drop 4).take 4))
      (Bytes.toNat ((data.drop 8).take 4)) ++ data.drop headerSize := by
  obtain ⟨-, version_length, count_length⟩ := length_take_header long
  have eight : data.drop 8 = (data.drop 4).drop 4 := by rw [List.drop_drop]
  have twelve : data.drop headerSize = (data.drop 8).drop 4 := by rw [List.drop_drop, headerSize]
  rw [header, Bytes.ofNat_toNat_of_length version_length, Bytes.ofNat_toNat_of_length count_length,
    List.append_assoc, List.append_assoc, twelve, List.take_append_drop, eight,
    List.take_append_drop, List.take_append_drop]

/-- Behind a header, the sections are scanned. -/
theorem parse_header_append (hmagic : magic.length = 4) {version count : Nat}
    (hversion : version < Bytes.capacity 4) (known : (version : Int) ∈ versions)
    (hcount : count < Bytes.capacity 4) (rest : Bytes) :
    parse magic versions (header magic version count ++ rest) = do
      let sections ← scan count count headerSize rest
      let name ← nameOf magic
      return ⟨header magic version count ++ rest, magic, name, version, sections⟩ := by
  have long : ¬ (header magic version count ++ rest).length < headerSize := by
    rw [List.length_append, length_header hmagic]
    omega
  obtain ⟨magic_eq, version_eq, count_eq, rest_eq⟩ :=
    take_drop_header hmagic hversion hcount rest
  rw [parse, if_neg long]
  simp only [magic_eq, version_eq, count_eq, rest_eq]
  rw [if_neg (not_not_intro rfl), if_neg (by simpa using known)]

/-- A container is read exactly if it consists of a header, its sections and a tail. -/
theorem parse_eq_ok_iff :
    parse magic versions data = .ok c ↔
      ∃ version parts tail name,
        data = header magic version parts.length ++ parts.flatMap entry ++ tail ∧
        magic.length = 4 ∧ version < Bytes.capacity 4 ∧ (version : Int) ∈ versions ∧
        parts.length < Bytes.capacity 4 ∧ (∀ part ∈ parts, Fits part) ∧
        nameOf magic = .ok name ∧ c = ⟨data, magic, name, version, place headerSize parts⟩ := by
  constructor
  · intro h
    have long : headerSize ≤ data.length := by
      by_contra short
      rw [parse, if_pos (Nat.not_le.1 short)] at h
      cases h
    rw [parse, if_neg (Nat.not_lt.2 long)] at h
    dsimp only at h
    have same : data.take 4 = magic := by
      by_contra other
      rw [if_pos other] at h
      cases h
    rw [if_neg (not_not_intro same)] at h
    have known : versions.contains (Bytes.toNat ((data.drop 4).take 4) : Int) = true := by
      by_contra unknown
      rw [if_pos (by simpa using unknown)] at h
      obtain ⟨_, -, failed⟩ := Except.bind_eq_ok_iff.1 h
      cases failed
    rw [known, Bool.not_true, if_neg Bool.false_ne_true] at h
    obtain ⟨sections, scanned, h⟩ := Except.bind_eq_ok_iff.1 h
    obtain ⟨name, named, h⟩ := Except.bind_eq_ok_iff.1 h
    cases h
    obtain ⟨parts, tail, rest, length, fits, rfl⟩ := scan_eq_ok_iff.1 scanned
    obtain ⟨magic_length, version_length, count_length⟩ := length_take_header long
    refine ⟨_, parts, tail, name, ?_, by rwa [← same], Bytes.toNat_lt_of_length version_length,
      by simpa using known, ?_, fits, named, rfl⟩
    · conv_lhs => rw [eq_header long, rest, same, ← length]
      rw [List.append_assoc]
    · rw [length]
      exact Bytes.toNat_lt_of_length count_length
  · rintro ⟨version, parts, tail, name, rfl, hmagic, hversion, known, hcount, fits, named, rfl⟩
    have scanned : scan parts.length parts.length headerSize (parts.flatMap entry ++ tail) =
        .ok (place headerSize parts) :=
      scan_eq_ok_iff.2 ⟨parts, tail, rfl, rfl, fits, rfl⟩
    rw [List.append_assoc, parse_header_append hmagic hversion known hcount, scanned,
      Except.ok_bind, named, Except.ok_bind]
    rfl

theorem parse_failsIn {sort : Failure → Prop} (framing : ∀ e, sort (.framing e)) {name : String}
    (named : nameOf magic = .ok name) : Except.FailsIn sort (parse magic versions data) := by
  rw [parse]
  refine .ite (fun _ => .error (framing _)) fun _ => ?_
  refine .ite (fun _ => .error (framing _)) fun _ => ?_
  rw [named]
  refine .ite (fun _ => .error (framing _)) fun _ => ?_
  exact (scan_failsIn (fun _ _ _ => framing _) fun _ _ _ => framing _).bind fun sections _ => .ok _

end Parse

section Contents

variable {c : Container} {id : Int} {payload : Bytes}

/-- The ids and payloads of the sections, in the order of the file. -/
def contents (c : Container) : List (Nat × Bytes) := c.sections.map fun s => (s.id, c.payload s)

theorem contents_place (pre tail : Bytes) (parts : List (Nat × Bytes)) :
    (place pre.length parts).map (fun s =>
      (s.id, ((pre ++ parts.flatMap entry ++ tail).drop s.offset).take s.size)) = parts := by
  induction parts generalizing pre with
  | nil => rfl
  | cons part parts ih =>
    obtain ⟨id, payload⟩ := part
    have next : pre.length + entrySize + payload.length = (pre ++ entry (id, payload)).length := by
      rw [List.length_append, length_entry, Nat.add_assoc]
    have whole : pre ++ ((id, payload) :: parts).flatMap entry ++ tail =
        pre ++ entry (id, payload) ++ parts.flatMap entry ++ tail := by
      simp only [List.flatMap_cons, List.append_assoc]
    have front : pre ++ entry (id, payload) ++ parts.flatMap entry ++ tail =
        (pre ++ (Bytes.ofNat 4 id ++ Bytes.ofNat 8 payload.length)) ++
          (payload ++ (parts.flatMap entry ++ tail)) := by
      simp only [entry, List.append_assoc]
    have start : (pre ++ (Bytes.ofNat 4 id ++ Bytes.ofNat 8 payload.length)).length =
        pre.length + entrySize := by
      rw [List.length_append, List.length_append, Bytes.length_ofNat, Bytes.length_ofNat, entrySize]
    rw [place, List.map_cons, whole, next, ih]
    congr 2
    rw [front, List.drop_left' start, List.take_left]

theorem contents_eq {magic : Bytes} (hmagic : magic.length = 4) (name : String) (version : Nat)
    (parts : List (Nat × Bytes)) (tail : Bytes) :
    contents ⟨header magic version parts.length ++ parts.flatMap entry ++ tail, magic, name,
      version, place headerSize parts⟩ = parts := by
  have found := contents_place (header magic version parts.length) tail parts
  rwa [length_header hmagic] at found

theorem sum_place (offset : Nat) (parts : List (Nat × Bytes)) :
    ((place offset parts).map fun s => entrySize + s.size).sum =
      (parts.flatMap entry).length := by
  induction parts generalizing offset with
  | nil => rfl
  | cons part parts ih =>
    rw [place, List.map_cons, List.sum_cons, ih, List.flatMap_cons, List.length_append,
      length_entry]

theorem end_le_of_mem_place {offset : Nat} {parts : List (Nat × Bytes)} {s : Section}
    (h : s ∈ place offset parts) :
    s.offset + s.size ≤ offset + (parts.flatMap entry).length := by
  induction parts generalizing offset with
  | nil => cases h
  | cons part parts ih =>
    rw [List.flatMap_cons, List.length_append, length_entry]
    obtain rfl | later := List.mem_cons.1 h
    · dsimp only
      omega
    · have := ih later
      omega

/-- The bytes of a container are its header, its sections, and a tail. -/
structure Consists (c : Container) (tail : Bytes) : Prop where
  bytes_eq : c.bytes =
    header c.magic c.version c.contents.length ++ c.contents.flatMap entry ++ tail
  magic_length : c.magic.length = 4
  version_lt : c.version < Bytes.capacity 4
  count_lt : c.contents.length < Bytes.capacity 4
  fits : ∀ part ∈ c.contents, Fits part
  sections_eq : c.sections = place headerSize c.contents

/-- What is read is a container that consists of its sections and a tail. -/
theorem consists_of_parse {magic data : Bytes} {versions : List Int}
    (h : parse magic versions data = .ok c) :
    c.bytes = data ∧ c.magic = magic ∧ (c.version : Int) ∈ versions ∧ ∃ tail, c.Consists tail := by
  obtain ⟨version, parts, tail, name, rfl, hmagic, hversion, known, hcount, fits, -, rfl⟩ :=
    parse_eq_ok_iff.1 h
  have found := contents_eq hmagic name version parts tail
  refine ⟨rfl, rfl, known, tail, ?_, hmagic, hversion, ?_, ?_, ?_⟩ <;> rw [found]
  · exact hcount
  · exact fits

/-- A container that consists of given sections is read back. -/
theorem exists_parse {magic tail : Bytes} {versions : List Int} {version : Nat} {name : String}
    {parts : List (Nat × Bytes)} (hmagic : magic.length = 4)
    (hversion : version < Bytes.capacity 4) (known : (version : Int) ∈ versions)
    (hcount : parts.length < Bytes.capacity 4) (fits : ∀ part ∈ parts, Fits part)
    (named : nameOf magic = .ok name) :
    ∃ c, parse magic versions
        (header magic version parts.length ++ parts.flatMap entry ++ tail) = .ok c ∧
      c.contents = parts :=
  ⟨_, parse_eq_ok_iff.2 ⟨version, parts, tail, name, rfl, hmagic, hversion, known, hcount, fits,
    named, rfl⟩, contents_eq hmagic name version parts tail⟩

/-- Where the last section ends. -/
def endOffset (c : Container) : Nat :=
  headerSize + (c.sections.map fun s => entrySize + s.size).sum

theorem Consists.endOffset_eq {tail : Bytes} (h : c.Consists tail) :
    c.endOffset = headerSize + (c.contents.flatMap entry).length := by
  rw [endOffset, h.sections_eq, sum_place]

theorem Consists.length_bytes {tail : Bytes} (h : c.Consists tail) :
    c.bytes.length = c.endOffset + tail.length := by
  rw [h.bytes_eq, List.length_append, List.length_append, length_header h.magic_length,
    h.endOffset_eq]

/-- Every section stands inside the bytes of the container. -/
theorem Consists.end_le {tail : Bytes} (h : c.Consists tail) {s : Section} (hs : s ∈ c.sections) :
    s.offset + s.size ≤ c.bytes.length := by
  rw [h.sections_eq] at hs
  have bound := end_le_of_mem_place hs
  rw [h.length_bytes, h.endOffset_eq]
  omega

theorem mem_of_find {s : Section} (found : c.find id = .ok s) : s ∈ c.sections := by
  rw [find] at found
  split at found
  · rename_i s' first
    cases found
    exact List.mem_of_find?_eq_some first
  · cases found

/-- The first section with an id has a payload. -/
def Holds (c : Container) (id : Int) (payload : Bytes) : Prop :=
  ∃ s, c.find id = .ok s ∧ c.payload s = payload ∧ s.size = payload.length

theorem Holds.unique {payload' : Bytes} (h : c.Holds id payload) (h' : c.Holds id payload') :
    payload = payload' := by
  obtain ⟨s, found, rfl, -⟩ := h
  obtain ⟨s', found', rfl, -⟩ := h'
  cases found.symm.trans found'
  rfl

theorem Holds.size_eq (h : c.Holds id payload) {s : Section} (found : c.find id = .ok s) :
    s.size = payload.length := by
  obtain ⟨s', found', rfl, size⟩ := h
  cases found.symm.trans found'
  exact size

theorem Consists.size_eq {tail : Bytes} (h : c.Consists tail) {s : Section} (hs : s ∈ c.sections) :
    s.size = (c.payload s).length := by
  have sizes (offset : Nat) (parts : List (Nat × Bytes)) :
      (place offset parts).map (·.size) = parts.map (·.2.length) := by
    induction parts generalizing offset with
    | nil => rfl
    | cons part parts ih => rw [place, List.map_cons, List.map_cons, ih]
  have same : c.sections.map (·.size) = c.sections.map fun s => (c.payload s).length := by
    conv_lhs => rw [h.sections_eq, sizes, contents, List.map_map]
    rfl
  exact List.map_inj_left.1 same s hs

theorem Consists.holds_of_find {tail : Bytes} (h : c.Consists tail) {s : Section}
    (found : c.find id = .ok s) : c.Holds id (c.payload s) :=
  ⟨s, found, rfl, h.size_eq (mem_of_find found)⟩

theorem id_eq_of_find? {sections : List Section} {s : Section} {id : Nat}
    (h : sections.find? (fun s => (s.id : Int) = id) = some s) : s.id = id := by
  have found := List.find?_some h
  exact Int.ofNat_inj.1 (of_decide_eq_true found)

/-- Where no two sections share an id, every section is found. -/
theorem Consists.holds_of_mem {tail : Bytes} (h : c.Consists tail)
    (nodup : (c.contents.map Prod.fst).Nodup) {n : Nat} (mem : (n, payload) ∈ c.contents) :
    c.Holds n payload := by
  obtain ⟨s, hs, same⟩ := List.mem_map.1 mem
  obtain ⟨rfl, rfl⟩ := Prod.mk.inj same
  cases first : c.sections.find? fun t => (t.id : Int) = s.id with
  | none =>
    have absent := List.find?_eq_none.1 first s hs
    simp at absent
  | some t =>
    have id_eq : t.id = s.id := id_eq_of_find? first
    have distinct : (c.sections.map (·.id)).Nodup := by
      rw [contents, List.map_map] at nodup
      exact nodup
    obtain rfl := List.inj_on_of_nodup_map distinct (List.mem_of_find?_eq_some first) hs id_eq
    refine h.holds_of_find ?_
    rw [find, first]

/-- Looking up a key among pairs is finding the first element that has it. -/
theorem lookup_map_eq_find? {α κ β : Type} [DecidableEq κ] (key : α → κ) (f : α → β) (a : κ)
    (xs : List α) :
    (xs.map fun x => (key x, f x)).lookup a = (xs.find? fun x => key x = a).map f := by
  induction xs with
  | nil => rfl
  | cons x xs ih =>
    by_cases same : key x = a
    · subst same
      rw [List.map_cons, List.lookup_cons_self, List.find?_cons_of_pos (by simp)]
      rfl
    · have other : (a == key x) = false := beq_eq_false_iff_ne.2 (Ne.symm same)
      rw [List.map_cons, List.lookup_cons, other, ih, List.find?_cons_of_neg (by simpa using same)]

/-- The payload that is looked up is that of the first section with the id. -/
theorem lookup_contents (c : Container) (n : Nat) :
    c.contents.lookup n = (c.sections.find? fun s => (s.id : Int) = n).map c.payload := by
  rw [contents, lookup_map_eq_find?]
  simp only [Int.natCast_inj]

/-- The first section with an id is found by looking up its payload. -/
theorem Consists.holds_iff_lookup {tail : Bytes} (h : c.Consists tail) {n : Nat} :
    c.Holds n payload ↔ c.contents.lookup n = some payload := by
  rw [lookup_contents]
  constructor
  · rintro ⟨s, found, rfl, -⟩
    rw [find] at found
    split at found
    · rename_i s' here
      cases found
      rw [here]
      rfl
    · cases found
  · intro found
    obtain ⟨s, here, rfl⟩ := Option.map_eq_some_iff.1 found
    refine h.holds_of_find ?_
    rw [find, here]

end Contents

section Framed

variable {magic data tail tail' : Bytes} {version : Nat} {parts parts' : List (Nat × Bytes)}

/-- Bytes that are a header with the number of the sections, the sections one after another, and a
tail. -/
structure Framed (magic : Bytes) (version : Nat) (parts : List (Nat × Bytes)) (tail data : Bytes) :
    Prop where
  bytes_eq : data = header magic version parts.length ++ parts.flatMap entry ++ tail
  count_lt : parts.length < Bytes.capacity 4
  fits : ∀ part ∈ parts, Fits part

/-- What is framed is read as a container of the given sections. -/
theorem Framed.exists_parse (h : Framed magic version parts tail data) (hmagic : magic.length = 4)
    (hversion : version < Bytes.capacity 4) {name : String} (named : nameOf magic = .ok name) :
    ∃ c, parse magic [version] data = .ok c ∧ c.version = version ∧ c.contents = parts := by
  rw [h.bytes_eq]
  obtain ⟨c, read, same⟩ := Container.exists_parse hmagic hversion (List.mem_singleton_self _)
    h.count_lt h.fits named
  obtain ⟨-, -, known, -⟩ := consists_of_parse read
  exact ⟨c, read, Int.ofNat_inj.1 (List.mem_singleton.1 known), same⟩

/-- What is read as a container is framed. -/
theorem framed_of_parse {c : Container} (h : parse magic [version] data = .ok c) :
    ∃ tail, c.Consists tail ∧ c.version = version ∧ Framed magic version c.contents tail data := by
  obtain ⟨bytes_eq, magic_eq, known, tail, consists⟩ := consists_of_parse h
  have version_eq : c.version = version := Int.ofNat_inj.1 (List.mem_singleton.1 known)
  refine ⟨tail, consists, version_eq, ?_, consists.count_lt, consists.fits⟩
  rw [← bytes_eq, consists.bytes_eq, magic_eq, version_eq]

/-- Bytes are framed in one way only. -/
theorem Framed.unique (h : Framed magic version parts tail data)
    (h' : Framed magic version parts' tail' data) (hmagic : magic.length = 4)
    (hversion : version < Bytes.capacity 4) {name : String} (named : nameOf magic = .ok name) :
    parts = parts' ∧ tail = tail' := by
  obtain ⟨c, read, -, rfl⟩ := h.exists_parse hmagic hversion named
  obtain ⟨c', read', -, rfl⟩ := h'.exists_parse hmagic hversion named
  cases read.symm.trans read'
  exact ⟨rfl, List.append_cancel_left (h.bytes_eq.symm.trans h'.bytes_eq)⟩

end Framed

section Write

variable {magic : Bytes} {version : Nat} {parts : List (Nat × Bytes)}

theorem sectionBytes_eq {part : Nat × Bytes} (h : Fits part) :
    sectionBytes part.1 part.2 = .ok (entry part) := by
  rw [sectionBytes, Bytes.field?_of_lt h.1, Bytes.field?_of_lt h.2]
  rfl

theorem sectionBytes_eq_ok_iff {part : Nat × Bytes} {bs : Bytes} :
    sectionBytes part.1 part.2 = .ok bs ↔ Fits part ∧ bs = entry part := by
  constructor
  · intro h
    obtain ⟨_, id, h⟩ := Except.bind_eq_ok_iff.1 h
    obtain ⟨_, size, h⟩ := Except.bind_eq_ok_iff.1 h
    cases h
    obtain ⟨⟨-, id_lt⟩, rfl⟩ := Bytes.field?_eq_ok_iff.1 id
    obtain ⟨⟨-, size_lt⟩, rfl⟩ := Bytes.field?_eq_ok_iff.1 size
    exact ⟨⟨Int.ofNat_lt.1 id_lt, Int.ofNat_lt.1 size_lt⟩, rfl⟩
  · rintro ⟨fits, rfl⟩
    exact sectionBytes_eq fits

/-- What is written is the header and the sections. -/
theorem write_eq (hmagic : magic.length = 4) (hversion : version < Bytes.capacity 4)
    (hcount : parts.length < Bytes.capacity 4) (fits : ∀ part ∈ parts, Fits part) :
    write magic version (parts.map fun part => ((part.1 : Int), part.2)) =
      .ok (header magic version parts.length ++ parts.flatMap entry) := by
  have body : parts.mapM (fun part => sectionBytes part.1 part.2) = .ok (parts.map entry) :=
    Except.mapM_eq_ok fun part member => sectionBytes_eq (fits part member)
  rw [write, Bytes.field?_of_lt hversion, List.length_map, Bytes.field?_of_lt hcount,
    List.mapM_map]
  simp only [Function.comp_def, Except.ok_bind, Except.pure_eq_ok, body]
  rw [List.take_left' hmagic, List.flatMap_def, header]

/-- What is written is framed, without a tail. -/
theorem write_eq_ok_iff (hmagic : magic.length = 4) (hversion : version < Bytes.capacity 4)
    {data : Bytes} :
    write magic version (parts.map fun part => ((part.1 : Int), part.2)) = .ok data ↔
      Framed magic version parts [] data := by
  constructor
  · intro h
    obtain ⟨_, first, h⟩ := Except.bind_eq_ok_iff.1 h
    obtain ⟨_, count, h⟩ := Except.bind_eq_ok_iff.1 h
    obtain ⟨_, body, h⟩ := Except.bind_eq_ok_iff.1 h
    cases h
    obtain ⟨-, rfl⟩ := Bytes.field?_eq_ok_iff.1 first
    rw [List.length_map] at count
    obtain ⟨⟨-, count_lt⟩, rfl⟩ := Bytes.field?_eq_ok_iff.1 count
    rw [List.mapM_map] at body
    obtain ⟨fits, rfl⟩ := (Except.mapM_eq_ok_iff_map fun _ _ => sectionBytes_eq_ok_iff).1 body
    refine ⟨?_, Int.ofNat_lt.1 count_lt, fits⟩
    rw [List.take_left' hmagic, List.append_nil, List.flatMap_def, header, Int.toNat_natCast,
      Int.toNat_natCast]
  · intro framed
    rw [write_eq hmagic hversion framed.count_lt framed.fits, framed.bytes_eq, List.append_nil]

end Write

section Reading

variable {c : Container} {id : Int} {payload : Bytes} {α : Type} {item : Reading α}

theorem Consists.reader_eq_ok_iff {tail : Bytes} (h : c.Consists tail) {r : Reader} :
    c.reader id = .ok r ↔ ∃ s payload, c.find id = .ok s ∧ c.Holds id payload ∧
      r = .ofPayload s payload := by
  rw [reader, Except.bind_eq_ok_iff]
  constructor
  · rintro ⟨s, found, same⟩
    cases same
    exact ⟨s, c.payload s, found, h.holds_of_find found, rfl⟩
  · rintro ⟨s, _, found, ⟨s', found', rfl, -⟩, rfl⟩
    cases found.symm.trans found'
    exact ⟨s, found, rfl⟩

/-- A section is read from its start, and need not be read to its end. -/
theorem Consists.readSection_eq_ok_iff {tail : Bytes} (h : c.Consists tail)
    {stands : Bytes → α → Prop} (means : item.Means stands) {x : α} :
    c.readSection id item = .ok x ↔ ∃ bs rest, c.Holds id (bs ++ rest) ∧ stands bs x := by
  rw [readSection, Except.bind_eq_ok_iff]
  constructor
  · rintro ⟨r, opened, read⟩
    obtain ⟨s, payload, -, holds, rfl⟩ := h.reader_eq_ok_iff.1 opened
    obtain ⟨⟨y, r⟩, read, same⟩ := Except.bind_eq_ok_iff.1 read
    obtain ⟨bs, rest, rfl, stands, -⟩ := (means _ _ _ _).1 read
    cases same
    exact ⟨bs, rest, holds, stands⟩
  · rintro ⟨bs, rest, holds, stands⟩
    have ⟨s, found, _⟩ := holds
    refine ⟨_, h.reader_eq_ok_iff.2 ⟨s, _, found, holds, rfl⟩, ?_⟩
    exact Except.bind_eq_ok_iff.2
      ⟨(x, .ofPayload s rest), (means _ _ _ _).2 ⟨bs, rest, rfl, stands, rfl⟩, rfl⟩

/-- A section is read as a whole. -/
theorem Consists.readSection_whole_iff {tail : Bytes} (h : c.Consists tail)
    {stands : Bytes → α → Prop} (means : item.MeansWhole stands) {x : α} :
    c.readSection id item = .ok x ↔ ∃ payload, c.Holds id payload ∧ stands payload x := by
  rw [readSection, Except.bind_eq_ok_iff]
  constructor
  · rintro ⟨r, opened, returned⟩
    obtain ⟨s, payload, found, holds, rfl⟩ := h.reader_eq_ok_iff.1 opened
    obtain ⟨⟨y, r⟩, read, same⟩ := Except.bind_eq_ok_iff.1 returned
    cases same
    exact ⟨payload, holds, (means s payload y (holds.size_eq found)).1 ⟨r, read⟩⟩
  · rintro ⟨payload, holds, stands⟩
    have ⟨s, found, _⟩ := holds
    obtain ⟨r, read⟩ := (means s payload x (holds.size_eq found)).2 stands
    exact ⟨_, h.reader_eq_ok_iff.2 ⟨s, _, found, holds, rfl⟩,
      Except.bind_eq_ok_iff.2 ⟨(x, r), read, rfl⟩⟩

variable {sort : Failure → Prop}

theorem find_failsIn (framing : ∀ e, sort (.framing e)) : Except.FailsIn sort (c.find id) := by
  rw [find]
  split
  · exact .ok _
  · exact .error (framing _)

theorem reader_failsIn (framing : ∀ e, sort (.framing e)) : Except.FailsIn sort (c.reader id) :=
  (find_failsIn framing).bind fun _ _ => .ok _

theorem readSection_failsIn (framing : ∀ e, sort (.framing e)) (fails : item.FailsIn sort) :
    Except.FailsIn sort (c.readSection id item) :=
  (reader_failsIn framing).bind fun r _ => (fails r).bind fun _ _ => .ok _

end Reading

end Snark.Container
