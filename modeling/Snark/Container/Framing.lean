import Snark.Container.Reader
import Snark.Text.Utf8

/-!
# Sectioned containers

A container is a magic of four bytes, a version, the number of its sections, and the sections one
after another, each with its id and its length in front. `Container.parse` walks over all sections
before any of them is read, so bytes that end inside a section are refused at once; bytes after
the last section are allowed. Several sections may share an id, and readers take the first.
-/

namespace Snark

/-- The framing of a container that has been read. -/
structure Container where
  bytes : Bytes
  magic : Bytes
  /-- The magic as text. -/
  name : String
  version : Nat
  /-- The sections in the order of the file. -/
  sections : List Section
  deriving DecidableEq, Repr

namespace Container

/-- The length of the magic, the version and the number of sections. -/
def headerSize : Nat := 12

/-- The length of the id and the length in front of a section. -/
def entrySize : Nat := 12

/-- The sections in the bytes `rest`, which stand at `offset`; `left` of the `count` sections are
still to come. -/
def scan (count : Nat) : (left offset : Nat) → (rest : Bytes) → Result (List Section)
  | 0, _, _ => .ok []
  | left + 1, offset, rest =>
    if rest.length < entrySize then
      .error (.framing (.shortEntry (count - (left + 1)) count offset))
    else
      let id := Bytes.toNat (rest.take 4)
      let size := Bytes.toNat ((rest.drop 4).take 8)
      let payload := rest.drop entrySize
      if payload.length < size then
        .error (.framing (.shortSection id size payload.length))
      else
        match scan count left (offset + entrySize + size) (payload.drop size) with
        | .error e => .error e
        | .ok later => .ok (⟨id, offset + entrySize, size⟩ :: later)

/-- A magic as text. -/
def nameOf (magic : Bytes) : Result String :=
  match Text.Utf8.decode? magic with
  | some cs => .ok (String.ofList cs)
  | none => .error (.fault .notUtf8)

/-- Reads the framing of a container with the given magic and one of the given versions. -/
def parse (magic : Bytes) (versions : List Int) (bytes : Bytes) : Result Container := do
  if bytes.length < headerSize then
    throw (.framing (.shortHeader bytes.length))
  let found := bytes.take 4
  let version := Bytes.toNat ((bytes.drop 4).take 4)
  let count := Bytes.toNat ((bytes.drop 8).take 4)
  if found ≠ magic then
    throw (.framing (.magic found magic))
  if !versions.contains (version : Int) then
    throw (.framing (.version (← nameOf magic) version))
  let sections ← scan count count headerSize (bytes.drop headerSize)
  return { bytes, magic, name := ← nameOf magic, version, sections }

/-- Whether there is a section with this id. -/
def has (c : Container) (id : Int) : Bool := c.sections.any fun s => (s.id : Int) = id

/-- The first section with this id. -/
def find (c : Container) (id : Int) : Result Section :=
  match c.sections.find? fun s => (s.id : Int) = id with
  | some s => .ok s
  | none => .error (.framing (.missingSection id c.name))

/-- The sections with this id. -/
def all (c : Container) (id : Nat) : List Section := c.sections.filter (·.id = id)

/-- The ids of the sections, each once and in increasing order. -/
def ids (c : Container) : List Nat := ((c.sections.map (·.id)).mergeSort (· ≤ ·)).eraseReps

/-- The bytes of a section. -/
def payload (c : Container) (s : Section) : Bytes := (c.bytes.drop s.offset).take s.size

/-- A reader at the start of the first section with this id. -/
def reader (c : Container) (id : Int) : Result Reader := do
  let s ← c.find id
  return .ofPayload s (c.payload s)

/-- Reads the first section with this id. -/
def readSection {α : Type} (c : Container) (id : Int) (item : Reading α) : Result α := do
  let r ← c.reader id
  return (← item.run r).1

/-- The bytes of one section, with its id and its length in front. -/
def sectionBytes (id : Int) (payload : Bytes) : Except Fault Bytes := do
  return (← Bytes.field? 4 id) ++ (← Bytes.field? 8 payload.length) ++ payload

/-- The bytes of a container with the given sections. A magic that is not four bytes long is cut
or filled with zeros. -/
def write (magic : Bytes) (version : Int) (sections : List (Int × Bytes)) :
    Except Fault Bytes := do
  let header := (magic ++ List.replicate 4 0).take 4
  let version ← Bytes.field? 4 version
  let count ← Bytes.field? 4 sections.length
  let body ← sections.mapM fun (id, payload) => sectionBytes id payload
  return header ++ version ++ count ++ body.flatten

end Container

end Snark
