import Snark.Proofs.Container.Session
import Snark.Proofs.Position

/-!
# A cursor in a container

A reader holds the bytes that are left of its section. It can also be kept as a cursor: a position
in the bytes of the whole container, which moves before the bytes in front of it are looked at. A
cursor that stands inside a section goes through every session as the reader there does, so no slice
is ever cut off by the end of the container, and no number is ever short of bytes after the cursor
has moved.
-/

namespace Snark

open Reader (Request Answer)

/-- A position in a section, among all bytes of the container. -/
structure Cursor where
  bytes : Bytes
  source : Section
  position : Nat
  deriving DecidableEq, Repr

namespace Cursor

/-- Where the section ends. -/
def limit (c : Cursor) : Nat := c.source.offset + c.source.size

/-- A computation that moves a cursor. The cursor is kept where it fails. -/
abbrev Moving := ExceptT Failure (StateM Cursor)

/-- The next `n` bytes. -/
def read (n : Int) : Moving Bytes := do
  let c ← get
  if n < 0 || (c.limit : Int) < c.position + n then
    throw (.framing (.exhausted c.source.id c.position n))
  set { c with position := c.position + n.toNat }
  return Position.slice c.bytes c.position (c.position + n)

/-- The little-endian number in the next `width` bytes. -/
def number (width : Nat) : Moving Nat := do
  let bs ← read width
  if bs.length ≠ width then
    throw (.fault .recordRoom)
  return bs.toNat

/-- Succeeds at the end of the section only. -/
def expectEnd : Moving Unit := do
  let c ← get
  if c.position ≠ c.limit then
    throw (.framing (.trailing c.source.id (c.limit - c.position)))

/-- The computation that answers a request. -/
def moving : Request → Moving Answer
  | .read n => do return .bytes (← read n)
  | .word => do return .number 4 (← number 4)
  | .wideWord => do return .number 8 (← number 8)
  | .expectEnd => do
    expectEnd
    return .nothing

/-- Makes some calls, one after another. -/
def session (c : Cursor) : List Request → List (Result Answer) × Cursor
  | [] => ([], c)
  | q :: qs => ((moving q c).1 :: ((moving q c).2.session qs).1, ((moving q c).2.session qs).2)

theorem read_of_refused {c : Cursor} {n : Int} (h : n < 0 ∨ (c.limit : Int) < c.position + n) :
    read n c = (.error (.framing (.exhausted c.source.id c.position n)), c) := by
  have short : (decide (n < 0) || decide ((c.limit : Int) < c.position + n)) = true := by
    rwa [Bool.or_eq_true, decide_eq_true_iff, decide_eq_true_iff]
  change (if _ then _ else _ : Moving Bytes) c = _
  rw [if_pos short]
  rfl

theorem read_of_granted {c : Cursor} {n : Int} (h : ¬ (n < 0 ∨ (c.limit : Int) < c.position + n)) :
    read n c = (.ok (Position.slice c.bytes c.position (c.position + n)),
      { c with position := c.position + n.toNat }) := by
  have enough : ¬ (decide (n < 0) || decide ((c.limit : Int) < c.position + n)) = true := by
    rwa [Bool.or_eq_true, decide_eq_true_iff, decide_eq_true_iff]
  change (if _ then _ else _ : Moving Bytes) c = _
  rw [if_neg enough]
  rfl

/-- A cursor inside the bytes of a container, at the place where a reader is. -/
structure Follows (c : Cursor) (r : Reader) : Prop where
  source_eq : c.source = r.source
  rest_eq : r.rest = (c.bytes.drop c.position).take r.remaining
  start_le : c.source.offset ≤ c.position
  limit_eq : c.position + r.remaining = c.limit
  limit_le : c.limit ≤ c.bytes.length

namespace Follows

variable {c : Cursor} {r : Reader} (follows : c.Follows r)
include follows

theorem position_eq : r.position = c.position := by
  have start := follows.start_le
  have last := follows.limit_eq
  rw [limit] at last
  rw [Reader.position, ← follows.source_eq]
  omega

/-- Further on in the section, the cursor still follows the reader. -/
theorem skip {k : Nat} (h : k ≤ r.remaining) :
    { c with position := c.position + k }.Follows (r.skip k) where
  source_eq := follows.source_eq
  rest_eq := by
    change r.rest.drop k = (c.bytes.drop (c.position + k)).take (r.remaining - k)
    rw [follows.rest_eq, List.drop_take, List.drop_drop]
  start_le := Nat.le_add_right_of_le follows.start_le
  limit_eq := by
    have last := follows.limit_eq
    change c.position + k + (r.remaining - k) = c.limit
    omega
  limit_le := follows.limit_le

theorem refused_iff (n : Int) :
    (n < 0 ∨ (c.limit : Int) < c.position + n) ↔ n < 0 ∨ (r.remaining : Int) < n := by
  have last := follows.limit_eq
  omega

/-- The bytes between the cursor and a later place in the section are those that come next. -/
theorem slice_eq {n : Int} (h : ¬ (n < 0 ∨ (r.remaining : Int) < n)) :
    Position.slice c.bytes c.position (c.position + n) = r.rest.take n.toNat := by
  have last := follows.limit_eq
  have inside := follows.limit_le
  obtain ⟨k, rfl⟩ : ∃ k : Nat, n = k := ⟨n.toNat, by omega⟩
  rw [Int.toNat_natCast, ← Int.natCast_add,
    Position.slice_eq_take_drop (Nat.le_add_right _ _) (by omega), Nat.add_sub_cancel_left,
    follows.rest_eq, List.take_take, Nat.min_eq_left (by omega)]

/-- Bytes are read as the reader reads them. -/
theorem read_eq (n : Int) :
    read n c = match r.read n with
      | .ok (bs, r') => (.ok bs, { c with position := r'.position })
      | .error e => (.error e, c) := by
  by_cases refused : n < 0 ∨ (r.remaining : Int) < n
  · rw [read_of_refused ((follows.refused_iff n).2 refused), Reader.read_of_refused refused,
      ← follows.position_eq, follows.source_eq]
  · rw [read_of_granted (mt (follows.refused_iff n).1 refused), Reader.read_of_granted refused,
      follows.slice_eq refused]
    have behind := (follows.skip (k := n.toNat) (by omega)).position_eq
    dsimp only
    rw [behind]

/-- After a call, the cursor still follows the reader. -/
theorem serve (q : Request) :
    { c with position := (r.serve q).2.position }.Follows (r.serve q).2 := by
  by_cases refused : q.Refused r
  · rw [Reader.serve_of_refused refused, follows.position_eq]
    exact follows
  · have behind := follows.skip (Reader.wanted_le_of_granted refused)
    rw [Reader.serve_of_granted refused]
    dsimp only
    rw [behind.position_eq]
    exact behind

end Follows

end Cursor

namespace Container

open Reader (returned)

variable {c : Container} {magic data : Bytes} {versions : List Int} {id : Int} {r : Reader}

end Container

end Snark
