import Snark.Proofs.Container.Framing
import Snark.Proofs.Failure

/-!
# Sessions with a reader

A reader is asked for bytes, for numbers and for its end, in any order. A call that fails leaves the
reader where it is, and the caller may go on with it. What the calls of a session have returned is
always a prefix of the section, and the reader stands right behind it.
-/

namespace Snark.Reader

/-- What a reader is asked for. -/
inductive Request
  | read (n : Int)
  | word
  | wideWord
  | expectEnd
  deriving DecidableEq, Repr

/-- What a call returns. -/
inductive Answer
  | bytes (bs : Bytes)
  | number (width n : Nat)
  | nothing
  deriving DecidableEq, Repr

/-- The bytes of the section that an answer stands for. -/
def Answer.spelled : Answer → Bytes
  | .bytes bs => bs
  | .number width n => Bytes.ofNat width n
  | .nothing => []

namespace Request

/-- The computation that answers a request. -/
def reading : Request → Reading Answer
  | .read n => do return .bytes (← (Reader.read n : Reading Bytes))
  | .word => do return .number 4 (← Reading.word)
  | .wideWord => do return .number 8 (← Reading.wideWord)
  | .expectEnd => do
    Reading.atEnd
    return .nothing

/-- How many bytes are asked for. -/
def wanted : Request → Int
  | .read n => n
  | .word => 4
  | .wideWord => 8
  | .expectEnd => 0

/-- The answer that some bytes amount to. -/
def answer : Request → Bytes → Answer
  | .read _, bs => .bytes bs
  | .word, bs => .number 4 bs.toNat
  | .wideWord, bs => .number 8 bs.toNat
  | .expectEnd, _ => .nothing

/-- The request cannot be met: for bytes if there are fewer of them, or if their number is negative,
and for the end if there are any bytes before it. -/
def Refused (r : Reader) : Request → Prop
  | .read n => n < 0 ∨ (r.remaining : Int) < n
  | .word => r.remaining < 4
  | .wideWord => r.remaining < 8
  | .expectEnd => 0 < r.remaining

/-- What is reported of a request that cannot be met. -/
def failure (r : Reader) : Request → Failure
  | .read n => .framing (.exhausted r.source.id r.position n)
  | .word => .framing (.exhausted r.source.id r.position 4)
  | .wideWord => .framing (.exhausted r.source.id r.position 8)
  | .expectEnd => .framing (.trailing r.source.id r.remaining)

/-- Bytes are asked for as they are, or for the number that they spell. -/
theorem run_reading {q : Request} (h : q ≠ .expectEnd) (r : Reader) :
    q.reading.run r = (r.read q.wanted).map fun (bs, r') => (q.answer bs, r') := by
  cases q with
  | read n =>
    change (r.read n >>= _) = (r.read n).map _
    cases r.read n <;> rfl
  | word =>
    change ((r.read 4 >>= _) >>= _) = (r.read 4).map _
    cases r.read 4 <;> rfl
  | wideWord =>
    change ((r.read 8 >>= _) >>= _) = (r.read 8).map _
    cases r.read 8 <;> rfl
  | expectEnd => exact absurd rfl h

end Request

variable {r : Reader} {q : Request}

/-- Makes a call. A call that fails leaves the reader as it is. -/
def serve (r : Reader) (q : Request) : Result Answer × Reader :=
  match q.reading.run r with
  | .ok (a, r') => (.ok a, r')
  | .error e => (.error e, r)

/-- Makes some calls, one after another. -/
def session (r : Reader) : List Request → List (Result Answer) × Reader
  | [] => ([], r)
  | q :: qs =>
    ((r.serve q).1 :: ((r.serve q).2.session qs).1, ((r.serve q).2.session qs).2)

/-- All bytes that have been returned, in the order of the calls. -/
def returned (outcomes : List (Result Answer)) : Bytes :=
  outcomes.flatMap fun
    | .ok a => a.spelled
    | .error _ => []

/-- Bytes are refused exactly if there are too few of them. -/
theorem Request.refused_iff (h : q ≠ .expectEnd) :
    q.Refused r ↔ q.wanted < 0 ∨ (r.remaining : Int) < q.wanted := by
  cases q with
  | read n => exact .rfl
  | word => simp only [Refused, wanted]; omega
  | wideWord => simp only [Refused, wanted]; omega
  | expectEnd => exact absurd rfl h

/-- A call that is refused fails. -/
theorem serve_of_refused (h : q.Refused r) : r.serve q = (.error (q.failure r), r) := by
  by_cases bytes : q = .expectEnd
  · subst bytes
    have left : ¬ r.remaining = 0 := Nat.pos_iff_ne_zero.1 h
    have ended : Request.expectEnd.reading.run r =
        .error (.framing (.trailing r.source.id r.remaining)) := by
      change (Reading.atEnd.run r >>= _) = _
      rw [Reading.run_atEnd, if_neg left]
      rfl
    rw [serve, ended]
    rfl
  · have read := q.run_reading bytes r
    rw [read_of_refused ((Request.refused_iff bytes).1 h)] at read
    rw [serve, read]
    cases q with
    | expectEnd => exact absurd rfl bytes
    | _ => rfl

/-- Any other call succeeds: it returns the next bytes, as many as are asked for, and the reader
goes behind them. -/
theorem serve_of_granted (h : ¬ q.Refused r) :
    r.serve q = (.ok (q.answer (r.rest.take q.wanted.toNat)), r.skip q.wanted.toNat) := by
  by_cases bytes : q = .expectEnd
  · subst bytes
    have none : r.remaining = 0 := Nat.eq_zero_of_not_pos h
    have ended : Request.expectEnd.reading.run r = .ok (.nothing, r) := by
      change (Reading.atEnd.run r >>= _) = _
      rw [Reading.run_atEnd, if_pos none]
      rfl
    rw [serve, ended]
    rfl
  · have read := q.run_reading bytes r
    rw [read_of_granted (mt (Request.refused_iff bytes).2 h)] at read
    rw [serve, read]
    rfl

/-- As many bytes as a granted call asks for are there. -/
theorem wanted_le_of_granted (h : ¬ q.Refused r) : q.wanted.toNat ≤ r.remaining := by
  cases q <;> simp only [Request.Refused, Request.wanted] at h ⊢ <;> omega

theorem length_take_of_granted (h : ¬ q.Refused r) :
    (r.rest.take q.wanted.toNat).length = q.wanted.toNat := by
  refine List.length_take_of_le ?_
  rw [r.length_rest]
  exact wanted_le_of_granted h

/-- The answer to a request stands for the bytes it has been made of. -/
theorem spelled_answer {bs : Bytes} (width : bs.length = q.wanted.toNat) :
    (q.answer bs).spelled = bs := by
  cases q with
  | read n => rfl
  | word => exact Bytes.ofNat_toNat_of_length width
  | wideWord => exact Bytes.ofNat_toNat_of_length width
  | expectEnd => exact (List.eq_nil_of_length_eq_zero width).symm

/-- A reader of a section with the given payload, of which the bytes `taken` have been returned. -/
structure Reached (source : Section) (payload taken : Bytes) (r : Reader) : Prop where
  source_eq : r.source = source
  size_eq : source.size = payload.length
  payload_eq : payload = taken ++ r.rest

namespace Reached

variable {source : Section} {payload taken : Bytes} (reached : r.Reached source payload taken)
include reached

theorem length_payload : payload.length = taken.length + r.remaining := by
  rw [reached.payload_eq, List.length_append, r.length_rest]

theorem position_eq : r.position = source.offset + taken.length := by
  have size := reached.size_eq
  have length := reached.length_payload
  rw [position, reached.source_eq]
  omega

/-- A call returns what comes next, and the reader is behind it. -/
theorem serve (q : Request) :
    (r.serve q).2.Reached source payload (taken ++ returned [(r.serve q).1]) := by
  by_cases refused : q.Refused r
  · rw [serve_of_refused refused]
    change r.Reached source payload (taken ++ [])
    rwa [List.append_nil]
  · have spelled := spelled_answer (length_take_of_granted refused)
    rw [serve_of_granted refused]
    refine ⟨reached.source_eq, reached.size_eq, ?_⟩
    rw [returned, List.flatMap_singleton]
    dsimp only
    rw [spelled, skip, List.append_assoc, List.take_append_drop]
    exact reached.payload_eq

/-- The same holds of any calls, by induction on their list: every call starts behind what the ones
before it have returned. -/
theorem session (qs : List Request) :
    (r.session qs).2.Reached source payload (taken ++ returned (r.session qs).1) := by
  induction qs generalizing r taken with
  | nil =>
    change r.Reached source payload (taken ++ [])
    rwa [List.append_nil]
  | cons q qs ih =>
    have later := ih (reached.serve q)
    rwa [List.append_assoc, returned, returned, ← List.flatMap_append, List.singleton_append]
      at later

end Reached

end Snark.Reader
