import Snark.Proofs.Sandbox.Slots

/-!
# Scratch space

The host takes scratch space for words and for field elements by moving the cursor up, and writes to
the space that it has taken; a session is any interleaving of the two. The pieces follow on one
another behind the cursor word, which lies in the same memory. A write to one piece therefore shows
neither in another one nor in the cursor, and each piece holds what was last written to it.
-/

namespace Snark

/-- What a piece of scratch space is taken for. -/
inductive Scratch.Kind
  | word
  | element
  deriving DecidableEq

/-- A piece of scratch space. -/
structure Scratch where
  kind : Scratch.Kind
  address : Nat
  deriving DecidableEq

namespace Scratch

/-- How many bytes are taken. -/
def Kind.size (codec : Slot.Codec) : Kind → Nat
  | word => 8
  | element => codec.size

/-- What is left of a number that is written. -/
def Kind.residue (codec : Slot.Codec) (n : Int) : Kind → Int
  | word => n % 2 ^ 32
  | element => n % codec.prime

/-- Where a piece ends. -/
def stop (codec : Slot.Codec) (p : Scratch) : Nat := p.address + p.kind.size codec

/-- A piece covers the bytes that it is made of. -/
def Covers (codec : Slot.Codec) (p : Scratch) (i : Nat) : Prop := p.address ≤ i ∧ i < p.stop codec

/-- What the host does in a session: it takes space, or writes to the piece with the given number,
counted in the order in which the pieces are taken. -/
inductive Step
  | take (kind : Kind)
  | write (index : Nat) (n : Int)
  deriving DecidableEq

/-- The kind of the space that a step takes. -/
def Step.asked? : Step → Option Kind
  | take kind => some kind
  | write _ _ => none

/-- The number that a step writes to the piece with the given number. -/
def Step.written? (index : Nat) : Step → Option Int
  | take _ => none
  | write i n => if i = index then some n else none

/-- The kinds of the pieces that are taken. -/
def asked (steps : List Step) : List Kind := steps.filterMap Step.asked?

/-- How many bytes are taken in all. -/
def space (codec : Slot.Codec) (steps : List Step) : Nat :=
  ((asked steps).map (Kind.size codec)).sum

/-- What is written to a piece last. -/
def lastWritten (index : Nat) (steps : List Step) : Option Int :=
  steps.reverse.findSome? (Step.written? index)

/-- The host writes only to pieces that it has taken. -/
inductive Legal : List Step → Prop
  | nil : Legal []
  | take {steps : List Step} (kind : Kind) : Legal steps → Legal (steps ++ [.take kind])
  | write {steps : List Step} {index : Nat} (n : Int) :
      Legal steps → index < (asked steps).length → Legal (steps ++ [.write index n])

section Session

variable {σ : Type} (s : Slots σ)

/-- Takes a piece of scratch space. -/
def take : Kind → Run σ Nat
  | .word => s.allocateWord
  | .element => s.allocateSlot

/-- Writes to a piece in the way that its kind asks for. -/
def write (p : Scratch) (n : Int) : Run σ Unit :=
  match p.kind with
  | .word => s.writeWord p.address n
  | .element => s.writeSlot p.address n

/-- Reads from a piece in the way that its kind asks for. -/
def read (p : Scratch) : Run σ Int :=
  match p.kind with
  | .word => do return (← s.readWord p.address : Nat)
  | .element => s.readSlot p.address

/-- One step, after which there are these pieces. -/
def perform (taken : List Scratch) : Step → Run σ (List Scratch)
  | .take kind => do return taken ++ [⟨kind, ← take s kind⟩]
  | .write index n =>
    match taken[index]? with
    | some p => do
      write s p n
      return taken
    | none => return taken

/-- All steps in turn. The outcome is the pieces that have been taken. -/
def session (steps : List Step) : Run σ (List Scratch) := steps.foldlM (perform s) []

/-- What holds after some steps that began with the given contents and with the cursor at `c`. -/
structure Kept (contents : σ → Bytes) (start : Bytes) (c : Nat) (steps : List Step)
    (taken : List Scratch) (m : Machine σ) : Prop where
  /-- What has been asked for has been taken. -/
  kinds_eq : taken.map kind = asked steps
  /-- The cursor has moved by all that has been taken. -/
  cursor_eq : (s.cursor m).1 = .ok (c + space s.codec steps)
  /-- The pieces lie between where the cursor was and where it is. -/
  placed : ∀ p ∈ taken, c ≤ p.address ∧ p.stop s.codec ≤ c + space s.codec steps
  /-- Each piece ends before the next ones begin. -/
  apart : taken.Pairwise fun p q => p.stop s.codec ≤ q.address
  /-- A piece that has been written to holds what was written last. -/
  holds : ∀ index v, lastWritten index steps = some v → ∃ p, taken[index]? = some p ∧
    read s p m = (.ok (p.kind.residue s.codec v), m)
  size_eq : (contents m.program).length = start.length
  /-- Nothing has changed but the cursor word and the pieces that have been written to. -/
  frame : ∀ i, 4 ≤ i →
    (∀ index p v, taken[index]? = some p → lastWritten index steps = some v →
      ¬ p.Covers s.codec i) →
    (contents m.program)[i]? = start[i]?

end Session

@[simp] theorem asked_take (steps : List Step) (kind : Kind) :
    asked (steps ++ [.take kind]) = asked steps ++ [kind] := by
  rw [asked, List.filterMap_append]
  rfl

@[simp] theorem asked_write (steps : List Step) (index : Nat) (n : Int) :
    asked (steps ++ [.write index n]) = asked steps := by
  rw [asked, List.filterMap_append]
  exact List.append_nil _

@[simp] theorem space_take (codec : Slot.Codec) (steps : List Step) (kind : Kind) :
    space codec (steps ++ [.take kind]) = space codec steps + kind.size codec := by
  rw [space, asked_take, List.map_append, List.sum_append, List.map_singleton, List.sum_singleton]
  rfl

@[simp] theorem space_write (codec : Slot.Codec) (steps : List Step) (index : Nat) (n : Int) :
    space codec (steps ++ [.write index n]) = space codec steps := by
  rw [space, asked_write, space]

@[simp] theorem lastWritten_take (index : Nat) (steps : List Step) (kind : Kind) :
    lastWritten index (steps ++ [.take kind]) = lastWritten index steps := by
  rw [lastWritten, List.reverse_concat, List.findSome?_cons]
  rfl

@[simp] theorem lastWritten_write (index i : Nat) (steps : List Step) (n : Int) :
    lastWritten index (steps ++ [.write i n]) =
      if i = index then some n else lastWritten index steps := by
  rw [lastWritten, List.reverse_concat, List.findSome?_cons, Step.written?]
  split_ifs <;> rfl

theorem session_concat {σ : Type} {s : Slots σ} {m mid n : Machine σ} {steps : List Step}
    {step : Step} {taken taken' : List Scratch} (run : session s steps m = (.ok taken, mid))
    (next : perform s taken step mid = (.ok taken', n)) :
    session s (steps ++ [step]) m = (.ok taken', n) := by
  rw [session, List.foldlM_append]
  refine Run.bind_eq_ok_iff.2 ⟨taken, mid, run, ?_⟩
  rw [List.foldlM_cons]
  exact Run.bind_eq_ok_iff.2 ⟨taken', n, next, rfl⟩

theorem Kind.four_le_size (codec : Slot.Codec) (kind : Kind) : 4 ≤ kind.size codec := by
  cases kind with
  | word => exact (by decide : 4 ≤ 8)
  | element =>
    rw [size, Slot.Codec.size]
    omega

section Kept

variable {σ : Type} {s : Slots σ} {contents : σ → Bytes} {m : Machine σ} {start : Bytes} {c : Nat}
variable {steps : List Step} {taken : List Scratch}

theorem Kept.nil (cursor : (s.cursor m).1 = .ok c) :
    Kept s contents (contents m.program) c [] [] m where
  kinds_eq := rfl
  cursor_eq := cursor
  placed _ member := absurd member List.not_mem_nil
  apart := List.Pairwise.nil
  holds _ _ last := absurd last.symm (Option.some_ne_none _)
  size_eq := rfl
  frame _ _ _ := rfl

/-- Two pieces with different numbers have no byte in common. -/
theorem Kept.apart_of_ne (kept : Kept s contents start c steps taken m) {i j : Nat}
    {p q : Scratch} (first : taken[i]? = some p) (second : taken[j]? = some q) (different : i ≠ j) :
    p.stop s.codec ≤ q.address ∨ q.stop s.codec ≤ p.address := by
  obtain ⟨boundᵢ, rfl⟩ := List.getElem?_eq_some_iff.1 first
  obtain ⟨boundⱼ, rfl⟩ := List.getElem?_eq_some_iff.1 second
  have ordered := List.pairwise_iff_getElem.1 kept.apart
  obtain before | behind := Nat.lt_or_gt_of_ne different
  · exact .inl (ordered i j boundᵢ boundⱼ before)
  · exact .inr (ordered j i boundⱼ boundᵢ behind)

end Kept

section Access

variable {σ : Type} {s : Slots σ} {contents : σ → Bytes} (acts : s.memory.ActsOn contents)
variable {m n : Machine σ} {p : Scratch}
include acts

theorem cursor_run {c : Nat} (cursor : (s.cursor m).1 = .ok c) : s.cursor m = (.ok c, m) := by
  obtain ⟨room, value⟩ := (Slots.cursor_eq_ok_iff acts).1 cursor
  rw [Slots.cursor_eq acts room, value]

/-- What does not reach down to the cursor word leaves the cursor where it is. -/
theorem cursor_congr {start stop c : Nat} (above : 4 ≤ start)
    (same : Bytes.SameOutside start stop (contents m.program) (contents n.program))
    (cursor : (s.cursor m).1 = .ok c) : (s.cursor n).1 = .ok c := by
  rw [Slots.cursor_eq_ok_iff acts] at cursor ⊢
  have first : ((contents n.program).drop 0).take 4 = ((contents m.program).drop 0).take 4 :=
    same.take_drop_eq (.inl (by omega))
  rw [List.drop_zero, List.drop_zero] at first
  rwa [same.length_eq, first]

/-- What is taken begins at the cursor, and nothing but the cursor word changes. -/
theorem take_spec {c : Nat} (cursor : (s.cursor m).1 = .ok c) (kind : Kind)
    (small : c + kind.size s.codec < 2 ^ 32) :
    ∃ n, take s kind m = (.ok c, n) ∧ (s.cursor n).1 = .ok (c + kind.size s.codec) ∧
      Bytes.SameOutside 0 4 (contents m.program) (contents n.program) := by
  have room := ((Slots.cursor_eq_ok_iff acts).1 cursor).1
  have allocates : take s kind = s.allocate (kind.size s.codec) := by
    cases kind <;> rfl
  obtain ⟨n, moved, back, same⟩ := Slots.writeWord_spec acts 0 (c + kind.size s.codec : Nat)
    (by rwa [Nat.zero_add])
  have word : (((c + kind.size s.codec : Nat) : Int) % 2 ^ 32).toNat = c + kind.size s.codec := by
    omega
  rw [word] at back
  refine ⟨n, ?_, congrArg Prod.fst back, same⟩
  rw [allocates, Slots.allocate]
  refine Run.bind_eq_ok_iff.2 ⟨c, m, cursor_run acts cursor, ?_⟩
  exact Run.bind_eq_ok_iff.2 ⟨(), n, moved, rfl⟩

/-- A piece reads the same in two memories that differ outside of it. -/
theorem read_congr {start stop : Nat} {v : Int}
    (same : Bytes.SameOutside start stop (contents m.program) (contents n.program))
    (apart : p.stop s.codec ≤ start ∨ stop ≤ p.address)
    (inside : p.stop s.codec ≤ (contents m.program).length)
    (held : read s p m = (.ok v, m)) : read s p n = (.ok v, n) := by
  obtain ⟨kind, address⟩ := p
  have inside' : Scratch.stop s.codec ⟨kind, address⟩ ≤ (contents n.program).length := by
    rwa [same.length_eq]
  have four := kind.four_le_size s.codec
  dsimp only [Scratch.stop] at apart inside inside'
  cases kind with
  | word =>
    rw [read] at held ⊢
    dsimp only at held ⊢
    rw [Run.bind_apply, Slots.readWord_eq acts address (by omega)] at held ⊢
    rw [same.take_drop_eq (by omega)]
    cases held
    rfl
  | element =>
    rw [Kind.size] at apart inside inside'
    rw [read] at held ⊢
    dsimp only at held ⊢
    rw [Slots.readSlot, Run.bind_apply, acts.read_eq (by assumption)] at held ⊢
    rw [same.take_drop_eq apart]
    exact Run.ofFault_eq_ok_iff.2 ⟨(Run.ofFault_eq_ok_iff.1 held).1, rfl⟩

/-- A write to a piece succeeds, changes nothing outside of it, and is read back as what its kind
leaves of the number. -/
theorem write_spec (layout : s.codec.HasRoom)
    (inside : p.stop s.codec ≤ (contents m.program).length) (v : Int) :
    ∃ n, write s p v m = (.ok (), n) ∧ read s p n = (.ok (p.kind.residue s.codec v), n) ∧
      Bytes.SameOutside p.address (p.stop s.codec) (contents m.program) (contents n.program) := by
  obtain ⟨kind, address⟩ := p
  dsimp only [stop] at inside ⊢
  have four := kind.four_le_size s.codec
  cases kind with
  | word =>
    obtain ⟨n, done, back, same⟩ := Slots.writeWord_spec (m := m) acts address v (by omega)
    refine ⟨n, done, ?_, same.mono (by omega)⟩
    have value : (((v % 2 ^ 32).toNat : Nat) : Int) = v % 2 ^ 32 := by omega
    rw [Kind.residue, ← value]
    exact Run.bind_eq_ok_iff.2 ⟨_, n, back, rfl⟩
  | element =>
    obtain ⟨n, done, back, same⟩ := Slots.writeSlot_spec acts layout address v inside
    rw [Int.fmod_eq_emod_of_nonneg v layout.pos.le] at back
    exact ⟨n, done, back, same⟩

variable {start : Bytes} {c : Nat} {steps : List Step} {taken : List Scratch}

namespace Kept

/-- What is taken next begins where the last piece has ended. -/
theorem take (kept : Kept s contents start c steps taken m) (behind : 4 ≤ c) {kind : Kind}
    (room : c + space s.codec (steps ++ [.take kind]) ≤ start.length)
    (small : c + space s.codec (steps ++ [.take kind]) < 2 ^ 32) :
    ∃ taken' n, perform s taken (.take kind) m = (.ok taken', n) ∧
      Kept s contents start c (steps ++ [.take kind]) taken' n := by
  rw [space_take] at room small
  obtain ⟨n, took, moved, same⟩ := take_spec acts kept.cursor_eq kind (by omega)
  refine ⟨_, n, Run.bind_eq_ok_iff.2 ⟨_, n, took, rfl⟩, ?_⟩
  have older {i : Nat} {q : Scratch} (found : taken[i]? = some q) :
      (taken ++ [⟨kind, c + space s.codec steps⟩])[i]? = some q := by
    rw [List.getElem?_append_left (List.getElem?_eq_some_iff.1 found).1, found]
  constructor
  case kinds_eq => rw [List.map_append, kept.kinds_eq, asked_take, List.map_singleton]
  case cursor_eq => rw [moved, space_take, Nat.add_assoc]
  case placed =>
    intro q member
    rw [space_take]
    obtain member | member := List.mem_append.1 member
    · have := kept.placed q member
      omega
    · rw [List.mem_singleton.1 member, stop]
      dsimp only
      omega
  case apart =>
    refine List.pairwise_append.2 ⟨kept.apart, List.pairwise_singleton _ _,
      fun q member p new => ?_⟩
    rw [List.mem_singleton.1 new]
    exact (kept.placed q member).2
  case holds =>
    intro index v last
    rw [lastWritten_take] at last
    obtain ⟨q, found, held⟩ := kept.holds index v last
    have placed := kept.placed q (List.mem_of_getElem? found)
    have size := kept.size_eq
    exact ⟨q, older found, read_congr acts same (.inr (by omega)) (by omega) held⟩
  case size_eq => rw [same.length_eq, kept.size_eq]
  case frame =>
    intro i high outside
    rw [same.getElem?_eq (.inr high)]
    refine kept.frame i high fun index q v found last => outside index q v (older found) ?_
    rw [lastWritten_take, last]

/-- A write goes to one piece, and the other ones hold what they held. -/
theorem write (kept : Kept s contents start c steps taken m) (behind : 4 ≤ c)
    (layout : s.codec.HasRoom) (room : c + space s.codec steps ≤ start.length) {index : Nat}
    (known : index < (asked steps).length) (v : Int) :
    ∃ n, perform s taken (.write index v) m = (.ok taken, n) ∧
      Kept s contents start c (steps ++ [.write index v]) taken n := by
  obtain ⟨p, found⟩ : ∃ p, taken[index]? = some p := by
    rw [← kept.kinds_eq, List.length_map] at known
    exact ⟨taken[index], List.getElem?_eq_getElem known⟩
  have size := kept.size_eq
  have placed := kept.placed p (List.mem_of_getElem? found)
  obtain ⟨n, done, held, same⟩ := write_spec (m := m) acts layout (p := p) (by omega) v
  refine ⟨n, ?_, ?_⟩
  · rw [perform, found]
    exact Run.bind_eq_ok_iff.2 ⟨(), n, done, rfl⟩
  constructor
  case kinds_eq => rw [kept.kinds_eq, asked_write]
  case cursor_eq =>
    rw [space_write]
    exact cursor_congr acts (by omega) same kept.cursor_eq
  case placed =>
    rw [space_write]
    exact kept.placed
  case apart => exact kept.apart
  case holds =>
    intro i w last
    rw [lastWritten_write] at last
    split at last
    next here =>
      cases here
      cases last
      exact ⟨p, found, held⟩
    next elsewhere =>
      obtain ⟨q, found', held'⟩ := kept.holds i w last
      have placed' := kept.placed q (List.mem_of_getElem? found')
      exact ⟨q, found', read_congr acts same (kept.apart_of_ne found' found (Ne.symm elsewhere))
        (by omega) held'⟩
  case size_eq => rw [same.length_eq, kept.size_eq]
  case frame =>
    intro i high outside
    have here := outside index p v found (by rw [lastWritten_write, if_pos rfl])
    rw [Covers] at here
    rw [same.getElem?_eq (by omega)]
    refine kept.frame i high fun j q w found' last => ?_
    by_cases again : index = j
    · cases again
      exact outside index q v found' (by rw [lastWritten_write, if_pos rfl])
    · exact outside j q w found' (by rw [lastWritten_write, if_neg again, last])

end Kept

/-- A legal session with room for what it takes succeeds, and keeps its pieces apart. -/
theorem session_kept (layout : s.codec.HasRoom) (cursor : (s.cursor m).1 = .ok c)
    (behind : 4 ≤ c) (legal : Legal steps)
    (room : c + space s.codec steps ≤ (contents m.program).length)
    (small : c + space s.codec steps < 2 ^ 32) :
    ∃ taken n, session s steps m = (.ok taken, n) ∧
      Kept s contents (contents m.program) c steps taken n := by
  induction legal with
  | nil => exact ⟨[], m, rfl, .nil cursor⟩
  | @take steps kind legal ih =>
    have grown := space_take s.codec steps kind
    obtain ⟨taken, mid, run, kept⟩ := ih (by omega) (by omega)
    obtain ⟨taken', n, next, kept'⟩ := kept.take acts behind room small
    exact ⟨taken', n, session_concat run next, kept'⟩
  | @write steps index v legal known ih =>
    rw [space_write] at room small
    obtain ⟨taken, mid, run, kept⟩ := ih room small
    obtain ⟨n, next, kept'⟩ := kept.write acts behind layout room known v
    exact ⟨taken, n, session_concat run next, kept'⟩

end Access

/-- There is a layout for every odd prime that fits into the limbs, and over every byte memory the
legal sessions of its slots keep what they take apart: every piece that has been written to holds
the last number, up to the range of its kind, and nothing else but the cursor has changed. -/
theorem session_isolated {prime limbs : Nat} (odd : Odd prime) (fits : prime < 2 ^ (32 * limbs)) :
    ∃ codec, Slot.Codec.make prime limbs = .ok codec ∧
      codec.prime = prime ∧ codec.size = limbs * 4 + 8 ∧
      ∀ {σ : Type} {memory : Access σ} {contents : σ → Bytes} {m : Machine σ} {c : Nat}
        {steps : List Step}, memory.ActsOn contents →
        (Slots.cursor ⟨memory, codec⟩ m).1 = .ok c → 4 ≤ c → Legal steps →
        c + space codec steps ≤ (contents m.program).length → c + space codec steps < 2 ^ 32 →
        ∃ taken n, session ⟨memory, codec⟩ steps m = (.ok taken, n) ∧
          Kept ⟨memory, codec⟩ contents (contents m.program) c steps taken n := by
  have positive : 0 < limbs := by
    by_contra none
    rw [Nat.eq_zero_of_not_pos none, Nat.mul_zero, pow_zero, Nat.lt_one_iff] at fits
    exact odd.pos.ne' fits
  obtain ⟨codec, made⟩ := Slot.Codec.exists_make_eq_ok odd (Int.ofNat_lt.2 positive)
  obtain ⟨prime_eq, limbs_eq, -⟩ := Slot.Codec.make_eq_ok made
  have limbs_eq : codec.limbs = limbs := Int.ofNat_inj.1 limbs_eq
  have layout : codec.HasRoom := by
    constructor
    · rw [prime_eq]
      exact_mod_cast odd.pos
    · rw [prime_eq, limbs_eq]
      exact_mod_cast fits.le
  refine ⟨codec, made, prime_eq, by rw [Slot.Codec.size, limbs_eq], ?_⟩
  intro σ memory contents m c steps acts cursor behind legal room small
  exact session_kept acts layout cursor behind legal room small

section Sample

/-- The accesses to a memory of its own. -/
def access : Access Memory := Memory.access id (fun m _ => m) true

/-- A memory of 64 bytes in which the cursor is at 16. -/
def sample : Machine Memory := ⟨(Memory.zeros 64).store 0 (Bytes.ofNat 4 16), []⟩

/-- Space is taken before and after something is written, and one piece is written to twice. -/
def sampleSteps : List Step :=
  [.take .word, .take .element, .write 1 (-1), .write 0 (2 ^ 32 + 5), .take .word, .write 1 9]

theorem access_actsOn : access.ActsOn Memory.contents := Memory.access_actsOn (fun _ _ => rfl) true

theorem length_sample : sample.program.contents.length = 64 := by
  rw [sample, Memory.length_contents, Memory.size_store, Memory.zeros]

theorem cursor_sample (codec : Slot.Codec) :
    (Slots.cursor ⟨access, codec⟩ sample).1 = .ok 16 := by
  have width : (Bytes.ofNat 4 16).length = 4 := Bytes.length_ofNat 4 16
  have room : 0 + (Bytes.ofNat 4 16).length ≤ (Memory.zeros 64).contents.length := by
    rw [width, Memory.length_contents]
    decide
  have back := Bytes.take_drop_overwrite room
  rw [List.drop_zero, width, ← Memory.contents_store (by rwa [← Memory.length_contents])] at back
  rw [Slots.cursor_eq_ok_iff access_actsOn, length_sample]
  refine ⟨by decide, ?_⟩
  rw [sample, back]
  exact Bytes.toNat_ofNat_of_lt (by decide)

theorem legal_sampleSteps : Legal sampleSteps := by
  have taken : Legal [.take .word, .take .element] := (Legal.nil.take .word).take .element
  have written : Legal [.take .word, .take .element, .write 1 (-1), .write 0 (2 ^ 32 + 5)] :=
    (taken.write (-1) (by decide)).write (2 ^ 32 + 5) (by decide)
  exact (written.take .word).write 9 (by decide)

theorem space_sampleSteps {codec : Slot.Codec} (size : codec.size = 12) :
    space codec sampleSteps = 28 := by
  have kinds : asked sampleSteps = [.word, .element, .word] := rfl
  rw [space, kinds, List.map_cons, List.map_cons, List.map_cons, Kind.size, Kind.size, size]
  rfl

/-- The last of what is written to the slot of an element modulo seven is read back. -/
theorem session_isolated_sample : (Odd 7 ∧ 7 < 2 ^ (32 * 1)) ∧
    ∃ codec, Slot.Codec.make (7 : Nat) (1 : Nat) = .ok codec ∧
      (Slots.cursor ⟨access, codec⟩ sample).1 = .ok 16 ∧ Legal sampleSteps ∧
      16 + space codec sampleSteps ≤ sample.program.contents.length ∧
      ∃ taken n, session ⟨access, codec⟩ sampleSteps sample = (.ok taken, n) ∧
        Kept ⟨access, codec⟩ Memory.contents sample.program.contents 16 sampleSteps taken n ∧
        (Slots.cursor ⟨access, codec⟩ n).1 = .ok 44 ∧
        ∃ p, taken[1]? = some p ∧ p.kind = .element ∧ read ⟨access, codec⟩ p n = (.ok 2, n) := by
  obtain ⟨codec, made, prime, size, isolated⟩ :=
    @session_isolated 7 1 (by decide) (by decide)
  have space := space_sampleSteps size
  have room : 16 + Scratch.space codec sampleSteps ≤ sample.program.contents.length := by
    rw [space, length_sample]
    decide
  obtain ⟨taken, n, run, kept⟩ := isolated access_actsOn (cursor_sample codec) (by decide)
    legal_sampleSteps room (by rw [space]; decide)
  have cursor := kept.cursor_eq
  rw [space] at cursor
  obtain ⟨p, found, held⟩ := kept.holds 1 9 rfl
  have kind : p.kind = .element := by
    have kinds := congrArg (·[1]?) kept.kinds_eq
    rw [List.getElem?_map, found] at kinds
    exact Option.some.inj kinds
  rw [kind, Kind.residue, prime] at held
  exact ⟨⟨by decide, by decide⟩, codec, made, cursor_sample codec, legal_sampleSteps, room, taken,
    n, run, kept, cursor, p, found, kind, held⟩

end Sample

end Scratch

end Snark
