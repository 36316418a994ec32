import Snark.Proofs.Abi.Layout

/-!
# The bytes of a call

The arguments of a call are arrays of a fixed length, and an encoder lays out the words at their
leaves one after another. In a call that checks a proof these are the words of the components of the
proof and of the values of the inputs, in the order of their byte layouts. So the encoded arguments
are the bytes of the proof and those of the inputs, and both are read back from them. There is no
type of an array without items, which is why a call without inputs leaves their array out.
-/

namespace Snark.Abi

/-- The type of a word, or of an array of a fixed length whose items have one type. -/
inductive StaticType
  | word
  | array (item : StaticType) (length : Nat)
  deriving DecidableEq, Repr

namespace Argument

mutual

/-- The numbers at the leaves of an argument. -/
def numbers : Argument → List Nat
  | word n => [n]
  | array items => allNumbers items

/-- The numbers at the leaves of several arguments, one argument after the other. -/
def allNumbers : List Argument → List Nat
  | [] => []
  | x :: rest => numbers x ++ allNumbers rest

end

/-- An argument is of a type. The number in a word has to fit it, and an array has at least one
item. -/
inductive HasType : Argument → StaticType → Prop
  | word {n : Nat} (small : n < Bytes.capacity wordSize) : HasType (.word n) .word
  | array {items : List Argument} {item : StaticType} (positive : 0 < items.length)
    (each : ∀ x ∈ items, HasType x item) : HasType (.array items) (.array item items.length)

mutual

/-- Whether an argument is of a type. -/
def hasType : Argument → StaticType → Bool
  | word n, .word => n < Bytes.capacity wordSize
  | array items, .array item length =>
    0 < items.length && items.length = length && allHaveType items item
  | word _, .array _ _ => false
  | array _, .word => false

/-- Whether all of several arguments are of a type. -/
def allHaveType : List Argument → StaticType → Bool
  | [], _ => true
  | x :: rest, t => hasType x t && allHaveType rest t

end

mutual

theorem hasType_iff : (x : Argument) → (t : StaticType) → (hasType x t = true ↔ HasType x t)
  | word n, .word => by
    rw [hasType, decide_eq_true_iff]
    exact ⟨.word, fun | .word small => small⟩
  | array items, .array item length => by
    rw [hasType, Bool.and_eq_true, Bool.and_eq_true, decide_eq_true_iff, decide_eq_true_iff,
      allHaveType_iff items item]
    constructor
    · rintro ⟨⟨positive, rfl⟩, each⟩
      exact .array positive each
    · rintro ⟨⟩
      exact ⟨⟨‹_›, rfl⟩, ‹_›⟩
  | word n, .array item length => by
    rw [hasType]
    exact iff_of_false Bool.false_ne_true nofun
  | array items, .word => by
    rw [hasType]
    exact iff_of_false Bool.false_ne_true nofun

theorem allHaveType_iff : (xs : List Argument) → (t : StaticType) →
    (allHaveType xs t = true ↔ ∀ x ∈ xs, HasType x t)
  | [], t => by
    rw [allHaveType]
    exact iff_of_true rfl (List.forall_mem_nil _)
  | x :: rest, t => by
    rw [allHaveType, Bool.and_eq_true, hasType_iff x t, allHaveType_iff rest t,
      List.forall_mem_cons]

end

instance (x : Argument) (t : StaticType) : Decidable (HasType x t) :=
  decidable_of_iff _ (hasType_iff x t)

mutual

theorem encode_eq : (x : Argument) → encode x = (numbers x).flatMap Abi.word
  | word n => by rw [encode, numbers, List.flatMap_cons, List.flatMap_nil, List.append_nil]
  | array items => by rw [encode, numbers, encodeAll_eq items]

/-- The encoding of arguments is made of the words at their leaves. -/
theorem encodeAll_eq : (xs : List Argument) → encodeAll xs = (allNumbers xs).flatMap Abi.word
  | [] => by rw [encodeAll, allNumbers, List.flatMap_nil]
  | x :: rest => by
    rw [encodeAll, allNumbers, List.flatMap_append, encode_eq x, encodeAll_eq rest]

end

theorem allNumbers_append (xs ys : List Argument) :
    allNumbers (xs ++ ys) = allNumbers xs ++ allNumbers ys := by
  induction xs with
  | nil => rfl
  | cons x xs ih => rw [List.cons_append, allNumbers, allNumbers, ih, List.append_assoc]

/-- An encoder takes arguments of the given types, and lays out the words at their leaves. What it
does with other arguments is left open. -/
def EncodesWords (encode : List StaticType → List Argument → Result Bytes) : Prop :=
  ∀ types args, List.Forall₂ HasType args types →
    encode types args = .ok ((allNumbers args).flatMap Abi.word)

end Argument

open Argument

theorem hasType_word {m : Nat} (room : m ≤ Bytes.capacity wordSize) (x : Residue m) :
    HasType (.word x.val) .word :=
  .word (Nat.lt_of_lt_of_le x.isLt room)

theorem hasType_pair {x y : Argument} {item : StaticType} (first : HasType x item)
    (second : HasType y item) : HasType (.array [x, y]) (.array item 2) :=
  .array Nat.two_pos (List.forall_mem_cons.2 ⟨first, List.forall_mem_singleton.2 second⟩)

theorem CurvePoint.hasType_argument (p : CurvePoint) : HasType p.argument (.array .word 2) :=
  hasType_pair (hasType_word baseOrder_le p.x) (hasType_word baseOrder_le p.y)

theorem TwistPoint.hasType_argument (p : TwistPoint) :
    HasType p.argument (.array (.array .word 2) 2) := by
  have coordinate (c : Fq2) : HasType (coordinateArgument c) (.array .word 2) :=
    hasType_pair (hasType_word baseOrder_le c.im) (hasType_word baseOrder_le c.re)
  exact hasType_pair (coordinate p.x) (coordinate p.y)

namespace Inputs

/-- The values as one array, if there are any. -/
theorem hasType_arguments {xs : Inputs} (h : xs.values ≠ []) :
    HasType (.array xs.arguments) (.array .word xs.values.length) := by
  have length : xs.arguments.length = xs.values.length := List.length_map _
  have positive : 0 < xs.arguments.length := length ▸ List.length_pos_of_ne_nil h
  rw [← length]
  exact .array positive (List.forall_mem_map.2 fun x _ => hasType_word scalarOrder_le x)

theorem allNumbers_arguments (xs : Inputs) :
    allNumbers xs.arguments = xs.values.map Residue.val := by
  obtain ⟨values⟩ := xs
  induction values with
  | nil => rfl
  | cons x values ih => exact congrArg (x.val :: ·) ih

end Inputs

theorem Proof.allNumbers_arguments (p : Proof) :
    allNumbers p.arguments = p.components.map Residue.val := rfl

/-- The types of the arguments of the call that checks a proof. -/
def callTypes (xs : Inputs) : List StaticType :=
  let points : List StaticType := [.array .word 2, .array (.array .word 2) 2, .array .word 2]
  if xs.values.isEmpty then points else points ++ [.array .word xs.values.length]

/-- The arguments of the call have the types that go with them. -/
theorem hasType_callArguments (p : Proof) (xs : Inputs) :
    List.Forall₂ HasType (callArguments p xs) (callTypes xs) := by
  have points : List.Forall₂ HasType p.arguments
      [.array .word 2, .array (.array .word 2) 2, .array .word 2] :=
    .cons p.a.hasType_argument (.cons p.b.hasType_argument (.cons p.c.hasType_argument .nil))
  rw [callArguments, callTypes]
  split
  · exact points
  next some =>
    have values : xs.values ≠ [] := fun none => some (List.isEmpty_iff.2 none)
    exact List.rel_append points (.cons (Inputs.hasType_arguments values) .nil)

/-- The leaves of the arguments are the components of the proof and the values of the inputs. If
there are no values, the array that is left out has no leaves. -/
theorem allNumbers_callArguments (p : Proof) (xs : Inputs) :
    allNumbers (callArguments p xs) =
      p.components.map Residue.val ++ xs.values.map Residue.val := by
  rw [callArguments, ← p.allNumbers_arguments]
  split
  next empty =>
    rw [List.isEmpty_iff.1 empty, List.map_nil, List.append_nil]
  next =>
    rw [allNumbers_append, allNumbers, numbers, xs.allNumbers_arguments, allNumbers,
      List.append_nil]

/-- The words of the arguments are the bytes of the proof and of the inputs. -/
theorem flatMap_word_callArguments (p : Proof) (xs : Inputs) :
    (allNumbers (callArguments p xs)).flatMap word = p.toBytes ++ xs.toBytes := by
  rw [allNumbers_callArguments, List.flatMap_append, ← residueWords_eq, ← residueWords_eq,
    ← p.toBytes_eq, ← xs.toBytes_eq]

theorem calldata_eq (p : Proof) (xs : Inputs) : calldata p xs = p.toBytes ++ xs.toBytes := by
  rw [calldata, encodeAll_eq, flatMap_word_callArguments]

/-- Any encoder that lays out the words of arguments of fixed size takes the arguments of the call,
and what it makes of them is the call data: the bytes of the proof and behind them those of the
inputs, of which there may be none. The proof is read back from the first 256 bytes and the inputs
from the rest. -/
theorem calldata_layout {encode : List StaticType → List Argument → Result Bytes}
    (words : EncodesWords encode) (p : Proof) (xs : Inputs) :
    encode (callTypes xs) (callArguments p xs) = .ok (calldata p xs) ∧
      calldata p xs = p.toBytes ++ xs.toBytes ∧
      Proof.ofBytes ((calldata p xs).take 256) = .ok p ∧
      Inputs.ofBytes ((calldata p xs).drop 256) = .ok xs := by
  have length : p.toBytes.length = 256 := by
    simp [Proof.toBytes]
  rw [words _ _ (hasType_callArguments p xs), flatMap_word_callArguments, calldata_eq,
    List.take_left' length, List.drop_left' length]
  exact ⟨rfl, rfl, Proof.ofBytes_eq_ok_iff.2 rfl, Inputs.ofBytes_eq_ok_iff.2 rfl⟩

/-- The encoder that refuses all arguments that are not of their types. -/
def encodeTyped (types : List StaticType) (args : List Argument) : Result Bytes :=
  if List.Forall₂ HasType args types then .ok (encodeAll args) else .error (.fault .wrongShape)

theorem encodesWords_encodeTyped : EncodesWords encodeTyped := by
  intro types args typed
  rw [encodeTyped, if_pos typed, encodeAll_eq]

/-- A proof of generators and infinity. -/
def sampleProof : Proof := .ofProof ⟨Bn254.generator₁, Bn254.generator₂, .infinity⟩

/-- The calls with this proof for two inputs and for none, made by an encoder that refuses an array
without items. -/
theorem calldata_layout_sampleProof :
    encodeTyped [.array .word 0] [.array []] = .error (.fault .wrongShape) ∧
    EncodesWords encodeTyped ∧
    (encodeTyped (callTypes ⟨[.ofNat 33, 0]⟩) (callArguments sampleProof ⟨[.ofNat 33, 0]⟩) =
        .ok (calldata sampleProof ⟨[.ofNat 33, 0]⟩) ∧
      calldata sampleProof ⟨[.ofNat 33, 0]⟩ =
        sampleProof.toBytes ++ Inputs.toBytes ⟨[.ofNat 33, 0]⟩ ∧
      Proof.ofBytes ((calldata sampleProof ⟨[.ofNat 33, 0]⟩).take 256) = .ok sampleProof ∧
      Inputs.ofBytes ((calldata sampleProof ⟨[.ofNat 33, 0]⟩).drop 256) = .ok ⟨[.ofNat 33, 0]⟩) ∧
    encodeTyped (callTypes ⟨[]⟩) (callArguments sampleProof ⟨[]⟩) =
        .ok (calldata sampleProof ⟨[]⟩) ∧
      calldata sampleProof ⟨[]⟩ = sampleProof.toBytes ++ Inputs.toBytes ⟨[]⟩ ∧
      Proof.ofBytes ((calldata sampleProof ⟨[]⟩).take 256) = .ok sampleProof ∧
      Inputs.ofBytes ((calldata sampleProof ⟨[]⟩).drop 256) = .ok ⟨[]⟩ := by
  have refused : encodeTyped [.array .word 0] [.array []] = .error (.fault .wrongShape) :=
    if_neg (by decide)
  exact ⟨refused, encodesWords_encodeTyped,
    calldata_layout encodesWords_encodeTyped sampleProof ⟨[.ofNat 33, 0]⟩,
    calldata_layout encodesWords_encodeTyped sampleProof ⟨[]⟩⟩

end Snark.Abi
