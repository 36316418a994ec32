import Snark.Abi.Point
import Snark.Key.Basic

/-!
# Values of a contract call

The proofs, verifying keys and public inputs that a verifier contract takes, with their byte
layouts. `calldata` is the encoding of the arguments of the call that checks a proof; an empty
array of inputs is left out.
-/

namespace Snark.Abi

/-- A proof as a contract takes it. -/
structure Proof where
  a : CurvePoint
  b : TwistPoint
  c : CurvePoint
  deriving DecidableEq, Repr

/-- A verifying key as a contract holds it; it takes at least one point for the inputs. -/
structure VerifyingKey where
  alpha : CurvePoint
  beta : TwistPoint
  gamma : TwistPoint
  delta : TwistPoint
  inputs : List CurvePoint
  inputs_ne_nil : inputs ≠ []
  deriving DecidableEq

/-- Public inputs. -/
structure Inputs where
  values : List Fr
  deriving DecidableEq, Repr

namespace Proof

/-- The proof with the given points. -/
def ofProof (p : Snark.Proof G1 G2) : Proof := ⟨.ofPoint p.a, .ofPoint p.b, .ofPoint p.c⟩

/-- The proof with the points that have the coordinates. -/
def toProof (p : Proof) : Result (Snark.Proof G1 G2) := do
  let a ← p.a.toPoint
  let b ← p.b.toPoint
  let c ← p.c.toPoint
  return ⟨a, b, c⟩

/-- The arguments that make up a proof. -/
def arguments (p : Proof) : List Argument := [p.a.argument, p.b.argument, p.c.argument]

/-- The bytes of a proof. -/
def toBytes (p : Proof) : Bytes := p.a.toBytes ++ p.b.toBytes ++ p.c.toBytes

/-- The length of a proof in bytes. -/
def size : Nat := 8 * wordSize

/-- Reads the bytes of a proof. -/
def ofBytes (bs : Bytes) : Result Proof := do
  if bs.length ≠ size then
    throw (.abi (.proofLength bs.length))
  let a ← CurvePoint.ofBytes (bs.take 64)
  let b ← TwistPoint.ofBytes ((bs.drop 64).take 128)
  let c ← CurvePoint.ofBytes (bs.drop 192)
  return ⟨a, b, c⟩

end Proof

namespace VerifyingKey

/-- The key with the given points. -/
def make (alpha : CurvePoint) (beta gamma delta : TwistPoint) (inputs : List CurvePoint) :
    Result VerifyingKey :=
  if h : inputs = [] then .error (.abi .noInputPoint)
  else .ok ⟨alpha, beta, gamma, delta, inputs, h⟩

/-- The key with the coordinates of the points of a key. -/
def ofKey (vk : Snark.VerifyingKey G1 G2) : Result VerifyingKey :=
  make (.ofPoint vk.alpha) (.ofPoint vk.beta) (.ofPoint vk.gamma) (.ofPoint vk.delta)
    (vk.inputs.map .ofPoint)

/-- The key with the points that have the coordinates. -/
def toKey (vk : VerifyingKey) : Result (Snark.VerifyingKey G1 G2) := do
  let alpha ← vk.alpha.toPoint
  let beta ← vk.beta.toPoint
  let gamma ← vk.gamma.toPoint
  let delta ← vk.delta.toPoint
  let inputs ← vk.inputs.mapM CurvePoint.toPoint
  return ⟨alpha, beta, gamma, delta, inputs⟩

/-- The arguments that make up a key. -/
def arguments (vk : VerifyingKey) : List Argument :=
  [vk.alpha.argument, vk.beta.argument, vk.gamma.argument, vk.delta.argument,
    .array (vk.inputs.map CurvePoint.argument)]

/-- The bytes of a key. -/
def toBytes (vk : VerifyingKey) : Bytes :=
  vk.alpha.toBytes ++ vk.beta.toBytes ++ vk.gamma.toBytes ++ vk.delta.toBytes ++
    vk.inputs.flatMap CurvePoint.toBytes

/-- The length of the points in front of those for the inputs. -/
def headerSize : Nat := 14 * wordSize

/-- Reads `count` points that stand one after another. -/
def pointsOfBytes : (count : Nat) → Bytes → Result (List CurvePoint)
  | 0, _ => .ok []
  | count + 1, bs => do
    let p ← CurvePoint.ofBytes (bs.take 64)
    return p :: (← pointsOfBytes count (bs.drop 64))

/-- Reads the bytes of a key. -/
def ofBytes (bs : Bytes) : Result VerifyingKey := do
  let tail := bs.length - headerSize
  if tail < 64 || tail % 64 ≠ 0 then
    throw (.abi (.keyLength bs.length))
  let alpha ← CurvePoint.ofBytes (bs.take 64)
  let beta ← TwistPoint.ofBytes ((bs.drop 64).take 128)
  let gamma ← TwistPoint.ofBytes ((bs.drop 192).take 128)
  let delta ← TwistPoint.ofBytes ((bs.drop 320).take 128)
  let inputs ← pointsOfBytes (tail / 64) (bs.drop headerSize)
  make alpha beta gamma delta inputs

end VerifyingKey

namespace Inputs

/-- An integer as a public input; it is not reduced. -/
def scalar (v : Int) : Result Fr :=
  if 0 ≤ v && v < scalarOrder then .ok (.ofInt v) else .error (.worded (.abi (.input v)))

/-- The inputs with the given values. -/
def ofInts (vs : List Int) : Result Inputs := do
  return ⟨← vs.mapM scalar⟩

/-- The values of the inputs. -/
def toInts (xs : Inputs) : List Int := xs.values.map fun x => (x.val : Int)

/-- The inputs as arguments, one for every value. -/
def arguments (xs : Inputs) : List Argument := xs.values.map fun x => .word x.val

/-- The bytes of some inputs. -/
def toBytes (xs : Inputs) : Bytes := xs.values.flatMap fun x => word x.val

/-- Reads the bytes of some inputs. -/
def ofBytes (bs : Bytes) : Result Inputs := do
  if bs.length % wordSize ≠ 0 then
    throw (.abi (.inputsLength bs.length))
  let vs ← words (bs.length / wordSize) bs
  ofInts (vs.map fun (n : Nat) => (n : Int))

end Inputs

/-- The arguments of the call that checks a proof. -/
def callArguments (p : Proof) (xs : Inputs) : List Argument :=
  if xs.values.isEmpty then p.arguments else p.arguments ++ [.array xs.arguments]

/-- The encoded arguments of the call that checks a proof. -/
def calldata (p : Proof) (xs : Inputs) : Bytes := Argument.encodeAll (callArguments p xs)

end Snark.Abi
