import Snark.Bytes
import Snark.Field.Modular

/-!
# Montgomery form

The Montgomery form of `v` modulo `m` is `v * R` modulo `m`, where the radix `R` is the number of
values that a given number of bytes can hold. Only the residue of the radix is computed, so the
width may be any. Files apply the form any number of rounds: once to the coordinates of points and
twice to coefficients. Rounds may be negative, which undoes as many.
-/

namespace Snark.Montgomery

/-- The radix for numbers of `width` bytes. -/
def radix (width : Nat) : Nat := Bytes.capacity width

/-- The radix modulo `m`, which is not zero. -/
def residue (m : Int) (width : Nat) : Nat := Modular.power m.natAbs 256 width

theorem residue_eq (m : Int) (width : Nat) : residue m width = radix width % m.natAbs :=
  Modular.power_eq m.natAbs 256 width

/-- The value `raw * R ^ (-rounds)` modulo `m`. -/
def decode (m : Int) (width : Nat) (rounds raw : Int) : Except Fault Int := do
  if m = 0 then
    throw .notInvertible
  let inverse ← Modular.power? m (residue m width) (-1)
  let scale ← Modular.power? m inverse rounds
  return Int.fmod (raw * scale) m

/-- The value `v * R ^ rounds` modulo `m`. -/
def encode (m : Int) (width : Nat) (rounds v : Int) : Except Fault Int := do
  if m = 0 then
    throw .divisionByZero
  let scale ← Modular.power? m (residue m width) rounds
  return Int.fmod (v * scale) m

end Snark.Montgomery
