import Snark.Fault

/-!
# Arithmetic modulo an integer

`bezout` runs the extended Euclidean algorithm, and `inverse?` and `power?` are built on it.
The modulus of `power?` may be negative, in which case the result lies between it and zero, and
so may its exponent, in which case the base has to have an inverse.
-/

namespace Snark.Modular

/-- The last remainder other than zero of Euclid's algorithm on `r₀` and `r₁`, together with
`s₀` followed through the same steps as `r₀`. -/
def bezout (r₀ r₁ : Nat) (s₀ s₁ : Int) : Nat × Int :=
  if r₁ = 0 then (r₀, s₀)
  else bezout r₁ (r₀ % r₁) s₁ (s₀ - (r₀ / r₁ : Nat) * s₁)
termination_by r₁
decreasing_by exact Nat.mod_lt _ (by omega)

/-- The inverse of `a` modulo `m`, if `a` and `m` have no common divisor. -/
def inverse? (m : Nat) (a : Int) : Option Nat :=
  let (g, s) := bezout m (a % m).toNat 0 1
  if g = 1 then some (s % m).toNat else none

/-- The loop of square and multiply: `acc * base ^ e` modulo `m`, for `e` of at most `steps`
binary digits. -/
def powerLoop (m : Nat) : (steps base e acc : Nat) → Nat
  | 0, _, _, acc => acc
  | steps + 1, base, e, acc =>
    powerLoop m steps (base * base % m) (e / 2) (if e % 2 = 1 then acc * base % m else acc)

/-- The power `base ^ e` modulo `m`. -/
def power (m base e : Nat) : Nat :=
  powerLoop m (e.log2 + 1) (base % m) e (1 % m) % m

theorem pow_square (b k : Nat) : Nat.pow (b * b) k = Nat.pow b (k + k) := by
  have product : Nat.pow (b * b) k = Nat.pow b k * Nat.pow b k := Nat.mul_pow b b k
  have sum : Nat.pow b (k + k) = Nat.pow b k * Nat.pow b k := Nat.pow_add b k k
  rw [product, sum]

theorem mul_pow_mod (m a b k : Nat) : a * Nat.pow (b % m) k % m = a * Nat.pow b k % m := by
  have reduced : Nat.pow b k % m = Nat.pow (b % m) k % m := Nat.pow_mod b k m
  rw [Nat.mul_mod, ← reduced, ← Nat.mul_mod]

/-- The loop computes the power as long as its steps suffice for the exponent. -/
theorem powerLoop_mod (m steps base e acc : Nat) (h : e < Nat.pow 2 steps) :
    powerLoop m steps base e acc % m = acc * Nat.pow base e % m := by
  induction steps generalizing base e acc with
  | zero =>
    have : e = 0 := by
      have one : Nat.pow 2 0 = 1 := rfl
      omega
    subst this
    simp [powerLoop]
  | succ steps ih =>
    have double : Nat.pow 2 (steps + 1) = Nat.pow 2 steps * 2 := rfl
    rw [powerLoop, ih _ _ _ (by omega), mul_pow_mod, pow_square]
    rcases Nat.mod_two_eq_zero_or_one e with even | odd
    · have half : e / 2 + e / 2 = e := by omega
      simp [even, half]
    · have half : e / 2 + e / 2 + 1 = e := by omega
      have top : Nat.pow base e = Nat.pow base (e / 2 + e / 2) * base :=
        congrArg (Nat.pow base) half.symm
      rw [if_pos odd, top, Nat.mul_mod, Nat.mod_mod, ← Nat.mul_mod, Nat.mul_assoc,
        Nat.mul_comm base]

/-- The power is the residue of the power. -/
theorem power_eq (m base e : Nat) : power m base e = Nat.pow base e % m := by
  have enough : e < Nat.pow 2 (e.log2 + 1) := Nat.lt_log2_self
  rw [power, powerLoop_mod _ _ _ _ _ enough, mul_pow_mod, Nat.mul_mod, Nat.mod_mod, ← Nat.mul_mod,
    Nat.one_mul]

/-- The power `base ^ e` modulo `m`, with the sign of `m`. A modulus of zero has none, and
neither has a negative exponent unless the base can be inverted. -/
def power? (m base e : Int) : Except Fault Int :=
  if m = 0 then .error .notInvertible
  else
    let n := m.natAbs
    let root := if e < 0 then inverse? n base else some (base % n).toNat
    match root with
    | none => .error .notInvertible
    | some b => .ok (Int.fmod (power n b e.natAbs) m)

end Snark.Modular
