import Snark.Bn254.Field

/-!
# Extension fields

The pairing takes its values in the field of `baseOrder ^ 12` elements. It is built in three
steps: `Fq2` adjoins a square root `u` of `-1`, `Fq6` a cube root `v` of `9 + u`, and `Fq12` a
square root `w` of `v`. Inverses are needed in `Fq2` only; as in the prime fields, that of zero is
zero.
-/

namespace Snark

/-- An element `re + im * u` with `u * u = -1`. -/
structure Fq2 where
  re : Fq
  im : Fq
  deriving DecidableEq, Repr

namespace Fq2

instance : Zero Fq2 := ⟨⟨0, 0⟩⟩

instance : One Fq2 := ⟨⟨1, 0⟩⟩

instance : Add Fq2 := ⟨fun a b => ⟨a.re + b.re, a.im + b.im⟩⟩

instance : Sub Fq2 := ⟨fun a b => ⟨a.re - b.re, a.im - b.im⟩⟩

instance : Neg Fq2 := ⟨fun a => ⟨-a.re, -a.im⟩⟩

instance : Mul Fq2 := ⟨fun a b => ⟨a.re * b.re - a.im * b.im, a.re * b.im + a.im * b.re⟩⟩

/-- The conjugate, which is also the power with exponent `baseOrder`. -/
def conj (a : Fq2) : Fq2 := ⟨a.re, -a.im⟩

/-- The inverse, and zero for zero. -/
def inv (a : Fq2) : Fq2 :=
  let n := Residue.inv (a.re * a.re + a.im * a.im)
  ⟨a.re * n, -a.im * n⟩

instance : Div Fq2 := ⟨fun a b => a * inv b⟩

/-- The element of the base field. -/
def ofFq (a : Fq) : Fq2 := ⟨a, 0⟩

/-- The element whose cube root and square root are adjoined next. -/
def nonResidue : Fq2 := ⟨.ofNat 9, 1⟩

/-- The product with `nonResidue`. -/
def twist (a : Fq2) : Fq2 :=
  let nine := Residue.ofNat 9
  ⟨nine * a.re - a.im, a.re + nine * a.im⟩

end Fq2

/-- An element `c₀ + c₁ * v + c₂ * v ^ 2` with `v ^ 3 = 9 + u`. -/
structure Fq6 where
  c₀ : Fq2
  c₁ : Fq2
  c₂ : Fq2
  deriving DecidableEq, Repr

namespace Fq6

instance : Zero Fq6 := ⟨⟨0, 0, 0⟩⟩

instance : One Fq6 := ⟨⟨1, 0, 0⟩⟩

instance : Add Fq6 := ⟨fun a b => ⟨a.c₀ + b.c₀, a.c₁ + b.c₁, a.c₂ + b.c₂⟩⟩

instance : Sub Fq6 := ⟨fun a b => ⟨a.c₀ - b.c₀, a.c₁ - b.c₁, a.c₂ - b.c₂⟩⟩

instance : Mul Fq6 := ⟨fun a b =>
  ⟨a.c₀ * b.c₀ + (a.c₁ * b.c₂ + a.c₂ * b.c₁).twist,
    a.c₀ * b.c₁ + a.c₁ * b.c₀ + (a.c₂ * b.c₂).twist,
    a.c₀ * b.c₂ + a.c₁ * b.c₁ + a.c₂ * b.c₀⟩⟩

/-- The product with `v`. -/
def shift (a : Fq6) : Fq6 := ⟨a.c₂.twist, a.c₀, a.c₁⟩

end Fq6

/-- An element `c₀ + c₁ * w` with `w ^ 2 = v`. -/
structure Fq12 where
  c₀ : Fq6
  c₁ : Fq6
  deriving DecidableEq, Repr

namespace Fq12

instance : One Fq12 := ⟨⟨1, 0⟩⟩

instance : Mul Fq12 := ⟨fun a b =>
  let low := a.c₀ * b.c₀
  let high := a.c₁ * b.c₁
  ⟨low + high.shift, (a.c₀ + a.c₁) * (b.c₀ + b.c₁) - low - high⟩⟩

/-- The loop of square and multiply: `acc * base ^ e`, for `e` of at most `steps` binary
digits. -/
def powLoop : (steps : Nat) → (base : Fq12) → (e : Nat) → (acc : Fq12) → Fq12
  | 0, _, _, acc => acc
  | steps + 1, base, e, acc =>
    powLoop steps (base * base) (e / 2) (if e % 2 = 1 then acc * base else acc)

/-- The power with a natural exponent. -/
def pow (a : Fq12) (e : Nat) : Fq12 := powLoop (e.log2 + 1) a e 1

/-- The coefficients of `1, w, …, w ^ 5` over `Fq2`. -/
def overFq2 (a : Fq12) : List Fq2 :=
  [a.c₀.c₀, a.c₁.c₀, a.c₀.c₁, a.c₁.c₁, a.c₀.c₂, a.c₁.c₂]

/-- The coefficients of `1, w, …, w ^ 11` over the base field, where `w` is a root of
`w ^ 12 - 18 * w ^ 6 + 82` and `u` is `w ^ 6 - 9`. -/
def coefficients (a : Fq12) : List Fq :=
  (overFq2 a).map (fun c => c.re - .ofNat 9 * c.im) ++ (overFq2 a).map (·.im)

end Fq12

end Snark
