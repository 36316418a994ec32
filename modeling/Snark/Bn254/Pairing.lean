import Snark.Bn254.Extension
import Snark.Bn254.Point
import Snark.Group

/-!
# The pairing of BN254

The first group lies on `y ^ 2 = x ^ 3 + 3` over `Fq` and the second on the twist
`y ^ 2 = x ^ 3 + 3 / (9 + u)` over `Fq2`. The map `(x, y) ↦ (x * w ^ 2, y * w ^ 3)` takes the twist
to the first curve over `Fq12`; the lines of Miller's loop are written in the coordinates of the
twist and evaluated there. The result is raised to the power that takes it into the group of
`scalarOrder`-th roots of unity.
-/

namespace Snark

/-- The first group: points with coordinates in the base field. -/
abbrev G1 := Point Fq

/-- The second group: points of the twist. -/
abbrev G2 := Point Fq2

namespace Bn254

/-- The constant of the curve. -/
def curveConstant : Fq := .ofNat 3

/-- The constant of the twist. -/
def twistConstant : Fq2 := .ofFq curveConstant / .nonResidue

/-- Whether a point lies on the curve. -/
def isOnCurve (p : G1) : Bool := p.isOn curveConstant

/-- Whether a point lies on the twist. -/
def isOnTwist (p : G2) : Bool := p.isOn twistConstant

/-- The generator of the first group. -/
def generator₁ : G1 := .affine (.ofNat 1) (.ofNat 2)

/-- The generator of the second group. -/
def generator₂ : G2 :=
  .affine
    ⟨.ofNat 10857046999023057135944570762232829481370756359578518086990519993285655852781,
      .ofNat 11559732032986387107991004021392285783925812861821192530917403151452391805634⟩
    ⟨.ofNat 8495653923123431417604973247489272438418190587263600148770280649306958101930,
      .ofNat 4082367875863433681332203403145435568316851327593401208105741076214120093531⟩

instance : CurveGroup G1 where
  zero := .infinity
  generator := generator₁
  add := Point.add
  neg := Point.neg
  multiple := Point.multiple

instance : CurveGroup G2 where
  zero := .infinity
  generator := generator₂
  add := Point.add
  neg := Point.neg
  multiple := Point.multiple

/-- The number whose binary digits Miller's loop follows. -/
def loopCount : Nat := 29793968203157093288

/-- The power of `nonResidue` with the given exponent. -/
def twistPower (e : Nat) : Fq2 :=
  (Fq12.pow ⟨⟨.nonResidue, 0, 0⟩, 0⟩ e).c₀.c₀

/-- What the first coordinate of a point is multiplied by when all of it is raised to the power
`baseOrder`. -/
def frobeniusX : Fq2 := twistPower ((baseOrder - 1) / 3)

/-- What the second coordinate of a point is multiplied by when all of it is raised to the power
`baseOrder`. -/
def frobeniusY : Fq2 := twistPower ((baseOrder - 1) / 2)

/-- The point whose coordinates over `Fq12` are those of the given one to the power `baseOrder`. -/
def frobenius : G2 → G2
  | .infinity => .infinity
  | .affine x y => .affine (x.conj * frobeniusX) (y.conj * frobeniusY)

/-- The line of slope `m` through a point of the twist, at a point of the curve. -/
def lineAt (m x y : Fq2) (xt yt : Fq) : Fq12 :=
  ⟨⟨.ofFq (-yt), 0, 0⟩, ⟨m * .ofFq xt, y - m * x, 0⟩⟩

/-- The vertical line through a point of the twist, at a point of the curve. -/
def verticalAt (x : Fq2) (xt : Fq) : Fq12 := ⟨⟨.ofFq xt, -x, 0⟩, 0⟩

/-- The line through two points of the twist, at a point of the curve. -/
def line (p q : G2) (xt yt : Fq) : Fq12 :=
  match p, q with
  | .affine x₁ y₁, .affine x₂ y₂ =>
    if x₁ = x₂ then
      if y₁ = y₂ then lineAt (Point.tangent x₁ y₁) x₁ y₁ xt yt else verticalAt x₁ xt
    else lineAt (Point.chord x₁ y₁ x₂ y₂) x₁ y₁ xt yt
  | _, _ => 1

/-- Miller's loop over the low `steps` binary digits of `loopCount`, from the value `f` and the
point `r` reached so far. -/
def millerLoop (q : G2) (xt yt : Fq) : (steps : Nat) → (r : G2) → (f : Fq12) → G2 × Fq12
  | 0, r, f => (r, f)
  | step + 1, r, f =>
    let f := f * f * line r r xt yt
    let r := r.double
    if loopCount.testBit step then
      millerLoop q xt yt step (r.add q) (f * line r q xt yt)
    else
      millerLoop q xt yt step r f

/-- The exponent that takes a value of Miller's loop to a root of unity. -/
def finalExponent : Nat := (Nat.pow baseOrder 12 - 1) / scalarOrder

/-- The pairing of a point of the twist and a point of the curve. -/
def ate (q : G2) (p : G1) : Fq12 :=
  match q, p with
  | q, .affine xt yt =>
    if q = .infinity then 1
    else
      let (r, f) := millerLoop q xt yt 64 q 1
      let q₁ := frobenius q
      let q₂ := (frobenius q₁).neg
      let f := f * line r q₁ xt yt
      let r := r.add q₁
      (f * line r q₂ xt yt).pow finalExponent
  | _, .infinity => 1

/-- The pairing, refused for points off their curves; the twist is looked at first. -/
def pairing (q : G2) (p : G1) : Except Fault Fq12 :=
  if !isOnTwist q then .error .outsideTwist
  else if !isOnCurve p then .error .outsideCurve
  else .ok (ate q p)

instance : PairingGroups G1 G2 Fq12 where
  pair := pairing
  combine := (· * ·)
  decEq := inferInstance

end Bn254

end Snark
