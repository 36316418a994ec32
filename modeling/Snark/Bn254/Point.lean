/-!
# Affine points

The points of a curve `y ^ 2 = x ^ 3 + b` over a field are its affine points and the point at
infinity. Addition and doubling are the affine formulas, which do not mention `b` and are not
checked to stay on a curve; where they divide by zero, the quotient is zero.
-/

namespace Snark

/-- A point with coordinates in `F`. -/
inductive Point (F : Type)
  | infinity
  | affine (x y : F)
  deriving DecidableEq, Repr

namespace Point

variable {F : Type} [DecidableEq F] [Add F] [Sub F] [Mul F] [Div F]

/-- The slope of the tangent at a point. -/
@[specialize] def tangent (x y : F) : F := (x * x + x * x + x * x) / (y + y)

/-- The slope of the line through two points whose first coordinates differ. -/
@[specialize] def chord (x₁ y₁ x₂ y₂ : F) : F := (y₂ - y₁) / (x₂ - x₁)

/-- The third point on the line of slope `m` through two points, reflected. -/
@[specialize] def third (m x₁ y₁ x₂ : F) : Point F :=
  let x := m * m - x₁ - x₂
  affine x (m * (x₁ - x) - y₁)

/-- The double of a point. -/
@[specialize] def double : Point F → Point F
  | infinity => infinity
  | affine x y => third (tangent x y) x y x

/-- The sum of two points. -/
@[specialize] def add : Point F → Point F → Point F
  | infinity, q => q
  | p, infinity => p
  | affine x₁ y₁, affine x₂ y₂ =>
    if x₁ = x₂ then
      if y₁ = y₂ then double (affine x₁ y₁) else infinity
    else third (chord x₁ y₁ x₂ y₂) x₁ y₁ x₂

@[simp] theorem infinity_add (p : Point F) : add infinity p = p := rfl

@[simp] theorem add_infinity (p : Point F) : add p infinity = p := by
  cases p <;> rfl

/-- The reflection of a point. -/
@[specialize] def neg [Neg F] : Point F → Point F
  | infinity => infinity
  | affine x y => affine x (-y)

/-- The multiple of a point by a number of at most `steps` binary digits. -/
@[specialize] def multipleLoop : (steps n : Nat) → Point F → Point F
  | 0, _, _ => infinity
  | steps + 1, n, p =>
    if n = 0 then infinity
    else if n = 1 then p
    else
      let half := multipleLoop steps (n / 2) (double p)
      if n % 2 = 0 then half else add half p

/-- The multiple of a point by a number. -/
@[specialize] def multiple (n : Nat) (p : Point F) : Point F := multipleLoop (n.log2 + 1) n p

/-- Whether a point is at infinity or on the curve with the constant `b`. -/
@[specialize] def isOn (b : F) : Point F → Bool
  | infinity => true
  | affine x y => y * y - x * x * x = b

end Point

end Snark
