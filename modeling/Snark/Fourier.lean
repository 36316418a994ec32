import Snark.RootsOfUnity

/-!
# Fourier transform

The transform takes the coefficients of a polynomial to its values on the powers of a root of
unity. It splits the coefficients into those of even and of odd index, transforms both halves, and
joins them by butterflies. `interpolate` goes back, and `onCoset` evaluates on the multiples of
the roots by a fixed scalar.
-/

namespace Snark.Fourier

/-- The elements of even and of odd index. -/
def split : List Fr → List Fr × List Fr
  | [] => ([], [])
  | [x] => ([x], [])
  | x :: y :: rest => (x :: (split rest).1, y :: (split rest).2)

/-- Both halves of a list of even length are as long as the other. -/
theorem length_split {n : Nat} (cs : List Fr) (h : cs.length = 2 * n) :
    (split cs).1.length = n ∧ (split cs).2.length = n := by
  induction n generalizing cs with
  | zero =>
    rw [List.eq_nil_of_length_eq_zero h]
    exact ⟨rfl, rfl⟩
  | succ n ih =>
    match cs, h with
    | x :: y :: rest, h =>
      obtain ⟨even, odd⟩ := ih rest (by simp only [List.length_cons] at h; omega)
      simp [split, even, odd]

/-- The values of the polynomial with the coefficients `cs`, of which there are `2 ^ k`, on the
powers of `ω`. -/
def values : (k : Nat) → (cs : List Fr) → (ω : Fr) → List Fr
  | 0, cs, _ => cs
  | k + 1, cs, ω =>
    let (evens, odds) := split cs
    let even := values k evens (ω * ω)
    let odd := (values k odds (ω * ω)).zipWith (· * ·) (geometric 1 ω odds.length)
    even.zipWith (· + ·) odd ++ even.zipWith (· - ·) odd

/-- The values of a polynomial on the powers of `ω`; the number of coefficients has to be a power
of two. -/
def transform (cs : List Fr) (ω : Fr) : Except Fault (List Fr) :=
  if isPowerOfTwo cs.length then .ok (values cs.length.log2 cs ω)
  else .error (.transformLength cs.length)

/-- The coefficients of the polynomial that has the given values on the powers of `ω`. -/
def interpolate (ys : List Fr) (ω : Fr) : Except Fault (List Fr) := do
  let scale := 1 / Residue.ofNat ys.length
  return (← transform ys (1 / ω)).map (· * scale)

/-- The coefficients of `p (k * x)`, given those of `p`. -/
def shift (cs : List Fr) (k : Fr) : List Fr :=
  cs.zipWith (· * ·) (geometric 1 k cs.length)

@[simp] theorem length_shift (cs : List Fr) (k : Fr) : (shift cs k).length = cs.length := by
  simp [shift]

/-- The values of a polynomial on the powers of `ω` multiplied by `k`. -/
def onCoset (cs : List Fr) (ω k : Fr) : Except Fault (List Fr) :=
  transform (shift cs k) ω

end Snark.Fourier
