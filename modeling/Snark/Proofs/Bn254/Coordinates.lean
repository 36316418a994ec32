import Mathlib.Tactic.SplitIfs
import Snark.Bn254.Pairing
import Snark.Failure

/-!
# Points and their coordinates

Formats that have no sign for the point at infinity give it coordinates of zero. Zeros are on
neither curve, so a point of a curve is known by its coordinates, and a pair of coordinates is that
of a point exactly if it is zero or on the curve.
-/

namespace Snark

namespace Point

variable {F α : Type} {on : Point F → Bool} {coordinates : Point F → α}

/-- Points of a curve are told apart by what is kept of their coordinates. -/
structure KnownBy (on : Point F → Bool) (coordinates : Point F → α) : Prop where
  infinity_on : on .infinity = true
  zero_off : ∀ x y, on (.affine x y) = true → coordinates (.affine x y) ≠ coordinates .infinity
  affine_inj : ∀ x y x' y', coordinates (.affine x y) = coordinates (.affine x' y') →
    (.affine x y : Point F) = .affine x' y'

/-- Whatever tells pairs of coordinates apart tells points apart, if infinity has the coordinates of
zeros and these are off the curve. -/
theorem KnownBy.of_pair [Zero F] {pair : F → F → α} (infinity_on : on .infinity = true)
    (zero_off : on (.affine 0 0) = false) (infinity : coordinates .infinity = pair 0 0)
    (affine : ∀ x y, coordinates (.affine x y) = pair x y)
    (inj : ∀ x y x' y', pair x y = pair x' y' → x = x' ∧ y = y') : KnownBy on coordinates where
  infinity_on := infinity_on
  zero_off x y hp same := by
    rw [affine, infinity] at same
    obtain ⟨rfl, rfl⟩ := inj _ _ _ _ same
    cases zero_off.symm.trans hp
  affine_inj x y x' y' same := by
    rw [affine, affine] at same
    obtain ⟨rfl, rfl⟩ := inj _ _ _ _ same
    rfl

namespace KnownBy

variable (known : KnownBy on coordinates) {x y : F} {p : Point F}
include known

/-- Infinity is the only point with the coordinates of infinity. -/
theorem eq_infinity_iff (hp : on p = true) :
    coordinates p = coordinates .infinity ↔ p = .infinity := by
  cases p with
  | infinity => exact iff_of_true rfl rfl
  | affine x y => exact iff_of_false (known.zero_off x y hp) fun h => by cases h

theorem on_and_eq_infinity_iff :
    on p = true ∧ coordinates p = coordinates .infinity ↔ p = .infinity := by
  constructor
  · rintro ⟨hp, same⟩
    exact (known.eq_infinity_iff hp).1 same
  · rintro rfl
    exact ⟨known.infinity_on, rfl⟩

/-- Coordinates that are not those of infinity belong to no other point than their own. -/
theorem eq_affine_iff (finite : coordinates (.affine x y) ≠ coordinates .infinity) :
    coordinates p = coordinates (.affine x y) ↔ p = .affine x y := by
  constructor
  · intro same
    cases p with
    | infinity => exact absurd same.symm finite
    | affine x' y' => exact known.affine_inj _ _ _ _ same
  · rintro rfl
    rfl

/-- Reading coordinates finds the point of the curve that has them. -/
theorem read_eq_ok_iff {e : Failure} {zero : Bool}
    (hzero : zero = true ↔ coordinates (.affine x y) = coordinates .infinity) :
    (if zero then .ok .infinity
      else if on (.affine x y) then .ok (.affine x y) else .error e : Result (Point F)) = .ok p ↔
      on p = true ∧ coordinates p = coordinates (.affine x y) := by
  by_cases h : zero = true
  · rw [if_pos h, hzero.1 h, Except.ok.injEq]
    constructor
    · rintro rfl
      exact ⟨known.infinity_on, rfl⟩
    · rintro ⟨hp, same⟩
      exact ((known.eq_infinity_iff hp).1 same).symm
  · rw [if_neg h, known.eq_affine_iff (mt hzero.2 h)]
    constructor
    · intro found
      split_ifs at found with hq
      cases found
      exact ⟨hq, rfl⟩
    · rintro ⟨hp, rfl⟩
      rw [if_pos hp]

/-- Coordinates belong to a point of the curve exactly if they are those of infinity or lie on the
curve. -/
theorem exists_on_iff :
    (∃ p, on p = true ∧ coordinates p = coordinates (.affine x y)) ↔
      coordinates (.affine x y) = coordinates .infinity ∨ on (.affine x y) = true := by
  by_cases zero : coordinates (.affine x y) = coordinates .infinity
  · exact iff_of_true ⟨.infinity, known.infinity_on, zero.symm⟩ (.inl zero)
  · simp only [known.eq_affine_iff zero, exists_eq_right, zero, false_or]

end KnownBy

end Point

namespace Bn254

theorem isOnCurve_zero : isOnCurve (.affine 0 0) = false := by decide

theorem isOnTwist_zero : isOnTwist (.affine 0 0) = false := by decide +kernel

end Bn254

end Snark
