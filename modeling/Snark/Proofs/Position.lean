import Snark.Position

/-!
# Positions inside a list

A position from zero up to the length of a list names the element with that index.
-/

namespace Snark.Position

variable {α : Type} {xs : List α} {i : Int}

theorem get_eq_getD (d : α) (h₀ : 0 ≤ i) (h : i < xs.length) :
    get xs i = .ok (xs.getD i.toNat d) := by
  have inside : i.toNat < xs.length := by omega
  simp [get, index?_of_nonneg h₀ h, List.getD_eq_getElem?_getD, inside]

theorem find_eq {length : Nat} (h₀ : 0 ≤ i) (h : i < length) : find length i = .ok i.toNat := by
  rw [find, index?_of_nonneg h₀ h]

/-- From a position inside the list on, the elements are those that dropping leaves. -/
theorem suffix_eq_drop {start : Nat} (h : start ≤ xs.length) : suffix xs start = xs.drop start := by
  have : ¬ (start : Int) < 0 := by omega
  rw [suffix, bound, if_neg this, Int.toNat_natCast, Nat.min_eq_left h]

/-- Between two positions inside the list, the first not behind the second, are the elements that
dropping and taking leave. -/
theorem slice_eq_take_drop {start stop : Nat} (order : start ≤ stop) (h : stop ≤ xs.length) :
    slice xs start stop = (xs.drop start).take (stop - start) := by
  have inside {k : Nat} (hk : k ≤ xs.length) : bound xs.length k = k := by
    have : ¬ (k : Int) < 0 := by omega
    rw [bound, if_neg this, Int.toNat_natCast, Nat.min_eq_left hk]
  rw [slice, inside h, inside (Nat.le_trans order h), List.drop_take]

end Snark.Position
