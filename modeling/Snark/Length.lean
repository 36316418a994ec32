import Snark.Fault

/-!
# Lengths

How long a list, a memory or a field of bytes is to be is asked for by an integer. One that does not
fit a signed word of 64 bits is refused whatever it is the length of, and so is one that no memory
has room for. What a negative length means is up to what it is for.
-/

namespace Snark.Length

/-- The first length that does not fit. -/
def bound : Nat := 0x8000000000000000

/-- No memory has room for this many elements. -/
def limit : Nat := 0x10000000000

/-- Whether an integer fits a signed word of 64 bits. -/
def fits (n : Int) : Bool := -(bound : Int) ≤ n && n < bound

/-- Refuses a length that does not fit, or that there is no room for. -/
def check (n : Int) : Except Fault Unit :=
  if !fits n then .error .doesNotFit
  else if limit ≤ n then .error .tooLarge
  else .ok ()

/-- A length as a number, which a negative one is not. -/
def size? (n : Int) : Except Fault Nat := do
  check n
  if n < 0 then throw .negativeWidth
  return n.toNat

/-- A length passes exactly if it fits and there is room for it. -/
theorem check_eq_ok_iff {n : Int} : check n = .ok () ↔ fits n ∧ n < limit := by
  by_cases h : fits n <;> by_cases room : (limit : Int) ≤ n <;> simp [check, h, room]
  omega

/-- A length that passes and is not negative is the number itself. -/
theorem size?_eq_ok {n : Nat} (h : fits n) (room : n < limit) : size? n = .ok n := by
  have nonneg : ¬ (n : Int) < 0 := by omega
  rw [size?, check_eq_ok_iff.2 ⟨h, Int.ofNat_lt.2 room⟩, if_neg nonneg]
  rfl

end Snark.Length
