import Mathlib.NumberTheory.LucasPrimality
import Mathlib.Tactic.NormNum.Prime
import Snark.Bn254.Field
import Snark.Proofs.Field.Algebra

/-!
# The orders are prime

A number `p` is prime if some number has order `p - 1` modulo `p`, which is checked on the prime
divisors of `p - 1`. The divisors of `scalarOrder - 1` and `baseOrder - 1` that are too large for a
search are treated the same way, down to numbers small enough. So scalars form a field, and
coordinates do.
-/

namespace Snark

namespace Modular

theorem cast_pow_eq_one_iff {p : Nat} (hp : 1 < p) (a n : Nat) :
    (a : ZMod p) ^ n = 1 ↔ power p a n = 1 := by
  rw [power_eq, ← Nat.cast_pow, ← Nat.cast_one, ZMod.natCast_eq_natCast_iff', Nat.mod_eq_of_lt hp]
  rfl

/-- Lucas's test with the prime powers that `p - 1` is the product of: the order of `a` modulo `p`
is no proper divisor of `p - 1`. -/
def Certifies (p a : Nat) (factors : List (Nat.Primes × Nat)) : Prop :=
  1 < p ∧ (factors.map fun f => f.1.val ^ f.2).prod = p - 1 ∧ power p a (p - 1) = 1 ∧
    ∀ f ∈ factors, power p a ((p - 1) / f.1.val) ≠ 1

instance (p a : Nat) (factors : List (Nat.Primes × Nat)) : Decidable (Certifies p a factors) :=
  inferInstanceAs (Decidable (_ ∧ _ ∧ _ ∧ _))

theorem prime_of_certifies {p : Nat} (a : Nat) (factors : List (Nat.Primes × Nat))
    (h : Certifies p a factors) : p.Prime := by
  obtain ⟨hp, product, whole, parts⟩ := h
  refine lucas_primality p a ((cast_pow_eq_one_iff hp _ _).2 whole) ?_
  intro q hq divides
  rw [← product] at divides
  obtain ⟨_, member, divides⟩ := (Prime.dvd_prod_iff hq.prime).1 divides
  obtain ⟨f, hf, rfl⟩ := List.mem_map.1 member
  have : q = f.1.val :=
    (Nat.prime_dvd_prime_iff_eq hq f.1.property).1 (hq.dvd_of_dvd_pow divides)
  rw [this, Ne, cast_pow_eq_one_iff hp]
  exact parts f hf

end Modular

section Certificates

open Snark.Modular

private theorem prime_405928799 : Nat.Prime 405928799 :=
  prime_of_certifies 22
    [(⟨2, by norm_num⟩, 1), (⟨11, by norm_num⟩, 1), (⟨3691, by norm_num⟩, 1),
      (⟨4999, by norm_num⟩, 1)]
    (by decide)

private theorem prime_12048837557 : Nat.Prime 12048837557 :=
  prime_of_certifies 2
    [(⟨2, by norm_num⟩, 2), (⟨7, by norm_num⟩, 2), (⟨661, by norm_num⟩, 1),
      (⟨93001, by norm_num⟩, 1)]
    (by decide)

private theorem prime_5156902474397 : Nat.Prime 5156902474397 :=
  prime_of_certifies 2
    [(⟨2, by norm_num⟩, 2), (⟨107, by norm_num⟩, 1), (⟨12048837557, prime_12048837557⟩, 1)]
    (by decide)

private theorem prime_1670836401704629 : Nat.Prime 1670836401704629 :=
  prime_of_certifies 2
    [(⟨2, by norm_num⟩, 2), (⟨3, by norm_num⟩, 4), (⟨5156902474397, prime_5156902474397⟩, 1)]
    (by decide)

private theorem prime_639533339 : Nat.Prime 639533339 :=
  prime_of_certifies 2
    [(⟨2, by norm_num⟩, 1), (⟨229, by norm_num⟩, 1), (⟨853, by norm_num⟩, 1),
      (⟨1637, by norm_num⟩, 1)]
    (by decide)

private theorem prime_65865678001877903 : Nat.Prime 65865678001877903 :=
  prime_of_certifies 5
    [(⟨2, by norm_num⟩, 1), (⟨83, by norm_num⟩, 1), (⟨379, by norm_num⟩, 1),
      (⟨1637, by norm_num⟩, 1), (⟨639533339, prime_639533339⟩, 1)]
    (by decide)

private theorem prime_13818364434197438864469338081 :
    Nat.Prime 13818364434197438864469338081 :=
  prime_of_certifies 3
    [(⟨2, by norm_num⟩, 5), (⟨5, by norm_num⟩, 1), (⟨823, by norm_num⟩, 1),
      (⟨1593227, by norm_num⟩, 1), (⟨65865678001877903, prime_65865678001877903⟩, 1)]
    (by decide +kernel)

/-- The generator that the roots of unity are powers of shows that the order is prime. -/
theorem scalarOrder_prime : scalarOrder.Prime :=
  prime_of_certifies 5
    [(⟨2, by norm_num⟩, 28), (⟨3, by norm_num⟩, 2), (⟨13, by norm_num⟩, 1),
      (⟨29, by norm_num⟩, 1), (⟨983, by norm_num⟩, 1), (⟨11003, by norm_num⟩, 1),
      (⟨237073, by norm_num⟩, 1), (⟨405928799, prime_405928799⟩, 1),
      (⟨1670836401704629, prime_1670836401704629⟩, 1),
      (⟨13818364434197438864469338081, prime_13818364434197438864469338081⟩, 1)]
    (by decide +kernel)

private theorem prime_11465965001 : Nat.Prime 11465965001 :=
  prime_of_certifies 3
    [(⟨2, by norm_num⟩, 3), (⟨5, by norm_num⟩, 4), (⟨7, by norm_num⟩, 1),
      (⟨327599, by norm_num⟩, 1)]
    (by decide)

private theorem prime_173171039 : Nat.Prime 173171039 :=
  prime_of_certifies 13
    [(⟨2, by norm_num⟩, 1), (⟨73, by norm_num⟩, 1), (⟨89, by norm_num⟩, 1),
      (⟨13327, by norm_num⟩, 1)]
    (by decide)

private theorem prime_1263766531 : Nat.Prime 1263766531 :=
  prime_of_certifies 10
    [(⟨2, by norm_num⟩, 1), (⟨3, by norm_num⟩, 1), (⟨5, by norm_num⟩, 1), (⟨13, by norm_num⟩, 1),
      (⟨911, by norm_num⟩, 1), (⟨3557, by norm_num⟩, 1)]
    (by decide)

private theorem prime_35385462869 : Nat.Prime 35385462869 :=
  prime_of_certifies 2
    [(⟨2, by norm_num⟩, 2), (⟨7, by norm_num⟩, 1), (⟨1263766531, prime_1263766531⟩, 1)]
    (by decide)

private theorem prime_2480874801745591 : Nat.Prime 2480874801745591 :=
  prime_of_certifies 6
    [(⟨2, by norm_num⟩, 1), (⟨3, by norm_num⟩, 2), (⟨5, by norm_num⟩, 1), (⟨19, by norm_num⟩, 1),
      (⟨41, by norm_num⟩, 1), (⟨35385462869, prime_35385462869⟩, 1)]
    (by decide)

private theorem prime_13427688667394608761327070753331941386769 :
    Nat.Prime 13427688667394608761327070753331941386769 :=
  prime_of_certifies 17
    [(⟨2, by norm_num⟩, 4), (⟨3, by norm_num⟩, 1), (⟨7, by norm_num⟩, 1), (⟨11, by norm_num⟩, 1),
      (⟨1853641, by norm_num⟩, 1), (⟨4562087, by norm_num⟩, 1), (⟨173171039, prime_173171039⟩, 1),
      (⟨2480874801745591, prime_2480874801745591⟩, 1)]
    (by decide +kernel)

theorem baseOrder_prime : baseOrder.Prime :=
  prime_of_certifies 3
    [(⟨2, by norm_num⟩, 1), (⟨3, by norm_num⟩, 2), (⟨13, by norm_num⟩, 1), (⟨29, by norm_num⟩, 1),
      (⟨67, by norm_num⟩, 1), (⟨229, by norm_num⟩, 1), (⟨311, by norm_num⟩, 1),
      (⟨983, by norm_num⟩, 1), (⟨11003, by norm_num⟩, 1), (⟨405928799, prime_405928799⟩, 1),
      (⟨11465965001, prime_11465965001⟩, 1),
      (⟨13427688667394608761327070753331941386769,
        prime_13427688667394608761327070753331941386769⟩, 1)]
    (by decide +kernel)

end Certificates

instance : Fact scalarOrder.Prime := ⟨scalarOrder_prime⟩

instance : Fact baseOrder.Prime := ⟨baseOrder_prime⟩

end Snark
