import Snark.Proofs.Groth16.Strict
import Snark.Proofs.Key.File

/-!
# Keys that are read can be used

What is checked while a key is read is what the prover relies on. Every entry of the key names a row
of the domain and a wire, and every list of points is as long as the list of scalars that it is
combined with. The strict prover, which fails where the prover would leave something out, therefore
succeeds with such a key. Besides a witness of another length, only a domain too large for a root of
unity of twice its order is refused.
-/

namespace Snark

theorem KeyFile.wellFormed_of_parse {data : Bytes} {pk : ProvingKey G1 G2}
    (parsed : parse .bn254 data = .ok pk) : pk.WellFormed := by
  obtain ⟨file, k, -, describes, rfl⟩ := parse_eq_ok_iff.1 parsed
  exact describes.valid.wellFormed

namespace Groth16

/-- A power of two beyond the largest one has no root of unity. -/
theorem rootOfUnity_eq_error {k : Nat} (hk : 28 < k) :
    rootOfUnity ((2 ^ k : Nat) : Int) = .error (.pastTwoAdicity ((2 ^ k : Nat) : Int)) := by
  have positive : ¬ ((2 ^ k : Nat) : Int) < 1 := by
    have := Nat.two_pow_pos k
    omega
  have large : maxDomain < 2 ^ k :=
    (Nat.pow_lt_pow_right (by decide) hk : 2 ^ 28 < 2 ^ k)
  rw [rootOfUnity, Int.toNat_natCast, isPowerOfTwo_two_pow]
  simp only [positive, large, Bool.not_true, Bool.or_false, decide_false, Bool.false_eq_true,
    if_false, if_true]

section Keys

variable {pk : ProvingKey G1 G2} {w : List Fr}

/-- The exponent of the domain of a well-formed key says whether there is a root of unity of twice
its order. -/
theorem exists_domain_eq (h : pk.WellFormed) :
    ∃ k, pk.domain = ((2 ^ k : Nat) : Int) ∧ (pk.domain ≤ 2 ^ 27 ↔ k < 28) := by
  obtain ⟨k, -, size⟩ := h.domain_eq
  have domain : pk.domain = ((2 ^ k : Nat) : Int) := by
    rw [size]
    push_cast
    rfl
  have cast : pk.domain ≤ 2 ^ 27 ↔ 2 ^ k ≤ 2 ^ 27 := by
    rw [domain]
    exact_mod_cast Iff.rfl
  have order : 2 ^ k ≤ 2 ^ 27 ↔ k < 28 :=
    (Nat.pow_le_pow_iff_right Nat.one_lt_two).trans Nat.lt_succ_iff.symm
  exact ⟨k, domain, cast.trans order⟩

/-- The strict prover finds the quotient of a key whose entries are all in range. -/
theorem Strict.exists_quotient {k : Nat} (hk : k < 28) (domain : pk.domain = (2 ^ k : Nat))
    (inRange : ∀ e ∈ pk.coefficients, e.InRange (2 ^ k : Nat) w.length) :
    ∃ q, Strict.quotient pk w = .ok q ∧ q.length = 2 ^ k := by
  obtain ⟨length_a, length_b, length_c⟩ := length_rowsOf (2 ^ k) pk.coefficients w
  have size : pk.domain.toNat = 2 ^ k := by rw [domain, Int.toNat_natCast]
  have made : Strict.rows pk w = .ok (rowsOf pk.domain.toNat pk.coefficients w) :=
    Strict.rows_eq (by rwa [size])
  rw [size] at made
  rw [Strict.quotient, made, domain, two_mul_two_pow, rootOfUnity_two_pow hk.le, Except.ok_bind,
    rootOfUnity_two_pow hk, Except.ok_bind, Except.ok_bind, toOddCoset_eq hk length_a,
    Except.ok_bind, toOddCoset_eq hk length_b, Except.ok_bind, toOddCoset_eq hk length_c,
    Except.ok_bind, Strict.pairs_eq (by simp), Except.ok_bind, Strict.pairs_eq (by simp)]
  exact ⟨_, rfl, by simp⟩

/-- There is no quotient over a domain without a root of unity of twice its order. -/
theorem quotient_eq_error (h : pk.WellFormed) (hsize : 2 ^ 27 < pk.domain) :
    ∃ n, quotient pk w = .error (.pastTwoAdicity n) := by
  obtain ⟨k, domain, small⟩ := exists_domain_eq h
  have hk : ¬ k < 28 := fun below => hsize.not_ge (small.2 below)
  rw [quotient, domain, two_mul_two_pow]
  -- At the largest root of unity only the doubled domain is refused, beyond it both are.
  obtain larger | rfl : 28 < k ∨ k = 28 := by omega
  · rw [rootOfUnity_eq_error larger]
    exact ⟨_, rfl⟩
  · rw [rootOfUnity_two_pow le_rfl, Except.ok_bind, rootOfUnity_eq_error (Nat.lt_succ_self 28)]
    exact ⟨_, rfl⟩

variable [CurveGroup G1] [CurveGroup G2]

/-- The lists of a well-formed key fit values for all of its wires: the strict prover succeeds, if
there is a root of unity of twice the order of the domain. -/
theorem Strict.exists_prove (h : pk.WellFormed) (hw : (w.length : Int) = pk.wires)
    (hsize : pk.domain ≤ 2 ^ 27) (r s : Fr) : ∃ proof, Strict.prove pk w r s = .ok proof := by
  obtain ⟨k, domain, small⟩ := exists_domain_eq h
  have inRange : ∀ e ∈ pk.coefficients, e.InRange (2 ^ k : Nat) w.length := by
    intro e he
    rw [← domain, hw]
    exact (h.coefficients_valid e he).2
  obtain ⟨q, quotient, length_q⟩ := Strict.exists_quotient (small.1 hsize) domain inRange
  have nonneg := h.publicSignals_nonneg
  have below := h.publicSignals_lt
  have ofQuotient : q.length = pk.h.length := by
    have := h.length_h
    omega
  have ofA : w.length = pk.a.length := by
    have := h.length_a
    omega
  have ofB₁ : w.length = pk.b₁.length := by
    have := h.length_b₁
    omega
  have ofB₂ : w.length = pk.b₂.length := by
    have := h.length_b₂
    omega
  have ofL : (w.drop (pk.publicSignals.toNat + 1)).length = pk.l.length := by
    have := h.length_l
    rw [List.length_drop]
    omega
  rw [Strict.prove, quotient, Except.ok_bind, Strict.combination_eq ofQuotient, Except.ok_bind,
    Strict.combination_eq ofA, Except.ok_bind, Strict.combination_eq ofB₂, Except.ok_bind,
    Strict.combination_eq ofB₁, Except.ok_bind, Strict.privateValues,
    if_pos ⟨nonneg, by omega⟩, Except.ok_bind, Strict.combination_eq ofL, Except.ok_bind]
  exact ⟨_, rfl⟩

/-- A key that was read makes a proof of any values of its wires, which is the one that the
strict prover makes. It is refused only for values of another number, and for a domain that is
too large. -/
theorem prove_parsed {data : Bytes} (parsed : KeyFile.parse .bn254 data = .ok pk)
    (values : List Int) (r s : Int) :
    ((values.length : Int) ≠ pk.wires →
      prove pk (values.map Residue.ofInt) (.ofInt r) (.ofInt s) =
        .error (.length (.assignment values.length pk.wires))) ∧
    ((values.length : Int) = pk.wires → 2 ^ 27 < pk.domain →
      ∃ e : Fault, prove pk (values.map Residue.ofInt) (.ofInt r) (.ofInt s) = .error (.fault e) ∧
        e.kind = .value) ∧
    ((values.length : Int) = pk.wires → pk.domain ≤ 2 ^ 27 →
      ∃ proof, prove pk (values.map Residue.ofInt) (.ofInt r) (.ofInt s) = .ok proof ∧
        Strict.prove pk (values.map Residue.ofInt) (.ofInt r) (.ofInt s) = .ok proof) := by
  have wellFormed := KeyFile.wellFormed_of_parse parsed
  have length : (values.map Residue.ofInt : List Fr).length = values.length := List.length_map _
  refine ⟨?_, ?_, ?_⟩
  · intro other
    rw [prove, length, if_neg other]
  · intro same large
    obtain ⟨n, refused⟩ := quotient_eq_error (w := values.map Residue.ofInt) wellFormed large
    refine ⟨.pastTwoAdicity n, ?_, rfl⟩
    rw [prove, length, if_pos same, proveValues, refused]
    rfl
  · intro same small
    obtain ⟨proof, strict⟩ :=
      Strict.exists_prove wellFormed (length ▸ same) small (.ofInt r) (.ofInt s)
    refine ⟨proof, ?_, strict⟩
    rw [prove, length, if_pos same, Strict.proveValues_of_strict strict]
    rfl

end Keys

/-- A key with entries in both matrices and points at infinity makes a proof of values that are no
least representatives. -/
theorem prove_parsed_sampleKey : ∃ data proof,
    KeyFile.parse .bn254 data = .ok KeyFile.sampleKey ∧
    prove KeyFile.sampleKey (([1, 6, -2] : List Int).map Residue.ofInt) (.ofInt 7)
      (.ofInt (-8)) = .ok proof ∧
    Strict.prove KeyFile.sampleKey (([1, 6, -2] : List Int).map Residue.ofInt) (.ofInt 7)
      (.ofInt (-8)) = .ok proof := by
  have parsed : KeyFile.parse .bn254 (KeyFile.fileBytes (.of KeyFile.sampleKey)) =
      .ok KeyFile.sampleKey := by
    have wellFormed := KeyFile.sampleKey_wellFormed
    rw [KeyFile.parse_fileBytes (KeyFile.Parts.valid_of wellFormed),
      KeyFile.Parts.key_of wellFormed]
  obtain ⟨-, -, succeeds⟩ := prove_parsed parsed [1, 6, -2] 7 (-8)
  obtain ⟨proof, proved, strict⟩ := succeeds (by decide) (by decide)
  exact ⟨_, proof, parsed, proved, strict⟩

end Groth16

end Snark
