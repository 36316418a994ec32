import Snark.Proofs.Bn254.Curve
import Snark.Proofs.Groth16.Scalars
import Snark.Proofs.Key.File
import Snark.Proofs.System.File

/-!
# Keys that the setup makes can be stored

The setup makes a well-formed key of every system that is read from a file, whatever its secrets
are: all points are multiples of the generators, and the domain has a row for every entry. So the
key has a file and is read back from it.
-/

namespace Snark

theorem ConstraintSystem.Storable.wellFormed {s : ConstraintSystem} (h : s.Storable) :
    s.WellFormed where
  publicSignals_nonneg := Int.add_nonneg h.publicOutputs.1 h.publicInputs.1
  publicWires_le := by
    have := h.signals_le
    have := h.privateInputs.1
    rw [publicWires, publicSignals]
    omega
  inRange := h.inRange

namespace Groth16

open CurveGroup

section Coefficients

variable {s : ConstraintSystem} {n : Nat} {e : Coefficient}

/-- The number of the terms of the first two combinations of all constraints. -/
def termCount (s : ConstraintSystem) : Nat :=
  (s.constraints.map fun k => k.a.length + k.b.length).sum

theorem length_coefficients (s : ConstraintSystem) :
    (coefficients s).length = termCount s + (s.publicSignals + 1).toNat := by
  have rows : (s.constraints.zipIdx.map fun entry => (rowEntries entry.2 entry.1).length).sum =
      termCount s := by
    have each : (s.constraints.zipIdx.map fun entry => (rowEntries entry.2 entry.1).length) =
        (s.constraints.zipIdx.map Prod.fst).map fun k => k.a.length + k.b.length := by
      rw [List.map_map]
      refine List.map_congr_left fun entry _ => ?_
      show (rowEntries entry.2 entry.1).length = entry.1.a.length + entry.1.b.length
      rw [rowEntries, List.length_append, List.length_map, List.length_map]
    rw [each, List.zipIdx_map_fst, termCount]
  rw [coefficients, List.length_append, List.length_flatMap, List.length_map, List.length_range,
    ← rows]

theorem matrix_of_mem (he : e ∈ coefficients s) : e.matrix = 0 ∨ e.matrix = 1 := by
  obtain inRows | inPublic := List.mem_append.1 he
  · obtain ⟨⟨k, row⟩, -, inRow⟩ := List.mem_flatMap.1 inRows
    obtain inA | inB := List.mem_append.1 inRow
    · obtain ⟨t, -, rfl⟩ := List.mem_map.1 inA
      exact .inl rfl
    · obtain ⟨t, -, rfl⟩ := List.mem_map.1 inB
      exact .inr rfl
  · obtain ⟨wire, -, rfl⟩ := List.mem_map.1 inPublic
    exact .inl rfl

theorem valid_of_mem (hs : s.WellFormed) (hn : rowCount s ≤ n) (he : e ∈ coefficients s) :
    e.Valid n s.wires :=
  ⟨matrix_of_mem he, mem_coefficients hs hn he⟩

/-- The size of the domain is the least power of two with a row for every constraint and every
public wire. -/
theorem exists_domainSize_iff (hs : s.WellFormed) : ∃ k, domainSize s = 2 ^ k ∧
    ∀ j : Nat, s.constraints.length + s.publicSignals + 1 ≤ 2 ^ j ↔ k ≤ j := by
  have nonneg := hs.publicSignals_nonneg
  obtain ⟨k, size, enough, least⟩ := exists_domainSize (s := s) (by omega)
  refine ⟨k, size, fun j => ?_⟩
  have rows : (s.constraints.length : Int) + s.publicSignals + 1 = rowCount s := by
    rw [rowCount]
    omega
  have cast : s.constraints.length + s.publicSignals + 1 ≤ 2 ^ j ↔ rowCount s ≤ 2 ^ j := by
    rw [rows]
    exact_mod_cast Iff.rfl
  rw [cast]
  constructor
  · intro fits
    exact least j fits
  · intro le
    exact enough.trans (Nat.pow_le_pow_right Nat.two_pos le)

end Coefficients

section Points

variable {G₁ G₂ : Type} [CurveGroup G₁] [CurveGroup G₂] {s : ConstraintSystem} {secrets : Secrets}
  {k : Nat}

/-- All points of a key in the first group are multiples of the generator. -/
theorem exists_of_mem_curvePoints {p : G₁} (hp : p ∈ (keyOf G₁ G₂ s secrets k).curvePoints) :
    ∃ c : Fr, p = ofScalar c := by
  let scalars := [secrets.alpha, secrets.beta, secrets.delta] ++
    ((mixtures s secrets k).take s.publicWires.toNat).map (· / secrets.gamma) ++
    (secretColumns s secrets k).u ++ (secretColumns s secrets k).v ++
    ((mixtures s secrets k).drop s.publicWires.toNat).map (· / secrets.delta) ++
    oddScalars secrets k
  have same : (keyOf G₁ G₂ s secrets k).curvePoints = scalars.map ofScalar := by
    simp only [scalars, List.map_append]
    rfl
  rw [same] at hp
  obtain ⟨c, -, rfl⟩ := List.mem_map.1 hp
  exact ⟨c, rfl⟩

theorem exists_of_mem_twistPoints {p : G₂} (hp : p ∈ (keyOf G₁ G₂ s secrets k).twistPoints) :
    ∃ c : Fr, p = ofScalar c := by
  have same : (keyOf G₁ G₂ s secrets k).twistPoints =
      ([secrets.beta, secrets.gamma, secrets.delta] ++ (secretColumns s secrets k).v).map
        ofScalar := by
    rw [List.map_append]
    rfl
  rw [same] at hp
  obtain ⟨c, -, rfl⟩ := List.mem_map.1 hp
  exact ⟨c, rfl⟩

theorem length_secretColumns (s : ConstraintSystem) (secrets : Secrets) (k : Nat) :
    (secretColumns s secrets k).u.length = s.wires.toNat ∧
      (secretColumns s secrets k).v.length = s.wires.toNat := by
  rw [secretColumns, columnsOf]
  exact ⟨length_sums _ _, length_sums _ _⟩

theorem length_mixtures (s : ConstraintSystem) (secrets : Secrets) (k : Nat) :
    (mixtures s secrets k).length = s.wires.toNat := by
  rw [mixtures, List.length_map, List.length_range]

theorem length_oddScalars (secrets : Secrets) (k : Nat) :
    (oddScalars secrets k).length = 2 ^ k := by
  rw [oddScalars, List.length_map, List.length_range]

end Points

section Keys

variable [CurveGroup G1] [CurveGroup G2] {s : ConstraintSystem} {secrets : Secrets} {k : Nat}

/-- The key of a system that is not too large is well-formed if the multiples of the generators are
on their curves. -/
theorem keyOf_wellFormed (h₁ : ∀ n, Bn254.isOnCurve (multiple n (generator : G1)) = true)
    (h₂ : ∀ n, Bn254.isOnTwist (multiple n (generator : G2)) = true) (hs : s.WellFormed)
    (wires_lt : s.wires < 2 ^ 32) (hk : k < 32) (hn : rowCount s ≤ 2 ^ k)
    (count : (coefficients s).length < 2 ^ 32) : (keyOf G1 G2 s secrets k).WellFormed where
  on_curve := by
    intro p hp
    obtain ⟨c, rfl⟩ := exists_of_mem_curvePoints hp
    exact h₁ c.val
  on_twist := by
    intro p hp
    obtain ⟨c, rfl⟩ := exists_of_mem_twistPoints hp
    exact h₂ c.val
  publicSignals_nonneg := hs.publicSignals_nonneg
  publicSignals_lt := by
    have := hs.publicWires_le
    rw [ConstraintSystem.publicWires] at this
    change s.publicSignals < s.wires
    omega
  wires_lt := wires_lt
  domain_eq := ⟨k, hk, by simp [keyOf]⟩
  length_inputs := by
    have := hs.publicSignals_nonneg
    have := hs.publicWires_le
    rw [keyOf]
    dsimp only
    rw [List.length_map, List.length_map, List.length_take, length_mixtures]
    rw [ConstraintSystem.publicWires] at *
    omega
  length_a := by
    rw [keyOf, List.length_map, (length_secretColumns s secrets k).1]
    exact Int.toNat_of_nonneg hs.wires_nonneg
  length_b₁ := by
    rw [keyOf, List.length_map, (length_secretColumns s secrets k).2]
    exact Int.toNat_of_nonneg hs.wires_nonneg
  length_b₂ := by
    rw [keyOf, List.length_map, (length_secretColumns s secrets k).2]
    exact Int.toNat_of_nonneg hs.wires_nonneg
  length_l := by
    have := hs.publicSignals_nonneg
    have := hs.publicWires_le
    rw [keyOf]
    dsimp only
    rw [List.length_map, List.length_map, List.length_drop, length_mixtures]
    rw [ConstraintSystem.publicWires] at *
    omega
  length_h := by
    rw [keyOf, List.length_map, length_oddScalars]
  length_coefficients := count
  coefficients_valid e he := valid_of_mem hs hn he
  q_eq := rfl
  r_eq := rfl
  baseWidth_eq := rfl
  scalarWidth_eq := rfl

/-- A key that is made of a system that was read is read back from its file, whatever the secrets
are. -/
theorem setup_stored (h₁ : ∀ n, Bn254.isOnCurve (multiple n (generator : G1)) = true)
    (h₂ : ∀ n, Bn254.isOnTwist (multiple n (generator : G2)) = true) {data : Bytes}
    (read : ConstraintSystem.parse .bn254 data = .ok s) (hsize : domainSize s ≤ 2 ^ 27)
    (count : termCount s + (s.publicSignals + 1).toNat < 2 ^ 32) (secrets : Secrets) :
    ∃ pk : ProvingKey G1 G2, ∃ bytes, setup s secrets = .ok pk ∧
      KeyFile.write .bn254 pk = .ok bytes ∧ KeyFile.parse .bn254 bytes = .ok pk ∧
      pk.WellFormed ∧ pk.wires = s.wires ∧ pk.publicSignals = s.publicSignals ∧
      ∃ k, pk.domain = 2 ^ k ∧
        ∀ j : Nat, s.constraints.length + s.publicSignals + 1 ≤ 2 ^ j ↔ k ≤ j := by
  obtain ⟨sections, tail, parts, file, rfl⟩ := ConstraintSystem.parse_eq_ok_iff.1 read
  have storable := file.valid.storable
  have hs := storable.wellFormed
  obtain ⟨k, size, least⟩ := exists_domainSize_iff hs
  obtain ⟨k', hk, size', hn⟩ := exists_exponent hs hsize
  obtain rfl : k' = k := Nat.pow_right_injective (le_refl 2) (size'.symm.trans size)
  rw [← length_coefficients] at count
  let pk := keyOf G1 G2 parts.system secrets k'
  have wellFormed : pk.WellFormed :=
    keyOf_wellFormed h₁ h₂ hs storable.wires_lt (by omega) hn count
  have valid := KeyFile.Parts.valid_of wellFormed
  have written : KeyFile.write .bn254 pk = .ok (KeyFile.fileBytes (.of pk)) := by
    rw [← KeyFile.write_eq valid, KeyFile.Parts.key_of wellFormed]
  have stored : KeyFile.parse .bn254 (KeyFile.fileBytes (.of pk)) = .ok pk := by
    rw [KeyFile.parse_fileBytes valid, KeyFile.Parts.key_of wellFormed]
  have domain : pk.domain = 2 ^ k' := by simp [pk, keyOf]
  exact ⟨pk, _, setup_eq hs hk size hn, written, stored, wellFormed, rfl, rfl, k', domain, least⟩

end Keys

/-- The key of the multiplier for worthless secrets is read back from its file. -/
theorem setup_stored_multiplier : ∃ pk : ProvingKey G1 G2, ∃ bytes,
    setup .multiplier ⟨1, 0, 0, 0, 0⟩ = .ok pk ∧ KeyFile.write .bn254 pk = .ok bytes ∧
      KeyFile.parse .bn254 bytes = .ok pk := by
  have read : ConstraintSystem.parse .bn254
      (ConstraintSystem.fileBytes (.of .multiplier)) = .ok .multiplier := by
    have storable := ConstraintSystem.storable_multiplier
    rw [ConstraintSystem.parse_fileBytes storable.valid_of, storable.system_of]
    rw [storable.system_of]
    decide
  obtain ⟨pk, bytes, made, written, stored, -⟩ := setup_stored Bn254.isOnCurve_multiple
    Bn254.isOnTwist_multiple read (by decide) (by decide) ⟨1, 0, 0, 0, 0⟩
  exact ⟨pk, bytes, made, written, stored⟩

end Groth16

end Snark
