import Snark.Proofs.Key.File

/-!
# Keys that are stored

A key is written whether or not its parts fit together: its counts and the places of its entries
have to be words, and nothing else is asked. A file that is made in this way and can be read gives
the counts and the entries that it was made of. The points may differ, because one with zero
coordinates is read as the point at infinity.
-/

namespace Snark.KeyFile

open Reading (StandMany)
open Montgomery

section Reading

variable {n : Counts} {e e' : Coefficient} {es es' : List Coefficient} {bs : Bytes}

/-- The bytes of an entry stand for this entry only. -/
theorem StandsEntry.eq (h : StandsEntry n (entryBytes e) e') (place : HasPlace e) : e' = e := by
  obtain ⟨matrix, row, signal, value, same, ⟨matrix_lt, row_lt, signal_lt, -⟩, -, -, -, rfl⟩ := h
  obtain ⟨matrix_word, row_word, signal_word⟩ := place
  rw [entryBytes] at same
  -- All fields but the value are of one width, so they are told apart from the last one on.
  obtain ⟨places, value_eq⟩ := List.append_inj same (by simp)
  obtain ⟨places, signal_eq⟩ := List.append_inj places (by simp)
  obtain ⟨matrix_eq, row_eq⟩ := List.append_inj places (by simp)
  obtain rfl := Bytes.eq_of_ofNat_eq matrix_word.toNat_lt matrix_lt matrix_eq
  obtain rfl := Bytes.eq_of_ofNat_eq row_word.toNat_lt row_lt row_eq
  obtain rfl := Bytes.eq_of_ofNat_eq signal_word.toNat_lt signal_lt signal_eq
  rw [matrix_word.cast_toNat, row_word.cast_toNat, signal_word.cast_toNat, ← value_eq,
    unstored_stored _ scalarOrder_lt_capacity.le]

/-- The bytes of entries stand for these entries only. -/
theorem entries_eq (h : StandMany (StandsEntry n) es'.length (es.flatMap entryBytes) es')
    (count : es.length = es'.length) (places : ∀ e ∈ es, HasPlace e) : es' = es := by
  obtain ⟨blocks, same, each, -⟩ := h
  induction each generalizing es with
  | nil => exact (List.eq_nil_of_length_eq_zero count).symm
  | cons first _ ih =>
    obtain ⟨e, es, rfl⟩ := List.exists_cons_of_length_eq_add_one count
    rw [List.flatMap_cons, List.flatten_cons] at same
    obtain ⟨rfl, rest⟩ := List.append_inj same (by rw [length_entryBytes, first.length_eq])
    obtain ⟨place, places⟩ := List.forall_mem_cons.1 places
    rw [first.eq place, ih (Nat.succ.inj count) places rest]

theorem sizes_eq {m : Counts} (h : fieldsBytes m = fieldsBytes n)
    (hm : m.wires < Bytes.capacity 4 ∧ m.publicSignals < Bytes.capacity 4 ∧
      m.domain < Bytes.capacity 4) (hn : n.Valid) : m = n := by
  obtain ⟨m_wires_lt, m_publicSignals_lt, m_domain_lt⟩ := hm
  have publicSignals_lt := hn.publicSignals_lt.trans hn.wires_lt
  rw [fieldsBytes, fieldsBytes, sizesBytes, sizesBytes, List.append_right_inj] at h
  obtain ⟨wires, h⟩ := List.append_inj h (by simp)
  obtain ⟨publicSignals, domain⟩ := List.append_inj h (by simp)
  obtain ⟨_, _, _⟩ := n
  obtain ⟨_, _, _⟩ := m
  rw [Counts.mk.injEq]
  exact ⟨Bytes.eq_of_ofNat_eq m_wires_lt hn.wires_lt wires,
    Bytes.eq_of_ofNat_eq m_publicSignals_lt publicSignals_lt publicSignals,
    Bytes.eq_of_ofNat_eq m_domain_lt hn.domain_lt domain⟩

end Reading

/-- A key is read from the file of another one. -/
def ReadBack (pk pk' : ProvingKey G1 G2) : Prop :=
  ∃ bytes, write .bn254 pk = .ok bytes ∧ parse .bn254 bytes = .ok pk'

section ReadBack

variable {pk pk' : ProvingKey G1 G2}

/-- The counts and the entries of a key are read back. -/
theorem ReadBack.same (h : ReadBack pk pk') :
    (pk'.wires = pk.wires ∧ pk'.publicSignals = pk.publicSignals ∧ pk'.domain = pk.domain) ∧
      pk'.coefficients = pk.coefficients := by
  obtain ⟨bytes, wrote, read⟩ := h
  obtain ⟨⟨wires, publicSignals, domain⟩, pk_count_lt, places, framed⟩ := write_eq_ok_iff.1 wrote
  obtain ⟨file, k, parsed, describes, rfl⟩ := parse_eq_ok_iff.1 read
  obtain ⟨file', parsed', -, contents⟩ := framed.exists_parse rfl formatVersion_lt nameOf_magic
  cases parsed.symm.trans parsed'
  obtain ⟨-, -, -, tail, consists⟩ := Container.consists_of_parse parsed
  have holds := holds_of_contents consists contents
  -- What was written in a section is what was read there, up to the end of its fixed fields.
  obtain ⟨points, header, -⟩ := describes.header
  obtain ⟨entries, listed, count_lt, stand⟩ := describes.coefficients
  obtain ⟨fields, -⟩ := List.append_inj ((holds 2 (by decide)).unique header) (by simp)
  obtain ⟨count, rfl⟩ := List.append_inj ((holds 4 (by decide)).unique listed) (by simp)
  have counts : (Parts.of pk).counts = k.counts :=
    sizes_eq fields ⟨wires.toNat_lt, publicSignals.toNat_lt, domain.toNat_lt⟩ describes.counts
  have length_eq : pk.coefficients.length = k.coefficients.length :=
    Bytes.eq_of_ofNat_eq pk_count_lt count_lt count
  refine ⟨?_, entries_eq stand length_eq places⟩
  rw [Parts.key, ← counts]
  exact ⟨wires.cast_toNat, publicSignals.cast_toNat, domain.cast_toNat⟩

/-- A well-formed key is read back. -/
theorem readBack_self (h : pk.WellFormed) : ReadBack pk pk := by
  refine ⟨fileBytes (.of pk), ?_, ?_⟩
  · rw [← write_eq (Parts.valid_of h), Parts.key_of h]
  · rw [parse_fileBytes (Parts.valid_of h), Parts.key_of h]

end ReadBack

end Snark.KeyFile
