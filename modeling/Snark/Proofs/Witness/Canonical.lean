import Snark.Program.Module
import Snark.Proofs.Witness.Sample

/-!
# The range of a witness

A calculator trusts nothing that it finds in the memory of a program: a slot may hold any two words
and any limbs, and the value that is read from it is still the least representative of its residue.
So every witness has as many values as the program says it has, each of them below the prime.
-/

namespace Snark

namespace Module

variable {host : Host Instance} {m n : Machine Instance}

/-- The result of a function is a word. -/
theorem call_nonneg {mod : Module} {name : Text} {arguments : List Int} {r : Int}
    (called : mod.call host name arguments m = (.ok (some r), n)) : 0 ≤ r := by
  rw [call] at called
  generalize mod.functions.find? _ = found at called
  cases found with
  | none => cases called
  | some f =>
    dsimp only at called
    split at called
    · obtain ⟨_, _, impossible, -⟩ := Run.bind_eq_ok_iff.1 called
      cases impossible
    · obtain ⟨result, _, -, mapped⟩ := Run.bind_eq_ok_iff.1 called
      cases result with
      | none => cases mapped
      | some w =>
        cases mapped
        exact Int.natCast_nonneg _

/-- A module never has a negative number of values. -/
theorem witnessSize_nonneg (mod : Module) {count : Int}
    (asked : (mod.exports host).witnessSize m = (.ok count, n)) : 0 ≤ count := by
  obtain ⟨result, _, called, given⟩ := Run.bind_eq_ok_iff.1 asked
  cases result with
  | none => cases given
  | some r =>
    cases given
    exact call_nonneg called

end Module

namespace Witness.Calculator

variable {σ : Type} {k : Calculator σ}

/-- A slot is read as a least representative. -/
theorem readSlot_mem_range {s : Slots σ} (large : (Slot.shortBound : Int) ≤ s.codec.prime)
    {address v : Int} {m n : Machine σ} (read : s.readSlot address m = (.ok v, n)) :
    0 ≤ v ∧ v < s.codec.prime := by
  obtain ⟨bs, _, -, decoded⟩ := Run.bind_eq_ok_iff.1 read
  exact Slot.Codec.decode_mem_range large (Run.ofFault_eq_ok_iff.1 decoded).1

/-- As many values are read as are asked for, each of them a least representative. -/
theorem readValues_mem_range (large : (Slot.shortBound : Int) ≤ k.codec.prime) {count index : Nat}
    {m n : Machine σ} {vs : List Int} (read : k.readValues count index m = (.ok vs, n)) :
    vs.length = count ∧ ∀ v ∈ vs, 0 ≤ v ∧ v < k.codec.prime := by
  induction count generalizing index m vs with
  | zero =>
    cases read
    exact ⟨rfl, List.forall_mem_nil _⟩
  | succ count ih =>
    obtain ⟨address, _, -, read⟩ := Run.bind_eq_ok_iff.1 read
    obtain ⟨v, _, first, read⟩ := Run.bind_eq_ok_iff.1 read
    obtain ⟨rest, _, others, given⟩ := Run.bind_eq_ok_iff.1 read
    cases given
    obtain ⟨length, each⟩ := ih others
    exact ⟨congrArg (· + 1) length,
      List.forall_mem_cons.2 ⟨readSlot_mem_range (s := k.slots) large first, each⟩⟩

/-- The program has `count` values when it has been run on some inputs: the cursor can be read, the
run succeeds, and the program is asked then. -/
def Counts (k : Calculator σ) (inputs : Inputs) (sanity : Bool) (m : Machine σ) (count : Int) :
    Prop :=
  ∃ start m₁ m₂ m₃, k.slots.cursor m = (.ok start, m₁) ∧ k.run inputs sanity m₁ = (.ok (), m₂) ∧
    k.exports.witnessSize m₂ = (.ok count, m₃)

/-- A witness is read after the run is over: as many values as the program has then, each of them a
least representative. -/
theorem witness_mem_range (large : (Slot.shortBound : Int) ≤ k.codec.prime) {inputs : Inputs}
    {sanity : Bool} {m n : Machine σ} {ws : List Int}
    (returned : k.witness inputs sanity m = (.ok ws, n)) :
    ∃ count, k.Counts inputs sanity m count ∧ ws.length = count.toNat ∧
      ∀ w ∈ ws, 0 ≤ w ∧ w < k.codec.prime := by
  rw [witness_eq, keepingCursor] at returned
  obtain ⟨start, m₁, cursor, ensured⟩ := Run.bind_eq_ok_iff.1 returned
  obtain ⟨last, body, -⟩ := Run.ensuring_eq_ok_iff.1 ensured
  obtain ⟨_, m₂, ran, collected⟩ := Run.bind_eq_ok_iff.1 body
  obtain ⟨count, m₃, asked, read⟩ := Run.bind_eq_ok_iff.1 collected
  exact ⟨count, ⟨start, m₁, m₂, m₃, cursor, ran, asked⟩, readValues_mem_range large read⟩

/-- What a calculator returns is canonical, whatever the program has written.

A layout of slots for an odd prime from `2 ^ 31` on reads any bytes with room for a header as a
least representative, and refuses only a long slot without all of its limbs. A program that is
accepted has the scalar field for its field; if its memory gives the bytes that are asked for, a
slot has eight limbs or more, and room for the prime. A witness has as many values as the program
has when the run is over, all of them least representatives, and where the program is a module that
number is not negative. -/
theorem witness_canonical :
    (∀ prime limbs : Nat, Odd prime → 2 ^ 31 ≤ prime → 1 ≤ limbs →
      ∃ c, Slot.Codec.make prime limbs = .ok c ∧ ∀ bs : Bytes, 8 ≤ bs.length →
        ((∃ e, c.decode bs = .error e) ↔ Slot.IsLong bs ∧ bs.length < limbs * 4 + 8) ∧
        (∀ e, c.decode bs = .error e → e.kind = .value) ∧
        (∀ v, c.decode bs = .ok v → 0 ≤ v ∧ v < prime)) ∧
    (∀ (σ : Type) (sandbox : Sandbox σ) (observed : List NoticeKind) (sanity : Bool)
        (k : Calculator σ) (m₀ m₁ : Machine σ),
      make sandbox .bn254 observed sanity m₀ = (.ok k, m₁) →
        (sandbox.memory.ReadsInFull →
          8 ≤ k.codec.limbs ∧ scalarOrder < 2 ^ (32 * k.codec.limbs)) ∧
        ∀ (inputs : Inputs) (check : Bool) (m n : Machine σ) (ws : List Int),
          k.witness inputs check m = (.ok ws, n) →
            ∃ count, k.Counts inputs check m count ∧ ws.length = count.toNat ∧
              ∀ w ∈ ws, 0 ≤ w ∧ w < scalarOrder) ∧
    (∀ (mod : Module) (host : Host Module.Instance) (m n : Machine Module.Instance) (count : Int),
      (mod.exports host).witnessSize m = (.ok count, n) → 0 ≤ count) := by
  refine ⟨fun prime limbs => Slot.Codec.make_canonical, ?_, fun mod _ _ _ _ =>
    mod.witnessSize_nonneg⟩
  intro σ sandbox observed sanity k m₀ m₁ made
  have drives := drives_of_make made
  refine ⟨drives.limbs_of_bn254, fun inputs check m n ws returned => ?_⟩
  have prime : k.codec.prime = (scalarOrder : Int) := drives.prime
  have large : (Slot.shortBound : Int) ≤ k.codec.prime := by
    rw [prime]
    decide
  have found := witness_mem_range large returned
  rwa [prime] at found

/-- A slot with all of its bits set, in the memory of a program and out of it. Read as eight limbs
in Montgomery form, it holds more than the prime. -/
theorem witness_canonical_flood :
    (Odd scalarOrder ∧ 2 ^ 31 ≤ scalarOrder) ∧
    (∃ c, Slot.Codec.make scalarOrder (8 : Nat) = .ok c ∧
      ((∃ e, c.decode (List.replicate 40 255) = .error e) ↔
        Slot.IsLong (List.replicate 40 255) ∧ (List.replicate 40 (255 : UInt8)).length < 40) ∧
      (∀ e, c.decode (List.replicate 40 255) = .error e → e.kind = .value) ∧
      (∀ v, c.decode (List.replicate 40 255) = .ok v → 0 ≤ v ∧ v < scalarOrder)) ∧
    (∃ k n ws count, make (Sample.sandbox Sample.flood) .bn254 [] false Sample.machine =
        (.ok k, Sample.machine) ∧
      (8 ≤ k.codec.limbs ∧ scalarOrder < 2 ^ (32 * k.codec.limbs)) ∧
      k.witness [] false Sample.machine = (.ok ws, n) ∧
      k.Counts [] false Sample.machine count ∧ ws.length = count.toNat ∧
      ∀ w ∈ ws, 0 ≤ w ∧ w < scalarOrder) ∧
    (∃ m, (Module.exports ⟨0, [], [Module.constant "getNVars" 1]⟩ .absent).witnessSize m =
        (.ok 1, m) ∧ (0 : Int) ≤ 1) := by
  have odd : Odd scalarOrder := by decide
  have large : 2 ^ 31 ≤ scalarOrder := by decide
  refine ⟨⟨odd, large⟩, ?_, ?_, ?_⟩
  · obtain ⟨c, made, each⟩ := witness_canonical.1 scalarOrder 8 odd large (by decide)
    exact ⟨c, made, each _ (by decide)⟩
  · obtain ⟨k, made, limbs⟩ := Sample.exists_make_limbs Sample.flood
    obtain ⟨width, canonical⟩ := witness_canonical.2.1 _ _ _ _ k _ _ made
    obtain ⟨ws, n, returned, -⟩ :=
      Sample.succeeds_witness (drives_of_make made).program limbs Sample.machine
        Sample.hasSize_machine
    obtain ⟨count, counts, length, each⟩ := canonical [] false Sample.machine n ws returned
    exact ⟨k, n, ws, count, made, width Sample.access_actsOn.readsInFull, returned, counts, length,
      each⟩
  · let m : Machine Module.Instance := ⟨⟨Memory.zeros 0, 0⟩, []⟩
    have asked : (Module.exports ⟨0, [], [Module.constant "getNVars" 1]⟩ .absent).witnessSize m =
        (.ok 1, m) := rfl
    exact ⟨m, asked, witness_canonical.2.2 _ _ _ _ _ asked⟩

end Witness.Calculator

end Snark
