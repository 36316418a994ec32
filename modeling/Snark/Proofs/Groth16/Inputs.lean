import Snark.Abi.Call
import Snark.Exchange.Document
import Snark.Proofs.Abi.Word
import Snark.Proofs.Failure
import Snark.Proofs.Groth16.Acceptance

/-!
# Public values on their way to the verifier

Public values are integers, the words of a contract call, or numerals in a JSON document. The
verifier and the words refuse whatever is no scalar. The numerals are reduced as they are read, so
the verifier never sees that a value was no scalar: the values of a document are told apart only up
to multiples of the order of the field.
-/

namespace Snark.Groth16

open Json (Value)

/-- The integers are least representatives of scalars. -/
def AreScalars (xs : List Int) : Prop := ∀ x ∈ xs, 0 ≤ x ∧ x < scalarOrder

instance (xs : List Int) : Decidable (AreScalars xs) :=
  inferInstanceAs (Decidable (∀ x ∈ xs, 0 ≤ x ∧ x < scalarOrder))

/-- A failure is reported as a value that cannot be encoded. -/
def ValueRefused (e : Failure) : Prop := ∃ r, e.report? = some r ∧ r.kind = .encoding

theorem valueRefused_abi (e : AbiError) : ValueRefused (.abi e) := Failure.reportedAs_abi e

section Scalars

variable {xs : List Int}

theorem val_ofInt (x : Int) : ((Residue.ofInt x : Fr).val : Int) = x % scalarOrder := by
  refine Int.toNat_of_nonneg (Int.emod_nonneg x ?_)
  decide

theorem map_val_ofInt (xs : List Int) :
    (xs.map (Residue.ofInt : Int → Fr)).map (fun x => (x.val : Int)) =
      xs.map (· % (scalarOrder : Int)) := by
  rw [List.map_map]
  exact List.map_congr_left fun x _ => val_ofInt x

theorem AreScalars.map_emod (h : AreScalars xs) : xs.map (· % (scalarOrder : Int)) = xs := by
  conv_rhs => rw [← List.map_id xs]
  exact List.map_congr_left fun x hx => Int.emod_eq_of_lt (h x hx).1 (h x hx).2

theorem areScalars_map_emod (xs : List Int) : AreScalars (xs.map (· % (scalarOrder : Int))) := by
  intro x hx
  obtain ⟨y, -, rfl⟩ := List.mem_map.1 hx
  exact ⟨Int.emod_nonneg y (by decide), Int.emod_lt_of_pos y (by decide)⟩

/-- The first value that is no scalar is refused. -/
theorem checkInputs_eq_error (i : Nat) (h : ¬ AreScalars xs) :
    ∃ j x, checkInputs i xs = .error (.abi (.inputRange j x)) := by
  induction xs generalizing i with
  | nil => exact absurd (by simp [AreScalars]) h
  | cons x xs ih =>
    rw [checkInputs]
    by_cases scalar : 0 ≤ x ∧ x < scalarOrder
    · obtain ⟨j, y, refused⟩ := ih (i + 1) fun rest => h (List.forall_mem_cons.2 ⟨scalar, rest⟩)
      refine ⟨j, y, ?_⟩
      rw [if_pos (by simpa using scalar), refused]
    · refine ⟨i, x, ?_⟩
      rw [if_neg (by simpa using scalar)]

end Scalars

section Verifier

variable {G₁ G₂ T : Type} [CurveGroup G₁]
variable {vk : VerifyingKey G₁ G₂} {xs : List Int}

/-- The scalars that the points of the key are combined with are the public values. -/
theorem prepareInputs_eq_ok (count : (xs.length : Int) = vk.publicSignals) (h : AreScalars xs) :
    ∃ first rest, vk.inputs = first :: rest ∧ prepareInputs vk xs =
      .ok (CurveGroup.add first (CurveGroup.combination (xs.map Residue.ofInt) rest)) := by
  have nonempty : vk.inputs ≠ [] := by
    intro none
    rw [VerifyingKey.publicSignals, none, List.length_nil] at count
    omega
  obtain ⟨first, rest, inputs⟩ := List.exists_cons_of_ne_nil nonempty
  refine ⟨first, rest, inputs, ?_⟩
  rw [prepareInputs, if_neg (not_not_intro count), checkInputs_eq_ok 0 h, inputs]
  rfl

theorem prepareInputs_eq_error (count : (xs.length : Int) = vk.publicSignals)
    (h : ¬ AreScalars xs) : ∃ j x, prepareInputs vk xs = .error (.abi (.inputRange j x)) := by
  obtain ⟨j, x, refused⟩ := checkInputs_eq_error 0 h
  refine ⟨j, x, ?_⟩
  rw [prepareInputs, if_neg (not_not_intro count), refused]
  rfl

variable [PairingGroups G₁ G₂ T] (vk) (proof : Proof G₁ G₂)

/-- Checks a proof for the values that the words of a contract call hold. -/
def verifyWords (bs : Bytes) : Result Bool := do
  let inputs ← Abi.Inputs.ofBytes bs
  verify vk proof inputs.toInts

/-- Checks a proof for the values that the items of a JSON document denote. -/
def verifyItems (items : List Value) : Result Bool := do
  let values ← Exchange.toPublic (.list items)
  verify vk proof (values.map fun x => (x.val : Int))

theorem verify_eq_error (count : (xs.length : Int) = vk.publicSignals) (h : ¬ AreScalars xs) :
    ∃ j x, verify vk proof xs = .error (.abi (.inputRange j x)) := by
  obtain ⟨j, x, refused⟩ := prepareInputs_eq_error count h
  refine ⟨j, x, ?_⟩
  rw [verify, refused]
  rfl

/-- Values that are scalars are never refused as values. -/
theorem verify_ne_error (count : (xs.length : Int) = vk.publicSignals) (h : AreScalars xs)
    (e : AbiError) : verify vk proof xs ≠ .error (.abi e) := by
  obtain ⟨first, rest, -, prepared⟩ := prepareInputs_eq_ok count h
  rw [verify, prepared, Except.ok_bind]
  generalize (do
    let found ← PairingGroups.pair proof.b proof.a
    let product ← expected vk proof _
    return @decide (found = product) (PairingGroups.decEq G₁ G₂ found product) :
      Except Fault Bool) = outcome
  cases outcome with
  | ok accepted => exact fun failed => by cases failed
  | error e => exact fun failed => by cases failed

/-- Reduced values are treated like the values themselves only if these are scalars already, or if
there are too few or too many of them. -/
theorem verify_map_emod_iff : verify vk proof (xs.map (· % (scalarOrder : Int))) =
    verify vk proof xs ↔ ((xs.length : Int) = vk.publicSignals → AreScalars xs) := by
  constructor
  · intro same count
    by_contra h
    obtain ⟨j, x, refused⟩ := verify_eq_error vk proof count h
    rw [refused] at same
    refine verify_ne_error vk proof ?_ (areScalars_map_emod xs) _ same
    rwa [List.length_map]
  · intro h
    by_cases count : (xs.length : Int) = vk.publicSignals
    · rw [(h count).map_emod]
    · rw [verify, verify, prepareInputs, prepareInputs, List.length_map, if_pos count, if_pos count]
      rfl

section Words

theorem ofInts_eq_ok (h : AreScalars xs) :
    Abi.Inputs.ofInts xs = .ok ⟨xs.map Residue.ofInt⟩ := by
  have each : xs.mapM Abi.Inputs.scalar = .ok (xs.map Residue.ofInt) := by
    refine Except.mapM_eq_ok fun x hx => ?_
    rw [Abi.Inputs.scalar, if_pos (by simpa using h x hx)]
  rw [Abi.Inputs.ofInts, each]
  rfl

theorem ofInts_eq_error (h : ¬ AreScalars xs)
    (writable : ∀ x ∈ xs, Text.Numeral.isWritable x = true) :
    ∃ x, Abi.Inputs.ofInts xs = .error (.abi (.input x)) := by
  have some : ∃ x, xs.mapM Abi.Inputs.scalar = .error (.abi (.input x)) := by
    induction xs with
    | nil => exact absurd (by simp [AreScalars]) h
    | cons x xs ih =>
      obtain ⟨short, others⟩ := List.forall_mem_cons.1 writable
      rw [List.mapM_cons, Abi.Inputs.scalar]
      by_cases scalar : 0 ≤ x ∧ x < scalarOrder
      · obtain ⟨y, refused⟩ := ih (fun rest => h (List.forall_mem_cons.2 ⟨scalar, rest⟩)) others
        refine ⟨y, ?_⟩
        rw [if_pos (by simpa using scalar), refused]
        rfl
      · refine ⟨x, ?_⟩
        rw [if_neg (by simpa using scalar),
          Failure.worded_of_isWritable (e := .abi (.input x)) short]
        rfl
  obtain ⟨x, refused⟩ := some
  refine ⟨x, ?_⟩
  rw [Abi.Inputs.ofInts, refused]
  rfl

theorem ofBytes_flatMap_word {ns : List Nat} (h : ∀ n ∈ ns, n < Bytes.capacity Abi.wordSize) :
    Abi.Inputs.ofBytes (ns.flatMap Abi.word) =
      Abi.Inputs.ofInts (ns.map fun (n : Nat) => (n : Int)) := by
  have whole : ¬ (ns.length * Abi.wordSize) % Abi.wordSize ≠ 0 :=
    not_not_intro (Nat.mul_mod_left ns.length Abi.wordSize)
  rw [Abi.Inputs.ofBytes, Abi.length_flatMap_word, if_neg whole,
    Nat.mul_div_cancel ns.length (by decide), Abi.words,
    if_pos (Abi.length_flatMap_word ns), Abi.wordsAt_flatMap_word h]
  rfl

/-- Words that are scalars reach the verifier as they are. -/
theorem verifyWords_eq {ns : List Nat} (h : ∀ n ∈ ns, n < Bytes.capacity Abi.wordSize)
    (scalars : AreScalars (ns.map fun (n : Nat) => (n : Int))) :
    verifyWords vk proof (ns.flatMap Abi.word) =
      verify vk proof (ns.map fun (n : Nat) => (n : Int)) := by
  rw [verifyWords, ofBytes_flatMap_word h, ofInts_eq_ok scalars, Except.ok_bind,
    Abi.Inputs.toInts, map_val_ofInt, scalars.map_emod]

theorem verifyWords_eq_error {ns : List Nat} (h : ∀ n ∈ ns, n < Bytes.capacity Abi.wordSize)
    (others : ¬ AreScalars (ns.map fun (n : Nat) => (n : Int))) :
    ∃ x, verifyWords vk proof (ns.flatMap Abi.word) = .error (.abi (.input x)) := by
  obtain ⟨x, refused⟩ := ofInts_eq_error others
    (List.forall_mem_map.2 fun n hn => Abi.isWritable_of_lt (h n hn))
  refine ⟨x, ?_⟩
  rw [verifyWords, ofBytes_flatMap_word h, refused]
  rfl

end Words

section Items

variable (items : List Value)

theorem mapM_toScalar : items.mapM Exchange.toScalar = (do
    let xs ← Result.ofFault (items.mapM Value.toInt)
    return xs.map Residue.ofInt) := by
  induction items with
  | nil => rfl
  | cons v items ih =>
    rw [List.mapM_cons, List.mapM_cons, ih, Exchange.toScalar]
    cases v.toInt with
    | error e => rfl
    | ok x =>
      cases items.mapM Value.toInt with
      | error e => rfl
      | ok xs => rfl

/-- The items of a document reach the verifier as the remainders of the integers they denote. -/
theorem verifyItems_eq : verifyItems vk proof items = (do
    let xs ← Result.ofFault (items.mapM Value.toInt)
    verify vk proof (xs.map (· % (scalarOrder : Int)))) := by
  rw [verifyItems, Exchange.toPublic]
  change (items.mapM Exchange.toScalar >>= _) = _
  rw [mapM_toScalar, bind_assoc]
  cases items.mapM Value.toInt with
  | error e => rfl
  | ok xs =>
    rw [Result.ofFault_ok, Except.ok_bind, Except.ok_bind, Except.pure_eq_ok, Except.ok_bind,
      map_val_ofInt]

/-- The items of a document are treated like the integers that they denote exactly if these are
scalars, or there are too few or too many of them. -/
theorem verifyItems_eq_iff : verifyItems vk proof items = (do
      let xs ← Result.ofFault (items.mapM Value.toInt)
      verify vk proof xs) ↔
    ∀ xs, items.mapM Value.toInt = .ok xs → (xs.length : Int) = vk.publicSignals →
      AreScalars xs := by
  rw [verifyItems_eq]
  cases items.mapM Value.toInt with
  | error e => exact iff_of_true rfl fun xs failed => by cases failed
  | ok xs =>
    rw [Result.ofFault_ok, Except.ok_bind, Except.ok_bind, verify_map_emod_iff]
    simp

end Items

/-- The integers given to the verifier and the words of a call are used as they are or refused. The
items of a document are used as they are exactly if they are scalars, and reduced otherwise. -/
theorem verify_public (vk : VerifyingKey G₁ G₂) (proof : Proof G₁ G₂) :
    (∀ xs : List Int, (xs.length : Int) = vk.publicSignals →
      (AreScalars xs → ∃ first rest, vk.inputs = first :: rest ∧ prepareInputs vk xs =
          .ok (CurveGroup.add first (CurveGroup.combination (xs.map Residue.ofInt) rest)) ∧
        (xs.map (Residue.ofInt : Int → Fr)).map (fun x => (x.val : Int)) = xs) ∧
      (¬ AreScalars xs → ∃ e, verify vk proof xs = .error e ∧ ValueRefused e)) ∧
    (∀ ns : List Nat, (∀ n ∈ ns, n < Bytes.capacity Abi.wordSize) →
      (AreScalars (ns.map fun (n : Nat) => (n : Int)) →
        verifyWords vk proof (ns.flatMap Abi.word) =
          verify vk proof (ns.map fun (n : Nat) => (n : Int))) ∧
      (¬ AreScalars (ns.map fun (n : Nat) => (n : Int)) →
        ∃ e, verifyWords vk proof (ns.flatMap Abi.word) = .error e ∧ ValueRefused e)) ∧
    ∀ items : List Value,
      (verifyItems vk proof items = do
        let xs ← Result.ofFault (items.mapM Value.toInt)
        verify vk proof (xs.map (· % (scalarOrder : Int)))) ∧
      ((verifyItems vk proof items = do
          let xs ← Result.ofFault (items.mapM Value.toInt)
          verify vk proof xs) ↔
        ∀ xs, items.mapM Value.toInt = .ok xs → (xs.length : Int) = vk.publicSignals →
          AreScalars xs) := by
  refine ⟨fun xs count => ⟨fun scalars => ?_, fun others => ?_⟩,
    fun ns fits => ⟨verifyWords_eq vk proof fits, fun others => ?_⟩,
    fun items => ⟨verifyItems_eq vk proof items, verifyItems_eq_iff vk proof items⟩⟩
  · obtain ⟨first, rest, inputs, prepared⟩ := prepareInputs_eq_ok count scalars
    refine ⟨first, rest, inputs, prepared, ?_⟩
    rw [map_val_ofInt, scalars.map_emod]
  · obtain ⟨j, x, refused⟩ := verify_eq_error vk proof count others
    exact ⟨_, refused, valueRefused_abi _⟩
  · obtain ⟨x, refused⟩ := verifyWords_eq_error vk proof fits others
    exact ⟨_, refused, valueRefused_abi _⟩

end Verifier

/-- A key that accepts the proof at infinity for zero. -/
def zeroKey : VerifyingKey G1 G2 :=
  ⟨.infinity, .infinity, Bn254.generator₂, .infinity, [.infinity, Bn254.generator₁]⟩

theorem verify_zeroKey : verify zeroKey ⟨.infinity, .infinity, .infinity⟩ [0] = .ok true := by
  have prepared : prepareInputs zeroKey [0] = .ok .infinity := rfl
  have found : PairingGroups.pair (.infinity : G2) (.infinity : G1) = .ok 1 := rfl
  have product : expected zeroKey ⟨.infinity, .infinity, .infinity⟩ .infinity = .ok 1 := by
    decide +kernel
  rw [verify, prepared, Except.ok_bind, found, Except.ok_bind, product, Except.ok_bind]
  rfl

/-- The numeral of the order of the scalars. -/
def orderItems : List Value :=
  [.text "21888242871839275222246405745257275088548364400416034343698204186575808495617"]

/-- The order of the scalars is refused as a public value, but its numeral is taken for zero. -/
theorem verifyItems_orderItems :
    orderItems.mapM Value.toInt = .ok [(scalarOrder : Int)] ∧
      verifyItems zeroKey ⟨.infinity, .infinity, .infinity⟩ orderItems = .ok true ∧
      ∃ e, verify zeroKey ⟨.infinity, .infinity, .infinity⟩ [(scalarOrder : Int)] = .error e ∧
        ValueRefused e := by
  have read : orderItems.mapM Value.toInt = .ok [(scalarOrder : Int)] := by decide +kernel
  refine ⟨read, ?_, _, rfl, valueRefused_abi (.inputRange 0 scalarOrder)⟩
  rw [verifyItems_eq, read, Result.ofFault_ok, Except.ok_bind, List.map_cons, Int.emod_self,
    List.map_nil, verify_zeroKey]

end Snark.Groth16
