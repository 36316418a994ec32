import Snark.Key.File
import Snark.Proofs.Fourier.Root
import Snark.Proofs.Key.Section

/-!
# The header of a key file

The header is a fixed record of parameters and counts with six points behind it. The check that the
points fill the rest of the section comes before any of them is read.
-/

namespace Snark.KeyFile

open Reading (Means)

theorem means_readProver : readProver.Means fun bs _ => bs = Bytes.ofNat 4 groth16 := by
  refine ((Means.number 4).bind fun prover => Means.require _ _).congr fun bs _ => ?_
  constructor
  · rintro ⟨_, _, _, rfl, ⟨rfl, -⟩, rfl, known⟩
    rw [of_decide_eq_true known, List.append_nil]
  · rintro rfl
    exact ⟨_, [], groth16, (List.append_nil _).symm, ⟨rfl, by decide⟩, rfl, decide_eq_true rfl⟩

section Parameters

/-- Reads the parameters of the curve. -/
def readParameters (curve : CurveParams) : Reading Unit := do
  let baseWidth ← Reading.word
  Reading.require (baseWidth = curve.baseWidth)
    (.key (.baseWidth baseWidth curve.baseWidth curve.name))
  let q ← Reading.number baseWidth
  let scalarWidth ← Reading.word
  Reading.require (scalarWidth = curve.scalarWidth)
    (.key (.scalarWidth scalarWidth curve.scalarWidth curve.name))
  let r ← Reading.number scalarWidth
  Reading.require ((q : Int) = curve.q && (r : Int) = curve.r) (.key (.primes q r curve.name))

theorem means_readParameters_of_eq {curve : CurveParams} {q r baseWidth scalarWidth : Nat}
    (hq : curve.q = q) (hr : curve.r = r) (hbase : curve.baseWidth = baseWidth)
    (hscalar : curve.scalarWidth = scalarWidth) (q_lt : q < Bytes.capacity baseWidth)
    (r_lt : r < Bytes.capacity scalarWidth) (base_lt : baseWidth < Bytes.capacity 4)
    (scalar_lt : scalarWidth < Bytes.capacity 4) :
    (readParameters curve).Means fun bs _ => bs =
      Bytes.ofNat 4 baseWidth ++ (Bytes.ofNat baseWidth q ++ (Bytes.ofNat 4 scalarWidth ++
        Bytes.ofNat scalarWidth r)) := by
  refine (Means.bind (Means.number 4) fun _ => Means.bind (Means.require _ _) fun _ =>
    Means.bind (Means.number _) fun _ => Means.bind (Means.number 4) fun _ =>
    Means.bind (Means.require _ _) fun _ => Means.bind (Means.number _) fun _ =>
    Means.require _ _).congr fun bs _ => ?_
  simp only [hq, hr, hbase, hscalar, Int.natCast_inj, decide_eq_true_eq, Bool.and_eq_true]
  constructor
  · rintro ⟨_, _, _, rfl, ⟨rfl, -⟩, _, _, _, rfl, ⟨rfl, rfl⟩, _, _, _, rfl, ⟨rfl, -⟩,
      _, _, _, rfl, ⟨rfl, -⟩, _, _, _, rfl, ⟨rfl, rfl⟩, _, _, _, rfl, ⟨rfl, -⟩, rfl, rfl, rfl⟩
    simp only [List.nil_append, List.append_nil]
  · rintro rfl
    exact ⟨_, _, baseWidth, rfl, ⟨rfl, base_lt⟩, [], _, (), rfl, ⟨rfl, rfl⟩,
      _, _, q, rfl, ⟨rfl, q_lt⟩, _, _, scalarWidth, rfl, ⟨rfl, scalar_lt⟩,
      [], _, (), rfl, ⟨rfl, rfl⟩, _, [], r, (List.append_nil _).symm, ⟨rfl, r_lt⟩, rfl, rfl, rfl⟩

/-- The bytes of the parameters of the curve. -/
def parametersBytes : Bytes :=
  Bytes.ofNat 4 32 ++ (Bytes.ofNat 32 baseOrder ++ (Bytes.ofNat 4 32 ++
    Bytes.ofNat 32 scalarOrder))

@[simp] theorem length_parametersBytes : parametersBytes.length = 72 := by
  simp [parametersBytes]

theorem means_readParameters : (readParameters .bn254).Means fun bs _ => bs = parametersBytes :=
  means_readParameters_of_eq bn254_q bn254_r bn254_baseWidth bn254_scalarWidth baseOrder_lt_capacity
    scalarOrder_lt_capacity (by decide) (by decide)

end Parameters

section Fields

/-- The counts fit their fields and one another. -/
structure Counts.Valid (n : Counts) : Prop where
  wires_lt : n.wires < Bytes.capacity 4
  publicSignals_lt : n.publicSignals < n.wires
  domain_lt : n.domain < Bytes.capacity 4
  domain_eq : ∃ k, n.domain = 2 ^ k

/-- Entries in the range of such counts are written as they are read. -/
theorem Counts.Valid.encodes_entries {n : Counts} (h : n.Valid) (count : Nat) :
    Encodes (Reading.StandMany (StandsEntry n) count) (fun es => es.flatMap entryBytes)
      (fun es => es.length = count ∧ ∀ e ∈ es, e.Valid n.domain n.wires) (count * 44) 44
      LeastValue :=
  (encodes_entry h.domain_lt.le h.wires_lt.le).many count

/-- Reads the counts. -/
def readSizes : Reading Counts := do
  let wires ← Reading.word
  let publicSignals ← Reading.word
  let domain ← Reading.word
  Reading.require (isPowerOfTwo domain) (.key (.domain domain))
  Reading.require (publicSignals + 1 ≤ wires) (.key (.publicSignals publicSignals wires))
  return ⟨wires, publicSignals, domain⟩

/-- The bytes of the counts. -/
def sizesBytes (n : Counts) : Bytes :=
  Bytes.ofNat 4 n.wires ++ (Bytes.ofNat 4 n.publicSignals ++ Bytes.ofNat 4 n.domain)

@[simp] theorem length_sizesBytes (n : Counts) : (sizesBytes n).length = 12 := by
  simp [sizesBytes]

theorem means_readSizes : readSizes.Means fun bs n => bs = sizesBytes n ∧ n.Valid := by
  refine (Means.bind (Means.number 4) fun wires => Means.bind (Means.number 4) fun publicSignals =>
    Means.bind (Means.number 4) fun domain => Means.bind (Means.require _ _) fun _ =>
    Means.bind (Means.require _ _) fun _ => Means.pure _).congr fun bs n => ?_
  simp only [decide_eq_true_eq]
  constructor
  · rintro ⟨_, _, wires, rfl, ⟨rfl, wires_lt⟩, _, _, publicSignals, rfl, ⟨rfl, -⟩,
      _, _, domain, rfl, ⟨rfl, domain_lt⟩, _, _, _, rfl, ⟨rfl, power⟩, _, _, _, rfl,
      ⟨rfl, enough⟩, rfl, rfl⟩
    refine ⟨?_, wires_lt, enough, domain_lt, isPowerOfTwo_iff.1 power⟩
    simp only [sizesBytes, List.append_nil]
  · rintro ⟨rfl, valid⟩
    exact ⟨_, _, n.wires, rfl, ⟨rfl, valid.wires_lt⟩,
      _, _, n.publicSignals, rfl, ⟨rfl, valid.publicSignals_lt.trans valid.wires_lt⟩,
      _, [], n.domain, (List.append_nil _).symm, ⟨rfl, valid.domain_lt⟩,
      [], [], (), rfl, ⟨rfl, isPowerOfTwo_iff.2 valid.domain_eq⟩,
      [], [], (), rfl, ⟨rfl, valid.publicSignals_lt⟩, rfl, rfl⟩

/-- The bytes of the header in front of its points. -/
def fieldsBytes (n : Counts) : Bytes := parametersBytes ++ sizesBytes n

@[simp] theorem length_fieldsBytes (n : Counts) : (fieldsBytes n).length = 84 := by
  simp [fieldsBytes]

/-- Checks that there are as many bytes left as the single points take. -/
def checkRoom (curve : CurveParams) : Reading Unit := do
  let points := (← get).remaining
  let expected := 3 * curve.curvePointWidth + 3 * curve.twistPointWidth
  Reading.require (points = expected) (.key (.headerPoints points expected))

theorem readCounts_eq (curve : CurveParams) : readCounts curve = (do
    readParameters curve
    let n ← readSizes
    checkRoom curve
    return n) := by
  simp only [readCounts, readParameters, readSizes, checkRoom, bind_assoc, pure_bind]

theorem run_checkRoom {source : Section} {input : Bytes} {x : Unit} {r : Reader} :
    (checkRoom .bn254).run (.ofPayload source input) = .ok (x, r) ↔
      input.length = 576 ∧ r = .ofPayload source input := by
  refine (Means.require (input.length = 576) _ source input x r).trans ?_
  rw [decide_eq_true_eq]
  constructor
  · rintro ⟨_, _, rfl, ⟨rfl, room⟩, rfl⟩
    exact ⟨room, rfl⟩
  · rintro ⟨room, rfl⟩
    exact ⟨[], input, rfl, ⟨rfl, room⟩, rfl⟩

/-- A header with room for the points is read up to the points. -/
theorem run_readCounts {source : Section} {input : Bytes} {n : Counts} {r : Reader} :
    (readCounts .bn254).run (.ofPayload source input) = .ok (n, r) ↔
      ∃ points, input = fieldsBytes n ++ points ∧ points.length = 576 ∧ n.Valid ∧
        r = .ofPayload source points := by
  rw [readCounts_eq, StateT.run_bind, Except.bind_eq_ok_iff]
  constructor
  · rintro ⟨⟨_, r₁⟩, parameters, rest⟩
    obtain ⟨_, input₁, rfl, rfl, rfl⟩ := (means_readParameters _ _ _ _).1 parameters
    rw [StateT.run_bind, Except.bind_eq_ok_iff] at rest
    obtain ⟨⟨n₁, r₂⟩, sizes, rest⟩ := rest
    obtain ⟨_, points, rfl, ⟨rfl, valid⟩, rfl⟩ := (means_readSizes _ _ _ _).1 sizes
    rw [StateT.run_bind, Except.bind_eq_ok_iff] at rest
    obtain ⟨⟨_, r₃⟩, checked, rest⟩ := rest
    obtain ⟨room, rfl⟩ := run_checkRoom.1 checked
    cases rest
    exact ⟨points, (List.append_assoc ..).symm, room, valid, rfl⟩
  · rintro ⟨points, rfl, room, valid, rfl⟩
    refine ⟨((), .ofPayload source (sizesBytes n ++ points)), ?_, ?_⟩
    · exact (means_readParameters _ _ _ _).2 ⟨_, _, List.append_assoc .., rfl, rfl⟩
    rw [StateT.run_bind, Except.bind_eq_ok_iff]
    refine ⟨(n, .ofPayload source points), ?_, ?_⟩
    · exact (means_readSizes _ _ _ _).2 ⟨_, _, rfl, ⟨rfl, valid⟩, rfl⟩
    rw [StateT.run_bind, Except.bind_eq_ok_iff]
    exact ⟨((), .ofPayload source points), run_checkRoom.2 ⟨room, rfl⟩, rfl⟩

end Fields

section Single

/-- The points of a header stand one after another. -/
def StandsSingle (bs : Bytes) (s : SinglePoints) : Prop :=
  ∃ b₁ b₂ b₃ b₄ b₅ b₆, bs = b₁ ++ (b₂ ++ (b₃ ++ (b₄ ++ (b₅ ++ b₆)))) ∧
    StandsG1 b₁ s.alpha ∧ StandsG1 b₂ s.beta₁ ∧ StandsG2 b₃ s.beta₂ ∧ StandsG2 b₄ s.gamma ∧
    StandsG1 b₅ s.delta₁ ∧ StandsG2 b₆ s.delta₂

theorem means_readSinglePoints : (readSinglePoints .bn254).Means StandsSingle := by
  refine (Means.bind means_readG1 fun _ => Means.bind means_readG1 fun _ =>
    Means.bind means_readG2 fun _ => Means.bind means_readG2 fun _ =>
    Means.bind means_readG1 fun _ => Means.bind means_readG2 fun _ =>
    Means.pure _).congr fun bs s => ?_
  constructor
  · rintro ⟨b₁, _, _, rfl, h₁, b₂, _, _, rfl, h₂, b₃, _, _, rfl, h₃, b₄, _, _, rfl, h₄,
      b₅, _, _, rfl, h₅, b₆, _, _, rfl, h₆, rfl, rfl⟩
    rw [List.append_nil]
    exact ⟨b₁, b₂, b₃, b₄, b₅, b₆, rfl, h₁, h₂, h₃, h₄, h₅, h₆⟩
  · rintro ⟨b₁, b₂, b₃, b₄, b₅, b₆, rfl, h₁, h₂, h₃, h₄, h₅, h₆⟩
    exact ⟨b₁, _, _, rfl, h₁, b₂, _, _, rfl, h₂, b₃, _, _, rfl, h₃, b₄, _, _, rfl, h₄,
      b₅, _, _, rfl, h₅, b₆, [], _, (List.append_nil b₆).symm, h₆, rfl, rfl⟩

/-- The bytes of the points of a header. -/
noncomputable def singleBytes (s : SinglePoints) : Bytes :=
  g1Bytes s.alpha ++ (g1Bytes s.beta₁ ++ (g2Bytes s.beta₂ ++ (g2Bytes s.gamma ++
    (g1Bytes s.delta₁ ++ g2Bytes s.delta₂))))

/-- The points of a header are on their curves. -/
structure SinglePoints.Valid (s : SinglePoints) : Prop where
  on_curve : ∀ p ∈ [s.alpha, s.beta₁, s.delta₁], Bn254.isOnCurve p = true
  on_twist : ∀ p ∈ [s.beta₂, s.gamma, s.delta₂], Bn254.isOnTwist p = true

theorem encodes_single :
    Encodes StandsSingle singleBytes SinglePoints.Valid 576 32 LeastCoordinate := by
  refine ((encodes_G1.comap SinglePoints.alpha).append ((encodes_G1.comap SinglePoints.beta₁).append
    ((encodes_G2.comap SinglePoints.beta₂).append ((encodes_G2.comap SinglePoints.gamma).append
      ((encodes_G1.comap SinglePoints.delta₁).append
        (encodes_G2.comap SinglePoints.delta₂)))))).congr ?_ (fun s => rfl) ?_
  · intro bs s
    constructor
    · rintro ⟨b₁, _, rfl, h₁, b₂, _, rfl, h₂, b₃, _, rfl, h₃, b₄, _, rfl, h₄, b₅, b₆, rfl, h₅, h₆⟩
      exact ⟨b₁, b₂, b₃, b₄, b₅, b₆, rfl, h₁, h₂, h₃, h₄, h₅, h₆⟩
    · rintro ⟨b₁, b₂, b₃, b₄, b₅, b₆, rfl, h₁, h₂, h₃, h₄, h₅, h₆⟩
      exact ⟨b₁, _, rfl, h₁, b₂, _, rfl, h₂, b₃, _, rfl, h₃, b₄, _, rfl, h₄, b₅, b₆, rfl, h₅, h₆⟩
  · intro s
    constructor
    · rintro ⟨h₁, h₂, h₃, h₄, h₅, h₆⟩
      exact ⟨by simp [h₁, h₂, h₅], by simp [h₃, h₄, h₆]⟩
    · rintro ⟨on_curve, on_twist⟩
      simp only [List.forall_mem_cons] at on_curve on_twist
      exact ⟨on_curve.1, on_curve.2.1, on_twist.1, on_twist.2.1, on_curve.2.2.1, on_twist.2.2.1⟩

end Single

section Failures

variable {sort : Failure → Prop} (framing : ∀ e, sort (.framing e))

include framing in
theorem readParameters_failsIn
    (mismatch : ∀ e, (Failure.key e).ReportedAs .curveMismatch → sort (.key e)) :
    (readParameters .bn254).FailsIn sort := by
  refine (Reading.FailsIn.number framing 4).bind fun baseWidth => ?_
  refine (Reading.FailsIn.require _ (mismatch _ ⟨_, rfl, rfl⟩)).bind fun _ => ?_
  refine (Reading.FailsIn.number framing baseWidth).bind fun q => ?_
  refine (Reading.FailsIn.number framing 4).bind fun scalarWidth => ?_
  refine (Reading.FailsIn.require _ (mismatch _ ⟨_, rfl, rfl⟩)).bind fun _ => ?_
  refine (Reading.FailsIn.number framing scalarWidth).bind fun r => ?_
  exact .require _ (mismatch _ ⟨_, rfl, rfl⟩)

variable (format : ∀ e, (Failure.key e).ReportedAs .format → sort (.key e))
include format

theorem checkRoom_failsIn : (checkRoom .bn254).FailsIn sort := fun r =>
  Reading.FailsIn.require (r.remaining = 576) (format _ ⟨_, rfl, rfl⟩) r

include framing

theorem readProver_failsIn : readProver.FailsIn sort :=
  (Reading.FailsIn.number framing 4).bind fun _ => .require _ (format _ ⟨_, rfl, rfl⟩)

theorem readSizes_failsIn : readSizes.FailsIn sort := by
  refine (Reading.FailsIn.number framing 4).bind fun wires => ?_
  refine (Reading.FailsIn.number framing 4).bind fun publicSignals => ?_
  refine (Reading.FailsIn.number framing 4).bind fun domain => ?_
  refine (Reading.FailsIn.require _ (format _ ⟨_, rfl, rfl⟩)).bind fun _ => ?_
  exact (Reading.FailsIn.require _ (format _ ⟨_, rfl, rfl⟩)).bind fun _ => .pure _

theorem readCounts_failsIn
    (mismatch : ∀ e, (Failure.key e).ReportedAs .curveMismatch → sort (.key e)) :
    (readCounts .bn254).FailsIn sort := by
  rw [readCounts_eq]
  exact (readParameters_failsIn framing mismatch).bind fun _ =>
    (readSizes_failsIn framing format).bind fun n => (checkRoom_failsIn format).bind fun _ =>
      .pure n

theorem readSinglePoints_failsIn : (readSinglePoints .bn254).FailsIn sort := by
  have g1 := readG1_failsIn framing format
  have g2 := readG2_failsIn framing format
  exact g1.bind fun _ => g1.bind fun _ => g2.bind fun _ => g2.bind fun _ => g1.bind fun _ =>
    g2.bind fun _ => .pure _

end Failures

end Snark.KeyFile
