import Snark.Proofs.Container.Agreement
import Snark.Proofs.Key.File
import Snark.Proofs.System.File

/-!
# Sections that are not read

Only the first section with each id that a file type asks for is read, and only its payload. So the
order of the sections, sections of other ids or repeated ones, and bytes after the last section make
no difference to what a file is read as, or to how it is refused.
-/

namespace Snark

namespace ConstraintSystem

variable (curve : CurveParams)

theorem readHeader_placeless : (readHeader curve).Placeless := by
  refine .get (fun r r' same => by simp only [same.size_eq]) fun r => ?_
  refine (Reading.Placeless.number 4).bind fun fieldWidth => ?_
  refine (Reading.Placeless.require _ _).bind fun _ => ?_
  refine (Reading.Placeless.require _ _).bind fun _ => ?_
  refine (Reading.Placeless.number fieldWidth).bind fun prime => ?_
  refine (Reading.Placeless.require _ _).bind fun _ => ?_
  refine (Reading.Placeless.number 4).bind fun wires => ?_
  refine (Reading.Placeless.number 4).bind fun publicOutputs => ?_
  refine (Reading.Placeless.number 4).bind fun publicInputs => ?_
  refine (Reading.Placeless.number 4).bind fun privateInputs => ?_
  refine (Reading.Placeless.number 8).bind fun labels => ?_
  refine (Reading.Placeless.number 4).bind fun constraints => ?_
  exact (Reading.Placeless.require _ _).bind fun _ => .pure _

theorem readConstraints_placeless (h : Header) : (readConstraints h).Placeless := by
  have term (i : Nat) : (readTerm h.wires h.fieldWidth i).Placeless :=
    (Reading.Placeless.number 4).bind fun _ => (Reading.Placeless.require _ _).bind fun _ =>
      (Reading.Placeless.number _).bind fun _ => .pure _
  have combination (i : Nat) : (readCombination h.wires h.fieldWidth i).Placeless :=
    (Reading.Placeless.number 4).bind fun n => (term i).many n
  have constraint (i : Nat) : (readConstraint h.wires h.fieldWidth i).Placeless :=
    (combination i).bind fun _ => (combination i).bind fun _ =>
      (combination i).bind fun _ => .pure _
  exact (Reading.Placeless.manyFrom constraint 0 h.constraints).bind fun _ =>
    Reading.Placeless.atEnd.bind fun _ => .pure _

theorem readLabels_placeless (wires : Nat) : (readLabels wires).Placeless := by
  refine .get (fun r r' same => by simp only [same.size_eq]) fun r => ?_
  refine (Reading.Placeless.require _ _).bind fun _ => ?_
  refine ((Reading.Placeless.number 8).many wires).bind fun labels => ?_
  cases labels with
  | nil => exact .pure []
  | cons first rest => exact (Reading.Placeless.require _ _).bind fun _ => .pure _

/-- Files whose header, constraints and labels are alike are read alike. -/
theorem parse_agree {data data' : Bytes}
    (h : Container.SameFirst magic formatVersion [1, 2, 3] data data') :
    Result.Agree Eq (parse curve data) (parse curve data') := by
  obtain ⟨c, c', read, read', alike⟩ := h.exists_alike
  rw [parse, parse, read, read', Except.ok_bind, Except.ok_bind, alike.version_eq]
  refine (alike.readSection 1 (by decide) (readHeader_placeless curve)).bindEq fun n => ?_
  refine (alike.readSection 2 (by decide) (readConstraints_placeless n)).bindEq fun _ => ?_
  refine (alike.readSection 3 (by decide) (readLabels_placeless n.wires)).bindEq fun _ => ?_
  exact .refl _

end ConstraintSystem

namespace KeyFile

variable (curve : CurveParams)

theorem readProver_placeless : readProver.Placeless :=
  (Reading.Placeless.number 4).bind fun _ => .require _ _

theorem readCounts_placeless : (readCounts curve).Placeless := by
  refine (Reading.Placeless.number 4).bind fun baseWidth => ?_
  refine (Reading.Placeless.require _ _).bind fun _ => ?_
  refine (Reading.Placeless.number baseWidth).bind fun q => ?_
  refine (Reading.Placeless.number 4).bind fun scalarWidth => ?_
  refine (Reading.Placeless.require _ _).bind fun _ => ?_
  refine (Reading.Placeless.number scalarWidth).bind fun r => ?_
  refine (Reading.Placeless.require _ _).bind fun _ => ?_
  refine (Reading.Placeless.number 4).bind fun wires => ?_
  refine (Reading.Placeless.number 4).bind fun publicSignals => ?_
  refine (Reading.Placeless.number 4).bind fun domain => ?_
  refine (Reading.Placeless.require _ _).bind fun _ => ?_
  refine (Reading.Placeless.require _ _).bind fun _ => ?_
  refine .get (fun r r' same => by simp only [same.remaining_eq]) fun r => ?_
  exact (Reading.Placeless.require _ _).bind fun _ => .pure _

theorem readG1_placeless : (readG1 curve).Placeless :=
  (Reading.Placeless.bytes _).bind fun bs => .lift (decodeG1 curve bs)

theorem readG2_placeless : (readG2 curve).Placeless :=
  (Reading.Placeless.bytes _).bind fun bs => .lift (decodeG2 curve bs)

theorem readSinglePoints_placeless : (readSinglePoints curve).Placeless := by
  have g1 := readG1_placeless curve
  have g2 := readG2_placeless curve
  exact g1.bind fun _ => g1.bind fun _ => g2.bind fun _ => g2.bind fun _ => g1.bind fun _ =>
    g2.bind fun _ => .pure _

theorem readCoefficients_placeless (n : Counts) : (readCoefficients curve n).Placeless := by
  refine (Reading.Placeless.number 4).bind fun count => .many ?_ count
  refine (Reading.Placeless.bytes 12).bind fun entry => ?_
  refine (Reading.Placeless.require _ _).bind fun _ => ?_
  refine (Reading.Placeless.require _ _).bind fun _ => ?_
  refine (Reading.Placeless.require _ _).bind fun _ => ?_
  refine (Reading.Placeless.bytes _).bind fun value => ?_
  exact (Reading.Placeless.lift _).bind fun _ => .pure _

section Layout

variable {c c' : Container} {ids : List Nat}

theorem checkPoints_agree (alike : Container.Alike ids c c') (id : Nat) (mem : id ∈ ids)
    (count width : Nat) :
    Result.Agree Eq (checkPoints c id count width) (checkPoints c' id count width) := by
  refine (alike.find_agree id mem).bind ?_
  rintro s s' ⟨-, size_eq, -⟩
  rw [size_eq]
  exact .refl _

theorem checkCoefficients_agree (alike : Container.Alike ids c c') (mem : 4 ∈ ids) :
    Result.Agree Eq (checkCoefficients c curve) (checkCoefficients c' curve) := by
  refine (alike.find_agree 4 mem).bind ?_
  rintro s s' ⟨-, size_eq, payload_eq⟩
  rw [size_eq, payload_eq]
  exact .refl _

theorem checkLayout_agree (alike : Container.Alike [1, 2, 3, 4, 5, 6, 7, 8, 9] c c') (n : Counts) :
    Result.Agree Eq (checkLayout c curve n) (checkLayout c' curve n) := by
  refine (checkPoints_agree alike 3 (by decide) _ _).bindEq fun _ => ?_
  refine (checkPoints_agree alike 5 (by decide) _ _).bindEq fun _ => ?_
  refine (checkPoints_agree alike 6 (by decide) _ _).bindEq fun _ => ?_
  refine (checkPoints_agree alike 7 (by decide) _ _).bindEq fun _ => ?_
  refine (checkPoints_agree alike 8 (by decide) _ _).bindEq fun _ => ?_
  refine (checkPoints_agree alike 9 (by decide) _ _).bindEq fun _ => ?_
  exact checkCoefficients_agree curve alike (by decide)

end Layout

/-- Files whose nine sections are alike are read alike. -/
theorem parse_agree {data data' : Bytes}
    (h : Container.SameFirst magic formatVersion [1, 2, 3, 4, 5, 6, 7, 8, 9] data data') :
    Result.Agree Eq (parse curve data) (parse curve data') := by
  obtain ⟨c, c', read, read', alike⟩ := h.exists_alike
  have g1 := readG1_placeless curve
  have g2 := readG2_placeless curve
  rw [parse, parse, read, read', Except.ok_bind, Except.ok_bind]
  refine (alike.readSection 1 (by decide) readProver_placeless).bindEq fun _ => ?_
  refine (alike.reader 2 (by decide)).bind fun r r' start => ?_
  refine (readCounts_placeless curve r r' start).bind ?_
  rintro ⟨n, points⟩ ⟨_, points'⟩ ⟨rfl, behind⟩
  refine (checkLayout_agree curve alike n).bindEq fun _ => ?_
  refine (readSinglePoints_placeless curve points points' behind).bind ?_
  rintro ⟨single, left⟩ ⟨_, left'⟩ ⟨rfl, -⟩
  refine (alike.readSection 3 (by decide) (g1.many _)).bindEq fun inputs => ?_
  refine (alike.readSection 5 (by decide) (g1.many _)).bindEq fun a => ?_
  refine (alike.readSection 6 (by decide) (g1.many _)).bindEq fun b₁ => ?_
  refine (alike.readSection 7 (by decide) (g2.many _)).bindEq fun b₂ => ?_
  refine (alike.readSection 8 (by decide) (g1.many _)).bindEq fun l => ?_
  refine (alike.readSection 9 (by decide) (g1.many _)).bindEq fun h => ?_
  refine (alike.readSection 4 (by decide)
    (readCoefficients_placeless curve n)).bindEq fun coefficients => ?_
  exact .refl _

end KeyFile

namespace Container

/-- What a file is read as, or how it is refused, depends on the payloads of the first sections with
the ids that its type asks for, and on nothing else. -/
theorem parse_firstSections (curve : CurveParams) (data data' : Bytes) :
    (SameFirst ConstraintSystem.magic ConstraintSystem.formatVersion [1, 2, 3] data data' →
      Result.Same (ConstraintSystem.parse curve data) (ConstraintSystem.parse curve data')) ∧
    (SameFirst KeyFile.magic KeyFile.formatVersion [1, 2, 3, 4, 5, 6, 7, 8, 9] data data' →
      Result.Same (KeyFile.parse curve data) (KeyFile.parse curve data')) :=
  ⟨fun same => (ConstraintSystem.parse_agree curve same).same,
    fun same => (KeyFile.parse_agree curve same).same⟩

/-- The sections in the reverse order, between a section of an unknown id and an empty one of an id
that is there already. -/
def disturbed (parts : List (Nat × Bytes)) : List (Nat × Bytes) :=
  (255, [7]) :: (parts.reverse ++ [(1, [])])

/-- The file of the disturbed sections, with a byte behind them. -/
def disturbedFile (magic : Bytes) (parts : List (Nat × Bytes)) : Bytes :=
  header magic 1 (disturbed parts).length ++ (disturbed parts).flatMap entry ++ [0]

theorem Framed.disturbed {magic tail data : Bytes} {parts : List (Nat × Bytes)}
    (h : Framed magic 1 parts tail data) (few : (disturbed parts).length < Bytes.capacity 4) :
    Framed magic 1 (Container.disturbed parts) [0] (disturbedFile magic parts) := by
  refine ⟨rfl, few, fun part member => ?_⟩
  have unknown : Fits (255, [7]) := ⟨by decide, by decide⟩
  have empty : Fits (1, []) := ⟨by decide, by decide⟩
  simp only [Container.disturbed, List.mem_cons, List.mem_append, List.mem_reverse,
    List.not_mem_nil, or_false] at member
  obtain rfl | member | rfl := member
  · exact unknown
  · exact h.fits part member
  · exact empty

/-- The files of the multiplier and of a key are read as before when they are disturbed. -/
theorem parse_firstSections_disturbed :
    ConstraintSystem.parse .bn254 (disturbedFile ConstraintSystem.magic
      (ConstraintSystem.payloads (.of .multiplier))) = .ok .multiplier ∧
    KeyFile.parse .bn254 (disturbedFile KeyFile.magic
      (KeyFile.payloads (.of KeyFile.sampleKey))) = .ok KeyFile.sampleKey := by
  have version_lt : 1 < Bytes.capacity 4 := by decide
  constructor
  · have framed := ConstraintSystem.isFile_multiplier.framed
    have few : 5 < Bytes.capacity 4 := by decide
    have same : SameFirst ConstraintSystem.magic ConstraintSystem.formatVersion [1, 2, 3] _ _ :=
      framed.sameFirst (framed.disturbed few) rfl version_lt ConstraintSystem.nameOf_magic
        (by simp only [List.forall_mem_cons]; exact ⟨rfl, rfl, rfl, by simp⟩)
    exact ((parse_firstSections .bn254 _ _).1 same).eq_ok ConstraintSystem.parse_multiplier
  · have framed := KeyFile.framed_sampleKey
    have few : 11 < Bytes.capacity 4 := by decide
    have same : SameFirst KeyFile.magic KeyFile.formatVersion [1, 2, 3, 4, 5, 6, 7, 8, 9] _ _ :=
      framed.sameFirst (framed.disturbed few) rfl version_lt KeyFile.nameOf_magic
        (by simp only [List.forall_mem_cons]
            exact ⟨rfl, rfl, rfl, rfl, rfl, rfl, rfl, rfl, rfl, by simp⟩)
    exact ((parse_firstSections .bn254 _ _).2 same).eq_ok KeyFile.parse_sampleKey

end Container

end Snark
