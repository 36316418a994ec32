import Snark.Abi.Call
import Snark.Proofs.Abi.Word
import Snark.Proofs.Except
import Snark.Proofs.Failure

/-!
# The byte layout of contract values

A value is laid out as the words of its components, which are residues, and a reader takes words for
residues without reducing them. So the bytes of the values of a type are exactly the strings of a
fitting length in which every word is below the modulus. These are the strings that the reader
accepts, and it finds in them the value that they were laid out from.
-/

namespace Snark.Abi

section Layout

variable {α : Type} {m : Nat}

/-- A type of values is laid out in bytes as the words of their components, and read from exactly
the strings that have a fitting length and words below the modulus. -/
structure IsLayout (fits : Nat → Prop) (components : α → List (Residue m))
    (ofBytes : Bytes → Result α) (toBytes : α → Bytes) : Prop where
  toBytes_eq : ∀ x, toBytes x = residueWords (components x)
  accepts_iff : ∀ bs, (∃ x, ofBytes bs = .ok x) ↔ fits bs.length ∧ WordsBelow m bs
  refuses : ∀ bs, (ofBytes bs).FailsIn (Failure.ReportedAs .encoding)
  toBytes_ofBytes : ∀ bs x, ofBytes bs = .ok x → toBytes x = bs
  ofBytes_toBytes : ∀ x, ofBytes (toBytes x) = .ok x

/-- A reader that takes exactly the bytes of a value for the value is that of a layout if any number
of components that fits is that of a value. -/
theorem IsLayout.of_reads {fits : Nat → Prop} {components : α → List (Residue m)}
    {ofBytes : Bytes → Result α} {toBytes : α → Bytes} (room : m ≤ Bytes.capacity wordSize)
    (whole : ∀ n, fits n → wordSize ∣ n)
    (range : ∀ rs, (∃ x, components x = rs) ↔ fits (rs.length * wordSize))
    (spelled : ∀ x, toBytes x = residueWords (components x))
    (reads : ∀ bs x, ofBytes bs = .ok x ↔ toBytes x = bs)
    (refuses : ∀ bs, (ofBytes bs).FailsIn (Failure.ReportedAs .encoding)) :
    IsLayout fits components ofBytes toBytes where
  toBytes_eq := spelled
  accepts_iff bs := by
    constructor
    · rintro ⟨x, read⟩
      obtain rfl := (reads bs x).1 read
      rw [spelled]
      obtain ⟨length, below⟩ := (exists_residueWords_iff room).1 ⟨components x, rfl, rfl⟩
      exact ⟨length ▸ (range _).1 ⟨x, rfl⟩, below⟩
    · rintro ⟨fit, below⟩
      obtain ⟨count, length⟩ := whole _ fit
      rw [Nat.mul_comm] at length
      obtain ⟨rs, rfl, rfl⟩ := (exists_residueWords_iff room).2 ⟨length, below⟩
      rw [length] at fit
      obtain ⟨x, rfl⟩ := (range rs).2 fit
      exact ⟨x, (reads _ x).2 (spelled x)⟩
  refuses := refuses
  toBytes_ofBytes bs x := (reads bs x).1
  ofBytes_toBytes x := (reads _ x).2 rfl

theorem append_eq_iff_of_length {xs ys bs : Bytes} {n : Nat} (h : xs.length = n) :
    xs ++ ys = bs ↔ xs = bs.take n ∧ ys = bs.drop n := by
  constructor
  · rintro rfl
    exact ⟨(List.take_left' h).symm, (List.drop_left' h).symm⟩
  · rintro ⟨rfl, rfl⟩
    exact List.take_append_drop n bs

end Layout

theorem coordinate_eq_ok_iff {v : Int} {x : Fq} : coordinate v = .ok x ↔ v = x.val :=
  Result.least_eq_ok_iff

/-- A number is refused in words, if they can name it. -/
theorem coordinate_failsIn {v : Int} (h : Text.Numeral.isWritable v = true) :
    (coordinate v).FailsIn (Failure.ReportedAs .encoding) := by
  refine .ite (fun _ => .ok _) fun _ => .error ?_
  rw [Failure.worded_of_isWritable (e := .abi (.coordinate v)) h]
  exact Failure.reportedAs_abi _

theorem words_failsIn (count : Nat) (bs : Bytes) :
    (words count bs).FailsIn (Failure.ReportedAs .encoding) :=
  .ite (fun _ => .ok _) fun _ => .error (Failure.reportedAs_abi _)

theorem baseOrder_le : baseOrder ≤ Bytes.capacity wordSize := by decide

theorem scalarOrder_le : scalarOrder ≤ Bytes.capacity wordSize := by decide

namespace CurvePoint

/-- The coordinates of a point. -/
def components (p : CurvePoint) : List Fq := [p.x, p.y]

theorem length_components (p : CurvePoint) : p.components.length = 2 := rfl

theorem toBytes_eq (p : CurvePoint) : p.toBytes = residueWords p.components := by
  rw [toBytes, components, residueWords, List.flatMap_cons, List.flatMap_cons, List.flatMap_nil,
    List.append_nil]

@[simp] theorem length_toBytes (p : CurvePoint) : p.toBytes.length = 64 := by
  rw [toBytes, List.length_append, length_word, length_word]
  rfl

theorem ofInts_eq_ok_iff {x y : Int} {p : CurvePoint} :
    ofInts x y = .ok p ↔ x = p.x.val ∧ y = p.y.val := by
  rw [ofInts]
  simp only [Except.bind_eq_ok_iff, Except.pure_eq_ok, coordinate_eq_ok_iff]
  constructor
  · rintro ⟨u, rfl, v, rfl, ⟨⟩⟩
    exact ⟨rfl, rfl⟩
  · rintro ⟨rfl, rfl⟩
    exact ⟨p.x, rfl, p.y, rfl, rfl⟩

theorem ofInts_failsIn {x y : Int} (hx : Text.Numeral.isWritable x = true)
    (hy : Text.Numeral.isWritable y = true) :
    (ofInts x y).FailsIn (Failure.ReportedAs .encoding) :=
  .bind (coordinate_failsIn hx) fun _ _ => .bind (coordinate_failsIn hy) fun _ _ => .ok _

theorem ofBytes_eq_ok_iff {bs : Bytes} {p : CurvePoint} :
    ofBytes bs = .ok p ↔ p.toBytes = bs := by
  rw [ofBytes, Except.bind_eq_ok_iff]
  constructor
  · rintro ⟨ns, held, read⟩
    obtain ⟨count, -, rfl⟩ := words_eq_ok_iff.1 held
    obtain ⟨x, y, rfl⟩ := List.length_eq_two.1 count
    obtain ⟨hx, hy⟩ := ofInts_eq_ok_iff.1 read
    rw [toBytes, ← Int.ofNat_inj.1 hx, ← Int.ofNat_inj.1 hy]
    simp
  · rintro rfl
    refine ⟨[p.x.val, p.y.val], ?_, ofInts_eq_ok_iff.2 ⟨rfl, rfl⟩⟩
    rw [toBytes_eq]
    exact words_residueWords baseOrder_le p.components

theorem ofBytes_failsIn (bs : Bytes) : (ofBytes bs).FailsIn (Failure.ReportedAs .encoding) := by
  refine .bind (words_failsIn 2 bs) fun ns held => ?_
  have writable := isWritable_of_words held
  split
  · exact ofInts_failsIn (writable _ (by simp)) (writable _ (by simp))
  · exact .error (Failure.reportedAs_abi _)

theorem exists_components_iff {rs : List Fq} :
    (∃ p : CurvePoint, p.components = rs) ↔ rs.length = 2 := by
  constructor
  · rintro ⟨p, rfl⟩
    rfl
  · intro count
    obtain ⟨x, y, rfl⟩ := List.length_eq_two.1 count
    exact ⟨⟨x, y⟩, rfl⟩

theorem isLayout : IsLayout (· = 64) components ofBytes toBytes := by
  refine .of_reads baseOrder_le (by rintro n rfl; decide) (fun rs => ?_) toBytes_eq
    (fun _ _ => ofBytes_eq_ok_iff) ofBytes_failsIn
  rw [exists_components_iff, wordSize]
  omega

end CurvePoint

namespace TwistPoint

/-- The components of the coordinates of a point, in the order of their words. -/
def components (p : TwistPoint) : List Fq := [p.x.im, p.x.re, p.y.im, p.y.re]

theorem length_components (p : TwistPoint) : p.components.length = 4 := rfl

theorem toBytes_eq (p : TwistPoint) : p.toBytes = residueWords p.components := by
  simp [toBytes, components, residueWords]

@[simp] theorem length_toBytes (p : TwistPoint) : p.toBytes.length = 128 := by
  simp [toBytes, wordSize]

theorem ofPairs_eq_ok_iff {x y : Int × Int} {p : TwistPoint} : ofPairs x y = .ok p ↔
    x = (↑p.x.re.val, ↑p.x.im.val) ∧ y = (↑p.y.re.val, ↑p.y.im.val) := by
  obtain ⟨x₀, x₁⟩ := x
  obtain ⟨y₀, y₁⟩ := y
  rw [ofPairs]
  simp only [Except.bind_eq_ok_iff, Except.pure_eq_ok, coordinate_eq_ok_iff]
  constructor
  · rintro ⟨a, rfl, b, rfl, c, rfl, d, rfl, ⟨⟩⟩
    exact ⟨rfl, rfl⟩
  · rintro ⟨⟨⟩, ⟨⟩⟩
    exact ⟨_, rfl, _, rfl, _, rfl, _, rfl, rfl⟩

theorem pair_eq_ok_iff {what : String} {vs : List Int} {v : Int × Int} :
    pair what vs = .ok v ↔ vs = [v.1, v.2] := by
  constructor
  · intro h
    unfold pair at h
    split at h
    · cases h
      rfl
    · cases h
  · rintro rfl
    rfl

/-- A point is made from lists that hold two components each, the real one first. -/
theorem ofInts_eq_ok_iff {xs ys : List Int} {p : TwistPoint} : ofInts xs ys = .ok p ↔
    xs = [↑p.x.re.val, ↑p.x.im.val] ∧ ys = [↑p.y.re.val, ↑p.y.im.val] := by
  rw [ofInts]
  simp only [Except.bind_eq_ok_iff, pair_eq_ok_iff, ofPairs_eq_ok_iff]
  constructor
  · rintro ⟨_, rfl, _, rfl, rfl, rfl⟩
    exact ⟨rfl, rfl⟩
  · rintro ⟨rfl, rfl⟩
    exact ⟨(_, _), rfl, (_, _), rfl, rfl, rfl⟩

theorem ofPairs_failsIn {x y : Int × Int}
    (h : ∀ n ∈ [x.1, x.2, y.1, y.2], Text.Numeral.isWritable n = true) :
    (ofPairs x y).FailsIn (Failure.ReportedAs .encoding) :=
  .bind (coordinate_failsIn (h _ (by simp))) fun _ _ =>
    .bind (coordinate_failsIn (h _ (by simp))) fun _ _ =>
      .bind (coordinate_failsIn (h _ (by simp))) fun _ _ =>
        .bind (coordinate_failsIn (h _ (by simp))) fun _ _ => .ok _

theorem ofBytes_eq_ok_iff {bs : Bytes} {p : TwistPoint} :
    ofBytes bs = .ok p ↔ p.toBytes = bs := by
  rw [ofBytes, Except.bind_eq_ok_iff]
  constructor
  · rintro ⟨ns, held, read⟩
    obtain ⟨count, -, rfl⟩ := words_eq_ok_iff.1 held
    split at read
    · obtain ⟨hx, hy⟩ := ofPairs_eq_ok_iff.1 read
      obtain ⟨x₀, x₁⟩ := Prod.mk.inj hx
      obtain ⟨y₀, y₁⟩ := Prod.mk.inj hy
      rw [toBytes, ← Int.ofNat_inj.1 x₀, ← Int.ofNat_inj.1 x₁, ← Int.ofNat_inj.1 y₀,
        ← Int.ofNat_inj.1 y₁]
      simp
    · cases read
  · rintro rfl
    refine ⟨p.components.map Residue.val, ?_, ofPairs_eq_ok_iff.2 ⟨rfl, rfl⟩⟩
    rw [toBytes_eq]
    exact words_residueWords baseOrder_le p.components

theorem ofBytes_failsIn (bs : Bytes) : (ofBytes bs).FailsIn (Failure.ReportedAs .encoding) := by
  refine .bind (words_failsIn 4 bs) fun ns held => ?_
  have writable := isWritable_of_words held
  split
  · refine ofPairs_failsIn ?_
    simp only [List.forall_mem_cons] at writable ⊢
    obtain ⟨h₁, h₀, h₁', h₀', -⟩ := writable
    exact ⟨h₀, h₁, h₀', h₁', List.forall_mem_nil _⟩
  · exact .error (Failure.reportedAs_abi _)

theorem exists_components_iff {rs : List Fq} :
    (∃ p : TwistPoint, p.components = rs) ↔ rs.length = 4 := by
  constructor
  · rintro ⟨p, rfl⟩
    rfl
  · intro count
    match rs, count with
    | [x₁, x₀, y₁, y₀], _ => exact ⟨⟨⟨x₀, x₁⟩, ⟨y₀, y₁⟩⟩, rfl⟩

theorem isLayout : IsLayout (· = 128) components ofBytes toBytes := by
  refine .of_reads baseOrder_le (by rintro n rfl; decide) (fun rs => ?_) toBytes_eq
    (fun _ _ => ofBytes_eq_ok_iff) ofBytes_failsIn
  rw [exists_components_iff, wordSize]
  omega

end TwistPoint

namespace Proof

/-- The components of the points of a proof. -/
def components (p : Proof) : List Fq := p.a.components ++ (p.b.components ++ p.c.components)

theorem toBytes_eq (p : Proof) : p.toBytes = residueWords p.components := by
  simp [toBytes, components, residueWords, CurvePoint.toBytes_eq, TwistPoint.toBytes_eq]

theorem toBytes_eq_iff {bs : Bytes} {p : Proof} : p.toBytes = bs ↔
    p.a.toBytes = bs.take 64 ∧ p.b.toBytes = (bs.drop 64).take 128 ∧
      p.c.toBytes = bs.drop 192 := by
  rw [toBytes, List.append_assoc, append_eq_iff_of_length p.a.length_toBytes,
    append_eq_iff_of_length p.b.length_toBytes, List.drop_drop]

theorem ofBytes_eq_ok_iff {bs : Bytes} {p : Proof} : ofBytes bs = .ok p ↔ p.toBytes = bs := by
  rw [ofBytes]
  simp only [Except.throw_eq_error, Except.error_bind, Except.ite_error_eq_ok_iff,
    Except.bind_eq_ok_iff, Except.pure_eq_ok, CurvePoint.ofBytes_eq_ok_iff,
    TwistPoint.ofBytes_eq_ok_iff]
  constructor
  · rintro ⟨-, a, ha, b, hb, c, hc, ⟨⟩⟩
    exact toBytes_eq_iff.2 ⟨ha, hb, hc⟩
  · intro h
    obtain ⟨ha, hb, hc⟩ := toBytes_eq_iff.1 h
    refine ⟨?_, p.a, ha, p.b, hb, p.c, hc, rfl⟩
    rw [← h, toBytes]
    simp [size, wordSize]

theorem ofBytes_failsIn (bs : Bytes) : (ofBytes bs).FailsIn (Failure.ReportedAs .encoding) :=
  .ite (fun _ => .error (Failure.reportedAs_abi _)) fun _ =>
    .bind (CurvePoint.ofBytes_failsIn _) fun _ _ => .bind (TwistPoint.ofBytes_failsIn _) fun _ _ =>
      .bind (CurvePoint.ofBytes_failsIn _) fun _ _ => .ok _

theorem exists_components_iff {rs : List Fq} :
    (∃ p : Proof, p.components = rs) ↔ rs.length = 8 := by
  constructor
  · rintro ⟨p, rfl⟩
    rfl
  · intro count
    obtain ⟨a, ha⟩ := CurvePoint.exists_components_iff.2
      (List.length_take_of_le (by omega) : (rs.take 2).length = 2)
    obtain ⟨b, hb⟩ := TwistPoint.exists_components_iff.2
      (List.length_take_of_le (by rw [List.length_drop]; omega) :
        ((rs.drop 2).take 4).length = 4)
    obtain ⟨c, hc⟩ := CurvePoint.exists_components_iff.2
      (by rw [List.length_drop, List.length_drop]; omega : ((rs.drop 2).drop 4).length = 2)
    refine ⟨⟨a, b, c⟩, ?_⟩
    rw [components, ha, hb, hc, List.take_append_drop, List.take_append_drop]

theorem isLayout : IsLayout (· = 256) components ofBytes toBytes := by
  refine .of_reads baseOrder_le (by rintro n rfl; decide) (fun rs => ?_) toBytes_eq
    (fun _ _ => ofBytes_eq_ok_iff) ofBytes_failsIn
  rw [exists_components_iff, wordSize]
  omega

end Proof

namespace VerifyingKey

/-- The components of the points of a key. -/
def components (vk : VerifyingKey) : List Fq :=
  vk.alpha.components ++ (vk.beta.components ++ (vk.gamma.components ++ (vk.delta.components ++
    vk.inputs.flatMap CurvePoint.components)))

theorem flatMap_toBytes (ps : List CurvePoint) :
    ps.flatMap CurvePoint.toBytes = residueWords (ps.flatMap CurvePoint.components) := by
  rw [residueWords, List.flatMap_assoc]
  exact congrArg ps.flatMap (funext CurvePoint.toBytes_eq)

theorem length_flatMap_toBytes (ps : List CurvePoint) :
    (ps.flatMap CurvePoint.toBytes).length = ps.length * 64 := by
  rw [List.length_flatMap]
  simp

theorem toBytes_eq (vk : VerifyingKey) : vk.toBytes = residueWords vk.components := by
  rw [toBytes, flatMap_toBytes]
  simp [components, residueWords, CurvePoint.toBytes_eq, TwistPoint.toBytes_eq]

theorem length_toBytes (vk : VerifyingKey) :
    vk.toBytes.length = 448 + vk.inputs.length * 64 := by
  simp only [toBytes, List.length_append, CurvePoint.length_toBytes, TwistPoint.length_toBytes,
    length_flatMap_toBytes]

theorem make_eq_ok_iff {alpha : CurvePoint} {beta gamma delta : TwistPoint}
    {inputs : List CurvePoint} {vk : VerifyingKey} : make alpha beta gamma delta inputs = .ok vk ↔
      alpha = vk.alpha ∧ beta = vk.beta ∧ gamma = vk.gamma ∧ delta = vk.delta ∧
        inputs = vk.inputs := by
  constructor
  · intro h
    unfold make at h
    split at h
    · cases h
    · cases h
      exact ⟨rfl, rfl, rfl, rfl, rfl⟩
  · rintro ⟨rfl, rfl, rfl, rfl, rfl⟩
    exact dif_neg vk.inputs_ne_nil

theorem make_failsIn (alpha : CurvePoint) (beta gamma delta : TwistPoint)
    (inputs : List CurvePoint) :
    (make alpha beta gamma delta inputs).FailsIn (Failure.ReportedAs .encoding) := by
  unfold make
  split
  · exact .error (Failure.reportedAs_abi _)
  · exact .ok _

theorem pointsOfBytes_eq_ok_iff {count : Nat} {bs : Bytes} {ps : List CurvePoint}
    (h : bs.length = count * 64) :
    pointsOfBytes count bs = .ok ps ↔ ps.flatMap CurvePoint.toBytes = bs := by
  induction count generalizing bs ps with
  | zero =>
    obtain rfl := List.eq_nil_of_length_eq_zero (by omega : bs.length = 0)
    cases ps with
    | nil => exact iff_of_true rfl rfl
    | cons p ps =>
      refine iff_of_false (by intro h; cases h) fun spelled => ?_
      have length := congrArg List.length spelled
      rw [length_flatMap_toBytes, List.length_cons, List.length_nil] at length
      omega
  | succ count ih =>
    have left : (bs.drop 64).length = count * 64 := by
      rw [List.length_drop]
      omega
    rw [pointsOfBytes]
    simp only [Except.bind_eq_ok_iff, Except.pure_eq_ok, CurvePoint.ofBytes_eq_ok_iff, ih left]
    constructor
    · rintro ⟨p, first, rest, others, ⟨⟩⟩
      rw [List.flatMap_cons, first, others, List.take_append_drop]
    · intro spelled
      cases ps with
      | nil =>
        rw [← spelled, List.flatMap_nil, List.length_nil] at h
        omega
      | cons p ps =>
        rw [List.flatMap_cons, append_eq_iff_of_length p.length_toBytes] at spelled
        exact ⟨p, spelled.1, ps, spelled.2, rfl⟩

theorem pointsOfBytes_failsIn (count : Nat) (bs : Bytes) :
    (pointsOfBytes count bs).FailsIn (Failure.ReportedAs .encoding) := by
  induction count generalizing bs with
  | zero => exact .ok []
  | succ count ih =>
    exact .bind (CurvePoint.ofBytes_failsIn _) fun _ _ => .bind (ih _) fun _ _ => .ok _

theorem toBytes_eq_iff {bs : Bytes} {vk : VerifyingKey} : vk.toBytes = bs ↔
    vk.alpha.toBytes = bs.take 64 ∧ vk.beta.toBytes = (bs.drop 64).take 128 ∧
      vk.gamma.toBytes = (bs.drop 192).take 128 ∧ vk.delta.toBytes = (bs.drop 320).take 128 ∧
        vk.inputs.flatMap CurvePoint.toBytes = bs.drop headerSize := by
  simp only [toBytes, List.append_assoc, append_eq_iff_of_length (CurvePoint.length_toBytes _),
    append_eq_iff_of_length (TwistPoint.length_toBytes _), List.drop_drop]
  rfl

theorem ofBytes_eq_ok_iff {bs : Bytes} {vk : VerifyingKey} :
    ofBytes bs = .ok vk ↔ vk.toBytes = bs := by
  rw [ofBytes]
  simp only [Except.throw_eq_error, Except.error_bind, Except.ite_error_eq_ok_iff,
    Except.bind_eq_ok_iff, CurvePoint.ofBytes_eq_ok_iff, TwistPoint.ofBytes_eq_ok_iff,
    make_eq_ok_iff]
  have tail (whole : (bs.length - headerSize) % 64 = 0) :
      (bs.drop headerSize).length = (bs.length - headerSize) / 64 * 64 := by
    rw [List.length_drop]
    omega
  constructor
  · rintro ⟨fit, alpha, ha, beta, hb, gamma, hc, delta, hd, inputs, hi, rfl, rfl, rfl, rfl, rfl⟩
    have whole : (bs.length - headerSize) % 64 = 0 := by
      simp at fit
      omega
    exact toBytes_eq_iff.2 ⟨ha, hb, hc, hd, (pointsOfBytes_eq_ok_iff (tail whole)).1 hi⟩
  · intro h
    obtain ⟨ha, hb, hc, hd, hi⟩ := toBytes_eq_iff.1 h
    have some := List.length_pos_iff.2 vk.inputs_ne_nil
    have length : bs.length - headerSize = vk.inputs.length * 64 := by
      rw [← h, length_toBytes, headerSize, wordSize]
      omega
    have whole : (bs.length - headerSize) % 64 = 0 := by omega
    refine ⟨?_, _, ha, _, hb, _, hc, _, hd, _,
      (pointsOfBytes_eq_ok_iff (tail whole)).2 hi, rfl, rfl, rfl, rfl, rfl⟩
    simp
    omega

theorem ofBytes_failsIn (bs : Bytes) : (ofBytes bs).FailsIn (Failure.ReportedAs .encoding) := by
  rw [ofBytes]
  refine .ite (fun _ => .error (Failure.reportedAs_abi _)) fun _ => ?_
  refine .bind (CurvePoint.ofBytes_failsIn _) fun alpha _ => ?_
  refine .bind (TwistPoint.ofBytes_failsIn _) fun beta _ => ?_
  refine .bind (TwistPoint.ofBytes_failsIn _) fun gamma _ => ?_
  refine .bind (TwistPoint.ofBytes_failsIn _) fun delta _ => ?_
  exact .bind (pointsOfBytes_failsIn _ _) fun inputs _ => make_failsIn _ _ _ _ _

/-- An even number of coordinates is that of points. -/
theorem exists_flatMap_components_iff {count : Nat} {rs : List Fq} :
    (∃ ps : List CurvePoint, ps.length = count ∧ ps.flatMap CurvePoint.components = rs) ↔
      rs.length = count * 2 := by
  constructor
  · rintro ⟨ps, rfl, rfl⟩
    rw [List.length_flatMap]
    simp [CurvePoint.components]
  · intro length
    induction count generalizing rs with
    | zero => exact ⟨[], rfl, (List.eq_nil_of_length_eq_zero (by omega)).symm⟩
    | succ count ih =>
      obtain ⟨p, first⟩ := CurvePoint.exists_components_iff.2
        (List.length_take_of_le (by omega) : (rs.take 2).length = 2)
      obtain ⟨ps, rfl, rest⟩ :=
        ih (by rw [List.length_drop]; omega : (rs.drop 2).length = count * 2)
      exact ⟨p :: ps, rfl, by rw [List.flatMap_cons, first, rest, List.take_append_drop]⟩

theorem exists_components_iff {rs : List Fq} :
    (∃ vk : VerifyingKey, vk.components = rs) ↔ ∃ k ≥ 1, rs.length = 14 + k * 2 := by
  constructor
  · rintro ⟨vk, rfl⟩
    refine ⟨vk.inputs.length, List.length_pos_iff.2 vk.inputs_ne_nil, ?_⟩
    have tail := exists_flatMap_components_iff.1 ⟨vk.inputs, rfl, rfl⟩
    simp only [components, List.length_append, CurvePoint.length_components,
      TwistPoint.length_components, tail]
    omega
  · rintro ⟨k, some, count⟩
    have twist (n : Nat) (h : n + 4 ≤ rs.length) :
        ∃ p : TwistPoint, p.components = (rs.drop n).take 4 :=
      TwistPoint.exists_components_iff.2
        (List.length_take_of_le (by rw [List.length_drop]; omega))
    obtain ⟨alpha, ha⟩ := CurvePoint.exists_components_iff.2
      (List.length_take_of_le (by omega) : (rs.take 2).length = 2)
    obtain ⟨beta, hb⟩ := twist 2 (by omega)
    obtain ⟨gamma, hc⟩ := twist 6 (by omega)
    obtain ⟨delta, hd⟩ := twist 10 (by omega)
    obtain ⟨inputs, rfl, hi⟩ := exists_flatMap_components_iff.2
      (by rw [List.length_drop]; omega : (rs.drop 14).length = k * 2)
    refine ⟨⟨alpha, beta, gamma, delta, inputs, List.length_pos_iff.1 some⟩, ?_⟩
    have glue (n k : Nat) : (rs.drop n).take k ++ rs.drop (n + k) = rs.drop n := by
      rw [← List.drop_drop, List.take_append_drop]
    rw [components, ha, hb, hc, hd, hi, glue 10 4, glue 6 4, glue 2 4, List.take_append_drop]

theorem isLayout : IsLayout (fun n => ∃ k ≥ 1, n = 448 + 64 * k) components ofBytes toBytes := by
  refine .of_reads baseOrder_le ?_ (fun rs => ?_) toBytes_eq
    (fun _ _ => ofBytes_eq_ok_iff) ofBytes_failsIn
  · rintro n ⟨k, -, rfl⟩
    exact ⟨14 + 2 * k, by rw [wordSize]; omega⟩
  · rw [exists_components_iff, wordSize]
    exact exists_congr fun k => and_congr_right fun _ => by omega

end VerifyingKey

namespace Inputs

theorem scalar_eq_ok_iff {v : Int} {x : Fr} : scalar v = .ok x ↔ v = x.val :=
  Result.least_eq_ok_iff

theorem scalar_failsIn {v : Int} (h : Text.Numeral.isWritable v = true) :
    (scalar v).FailsIn (Failure.ReportedAs .encoding) := by
  refine .ite (fun _ => .ok _) fun _ => .error ?_
  rw [Failure.worded_of_isWritable (e := .abi (.input v)) h]
  exact Failure.reportedAs_abi _

theorem ofInts_eq_ok_iff {vs : List Int} {xs : Inputs} : ofInts vs = .ok xs ↔ vs = xs.toInts := by
  obtain ⟨values⟩ := xs
  rw [ofInts, toInts]
  simp only [Except.bind_eq_ok_iff, Except.pure_eq_ok]
  have each : vs.mapM scalar = .ok values ↔ vs = values.map fun x => (x.val : Int) := by
    simp only [Except.mapM_eq_ok_iff, scalar_eq_ok_iff]
    rw [← List.forall₂_eq_eq_eq, List.forall₂_map_right_iff]
  constructor
  · rintro ⟨found, read, ⟨⟩⟩
    exact each.1 read
  · intro h
    exact ⟨values, each.2 h, rfl⟩

theorem ofInts_failsIn {vs : List Int} (h : ∀ v ∈ vs, Text.Numeral.isWritable v = true) :
    (ofInts vs).FailsIn (Failure.ReportedAs .encoding) :=
  .bind (.mapM fun v hv => scalar_failsIn (h v hv)) fun _ _ => .ok _

theorem toBytes_eq (xs : Inputs) : xs.toBytes = residueWords xs.values := rfl

/-- The numbers that are read as the values of inputs are their least representatives. -/
theorem map_natCast_eq_toInts_iff {ns : List Nat} {xs : Inputs} :
    ns.map (fun (n : Nat) => (n : Int)) = xs.toInts ↔ ns = xs.values.map Residue.val := by
  have toInts_eq : xs.toInts = (xs.values.map Residue.val).map fun (n : Nat) => (n : Int) := by
    rw [List.map_map]
    rfl
  rw [toInts_eq]
  exact (List.map_injective_iff.2 fun _ _ => Int.ofNat_inj.1).eq_iff

theorem ofBytes_eq_ok_iff {bs : Bytes} {xs : Inputs} : ofBytes bs = .ok xs ↔ xs.toBytes = bs := by
  rw [ofBytes]
  simp only [Except.throw_eq_error, Except.error_bind, Except.ite_error_eq_ok_iff,
    Except.bind_eq_ok_iff, ofInts_eq_ok_iff, map_natCast_eq_toInts_iff]
  constructor
  · rintro ⟨-, ns, held, rfl⟩
    obtain ⟨-, -, spelled⟩ := words_eq_ok_iff.1 held
    rw [toBytes_eq, residueWords_eq, spelled]
  · rintro rfl
    have length : xs.toBytes.length = xs.values.length * wordSize := by
      rw [toBytes_eq, residueWords_eq, length_flatMap_word, List.length_map]
    rw [length, Nat.mul_mod_left, Nat.mul_div_cancel _ (by decide)]
    exact ⟨not_not_intro rfl, _, words_residueWords scalarOrder_le xs.values, rfl⟩

theorem ofBytes_failsIn (bs : Bytes) : (ofBytes bs).FailsIn (Failure.ReportedAs .encoding) :=
  .ite (fun _ => .error (Failure.reportedAs_abi _)) fun _ =>
    .bind (words_failsIn _ bs) fun _ held =>
      ofInts_failsIn (List.forall_mem_map.2 (isWritable_of_words held))

theorem isLayout : IsLayout (fun n => ∃ k, n = 32 * k) values ofBytes toBytes := by
  refine .of_reads scalarOrder_le ?_ (fun rs => ?_) toBytes_eq
    (fun _ _ => ofBytes_eq_ok_iff) ofBytes_failsIn
  · rintro n ⟨k, rfl⟩
    exact ⟨k, rfl⟩
  · exact iff_of_true ⟨⟨rs⟩, rfl⟩ ⟨rs.length, Nat.mul_comm _ _⟩

end Inputs

/-- The bytes of each type of contract values are the words of its components, with the imaginary
component of every coordinate of the twist in front, and they are read back from exactly the strings
of such words. The values themselves are exactly what integers are taken for that are the least
representatives of their components, with the real component of every coordinate in front. -/
theorem layout_exact :
    IsLayout (· = 64) (fun p : CurvePoint => [p.x, p.y]) CurvePoint.ofBytes CurvePoint.toBytes ∧
    IsLayout (· = 128) (fun p : TwistPoint => [p.x.im, p.x.re, p.y.im, p.y.re])
      TwistPoint.ofBytes TwistPoint.toBytes ∧
    IsLayout (· = 256)
      (fun p : Proof => [p.a.x, p.a.y, p.b.x.im, p.b.x.re, p.b.y.im, p.b.y.re, p.c.x, p.c.y])
      Proof.ofBytes Proof.toBytes ∧
    IsLayout (fun n => ∃ k ≥ 1, n = 448 + 64 * k)
      (fun vk : VerifyingKey => [vk.alpha.x, vk.alpha.y,
        vk.beta.x.im, vk.beta.x.re, vk.beta.y.im, vk.beta.y.re,
        vk.gamma.x.im, vk.gamma.x.re, vk.gamma.y.im, vk.gamma.y.re,
        vk.delta.x.im, vk.delta.x.re, vk.delta.y.im, vk.delta.y.re] ++
        vk.inputs.flatMap fun p => [p.x, p.y])
      VerifyingKey.ofBytes VerifyingKey.toBytes ∧
    IsLayout (fun n => ∃ m, n = 32 * m) Inputs.values Inputs.ofBytes Inputs.toBytes ∧
    (∀ x y p, CurvePoint.ofInts x y = .ok p ↔ x = p.x.val ∧ y = p.y.val) ∧
    (∀ xs ys p, TwistPoint.ofInts xs ys = .ok p ↔
      xs = [↑p.x.re.val, ↑p.x.im.val] ∧ ys = [↑p.y.re.val, ↑p.y.im.val]) ∧
    (∀ alpha beta gamma delta inputs vk,
      VerifyingKey.make alpha beta gamma delta inputs = .ok vk ↔ alpha = vk.alpha ∧
        beta = vk.beta ∧ gamma = vk.gamma ∧ delta = vk.delta ∧ inputs = vk.inputs) ∧
    ∀ vs xs, Inputs.ofInts vs = .ok xs ↔ vs = xs.toInts :=
  ⟨CurvePoint.isLayout, TwistPoint.isLayout, Proof.isLayout, VerifyingKey.isLayout,
    Inputs.isLayout, fun _ _ _ => CurvePoint.ofInts_eq_ok_iff,
    fun _ _ _ => TwistPoint.ofInts_eq_ok_iff,
    fun _ _ _ _ _ _ => VerifyingKey.make_eq_ok_iff, fun _ _ => Inputs.ofInts_eq_ok_iff⟩

end Snark.Abi
