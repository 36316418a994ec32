import Mathlib.Algebra.BigOperators.Ring.Finset
import Mathlib.Algebra.BigOperators.Ring.List
import Mathlib.Data.List.GetD
import Mathlib.Tactic.Ring
import Snark.Groth16.Prove
import Snark.Groth16.Setup
import Snark.Proofs.Key.Basic
import Snark.Proofs.System.Evaluation

/-!
# Matrices given by their entries

The entries of a matrix define a bilinear form in a weight for every row and a value for every
wire. The rows of the prover are the form read by rows and the columns of the setup are the form
read by columns, so combining columns with the values of the wires is the same as combining rows
with the weights. The form of a constraint system is evaluated constraint by constraint.
-/

namespace Snark

namespace Groth16

section Sums

variable {length : Nat}

theorem getD_modify_add (xs : List Fr) (i j : Nat) (v : Fr) (hj : j < xs.length) :
    (xs.modify j (· + v)).getD i 0 = xs.getD i 0 + if i = j then v else 0 := by
  rw [List.getD_eq_getElem?_getD, List.getD_eq_getElem?_getD, List.getElem?_modify]
  by_cases same : j = i
  · subst same
    simp [hj]
  · simp [same, Ne.symm same]

/-- Weighting the summed list is weighting every term by the weight of its place. -/
theorem sum_mul_sums (f : Nat → Fr) (ts : List Term) (h : ∀ t ∈ ts, t.index < length) :
    ∑ i ∈ Finset.range length, f i * (sums length ts).getD i 0 =
      (ts.map fun t => f t.index * t.value).sum := by
  have fold (xs : List Fr) (hxs : xs.length = length) :
      ∑ i ∈ Finset.range length,
          f i * (ts.foldl (fun xs t => xs.modify t.index (· + t.value)) xs).getD i 0 =
        ∑ i ∈ Finset.range length, f i * xs.getD i 0 +
          (ts.map fun t => f t.index * t.value).sum := by
    induction ts generalizing xs with
    | nil => simp
    | cons t ts ih =>
      have inside : t.index < length := h t List.mem_cons_self
      have step (i : Nat) :
          f i * (xs.modify t.index (· + t.value)).getD i 0 =
            f i * xs.getD i 0 + if i = t.index then f i * t.value else 0 := by
        rw [getD_modify_add xs i t.index t.value (hxs ▸ inside), mul_add, mul_ite, mul_zero]
      rw [List.foldl_cons, ih (fun u hu => h u (List.mem_cons_of_mem t hu)) _
        (by rw [List.length_modify, hxs]), List.map_cons, List.sum_cons]
      simp only [step, Finset.sum_add_distrib, Finset.sum_ite_eq',
        if_pos (Finset.mem_range.2 inside)]
      ring
  rw [sums, fold _ List.length_replicate]
  have zero (i : Nat) : (List.replicate length (0 : Fr)).getD i 0 = 0 := by
    rw [List.getD_eq_getElem?_getD, List.getElem?_replicate]
    split <;> rfl
  simp only [zero, mul_zero, Finset.sum_const_zero, zero_add]

/-- A place of the summed list is found by the weight that is one there and zero elsewhere. -/
theorem getD_eq_sum (xs : List Fr) {i : Nat} (hi : i < length) :
    xs.getD i 0 = ∑ j ∈ Finset.range length, (if j = i then 1 else 0) * xs.getD j 0 := by
  simp only [ite_mul, one_mul, zero_mul, Finset.sum_ite_eq', if_pos (Finset.mem_range.2 hi)]

theorem sum_zipIdx (f : Nat → Fr) (ys : List Fr) {n : Nat} (h : ys.length ≤ n) :
    (ys.zipIdx.map fun p => f p.2 * p.1).sum = ∑ i ∈ Finset.range n, f i * ys.getD i 0 := by
  induction ys generalizing f n with
  | nil => simp
  | cons y ys ih =>
    obtain ⟨n, rfl⟩ : ∃ m, n = m + 1 := ⟨n - 1, by rw [List.length_cons] at h; omega⟩
    have shifted := ih (fun i => f (i + 1)) (Nat.le_of_succ_le_succ h)
    rw [List.zipIdx_cons', List.map_cons, List.sum_cons, List.map_map, Finset.sum_range_succ',
      List.getD_cons_zero, add_comm]
    congr 1

end Sums

/-- The bilinear form of some entries in weights of the rows and values of the wires. -/
def form (es : List Coefficient) (f : Nat → Fr) (w : List Fr) : Fr :=
  (es.map fun e => f e.row.toNat * (e.value * w.getD e.signal.toNat 0)).sum

theorem form_append (es es' : List Coefficient) (f : Nat → Fr) (w : List Fr) :
    form (es ++ es') f w = form es f w + form es' f w := by
  rw [form, List.map_append, List.sum_append]
  rfl

section Terms

variable {rows wires : Nat} {es : List Coefficient}

open Coefficient (InRange)

theorem term_eq {xs : List Fr} {length : Nat} {source target : Int} (c : Fr)
    (hs : 0 ≤ source ∧ source < xs.length) (ht : 0 ≤ target ∧ target < length) :
    term xs length source target c = .ok ⟨target.toNat, c * xs.getD source.toNat 0⟩ := by
  rw [term, Position.get_eq_getD 0 hs.1 hs.2, Except.ok_bind, Position.find_eq ht.1 ht.2]
  rfl

/-- What an entry adds to its row. -/
def rowTerm (w : List Fr) (e : Coefficient) : Term :=
  ⟨e.row.toNat, e.value * w.getD e.signal.toNat 0⟩

/-- What an entry adds to its column. -/
def columnTerm (basis : List Fr) (e : Coefficient) : Term :=
  ⟨e.signal.toNat, e.value * basis.getD e.row.toNat 0⟩

theorem mapM_rowTerm {w : List Fr} (hw : w.length = wires) (h : ∀ e ∈ es, InRange rows wires e) :
    es.mapM (fun e => term w rows e.signal e.row e.value) = .ok (es.map (rowTerm w)) := by
  apply Except.mapM_eq_ok
  intro e he
  obtain ⟨row, signal⟩ := h e he
  exact term_eq e.value (by rwa [hw]) row

theorem mapM_columnTerm {basis : List Fr} (hb : basis.length = rows)
    (h : ∀ e ∈ es, InRange rows wires e) :
    es.mapM (fun e => term basis wires e.row e.signal e.value) =
      .ok (es.map (columnTerm basis)) := by
  apply Except.mapM_eq_ok
  intro e he
  obtain ⟨row, signal⟩ := h e he
  exact term_eq e.value (by rwa [hb]) signal

theorem sum_mul_rows (f : Nat → Fr) (w : List Fr) (h : ∀ e ∈ es, InRange rows wires e) :
    ∑ i ∈ Finset.range rows, f i * (sums rows (es.map (rowTerm w))).getD i 0 = form es f w := by
  rw [sum_mul_sums, List.map_map]
  · rfl
  · intro t ht
    obtain ⟨e, he, rfl⟩ := List.mem_map.1 ht
    have := (h e he).1
    simp only [rowTerm]
    omega

/-- Columns combined with the values of the wires are rows combined with their weights. -/
theorem sum_mul_columns (basis w : List Fr) (h : ∀ e ∈ es, InRange rows wires e) :
    ∑ j ∈ Finset.range wires, w.getD j 0 * (sums wires (es.map (columnTerm basis))).getD j 0 =
      form es (basis.getD · 0) w := by
  rw [sum_mul_sums, List.map_map, form]
  · apply congrArg List.sum
    apply List.map_congr_left
    intro e _
    simp only [Function.comp_apply, columnTerm]
    ring
  · intro t ht
    obtain ⟨e, he, rfl⟩ := List.mem_map.1 ht
    have := (h e he).2
    simp only [columnTerm]
    omega

end Terms

section System

variable {s : ConstraintSystem} {w : List Fr} {n : Nat}

/-- The entries of a combination that stands in a row. -/
def combinationRow (matrix : Int) (row : Nat) (lc : LinearCombination) : List Coefficient :=
  lc.map fun (wire, value) => ⟨matrix, row, wire, value⟩

/-- The entries of the combinations of one kind, one combination a row. -/
def combinationEntries (matrix : Int) (lcs : List LinearCombination) : List Coefficient :=
  lcs.zipIdx.flatMap fun (lc, row) => combinationRow matrix row lc

/-- The entries that bind the public wires, one wire a row behind those of the constraints. -/
def publicEntries (s : ConstraintSystem) : List Coefficient :=
  (List.range (s.publicSignals + 1).toNat).map fun (wire : Nat) =>
    ⟨0, s.constraints.length + wire, wire, 1⟩

theorem combinationEntries_map (matrix : Int) (ks : List Constraint)
    (part : Constraint → LinearCombination) :
    combinationEntries matrix (ks.map part) =
      ks.zipIdx.flatMap fun (k, row) => combinationRow matrix row (part k) := by
  rw [combinationEntries, List.zipIdx_map, List.flatMap_map]
  rfl

theorem productEntries_eq (s : ConstraintSystem) :
    productEntries s = combinationEntries 2 (s.constraints.map (·.c)) :=
  (combinationEntries_map 2 s.constraints (·.c)).symm

theorem filter_of_matrix {p : Int → Bool} {m : Int} {es : List Coefficient}
    (h : ∀ e ∈ es, e.matrix = m) : es.filter (fun e => p e.matrix) = if p m then es else [] := by
  split_ifs with hp
  · exact List.filter_eq_self.2 fun e he => by rwa [h e he]
  · exact List.filter_eq_nil_iff.2 fun e he => by rwa [h e he]

/-- The entries of some matrices: those of the combinations, and those of the public wires for the
first matrix. -/
theorem filter_coefficients (s : ConstraintSystem) (p : Int → Bool) :
    (coefficients s).filter (fun e => p e.matrix) =
      (s.constraints.zipIdx.flatMap fun (k, row) =>
        (if p 0 then combinationRow 0 row k.a else []) ++
          if p 1 then combinationRow 1 row k.b else []) ++
      if p 0 then publicEntries s else [] := by
  have combination (m : Int) (row : Nat) (lc : LinearCombination) :
      ∀ e ∈ combinationRow m row lc, e.matrix = m := by
    intro e he
    obtain ⟨t, _, rfl⟩ := List.mem_map.1 he
    rfl
  have publicRow : ∀ e ∈ publicEntries s, e.matrix = 0 := by
    intro e he
    obtain ⟨wire, _, rfl⟩ := List.mem_map.1 he
    rfl
  rw [← filter_of_matrix publicRow]
  simp only [← filter_of_matrix (combination _ _ _), ← List.filter_append, ← List.filter_flatMap]
  rfl

theorem filter_first (s : ConstraintSystem) :
    (coefficients s).filter (fun e => e.matrix = 0) =
      combinationEntries 0 (s.constraints.map (·.a)) ++ publicEntries s := by
  rw [combinationEntries_map, filter_coefficients s fun m => decide (m = 0)]
  simp

theorem filter_second (s : ConstraintSystem) :
    (coefficients s).filter (fun e => !decide (e.matrix = 0)) =
      combinationEntries 1 (s.constraints.map (·.b)) := by
  rw [combinationEntries_map, filter_coefficients s fun m => !decide (m = 0)]
  simp

theorem form_combinationRow (matrix : Int) (row : Nat) (lc : LinearCombination) (f : Nat → Fr)
    (w : List Fr) : form (combinationRow matrix row lc) f w = f row * lc.value w := by
  rw [form, combinationRow, List.map_map, LinearCombination.value, ← List.sum_map_mul_left]
  rfl

theorem form_combinationEntries (matrix : Int) (lcs : List LinearCombination) (f : Nat → Fr)
    (w : List Fr) (h : lcs.length ≤ n) :
    form (combinationEntries matrix lcs) f w =
      ∑ i ∈ Finset.range n, f i * (lcs.map (·.value w)).getD i 0 := by
  rw [← sum_zipIdx f _ (by rwa [List.length_map]), List.zipIdx_map, List.map_map, form,
    combinationEntries, List.map_flatMap, List.flatMap, List.sum_flatten, List.map_map]
  apply congrArg List.sum
  apply List.map_congr_left
  intro p _
  exact form_combinationRow matrix p.2 p.1 f w

theorem form_publicEntries (f : Nat → Fr) (w : List Fr) :
    form (publicEntries s) f w =
      ∑ j ∈ Finset.range (s.publicSignals + 1).toNat,
        f (s.constraints.length + j) * w.getD j 0 := by
  rw [form, publicEntries, List.map_map]
  apply congrArg List.sum
  apply List.map_congr_left
  intro j _
  simp only [Function.comp_apply, one_mul, Int.toNat_natCast]
  rfl

/-- The values of the first combinations, followed by those of the public wires. -/
def firstValues (s : ConstraintSystem) (w : List Fr) : List Fr :=
  s.constraints.map (·.a.value w) ++ w.take (s.publicSignals + 1).toNat

/-- The rows that a system takes up. -/
def rowCount (s : ConstraintSystem) : Nat := s.constraints.length + (s.publicSignals + 1).toNat

theorem length_map_constraints_le {α : Type} (f : Constraint → α) (hn : rowCount s ≤ n) :
    (s.constraints.map f).length ≤ n := by
  rw [List.length_map]
  exact (Nat.le_add_right _ _).trans hn

/-- The size of a domain, as the number of rows that a system takes up. -/
theorem rowCount_le (hs : s.WellFormed)
    (room : (s.constraints.length : Int) + s.publicSignals + 1 ≤ n) : rowCount s ≤ n := by
  have := hs.publicSignals_nonneg
  rw [rowCount]
  omega

theorem form_first (f : Nat → Fr) (w : List Fr) (hn : rowCount s ≤ n) :
    form ((coefficients s).filter fun e => e.matrix = 0) f w =
      ∑ i ∈ Finset.range n, f i * (firstValues s w).getD i 0 := by
  have outside (i : Nat) (hi : rowCount s ≤ i) : (firstValues s w).getD i 0 = 0 := by
    apply List.getD_eq_default
    rw [firstValues, List.length_append, List.length_map, List.length_take]
    rw [rowCount] at hi
    omega
  have upper (i : Nat) (hi : i ∈ Finset.range s.constraints.length) :
      (firstValues s w).getD i 0 = (s.constraints.map (·.a.value w)).getD i 0 := by
    rw [firstValues, List.getD_append _ _ _ _ (by simpa using hi)]
  have lower (j : Nat) (hj : j ∈ Finset.range (s.publicSignals + 1).toNat) :
      (firstValues s w).getD (s.constraints.length + j) 0 = w.getD j 0 := by
    rw [firstValues, List.getD_append_right _ _ _ _ (by simp), List.length_map,
      Nat.add_sub_cancel_left, List.getD_eq_getElem?_getD, List.getD_eq_getElem?_getD,
      List.getElem?_take_of_lt (Finset.mem_range.1 hj)]
  rw [filter_first, form_append, form_combinationEntries 0 _ f w (n := s.constraints.length)
    (by rw [List.length_map]), form_publicEntries]
  calc _
      _ = ∑ i ∈ Finset.range (rowCount s), f i * (firstValues s w).getD i 0 := by
        rw [rowCount, Finset.sum_range_add, List.map_map]
        congr 1
        · exact Finset.sum_congr rfl fun i hi => by rw [upper i hi]; rfl
        · exact Finset.sum_congr rfl fun j hj => by rw [lower j hj]
      _ = ∑ i ∈ Finset.range n, f i * (firstValues s w).getD i 0 := by
        apply Finset.sum_subset (Finset.range_mono hn)
        intro i _ hi
        rw [outside i (by simpa using hi), mul_zero]

theorem form_second (f : Nat → Fr) (w : List Fr) (hn : rowCount s ≤ n) :
    form ((coefficients s).filter fun e => !decide (e.matrix = 0)) f w =
      ∑ i ∈ Finset.range n, f i * (s.constraints.map (·.b.value w)).getD i 0 := by
  rw [filter_second, form_combinationEntries 1 _ f w (length_map_constraints_le _ hn),
    List.map_map]
  rfl

theorem form_products (f : Nat → Fr) (w : List Fr) (hn : rowCount s ≤ n) :
    form (productEntries s) f w =
      ∑ i ∈ Finset.range n, f i * (s.constraints.map (·.c.value w)).getD i 0 := by
  rw [productEntries_eq, form_combinationEntries 2 _ f w (length_map_constraints_le _ hn),
    List.map_map]
  rfl

theorem mem_combinationEntries {matrix : Int} {lcs : List LinearCombination} {wires : Int}
    {e : Coefficient} (he : e ∈ combinationEntries matrix lcs)
    (h : ∀ lc ∈ lcs, lc.InRange wires) : e.InRange lcs.length wires := by
  obtain ⟨⟨lc, row⟩, member, inRow⟩ := List.mem_flatMap.1 he
  obtain ⟨⟨wire, value⟩, ht, rfl⟩ := List.mem_map.1 inRow
  have below : row < lcs.length := List.snd_lt_of_mem_zipIdx member
  exact ⟨⟨by simp, Int.ofNat_lt.2 below⟩, h lc (List.fst_mem_of_mem_zipIdx member) _ ht⟩

theorem mem_publicEntries (hs : s.WellFormed) {e : Coefficient} (he : e ∈ publicEntries s) :
    e.InRange (rowCount s) s.wires := by
  obtain ⟨j, hj, rfl⟩ := List.mem_map.1 he
  have below := List.mem_range.1 hj
  have fits := hs.publicWires_le
  rw [ConstraintSystem.publicWires] at fits
  refine ⟨⟨by simp; omega, ?_⟩, by simp, by simp; omega⟩
  rw [rowCount]
  push_cast
  omega

theorem mem_coefficients (hs : s.WellFormed) (hn : rowCount s ≤ n) {e : Coefficient}
    (he : e ∈ coefficients s) : e.InRange n s.wires := by
  have rows : (s.constraints.length : Int) ≤ n := by rw [rowCount] at hn; omega
  by_cases first : e.matrix = 0
  · have member := filter_first s ▸ List.mem_filter.2 ⟨he, decide_eq_true first⟩
    rcases List.mem_append.1 member with inA | inPublic
    · refine (mem_combinationEntries inA ?_).mono (by rwa [List.length_map])
      intro lc hlc
      obtain ⟨k, hk, rfl⟩ := List.mem_map.1 hlc
      exact (hs.inRange k hk).1
    · exact (mem_publicEntries hs inPublic).mono (Int.ofNat_le.2 hn)
  · have member := filter_second s ▸ List.mem_filter.2 ⟨he, by simpa using first⟩
    refine (mem_combinationEntries member ?_).mono (by rwa [List.length_map])
    intro lc hlc
    obtain ⟨k, hk, rfl⟩ := List.mem_map.1 hlc
    exact (hs.inRange k hk).2.1

theorem inRange_coefficients (hs : s.WellFormed) (hw : (w.length : Int) = s.wires)
    (hn : rowCount s ≤ n) : ∀ e ∈ coefficients s, e.InRange n w.length := by
  intro e he
  rw [hw]
  exact mem_coefficients hs hn he

theorem mem_productEntries (hs : s.WellFormed) (hn : rowCount s ≤ n) {e : Coefficient}
    (he : e ∈ productEntries s) : e.InRange n s.wires := by
  have rows : (s.constraints.length : Int) ≤ n := by rw [rowCount] at hn; omega
  rw [productEntries_eq] at he
  refine (mem_combinationEntries he ?_).mono (by rwa [List.length_map])
  intro lc hlc
  obtain ⟨k, hk, rfl⟩ := List.mem_map.1 hlc
  exact (hs.inRange k hk).2.2

end System

section Reading

variable {G₁ G₂ : Type} {pk : ProvingKey G₁ G₂} {s : ConstraintSystem} {w basis : List Fr}
variable {n : Nat}

/-- The rows that entries of the first two matrices add up to. -/
def rowsOf (n : Nat) (es : List Coefficient) (w : List Fr) : Rows :=
  let a := sums n ((es.filter fun e => e.matrix = 0).map (rowTerm w))
  let b := sums n ((es.filter fun e => !decide (e.matrix = 0)).map (rowTerm w))
  ⟨a, b, a.zipWith (· * ·) b⟩

theorem length_rowsOf (n : Nat) (es : List Coefficient) (w : List Fr) :
    (rowsOf n es w).a.length = n ∧ (rowsOf n es w).b.length = n ∧
      (rowsOf n es w).c.length = n := by
  simp [rowsOf]

/-- The columns that the entries of a system add up to. -/
def columnsOf (s : ConstraintSystem) (basis : List Fr) : Columns :=
  let column (es : List Coefficient) := sums s.wires.toNat (es.map (columnTerm basis))
  ⟨column ((coefficients s).filter fun e => e.matrix = 0),
    column ((coefficients s).filter fun e => !decide (e.matrix = 0)), column (productEntries s)⟩

theorem rows_eq_toNat (h : ∀ e ∈ pk.coefficients, e.InRange pk.domain.toNat w.length) :
    rows pk w = .ok (rowsOf pk.domain.toNat pk.coefficients w) := by
  have part (p : Coefficient → Bool) :
      ∀ e ∈ pk.coefficients.filter p, e.InRange pk.domain.toNat w.length :=
    fun e he => h e (List.mem_filter.1 he).1
  rw [rows, rowTerms, List.partition_eq_filter_filter]
  dsimp only
  rw [mapM_rowTerm rfl (part _), Except.ok_bind, mapM_rowTerm rfl (part _)]
  rfl

theorem rows_eq (hd : pk.domain = n) (h : ∀ e ∈ pk.coefficients, e.InRange n w.length) :
    rows pk w = .ok (rowsOf n pk.coefficients w) := by
  have size : pk.domain.toNat = n := by rw [hd, Int.toNat_natCast]
  rw [← size] at h ⊢
  exact rows_eq_toNat h

theorem columns_eq (hs : s.WellFormed) (hn : rowCount s ≤ n) (hb : basis.length = n) {tau : Fr}
    {size : Int} (hbasis : lagrange tau size = .ok basis) :
    columns s tau size = .ok (columnsOf s basis) := by
  have wires : (s.wires.toNat : Int) = s.wires := Int.toNat_of_nonneg hs.wires_nonneg
  have part (p : Coefficient → Bool) :
      ∀ e ∈ (coefficients s).filter p, e.InRange n s.wires.toNat := by
    intro e he
    rw [wires]
    exact mem_coefficients hs hn (List.mem_filter.1 he).1
  have products : ∀ e ∈ productEntries s, e.InRange n s.wires.toNat := by
    intro e he
    rw [wires]
    exact mem_productEntries hs hn he
  rw [columns, hbasis, Except.ok_bind, columnTerms, List.partition_eq_filter_filter]
  dsimp only
  rw [mapM_columnTerm hb (part _), Except.ok_bind, mapM_columnTerm hb (part _), Except.ok_bind,
    mapM_columnTerm hb products]
  rfl

/-- Rows are known as soon as the form is known in every weight. -/
theorem getD_sums_eq {es : List Coefficient} {xs : List Fr}
    (inRange : ∀ e ∈ es, e.InRange n w.length)
    (h : ∀ f, form es f w = ∑ i ∈ Finset.range n, f i * xs.getD i 0) {i : Nat} (hi : i < n) :
    (sums n (es.map (rowTerm w))).getD i 0 = xs.getD i 0 := by
  rw [getD_eq_sum _ hi, sum_mul_rows _ w inRange, h, ← getD_eq_sum xs hi]

/-- The rows of a system are the values of its combinations, with the public wires behind those
of the first matrix. -/
theorem getD_rowsOf (hs : s.WellFormed) (hw : (w.length : Int) = s.wires) (hn : rowCount s ≤ n)
    {i : Nat} (hi : i < n) :
    (rowsOf n (coefficients s) w).a.getD i 0 = (firstValues s w).getD i 0 ∧
      (rowsOf n (coefficients s) w).b.getD i 0 =
        (s.constraints.map (·.b.value w)).getD i 0 := by
  have part (p : Coefficient → Bool) :
      ∀ e ∈ (coefficients s).filter p, e.InRange n w.length :=
    fun e he => inRange_coefficients hs hw hn e (List.mem_filter.1 he).1
  exact ⟨getD_sums_eq (part _) (fun f => form_first f w hn) hi,
    getD_sums_eq (part _) (fun f => form_second f w hn) hi⟩

/-- The columns at a point, combined with the values of the wires, are the values of the
combinations, combined with the basis there. -/
theorem sum_mul_columnsOf (hs : s.WellFormed) (hn : rowCount s ≤ n) (w basis : List Fr) :
    ∑ j ∈ Finset.range s.wires.toNat, w.getD j 0 * (columnsOf s basis).u.getD j 0 =
        ∑ i ∈ Finset.range n, basis.getD i 0 * (firstValues s w).getD i 0 ∧
      ∑ j ∈ Finset.range s.wires.toNat, w.getD j 0 * (columnsOf s basis).v.getD j 0 =
        ∑ i ∈ Finset.range n, basis.getD i 0 * (s.constraints.map (·.b.value w)).getD i 0 ∧
      ∑ j ∈ Finset.range s.wires.toNat, w.getD j 0 * (columnsOf s basis).w.getD j 0 =
        ∑ i ∈ Finset.range n, basis.getD i 0 * (s.constraints.map (·.c.value w)).getD i 0 := by
  have wires : (s.wires.toNat : Int) = s.wires := Int.toNat_of_nonneg hs.wires_nonneg
  have part (p : Coefficient → Bool) :
      ∀ e ∈ (coefficients s).filter p, e.InRange n s.wires.toNat := by
    intro e he
    rw [wires]
    exact mem_coefficients hs hn (List.mem_filter.1 he).1
  have products : ∀ e ∈ productEntries s, e.InRange n s.wires.toNat := by
    intro e he
    rw [wires]
    exact mem_productEntries hs hn he
  refine ⟨?_, ?_, ?_⟩
  · exact (sum_mul_columns basis w (part _)).trans (form_first _ w hn)
  · exact (sum_mul_columns basis w (part _)).trans (form_second _ w hn)
  · exact (sum_mul_columns basis w products).trans (form_products _ w hn)

end Reading

end Groth16

end Snark
