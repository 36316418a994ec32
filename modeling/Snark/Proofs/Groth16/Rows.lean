import Snark.Proofs.Groth16.Storage
import Snark.Proofs.Key.Stored

/-!
# Three readings of one system

A system is evaluated constraint by constraint where an assignment is checked, by a table of entries
where a proof is made, and by columns where the keys are made. The rows of the prover are the values
of the constraints, followed by the public wires and by zeros, also after its key was stored; and
the columns are the transposed table, so that combining them with the values of the wires is the
same as combining the rows with the Lagrange basis.
-/

namespace Snark.Groth16

section Lists

/-- A list that continues with zeros where another one ends. -/
theorem eq_append_replicate {xs ys : List Fr} {n : Nat} (length : xs.length = n)
    (fits : ys.length ≤ n) (h : ∀ i < n, xs.getD i 0 = ys.getD i 0) :
    xs = ys ++ List.replicate (n - ys.length) 0 := by
  apply List.ext_getElem
  · rw [length, List.length_append, List.length_replicate, Nat.add_sub_cancel' fits]
  · intro i hi _
    rw [← List.getD_eq_getElem _ 0 hi, h i (length ▸ hi), List.getElem_append]
    split_ifs with inside
    · exact List.getD_eq_getElem _ _ inside
    · rw [List.getElem_replicate, List.getD_eq_default _ _ (Nat.not_lt.1 inside)]

/-- The positions of the elements with a property, in increasing order. -/
theorem map_filter_zipIdx {α : Type} (xs : List α) (d : α) (p : α → Bool) :
    (xs.zipIdx.filter fun e => p e.1).map (·.2) =
      (List.range xs.length).filter fun i => p (xs.getD i d) := by
  have indexed : xs.zipIdx = (List.range xs.length).map fun i => (xs.getD i d, i) := by
    apply List.ext_getElem (by simp)
    intro i hi _
    rw [List.length_zipIdx] at hi
    simp [hi]
  rw [indexed, List.filter_map, List.map_map]
  exact List.map_id _

theorem sum_getD_of_le (f : Nat → Fr) {xs : List Fr} {n : Nat} (h : xs.length ≤ n) :
    ∑ i ∈ Finset.range n, f i * xs.getD i 0 = ∑ i ∈ Finset.range xs.length, f i * xs.getD i 0 := by
  rw [← sum_zipIdx f xs h, sum_zipIdx f xs le_rfl]

end Lists

/-- There are `n` rows: one for each constraint, with its values, then one for each public wire,
which stands in the first matrix only, and then zeros. -/
structure RowsFollow (n publicWires : Nat) (evaluations : List (Fr × Fr × Fr)) (w : List Fr)
    (t : Rows) : Prop where
  a : t.a = evaluations.map (·.1) ++ w.take publicWires ++
    List.replicate (n - (evaluations.length + publicWires)) 0
  b : t.b = evaluations.map (·.2.1) ++ List.replicate (n - evaluations.length) 0
  c : t.c = t.a.zipWith (· * ·) t.b
  length_eq : t.a.length = n ∧ t.b.length = n

section System

variable {s : ConstraintSystem} {w : List Fr} {n : Nat}

theorem length_firstValues (hs : s.WellFormed) (hw : (w.length : Int) = s.wires) :
    (firstValues s w).length = rowCount s := by
  have fits := hs.publicWires_le
  rw [ConstraintSystem.publicWires] at fits
  rw [firstValues, List.length_append, List.length_map, List.length_take, rowCount]
  omega

/-- The entries of a system add up to its values. -/
theorem rowsFollow_rowsOf (hs : s.WellFormed) (hw : (w.length : Int) = s.wires)
    (hn : rowCount s ≤ n) :
    RowsFollow n (s.publicSignals + 1).toNat (s.constraints.map (Constraint.values w)) w
      (rowsOf n (coefficients s) w) := by
  obtain ⟨length_a, length_b, -⟩ := length_rowsOf n (coefficients s) w
  have length_first := length_firstValues hs hw
  have fits : (s.constraints.map (·.b.value w)).length ≤ n := length_map_constraints_le _ hn
  refine ⟨?_, ?_, rfl, length_a, length_b⟩
  · rw [eq_append_replicate length_a (length_first.trans_le hn) fun i hi =>
      (getD_rowsOf hs hw hn hi).1, length_first, firstValues, List.map_map, List.length_map]
    rfl
  · rw [eq_append_replicate length_b fits fun i hi => (getD_rowsOf hs hw hn hi).2, List.map_map,
      List.length_map, List.length_map]
    rfl

end System

section Follow

variable {n publicWires : Nat} {evaluations : List (Fr × Fr × Fr)} {w : List Fr} {t : Rows}

/-- In the row of a constraint stand its values. -/
theorem RowsFollow.getD_eq (h : RowsFollow n publicWires evaluations w t) {i : Nat}
    (hi : i < evaluations.length) :
    t.a.getD i 0 = (evaluations.map (·.1)).getD i 0 ∧
      t.b.getD i 0 = (evaluations.map (·.2.1)).getD i 0 := by
  rw [h.a, h.b, List.append_assoc, List.getD_append _ _ _ _ (by simpa using hi),
    List.getD_append _ _ _ _ (by simpa using hi)]
  exact ⟨rfl, rfl⟩

/-- The constraints that do not hold are those whose third value is not in the third row. -/
theorem RowsFollow.unsatisfied_eq (h : RowsFollow n publicWires evaluations w t) {circuit : Circuit}
    (evaluated : circuit.evaluations = .ok evaluations) :
    circuit.unsatisfied = .ok ((List.range evaluations.length).filter fun i =>
      t.c.getD i 0 ≠ (evaluations.map (·.2.2)).getD i 0) := by
  rw [Circuit.unsatisfied, evaluated, Except.ok_bind, Except.pure_eq_ok]
  congr 1
  refine (map_filter_zipIdx evaluations (0, 0, 0) fun e => e.1 * e.2.1 ≠ e.2.2).trans ?_
  apply List.filter_congr
  intro i hi
  have inside := List.mem_range.1 hi
  obtain ⟨a, b⟩ := h.getD_eq inside
  rw [h.c, getD_zipWith_mul _ _ (h.length_eq.1.trans h.length_eq.2.symm), a, b]
  simp [inside]

end Follow

section Assembled

variable {s : ConstraintSystem} {pk : ProvingKey G1 G2} {values : List Int} {n : Nat}

/-- The prover's rows are the values that an assembled circuit has, also for a key that was stored,
and they tell which constraints do not hold. -/
theorem rows_evaluations (hs : s.WellFormed)
    (room : (s.constraints.length : Int) + s.publicSignals + 1 ≤ n) (domain : pk.domain = n)
    (entries : pk.coefficients = coefficients s) (hvalues : (values.length : Int) = s.wires) :
    let w : List Fr := values.map Residue.ofInt
    ∃ circuit evaluations t, assemble s values = .ok circuit ∧
      circuit.evaluations = .ok evaluations ∧
      evaluations = s.constraints.map (Constraint.values w) ∧
      rows pk w = .ok t ∧ (∀ pk', KeyFile.ReadBack pk pk' → rows pk' w = .ok t) ∧
      (pk.WellFormed → KeyFile.ReadBack pk pk) ∧
      RowsFollow n (s.publicSignals + 1).toNat evaluations w t ∧
      circuit.unsatisfied = .ok ((List.range s.constraints.length).filter fun i =>
        t.c.getD i 0 ≠ (evaluations.map (·.2.2)).getD i 0) := by
  intro w
  have hw : (w.length : Int) = s.wires := by rw [List.length_map, hvalues]
  have hn : rowCount s ≤ n := rowCount_le hs room
  have read (pk' : ProvingKey G1 G2) (domain' : pk'.domain = n)
      (entries' : pk'.coefficients = coefficients s) :
      rows pk' w = .ok (rowsOf n (coefficients s) w) := by
    rw [rows_eq domain' (entries' ▸ inRange_coefficients hs hw hn), entries']
  have assembled : assemble s values = .ok ⟨s, some w⟩ := by rw [assemble, if_pos hvalues]
  have evaluated := ConstraintSystem.evaluations_eq hs hw
  have follow := rowsFollow_rowsOf hs hw hn
  refine ⟨_, _, _, assembled, evaluated, rfl, read pk domain entries, fun pk' stored => ?_,
    KeyFile.readBack_self, follow, ?_⟩
  · obtain ⟨⟨-, -, domain'⟩, entries'⟩ := stored.same
    exact read pk' (domain'.trans domain) (entries'.trans entries)
  · rw [follow.unsatisfied_eq evaluated, List.length_map]

end Assembled

/-- The rows of a wrong product, before and after the key was stored. -/
theorem rows_evaluations_multiplier : ∃ pk : ProvingKey G1 G2, ∃ circuit t,
    pk.domain = 4 ∧ pk.coefficients = coefficients .multiplier ∧ KeyFile.ReadBack pk pk ∧
      assemble .multiplier [1, 7, 2, -3] = .ok circuit ∧
      rows pk ([1, 7, 2, -3].map Residue.ofInt) = .ok t ∧
      t.a = [2, 1, 7, 0] ∧ t.b = [-3, 0, 0, 0] ∧ circuit.unsatisfied = .ok [0] := by
  let pk := keyOf G1 G2 .multiplier ⟨1, 0, 0, 0, 0⟩ 2
  have wellFormed : pk.WellFormed := keyOf_wellFormed Bn254.isOnCurve_multiple
    Bn254.isOnTwist_multiple (by decide) (by decide) (by decide) (by decide) (by decide)
  have domain : pk.domain = (4 : Nat) := rfl
  have count : ([1, 7, 2, -3].length : Int) = ConstraintSystem.multiplier.wires := rfl
  obtain ⟨circuit, _, t, assembled, -, rfl, read, -, stored, follow, unsatisfied⟩ :=
    rows_evaluations (by decide) (by decide) domain rfl count
  have c : t.c = [-6, 0, 0, 0] := by
    rw [follow.c, follow.a, follow.b]
    decide
  refine ⟨pk, circuit, t, domain, rfl, stored wellFormed, assembled, read, ?_, ?_, ?_⟩
  · rw [follow.a]
    decide
  · rw [follow.b]
    decide
  · rw [unsatisfied, c]
    exact congrArg Except.ok (by decide)

/-- The columns, combined with the values of the wires, are the first two rows and the values
`products` of the third combinations, combined with the basis. -/
structure Transposes (basis wires products : List Fr) (c : Columns) (t : Rows) : Prop where
  u : ∑ j ∈ Finset.range wires.length, wires.getD j 0 * c.u.getD j 0 =
    ∑ i ∈ Finset.range basis.length, t.a.getD i 0 * basis.getD i 0
  v : ∑ j ∈ Finset.range wires.length, wires.getD j 0 * c.v.getD j 0 =
    ∑ i ∈ Finset.range basis.length, t.b.getD i 0 * basis.getD i 0
  w : ∑ j ∈ Finset.range wires.length, wires.getD j 0 * c.w.getD j 0 =
    ∑ i ∈ Finset.range products.length, products.getD i 0 * basis.getD i 0
  length_columns : c.u.length = wires.length ∧ c.v.length = wires.length ∧
    c.w.length = wires.length
  length_rows : t.a.length = basis.length ∧ t.b.length = basis.length

section Columns

variable {G₁ G₂ : Type} {s : ConstraintSystem} {pk : ProvingKey G₁ G₂} {w : List Fr} {k : Nat}

/-- Both are the form of the entries, in the basis and the values of the wires. -/
theorem transposes_columnsOf (hs : s.WellFormed) (hw : (w.length : Int) = s.wires)
    {basis : List Fr} (hn : rowCount s ≤ basis.length) :
    Transposes basis w (s.constraints.map (·.c.value w)) (columnsOf s basis)
      (rowsOf basis.length (coefficients s) w) := by
  obtain ⟨length_a, length_b, -⟩ := length_rowsOf basis.length (coefficients s) w
  obtain ⟨u, v, third⟩ := sum_mul_columnsOf hs hn w basis
  have wires : s.wires.toNat = w.length := by omega
  rw [wires] at u v third
  refine ⟨u.trans ?_, v.trans ?_, third.trans ?_, by simp [columnsOf, wires], length_a, length_b⟩
  · apply Finset.sum_congr rfl
    intro i hi
    rw [(getD_rowsOf hs hw hn (Finset.mem_range.1 hi)).1, mul_comm]
  · apply Finset.sum_congr rfl
    intro i hi
    rw [(getD_rowsOf hs hw hn (Finset.mem_range.1 hi)).2, mul_comm]
  · rw [sum_getD_of_le _ (length_map_constraints_le _ hn)]
    exact Finset.sum_congr rfl fun i _ => mul_comm _ _

/-- The columns of the setup at a point are the transposed rows of the prover, combined with the
Lagrange basis there. -/
theorem columns_transpose (hs : s.WellFormed)
    (room : (s.constraints.length : Int) + s.publicSignals + 1 ≤ (2 ^ k : Nat))
    (small : 2 ^ k ≤ maxDomain) (domain : pk.domain = ((2 ^ k : Nat) : Int))
    (entries : pk.coefficients = coefficients s) (hw : (w.length : Int) = s.wires) (tau : Fr) :
    ∃ basis columnsAt t evaluations, lagrange tau ((2 ^ k : Nat) : Int) = .ok basis ∧
      basis.length = 2 ^ k ∧ columns s tau ((2 ^ k : Nat) : Int) = .ok columnsAt ∧
      rows pk w = .ok t ∧ (Circuit.mk s (some w)).evaluations = .ok evaluations ∧
      evaluations.length = s.constraints.length ∧
      Transposes basis w (evaluations.map (·.2.2)) columnsAt t := by
  have hk := le_of_two_pow_le_maxDomain small
  have hn : rowCount s ≤ 2 ^ k := rowCount_le hs room
  have length := length_basisList k tau
  have basis_eq : lagrange tau ((2 ^ k : Nat) : Int) = .ok (basisList k tau) := lagrange_eq hk tau
  have read : rows pk w = .ok (rowsOf (basisList k tau).length (coefficients s) w) := by
    rw [length, rows_eq domain (entries ▸ inRange_coefficients hs hw hn), entries]
  refine ⟨_, _, _, _, basis_eq, length, columns_eq hs hn length basis_eq, read,
    ConstraintSystem.evaluations_eq hs hw, List.length_map _, ?_⟩
  rw [List.map_map]
  exact transposes_columnsOf hs hw (length ▸ hn)

/-- The columns of a product at three, for values that do not satisfy it. -/
theorem columns_transpose_multiplier : ∃ pk : ProvingKey Logarithm Logarithm, ∃ basis columnsAt t,
    pk.domain = 4 ∧ pk.coefficients = coefficients .multiplier ∧ lagrange 3 4 = .ok basis ∧
      columns .multiplier 3 4 = .ok columnsAt ∧ rows pk [1, 7, 2, 3] = .ok t ∧
      Transposes basis [1, 7, 2, 3] [7] columnsAt t := by
  let pk := keyOf Logarithm Logarithm .multiplier ⟨3, 0, 0, 0, 0⟩ 2
  have domain : pk.domain = ((2 ^ 2 : Nat) : Int) := rfl
  have entries : pk.coefficients = coefficients .multiplier := rfl
  obtain ⟨basis, columnsAt, t, evaluations, made, -, found, read, evaluated, -, transposes⟩ :=
    columns_transpose (w := [1, 7, 2, 3]) (by decide) (by decide) (by decide) domain entries rfl 3
  obtain rfl : evaluations = [(2, 3, 7)] :=
    Except.ok.inj (evaluated.symm.trans (congrArg Except.ok (by decide)))
  exact ⟨pk, basis, columnsAt, t, domain, entries, made, found, read, transposes⟩

end Columns

end Snark.Groth16
