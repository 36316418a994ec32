import Snark.Proofs.Groth16.Quotient

/-!
# A prover that leaves nothing out

Where the prover pairs two lists, the shorter one ends the pairs. A length that nothing checks would
not be noticed there: it would leave out points or scalars and give a wrong proof. The strict prover
makes the same proof with every list used to its end. It pairs two lists only if they end together,
takes an entry only if its row and its wire exist, and makes a row of the sum of its entries.
Whatever it proves is what the prover proves.
-/

namespace Snark.Groth16.Strict

open CurveGroup

section Pairs

variable {α β : Type}

/-- The elements of two lists side by side, if both lists end together. -/
def pairs : List α → List β → Except Fault (List (α × β))
  | [], [] => .ok []
  | x :: xs, y :: ys => do return (x, y) :: (← pairs xs ys)
  | [], _ :: _ => .error .indexOutOfRange
  | _ :: _, [] => .error .indexOutOfRange

theorem pairs_eq_ok_iff {xs : List α} {ys : List β} {zs : List (α × β)} :
    pairs xs ys = .ok zs ↔ xs.length = ys.length ∧ zs = xs.zip ys := by
  induction xs, ys using pairs.induct generalizing zs with
  | case1 => simp [pairs, eq_comm]
  | case2 x xs y ys ih =>
    rw [pairs, Except.bind_eq_ok_iff]
    simp only [ih, Except.pure_eq_ok, Except.ok.injEq, List.length_cons, Nat.succ.injEq,
      List.zip_cons_cons]
    constructor
    · rintro ⟨_, ⟨same, rfl⟩, rfl⟩
      exact ⟨same, rfl⟩
    · rintro ⟨same, rfl⟩
      exact ⟨_, ⟨same, rfl⟩, rfl⟩
  | case3 y ys => simp [pairs]
  | case4 x xs => simp [pairs]

theorem pairs_eq {xs : List α} {ys : List β} (h : xs.length = ys.length) :
    pairs xs ys = .ok (xs.zip ys) :=
  pairs_eq_ok_iff.2 ⟨h, rfl⟩

end Pairs

section Combination

variable {G : Type} [CurveGroup G] {ks : List Fr} {ps : List G}

/-- The sum of multiples of points, if there is a scalar for every point and a point for every
scalar. -/
def combination (ks : List Fr) (ps : List G) : Except Fault G := do
  return (← pairs ks ps).foldl (fun acc kp => add acc (scale kp.1 kp.2)) zero

theorem combination_eq_ok_iff {p : G} :
    combination ks ps = .ok p ↔ ks.length = ps.length ∧ CurveGroup.combination ks ps = p := by
  rw [combination, Except.bind_eq_ok_iff]
  simp only [pairs_eq_ok_iff, Except.pure_eq_ok, Except.ok.injEq]
  constructor
  · rintro ⟨_, ⟨same, rfl⟩, rfl⟩
    exact ⟨same, rfl⟩
  · rintro ⟨same, rfl⟩
    exact ⟨_, ⟨same, rfl⟩, rfl⟩

theorem combination_eq (h : ks.length = ps.length) :
    combination ks ps = .ok (CurveGroup.combination ks ps) :=
  combination_eq_ok_iff.2 ⟨h, rfl⟩

end Combination

section Rows

variable {G₁ G₂ : Type} {pk : ProvingKey G₁ G₂} {w : List Fr} {n : Nat}

/-- What an entry adds to its row, if there is such a row among `n` and such a wire. -/
def entry (n : Nat) (w : List Fr) (e : Coefficient) : Except Fault Term :=
  if e.InRange n w.length then .ok ⟨e.row.toNat, e.value * w.getD e.signal.toNat 0⟩
  else .error .indexOutOfRange

/-- The sum of the terms in one row. -/
def total (ts : List Term) (row : Nat) : Fr :=
  (ts.map fun t => if t.index = row then t.value else 0).sum

/-- The values of the rows: sums of entries that are all in range, and their products. -/
def rows (pk : ProvingKey G₁ G₂) (w : List Fr) : Except Fault Rows := do
  let n := pk.domain.toNat
  let first ← (pk.coefficients.filter fun e => e.matrix = 0).mapM (entry n w)
  let second ← (pk.coefficients.filter fun e => !decide (e.matrix = 0)).mapM (entry n w)
  let a := (List.range n).map (total first)
  let b := (List.range n).map (total second)
  return ⟨a, b, (← pairs a b).map fun (x, y) => x * y⟩

theorem entry_eq_ok_iff (e : Coefficient) (t : Term) :
    entry n w e = .ok t ↔ e.InRange n w.length ∧ t = rowTerm w e := by
  by_cases inRange : e.InRange n w.length <;> simp [entry, rowTerm, inRange, eq_comm]

theorem mapM_entry_eq_ok_iff {es : List Coefficient} {ts : List Term} :
    es.mapM (entry n w) = .ok ts ↔
      (∀ e ∈ es, e.InRange n w.length) ∧ ts = es.map (rowTerm w) :=
  Except.mapM_eq_ok_iff_map entry_eq_ok_iff

/-- Terms are added up place by place. -/
theorem sums_eq_map_total {ts : List Term} (h : ∀ t ∈ ts, t.index < n) :
    sums n ts = (List.range n).map (total ts) := by
  apply List.ext_getElem (by simp)
  intro i hi _
  have inside : i < n := by simpa using hi
  rw [← List.getD_eq_getElem _ 0 hi, getD_eq_sum _ inside, sum_mul_sums _ ts h]
  simp [total]

theorem sums_rowTerm {es : List Coefficient} (h : ∀ e ∈ es, e.InRange n w.length) :
    sums n (es.map (rowTerm w)) = (List.range n).map (total (es.map (rowTerm w))) := by
  apply sums_eq_map_total
  intro t ht
  obtain ⟨e, he, rfl⟩ := List.mem_map.1 ht
  obtain ⟨⟨nonneg, below⟩, -⟩ := h e he
  change e.row.toNat < n
  omega

/-- With every entry in range, the rows are those of the prover. -/
theorem rows_eq (h : ∀ e ∈ pk.coefficients, e.InRange pk.domain.toNat w.length) :
    rows pk w = .ok (rowsOf pk.domain.toNat pk.coefficients w) := by
  have part (p : Coefficient → Bool) :
      ∀ e ∈ pk.coefficients.filter p, e.InRange pk.domain.toNat w.length :=
    fun e he => h e (List.mem_filter.1 he).1
  rw [rows]
  dsimp only
  rw [mapM_entry_eq_ok_iff.2 ⟨part _, rfl⟩, Except.ok_bind,
    mapM_entry_eq_ok_iff.2 ⟨part _, rfl⟩, Except.ok_bind, ← sums_rowTerm (part _),
    ← sums_rowTerm (part _), pairs_eq (by simp), rowsOf]
  simp [List.zip, List.map_zipWith]

/-- Rows are only made of entries that are all in range. -/
theorem inRange_of_rows_eq_ok {t : Rows} (h : rows pk w = .ok t) :
    ∀ e ∈ pk.coefficients, e.InRange pk.domain.toNat w.length := by
  obtain ⟨first, hfirst, h⟩ := Except.bind_eq_ok_iff.1 h
  obtain ⟨second, hsecond, -⟩ := Except.bind_eq_ok_iff.1 h
  intro e he
  by_cases matrix : e.matrix = 0
  · exact (mapM_entry_eq_ok_iff.1 hfirst).1 e (List.mem_filter.2 ⟨he, by simpa using matrix⟩)
  · exact (mapM_entry_eq_ok_iff.1 hsecond).1 e (List.mem_filter.2 ⟨he, by simpa using matrix⟩)

/-- The rows that are made are those of the prover. -/
theorem rows_of_strict {t : Rows} (h : rows pk w = .ok t) : Groth16.rows pk w = .ok t := by
  have inRange := inRange_of_rows_eq_ok h
  rw [Groth16.rows_eq_toNat inRange, ← rows_eq inRange, h]

end Rows

section Prover

variable {G₁ G₂ : Type} {pk : ProvingKey G₁ G₂} {w : List Fr}

/-- The values of the quotient, with the values of the three rows side by side. -/
def quotient (pk : ProvingKey G₁ G₂) (w : List Fr) : Except Fault (List Fr) := do
  let ω ← rootOfUnity pk.domain
  let shift ← rootOfUnity (2 * pk.domain)
  let t ← rows pk w
  let a ← toOddCoset ω shift t.a
  let b ← toOddCoset ω shift t.b
  let c ← toOddCoset ω shift t.c
  return (← pairs a (← pairs b c)).map fun (a, b, c) => a * b - c

/-- The values of the wires that are not public. -/
def privateValues (pk : ProvingKey G₁ G₂) (w : List Fr) : Except Fault (List Fr) :=
  if 0 ≤ pk.publicSignals ∧ pk.publicSignals < w.length then
    .ok (w.drop (pk.publicSignals.toNat + 1))
  else .error .indexOutOfRange

/-- The quotient that is found is that of the prover. -/
theorem quotient_of_strict {q : List Fr} (h : quotient pk w = .ok q) :
    Groth16.quotient pk w = .ok q := by
  obtain ⟨ω, root, h⟩ := Except.bind_eq_ok_iff.1 h
  obtain ⟨shift, double, h⟩ := Except.bind_eq_ok_iff.1 h
  obtain ⟨t, made, h⟩ := Except.bind_eq_ok_iff.1 h
  obtain ⟨a, coset_a, h⟩ := Except.bind_eq_ok_iff.1 h
  obtain ⟨b, coset_b, h⟩ := Except.bind_eq_ok_iff.1 h
  obtain ⟨c, coset_c, h⟩ := Except.bind_eq_ok_iff.1 h
  obtain ⟨_, others, h⟩ := Except.bind_eq_ok_iff.1 h
  obtain ⟨_, all, h⟩ := Except.bind_eq_ok_iff.1 h
  obtain ⟨-, rfl⟩ := pairs_eq_ok_iff.1 others
  obtain ⟨-, rfl⟩ := pairs_eq_ok_iff.1 all
  rw [Groth16.quotient, root, Except.ok_bind, double, Except.ok_bind, rows_of_strict made,
    Except.ok_bind, coset_a, Except.ok_bind, coset_b, Except.ok_bind, coset_c, Except.ok_bind, ← h]

theorem privateValues_eq_ok_iff {xs : List Fr} : privateValues pk w = .ok xs ↔
    (0 ≤ pk.publicSignals ∧ pk.publicSignals < w.length) ∧
      Position.suffix w (pk.publicSignals + 1) = xs := by
  rw [privateValues]
  split_ifs with inside
  · have start : pk.publicSignals + 1 = ((pk.publicSignals.toNat + 1 : Nat) : Int) := by omega
    rw [start, Position.suffix_eq_drop (by omega), Except.ok.injEq]
    simp [inside]
  · simp [inside]

variable [CurveGroup G₁] [CurveGroup G₂]

/-- The proof for values of all wires, with blinding scalars `r` and `s`. -/
def prove (pk : ProvingKey G₁ G₂) (w : List Fr) (r s : Fr) : Except Fault (Proof G₁ G₂) := do
  let vk := pk.verifying
  let h ← combination (← quotient pk w) pk.h
  let a₀ ← combination w pk.a
  let b₀ ← combination w pk.b₂
  let b₁₀ ← combination w pk.b₁
  let l ← combination (← privateValues pk w) pk.l
  let a := add (add vk.alpha a₀) (scale r pk.delta)
  let b := add (add vk.beta b₀) (scale s vk.delta)
  let b₁ := add (add pk.beta b₁₀) (scale s pk.delta)
  let c := add (add (add l h) (scale s a)) (scale r b₁)
  return ⟨a, b, add c (neg (scale (r * s) pk.delta))⟩

/-- What the strict prover proves is what the prover proves. -/
theorem proveValues_of_strict {r s : Fr} {p : Proof G₁ G₂} (h : prove pk w r s = .ok p) :
    proveValues pk w r s = .ok p := by
  obtain ⟨q, quotient, h⟩ := Except.bind_eq_ok_iff.1 h
  obtain ⟨_, ofQuotient, h⟩ := Except.bind_eq_ok_iff.1 h
  obtain ⟨_, ofA, h⟩ := Except.bind_eq_ok_iff.1 h
  obtain ⟨_, ofB₂, h⟩ := Except.bind_eq_ok_iff.1 h
  obtain ⟨_, ofB₁, h⟩ := Except.bind_eq_ok_iff.1 h
  obtain ⟨_, hidden, h⟩ := Except.bind_eq_ok_iff.1 h
  obtain ⟨_, ofL, h⟩ := Except.bind_eq_ok_iff.1 h
  obtain ⟨-, rfl⟩ := combination_eq_ok_iff.1 ofQuotient
  obtain ⟨-, rfl⟩ := combination_eq_ok_iff.1 ofA
  obtain ⟨-, rfl⟩ := combination_eq_ok_iff.1 ofB₂
  obtain ⟨-, rfl⟩ := combination_eq_ok_iff.1 ofB₁
  obtain ⟨-, rfl⟩ := privateValues_eq_ok_iff.1 hidden
  obtain ⟨-, rfl⟩ := combination_eq_ok_iff.1 ofL
  rw [proveValues, quotient_of_strict quotient, Except.ok_bind, ← h]

end Prover

end Snark.Groth16.Strict
