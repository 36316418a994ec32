import Mathlib.Data.List.Nodup
import Snark.Proofs.Position
import Snark.Proofs.System.File
import Snark.Symbol.Table

/-!
# The indices of a symbol table

Each of the three indices is a function of the list of symbols: by label and by name it gives the
last symbol, by wire all of them in order. An added symbol keeps that so, and hence every table that
is built by adding has it. The wires of a name and the names of a wire agree as far as names are
distinct, and every wire of a system that was read from a file is called something.
-/

namespace Snark

/-- A system that is read from a file has a label for every wire. -/
theorem ConstraintSystem.length_wireLabels_of_parse {curve : CurveParams} {data : Bytes}
    {s : ConstraintSystem} (h : parse curve data = .ok s) :
    (s.wireLabels.length : Int) = s.wires := by
  obtain ⟨c, framed, read⟩ := Except.bind_eq_ok_iff.1 h
  obtain ⟨header, -, read⟩ := Except.bind_eq_ok_iff.1 read
  obtain ⟨constraints, -, read⟩ := Except.bind_eq_ok_iff.1 read
  obtain ⟨labels, table, read⟩ := Except.bind_eq_ok_iff.1 read
  obtain ⟨tail, consists, -, -⟩ := Container.framed_of_parse framed
  obtain ⟨_, -, stored, ⟨⟨length, -⟩, -⟩, -, same⟩ :=
    (consists.readSection_whole_iff (means_readLabels header.wires)).1 table
  cases read
  change ((labels.map fun n : Nat => (n : Int)).length : Int) = header.wires
  rw [List.length_map, same, id_eq, length]

namespace SymbolTable

section Last

variable {κ : Type} [BEq κ] {key : Symbol → κ} {k : κ} {s : Symbol} {symbols : List Symbol}

/-- The last of some symbols that has the given key. -/
def lastWith (key : Symbol → κ) (k : κ) (symbols : List Symbol) : Option Symbol :=
  symbols.reverse.find? (key · == k)

theorem lastWith_concat : lastWith key k (symbols ++ [s]) =
    if key s == k then some s else lastWith key k symbols := by
  rw [lastWith, List.reverse_append, List.reverse_singleton, List.singleton_append, List.find?_cons]
  cases same : key s == k <;> simp [lastWith]

variable [LawfulBEq κ]

theorem mem_of_lastWith (h : lastWith key k symbols = some s) : s ∈ symbols ∧ key s = k := by
  have member := List.mem_of_find?_eq_some h
  have same := List.find?_some h
  exact ⟨List.mem_reverse.1 member, eq_of_beq same⟩

/-- A symbol with a key of its own is the last one with it. -/
theorem lastWith_of_nodup (distinct : (symbols.map key).Nodup) (member : s ∈ symbols) :
    lastWith key (key s) symbols = some s := by
  have found : (lastWith key (key s) symbols).isSome :=
    List.find?_isSome.2 ⟨s, List.mem_reverse.2 member, beq_self_eq_true _⟩
  obtain ⟨last, h⟩ := Option.isSome_iff_exists.1 found
  obtain ⟨last_member, same⟩ := mem_of_lastWith h
  rw [h, List.inj_on_of_nodup_map distinct last_member member same]

/-- An index that keeps the last symbol of every key still does so with a symbol more. -/
theorem getElem?_insert_lastWith [Hashable κ] {index : Std.HashMap κ Symbol}
    (h : ∀ k, index[k]? = lastWith key k symbols) (s : Symbol) (k : κ) :
    (index.insert (key s) s)[k]? = lastWith key k (symbols ++ [s]) := by
  rw [Std.HashMap.getElem?_insert, lastWith_concat, h]

end Last

/-- The indices of a table say what its list of symbols says. -/
structure Agrees (t : SymbolTable) : Prop where
  byLabel (label : Int) : t.byLabel[label]? = lastWith Symbol.label label t.symbols
  byName (name : Text) : t.byName[name]? = lastWith Symbol.name name t.symbols
  onWire (wire : Int) : t.onWire wire = t.symbols.filter fun s => 0 ≤ s.wire ∧ s.wire = wire

theorem Agrees.empty : SymbolTable.empty.Agrees where
  byLabel _ := Std.HashMap.getElem?_empty
  byName _ := Std.HashMap.getElem?_empty
  onWire _ := Std.HashMap.getD_empty

/-- An added symbol takes its label and its name from those before it, and stands behind those on
its wire. -/
theorem Agrees.add {t : SymbolTable} (h : t.Agrees) (s : Symbol) : (t.add s).Agrees where
  byLabel := getElem?_insert_lastWith h.byLabel s
  byName := getElem?_insert_lastWith h.byName s
  onWire wire := by
    rw [symbols_add, List.filter_append, ← h.onWire]
    change (if 0 ≤ s.wire then t.byWire.insert s.wire (t.onWire s.wire ++ [s])
      else t.byWire).getD wire [] = _
    by_cases carried : 0 ≤ s.wire
    · rw [if_pos carried, Std.HashMap.getD_insert]
      by_cases same : s.wire = wire
      · subst same
        simp [carried]
      · simp [same, SymbolTable.onWire]
    · simp [carried, SymbolTable.onWire]

/-- However symbols are added, the indices agree with them. -/
theorem agrees_ofList (symbols : List Symbol) : (ofList symbols).Agrees := by
  suffices run : ∀ t : SymbolTable, t.Agrees → (symbols.foldl SymbolTable.add t).Agrees from
    run SymbolTable.empty .empty
  induction symbols with
  | nil => exact fun _ h => h
  | cons s rest ih => exact fun t h => ih (t.add s) (h.add s)

namespace Agrees

variable {t : SymbolTable} (h : t.Agrees)
include h

theorem nameOfLabel?_eq (label : Int) :
    t.nameOfLabel? label = (lastWith Symbol.label label t.symbols).map Symbol.name := by
  rw [nameOfLabel?, h.byLabel]

theorem wireOf?_eq (name : Text) :
    t.wireOf? name = ((lastWith Symbol.name name t.symbols).map Symbol.wire).filter (0 ≤ ·) := by
  rw [wireOf?, h.byName]
  cases lastWith Symbol.name name t.symbols with
  | none => rfl
  | some s => by_cases carried : s.wire < 0 <;> simp [carried, Option.filter]

theorem mem_namesOfWire_iff {name : Text} {wire : Int} :
    name ∈ t.namesOfWire wire ↔ ∃ s ∈ t.symbols, s.name = name ∧ s.wire = wire ∧ 0 ≤ wire := by
  rw [namesOfWire, h.onWire]
  simp only [List.mem_map, List.mem_filter, decide_eq_true_eq]
  constructor
  · rintro ⟨s, ⟨member, carried, rfl⟩, rfl⟩
    exact ⟨s, member, rfl, rfl, carried⟩
  · rintro ⟨s, member, rfl, rfl, carried⟩
    exact ⟨s, ⟨member, carried, rfl⟩, rfl⟩

theorem onWire_eq {wire : Int} (carried : 0 ≤ wire) :
    t.onWire wire = t.symbols.filter (·.wire = wire) := by
  rw [h.onWire]
  refine List.filter_congr fun s _ => ?_
  by_cases same : s.wire = wire
  · simp [same, carried]
  · simp [same]

theorem wireOf?_eq_some_iff {name : Text} {wire : Int} : t.wireOf? name = some wire ↔
    ∃ s, lastWith Symbol.name name t.symbols = some s ∧ s.wire = wire ∧ 0 ≤ wire := by
  rw [h.wireOf?_eq, Option.filter_eq_some_iff, Option.map_eq_some_iff]
  simp only [decide_eq_true_eq]
  constructor
  · rintro ⟨⟨s, found, same⟩, carried⟩
    exact ⟨s, found, same, carried⟩
  · rintro ⟨s, found, same, carried⟩
    exact ⟨⟨s, found, same⟩, carried⟩

/-- The wire of a name has that name among its own. -/
theorem mem_namesOfWire {name : Text} {wire : Int} (found : t.wireOf? name = some wire) :
    name ∈ t.namesOfWire wire := by
  obtain ⟨s, last, same, carried⟩ := h.wireOf?_eq_some_iff.1 found
  obtain ⟨member, named⟩ := mem_of_lastWith last
  exact h.mem_namesOfWire_iff.2 ⟨s, member, named, same, carried⟩

/-- A name that only one symbol has is on that symbol's wire. -/
theorem wireOf?_of_mem (distinct : (t.symbols.map Symbol.name).Nodup) {name : Text} {wire : Int}
    (member : name ∈ t.namesOfWire wire) : t.wireOf? name = some wire := by
  obtain ⟨s, listed, rfl, same, carried⟩ := h.mem_namesOfWire_iff.1 member
  exact h.wireOf?_eq_some_iff.2 ⟨s, lastWith_of_nodup distinct listed, same, carried⟩

/-- A wire with a label is called by the last symbol with that label, else by the first symbol on
it, else by its number. -/
theorem describe_eq {system : ConstraintSystem} {wire label : Int} (positive : 0 < wire)
    (labelled : system.labelOf wire = .ok label) :
    t.describe system wire = .ok
      (((lastWith Symbol.label label t.symbols).or (t.symbols.find? (·.wire = wire))).elim
        s!"wire_{wire}" Symbol.name) := by
  rw [describe, if_neg positive.ne']
  simp only [labelled, Except.pure_eq_ok, Except.ok_bind, h.nameOfLabel?_eq]
  cases lastWith Symbol.label label t.symbols with
  | some s => rfl
  | none =>
    rw [Option.none_or, ← List.head?_filter, namesOfWire, h.onWire_eq positive.le]
    cases t.symbols.filter (·.wire = wire) <;> rfl

end Agrees

/-- A table tells about labels, names and wires what the symbols that were added say, the last
one of several with the same label or name, and all of those on a wire in order. The wire of a
name has that name, and only it has it where names are distinct. In a system that was read from a
file every wire but the constant one has a name: that of its label, else the first one on it,
else its number. -/
theorem indices_agree (symbols : List Symbol) :
    (∀ label, (ofList symbols).nameOfLabel? label =
      (lastWith Symbol.label label symbols).map Symbol.name) ∧
    (∀ name, (ofList symbols).wireOf? name =
      ((lastWith Symbol.name name symbols).map Symbol.wire).filter (0 ≤ ·)) ∧
    (∀ wire, 0 ≤ wire →
      (ofList symbols).namesOfWire wire = (symbols.filter (·.wire = wire)).map Symbol.name) ∧
    (∀ name wire, (ofList symbols).wireOf? name = some wire →
      name ∈ (ofList symbols).namesOfWire wire) ∧
    ((symbols.map Symbol.name).Nodup → ∀ name wire, name ∈ (ofList symbols).namesOfWire wire →
      (ofList symbols).wireOf? name = some wire) ∧
    ∀ curve data system, ConstraintSystem.parse curve data = .ok system →
      ∀ wire, 1 ≤ wire → wire < system.wires → ∃ label,
        system.wireLabels[wire.toNat]? = some label ∧
        (ofList symbols).describe system wire = .ok
          (((lastWith Symbol.label label symbols).or (symbols.find? (·.wire = wire))).elim
            s!"wire_{wire}" Symbol.name) := by
  have h := agrees_ofList symbols
  have listed := symbols_ofList symbols
  refine ⟨fun label => ?_, fun name => ?_, fun wire carried => ?_,
    fun name wire => h.mem_namesOfWire, fun distinct name wire => ?_,
    fun curve data system read wire positive below => ?_⟩
  · rw [h.nameOfLabel?_eq, listed]
  · rw [h.wireOf?_eq, listed]
  · rw [namesOfWire, h.onWire_eq carried, listed]
  · rw [← listed] at distinct
    exact h.wireOf?_of_mem distinct
  · have inside : wire < system.wireLabels.length := by
      rw [ConstraintSystem.length_wireLabels_of_parse read]
      exact below
    have found : wire.toNat < system.wireLabels.length := by omega
    have labelled := Position.get_eq_getD 0 (by omega) inside
    rw [List.getD_eq_getElem?_getD, List.getElem?_eq_getElem found] at labelled
    have described := h.describe_eq positive labelled
    rw [listed] at described
    exact ⟨_, List.getElem?_eq_getElem found, described⟩

/-- Symbols of which two have one label, two have one name, two are on one wire, and one is
on none. -/
def sampleSymbols : List Symbol :=
  [⟨1, 1, 0, "out"⟩, ⟨7, 3, 0, "in"⟩, ⟨9, 3, 0, "copy"⟩, ⟨1, -1, 0, "in"⟩]

/-- The last symbol decides about the label 1 and about the name of the input, which has no wire
though the wire 3 has its name. In the multiplier wire 1 is called by its label, wire 3 by the first
symbol on it, and wire 2 by its number. With the last symbol left out, names are distinct. -/
theorem indices_agree_sample :
    (ofList sampleSymbols).nameOfLabel? 1 = some "in" ∧
    (ofList sampleSymbols).wireOf? "in" = none ∧
    (ofList sampleSymbols).namesOfWire 3 = ["in", "copy"] ∧
    (ofList sampleSymbols).describe ConstraintSystem.multiplier 1 = .ok "in" ∧
    (ofList sampleSymbols).describe ConstraintSystem.multiplier 2 = .ok "wire_2" ∧
    (ofList sampleSymbols).describe ConstraintSystem.multiplier 3 = .ok "in" ∧
    (ofList sampleSymbols.dropLast).wireOf? "copy" = some 3 := by
  obtain ⟨label, name, wire, -, -, describe⟩ := indices_agree sampleSymbols
  obtain ⟨-, -, listed, -, converse, -⟩ := indices_agree sampleSymbols.dropLast
  have described (w : Int) (positive : 1 ≤ w) (below : w < 4) := describe .bn254
    _ _ ConstraintSystem.parse_multiplier w positive below
  refine ⟨(label 1).trans (by decide +kernel), (name "in").trans (by decide +kernel),
    (wire 3 (by decide)).trans (by decide +kernel), ?_, ?_, ?_, ?_⟩
  · obtain ⟨_, ⟨⟩, called⟩ := described 1 (by decide) (by decide)
    exact called.trans (congrArg Except.ok (by decide +kernel))
  · obtain ⟨_, ⟨⟩, called⟩ := described 2 (by decide) (by decide)
    exact called.trans (congrArg Except.ok (by decide +kernel))
  · obtain ⟨_, ⟨⟩, called⟩ := described 3 (by decide) (by decide)
    exact called.trans (congrArg Except.ok (by decide +kernel))
  · refine converse (by decide +kernel) "copy" 3 ?_
    rw [listed 3 (by decide)]
    decide +kernel

end SymbolTable

end Snark
