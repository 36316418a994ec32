import Std.Data.HashMap
import Snark.System.Basic

/-!
# Symbol tables

A compiled circuit names its signals: every name has a label, the wire that carries it, and the
component it belongs to. Several names may share a wire, and a signal that needs no wire has a
negative one. `SymbolTable` keeps the symbols in order together with three indices, by label and
by name, where the last one added wins, and by wire, where all of them are kept.
-/

namespace Snark

/-- A name of a signal. -/
structure Symbol where
  label : Int
  wire : Int
  component : Int
  name : Text
  deriving DecidableEq, Repr

/-- Symbols with their indices. -/
structure SymbolTable where
  /-- The symbols in the order in which they were added. -/
  symbols : List Symbol
  byLabel : Std.HashMap Int Symbol
  byName : Std.HashMap Text Symbol
  byWire : Std.HashMap Int (List Symbol)

namespace SymbolTable

/-- The table without symbols. -/
def empty : SymbolTable := ⟨[], ∅, ∅, ∅⟩

/-- The symbols on a wire in the order in which they were added. -/
def onWire (t : SymbolTable) (wire : Int) : List Symbol := t.byWire.getD wire []

/-- The table with one symbol more. -/
def add (t : SymbolTable) (s : Symbol) : SymbolTable where
  symbols := t.symbols ++ [s]
  byLabel := t.byLabel.insert s.label s
  byName := t.byName.insert s.name s
  byWire := if 0 ≤ s.wire then t.byWire.insert s.wire (t.onWire s.wire ++ [s]) else t.byWire

/-- The table of some symbols, added in order. -/
def ofList (symbols : List Symbol) : SymbolTable := symbols.foldl add empty

@[simp] theorem symbols_add (t : SymbolTable) (s : Symbol) :
    (t.add s).symbols = t.symbols ++ [s] := rfl

@[simp] theorem symbols_ofList (symbols : List Symbol) : (ofList symbols).symbols = symbols := by
  suffices h : ∀ (t : SymbolTable), (symbols.foldl add t).symbols = t.symbols ++ symbols from
    h empty
  induction symbols with
  | nil => intro t; exact (List.append_nil _).symm
  | cons s rest ih => intro t; rw [List.foldl_cons, ih, symbols_add, List.append_assoc]; rfl

/-- The name of a label. -/
def nameOfLabel? (t : SymbolTable) (label : Int) : Option Text :=
  (t.byLabel[label]?).map (·.name)

/-- The names of a wire. -/
def namesOfWire (t : SymbolTable) (wire : Int) : List Text :=
  (t.onWire wire).map (·.name)

/-- The wire that carries a name, if one does. -/
def wireOf? (t : SymbolTable) (name : Text) : Option Int :=
  (t.byName[name]?).bind fun s => if s.wire < 0 then none else some s.wire

/-- What a wire of a system is called: by the name of its label, else by the first name on it,
else by its number. The constant wire has a name of its own, whatever the system and even without
one. -/
def describe (t : SymbolTable) (system : Option ConstraintSystem) (wire : Int) :
    Except Fault Text := do
  if wire = 0 then
    return "one"
  match system with
  | none => throw .noMembers
  | some s =>
    match t.nameOfLabel? (← s.labelOf wire) with
    | some name => return name
    | none =>
      match t.namesOfWire wire with
      | name :: _ => return name
      | [] => return s!"wire_{wire}"

end SymbolTable

end Snark
