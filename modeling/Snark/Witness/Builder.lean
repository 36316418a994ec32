import Snark.System.Assignment
import Snark.System.File
import Snark.Witness.Calculator

/-!
# Circuit builder

A builder collects the inputs of a circuit one value at a time; values that are pushed under one
name make up a list. From the inputs it computes the witness and binds it to the constraint system.
-/

namespace Snark.Witness

/-- A constraint system with the program that computes its witnesses. -/
structure CircuitConfig (σ : Type) where
  system : ConstraintSystem
  calculator : Calculator σ
  sanity : Bool

/-- The inputs collected so far, in the order of their first values. -/
structure Builder where
  inputs : List (Text × List Json.Value)
  deriving Repr

/-- Adds a value to those of a name. -/
def append (name : Text) (v : Json.Value) :
    List (Text × List Json.Value) → List (Text × List Json.Value)
  | [] => [(name, [v])]
  | (k, vs) :: rest => if k = name then (k, vs ++ [v]) :: rest else (k, vs) :: append name v rest

theorem lookup_append (name other : Text) (v : Json.Value)
    (inputs : List (Text × List Json.Value)) :
    (append name v inputs).lookup other =
      if other = name then some ((inputs.lookup name).getD [] ++ [v]) else inputs.lookup other := by
  induction inputs with
  | nil => grind [append]
  | cons p rest ih => grind [append]

namespace Builder

/-- The builder without inputs. -/
def empty : Builder := ⟨[]⟩

/-- The builder with one value more. -/
def push (b : Builder) (name : Text) (v : Json.Value) : Builder := ⟨append name v b.inputs⟩

/-- The values of a name. -/
def valuesOf (b : Builder) (name : Text) : List Json.Value := (b.inputs.lookup name).getD []

/-- A value is pushed behind those of its name, and the other names keep theirs. -/
theorem valuesOf_push (b : Builder) (name other : Text) (v : Json.Value) :
    (b.push name v).valuesOf other =
      if other = name then b.valuesOf name ++ [v] else b.valuesOf other := by
  rw [push, valuesOf, lookup_append]
  by_cases h : other = name <;> simp [h, valuesOf]

/-- The inputs for a program: the values of each name as a list. -/
def toInputs (b : Builder) : Inputs := b.inputs.map fun p => (p.1, .list p.2)

variable {σ : Type}

/-- The circuit without a witness. -/
def setup (config : CircuitConfig σ) : Circuit := ⟨config.system, none⟩

/-- The circuit with the witness for the inputs. -/
def build (b : Builder) (config : CircuitConfig σ) : Run σ Circuit := do
  let values ← config.calculator.witness b.toInputs config.sanity
  Run.ofResult (assemble config.system values)

end Builder

/-- The circuit of a program and the bytes of its constraint system. The program is taken in hand
before the system is read. -/
def CircuitConfig.load {σ : Type} (sandbox : Sandbox σ) (system : Bytes) (curve : CurveParams)
    (observed : List NoticeKind) (sanity : Bool) : Run σ (CircuitConfig σ) := do
  let calculator ← Calculator.make sandbox curve observed sanity
  let system ← Run.ofResult (ConstraintSystem.parse curve system)
  return { system, calculator, sanity }

end Snark.Witness
