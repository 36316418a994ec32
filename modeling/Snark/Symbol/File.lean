import Snark.Failure
import Snark.Symbol.Table
import Snark.Text.Utf8

/-!
# Symbol files

A symbol file has one line for every signal, `label,wire,component,name`, where the name may hold
commas of its own. Blanks around a line are dropped and lines without anything else are skipped.
-/

namespace Snark.SymbolTable

/-- Reads the number in a field of a line. -/
def readNumber (line : Nat) (field : Text) : Result Int :=
  match Text.Numeral.read .decimal field.chars with
  | .ok n => .ok n
  | .error e => .error (.symbol (.number line field e))

/-- Reads a line that is not blank. -/
def readLine (line : Nat) (t : Text) : Result Symbol :=
  match Text.fields 3 t with
  | [label, wire, component, name] => do
    let label ← readNumber line label
    let wire ← readNumber line wire
    let component ← readNumber line component
    return ⟨label, wire, component, name⟩
  | fields => .error (.symbol (.fields line fields.length))

/-- Reads the lines from the one of the given number on. -/
def readLines : (line : Nat) → List Text → Result (List Symbol)
  | _, [] => .ok []
  | line, t :: rest =>
    match Text.trim t with
    | [] => readLines (line + 1) rest
    | body => do
      let s ← readLine line body
      return s :: (← readLines (line + 1) rest)

/-- Reads a symbol file. -/
def parse (text : Text) : Result SymbolTable := do
  return .ofList (← readLines 1 (Text.lines text))

/-- Reads the bytes of a symbol file. -/
def parseBytes (bytes : Bytes) : Result SymbolTable :=
  match Text.Utf8.decode? bytes with
  | some cs => parse (Text.ofChars cs)
  | none => .error (.fault .notUtf8)

end Snark.SymbolTable
