import Snark.Bytes
import Snark.Json.Integer

/-!
# Failures

Every way in which an operation of the library can fail, by cause and with what the cause carries.
How a failure is worded is the business of `Snark.Report`. An integer that is too long to be written
spoils the words that it is to stand in: where a failure would tell of a coordinate, an input, a
part of a document or a range of addresses, `Failure.worded` makes it the fault that comes of it.
The ids, sizes and lengths that the other failures tell of are taken to be short, as those of files
and lists are.
-/

namespace Snark

/-- What is wrong with the framing of a sectioned container. -/
inductive FramingError
  | shortHeader (length : Nat)
  | magic (found expected : Bytes)
  | version (magic : String) (version : Nat)
  | shortEntry (entry count offset : Nat)
  | shortSection (id size remaining : Nat)
  | missingSection (id : Int) (magic : String)
  | exhausted (id offset : Nat) (wanted : Int)
  | trailing (id bytes : Nat)
  deriving Repr

/-- What is wrong with the contents of a constraint-system file. -/
inductive SystemError
  | fieldWidth (found : Nat) (expected : Int)
  | headerSize (size : Nat)
  | prime (found : Nat) (curve : Text)
  | signals (wires signals : Nat)
  | wire (constraint wire wires : Nat)
  | labelsSize (size wires : Nat)
  | firstLabel (label : Nat)
  deriving Repr

/-- What is wrong with the contents of a proving-key file. -/
inductive KeyFileError
  | curvePoint (x y : Int)
  | twistPoint (x₀ x₁ : Int)
  | prover (found : Nat)
  | baseWidth (found : Nat) (expected : Int) (curve : Text)
  | scalarWidth (found : Nat) (expected : Int) (curve : Text)
  | primes (q r : Nat) (curve : Text)
  | domain (size : Nat)
  | publicSignals (signals wires : Nat)
  | headerPoints (found expected : Nat)
  | partialPoint (id size width : Nat)
  | pointCount (id found expected : Nat)
  | coefficientCount
  | coefficientsSize (size count : Nat)
  | matrix (found : Nat)
  | row (row domain : Nat)
  | signal (signal wires : Nat)
  deriving Repr

/-- What is wrong with a line of a symbol file, counted from one. -/
inductive SymbolError
  | fields (line found : Nat)
  | number (line : Nat) (text : Text) (error : Text.NumeralError)
  deriving Repr

/-- Which two lengths disagree. -/
inductive LengthError
  | noWitness
  | witness (values : Nat) (wires : Int)
  | assignment (values : Nat) (wires : Int)
  | inputs (found : Nat) (expected : Int)
  deriving Repr

/-- What is wrong with a value bound for a contract. -/
inductive AbiError
  | inputRange (index : Nat) (value : Int)
  | length (found expected : Nat)
  | coordinate (value : Int)
  | components (what : String) (found : Nat)
  | curvePoint (x : Nat)
  | twistPoint (x₀ x₁ : Nat)
  | proofLength (found : Nat)
  | noInputPoint
  | keyLength (found : Nat)
  | input (value : Int)
  | inputsLength (found : Nat)
  deriving Repr

/-- Whether the integers in the words for an error are short enough to be written. -/
def AbiError.isWritable : AbiError → Bool
  | coordinate n | input n => Text.Numeral.isWritable n
  | _ => true

/-- What is wrong with a proof or a key in JSON. -/
inductive ExchangeError
  | coordinate (value : Int)
  | curvePoint (data : Json.Value)
  | twistPoint (data : Json.Value)
  | curveScale (z : Int)
  | twistScale (z₀ z₁ : Int)
  | outsideCurve (x y : Int)
  | outsideTwist (x₀ x₁ : Int)
  | proofMember (name : String)
  | keyMember (name : String)
  | protocol (found : Json.Value)
  | inputPoints (declared : Json.Value) (points : Nat)
  deriving Repr

/-- Whether the integers in the words for an error are short enough to be written. -/
def ExchangeError.isWritable : ExchangeError → Bool
  | coordinate n | curveScale n => Text.Numeral.isWritable n
  | twistScale m n | outsideCurve m n | outsideTwist m n =>
    Text.Numeral.isWritable m && Text.Numeral.isWritable n
  | curvePoint v | twistPoint v | protocol v | inputPoints v _ => v.isWritable
  | proofMember _ | keyMember _ => true

/-- What a witness program or the sandbox around it reports. -/
inductive ProgramError
  | slotLength (length : Int)
  /-- An error that the program raised, with its message and operands. -/
  | raised (code : Int) (message : Text) (operands : List Int)
  /-- An access outside the memory; `located` says whether the report repeats where. -/
  | memory (pointer length : Int) (size : Nat) (located : Bool)
  | missingExport (name : Text)
  | trapped (name : String)
  | invalid
  | unlinkable
  deriving Repr

/-- Whether the ends of a range that was refused are short enough to be written. -/
def ProgramError.isWritable : ProgramError → Bool
  | memory pointer length _ _ =>
    Text.Numeral.isWritable pointer && Text.Numeral.isWritable (pointer + length)
  | _ => true

/-- Why an operation has no result. -/
inductive Failure
  | framing (error : FramingError)
  | system (error : SystemError)
  | key (error : KeyFileError)
  | symbol (error : SymbolError)
  | length (error : LengthError)
  | abi (error : AbiError)
  | exchange (error : ExchangeError)
  | program (error : ProgramError)
  /-- The program computes in another field than the curve's. -/
  | programPrime (found : Nat) (curve : Text)
  /-- The program knows no signal of this name; the halves of its hash are given, and what the
  program reported. -/
  | unknownSignal (name : Text) (hash : Nat × Nat) (cause : ProgramError)
  | fault (fault : Fault)
  deriving Repr

/-- Whether the integers that a failure tells of are short enough to be written. -/
def Failure.isWritable : Failure → Bool
  | abi e => e.isWritable
  | exchange e => e.isWritable
  | program e => e.isWritable
  | _ => true

/-- What comes of a failure that is put into words: the failure, unless it tells of an integer that
is too long. -/
def Failure.worded (e : Failure) : Failure :=
  if e.isWritable then e else .fault .numeralLength

/-- The result of an operation that may fail. -/
abbrev Result := Except Failure

/-- The outcome of an operation whose only failures are faults. -/
def Result.ofFault {α : Type} : Except Fault α → Result α
  | .ok a => .ok a
  | .error e => .error (.fault e)

end Snark
