import Snark.Failure
import Snark.Json.Integer
import Snark.Text.Quoted

/-!
# Reports

A report is what is told about a failure: its kind, a stable code, a message and a few named data.
`Report.make` gives a report the code of its kind, and its message where none is given,
`Report.spelled` makes its numbers texts, and `Failure.report?` words every failure. Faults of use
are no part of a protocol and have no report; `Fault.message?` gives the words of those that have
some.
-/

namespace Snark

/-- The kinds of failure that a caller can tell apart. -/
inductive ReportKind
  | general
  | format
  /-- A format error: the bytes end too early. -/
  | truncated
  | curveMismatch
  | wireOutOfRange
  | lengthMismatch
  | unknownSignal (name : Json.Value)
  | witnessComputation (code : Json.Value) (operands : List Json.Value)
  | encoding
  deriving Repr

/-- What is told about a failure. -/
structure Report where
  kind : ReportKind
  /-- A text, unless the report was made to order with another code. -/
  code : Json.Value
  message : Text
  /-- The data by name; of several with one name the last one counts. -/
  data : List (Text × Json.Value)
  deriving Repr

namespace ReportKind

/-- The code of a kind. -/
def code : ReportKind → String
  | general => "zkcircom_error"
  | format => "format_error"
  | truncated => "truncated"
  | curveMismatch => "curve_mismatch"
  | wireOutOfRange => "wire_index_out_of_range"
  | lengthMismatch => "length_mismatch"
  | unknownSignal _ => "unknown_signal"
  | witnessComputation _ _ => "witness_computation"
  | encoding => "encoding_error"

/-- The message of a kind where none is given. -/
def message : ReportKind → Text
  | unknownSignal name => s!"signal {name.shown} not found in witness program"
  | witnessComputation code _ => "witness program error " ++ code.plain
  | _ => []

/-- A kind with every number in its operands as the text of an integer. -/
def spelled : ReportKind → Except Fault ReportKind
  | witnessComputation code operands => do
    return witnessComputation code (← Json.Value.spelledItems operands)
  | kind => return kind

end ReportKind

namespace Report

/-- A report of the given kind; an empty message is replaced by that of the kind. -/
def make (kind : ReportKind) (message : Text) (data : List (Text × Json.Value)) : Report where
  kind := kind
  code := .text kind.code
  message := if message.isEmpty then kind.message else message
  data := data

/-- A report on one line: the code, and the message after it if there is one. -/
def text (r : Report) : Text :=
  if r.message.isEmpty then r.code.plain else r.code.plain ++ ": " ++ r.message

/-- A report with every number in its data, and then in its operands, as the text of an integer.
Names come together only afterwards, so every one of the data has to have such a text. -/
def spelled (r : Report) : Except Fault Report := do
  let data ← Json.Value.spelledMembers r.data
  let kind ← r.kind.spelled
  return { r with kind, data := data.foldl (fun named m => Json.setMember m.1 m.2 named) [] }

end Report

/-- A count among the data of a report. -/
def datum (n : Nat) : Json.Value := .int n

/-- A number in hexadecimal among the data of a report. -/
def hexDatum (n : Int) : Json.Value := .text (Text.Numeral.hex n)

namespace FramingError

/-- How a framing error is reported. -/
def report : FramingError → Report
  | shortHeader length =>
    Report.make .truncated s!"{length} bytes is shorter than the 12-byte file header" []
  | magic found expected =>
    Report.make .format
      s!"invalid magic {Text.quoteBytes found}, expected {Text.quoteBytes expected}"
      [("magic", .text found.hex)]
  | version file found =>
    Report.make .format s!"unsupported {file} version {found}" [("version", datum found)]
  | shortEntry entry count offset =>
    Report.make .truncated s!"section table entry {entry} of {count} runs past end of buffer"
      [("entry", datum entry), ("offset", datum offset)]
  | shortSection id size remaining =>
    Report.make .truncated s!"section {id} declares {size} bytes, only {remaining} remain"
      [("section", datum id), ("size", datum size), ("remaining", datum remaining)]
  | missingSection id file =>
    Report.make .format s!"missing section {id} in {file} file" [("section", .int id)]
  | exhausted id offset wanted =>
    Report.make .truncated s!"section {id} ends before {wanted} more bytes at offset {offset}"
      [("section", datum id), ("offset", datum offset), ("wanted", .int wanted)]
  | trailing id bytes =>
    Report.make .format s!"section {id} has {bytes} trailing bytes"
      [("section", datum id), ("trailing", datum bytes)]

end FramingError

namespace SystemError

/-- How an error in a constraint-system file is reported. -/
def report : SystemError → Report
  | fieldWidth found expected =>
    Report.make .format s!"only {expected}-byte fields are supported, got {found}"
      [("field_size", datum found)]
  | headerSize size =>
    Report.make .format s!"invalid header section size {size}" [("size", datum size)]
  | prime found curve =>
    Report.make .curveMismatch
      (s!"r1cs prime {Text.Numeral.hex found} is not the " ++ curve ++ " scalar field")
      [("prime", hexDatum found), ("curve", .text curve)]
  | signals wires count =>
    Report.make .format s!"{wires} wires cannot hold {count} inputs/outputs"
      [("n_wires", datum wires)]
  | wire constraint found wires =>
    Report.make .wireOutOfRange s!"constraint {constraint} references wire {found} of {wires}"
      [("constraint", datum constraint), ("wire", datum found), ("n_wires", datum wires)]
  | labelsSize size wires =>
    Report.make .format s!"invalid wire map size {size} for {wires} wires"
      [("size", datum size), ("n_wires", datum wires)]
  | firstLabel label =>
    Report.make .format "wire 0 must map to label 0" [("label", datum label)]

end SystemError

namespace KeyFileError

/-- How an error in a proving-key file is reported. -/
def report : KeyFileError → Report
  | curvePoint x y =>
    Report.make .format "G1 point is not on the curve" [("x", hexDatum x), ("y", hexDatum y)]
  | twistPoint x₀ x₁ =>
    Report.make .format "G2 point is not on the curve"
      [("x", .list [hexDatum x₀, hexDatum x₁])]
  | prover found =>
    Report.make .format s!"unsupported prover type {found}" [("prover", datum found)]
  | baseWidth found expected curve =>
    Report.make .curveMismatch
      (s!"zkey base field uses {found}-byte elements, " ++ curve ++ s!" uses {expected}")
      [("n8q", datum found)]
  | scalarWidth found expected curve =>
    Report.make .curveMismatch
      (s!"zkey scalar field uses {found}-byte elements, " ++ curve ++ s!" uses {expected}")
      [("n8r", datum found)]
  | primes q r curve =>
    Report.make .curveMismatch (s!"zkey curve (q={Text.Numeral.hex q}) is not " ++ curve)
      [("q", hexDatum q), ("r", hexDatum r), ("curve", .text curve)]
  | domain size =>
    Report.make .format s!"domain size {size} is not a power of two" []
  | publicSignals count wires =>
    Report.make .format s!"{count} public signals exceed {wires} variables" []
  | headerPoints found expected =>
    Report.make .format s!"groth header carries {found} bytes of points, expected {expected}" []
  | partialPoint id size width =>
    Report.make .format s!"section {id} length {size} is not a multiple of {width}"
      [("section", datum id), ("size", datum size)]
  | pointCount id found expected =>
    Report.make .format s!"section {id} holds {found} points, expected {expected}"
      [("section", datum id), ("points", datum found), ("expected", datum expected)]
  | coefficientCount => Report.make .format "coefficient section has no count" []
  | coefficientsSize size count =>
    Report.make .format s!"coefficient section length {size} does not fit {count} entries"
      [("size", datum size), ("count", datum count)]
  | matrix found =>
    Report.make .format s!"coefficient for unknown matrix {found}" [("matrix", datum found)]
  | row found size =>
    Report.make .format s!"coefficient row {found} outside domain of {size}"
      [("constraint", datum found)]
  | signal found wires =>
    Report.make .wireOutOfRange s!"coefficient references signal {found} of {wires}"
      [("signal", datum found), ("n_vars", datum wires)]

end KeyFileError

namespace SymbolError

/-- The words for a numeral that cannot be read. -/
def numeralText (text : Text) : Text.NumeralError → String
  | .malformed =>
    "invalid literal for int() with base 10: " ++
      String.ofList ((Text.Quoted.ofText text).take 200)
  | .tooLong digits =>
    s!"Exceeds the limit ({Text.maxDigits} digits) for integer string conversion: " ++
      s!"value has {digits} digits; use sys.set_int_max_str_digits() to increase the limit"

/-- How an error in a symbol file is reported. -/
def report : SymbolError → Report
  | fields line found =>
    Report.make .format s!"symbol line {line} has {found} fields, expected 4"
      [("line", datum line)]
  | number line text error =>
    Report.make .format s!"symbol line {line}: {numeralText text error}" [("line", datum line)]

end SymbolError

namespace LengthError

/-- How two lengths that disagree are reported. -/
def report : LengthError → Report
  | noWitness => Report.make .lengthMismatch "circuit has no witness assigned" []
  | witness values wires =>
    Report.make .lengthMismatch
      s!"witness has {values} values, constraint system has {wires} wires"
      [("witness", datum values), ("wires", .int wires)]
  | assignment values wires =>
    Report.make .lengthMismatch
      s!"witness has {values} values, proving key expects {wires}"
      [("witness", datum values), ("n_vars", .int wires)]
  | inputs found expected =>
    Report.make .lengthMismatch
      s!"got {found} public inputs, verifying key expects {expected}"
      [("inputs", datum found), ("expected", .int expected)]

end LengthError

namespace AbiError

/-- How a value that no contract takes is reported. -/
def report : AbiError → Report
  | inputRange index value =>
    Report.make .encoding s!"public input {index} is outside the scalar field"
      [("index", datum index), ("value", hexDatum value)]
  | length found expected =>
    Report.make .encoding s!"expected {expected} bytes, got {found}"
      [("length", datum found), ("expected", datum expected)]
  | coordinate value =>
    Report.make .encoding s!"coordinate {value} is outside the base field"
      [("value", hexDatum value)]
  | components what found =>
    Report.make .encoding s!"{what} needs 2 components, got {found}" []
  | curvePoint x =>
    Report.make .encoding "G1 point is not on the curve" [("x", hexDatum x)]
  | twistPoint x₀ x₁ =>
    Report.make .encoding "G2 point is not on the curve"
      [("x", .list [hexDatum x₀, hexDatum x₁])]
  | proofLength found => Report.make .encoding s!"proof needs 256 bytes, got {found}" []
  | noInputPoint => Report.make .encoding "verifying key needs at least one IC point" []
  | keyLength found =>
    Report.make .encoding s!"verifying key length {found} is not 448 + k·64 (k ≥ 1)"
      [("length", datum found)]
  | input value =>
    Report.make .encoding s!"public input {value} is outside the scalar field" []
  | inputsLength found =>
    Report.make .encoding s!"input bytes {found} are not a multiple of 32" []

end AbiError

namespace ExchangeError

/-- How an error in a proof or a key in JSON is reported. -/
def report : ExchangeError → Report
  | coordinate value =>
    Report.make .encoding s!"coordinate {value} is outside the base field" []
  | curvePoint data => Report.make .encoding s!"invalid G1 point {data.shown}" []
  | twistPoint data => Report.make .encoding s!"invalid G2 point {data.shown}" []
  | curveScale z => Report.make .encoding s!"G1 point is not normalized: z={z}" []
  | twistScale z₀ z₁ =>
    Report.make .encoding s!"G2 point is not normalized: z=({z₀}, {z₁})" []
  | outsideCurve x y => Report.make .encoding s!"G1 point ({x}, {y}) is not on the curve" []
  | outsideTwist x₀ x₁ =>
    Report.make .encoding s!"G2 point x=({x₀}, {x₁}) is not on the curve" []
  | proofMember name => Report.make .encoding s!"proof is missing {Text.quote name}" []
  | keyMember name => Report.make .encoding s!"verifying key is missing {Text.quote name}" []
  | protocol found => Report.make .encoding s!"unsupported protocol {found.shown}" []
  | inputPoints declared points =>
    Report.make .encoding
      ("nPublic " ++ declared.plain ++ s!" does not match {points} IC points") []

end ExchangeError

namespace ProgramError

/-- A report of a failed witness computation. -/
def computation (code : Int) (operands : List Int) (message : Text)
    (data : List (Text × Json.Value)) : Report :=
  Report.make (.witnessComputation (.int code) (operands.map .int)) message data

/-- How an error of a witness program is reported. -/
def report : ProgramError → Report
  | slotLength length => computation (-1) [] s!"invalid field slot length {length}" []
  | raised code message operands => computation code operands message []
  | memory pointer length size located =>
    computation (-1) []
      s!"memory access [{pointer}, {pointer + length}) outside {size} bytes"
      (if located then [("ptr", .int pointer), ("length", .int length)] else [])
  | missingExport name =>
    computation (-1) [] s!"witness program does not export {Text.quote name}" []
  | trapped name => computation (-1) [] s!"{name} trapped: " []
  | invalid => computation (-1) [] "invalid witness program: " []
  | unlinkable => computation (-1) [] "cannot instantiate witness program: " []

end ProgramError

namespace Failure

/-- The eight hexadecimal digits of half a hash. -/
def halfHash (n : Nat) : String := String.ofList (Text.hexPadded 8 n)

/-- How a failure is reported; a fault has no report. -/
def report? : Failure → Option Report
  | framing e => some e.report
  | system e => some e.report
  | key e => some e.report
  | symbol e => some e.report
  | length e => some e.report
  | abi e => some e.report
  | exchange e => some e.report
  | program e => some e.report
  | programPrime found curve =>
    some (Report.make .curveMismatch
      (s!"witness program prime {Text.Numeral.hex found} is not the " ++ curve ++ " scalar field")
      [("prime", hexDatum found), ("curve", .text curve)])
  | unknownSignal name hash _ =>
    some (Report.make (.unknownSignal (.text name)) []
      [("hash", .text (halfHash hash.1 ++ halfHash hash.2))])
  | fault _ => none

/-- The report of the failure that led to this one. -/
def cause? : Failure → Option Report
  | unknownSignal _ _ cause => some cause.report
  | _ => none

end Failure

namespace Fault

/-- The words for a number that is too long to be written. -/
def numberTooLong : String :=
  s!"Exceeds the limit ({Text.maxDigits} digits) for integer string conversion; " ++
    "use sys.set_int_max_str_digits() to increase the limit"

/-- Words with a number in them, unless it is too long to be written. The faults that use it have
the kind `value`, and so has the failure to write the number: only the words differ. -/
def naming (n : Int) (words : String → String) : String :=
  if Text.Numeral.isWritable n then words s!"{n}" else numberTooLong

/-- The words of a fault, if it has any. -/
def message? : Fault → Option String
  | notPowerOfTwo n => some (naming n fun n => s!"n must be a power of two: {n}")
  | pastTwoAdicity n => some (naming n fun n => s!"n must be at most 2^28: {n}")
  | transformLength n => some s!"FFT length must be a power of two: {n}"
  | limbCount n => some (naming n fun n => s!"n32 must be positive: {n}")
  | shortSlot length => some s!"field slot needs at least 8 bytes, got {length}"
  | shortLongSlot size length =>
    some (naming size fun size => s!"long field slot needs {size} bytes, got {length}")
  | settingNotInteger name raw => some s!"Invalid integer for {name}: {Text.quote raw}"
  | settingNotPositive name n => some (naming n fun n => s!"{name} must be positive, got {n}")
  | outsideTwist => some "Invalid input - point Q is not on the correct curve"
  | outsideCurve => some "Invalid input - point P is not on the correct curves"
  | memoryEnd => some "index out of range"
  | _ => none

end Fault

end Snark
