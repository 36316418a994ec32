import Snark.Json.Integer
import Snark.Report

/-!
# Drafts of reports

A report can be made to order from JSON values. Every kind of report has its parameters, which take
the values of a draft in order. What is not given in order can be given by name, and so can a code
and data of the caller's own. A message, a code or data that count as false are as good as none.
-/

namespace Snark

open Json (Value)

/-- The values that a report is to be made from. -/
structure Draft where
  /-- The values given in order. -/
  ordered : List Value
  /-- The values given by name. -/
  named : List (Text × Value)
  deriving Repr

namespace Draft

/-- The kinds of reports that can be made to order, with nothing in them yet. -/
def kinds : List ReportKind := [
  .general, .format, .truncated, .curveMismatch, .wireOutOfRange, .lengthMismatch,
  .unknownSignal .null, .witnessComputation .null [], .encoding]

/-- The parameters of a kind of report, in order. -/
def parameters : ReportKind → List Text
  | .unknownSignal _ => ["name", "message"]
  | .witnessComputation _ _ => ["error_code", "message", "operands"]
  | _ => ["message"]

/-- The values of a draft by the names of their parameters. Every value has to belong to a parameter
or be the code or the data, and no parameter has two values. -/
def assigned (d : Draft) (kind : ReportKind) : Except Fault (List (Text × Value)) :=
  let names := parameters kind
  let free : List Text := "code" :: "data" :: names.drop d.ordered.length
  if d.ordered.length ≤ names.length && d.named.all (fun m => free.contains m.1) then
    .ok (names.zip d.ordered ++ d.named)
  else
    .error .wrongShape

/-- The value of a parameter that a kind cannot do without. -/
def demand (values : List (Text × Value)) (name : Text) : Except Fault Value :=
  match values.lookup name with
  | some v => .ok v
  | none => .error .wrongShape

/-- The value of a parameter, if it has one that does not count as false. -/
def given? (values : List (Text × Value)) (name : Text) : Option Value :=
  (values.lookup name).filter Value.isTrue

/-- The parts of a value that has some. -/
def parts (v : Value) : Except Fault (List Value) :=
  match v.items? with
  | some items => .ok items
  | none => .error .wrongShape

/-- What tells names apart that are given as values. A number is known by its value alone: an
integer, a whole real and a truth value can be the same name. -/
inductive Key
  | null
  | whole (n : Int)
  | fraction (x : Double)
  | text (s : Text)
  deriving DecidableEq, Repr

/-- The key of a value that can stand for a name. -/
def Key.of : Value → Except Fault Key
  | .null => .ok .null
  | .bool b => .ok (.whole (if b then 1 else 0))
  | .int n => .ok (.whole n)
  | .real x => .ok ((x.whole?.map .whole).getD (.fraction x))
  | .text s => .ok (.text s)
  | .list _ | .object _ => .error .wrongShape

/-- A member of data in pairs: its key, its name as it was given first, and its value. -/
structure Entry where
  /-- What tells the member apart. -/
  key : Key
  /-- The name that the member was first given. -/
  name : Text
  /-- The value that the member was last given. -/
  value : Value
  deriving Repr

/-- The entries with one more. An entry of the same key keeps its place and its name, and takes the
value. -/
def setEntry (e : Entry) : List Entry → List Entry
  | [] => [e]
  | old :: rest =>
    if old.key = e.key then { old with value := e.value } :: rest else old :: setEntry e rest

theorem map_key_setEntry (e : Entry) (entries : List Entry) :
    (setEntry e entries).map Entry.key =
      if e.key ∈ entries.map Entry.key then entries.map Entry.key
      else entries.map Entry.key ++ [e.key] := by
  induction entries with
  | nil => simp [setEntry]
  | cons old rest ih =>
    by_cases h : old.key = e.key
    · simp [setEntry, h]
    · simp only [setEntry, if_neg h, List.map_cons, ih, List.mem_cons]
      have h' : ¬ e.key = old.key := fun eq => h eq.symm
      simp only [h', false_or]
      split <;> simp

/-- The entries with one more, given as a name and a value. -/
def addEntry (entries : List Entry) (pair : Value) : Except Fault (List Entry) := do
  match ← parts pair with
  | [name, v] => return setEntry ⟨← Key.of name, name.plain, v⟩ entries
  | _ => throw .notPair

/-- The data of a report: the members of an object, or names and values in pairs. The pairs of one
key make one entry, but two entries may still have one name. -/
def members : Value → Except Fault (List (Text × Value))
  | .object members => .ok members
  | v => return (← (← parts v).foldlM addEntry []).map fun e => (e.name, e.value)

/-- The kind of the report, with the value that a report of this kind is about. -/
def subject (kind : ReportKind) (values : List (Text × Value)) : Except Fault ReportKind :=
  match kind with
  | .unknownSignal _ => do return .unknownSignal (← demand values "name")
  | .witnessComputation _ _ => do return .witnessComputation (← demand values "error_code") []
  | _ => .ok kind

/-- The kind of the report, with the operands that it carries. -/
def withOperands (kind : ReportKind) (values : List (Text × Value)) : Except Fault ReportKind :=
  match kind, values.lookup ("operands" : Text) with
  | .witnessComputation code _, some v => do return .witnessComputation code (← parts v)
  | _, _ => .ok kind

/-- The report of a kind that a draft asks for. It has to have a text: a message, or a code that is
one. -/
def report (d : Draft) (kind : ReportKind) : Except Fault Report := do
  let values ← d.assigned kind
  let kind ← subject kind values
  let data ← ((given? values "data").map members).getD (.ok [])
  let kind ← withOperands kind values
  let message := ((given? values "message").map Value.plain).getD []
  let made := Report.make kind message data
  let r := { made with code := (given? values "code").getD made.code }
  match r.message, r.code with
  | [], .text _ => return r
  | [], _ => throw .wrongShape
  | _ :: _, _ => return r

end Draft

end Snark
