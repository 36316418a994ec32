import Snark.Proofs.Except
import Snark.Proofs.Text.Blank
import Snark.Proofs.Text.Numeral
import Snark.Report
import Snark.Symbol.File

/-!
# The format of symbol files

`Shows` says which texts are written for some symbols, and `StandsFor` which symbol a line stands
for. A text that shows symbols is read as these symbols in order. A text is read at all exactly if
each of its lines is blank or stands for a symbol, and otherwise the first line that does neither is
reported by its number.
-/

namespace Snark

open Text (HasLines Strips Blank Unbroken terminators breaks bodies)

namespace Symbol

/-- The decimal numeral of an integer. -/
def numeral (n : Int) : Text := toString n

/-- The line of a symbol. -/
def line (s : Symbol) : Text :=
  numeral s.label ++ .char ',' :: (numeral s.wire ++ .char ',' ::
    (numeral s.component ++ .char ',' :: s.name))

/-- A symbol that a line can hold: its numbers have numerals that are not too long to be read, and
its name neither breaks the line nor ends with a blank. -/
@[mk_iff] structure Plain (s : Symbol) : Prop where
  short : ∀ n ∈ [s.label, s.wire, s.component], (Nat.toDigits 10 n.natAbs).length ≤ Text.maxDigits
  unbroken : Unbroken s.name
  ends : ∀ p ∈ s.name.getLast?, p.satisfies Text.isBlank = false

instance (s : Symbol) : Decidable s.Plain := decidable_of_iff' _ (plain_iff s)

variable {s : Symbol} {n : Int} {p : CodePoint}

theorem mem_numeral (h : p ∈ numeral n) : p ≠ .char ',' ∧ p.satisfies Text.isBlank = false := by
  obtain ⟨c, member, rfl⟩ := List.mem_map.1 h
  obtain rfl | digit := Text.Numeral.mem_toString member
  · decide
  · refine ⟨?_, Text.Numeral.isBlank_of_isDigit digit⟩
    rintro ⟨⟩
    cases digit

theorem Plain.unbroken_line (h : s.Plain) : Unbroken s.line := by
  have numeral (n : Int) : Unbroken (numeral n) :=
    Text.unbroken_of_visible fun p member => (mem_numeral member).2
  simp only [line, Text.unbroken_append, Text.unbroken_cons, numeral, h.unbroken]
  decide

theorem head?_line : ∀ p ∈ s.line.head?, p.satisfies Text.isBlank = false := by
  intro p first
  rw [line, List.head?_append, List.head?_cons, Option.mem_def, Option.or_eq_some_iff] at first
  obtain numeral | ⟨-, ⟨⟩⟩ := first
  · exact (mem_numeral (List.mem_of_head? numeral)).2
  · decide

theorem Plain.getLast?_line (h : s.Plain) :
    ∀ p ∈ s.line.getLast?, p.satisfies Text.isBlank = false := by
  intro p last
  have comma_or_name : s.line.getLast? = some (s.name.getLast?.getD (.char ',')) := by
    simp [line, List.getLast?_append, List.getLast?_cons]
  obtain rfl := Option.some.inj (comma_or_name.symm.trans last)
  cases name : s.name.getLast? with
  | none => decide
  | some p => exact h.ends p name

/-- There are no blanks around the line of a symbol. -/
theorem Plain.trim_line (h : s.Plain) : Text.trim s.line = s.line :=
  Text.strips_iff.1 ⟨[], [], (List.append_nil _).symm, .nil, .nil, head?_line, h.getLast?_line⟩

theorem line_ne_nil : s.line ≠ [] :=
  List.append_ne_nil_of_right_ne_nil _ (List.cons_ne_nil _ _)

end Symbol

namespace SymbolTable

variable {t line : Text} {s : Symbol} {symbols : List Symbol} {ls : List Text}
  {n : Nat}

/-- The texts that are written for some symbols: their lines in order, any blank lines before,
between and behind them, and the ends of lines between all of these. -/
inductive Shows : List Symbol → Text → Prop
  | blank {line : Text} : Unbroken line → Blank line → Shows [] line
  | last {s : Symbol} : Shows [s] s.line
  | skip {symbols : List Symbol} {line ending rest : Text} : Unbroken line → Blank line →
    ending ∈ terminators → Shows symbols rest → Shows symbols (line ++ (ending ++ rest))
  | next {s : Symbol} {symbols : List Symbol} {ending rest : Text} : ending ∈ terminators →
    Shows symbols rest → Shows (s :: symbols) (s.line ++ (ending ++ rest))

/-- A field holds a number: it is a numeral without a comma. -/
def Holds (field : Text) (n : Int) : Prop :=
  .char ',' ∉ field ∧ Text.Numeral.Spells field.chars n

/-- What a line stands for, its blanks taken off: three fields with numbers, a comma behind each of
them, and the name in the rest. -/
inductive StandsFor : Text → Symbol → Prop
  | mk {label wire component : Text} {s : Symbol} : Holds label s.label → Holds wire s.wire →
    Holds component s.component →
    StandsFor (label ++ .char ',' :: (wire ++ .char ',' :: (component ++ .char ',' :: s.name))) s

/-- A line is blank or stands for a symbol. -/
def Accepted (line : Text) : Prop := ∃ body, Strips line body ∧ (body = [] ∨ ∃ s, StandsFor body s)

/-- A malformed line is reported by its number. -/
def ReportsLine (n : Nat) (e : Failure) : Prop :=
  ∃ r, e.report? = some r ∧ r.kind = .format ∧ r.data = [(Text.ofString "line", datum n)]

section Line

theorem readNumber_eq_ok_iff {field : Text} {k : Int} :
    readNumber n field = .ok k ↔ Text.Numeral.Spells field.chars k := by
  rw [← Text.Numeral.read_decimal_eq_ok_iff, readNumber]
  cases Text.Numeral.read .decimal field.chars <;> simp

theorem readNumber_failsIn (field : Text) :
    Except.FailsIn (ReportsLine n) (readNumber n field) := by
  rw [readNumber]
  cases Text.Numeral.read .decimal field.chars with
  | ok k => exact .ok k
  | error e => exact .error ⟨_, rfl, rfl, rfl⟩

theorem readLine_failsIn (t : Text) : Except.FailsIn (ReportsLine n) (readLine n t) := by
  rw [readLine]
  split
  · exact (readNumber_failsIn _).bind fun _ _ => (readNumber_failsIn _).bind fun _ _ =>
      (readNumber_failsIn _).bind fun _ _ => .ok _
  · exact .error ⟨_, rfl, rfl, rfl⟩

theorem readLine_of_standsFor (h : StandsFor t s) : readLine n t = .ok s := by
  obtain ⟨⟨single, label⟩, ⟨single', wire⟩, ⟨single'', component⟩⟩ := h
  rw [readLine, Text.fields_succ_append 2 single, Text.fields_succ_append 1 single',
    Text.fields_succ_append 0 single'', Text.fields]
  simp only [readNumber_eq_ok_iff.2 label, readNumber_eq_ok_iff.2 wire,
    readNumber_eq_ok_iff.2 component]
  rfl

theorem standsFor_of_readLine (h : readLine n t = .ok s) : StandsFor t s := by
  rw [readLine] at h
  obtain whole | ⟨label, t, single, rfl, split⟩ := Text.fields_succ_cases 2 t
  · rw [whole] at h
    cases h
  obtain whole | ⟨wire, t, single', rfl, split'⟩ := Text.fields_succ_cases 1 t
  · rw [split, whole] at h
    cases h
  obtain whole | ⟨component, name, single'', rfl, split''⟩ := Text.fields_succ_cases 0 t
  · rw [split, split', whole] at h
    cases h
  rw [split, split', split'', Text.fields] at h
  simp only [Except.bind_eq_ok_iff, readNumber_eq_ok_iff] at h
  obtain ⟨l, hl, w, hw, c, hc, ⟨⟩⟩ := h
  exact .mk (s := ⟨l, w, c, name⟩) ⟨single, hl⟩ ⟨single', hw⟩ ⟨single'', hc⟩

/-- A line is read as the symbol that it stands for. -/
theorem readLine_eq_ok_iff : readLine n t = .ok s ↔ StandsFor t s :=
  ⟨standsFor_of_readLine, readLine_of_standsFor⟩

theorem accepted_iff : Accepted line ↔ Text.trim line = [] ∨ ∃ s, StandsFor (Text.trim line) s := by
  simp only [Accepted, Text.strips_iff, exists_eq_left']

instance : DecidablePred Accepted := fun line =>
  decidable_of_iff (Text.trim line = [] ∨ (readLine 0 (Text.trim line)).isOk = true) <| by
    rw [accepted_iff]
    simp only [← readLine_eq_ok_iff (n := 0)]
    cases readLine 0 (Text.trim line) <;> simp [Except.isOk, Except.toBool]

end Line

section Lines

theorem readLines_of_blank (h : Text.trim line = []) :
    readLines n (line :: ls) = readLines (n + 1) ls := by
  rw [readLines, h]

theorem readLines_of_body (h : Text.trim line ≠ []) : readLines n (line :: ls) = (do
    let s ← readLine n (Text.trim line)
    return s :: (← readLines (n + 1) ls)) := by
  rw [readLines]
  cases body : Text.trim line with
  | nil => exact absurd body h
  | cons p body => rfl

/-- Lines are read as what the bodies among them stand for. -/
theorem readLines_eq_ok_iff :
    readLines n ls = .ok symbols ↔ List.Forall₂ StandsFor (bodies ls) symbols := by
  induction ls generalizing n symbols with
  | nil =>
    change Except.ok [] = Except.ok symbols ↔ List.Forall₂ StandsFor [] symbols
    rw [Except.ok.injEq, List.forall₂_nil_left_iff, eq_comm]
  | cons line ls ih =>
    by_cases blank : Text.trim line = []
    · rw [readLines_of_blank blank, Text.bodies_of_blank blank, ih]
    · rw [readLines_of_body blank, Text.bodies_cons blank, List.forall₂_cons_left_iff]
      simp only [Except.bind_eq_ok_iff, readLine_eq_ok_iff, ih, Except.pure_eq_ok, Except.ok.injEq]
      constructor
      · rintro ⟨s, first, more, others, rfl⟩
        exact ⟨s, more, first, others, rfl⟩
      · rintro ⟨s, more, first, others, rfl⟩
        exact ⟨s, first, more, others, rfl⟩

/-- The lines are accepted if the bodies among them stand for symbols. -/
theorem forall_accepted_iff :
    (∀ line ∈ ls, Accepted line) ↔ ∀ body ∈ bodies ls, ∃ s, StandsFor body s := by
  simp only [accepted_iff, Text.mem_bodies]
  constructor
  · rintro accepted _ ⟨line, member, rfl, some⟩
    exact (accepted line member).resolve_left some
  · intro stand line member
    exact or_iff_not_imp_left.2 fun some => stand _ ⟨line, member, rfl, some⟩

/-- Behind accepted lines, a line that is not accepted is reported. -/
theorem readLines_stops {before : List Text} (accepted : ∀ l ∈ before, Accepted l)
    (h : ¬ Accepted line) (after : List Text) :
    ∃ e, readLines n (before ++ line :: after) = .error e ∧ ReportsLine (n + before.length) e := by
  rw [accepted_iff, not_or, not_exists] at h
  induction before generalizing n with
  | nil =>
    rw [List.nil_append, readLines_of_body h.1]
    cases first : readLine n (Text.trim line) with
    | ok s => exact absurd (readLine_eq_ok_iff.1 first) (h.2 s)
    | error e => exact ⟨e, rfl, readLine_failsIn _ e first⟩
  | cons l before ih =>
    obtain ⟨accepted, others⟩ := List.forall_mem_cons.1 accepted
    obtain ⟨e, failed, reported⟩ := ih (n := n + 1) others
    rw [List.length_cons, Nat.add_comm before.length, ← Nat.add_assoc]
    refine ⟨e, ?_, reported⟩
    rw [List.cons_append]
    by_cases blank : Text.trim l = []
    · rw [readLines_of_blank blank, failed]
    · obtain ⟨s, stands⟩ := (accepted_iff.1 accepted).resolve_left blank
      rw [readLines_of_body blank, readLine_eq_ok_iff.2 stands, failed]
      rfl

end Lines

section Whole

/-- A text is read as what the bodies among its lines stand for. -/
theorem parse_eq_ok_iff {table : SymbolTable} : parse t = .ok table ↔
    ∃ symbols, List.Forall₂ StandsFor (bodies (Text.lines t)) symbols ∧ ofList symbols = table := by
  simp only [parse, Except.bind_eq_ok_iff, readLines_eq_ok_iff, Except.pure_eq_ok, Except.ok.injEq]

/-- A text is read exactly if its lines are accepted. -/
theorem exists_parse_iff :
    (∃ table, parse t = .ok table) ↔ ∀ line ∈ Text.lines t, Accepted line := by
  rw [forall_accepted_iff, ← Except.exists_forall₂_iff]
  simp only [parse_eq_ok_iff]
  constructor
  · rintro ⟨_, symbols, stand, rfl⟩
    exact ⟨symbols, stand⟩
  · rintro ⟨symbols, stand⟩
    exact ⟨_, symbols, stand, rfl⟩

theorem standsFor_line (h : s.Plain) : StandsFor s.line s := by
  have holds (n : Int) (short : (Nat.toDigits 10 n.natAbs).length ≤ Text.maxDigits) :
      Holds (Symbol.numeral n) n := by
    refine ⟨fun member => (Symbol.mem_numeral member).1 rfl, ?_⟩
    rw [Symbol.numeral, Text.ofString, Text.chars_ofChars]
    exact Text.Numeral.spells_toString short
  obtain ⟨label, wire, component⟩ := by simpa using h.short
  exact .mk (holds _ label) (holds _ wire) (holds _ component)

/-- The bodies among the lines of a text are the lines of the symbols that it shows. -/
theorem Shows.bodies_eq (h : Shows symbols t) (plain : ∀ s ∈ symbols, s.Plain) :
    bodies (Text.lines t) = symbols.map Symbol.line := by
  have blank_line {line : Text} (unbroken : Unbroken line) (blank : Blank line) :
      bodies (Text.lines line) = [] := by
    rw [Text.bodies_lines_of_unbroken unbroken, Text.bodies_of_blank (Text.trim_of_blank blank)]
    rfl
  have symbol_line {s : Symbol} (plain : s.Plain) : bodies (Text.lines s.line) = [s.line] := by
    rw [Text.bodies_lines_of_unbroken plain.unbroken_line, Text.bodies_cons, plain.trim_line]
    · rfl
    · rw [plain.trim_line]
      exact Symbol.line_ne_nil
  induction h with
  | blank unbroken blank => exact blank_line unbroken blank
  | @last s => exact symbol_line (plain s (List.mem_singleton_self s))
  | skip unbroken blank known _ ih =>
    rw [Text.bodies_lines_append known, blank_line unbroken blank, ih plain, List.nil_append]
  | next known _ ih =>
    obtain ⟨first, others⟩ := List.forall_mem_cons.1 plain
    rw [Text.bodies_lines_append known, symbol_line first, ih others, List.map_cons,
      List.singleton_append]

/-- A symbol file is read line by line. A text that shows symbols is read as a table of these
symbols in order. A text is read at all exactly if each of its lines is accepted, and then as the
symbols that its lines stand for; otherwise the first line that is not accepted is reported by its
number, counted from one. -/
theorem parse_line_format :
    (∀ symbols text, (∀ s ∈ symbols, s.Plain) → Shows symbols text →
      ∃ table, parse text = .ok table ∧ table.symbols = symbols) ∧
    ∀ text, ∃ lines, (∀ ls, HasLines text ls ↔ ls = lines) ∧
      ((∃ table, parse text = .ok table) ↔ ∀ line ∈ lines, Accepted line) ∧
      (∀ table, parse text = .ok table → List.Forall₂ StandsFor (bodies lines) table.symbols) ∧
      ∀ before line after, lines = before ++ line :: after →
        (∀ l ∈ before, Accepted l) → ¬ Accepted line →
        ∃ e, parse text = .error e ∧ ReportsLine (before.length + 1) e := by
  constructor
  · intro symbols text plain shows
    refine ⟨ofList symbols, parse_eq_ok_iff.2 ⟨symbols, ?_, rfl⟩, symbols_ofList symbols⟩
    rw [shows.bodies_eq plain, List.forall₂_map_left_iff, List.forall₂_same]
    exact fun s member => standsFor_line (plain s member)
  · intro text
    refine ⟨Text.lines text, fun ls => by rw [Text.hasLines_iff, eq_comm], exists_parse_iff, ?_, ?_⟩
    · intro table read
      obtain ⟨symbols, stand, rfl⟩ := parse_eq_ok_iff.1 read
      rwa [symbols_ofList]
    · intro before line after split accepted refused
      obtain ⟨e, failed, reported⟩ := readLines_stops (n := 1) accepted refused after
      rw [← split] at failed
      refine ⟨e, ?_, Nat.add_comm 1 _ ▸ reported⟩
      rw [parse, failed]
      rfl

/-- Symbols with negative numbers, a comma and a blank in a name, and a name without anything. -/
def plainSymbols : List Symbol :=
  [⟨1, -1, 0, "main.a,b"⟩, ⟨-2, 0, 5, " x"⟩, ⟨3, 2, 0, ""⟩]

/-- These symbols are read from a text with lines of several ends and blank lines before and between
them, where the carriage return behind one blank line and the line feed behind the next count as one
end. With a field left out in the second symbol, the fourth line is reported. -/
theorem parse_line_format_sample :
    (∃ table, parse ("\r\n1,-1,0,main.a,b\u2028 \t\r\n-2,0,5, x\r\n3,2,0," : String) = .ok table ∧
      table.symbols = plainSymbols) ∧
    ∃ e, parse ("\r\n1,-1,0,main.a,b\u2028 \t\r\n-2,0 x\r\n3,2" : String) = .error e ∧
      ReportsLine 4 e := by
  obtain ⟨reads, refuses⟩ := parse_line_format
  constructor
  · have plain : ∀ s ∈ plainSymbols, s.Plain := by decide +kernel
    have shows : ∀ text, text = Text.ofString "" ++ (Text.ofString "\r\n" ++
        (Symbol.line ⟨1, -1, 0, "main.a,b"⟩ ++ (Text.ofString "\u2028" ++
          (Text.ofString " \t" ++ (Text.ofString "\r" ++ (Text.ofString "" ++ (Text.ofString "\n" ++
            (Symbol.line ⟨-2, 0, 5, " x"⟩ ++ (Text.ofString "\r\n" ++
              Symbol.line ⟨3, 2, 0, ""⟩))))))))) → Shows plainSymbols text := by
      rintro _ rfl
      exact .skip (by decide) (by decide) (by decide) <| .next (by decide) <|
        .skip (by decide) (by decide) (by decide) <| .skip (by decide) (by decide) (by decide) <|
          .next (by decide) .last
    exact reads plainSymbols _ plain (shows _ (by decide +kernel))
  · obtain ⟨lines, same, -, -, stops⟩ :=
      refuses ("\r\n1,-1,0,main.a,b\u2028 \t\r\n-2,0 x\r\n3,2" : String)
    obtain rfl := (same [Text.ofString "", Text.ofString "1,-1,0,main.a,b", Text.ofString " \t",
      Text.ofString "-2,0 x", Text.ofString "3,2"]).1 (Text.hasLines_iff.2 (by decide +kernel))
    exact stops [Text.ofString "", Text.ofString "1,-1,0,main.a,b", Text.ofString " \t"] _ _ rfl
      (by decide +kernel) (by decide +kernel)

end Whole

end SymbolTable

end Snark
