import Mathlib.Data.List.TakeWhile
import Mathlib.Tactic.Common
import Snark.Text.Blank

/-!
# Lines, blanks and fields

`HasLines` says what the lines of a text are: each but the last one ends with a terminator, a
carriage return in front of a line feed never ends a line by itself, and what follows the last
terminator is a line if there is anything. `Strips` says what is left of a line between its blanks.

A reader that skips blank lines sees the `bodies` alone. They do not depend on which of two
terminators side by side were taken for one, so the bodies of a text that is put together from parts
with a terminator between are those of the parts.
-/

namespace Snark.Text

section Lines

/-- The characters that end a line. -/
def breaks : List Char :=
  ['\n', '\r', '\x0b', '\x0c', '\x1c', '\x1d', '\x1e', '\u0085', '\u2028', '\u2029']

/-- The ends of lines: a carriage return and a line feed, or one character. -/
def terminators : List Text := ofChars ['\r', '\n'] :: breaks.map fun c => [.char c]

/-- No character of the text ends a line. -/
def Unbroken (t : Text) : Prop := ∀ c ∈ breaks, .char c ∉ t

instance (t : Text) : Decidable (Unbroken t) :=
  show Decidable (∀ c ∈ breaks, .char c ∉ t) from List.decidableBAll _ _

/-- The lines of a text, without their ends. -/
inductive HasLines : Text → List Text → Prop
  | nil : HasLines [] []
  | last {line : Text} : Unbroken line → line ≠ [] → HasLines line [line]
  | line {line ending rest : Text} {more : List Text} : Unbroken line → ending ∈ terminators →
    (ending = [.char '\r'] → rest.head? ≠ some (.char '\n')) → HasLines rest more →
    HasLines (line ++ (ending ++ rest)) (line :: more)

variable {t line ending rest body : Text} {ls more : List Text} {c : Char}

theorem isBreak_iff : isBreak c = true ↔ c ∈ breaks := by
  simp only [isBreak, breaks, List.mem_cons, List.not_mem_nil, or_false, ← Char.toNat_inj,
    Bool.or_eq_true, Bool.and_eq_true, decide_eq_true_eq, beq_iff_eq]
  change _ ↔ c.toNat = 10 ∨ c.toNat = 13 ∨ c.toNat = 11 ∨ c.toNat = 12 ∨ c.toNat = 28 ∨
    c.toNat = 29 ∨ c.toNat = 30 ∨ c.toNat = 133 ∨ c.toNat = 8232 ∨ c.toNat = 8233
  omega

theorem unbroken_iff : Unbroken t ↔ ∀ p ∈ t, p.satisfies isBreak = false := by
  constructor
  · rintro h (c | unit) member
    · rw [← Bool.not_eq_true]
      exact fun broken => h c (isBreak_iff.1 broken) member
    · rfl
  · intro h c known member
    have := h _ member
    rw [CodePoint.satisfies, isBreak_iff.2 known] at this
    cases this

theorem Unbroken.nil : Unbroken [] := fun _ _ => List.not_mem_nil

/-- A blank-free text is not broken. -/
theorem unbroken_of_visible (h : ∀ p ∈ t, p.satisfies isBlank = false) : Unbroken t := by
  intro c known member
  have visible := h _ member
  rw [CodePoint.satisfies, isBlank_of_isBreak (isBreak_iff.2 known)] at visible
  cases visible

theorem unbroken_cons {p : CodePoint} :
    Unbroken (p :: t) ↔ p.satisfies isBreak = false ∧ Unbroken t := by
  simp only [unbroken_iff, List.forall_mem_cons]

theorem unbroken_append {t' : Text} : Unbroken (t ++ t') ↔ Unbroken t ∧ Unbroken t' := by
  simp only [unbroken_iff, List.forall_mem_append]

/-- A code point that ends no line goes to the line behind it. -/
theorem lines_cons_unbroken {p : CodePoint} (h : p.satisfies isBreak = false) :
    lines (p :: t) = match lines t with
      | [] => [[p]]
      | line :: more => (p :: line) :: more := by
  have other : ∀ rest, p = .char '\r' → t = .char '\n' :: rest → False := by
    rintro rest rfl -
    cases h
  exact (lines.eq_3 p t other).trans (if_neg (by simp [h]))

/-- A character that ends a line, and is not the first of two that end it together. -/
theorem lines_cons_break (h : c ∈ breaks) (whole : c = '\r' → rest.head? ≠ some (.char '\n')) :
    lines (.char c :: rest) = [] :: lines rest := by
  have other : ∀ more, CodePoint.char c = .char '\r' → rest = .char '\n' :: more → False := by
    rintro more ⟨⟩ rfl
    exact whole rfl rfl
  have broken : (CodePoint.char c).satisfies isBreak = true := isBreak_iff.2 h
  rw [lines.eq_3 (.char c) rest other, if_pos broken]

theorem mem_terminators : ending ∈ terminators ↔
    ending = [.char '\r', .char '\n'] ∨ ∃ c ∈ breaks, ending = [.char c] := by
  simp only [terminators, List.mem_cons, List.mem_map, eq_comm]
  rfl

/-- One line is split off, unless its end goes on in the rest. -/
theorem lines_append (unbroken : Unbroken line) (known : ending ∈ terminators)
    (whole : ending = [.char '\r'] → rest.head? ≠ some (.char '\n')) :
    lines (line ++ (ending ++ rest)) = line :: lines rest := by
  induction line with
  | nil =>
    obtain rfl | ⟨c, broken, rfl⟩ := mem_terminators.1 known
    · rfl
    · exact lines_cons_break broken fun carriage => whole (by rw [carriage])
  | cons p line ih =>
    obtain ⟨first, others⟩ := unbroken_cons.1 unbroken
    rw [List.cons_append, lines_cons_unbroken first, ih others]

/-- A text that nothing breaks is one line, if it is not empty. -/
theorem lines_of_unbroken (unbroken : Unbroken line) (h : line ≠ []) : lines line = [line] := by
  induction line with
  | nil => exact absurd rfl h
  | cons p line ih =>
    obtain ⟨first, others⟩ := unbroken_cons.1 unbroken
    rw [lines_cons_unbroken first]
    cases line with
    | nil => rfl
    | cons p' line => rw [ih others (List.cons_ne_nil _ _)]

theorem hasLines_lines (t : Text) : HasLines t (lines t) := by
  induction t using lines.induct with
  | case1 => exact .nil
  | case2 rest ih => exact .line .nil (List.mem_cons_self ..) nofun ih
  | case3 p rest other broken ih =>
    obtain ⟨c, rfl, known⟩ : ∃ c, p = .char c ∧ c ∈ breaks := by
      cases p with
      | char c => exact ⟨c, rfl, isBreak_iff.1 broken⟩
      | half unit => cases broken
    have whole : [CodePoint.char c] = [.char '\r'] → rest.head? ≠ some (.char '\n') := by
      rintro ⟨⟩ next
      obtain ⟨more, rfl⟩ := List.head?_eq_some_iff.1 next
      exact other more rfl rfl
    rw [lines_cons_break known fun carriage => whole (by rw [carriage])]
    exact .line .nil (mem_terminators.2 (.inr ⟨c, known, rfl⟩)) whole ih
  | case4 p rest other unbroken empty ih =>
    have first : p.satisfies isBreak = false := by simpa using unbroken
    rw [lines_cons_unbroken first, empty]
    rw [empty] at ih
    cases ih
    exact .last (unbroken_cons.2 ⟨first, .nil⟩) (List.cons_ne_nil _ _)
  | case5 p rest other unbroken line more split ih =>
    have first : p.satisfies isBreak = false := by simpa using unbroken
    rw [lines_cons_unbroken first, split]
    rw [split] at ih
    cases ih with
    | last others _ => exact .last (unbroken_cons.2 ⟨first, others⟩) (List.cons_ne_nil _ _)
    | line others known whole more => exact .line (unbroken_cons.2 ⟨first, others⟩) known whole more

theorem hasLines_iff : HasLines t ls ↔ lines t = ls := by
  constructor
  · intro h
    induction h with
    | nil => rfl
    | last unbroken some => exact lines_of_unbroken unbroken some
    | line unbroken known whole _ ih => rw [lines_append unbroken known whole, ih]
  · rintro rfl
    exact hasLines_lines t

instance (t : Text) (ls : List Text) : Decidable (HasLines t ls) := decidable_of_iff' _ hasLines_iff

end Lines

section Blanks

/-- Every code point of the text is a blank. -/
def Blank (t : Text) : Prop := ∀ p ∈ t, p.satisfies isBlank = true

instance (t : Text) : Decidable (Blank t) :=
  show Decidable (∀ p ∈ t, p.satisfies isBlank = true) from List.decidableBAll _ _

theorem Blank.nil : Blank [] := fun _ => nofun

/-- What is left of a text between the blanks at its ends. -/
def Strips (t body : Text) : Prop :=
  ∃ before after, t = before ++ (body ++ after) ∧ Blank before ∧ Blank after ∧
    (∀ p ∈ body.head?, p.satisfies isBlank = false) ∧
    ∀ p ∈ body.getLast?, p.satisfies isBlank = false

theorem trimLeft_append {before : Text} (h : Blank before) : trimLeft (before ++ t) = trimLeft t :=
  List.dropWhile_append_of_pos h

theorem trimLeft_of_head? (h : ∀ p ∈ t.head?, p.satisfies isBlank = false) : trimLeft t = t := by
  cases t with
  | nil => rfl
  | cons p t => exact List.dropWhile_cons_of_neg (by simp [h p rfl])

theorem trimRight_append {after : Text} (h : Blank after) :
    trimRight (t ++ after) = trimRight t := by
  rw [trimRight, trimRight, List.reverse_append,
    List.dropWhile_append_of_pos fun p member => h p (List.mem_reverse.1 member)]

theorem trimRight_of_getLast? (h : ∀ p ∈ t.getLast?, p.satisfies isBlank = false) :
    trimRight t = t := by
  have first : ∀ p ∈ t.reverse.head?, p.satisfies isBlank = false := by rwa [List.head?_reverse]
  change (trimLeft t.reverse).reverse = t
  rw [trimLeft_of_head? first, List.reverse_reverse]

theorem head?_trimLeft (t : Text) : ∀ p ∈ (trimLeft t).head?, p.satisfies isBlank = false := by
  intro p first
  have := List.head?_dropWhile_not (·.satisfies isBlank) t
  rw [show t.dropWhile (·.satisfies isBlank) = trimLeft t from rfl, Option.mem_def.1 first] at this
  exact this

theorem getLast?_trimRight (t : Text) :
    ∀ p ∈ (trimRight t).getLast?, p.satisfies isBlank = false := by
  rw [trimRight, List.getLast?_reverse]
  exact head?_trimLeft t.reverse

theorem exists_trimLeft (t : Text) : ∃ before, t = before ++ trimLeft t ∧ Blank before :=
  ⟨t.takeWhile (·.satisfies isBlank), List.takeWhile_append_dropWhile.symm,
    fun _ => List.mem_takeWhile_imp⟩

theorem exists_trimRight (t : Text) : ∃ after, t = trimRight t ++ after ∧ Blank after := by
  obtain ⟨before, split, blank⟩ := exists_trimLeft t.reverse
  refine ⟨before.reverse, ?_, fun p member => blank p (List.mem_reverse.1 member)⟩
  calc t = t.reverse.reverse := (List.reverse_reverse t).symm
    _ = (before ++ trimLeft t.reverse).reverse := congrArg List.reverse split
    _ = trimRight t ++ before.reverse := List.reverse_append

theorem strips_iff : Strips t body ↔ trim t = body := by
  rw [trim]
  constructor
  · rintro ⟨before, after, rfl, front, back, first, last⟩
    rw [trimLeft_append front]
    cases body with
    | nil => rw [List.nil_append, ← List.append_nil after, trimLeft_append back]; rfl
    | cons p body =>
      have start : trimLeft (p :: body ++ after) = p :: body ++ after := trimLeft_of_head? first
      rw [start, trimRight_append back, trimRight_of_getLast? last]
  · rintro rfl
    obtain ⟨before, front, blankFront⟩ := exists_trimLeft t
    obtain ⟨after, back, blankBack⟩ := exists_trimRight (trimLeft t)
    refine ⟨before, after, by rw [← back, ← front], blankFront, blankBack, fun p first => ?_,
      getLast?_trimRight _⟩
    refine head?_trimLeft t p ?_
    rw [back, List.head?_append, Option.mem_def.1 first]
    rfl

theorem trim_of_blank (h : Blank t) : trim t = [] :=
  strips_iff.1 ⟨t, [], (List.append_nil t).symm, h, nofun, nofun, nofun⟩

end Blanks

section Bodies

/-- What is left of the lines that are not blank. -/
def bodies (ls : List Text) : List Text := (ls.map trim).filter (· ≠ [])

theorem mem_bodies : body ∈ bodies ls ↔ ∃ line ∈ ls, trim line = body ∧ body ≠ [] := by
  simp only [bodies, List.mem_filter, List.mem_map, decide_eq_true_eq]
  constructor
  · rintro ⟨⟨line, member, rfl⟩, some⟩
    exact ⟨line, member, rfl, some⟩
  · rintro ⟨line, member, rfl, some⟩
    exact ⟨⟨line, member, rfl⟩, some⟩

theorem bodies_append (ls more : List Text) : bodies (ls ++ more) = bodies ls ++ bodies more := by
  rw [bodies, List.map_append, List.filter_append, bodies, bodies]

theorem bodies_of_blank (h : trim line = []) : bodies (line :: more) = bodies more := by
  rw [bodies, List.map_cons, h, List.filter_cons_of_neg (by simp), bodies]

theorem bodies_cons (h : trim line ≠ []) : bodies (line :: more) = trim line :: bodies more := by
  rw [bodies, List.map_cons, List.filter_cons_of_pos (by simpa using h), bodies]

/-- The pieces of a text between the characters that end lines. -/
def pieces (t : Text) : List Text := t.splitOnP (·.satisfies isBreak)

theorem pieces_of_unbroken (h : Unbroken line) : pieces line = [line] :=
  List.splitOnP_eq_singleton (unbroken_iff.1 h)

theorem pieces_append (h : c ∈ breaks) :
    pieces (t ++ .char c :: rest) = pieces t ++ pieces rest :=
  List.splitOnP_append_cons t rest (isBreak_iff.2 h)

theorem bodies_pieces_append (known : ending ∈ terminators) :
    bodies (pieces (t ++ (ending ++ rest))) = bodies (pieces t) ++ bodies (pieces rest) := by
  obtain rfl | ⟨c, broken, rfl⟩ := mem_terminators.1 known
  · -- The piece between the two characters is empty.
    have between : pieces (.char '\n' :: rest) = [] :: pieces rest :=
      pieces_append (t := []) (by decide)
    rw [List.cons_append, List.singleton_append, pieces_append (by decide), between, bodies_append,
      bodies_of_blank rfl]
  · rw [List.singleton_append, pieces_append broken, bodies_append]

/-- The bodies of the lines are those of the pieces. -/
theorem HasLines.bodies_eq (h : HasLines t ls) : bodies ls = bodies (pieces t) := by
  induction h with
  | nil => rfl
  | last unbroken _ => rw [pieces_of_unbroken unbroken]
  | line unbroken known _ _ ih =>
    rw [bodies_pieces_append known, pieces_of_unbroken unbroken, ← ih, ← bodies_append,
      List.singleton_append]

theorem bodies_lines_of_unbroken (h : Unbroken line) : bodies (lines line) = bodies [line] := by
  rw [(hasLines_lines line).bodies_eq, pieces_of_unbroken h]

/-- The bodies of two texts with the end of a line between them. -/
theorem bodies_lines_append (known : ending ∈ terminators) :
    bodies (lines (t ++ (ending ++ rest))) = bodies (lines t) ++ bodies (lines rest) := by
  simp only [(hasLines_lines _).bodies_eq, bodies_pieces_append known]

end Bodies

section Fields

theorem fields_succ_of_not_mem (n : Nat) (h : .char ',' ∉ t) : fields (n + 1) t = [t] := by
  induction t with
  | nil => rfl
  | cons p t ih =>
    rw [fields, if_neg (List.ne_of_not_mem_cons h).symm, ih (List.not_mem_of_not_mem_cons h)]

/-- The first field ends at the first comma. -/
theorem fields_succ_append (n : Nat) {field : Text} (h : .char ',' ∉ field) :
    fields (n + 1) (field ++ .char ',' :: rest) = field :: fields n rest := by
  induction field with
  | nil => rw [List.nil_append, fields, if_pos rfl]
  | cons p field ih =>
    rw [List.cons_append, fields, if_neg (List.ne_of_not_mem_cons h).symm,
      ih (List.not_mem_of_not_mem_cons h)]

/-- Either there is no comma and one field, or the fields are cut at the first comma. -/
theorem fields_succ_cases (n : Nat) (t : Text) : fields (n + 1) t = [t] ∨
    ∃ field rest, .char ',' ∉ field ∧ t = field ++ .char ',' :: rest ∧
      fields (n + 1) t = field :: fields n rest := by
  by_cases h : .char ',' ∈ t
  · obtain ⟨field, rest, rfl, single⟩ := List.eq_append_cons_of_mem h
    exact .inr ⟨field, rest, single, rfl, fields_succ_append n single⟩
  · exact .inl (fields_succ_of_not_mem n h)

end Fields

end Snark.Text
