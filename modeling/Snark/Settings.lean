import Snark.Failure
import Snark.Text.Blank
import Snark.Text.Utf8

/-!
# Settings of the sandbox

Two settings can be given as texts: whether programs run their checks, and how many pages of memory
they start with. A text without anything but blanks counts as absent. Settings are kept as bytes
that end at the character zero, so a text that has no bytes or holds that character cannot be one.
-/

namespace Snark

/-- The settings of the sandbox. -/
structure Settings where
  sanity : Bool
  /-- The initial memory of a program, in pages. -/
  pages : Int
  deriving DecidableEq, Repr

namespace Settings

/-- The settings where none are given. -/
def standard : Settings := ⟨false, 2000⟩

/-- The name of the setting for checks. -/
def sanityName : String := "ZKCIRCOM_SANITY_CHECK"

/-- The name of the setting for the memory. -/
def pagesName : String := "ZKCIRCOM_WASM_MEMORY_PAGES"

/-- The texts that turn a setting on. -/
def affirmative : List String := ["1", "true", "yes", "on"]

/-- The text that a setting reads as once it has been kept. -/
def stored (raw : Text) : Except Fault Text :=
  match Text.Utf8.encodeEscaped? raw with
  | none => .error .halfPair
  | some bytes =>
    if bytes.contains 0 then .error .zeroCharacter else .ok (Text.Utf8.decodeEscaped bytes)

/-- The text of a setting without the blanks around it; nothing if that leaves nothing. -/
def given? (raw : Option Text) : Option Text :=
  (raw.map Text.trim).filter fun t => !t.isEmpty

/-- Reads a setting that is on or off. -/
def readFlag (raw : Option Text) (default : Bool) : Bool :=
  match given? raw with
  | some t => affirmative.contains t.string.toLower
  | none => default

/-- Reads a setting that is a positive number. -/
def readCount (name : String) (raw : Option Text) (default : Int) : Except Fault Int :=
  match given? raw with
  | none => .ok default
  | some t =>
    match Text.Numeral.read .marked t.chars with
    | .error _ => .error (.settingNotInteger name (raw.getD []))
    | .ok n => if n ≤ 0 then .error (.settingNotPositive name n) else .ok n

/-- Reads both settings. -/
def read (sanity pages : Option Text) : Except Fault Settings := do
  let sanity ← sanity.mapM stored
  let pages ← pages.mapM stored
  let sanity := readFlag sanity standard.sanity
  let pages ← readCount pagesName pages standard.pages
  return ⟨sanity, pages⟩

end Settings

end Snark
