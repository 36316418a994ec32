import Snark.Text.Basic

/-!
# UTF-8

`decode?` reads UTF-8 and refuses whatever is not; `decodeLossy` puts one replacement character
in the place of every longest piece that starts a character and does not finish it, and of every
byte that starts none. Both fold `feed` over the bytes, which keeps the unfinished character.
`encode?` gives the bytes of a text, which has none where it holds half of a surrogate pair.

Where arbitrary bytes have to pass as a text, a byte above 127 that belongs to no character is
written as the half of a pair U+DC00 above it; `encodeEscaped?` and `decodeEscaped` do that.
-/

namespace Snark.Text.Utf8

/-- A character some of whose bytes are still to come. -/
structure Pending where
  /-- How many bytes come after the next one. -/
  after : Nat
  /-- The least and the greatest value that the next byte may have. -/
  low : Nat
  high : Nat
  /-- The bits read so far. -/
  bits : Nat

/-- What a byte at the start of a character gives: characters, `none` for a piece that is no
character, and the character it opens, if any. -/
def start (byte : UInt8) : List (Option Char) × Option Pending :=
  let b := byte.toNat
  if b < 0x80 then ([some (Char.ofNat b)], none)
  else if b < 0xc2 then ([none], none)
  else if b < 0xe0 then ([], some ⟨0, 0x80, 0xbf, b - 0xc0⟩)
  else if b = 0xe0 then ([], some ⟨1, 0xa0, 0xbf, 0⟩)
  else if b = 0xed then ([], some ⟨1, 0x80, 0x9f, 0xd⟩)
  else if b < 0xf0 then ([], some ⟨1, 0x80, 0xbf, b - 0xe0⟩)
  else if b = 0xf0 then ([], some ⟨2, 0x90, 0xbf, 0⟩)
  else if b < 0xf4 then ([], some ⟨2, 0x80, 0xbf, b - 0xf0⟩)
  else if b = 0xf4 then ([], some ⟨2, 0x80, 0x8f, 4⟩)
  else ([none], none)

/-- One byte more, after the character that is still open. -/
def feed (pending : Option Pending) (byte : UInt8) : List (Option Char) × Option Pending :=
  match pending with
  | none => start byte
  | some p =>
    if p.low ≤ byte.toNat && byte.toNat ≤ p.high then
      let bits := p.bits * 64 + (byte.toNat - 0x80)
      match p.after with
      | 0 => ([some (Char.ofNat bits)], none)
      | after + 1 => ([], some ⟨after, 0x80, 0xbf, bits⟩)
    else
      (none :: (start byte).1, (start byte).2)

/-- The characters of some bytes in order, `none` for each piece that is no character. -/
def scan (pending : Option Pending) : List UInt8 → List (Option Char)
  | [] => if pending.isSome then [none] else []
  | b :: bs => (feed pending b).1 ++ scan (feed pending b).2 bs

/-- The characters that the bytes encode, if they are UTF-8. -/
def decode? (bs : List UInt8) : Option (List Char) :=
  (scan none bs).mapM id

/-- The characters that the bytes encode, with U+FFFD for every piece that is no character. -/
def decodeLossy (bs : List UInt8) : List Char :=
  (scan none bs).map (·.getD '\uFFFD')

/-- The bytes of one character. -/
def encodeChar (c : Char) : List UInt8 :=
  let n := c.toNat
  if n < 0x80 then [.ofNat n]
  else if n < 0x800 then [.ofNat (0xc0 + n / 64), .ofNat (0x80 + n % 64)]
  else if n < 0x10000 then
    [.ofNat (0xe0 + n / 4096), .ofNat (0x80 + n / 64 % 64), .ofNat (0x80 + n % 64)]
  else
    [.ofNat (0xf0 + n / 262144), .ofNat (0x80 + n / 4096 % 64), .ofNat (0x80 + n / 64 % 64),
      .ofNat (0x80 + n % 64)]

/-- The bytes of some characters. -/
def encode (cs : List Char) : List UInt8 :=
  cs.flatMap encodeChar

/-- The bytes of a text, if it consists of characters only. -/
def encode? (t : Text) : Option (List UInt8) :=
  if t.isWhole then some (encode t.chars) else none

/-- The bytes of a code point that is a character or stands for a single byte. -/
def escapedBytes? : CodePoint → Option (List UInt8)
  | .char c => some (encodeChar c)
  | .half unit => if 0xdc80 ≤ unit && unit < 0xdd00 then some [.ofNat (unit - 0xdc00)] else none

/-- The bytes of a text some of whose code points may stand for single bytes. -/
def encodeEscaped? (t : Text) : Option (List UInt8) :=
  (t.mapM escapedBytes?).map List.flatten

/-- The character that some bytes start with, and the bytes after it. -/
def first? (bs : List UInt8) : Option (Char × List UInt8) :=
  [1, 2, 3, 4].findSome? fun n =>
    match decode? (bs.take n) with
    | some [c] => some (c, bs.drop n)
    | _ => none

/-- The text of some bytes, of which `steps` are enough to read. -/
def escapedFrom : (steps : Nat) → List UInt8 → Text
  | 0, _ => []
  | _, [] => []
  | steps + 1, b :: bs =>
    match first? (b :: bs) with
    | some (c, rest) => .char c :: escapedFrom steps rest
    | none => .half (0xdc00 + b.toNat) :: escapedFrom steps bs

/-- The text of some bytes, with a half of a pair for every byte that belongs to no character. -/
def decodeEscaped (bs : List UInt8) : Text := escapedFrom bs.length bs

end Snark.Text.Utf8
