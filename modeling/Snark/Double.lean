/-!
# Double-precision numbers

A double is kept exactly, as a sign, a mantissa and a power of two. `ofDecimal` takes a decimal to
the nearest double, ties going to the even mantissa, `truncate?` drops the fraction, `whole?` asks
for none, and `text` prints the fewest digits that read back, the nearest such decimal to the
double. Everything is done in natural numbers, so nothing is rounded but the result.
-/

namespace Snark

/-- A double: `mantissa * 2 ^ exponent` with a sign, an infinity, or no number at all. A finite
one other than zero has 53 bits in its mantissa or the least exponent, `-1074`. -/
inductive Double
  | finite (negative : Bool) (mantissa : Nat) (exponent : Int)
  | infinite (negative : Bool)
  | nan
  deriving DecidableEq, Repr

namespace Double

/-- The powers of two. -/
def twoPow (k : Nat) : Nat := 1 <<< k

/-- The powers of ten. -/
def tenPow (k : Nat) : Nat := Nat.pow 10 k

/-- How many binary digits a number has. -/
def bitLength (n : Nat) : Nat := if n = 0 then 0 else n.log2 + 1

/-- How many decimal digits a number has. -/
def decimalLength (n : Nat) : Nat := (Nat.toDigits 10 n).length

/-- The quotient `num / den` to the nearest integer, and to the even one of two. -/
def roundDiv (num den : Nat) : Nat :=
  let q := num / den
  let r := num % den
  if den < 2 * r || (2 * r = den && q % 2 = 1) then q + 1 else q

/-- The fraction `num / den` over `2 ^ e`, as a fraction. -/
def scale (num den : Nat) (e : Int) : Nat × Nat :=
  if 0 ≤ e then (num, den * twoPow e.toNat) else (num * twoPow (-e).toNat, den)

/-- The double nearest to the positive fraction `num / den`. -/
def ofFraction (negative : Bool) (num den : Nat) : Double :=
  let e₀ : Int := (bitLength num : Int) - bitLength den - 53
  let (a, b) := scale num den e₀
  let e₁ := if twoPow 53 ≤ a / b then e₀ + 1 else e₀
  let e := if e₁ < -1074 then -1074 else e₁
  let (a, b) := scale num den e
  let m := roundDiv a b
  let (m, e) := if m = twoPow 53 then (twoPow 52, e + 1) else (m, e)
  if 971 < e then .infinite negative else .finite negative m e

/-- The double nearest to `digits * 10 ^ exponent`. -/
def ofDecimal (negative : Bool) (digits : Nat) (exponent : Int) : Double :=
  let size := exponent + decimalLength digits
  if digits = 0 || size < -400 then .finite negative 0 (-1074)
  else if 400 < size then .infinite negative
  else if 0 ≤ exponent then ofFraction negative (digits * tenPow exponent.toNat) 1
  else ofFraction negative digits (tenPow (-exponent).toNat)

/-- The integer part, the fraction being dropped; infinities and NaN have none. -/
def truncate? : Double → Option Int
  | .finite negative m e =>
    let n : Nat := if 0 ≤ e then m * twoPow e.toNat else m / twoPow (-e).toNat
    some (if negative then -(n : Int) else n)
  | _ => none

/-- The integer that a double is, if it has no fraction. -/
def whole? (x : Double) : Option Int :=
  match x with
  | .finite _ m e => if 0 ≤ e || m % twoPow (-e).toNat = 0 then x.truncate? else none
  | _ => none

/-- The decimal exponent of the positive fraction `num / den`: the least `k` with
`num / den < 10 ^ k`, for fractions of a double's size. -/
def decimalExponent (num den : Nat) : Int :=
  if den ≤ num then decimalLength (num / den)
  else
    match (List.range 400).find? fun j => den ≤ num * tenPow (j + 1) with
    | some j => -(j : Int)
    | none => 0

/-- Whether `d * 10 ^ g` lies in the interval whose ends over `den` are `low` and `high`, the
ends themselves included or not. -/
def within (den low high : Nat) (ends : Bool) (d : Nat) (g : Int) : Bool :=
  let x := if 0 ≤ g then d * tenPow g.toNat * den else d * den
  let unit := if 0 ≤ g then 1 else tenPow (-g).toNat
  if ends then low * unit ≤ x && x ≤ high * unit else low * unit < x && x < high * unit

/-- The point of the grid of `10 ^ g` that reads back as the double and is nearest to it. -/
def gridPoint? (den low mid high : Nat) (ends : Bool) (g : Int) : Option Nat :=
  let (num, unit) := if 0 ≤ g then (mid, den * tenPow g.toNat) else (mid * tenPow (-g).toNat, den)
  let below := num / unit
  let near := roundDiv num unit
  let far := if near = below then below + 1 else below
  if within den low high ends near g then some near
  else if within den low high ends far g then some far
  else none

/-- The fewest decimal digits that read back as `m * 2 ^ e`, and the exponent `k` with
`0.digits * 10 ^ k` that number. -/
def shortest (m : Nat) (e : Int) : List Char × Int :=
  let narrow := m = twoPow 52 && -1074 < e
  let (num, den) := if 2 ≤ e then (twoPow (e - 2).toNat, 1) else (1, twoPow (2 - e).toNat)
  let mid := 4 * m * num
  let low := if narrow then (4 * m - 1) * num else (4 * m - 2) * num
  let high := (4 * m + 2) * num
  let k := decimalExponent mid den
  let found := (List.range 17).findSome? fun (n : Nat) =>
    (gridPoint? den low mid high (m % 2 = 0) (k - (n + 1))).map fun d => (d, k - ((n : Int) + 1))
  match found with
  | none => ([], 0)
  | some (d, g) =>
    let ds := Nat.toDigits 10 d
    ((ds.reverse.dropWhile (· = '0')).reverse, g + ds.length)

/-- The layout of the digits of `0.ds * 10 ^ k`: positional where the point falls at most 16
digits to the right or three zeros to the left, and scientific beyond. -/
def layout (ds : List Char) (k : Int) : List Char :=
  let zeros (n : Int) := List.replicate n.toNat '0'
  if -4 < k && k ≤ 16 then
    if k ≤ 0 then '0' :: '.' :: zeros (-k) ++ ds
    else if (ds.length : Int) ≤ k then ds ++ zeros (k - ds.length) ++ ['.', '0']
    else ds.take k.toNat ++ '.' :: ds.drop k.toNat
  else
    let fraction := if ds.length ≤ 1 then [] else '.' :: ds.drop 1
    let power := Nat.toDigits 10 (k - 1).natAbs
    let power := if power.length < 2 then '0' :: power else power
    ds.take 1 ++ fraction ++ 'e' :: (if k - 1 < 0 then '-' else '+') :: power

/-- The decimal text of a double. -/
def text : Double → String
  | .finite negative m e =>
    let body := if m = 0 then ['0', '.', '0'] else layout (shortest m e).1 (shortest m e).2
    String.ofList (if negative then '-' :: body else body)
  | .infinite negative => if negative then "-inf" else "inf"
  | .nan => "nan"

end Double

end Snark
