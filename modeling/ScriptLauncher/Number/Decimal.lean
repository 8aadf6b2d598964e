import ScriptLauncher.Number.Binary64

/-! Decimal notations of a binary number: the fewest digits that read back, a
fixed number of places, and a fixed number of digits. -/

namespace ScriptLauncher

open Number

/-- Digits `d₁d₂…` that stand for `0.d₁d₂… * 10 ^ point`. -/
structure Decimal where
  digits : List Char
  point : Int
  deriving DecidableEq, Repr

namespace Decimal

/-- The numeral `n * 10 ^ place`, filled with zeros in front up to a number of digits. -/
def ofNumeral (size n : Nat) (place : Int) : Decimal :=
  let digits := (Nat.toDigits 10 n).leftpad size '0'
  ⟨digits, digits.length + place⟩

def trimZeros (d : Decimal) : Decimal :=
  ⟨(d.digits.reverse.dropWhile (· = '0')).reverse, d.point⟩

def padZeros (size : Nat) (d : Decimal) : Decimal := ⟨d.digits.rightpad size '0', d.point⟩

/-- The reals that round to a number, as fourths of its unit: two on each side, one
below a power of two. The ends belong to it where the mantissa is even. -/
def readsBack (mantissa : Nat) (exponent : Int) (n : Nat) (place : Int) : Bool :=
  let below := if mantissa = Nat.pow 2 52 ∧ Binary64.leastExponent < exponent then 1 else 2
  let (num, den) := inUnits 10 (-place) n 1
  let (num, den) := inUnits 2 exponent (4 * num) den
  if mantissa % 2 = 0 then
    (4 * mantissa - below) * den ≤ num && num ≤ (4 * mantissa + 2) * den
  else
    (4 * mantissa - below) * den < num && num < (4 * mantissa + 2) * den

/-- The numeral of `size` digits nearest to a number, if it reads back; of the two
beside it the other one, if only that one does. -/
def numeralOf (mantissa : Nat) (exponent : Int) (size : Nat) : Option (Nat × Int) :=
  let (num, den) := Binary64.ratio mantissa exponent
  let place := leadingPlace num den - size + 1
  let (n, d) := inUnits 10 place num den
  let reads (k : Nat) := readsBack mantissa exponent k place
  let near := roundDiv n d
  let other := if near = n / d then n / d + 1 else n / d
  if reads near then some (near, place)
  else if reads other then some (other, place)
  else none

/-- The fewest digits that read back as the number, and of those the nearest to it. -/
def shortest (mantissa : Nat) (exponent : Int) : Decimal :=
  if mantissa = 0 then ⟨['0'], 1⟩
  else
    match (List.range 17).findSome? fun i => numeralOf mantissa exponent (i + 1) with
    | some (n, place) => (ofNumeral 1 n place).trimZeros
    | none => ⟨[], 0⟩

/-- The number rounded to `places` digits after the point. One of exponent `-k` has no more than
`k` of them, and zeros follow. -/
def fixed (places mantissa : Nat) (exponent : Int) : Decimal :=
  let (num, den) := Binary64.ratio mantissa exponent
  let kept := min places (-exponent).toNat
  let d := ofNumeral (kept + 1) (roundDiv (num * Nat.pow 10 kept) den) (-kept)
  d.padZeros (d.digits.length + (places - kept))

/-- The number rounded to `size` digits, without zeros past the last place that it has. -/
def significant (size mantissa : Nat) (exponent : Int) : Decimal :=
  if mantissa = 0 then ⟨['0'], 1⟩
  else
    let (num, den) := Binary64.ratio mantissa exponent
    let leading := leadingPlace num den
    let place := max (leading - size + 1) (min exponent 0)
    let kept := (leading - place + 1).toNat
    let (n, d) := inUnits 10 place num den
    let rounded := roundDiv n d
    if rounded = Nat.pow 10 kept then ofNumeral kept (Nat.pow 10 (kept - 1)) (place + 1)
    else ofNumeral kept rounded place

/-- The digits before the point, at least one, and those after it. -/
def split (d : Decimal) : List Char × List Char :=
  let whole := d.point.toNat
  let digits := List.replicate (-d.point).toNat '0' ++ d.digits
  let before := (digits.take whole).rightpad whole '0'
  (if before.isEmpty then ['0'] else before, digits.drop whole)

/-- How a fraction is set off: where it is empty, nothing, a bare point, or a point and a zero. -/
inductive Fraction
  | bare
  | point
  | pointZero
  deriving DecidableEq, Repr

def Fraction.attach (style : Fraction) (whole fraction : List Char) : List Char :=
  match fraction, style with
  | [], .bare => whole
  | [], .point => whole ++ ['.']
  | [], .pointZero => whole ++ ['.', '0']
  | fraction, _ => whole ++ '.' :: fraction

def positional (style : Fraction) (d : Decimal) : List Char :=
  let (whole, fraction) := d.split
  style.attach whole fraction

/-- A sign and at least two digits. -/
def exponentText (e : Int) : List Char :=
  (if e < 0 then '-' else '+') :: (Nat.toDigits 10 e.natAbs).leftpad 2 '0'

def scientific (style : Fraction) (d : Decimal) : List Char :=
  style.attach (d.digits.take 1) (d.digits.drop 1) ++ 'e' :: exponentText (d.point - 1)

/-- Positional between `10 ^ -4` and `10 ^ 16`, and scientific outside. -/
def plain (d : Decimal) : List Char :=
  if -4 < d.point ∧ d.point ≤ 16 then d.positional .pointZero else d.scientific .bare

end Decimal

namespace Binary64

/-- The text that reads back: `0.1`, `1e+16`, `-0.0`, `inf`, `nan`. -/
def text (x : Binary64) : String :=
  String.ofList <| match x with
    | .nan => "nan".toList
    | .infinite negative => (if negative then ['-'] else []) ++ "inf".toList
    | .finite negative mantissa exponent =>
      (if negative then ['-'] else []) ++ (Decimal.shortest mantissa exponent).plain

end Binary64

end ScriptLauncher
