import ScriptLauncher.Number.Rounding

/-! Binary floating-point numbers of 64 bits: a mantissa below `2 ^ 53` times a
power of two, the infinities, and one value that is no number. -/

namespace ScriptLauncher

/-- A finite number is `mantissa * 2 ^ exponent`, with the least exponent that
the mantissa has room for; the two zeros differ in their sign. -/
inductive Binary64
  | nan
  | infinite (negative : Bool)
  | finite (negative : Bool) (mantissa : Nat) (exponent : Int)
  deriving DecidableEq, Repr

namespace Binary64

open Number

def mantissaBits : Nat := 53
def leastExponent : Int := -1074
def greatestExponent : Int := 971

def zero (negative : Bool) : Binary64 := .finite negative 0 leastExponent

/-- The number nearest to a quotient; past the greatest one, infinity. -/
def ofRatio (negative : Bool) (num den : Nat) : Binary64 :=
  if num = 0 then zero negative
  else
    let guess := max ((num.log2 : Int) - den.log2 - mantissaBits) leastExponent
    let (n, d) := inUnits 2 guess num den
    let exponent := if n / d < Nat.pow 2 mantissaBits then guess else guess + 1
    let (n, d) := inUnits 2 exponent num den
    let rounded := roundDiv n d
    let (mantissa, exponent) :=
      if rounded = Nat.pow 2 mantissaBits then (Nat.pow 2 (mantissaBits - 1), exponent + 1)
      else (rounded, exponent)
    if exponent ≤ greatestExponent then .finite negative mantissa exponent
    else .infinite negative

def ofInt (n : Int) : Binary64 := ofRatio (n < 0) n.natAbs 1

/-- The number nearest to `digits * 10 ^ place`. Outside `10 ^ ±400` the answer is known. -/
def ofDecimal (negative : Bool) (digits : Nat) (place : Int) : Binary64 :=
  let reach := ((Nat.toDigits 10 digits).length : Int) + place
  if digits = 0 ∨ reach < -400 then zero negative
  else if 400 < reach then .infinite negative
  else
    let (n, d) := inUnits 10 (-place) digits 1
    ofRatio negative n d

def isNegative : Binary64 → Bool
  | .nan => false
  | .infinite negative => negative
  | .finite negative .. => negative

/-- The magnitude of a finite number as a quotient. -/
def ratio (mantissa : Nat) (exponent : Int) : Nat × Nat :=
  inUnits 2 (-exponent) mantissa 1

/-- The whole part of a finite number. -/
def truncate (negative : Bool) (mantissa : Nat) (exponent : Int) : Int :=
  let (n, d) := ratio mantissa exponent
  if negative then -((n / d : Nat) : Int) else ((n / d : Nat) : Int)

/-- The whole number that a value is, if it is one. -/
def toInt? : Binary64 → Option Int
  | .finite negative mantissa exponent =>
    let (n, d) := ratio mantissa exponent
    if n % d = 0 then some (truncate negative mantissa exponent) else none
  | _ => none

/-- Equality of numbers: the zeros are equal, and what is no number equals nothing. -/
def same : Binary64 → Binary64 → Bool
  | .nan, _ => false
  | .finite _ 0 _, .finite _ 0 _ => true
  | x, y => x == y

def digits? (s : List Char) : Option Nat :=
  if s.isEmpty || !s.all Char.isDigit then none else some (Nat.ofDigitChars 10 s 0)

/-- A whole exponent: an optional sign, then digits. -/
def readExponent : List Char → Option Int
  | '-' :: s => (digits? s).map fun n => -(n : Int)
  | '+' :: s => (digits? s).map fun n => (n : Int)
  | s => (digits? s).map fun n => (n : Int)

/-- No number, and no midpoint between two, has more than 768 digits; those past the 800th only
tell whether anything is left. -/
def clip (digits : List Char) : List Char × Nat :=
  let digits := digits.dropWhile (· = '0')
  let rest := digits.drop 800
  if rest.isEmpty then (digits, 0)
  else (digits.take 800 ++ [if rest.all (· = '0') then '0' else '1'], rest.length - 1)

/-- Digits with an optional point among them, then an optional exponent. -/
def readMagnitude (negative : Bool) (s : List Char) : Option Binary64 :=
  let whole := s.takeWhile Char.isDigit
  let s := s.dropWhile Char.isDigit
  let (fraction, s) := match s with
    | '.' :: s => (s.takeWhile Char.isDigit, s.dropWhile Char.isDigit)
    | s => ([], s)
  if whole.isEmpty && fraction.isEmpty then none
  else
    let (digits, clipped) := clip (whole ++ fraction)
    let result (e : Int) :=
      ofDecimal negative (Nat.ofDigitChars 10 digits 0) (e - fraction.length + clipped)
    match s with
    | [] => some (result 0)
    | c :: s => if c = 'e' ∨ c = 'E' then (readExponent s).map result else none

def readUnsigned (negative : Bool) (s : List Char) : Option Binary64 :=
  let name := String.ofList (s.map Char.toLower)
  if name = "inf" ∨ name = "infinity" then some (.infinite negative)
  else if name = "nan" then some .nan
  else readMagnitude negative s

/-- A text without its underscores, each of which stands between two digits. -/
def ungroup (before : Char) : List Char → Option (List Char)
  | [] => some []
  | '_' :: c :: s => if before.isDigit && c.isDigit then (c :: ·) <$> ungroup c s else none
  | c :: s => if c = '_' then none else (c :: ·) <$> ungroup c s

def isBlank (c : Char) : Bool := c == ' ' || ('\t' ≤ c && c ≤ '\r')

/-- Reads decimal notation, or the name of an infinity or of the value that is no number. Blanks
may stand around it. -/
def ofText? (s : String) : Option Binary64 := do
  let s := ((s.toList.dropWhile isBlank).reverse.dropWhile isBlank).reverse
  match ← ungroup ' ' s with
  | '-' :: s => readUnsigned true s
  | '+' :: s => readUnsigned false s
  | s => readUnsigned false s

end Binary64

end ScriptLauncher
