import ScriptLauncher.Text.Utf8
import ScriptLauncher.Value

/-! Templates: texts in which a percent sign begins a directive that is filled from
a list of arguments. A template is first read into pieces, which knows no
arguments; filling then goes through the pieces from left to right and stops at
the first one that cannot be filled. -/

namespace ScriptLauncher.Template

inductive FormatError
  | mappingRequired
  | widthTooBig
  | precisionTooBig
  | sizeNotInt
  | widthOverflow
  | precisionOverflow
  | incomplete
  | missingArgument
  | unusedArgument
  | unsupported (conversion : Char) (index : Nat)
  | integerRequired (conversion : Char) (kind : String)
  | numberRequired (conversion : Char) (kind : String)
  | realRequired (kind : String)
  | infinityToInteger
  | nanToInteger
  | integerTooLarge
  | digitsTooMany
  | characterRequired
  | characterRange
  | outOfMemory
  deriving DecidableEq, Repr

/-- What an error is about: a value of the wrong type or none at all, a wrong value, a number that is
too large, or memory. -/
inductive FormatError.Kind
  | type
  | value
  | overflow
  | memory
  deriving DecidableEq, Repr

def FormatError.kind : FormatError → FormatError.Kind
  | .mappingRequired | .sizeNotInt | .missingArgument | .unusedArgument | .integerRequired ..
  | .numberRequired .. | .realRequired _ | .characterRequired => .type
  | .widthTooBig | .precisionTooBig | .incomplete | .unsupported .. | .nanToInteger => .value
  | .widthOverflow | .precisionOverflow | .infinityToInteger | .integerTooLarge | .digitsTooMany
  | .characterRange => .overflow
  | .outOfMemory => .memory

def FormatError.message : FormatError → String
  | .mappingRequired => "format requires a mapping"
  | .widthTooBig => "width too big"
  | .precisionTooBig => "precision too big"
  | .sizeNotInt => "* wants int"
  | .widthOverflow => "Python int too large to convert to C ssize_t"
  | .precisionOverflow => "Python int too large to convert to C int"
  | .incomplete => "incomplete format"
  | .missingArgument => "not enough arguments for format string"
  | .unusedArgument => "not all arguments converted during string formatting"
  | .unsupported c index =>
    let shown := if 31 ≤ c.toNat && c.toNat ≤ 126 then c else '?'
    "unsupported format character '" ++ shown.toString ++ "' (0x"
      ++ String.ofList (Nat.toDigits 16 c.toNat) ++ ") at index " ++ toString index
  | .integerRequired c kind =>
    "%" ++ c.toString ++ " format: an integer is required, not " ++ kind
  | .numberRequired c kind =>
    "%" ++ c.toString ++ " format: a real number is required, not " ++ kind
  | .realRequired kind => "must be real number, not " ++ kind
  | .infinityToInteger => "cannot convert float infinity to integer"
  | .nanToInteger => "cannot convert float NaN to integer"
  | .integerTooLarge => "int too large to convert to float"
  | .digitsTooMany => "precision too large"
  | .characterRequired => "%c requires int or char"
  | .characterRange => "%c arg not in range(0x110000)"
  | .outOfMemory => ""

structure Flags where
  left : Bool
  plus : Bool
  blank : Bool
  alternate : Bool
  zero : Bool
  deriving DecidableEq, Repr

/-- A width or a precision: written out, or left to the next argument. -/
inductive Size
  | absent
  | given (n : Nat)
  | argument
  deriving DecidableEq, Repr

structure Directive where
  flags : Flags
  width : Size
  precision : Size
  /-- The conversion and its place in the template; none where the template ends before it. -/
  conversion : Option (Char × Nat)
  deriving DecidableEq, Repr

inductive Piece
  | plain (c : Char)
  | mapping
  | directive (d : Directive)
  deriving DecidableEq, Repr

def isFlag (c : Char) : Bool := c == '-' || c == '+' || c == ' ' || c == '#' || c == '0'

def isLength (c : Char) : Bool := c == 'h' || c == 'l' || c == 'L'

def Flags.ofChars (s : List Char) : Flags :=
  ⟨s.contains '-', s.contains '+', s.contains ' ', s.contains '#', s.contains '0'⟩

def readSize (s : List Char) : Size × List Char :=
  match s with
  | '*' :: s => (.argument, s)
  | s =>
    let digits := s.takeWhile Char.isDigit
    (if digits.isEmpty then .absent else .given (Nat.ofDigitChars 10 digits 0),
      s.dropWhile Char.isDigit)

/-- A point and the size after it, which is zero if there is none. -/
def readPrecision (s : List Char) : Size × List Char :=
  match s with
  | '.' :: s => match readSize s with
    | (.absent, s) => (.given 0, s)
    | sized => sized
  | s => (.absent, s)

def dropLength (s : List Char) : List Char :=
  match s with
  | c :: s => if isLength c then s else c :: s
  | [] => []

/-- The directive after a percent sign, where the whole template has `size`
characters, and what follows it. -/
def readDirective (size : Nat) (s : List Char) : Piece × List Char :=
  match s with
  | '(' :: s => (.mapping, s)
  | s =>
    let flags := Flags.ofChars (s.takeWhile isFlag)
    let (width, s) := readSize (s.dropWhile isFlag)
    let (precision, s) := readPrecision s
    match dropLength s with
    | [] => (.directive ⟨flags, width, precision, none⟩, [])
    | c :: s => (.directive ⟨flags, width, precision, some (c, size - s.length - 1)⟩, s)

theorem length_dropWhile_le (p : Char → Bool) (s : List Char) :
    (s.dropWhile p).length ≤ s.length :=
  (List.dropWhile_sublist p).length_le

theorem length_readSize (s : List Char) : (readSize s).2.length ≤ s.length := by
  unfold readSize
  split
  · simp
  · exact length_dropWhile_le ..

theorem length_readPrecision (s : List Char) : (readPrecision s).2.length ≤ s.length := by
  unfold readPrecision
  split
  · next s =>
    have h := length_readSize s
    split <;> simp_all <;> omega
  · simp

theorem length_dropLength (s : List Char) : (dropLength s).length ≤ s.length := by
  unfold dropLength
  split
  · split <;> simp
  · simp

theorem length_readDirective (size : Nat) (s : List Char) :
    (readDirective size s).2.length ≤ s.length := by
  unfold readDirective
  split
  · simp
  · have h₁ := length_dropWhile_le isFlag s
    have h₂ := length_readSize (s.dropWhile isFlag)
    have h₃ := length_readPrecision (readSize (s.dropWhile isFlag)).2
    have h₄ := length_dropLength (readPrecision (readSize (s.dropWhile isFlag)).2).2
    dsimp only
    split
    · simp
    · next e => rw [e, List.length_cons] at h₄; dsimp only; omega

/-- The pieces of a template of `size` characters, from some place on. -/
def piecesOf (size : Nat) (s : List Char) : List Piece :=
  match s with
  | [] => []
  | '%' :: '%' :: s => .plain '%' :: piecesOf size s
  | '%' :: s => (readDirective size s).1 :: piecesOf size (readDirective size s).2
  | c :: s => .plain c :: piecesOf size s
  termination_by s.length
  decreasing_by
    · simp only [List.length_cons]; omega
    · have h := length_readDirective size s; simp only [List.length_cons]; omega
    · simp

def pieces (s : List Char) : List Piece := piecesOf s.length s

abbrev Filled := Except FormatError

def nextArgument : List Value → Filled (Value × List Value)
  | [] => .error .missingArgument
  | v :: vs => .ok (v, vs)

/-- The greatest width and number of digits; asking for more finds no memory. -/
def greatestLength : Nat := Nat.pow 2 28

def greatestWidth : Nat := Nat.pow 2 63 - 1
def greatestPrecision : Nat := Nat.pow 2 31 - 1

def integer? : Value → Option Int
  | .int n => some n
  | .bool b => some (if b then 1 else 0)
  | _ => none

/-- A width and whether it asks for the left, and the arguments left over. -/
def fillWidth (left : Bool) : Size → List Value → Filled ((Bool × Nat) × List Value)
  | .absent, vs => .ok ((left, 0), vs)
  | .given n, vs => if greatestWidth < n then .error .widthTooBig else .ok ((left, n), vs)
  | .argument, vs => do
    let (v, vs) ← nextArgument vs
    match integer? v with
    | none => .error .sizeNotInt
    | some n =>
      if n < -(greatestWidth + 1 : Int) ∨ (greatestWidth : Int) < n then .error .widthOverflow
      else .ok ((left || n < 0, n.natAbs), vs)

def fillPrecision : Size → List Value → Filled (Option Nat × List Value)
  | .absent, vs => .ok (none, vs)
  | .given n, vs => if greatestPrecision < n then .error .precisionTooBig else .ok (some n, vs)
  | .argument, vs => do
    let (v, vs) ← nextArgument vs
    match integer? v with
    | none => .error .sizeNotInt
    | some n =>
      if n < -(greatestPrecision + 1 : Int) ∨ (greatestPrecision : Int) < n then
        .error .precisionOverflow
      else .ok (some n.toNat, vs)

/-- How a filled directive is set: its flags, and its width and precision as numbers. -/
structure Setting where
  flags : Flags
  width : Nat
  precision : Option Nat
  deriving DecidableEq, Repr

def Setting.place (f : Setting) (s : List Char) : List Char :=
  if f.flags.left then s.rightpad f.width ' ' else s.leftpad f.width ' '

def Setting.sign (f : Setting) (negative : Bool) : List Char :=
  if negative then ['-']
  else if f.flags.plus then ['+']
  else if f.flags.blank then [' ']
  else []

/-- A number set in its width: zeros stand between the sign and the digits. -/
def Setting.placeNumber (f : Setting) (sign digits : List Char) : List Char :=
  if f.flags.zero && !f.flags.left then sign ++ digits.leftpad (f.width - sign.length) '0'
  else f.place (sign ++ digits)

def Setting.placeText (f : Setting) (s : List Char) : List Char :=
  f.place (match f.precision with
    | none => s
    | some n => s.take n)

/-- The whole number that a decimal conversion takes from a value. -/
def wholeNumber (conversion : Char) (v : Value) : Filled Int :=
  match v with
  | .float .nan => .error .nanToInteger
  | .float (.infinite _) => .error .infinityToInteger
  | .float (.finite negative mantissa exponent) =>
    .ok (Binary64.truncate negative mantissa exponent)
  | v => match integer? v with
    | some n => .ok n
    | none => .error (.numberRequired conversion v.kindName)

def exactInteger (conversion : Char) (v : Value) : Filled Int :=
  match integer? v with
  | some n => .ok n
  | none => .error (.integerRequired conversion v.kindName)

def Setting.integer (f : Setting) (base : Nat) (marker : List Char) (upper : Bool) (n : Int) :
    Filled (List Char) :=
  if greatestPrecision - 3 < f.precision.getD 0 then .error .digitsTooMany
  else if greatestLength < f.precision.getD 0 then .error .outOfMemory
  else
    let digits := (Nat.toDigits base n.natAbs).leftpad (f.precision.getD 0) '0'
    let digits := if upper then digits.map Char.toUpper else digits
    .ok (f.placeNumber (f.sign (n < 0) ++ if f.flags.alternate then marker else []) digits)

def realNumber (v : Value) : Filled Binary64 :=
  match v with
  | .float x => .ok x
  | v => match integer? v with
    | some n => match Binary64.ofInt n with
      | .infinite _ => .error .integerTooLarge
      | x => .ok x
    | none => .error (.realRequired v.kindName)

/-- The number of digits in scientific notation, one before the point. The count is past its
greatest value where the precision is at its own; a single digit is shown then. -/
def scientificSize (precision : Nat) : Nat :=
  if precision = greatestPrecision then 1 else precision + 1

/-- The number of digits that are shown whether the number has them or not. -/
def requiredDigits (conversion : Char) (alternate : Bool) (precision : Nat) : Nat :=
  match conversion with
  | 'f' => precision
  | 'e' => scientificSize precision
  | _ => if alternate then precision else 0

/-- The digits of a finite magnitude: fixed places, one digit before the point, or
whichever of the two keeps the text short. -/
def magnitude (conversion : Char) (alternate : Bool) (precision mantissa : Nat) (exponent : Int) :
    List Char :=
  let style := if alternate then Decimal.Fraction.point else .bare
  match conversion with
  | 'f' => (Decimal.fixed precision mantissa exponent).positional style
  | 'e' =>
    let size := scientificSize precision
    ((Decimal.significant size mantissa exponent).padZeros size).scientific style
  | _ =>
    let size := max precision 1
    let d := Decimal.significant size mantissa exponent
    let shown := if alternate then d.padZeros size else d.trimZeros
    if -4 < d.point ∧ d.point ≤ size then shown.positional style
    else shown.scientific style

def Setting.real (f : Setting) (conversion : Char) (x : Binary64) : Filled (List Char) := do
  let digits ← match x with
    | .nan => .ok "nan".toList
    | .infinite _ => .ok "inf".toList
    | .finite _ mantissa exponent =>
      let precision := f.precision.getD 6
      if greatestLength < requiredDigits conversion.toLower f.flags.alternate precision then
        .error .outOfMemory
      else .ok (magnitude conversion.toLower f.flags.alternate precision mantissa exponent)
  return f.placeNumber (f.sign x.isNegative)
    (if conversion.isUpper then digits.map Char.toUpper else digits)

/-- The character of a number. A surrogate is none, and is shown by the mark for what cannot be
read. -/
def characterAt (n : Nat) : Char := if n.isValidChar then Char.ofNat n else Utf8.mark

def character (v : Value) : Filled Char :=
  match v with
  | .text s => match s.toList with
    | [c] => .ok c
    | _ => .error .characterRequired
  | v => match integer? v with
    | none => .error .characterRequired
    | some n => if n < 0 ∨ 0x110000 ≤ n then .error .characterRange else .ok (characterAt n.toNat)

def convert (f : Setting) (conversion : Char) (index : Nat) (v : Value) : Filled (List Char) :=
  match conversion with
  | 's' => .ok (f.placeText v.display.toList)
  | 'r' => .ok (f.placeText v.literal.toList)
  | 'a' => .ok (f.placeText (Text.asciiOnly v.literal).toList)
  | 'd' | 'i' | 'u' => do f.integer 10 [] false (← wholeNumber conversion v)
  | 'o' => do f.integer 8 ['0', 'o'] false (← exactInteger conversion v)
  | 'x' => do f.integer 16 ['0', 'x'] false (← exactInteger conversion v)
  | 'X' => do f.integer 16 ['0', 'X'] true (← exactInteger conversion v)
  | 'e' | 'E' | 'f' | 'F' | 'g' | 'G' => do f.real conversion (← realNumber v)
  | 'c' => do return f.place [← character v]
  | c => .error (.unsupported c index)

def fillDirective (d : Directive) (vs : List Value) : Filled (List Char × List Value) := do
  let ((left, width), vs) ← fillWidth d.flags.left d.width vs
  let (precision, vs) ← fillPrecision d.precision vs
  match d.conversion with
  | none => .error .incomplete
  | some (conversion, index) =>
    let (v, vs) ← nextArgument vs
    let narrow := width ≤ greatestLength
    let flags := { d.flags with left }
    let s ← convert ⟨flags, if narrow then width else 0, precision⟩ conversion index v
    if narrow then .ok (s, vs) else .error .outOfMemory

def fillPiece (p : Piece) (vs : List Value) : Filled (List Char × List Value) :=
  match p with
  | .plain c => .ok ([c], vs)
  | .mapping => .error .mappingRequired
  | .directive d => fillDirective d vs

/-- Fills the pieces with the arguments, all of which have to be used. -/
def fill : List Piece → List Value → Filled (List Char)
  | [], [] => .ok []
  | [], _ :: _ => .error .unusedArgument
  | p :: ps, vs => do
    let (s, vs) ← fillPiece p vs
    return s ++ (← fill ps vs)

def format (template : String) (args : List Value) : Filled String :=
  String.ofList <$> fill (pieces template.toList) args

/-- A value as a word: its display, which is a template if there are arguments. -/
def render (v : Value) (args : List Value) : Filled String :=
  if args.isEmpty then .ok v.display else format v.display args

end ScriptLauncher.Template
