import ScriptLauncher.Text.Bytes

/-! UTF-8: writing characters as bytes, and reading bytes with one replacement
mark for every maximal run that begins a character and cannot go on. -/

namespace ScriptLauncher.Utf8

def encodeChar (c : Char) : Bytes :=
  let n := c.toNat
  if n < 0x80 then [UInt8.ofNat n]
  else if n < 0x800 then [UInt8.ofNat (0xC0 + n / 64), UInt8.ofNat (0x80 + n % 64)]
  else if n < 0x10000 then
    [UInt8.ofNat (0xE0 + n / 4096), UInt8.ofNat (0x80 + n / 64 % 64), UInt8.ofNat (0x80 + n % 64)]
  else
    [UInt8.ofNat (0xF0 + n / 262144), UInt8.ofNat (0x80 + n / 4096 % 64),
      UInt8.ofNat (0x80 + n / 64 % 64), UInt8.ofNat (0x80 + n % 64)]

def encodeChars (s : List Char) : Bytes := s.flatMap encodeChar

def encode (s : String) : Bytes := encodeChars s.toList

@[simp] theorem encodeChars_nil : encodeChars [] = [] := rfl

@[simp] theorem encodeChars_cons (c : Char) (s : List Char) :
    encodeChars (c :: s) = encodeChar c ++ encodeChars s := by
  simp [encodeChars]

@[simp] theorem encodeChars_append (s t : List Char) :
    encodeChars (s ++ t) = encodeChars s ++ encodeChars t := by
  simp [encodeChars]

theorem encodeChar_ascii {c : Char} (h : c.toNat < 0x80) :
    encodeChar c = [UInt8.ofNat c.toNat] := by
  simp [encodeChar, h]

theorem encodeChar_ne_nil (c : Char) : encodeChar c ≠ [] := by
  unfold encodeChar
  dsimp only
  repeat' split
  all_goals simp

/-- Where reading stands: between characters, or inside one with `left` bytes
still owed, the next of them from `low` to `high`, and `bits` read so far. -/
inductive Pending
  | none
  | inside (left low high bits : Nat)
  deriving DecidableEq, Repr

inductive Step
  | char : Char → Step
  | more : Pending → Step
  | refuse : Step

/-- The first byte of a character. -/
def start (b : Nat) : Step :=
  if b < 0x80 then .char (Char.ofNat b)
  else if b < 0xC2 then .refuse
  else if b < 0xE0 then .more (.inside 1 0x80 0xBF (b - 0xC0))
  else if b = 0xE0 then .more (.inside 2 0xA0 0xBF 0)
  else if b = 0xED then .more (.inside 2 0x80 0x9F 13)
  else if b < 0xF0 then .more (.inside 2 0x80 0xBF (b - 0xE0))
  else if b = 0xF0 then .more (.inside 3 0x90 0xBF 0)
  else if b < 0xF4 then .more (.inside 3 0x80 0xBF (b - 0xF0))
  else if b = 0xF4 then .more (.inside 3 0x80 0x8F 4)
  else .refuse

def step : Pending → Nat → Step
  | .none, b => start b
  | .inside left low high bits, b =>
    if low ≤ b ∧ b ≤ high then
      let bits := bits * 64 + (b - 0x80)
      if left ≤ 1 then .char (Char.ofNat bits)
      else .more (.inside (left - 1) 0x80 0xBF bits)
    else .refuse

def mark : Char := '\uFFFD'

/-- What a byte yields where a character may begin. -/
def afresh (b : Nat) : List Char × Pending :=
  match start b with
  | .char c => ([c], .none)
  | .more p => ([], p)
  | .refuse => ([mark], .none)

/-- What a byte yields: a refused byte ends the character before it and begins anew. -/
def next (p : Pending) (b : Nat) : List Char × Pending :=
  match p with
  | .none => afresh b
  | p => match step p b with
    | .char c => ([c], .none)
    | .more q => ([], q)
    | .refuse => let (cs, q) := afresh b; (mark :: cs, q)

def decodeFrom : Pending → Bytes → List Char
  | .none, [] => []
  | .inside .., [] => [mark]
  | p, b :: s => let (cs, q) := next p b.toNat; cs ++ decodeFrom q s

def decodeChars (s : Bytes) : List Char := decodeFrom .none s

def decode (s : Bytes) : String := String.ofList (decodeChars s)

end ScriptLauncher.Utf8
