import ScriptLauncher.Text.Bytes
import ScriptLauncher.Text.Printable

/-! Quoted literals: a text between two equal marks, with everything that is not
shown as it is written as an escape. -/

namespace ScriptLauncher.Text

/-- Lower-case hexadecimal digits, with zeros in front up to a width. -/
def hex (width n : Nat) : List Char := (Nat.toDigits 16 n).leftpad width '0'

/-- The shortest numeric escape that has room for the character. -/
def codeEscape (c : Char) : List Char :=
  let n := c.toNat
  if n < 0x100 then '\\' :: 'x' :: hex 2 n
  else if n < 0x10000 then '\\' :: 'u' :: hex 4 n
  else '\\' :: 'U' :: hex 8 n

def escape (shown : Char → Bool) (mark c : Char) : List Char :=
  if c = mark ∨ c = '\\' then ['\\', c]
  else if c = '\n' then ['\\', 'n']
  else if c = '\r' then ['\\', 'r']
  else if c = '\t' then ['\\', 't']
  else if shown c then [c]
  else codeEscape c

/-- The double quote where the text holds single quotes and no double ones. -/
def quoteMark (s : List Char) : Char :=
  if s.contains '\'' && !s.contains '"' then '"' else '\''

def quoteChars (shown : Char → Bool) (s : List Char) : List Char :=
  let mark := quoteMark s
  mark :: s.flatMap (escape shown mark) ++ [mark]

def quote (s : String) : String := String.ofList (quoteChars isPrintable s.toList)

/-- Bytes are shown as the characters of their numbers where these are printable ASCII. -/
def quoteBytes (s : Bytes) : String :=
  String.ofList ('b' :: quoteChars (fun c => c.toNat < 0x80 && isPrintable c)
    (s.map fun b => Char.ofNat b.toNat))

/-- A text with every character from 128 on as its numeric escape. -/
def asciiOnly (s : String) : String :=
  String.ofList (s.toList.flatMap fun c => if c.toNat < 0x80 then [c] else codeEscape c)

/-- Quoted texts in brackets, with commas between. -/
def quoteList (words : List String) : String :=
  "[" ++ ", ".intercalate (words.map quote) ++ "]"

/-- Quoted texts in parentheses; a single one is followed by a comma. -/
def quoteTuple : List String → String
  | [word] => "(" ++ quote word ++ ",)"
  | words => "(" ++ ", ".intercalate (words.map quote) ++ ")"

end ScriptLauncher.Text
