/-! Words of a command line as a POSIX shell reads them: quoted where the shell
would not take the characters as they are, and joined by single spaces. -/

namespace ScriptLauncher.ShellWords

/-- Characters that a shell never treats specially. -/
def isPlain (c : Char) : Bool := c.isAlphanum || "_@%+=:,./-".toList.contains c

/-- The text between single quotes, where a single quote itself is left to double quotes. -/
def protect (s : List Char) : List Char :=
  s.flatMap fun c => if c = '\'' then ['\'', '"', '\'', '"', '\''] else [c]

def quoteChars (s : List Char) : List Char :=
  if s.isEmpty || !s.all isPlain then '\'' :: protect s ++ ['\''] else s

def quote (word : String) : String := String.ofList (quoteChars word.toList)

def join (words : List String) : String := " ".intercalate (words.map quote)

@[simp] theorem protect_nil : protect [] = [] := rfl

@[simp] theorem protect_append (s t : List Char) : protect (s ++ t) = protect s ++ protect t := by
  simp [protect]

end ScriptLauncher.ShellWords
