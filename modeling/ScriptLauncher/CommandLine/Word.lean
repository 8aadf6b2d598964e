import ScriptLauncher.Text.DecimalDigit
import ScriptLauncher.Text.Quoted

/-! The options of the command line and what a single word says: an option with or
without a value, an unknown option, the separator, or an argument. -/

namespace ScriptLauncher.CommandLine

inductive Opt
  | help
  | showSource
  | noClean
  | source
  | dryRun
  | compiler
  | helperPackage
  | noHelper
  | verbose
  deriving DecidableEq, Repr

namespace Opt

/-- All spellings, in the order in which messages list them. -/
def spellings : List (String × Opt) :=
  [("-h", .help), ("--help", .help), ("--showsource", .showSource), ("--noclean", .noClean),
    ("--src", .source), ("--dry-run", .dryRun), ("--compiler", .compiler),
    ("--helper-package", .helperPackage), ("--no-helper", .noHelper), ("-v", .verbose),
    ("--verbose", .verbose)]

def spelled? (s : String) : Option Opt := (spellings.find? (·.1 == s)).map (·.2)

def label (o : Opt) : String :=
  "/".intercalate ((spellings.filter (·.2 == o)).map (·.1))

def takesValue : Opt → Bool
  | .source | .compiler | .helperPackage => true
  | _ => false

def letter? (c : Char) : Option Opt := spelled? (String.ofList ['-', c])

end Opt

inductive UsageError
  | ambiguous (word : String) (candidates : List String)
  | valueMissing (o : Opt)
  | valueIgnored (o : Opt) (value : String)
  | unrecognized (words : List String)
  deriving DecidableEq, Repr

def UsageError.message : UsageError → String
  | .ambiguous word candidates =>
    "ambiguous option: " ++ word ++ " could match " ++ ", ".intercalate candidates
  | .valueMissing o => "argument " ++ o.label ++ ": expected one argument"
  | .valueIgnored o value =>
    "argument " ++ o.label ++ ": ignored explicit argument " ++ Text.quote value
  | .unrecognized words => "unrecognized arguments: " ++ " ".intercalate words

inductive Word
  | argument
  | separator
  | unknown
  /-- A letter may carry more letters in place of a value. -/
  | letter (o : Opt) (value : Option String)
  | long (o : Opt) (value : Option String)
  deriving DecidableEq, Repr

namespace Word

def isLong (spelling : String) : Bool := "--".toList.isPrefixOf spelling.toList

def ofSpelling (spelling : String) (o : Opt) (value : Option String) : Word :=
  if isLong spelling then .long o value else .letter o value

/-- A word's text up to the first equals sign, and the text after it. -/
def cutValue (s : List Char) : String × Option String :=
  (String.ofList (s.takeWhile (· != '=')),
    match s.dropWhile (· != '=') with
    | [] => none
    | _ :: value => some (String.ofList value))

/-- A minus sign and a decimal number, which a line feed may close. -/
def isNegativeNumber (s : List Char) : Bool :=
  match s with
  | '-' :: s =>
    let s := if s.getLast? == some '\n' then s.dropLast else s
    match s.dropWhile Text.isDecimalDigit with
    | [] => !s.isEmpty
    | '.' :: fraction => !fraction.isEmpty && fraction.all Text.isDecimalDigit
    | _ => false
  | _ => false

/-- The spellings that a word may stand for, with the value it then holds. -/
def candidates (s : List Char) : List (String × Opt × Option String) :=
  match s with
  | '-' :: '-' :: _ =>
    let (start, value) := cutValue s
    Opt.spellings.filterMap fun (spelling, o) =>
      if start.toList.isPrefixOf spelling.toList then some (spelling, o, value) else none
  | '-' :: c :: rest =>
    match Opt.letter? c with
    | some o => [(String.ofList ['-', c], o, some (String.ofList rest))]
    | none => []
  | _ => []

def ofText (text : String) : Except UsageError Word :=
  let s := text.toList
  let (start, value) := cutValue s
  if s.head? != some '-' then .ok .argument
  else if let some o := Opt.spelled? text then .ok (ofSpelling text o none)
  else if s.length = 1 then .ok .argument
  else if let (some o, some value) := (Opt.spelled? start, value) then
    .ok (ofSpelling start o (some value))
  else match candidates s with
    | [(spelling, o, value)] => .ok (ofSpelling spelling o value)
    | [] =>
      if isNegativeNumber s || s.contains ' ' then .ok .argument else .ok .unknown
    | several => .error (.ambiguous text (several.map (·.1)))

/-- What each of some words says; all behind the first separator are arguments. -/
def ofTexts : List String → Except UsageError (List (String × Word))
  | [] => .ok []
  | text :: rest =>
    if text = "--" then .ok ((text, .separator) :: rest.map (·, .argument))
    else do
      let word ← ofText text
      return (text, word) :: (← ofTexts rest)

end Word

end ScriptLauncher.CommandLine
