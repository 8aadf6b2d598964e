import ScriptLauncher.CommandLine.Word
import ScriptLauncher.Build

/-! The settings that a command line makes. Options are read up to the first word that
is none; this one names the script, and all that follow it are the script's own. -/

namespace ScriptLauncher.CommandLine

/-- What an option holds. The separator is no value: an option that is given it holds an
empty list. -/
inductive Held
  | text (s : String)
  | nothing
  deriving DecidableEq, Repr

namespace Held

def ofValue (s : String) : Held := if s = "--" then .nothing else .text s

def display : Held → String
  | .text s => s
  | .nothing => "[]"

/-- The text, if there is one to speak of. -/
def nonempty? : Held → Option String
  | .text s => if s = "" then none else some s
  | .nothing => none

end Held

structure Settings where
  showSource : Bool
  noClean : Bool
  dryRun : Bool
  noHelper : Bool
  verbose : Bool
  source : Held
  compiler : Held
  helperPackage : Held
  script : Option String
  args : List String
  deriving DecidableEq, Repr

inductive Verdict
  | accepted (s : Settings)
  | help
  | refused (e : UsageError)
  deriving DecidableEq, Repr

namespace Settings

def initial : Settings where
  showSource := false
  noClean := false
  dryRun := false
  noHelper := false
  verbose := false
  source := .text ""
  compiler := .text Build.defaultCompiler
  helperPackage := .text Scaffold.helperImport.package
  script := none
  args := []

/-- Turns an option on that takes no value; asking for help changes no setting. -/
def turnOn (s : Settings) : Opt → Settings
  | .showSource => { s with showSource := true }
  | .noClean => { s with noClean := true }
  | .dryRun => { s with dryRun := true }
  | .noHelper => { s with noHelper := true }
  | .verbose => { s with verbose := true }
  | _ => s

def hold (s : Settings) (h : Held) : Opt → Settings
  | .source => { s with source := h }
  | .compiler => { s with compiler := h }
  | .helperPackage => { s with helperPackage := h }
  | _ => s

end Settings

def letters (o : Opt) : List Char → Except UsageError (List Opt)
  | [] => .ok [o]
  | c :: rest =>
    match Opt.letter? c with
    | some p => (o :: ·) <$> letters p rest
    | none => .error (.valueIgnored o (String.ofList (c :: rest)))

/-- Gives the script its name and its arguments. A separator before the name, or right
behind it, is dropped. -/
def Settings.withPositionals (s : Settings) : List (String × Word) → Settings
  | [] => s
  | (_, .separator) :: [] => s
  | (_, .separator) :: (script, _) :: rest => { s with script, args := rest.map (·.1) }
  | (script, _) :: (_, .separator) :: rest => { s with script, args := rest.map (·.1) }
  | (script, _) :: rest => { s with script, args := rest.map (·.1) }

def Settings.verdict (s : Settings) (unknown : List String) : Verdict :=
  if unknown.isEmpty then .accepted s else .refused (.unrecognized unknown)

/-- Reads options, gathering the unknown ones, and then the script and its arguments. -/
def readWords (s : Settings) (unknown : List String) : List (String × Word) → Verdict
  | [] => s.verdict unknown
  | (text, .unknown) :: rest => readWords s (unknown ++ [text]) rest
  | (_, .letter o none) :: rest | (_, .long o none) :: rest =>
    if o.takesValue then
      match rest with
      | (value, .argument) :: rest => readWords (s.hold (.text value) o) unknown rest
      | _ => .refused (.valueMissing o)
    else if o = .help then .help
    else readWords (s.turnOn o) unknown rest
  | (_, .letter o (some value)) :: rest =>
    if o.takesValue then readWords (s.hold (.ofValue value) o) unknown rest
    else if value = "" then .refused (.valueIgnored o value)
    else match letters o value.toList with
      | .error e => .refused e
      | .ok os =>
        if os.contains .help then .help
        else readWords (os.foldl Settings.turnOn s) unknown rest
  | (_, .long o (some value)) :: rest =>
    if o.takesValue then readWords (s.hold (.ofValue value) o) unknown rest
    else .refused (.valueIgnored o value)
  | words => (s.withPositionals words).verdict unknown

/-- The verdict on a command line. Every word before the separator is understood first, so
an ambiguous one is refused wherever it stands. -/
def parse (argv : List String) : Verdict :=
  match Word.ofTexts argv with
  | .error e => .refused e
  | .ok words => readWords .initial [] words

end ScriptLauncher.CommandLine
