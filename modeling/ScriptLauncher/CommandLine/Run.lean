import ScriptLauncher.CommandLine.Help
import ScriptLauncher.CommandLine.Settings

/-! Running a command line: its verdict, the script that it names, and the status that
tells how all went. -/

namespace ScriptLauncher.CommandLine

open Host Build Session Command

def failureStatus : Int := 255
def usageStatus : Int := 2

/-- The name of a script that comes from no file. -/
def inlineName : String := "noname"

structure Streams where
  output : Channel
  errors : Channel
  deriving DecidableEq, Repr

/-- The words for the script: where its text came from the option, the word in the place
of its name is one of them. -/
def scriptArgs (s : Settings) : List String :=
  match s.source.nonempty?, s.script with
  | some _, some script => script :: s.args
  | _, _ => s.args

def buildOptions (s : Settings) : Options where
  showSource := s.showSource
  noClean := s.noClean
  compiler := s.compiler.display
  imports := Scaffold.importsWith s.helperPackage.display s.noHelper
  directory := none

def sayFailure (c : Channel) (message : String) : StateM World Unit :=
  say c ("Failed: " ++ message ++ "\n")

/-- What a run has besides its words: which of their characters stand for bytes, and what reading
standard input comes to. -/
structure Intake where
  escapes : Text.Escapes
  input : Except Fault Bytes

namespace Intake

/-- All words are texts, and standard input can be read. -/
def plain (input : Bytes) : Intake := ⟨.empty, .ok input⟩

variable (i : Intake)

def encode (s : String) : Except Fault Bytes := (i.escapes.encode s).mapError .unencodable

/-- The script's text and path: from the option, from the file that is named, or from
standard input. -/
def readScript (s : Settings) : Session Fault (Bytes × Path) := do
  match s.source.nonempty?, s.script with
  | some text, _ => return (← ask fun _ => i.encode text, .ofText inlineName)
  | none, none => return (← ask fun _ => i.input, .ofText inlineName)
  | none, some script =>
    let p := Path.ofText script
    if ← ask (·.isFile p) then return (← ask (·.read p), p)
    else throw (.unnumbered ("script not found: " ++ p.text))

/-- The first import that has no encoding stands in the way of a program. -/
def encodeImports : List Scaffold.Import → Except Fault Unit
  | [] => .ok ()
  | imported :: rest => match i.encode (Scaffold.importText imported) with
    | .ok _ => encodeImports rest
    | .error f => .error f

/-- Builds and runs a script. Where its imports have no encoding, it is read, and that is all. -/
def build (s : Settings) (streams : Streams) (source : Bytes) (script : Path) :
    Session Stop Result := do
  match i.encodeImports (buildOptions s).imports with
  | .ok () =>
    buildAndRun ⟨s.dryRun, streams.errors⟩ (buildOptions s) (.channel streams.output) source script
      (scriptArgs s)
  | .error f =>
    let _ ← Script.readNoted source
    throw (.fault f)

/-- Builds and runs a script that was read, and tells how that ended. -/
def runScript (s : Settings) (streams : Streams) (source : Bytes) (script : Path) :
    Session Stop Int := do
  match ← attempt (i.build s streams source script) with
  | .ok _ => return 0
  | .error stop =>
    match stop.message? with
    | some message =>
      sayFailure streams.errors message
      return failureStatus
    | none => throw stop

def runAccepted (s : Settings) (streams : Streams) : Session Stop Int := do
  if s.verbose then modify fun w => { w with threshold := .debug }
  match ← attempt (i.readScript s) with
  | .error f =>
    if f.isOfSystem then
      note .warning .commandLine "Failed to read script"
        [("script", s.script.getD "None"), ("error", f.message)]
      sayFailure streams.errors f.message
      return failureStatus
    else throw (.fault f)
  | .ok (source, script) => i.runScript s streams source script

/-- Runs a command line and returns its status. A command line that is not accepted, and
one that asks for help, has the status of wrong usage. -/
def run (argv : List String) (streams : Streams) : Session Stop Int :=
  match parse argv with
  | .accepted s => i.runAccepted s streams
  | .help => notAccepted .output help
  | .refused e => notAccepted .errors e.report
where
  notAccepted (c : Channel) (text : String) : Session Stop Int := do
    say c text
    note .warning .commandLine "Argument parsing failed" [("argv", Text.quoteList argv)]
    return usageStatus

/-- Runs a command line on the process's own streams and ends the process with its status. -/
def runAndExit (argv : List String) : Session Stop Unit := do
  let status ← i.run argv ⟨.output, .errors⟩
  throw (.exit ⟨status⟩)

end Intake

def readScript (s : Settings) (input : Bytes) : Session Fault (Bytes × Path) :=
  (Intake.plain input).readScript s

def runScript (s : Settings) (streams : Streams) (source : Bytes) (script : Path) :
    Session Stop Int :=
  (Intake.plain []).runScript s streams source script

def runAccepted (s : Settings) (input : Bytes) (streams : Streams) : Session Stop Int :=
  (Intake.plain input).runAccepted s streams

/-- The run of a command line all of whose words are texts. -/
def run (argv : List String) (input : Bytes) (streams : Streams) : Session Stop Int :=
  (Intake.plain input).run argv streams

def runAndExit (argv : List String) (input : Bytes) : Session Stop Unit :=
  (Intake.plain input).runAndExit argv

def namedScript (argv : List String) : Option Path :=
  match parse argv with
  | .accepted s => if s.source.nonempty?.isSome then none else s.script.map .ofText
  | _ => none

def readsInput (argv : List String) : Bool :=
  match parse argv with
  | .accepted s => s.source.nonempty?.isNone && s.script.isNone
  | _ => false

end ScriptLauncher.CommandLine
