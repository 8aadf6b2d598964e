import ScriptLauncher.Artifact
import ScriptLauncher.Command.Runner
import ScriptLauncher.Script.Noted

/-! Building and running a script: its source is written, compiled and started, and
what was made on the way is removed however this ends. -/

namespace ScriptLauncher.Build

open Host Command Session

inductive Stop
  | unwritable (cause : Fault)
  | notCompiled (result : Result)
  | notStarted (result : Result)
  | exit (status : Exit)
  | fault (f : Fault)
  deriving DecidableEq, Repr

def failureText (r : Result) : String := (r.failure?.map Failure.message).getD "None"

/-- What went wrong with the build, if that is why it ended. -/
def Stop.message? : Stop → Option String
  | .unwritable cause => some ("cannot write temporary source: " ++ cause.message)
  | .notCompiled result | .notStarted result => some (failureText result)
  | .exit _ | .fault _ => none

structure Options where
  showSource : Bool
  noClean : Bool
  compiler : String
  imports : List Scaffold.Import
  /-- Where the files are made; the platform says, if this does not. -/
  directory : Option Path
  deriving DecidableEq, Repr

def defaultCompiler : String := "go"

def Options.default : Options where
  showSource := false
  noClean := false
  compiler := defaultCompiler
  imports := Scaffold.defaultImports
  directory := none

def writeSource (code : Bytes) (script : String) (directory : Option Path) : Session Stop Path := do
  let directory := directory.getD (← get).temporary
  match ← attempt (Artifact.writeSource code script directory) with
  | .ok p =>
    note .debug .build "Wrote temporary source" [("path", p.text), ("bytes", toString code.length)]
    return p
  | .error f =>
    if f.isOfSystem then
      note .warning .build "Failed to write temporary source"
        [("directory", directory.text), ("error", f.message)]
      throw (.unwritable f)
    else throw (.fault f)

/-- Removes a file; one that is not there counts as removed. -/
def discard (p : Path) : Session Stop Unit := do
  match ← attempt (unlink p) with
  | .ok () => note .debug .build "Removed temporary file" [("path", p.text)]
  | .error f =>
    if f.isOfSystem then
      note .warning .build "Failed to remove temporary file"
        [("path", p.text), ("error", f.message)]
    else throw (.fault f)

/-- Does a step, and after it removes a file unless that is to stay. -/
def withArtifact (noClean : Bool) (p : Path) (x : Session Stop α) : Session Stop α :=
  if noClean then x else ensuring x (discard p)

def dump (code : Bytes) (sink : Sink) : Session Fault Unit := do
  sink.write (Utf8.decode code)
  sink.write "\n"

def printSource (code : Bytes) (sink : Sink) : Session Stop Unit := do
  match ← attempt (dump code sink) with
  | .ok () => return
  | .error f =>
    if f.isReported then
      note .warning .build "Failed to print assembled source" [("error", f.message)]
    else throw (.fault f)

/-- The absolute path of a script, or the path as it is where its place has no name. -/
def scriptWord (p : Path) : Session Stop String := do
  if p.isAbsolute then return p.text
  match (← get).homeText with
  | .ok home => return ((Path.ofText home).join p).text
  | .error f =>
    if f.isOfSystem then
      note .debug .build "Cannot resolve script path" [("path", p.text), ("error", f.message)]
      return p.text
    else throw (.fault f)

def compile (r : Runner) (compiler : String) (source executable : Path) : Session Stop Unit := do
  let result ← mapError .fault (r.run
    (.text compiler :: ["build", "-o", executable.text, source.text].map .text) .nothing "Build")
  match result.failure? with
  | none => return
  | some failure =>
    note .warning .build "Compile failed"
      [("source", source.text), ("exit_code", toString result.exitCode),
        ("error", failure.message)]
    throw (.notCompiled result)

def launch (r : Runner) (executable script : Path) (args : List String) : Session Stop Result := do
  let argument ← scriptWord script
  let result ← mapError .fault
    (r.run (.path executable :: (argument :: args).map .text) .nothing "Run")
  if result.exitCode ≠ 0 then
    note .debug .build "Script exited" [("exit_code", toString result.exitCode)]
    throw (.exit ⟨result.exitCode⟩)
  match result.failure? with
  | none => return result
  | some failure =>
    note .warning .build "Script did not start"
      [("executable", executable.text), ("error", failure.message)]
    throw (.notStarted result)

/-- Builds a script and runs it. The executable is removed before the source, whose name
keeps that of the executable taken. -/
def buildAndRun (r : Runner) (o : Options) (sink : Sink) (source : Bytes) (script : Path)
    (args : List String) : Session Stop Result := do
  let code ← Script.assembleNoted source o.imports
  if o.showSource then printSource code sink
  let file ← writeSource code script.name o.directory
  withArtifact o.noClean file do
    let executable ← mapError .fault (ask fun _ => Artifact.executable file)
    compile r o.compiler file executable
    withArtifact o.noClean executable (launch r executable script args)

end ScriptLauncher.Build
