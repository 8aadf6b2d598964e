import ScriptLauncher.Command.Result
import ScriptLauncher.Host.Session
import ScriptLauncher.Value

/-! Running commands: for real, or by way of a report on what would be run. -/

namespace ScriptLauncher.Command

open Host Session

/-- Which of a child's streams are captured; the others are its parent's. -/
inductive Capture
  | nothing
  | output
  | both
  deriving DecidableEq, Repr

namespace Capture

def name : Capture → String
  | .nothing => "inherited"
  | .output => "capture_stdout"
  | .both => "capture_both"

def all : List Capture := [.nothing, .output, .both]

def ofName? (s : String) : Option Capture := all.find? (·.name == s)

def takesOutput (c : Capture) : Bool := c != .nothing

def takesErrors (c : Capture) : Bool := c == .both

end Capture

structure Runner where
  dryRun : Bool
  /-- Where dry runs are reported. -/
  reports : Channel
  deriving DecidableEq, Repr

def defaultLabel : String := "Exec"

def captured (takes : Bool) (s : Bytes) : String := if takes then Utf8.decode s else ""

/-- The text without the carriage returns and line feeds at its end. -/
def stripLineEnds (s : String) : String :=
  String.ofList (s.toList.reverse.dropWhile fun c => c = '\r' ∨ c = '\n').reverse

/-- Starts a command and waits for it. A start that fails is a result as well, unless it
fails for a reason of its own. -/
def spawn (command : List String) (capture : Capture) : Session Fault Result := do
  note .debug .runner "Running command"
    [("command", Text.quoteTuple command), ("io_mode", capture.name)]
  match ← attempt (start ⟨command, capture.takesOutput, capture.takesErrors⟩) with
  | .error fault =>
    if fault.isReported then
      note .warning .runner "Failed to start command"
        [("command", Text.quoteTuple command), ("error", fault.message)]
      return ⟨command, .unstarted fault, "", ""⟩
    else throw fault
  | .ok child =>
    if child.returnCode ≠ 0 then
      note .debug .runner "Command failed"
        [("command", Text.quoteTuple command), ("returncode", toString child.returnCode)]
    return ⟨command, .ofReturnCode child.returnCode,
      captured capture.takesOutput child.output, captured capture.takesErrors child.errors⟩

namespace Runner

/-- Runs a command, each of its words the display of a value. -/
def run (r : Runner) (words : List Value) (capture : Capture) (label : String) :
    Session Fault Result := do
  let command := words.map Value.display
  if r.dryRun then
    say r.reports (label ++ ": " ++ ShellWords.join command ++ "\n")
    return ⟨command, .exited 0, "", ""⟩
  else spawn command capture

def exec (r : Runner) (words : List Value) : Session Fault Result :=
  r.run words .nothing "Exec"

def execWithOutput (r : Runner) (words : List Value) : Session Fault Result :=
  r.run words .output "ExecWithStdout"

def execWithBoth (r : Runner) (words : List Value) : Session Fault Result :=
  r.run words .both "ExecWithStdErrOut"

/-- The output of a command without the line ends that close it. -/
def eval (r : Runner) (words : List Value) : Session Fault String := do
  return stripLineEnds (← r.execWithOutput words).output

end Runner

/-- A request to end the program with a status. -/
structure Exit where
  code : Int
  deriving DecidableEq, Repr

def failureCode : Int := 1

/-- Ends the program unless there is no failure, and says why. -/
def requireSuccess (failure : Option String) (code : Int) (c : Channel) : Session Exit Unit := do
  match failure with
  | none => return
  | some message =>
    say c (if code ≠ 0 then "Failed with error code: " ++ toString code ++ "\n"
      else "Failed with error: " ++ message ++ "\n")
    note .warning .runner "Required command failed" [("code", toString code), ("error", message)]
    throw ⟨failureCode⟩

end ScriptLauncher.Command
