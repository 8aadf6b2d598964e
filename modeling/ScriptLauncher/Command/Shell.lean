import ScriptLauncher.Command.Runner
import ScriptLauncher.Template

/-! Command lines for a shell: a template and its arguments make the one word that the
shell is given. -/

namespace ScriptLauncher.Command

open Host

structure Shell where
  runner : Runner
  executable : String
  deriving DecidableEq, Repr

def defaultShell : String := "bash"

inductive ShellError
  | template (e : Template.FormatError)
  | system (f : Fault)
  deriving DecidableEq, Repr

namespace Shell

def words (sh : Shell) (line : String) : List Value := [.text sh.executable, .text "-c", .text line]

/-- Fills in the line first: where that fails, nothing is started. -/
def withLine (command : Value) (args : List Value) (next : String → Session Fault α) :
    Session ShellError α :=
  match Template.render command args with
  | .error e => throw (.template e)
  | .ok line => Session.mapError .system (next line)

def run (sh : Shell) (command : Value) (args : List Value) : Session ShellError Result :=
  withLine command args fun line => sh.runner.run (sh.words line) .nothing "Bash"

def runWithOutput (sh : Shell) (command : Value) (args : List Value) : Session ShellError Result :=
  withLine command args fun line => sh.runner.run (sh.words line) .output "BashWithStdout"

def eval (sh : Shell) (command : Value) (args : List Value) : Session ShellError String := do
  return stripLineEnds (← sh.runWithOutput command args).output

end Shell

end ScriptLauncher.Command
