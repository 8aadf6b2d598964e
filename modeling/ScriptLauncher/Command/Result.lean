import ScriptLauncher.Command.Termination
import ScriptLauncher.Text.ShellWords

/-! The result of running a command, and the failure that it amounts to, if any. -/

namespace ScriptLauncher.Command

open Host

inductive Failure
  | exit (command : List String) (code : Int)
  | signal (command : List String) (code signal : Int)
  | spawn (command : List String) (fault : Fault)
  deriving DecidableEq, Repr

def Failure.message : Failure → String
  | .exit command code => ShellWords.join command ++ ": exit status " ++ toString code
  | .signal command _ number =>
    ShellWords.join command ++ ": terminated by signal " ++ toString number
  | .spawn command fault => ShellWords.join command ++ ": " ++ fault.briefly

structure Result where
  command : List String
  termination : Termination
  output : String
  errors : String
  deriving DecidableEq, Repr

namespace Result

def exitCode (r : Result) : Int := r.termination.exitCode

def failure? (r : Result) : Option Failure :=
  match r.termination with
  | .unstarted fault => some (.spawn r.command fault)
  | .killed signal => some (.signal r.command r.exitCode signal)
  | .exited code => if code = 0 then none else some (.exit r.command code)

@[simp] theorem failure?_eq_none_iff (r : Result) :
    r.failure? = none ↔ r.termination = .exited 0 := by
  unfold failure?
  split <;> simp_all

end Result

/-- Only a failure counts: a code alone tells nothing. -/
def isSuccess (failure : Option α) (_code : Int) : Bool := failure.isNone

end ScriptLauncher.Command
