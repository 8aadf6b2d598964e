import ScriptLauncher.Host.Fault

/-! How a child ended, and the exit status that stands for it. -/

namespace ScriptLauncher.Command

open Host

inductive Termination
  | exited (code : Int)
  | killed (signal : Int)
  | unstarted (fault : Fault)
  deriving DecidableEq, Repr

namespace Termination

/-- A negative return code stands for the signal that killed the child. -/
def ofReturnCode (code : Int) : Termination := if code < 0 then .killed (-code) else .exited code

def signalBase : Int := 128

/-- A child that never started has no status of its own and counts as zero. -/
def exitCode : Termination → Int
  | .exited code => code
  | .killed signal => signalBase + signal
  | .unstarted _ => 0

theorem ofReturnCode_of_neg {code : Int} (h : code < 0) : ofReturnCode code = .killed (-code) := by
  simp [ofReturnCode, h]

theorem ofReturnCode_of_nonneg {code : Int} (h : 0 ≤ code) : ofReturnCode code = .exited code := by
  simp [ofReturnCode, Int.not_lt.2 h]

end Termination

end ScriptLauncher.Command
