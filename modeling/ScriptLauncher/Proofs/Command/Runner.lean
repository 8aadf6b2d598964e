import ScriptLauncher.Command.Runner
import ScriptLauncher.Proofs.Host.Session

/-! What running a command comes to: one start, and the result that it amounts to. -/

namespace ScriptLauncher.Command

open Host Session

def Termination.ofStart : Except Fault Child → Termination
  | .ok child => .ofReturnCode child.returnCode
  | .error f => .unstarted f

/-- A start of a command with the streams of its parent. -/
def plainStart (command : List String) : Start := ⟨command, false, false⟩

variable {command : List String} {w : World}

/-- What a start comes to, with the streams that were captured of it. -/
def Result.ofStart (command : List String) (capture : Capture) : Except Fault Child → Result
  | .ok child => ⟨command, .ofReturnCode child.returnCode,
      captured capture.takesOutput child.output, captured capture.takesErrors child.errors⟩
  | .error f => ⟨command, .unstarted f, "", ""⟩

theorem Result.ofStart_nothing (command : List String) (started : Except Fault Child) :
    ofStart command .nothing started = ⟨command, .ofStart started, "", ""⟩ := by
  cases started <;> rfl

theorem Result.termination_ofStart (command : List String) (capture : Capture)
    (started : Except Fault Child) :
    (ofStart command capture started).termination = .ofStart started := by
  cases started <;> rfl

/-- Running a command starts it once; how that ends shows in the result, and all that
follows changes records only. -/
theorem spawn_start (command : List String) (capture : Capture) (w : World) :
    let started := start ⟨command, capture.takesOutput, capture.takesErrors⟩ w
    (spawn command capture w).2.Alike started.2 ∧
      ((∀ f, started.1 = .error f → f.isReported = true) →
        (spawn command capture w).1 = .ok (.ofStart command capture started.1)) := by
  dsimp only
  rw [spawn, lift_bind, attempt_bind]
  have hnote := note_alike .debug .runner "Running command"
    [("command", Text.quoteTuple command), ("io_mode", capture.name)] w
  generalize (note _ _ _ _ w).2 = v at hnote ⊢
  obtain ⟨hresult, hworld⟩ := start_alike ⟨command, capture.takesOutput, capture.takesErrors⟩ hnote
  rw [hresult]
  cases h : (start ⟨command, capture.takesOutput, capture.takesErrors⟩ w).1 with
  | ok child =>
    dsimp only
    split
    · exact ⟨(note_alike _ _ _ _ _).trans hworld, fun _ => rfl⟩
    · exact ⟨hworld, fun _ => rfl⟩
  | error f =>
    dsimp only
    split
    · exact ⟨(note_alike _ _ _ _ _).trans hworld, fun _ => rfl⟩
    · next hf => exact ⟨hworld, fun hfault => absurd (hfault f rfl) hf⟩

theorem spawn_apply (command : List String) (w : World) :
    (spawn command .nothing w).2.Alike (start (plainStart command) w).2 ∧
      ((∀ f, (start (plainStart command) w).1 = .error f → f.isReported = true) →
        (spawn command .nothing w).1 =
          .ok ⟨command, .ofStart (start (plainStart command) w).1, "", ""⟩) := by
  rw [← Result.ofStart_nothing]
  exact spawn_start command .nothing w

theorem pos_of_killed {started : Except Fault Child} {signal : Int}
    (h : Termination.ofStart started = .killed signal) : 0 < signal := by
  cases started with
  | error f => cases h
  | ok child =>
    by_cases hneg : child.returnCode < 0
    · rw [Termination.ofStart, Termination.ofReturnCode_of_neg hneg] at h
      cases h
      omega
    · rw [Termination.ofStart, Termination.ofReturnCode_of_nonneg (Int.not_lt.1 hneg)] at h
      cases h

theorem Runner.run_real {r : Runner} (h : r.dryRun = false) (words : List Value) (label : String)
    (w : World) : r.run words .nothing label w = spawn (words.map Value.display) .nothing w := by
  rw [Runner.run, h]
  rfl

/-- What a dry run says instead of starting a command. -/
def report (label : String) (command : List String) : String :=
  label ++ ": " ++ ShellWords.join command ++ "\n"

theorem Runner.run_dry {r : Runner} {capture : Capture} (h : r.dryRun = true) (words : List Value)
    (label : String) (w : World) : r.run words capture label w =
      (.ok ⟨words.map Value.display, .exited 0, "", ""⟩,
        w.tell r.reports (report label (words.map Value.display))) := by
  rw [Runner.run, h]
  rfl

end ScriptLauncher.Command
