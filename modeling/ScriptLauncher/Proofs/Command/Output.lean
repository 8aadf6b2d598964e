import ScriptLauncher.Proofs.Command.Runner
import ScriptLauncher.Proofs.Text.Decoding

/-! The output of a child in the result of its command: the streams that are captured, each read
as text. -/

namespace ScriptLauncher.Command

open Host Session

variable {r : Runner} {words : List Value} {capture : Capture} {label : String} {w : World}
  {child : Child} {f : Fault}

/-- What a runner starts for some words. -/
def startOf (words : List Value) (capture : Capture) : Start :=
  ⟨words.map Value.display, capture.takesOutput, capture.takesErrors⟩

theorem Runner.run_spawn (hreal : r.dryRun = false) (words : List Value) (capture : Capture)
    (label : String) (w : World) :
    r.run words capture label w = spawn (words.map Value.display) capture w := by
  rw [run, hreal]
  rfl

theorem Runner.run_of_started (hreal : r.dryRun = false)
    (hstart : (start (startOf words capture) w).1 = .ok child) :
    (r.run words capture label w).1 =
      .ok (.ofStart (words.map Value.display) capture (.ok child)) := by
  rw [run_spawn hreal, ← hstart]
  exact (spawn_start _ capture w).2 (by rw [← startOf, hstart]; nofun)

theorem Runner.run_of_unstarted (hreal : r.dryRun = false)
    (hstart : (start (startOf words capture) w).1 = .error f) (hf : f.isReported = true) :
    (r.run words capture label w).1 =
      .ok (.ofStart (words.map Value.display) capture (.error f)) := by
  rw [run_spawn hreal, ← hstart]
  refine (spawn_start _ capture w).2 fun f' hf' => ?_
  cases hstart.symm.trans hf'
  exact hf

/-- A command is run for real by way of one start, and its result holds each stream of the child
that was captured, read as text, and nothing of the others. Reading never fails, marks what is no
text piece by piece (`Utf8.Decodes`), and leaves the text before and behind it as it is. -/
theorem run_decodes :
    (∀ (r : Runner) (words : List Value) (capture : Capture) (label : String) (w : World)
      (child : Child), r.dryRun = false → (start (startOf words capture) w).1 = .ok child →
      ∃ result, (r.run words capture label w).1 = .ok result ∧
        result.output = (if capture = .nothing then "" else Utf8.decode child.output) ∧
        result.errors = (if capture = .both then Utf8.decode child.errors else "")) ∧
    (∀ b cs, Utf8.Decodes b cs ↔ (Utf8.decode b).toList = cs) ∧
    (∀ t, Utf8.decode (Utf8.encode t) = t) ∧
    (∀ t b, Utf8.decode (Utf8.encode t ++ b) = t ++ Utf8.decode b) ∧
    ∀ b t, Utf8.decode (b ++ Utf8.encode t) = Utf8.decode b ++ t := by
  refine ⟨?_, fun b cs => ?_, Utf8.decode_encode, Utf8.decode_encode_append,
    Utf8.decode_append_encode⟩
  · intro r words capture label w child hreal hstart
    refine ⟨_, Runner.run_of_started hreal hstart, ?_, ?_⟩ <;> cases capture <;> rfl
  · rw [Utf8.decode, String.toList_ofList, Utf8.decodes_iff]

/-- A child that is killed in the middle of a character. -/
def brokenOff : Child :=
  { Child.idle with output := [0x61, 0xE2, 0x82], errors := [0xFF], returnCode := -9 }

theorem run_decodes_brokenOff :
    let w := { World.initial [] (.ofText "/tmp") .warning with children := [brokenOff] }
    (start (startOf [.text "go"] .output) w).1 = .ok brokenOff ∧
      ∃ result, ((⟨false, .reports⟩ : Runner).run [.text "go"] .output "Exec" w).1 = .ok result ∧
        result.output = "a\uFFFD" ∧ result.errors = "" := by
  intro w
  have hstart : (start (startOf [.text "go"] .output) w).1 = .ok brokenOff := rfl
  obtain ⟨result, hrun, houtput, herrors⟩ :=
    run_decodes.1 ⟨false, .reports⟩ _ _ "Exec" _ _ rfl hstart
  exact ⟨hstart, result, hrun, houtput.trans (by decide), herrors⟩

end ScriptLauncher.Command
