import ScriptLauncher.Proofs.Command.Runner
import ScriptLauncher.Proofs.Host.Fault

/-! Success and status of a command. Its termination decides both, and whoever looks at the failure,
at the exit code or at the two together comes to the same end. -/

namespace ScriptLauncher.Command

open Host Session

section termination

/-- The return code that a termination stands for. -/
def Termination.returnCode? : Termination → Option Int
  | .exited code => some code
  | .killed signal => some (-signal)
  | .unstarted _ => none

@[simp] theorem Termination.returnCode?_ofReturnCode (code : Int) :
    (ofReturnCode code).returnCode? = some code := by
  unfold ofReturnCode
  split
  · exact congrArg some (Int.neg_neg code)
  · rfl

/-- What a result tells of the return code of its child: a status from zero on, the signal behind
it below, and the return code itself in any case. -/
structure Result.Tells (result : Result) (code : Int) : Prop where
  exited : 0 ≤ code → result.termination = .exited code ∧ result.exitCode = code
  killed : code < 0 → result.termination = .killed (-code) ∧ result.exitCode = 128 - code ∧
    result.failure? = some (.signal result.command (128 - code) (-code))
  returnCode : result.termination.returnCode? = some code

variable {result : Result} {started : Except Fault Child} {code : Int}

theorem Result.tells_of_termination (h : result.termination = .ofReturnCode code) :
    result.Tells code where
  exited hcode := by
    rw [Termination.ofReturnCode_of_nonneg hcode] at h
    exact ⟨h, by rw [exitCode, h, Termination.exitCode]⟩
  killed hcode := by
    rw [Termination.ofReturnCode_of_neg hcode] at h
    have hexit : result.exitCode = 128 - code := by
      rw [exitCode, h, Termination.exitCode, Termination.signalBase, Int.sub_eq_add_neg]
    refine ⟨h, hexit, ?_⟩
    unfold failure?
    rw [h]
    dsimp only
    rw [hexit]
  returnCode := by rw [h, Termination.returnCode?_ofReturnCode]

/-- A failure without a code to show for it is one to start. -/
theorem Result.failed_at_zero_iff (h : result.termination = .ofStart started) :
    result.failure? ≠ none ∧ result.exitCode = 0 ↔ ∃ f, started = .error f := by
  rw [Ne, failure?_eq_none_iff, exitCode, h]
  cases hended : Termination.ofStart started with
  | exited code =>
    have hstarted (f : Fault) : started ≠ .error f := by
      rintro rfl
      cases hended
    simp [Termination.exitCode, hstarted]
  | killed signal =>
    have hpos := pos_of_killed hended
    have hstarted (f : Fault) : started ≠ .error f := by
      rintro rfl
      cases hended
    simp only [Termination.exitCode, Termination.signalBase, hstarted, exists_false, iff_false]
    omega
  | unstarted f =>
    cases started with
    | ok child =>
      rw [Termination.ofStart, Termination.ofReturnCode] at hended
      split at hended <;> cases hended
    | error g => simp [Termination.exitCode]

end termination

section required

variable {message : String} {code : Int}

/-- What is said of a failure: its code, or where it has none, its message. -/
def requiredText (message : String) (code : Int) : String :=
  if code ≠ 0 then "Failed with error code: " ++ toString code ++ "\n"
  else "Failed with error: " ++ message ++ "\n"

theorem requireSuccess_some (message : String) (code : Int) (c : Channel) (w : World) :
    (requireSuccess (some message) code c w).1 = .error ⟨1⟩ ∧
      (requireSuccess (some message) code c w).2.Noted (w.tell c (requiredText message code)) := by
  rw [requireSuccess, lift_bind, lift_bind, throw_apply]
  exact ⟨rfl, note_noted .warning .runner "Required command failed" _ _⟩

theorem code_ne_message (s t : String) :
    "Failed with error code: " ++ s ++ "\n" ≠ "Failed with error: " ++ t ++ "\n" := by
  intro h
  have hchars := congrArg (fun s => s.toList[17]?) h
  simp [String.toList_append] at hchars

theorem requiredText_eq_code_iff :
    requiredText message code = "Failed with error code: " ++ toString code ++ "\n" ↔ code ≠ 0 := by
  unfold requiredText
  split
  · next h => exact iff_of_true rfl h
  · next h => exact iff_of_false (code_ne_message _ _).symm h

theorem requiredText_eq_message_iff :
    requiredText message code = "Failed with error: " ++ message ++ "\n" ↔ code = 0 := by
  unfold requiredText
  split
  · next h => exact iff_of_false (code_ne_message _ _) h
  · next h => exact iff_of_true rfl (Decidable.not_not.1 h)

end required

section agreement

variable {w : World} {result : Result} {started : Except Fault Child}

/-- The end of a program in which a result is required to be a success. Where it is one nothing is
done. Otherwise the status is one, after one text: the code of a child that was started, or the
reason why none was. -/
def Result.Enforced (result : Result) (started : Except Fault Child) (c : Channel)
    (w : World) : Prop :=
  let ended := requireSuccess (result.failure?.map Failure.message) result.exitCode c w
  if result.termination = .exited 0 then ended = (.ok (), w)
  else ∃ failure said, result.failure? = some failure ∧ ended.1 = .error ⟨1⟩ ∧
    ended.2.Noted (w.tell c said) ∧
    (said = "Failed with error code: " ++ toString result.exitCode ++ "\n" ↔
      ∃ child, started = .ok child) ∧
    (said = "Failed with error: " ++ failure.message ++ "\n" ↔ ∃ f, started = .error f)

theorem Result.enforced_of_success (h : result.termination = .exited 0)
    (started : Except Fault Child) (c : Channel) (w : World) : result.Enforced started c w := by
  unfold Enforced
  rw [if_pos h, (failure?_eq_none_iff result).2 h]
  rfl

theorem Result.enforced_of_termination (h : result.termination = .ofStart started)
    (c : Channel) (w : World) : result.Enforced started c w := by
  by_cases hsuccess : result.termination = .exited 0
  · exact enforced_of_success hsuccess started c w
  have hsome : result.failure? ≠ none := mt (failure?_eq_none_iff result).1 hsuccess
  obtain ⟨failure, hfailure⟩ := Option.ne_none_iff_exists'.1 hsome
  have hcode : result.exitCode = 0 ↔ ∃ f, started = .error f := by
    simpa [hsome] using failed_at_zero_iff h
  obtain ⟨hexit, hsaid⟩ := requireSuccess_some failure.message result.exitCode c w
  unfold Enforced
  rw [if_neg hsuccess, hfailure]
  refine ⟨failure, _, rfl, hexit, hsaid, ?_, ?_⟩
  · rw [requiredText_eq_code_iff, Ne, hcode]
    cases started <;> simp
  · rw [requiredText_eq_message_iff, hcode]

/-- Running a command gives a result, whatever becomes of its child. It has no failure just when it
tells of an exit with zero, and a failure with a code of zero just when a start was made and
failed. The return code of a child that was started, and the end of a program that requires success,
are those that the termination stands for. -/
theorem run_agrees (hnext : ∀ f, (w.children.headD .idle).failure = some f → f.isReported = true)
    (r : Runner) (words : List Value) (capture : Capture) (label : String) :
    let command := words.map Value.display
    let started := (start ⟨command, capture.takesOutput, capture.takesErrors⟩ w).1
    ∃ result, (r.run words capture label w).1 = .ok result ∧ result.command = command ∧
      (result.failure? = none ↔ result.termination = .exited 0) ∧
      (isSuccess result.failure? result.exitCode = true ↔ result.termination = .exited 0) ∧
      (result.failure? ≠ none ∧ result.exitCode = 0 ↔
        r.dryRun = false ∧ ∃ f, started = .error f) ∧
      (r.dryRun = false → ∀ child, started = .ok child → result.Tells child.returnCode) ∧
      ∀ c v, result.Enforced started c v := by
  intro command started
  have hsuccess (result : Result) :
      isSuccess result.failure? result.exitCode = true ↔ result.termination = .exited 0 := by
    rw [isSuccess, Option.isNone_iff_eq_none, Result.failure?_eq_none_iff]
  cases hdry : r.dryRun with
  | true =>
    have hrun : (r.run words capture label w).1 = _ :=
      congrArg Prod.fst (Runner.run_dry hdry words label w)
    refine ⟨_, hrun, rfl, Result.failure?_eq_none_iff _, hsuccess _, ?_, nofun, ?_⟩
    · simp [Result.failure?]
    · exact Result.enforced_of_success rfl started
  | false =>
    have hreported (f : Fault) (hf : started = .error f) : f.isReported = true :=
      isReported_start_of_next hnext hf
    have hrun : (r.run words capture label w).1 = .ok (.ofStart command capture started) := by
      rw [Runner.run, hdry]
      exact (spawn_start command capture w).2 hreported
    have htermination := Result.termination_ofStart command capture started
    refine ⟨_, hrun, ?_, Result.failure?_eq_none_iff _, hsuccess _, ?_, ?_, ?_⟩
    · cases started <;> rfl
    · rw [Result.failed_at_zero_iff htermination]
      simp
    · intro _ child hchild
      refine Result.tells_of_termination ?_
      rw [htermination, hchild]
      rfl
    · exact Result.enforced_of_termination htermination

/-- A world whose next child cannot be started. -/
def missingProgram : World :=
  { World.initial [] (.ofText "/tmp") .warning with
    children := [{ Child.idle with failure := some (.ofCause .missing "go") }] }

theorem run_agrees_missingProgram :
    (∀ f, (missingProgram.children.headD .idle).failure = some f → f.isReported = true) ∧
      ∃ result, ((⟨false, .reports⟩ : Runner).run [.text "go"] .nothing "Build" missingProgram).1 =
        .ok result ∧ result.failure? ≠ none ∧ result.exitCode = 0 := by
  have hnext : ∀ f, (missingProgram.children.headD .idle).failure = some f →
      f.isReported = true := by
    rintro f ⟨⟩
    rfl
  obtain ⟨result, hrun, -, -, -, hzero, -⟩ :=
    run_agrees hnext ⟨false, .reports⟩ [.text "go"] .nothing "Build"
  exact ⟨hnext, result, hrun, hzero.2 ⟨rfl, _, rfl⟩⟩

end agreement

end ScriptLauncher.Command
