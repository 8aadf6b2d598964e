import ScriptLauncher.Proofs.Build.DryRun
import ScriptLauncher.Proofs.Host.Texts

/-! The ends that a build can come to where only the system's own faults can happen, and the texts
that it writes on its way. -/

namespace ScriptLauncher.Build

open Host Command Session
open Artifact (IsSource executableOf Plain)

section texts

variable {kind : String → Prop}

theorem says_spawn (command : List String) (capture : Capture) :
    Says kind (spawn command capture) := by
  refine says_note.bind fun _ => (says_start _).attempt.bind fun started => ?_
  cases started with
  | error f =>
    dsimp only
    split
    · exact says_note.bind fun _ => says_pure _
    · exact says_throw f
  | ok child =>
    dsimp only
    split
    · exact says_note.bind fun _ => says_pure _
    · exact says_pure _

theorem says_run (r : Runner) (words : List Value) (capture : Capture) {label : String}
    (h : ∀ command, kind (report label command)) : Says kind (r.run words capture label) := by
  unfold Runner.run
  dsimp only
  split
  · exact (says_say (h _)).bind fun _ => says_pure _
  · exact says_spawn _ capture

theorem says_compile (r : Runner) (compiler : String) (source executable : Path)
    (h : ∀ command, kind (report "Build" command)) :
    Says kind (compile r compiler source executable) := by
  refine ((says_run r _ .nothing h).mapError _).bind fun result => ?_
  cases result.failure? with
  | none => exact says_pure ()
  | some failure => exact says_note.bind fun _ => says_throw _

theorem says_launch (r : Runner) (executable script : Path) (args : List String)
    (h : ∀ command, kind (report "Run" command)) :
    Says kind (launch r executable script args) := by
  refine (says_of_noted fun w => (scriptWord_apply script w).1).bind fun word =>
    ((says_run r _ .nothing h).mapError _).bind fun result => ?_
  dsimp only
  split
  · exact says_note.bind fun _ => says_throw _
  · cases result.failure? with
    | none => exact says_pure result
    | some failure => exact says_note.bind fun _ => says_throw _

theorem says_withArtifact {α : Type} {x : Session Stop α} (h : Says kind x) (noClean : Bool)
    (p : Path) : Says kind (withArtifact noClean p x) := by
  cases noClean with
  | true => exact h
  | false =>
    refine h.ensuring (says_of_silent fun w => ?_)
    obtain ⟨tree, records, hw⟩ := tidied_discard p w
    rw [hw]

theorem says_written (o : Options) (sink : Sink) (source : Bytes) (script : Path)
    (h : ∀ e ∈ shown o sink source, kind e.2) : Says kind (written o sink source script) := by
  intro w
  obtain ⟨tree, tokens, drawn, records, hw⟩ := written_texts o sink source script w
  exact ⟨shown o sink source, by rw [hw], h⟩

/-- A build writes the code that it shows and the reports of its two commands, and nothing else. -/
theorem says_buildAndRun (r : Runner) (o : Options) (sink : Sink) (source : Bytes) (script : Path)
    (args : List String) (hshown : ∀ e ∈ shown o sink source, kind e.2)
    (hbuild : ∀ command, kind (report "Build" command))
    (hrun : ∀ command, kind (report "Run" command)) :
    Says kind (buildAndRun r o sink source script args) := by
  rw [buildAndRun_eq]
  refine (says_written o sink source script hshown).bind fun file =>
    says_withArtifact ?_ o.noClean file
  refine (says_of_silent fun w => rfl).bind fun executable =>
    (says_compile r o.compiler file executable hbuild).bind fun _ =>
      says_withArtifact (says_launch r executable script args hrun) o.noClean executable

end texts

section ends

variable {r : Runner} {o : Options} {sink : Sink} {source : Bytes} {script file : Path}
  {args : List String} {w : World} {e : Stop}

theorem ofSystem_written (hw : w.OfSystem) (o : Options) (sink : Sink) (source : Bytes)
    (script : Path) : (written o sink source script w).2.OfSystem := by
  obtain ⟨tree, tokens, drawn, records, h⟩ := written_texts o sink source script w
  rw [h]
  exact { hw with }

theorem unwritable_of_written (hready : Ready o sink script w)
    (h : (written o sink source script w).1 = .error e) : ∃ f, e = .unwritable f := by
  obtain ⟨-, -, -, -, herror, hok⟩ := written_ends hready source
  cases hfound : (Artifact.writeSource (Scaffold.assemble source o.imports) script.name
      (o.directory.getD w.temporary) (opened o sink source w).2).1 with
  | error f => exact ⟨f, Except.error.inj (h.symm.trans (herror f hfound))⟩
  | ok file => cases h.symm.trans (hok file hfound).1

/-- A real build of a source that was written ends as its last child does. -/
theorem fst_of_written (hw : w.OfSystem) (hreal : r.dryRun = false)
    (hfile : (written o sink source script w).1 = .ok file) (args : List String) :
    let build := buildStart o.compiler file
    let run := runStart w.homeText file script args
    let compiled := start build (written o sink source script w).2
    (buildAndRun r o sink source script args w).1 =
      if Termination.ofStart compiled.1 = .exited 0 then
        ending ⟨run.command, .ofStart (start run compiled.2).1, "", ""⟩
      else .error (.notCompiled ⟨build.command, .ofStart compiled.1, "", ""⟩) := by
  intro build run compiled
  have hsource := (isPresent_made (find_written hfile).1).1
  have hplain := plain_written hfile
  have hhome : (written o sink source script w).2.homeText = w.homeText := by
    obtain ⟨tree, tokens, drawn, records, h⟩ := written_texts o sink source script w
    rw [h]
  have hends := finished_ends hreal hsource hplain (.refl _)
    (ofSystem_written hw o sink source script) o script args
  rw [hhome] at hends
  rw [buildAndRun_of_ok hfile]
  split
  · next hok => exact ((if_pos hok ▸ hends).withArtifact hplain o.noClean).result
  · next hfailed => exact ((if_neg hfailed ▸ hends).withArtifact hplain o.noClean).result

/-- The source is written, the compiler exits with zero, and the script ends with some other
status, by itself or by a signal. -/
def Exits (o : Options) (sink : Sink) (source : Bytes) (script : Path) (args : List String)
    (w : World) (n : Int) : Prop :=
  ∃ file, (written o sink source script w).1 = .ok file ∧
    let compiled := start (buildStart o.compiler file) (written o sink source script w).2
    let launched := start (runStart w.homeText file script args) compiled.2
    Termination.ofStart compiled.1 = .exited 0 ∧ n ≠ 0 ∧
      (Termination.ofStart launched.1 = .exited n ∨
        Termination.ofStart launched.1 = .killed (n - 128))

theorem ending_eq_exit_iff {result : Result} {started : Except Fault Child}
    (h : result.termination = .ofStart started) (n : Int) :
    ending result = .error (.exit ⟨n⟩) ↔
      n ≠ 0 ∧ (Termination.ofStart started = .exited n ∨
        Termination.ofStart started = .killed (n - 128)) := by
  unfold ending
  rw [h]
  cases hended : Termination.ofStart started with
  | exited code =>
    by_cases hzero : code = 0
    · simp [hzero, eq_comm]
    · simp only [hzero, if_false, Except.error.injEq, Stop.exit.injEq, Exit.mk.injEq,
        Termination.exited.injEq, reduceCtorEq, or_false]
      omega
  | killed signal =>
    have hpos := pos_of_killed hended
    simp only [Except.error.injEq, Stop.exit.injEq, Exit.mk.injEq, Termination.killed.injEq,
      reduceCtorEq, false_or]
    omega
  | unstarted f => simp

theorem fst_of_dry (hw : w.OfSystem) (hdry : r.dryRun = true)
    (hfile : (written o sink source script w).1 = .ok file) (args : List String) :
    ∃ result, (buildAndRun r o sink source script args w).1 = .ok result := by
  obtain ⟨hended, -⟩ := dry_of_ok hfile hw.home hw.unlink r.reports args
  rw [show (⟨true, r.reports⟩ : Runner) = r by rw [← hdry]] at hended
  exact ⟨_, hended⟩

/-- A build returns a result, has a reason to give, or ends the program with a status. -/
theorem buildAndRun_cases (hready : Ready o sink script w) (r : Runner) (source : Bytes)
    (args : List String) :
    let ended := (buildAndRun r o sink source script args w).1
    (∃ result, ended = .ok result) ∨
      (∃ stop reason, ended = .error stop ∧ stop.message? = some reason) ∨
      ∃ n, ended = .error (.exit ⟨n⟩) := by
  intro ended
  cases hfile : (written o sink source script w).1 with
  | error e =>
    obtain ⟨f, rfl⟩ := unwritable_of_written hready hfile
    have hended : ended = _ := congrArg Prod.fst (buildAndRun_of_error hfile r args)
    exact .inr (.inl ⟨_, _, hended, rfl⟩)
  | ok file =>
    cases hdry : r.dryRun with
    | true => exact .inl (fst_of_dry hready.ofSystem hdry hfile args)
    | false =>
      have hended : ended = _ := fst_of_written hready.ofSystem hdry hfile args
      split at hended
      · unfold ending at hended
        split at hended
        · split at hended
          · exact .inl ⟨_, hended⟩
          · exact .inr (.inr ⟨_, hended⟩)
        · exact .inr (.inr ⟨_, hended⟩)
        · exact .inr (.inl ⟨_, _, hended, rfl⟩)
      · exact .inr (.inl ⟨_, _, hended, rfl⟩)

theorem fst_eq_exit_iff (hready : Ready o sink script w) (r : Runner) (source : Bytes)
    (args : List String) (n : Int) :
    (buildAndRun r o sink source script args w).1 = .error (.exit ⟨n⟩) ↔
      r.dryRun = false ∧ Exits o sink source script args w n := by
  cases hfile : (written o sink source script w).1 with
  | error e =>
    obtain ⟨f, rfl⟩ := unwritable_of_written hready hfile
    rw [buildAndRun_of_error hfile]
    simp [Exits, hfile]
  | ok file =>
    cases hdry : r.dryRun with
    | true =>
      obtain ⟨result, hended⟩ := fst_of_dry hready.ofSystem hdry hfile args
      rw [hended]
      simp
    | false =>
      rw [fst_of_written hready.ofSystem hdry hfile args]
      split
      · next hok =>
        rw [ending_eq_exit_iff rfl]
        simp [Exits, hfile, hok]
      · next hfailed => simp [Exits, hfile, hfailed]

end ends

end ScriptLauncher.Build
