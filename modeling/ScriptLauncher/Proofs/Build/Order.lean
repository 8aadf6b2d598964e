import ScriptLauncher.Proofs.Build.Records
import ScriptLauncher.Proofs.Build.Removal
import ScriptLauncher.Proofs.Build.Sources

/-! The order in which a build starts and removes. Its children have all ended when it removes the
first file, the executable goes before the source, and each removal is on record in its place. -/

namespace ScriptLauncher.Build

open Host Command Session
open Artifact (IsSource executableOf Plain)

section records

variable {w : World} {p : Path} {paths : List Path}

/-- The record of a removal, by how it ended. -/
def removal (p : Path) : Except Fault Unit → Record
  | .ok () => ⟨.debug, .build, detailed "Removed temporary file" [("path", p.text)]⟩
  | .error f => refusal p f

/-- One record for each path in turn. -/
def removals : List Path → World → List Record
  | [], _ => []
  | p :: paths, w => removal p (unlink p w).1 :: removals paths (Build.discard p w).2

/-- What is on record of starts and removals. -/
def events (w : World) : List Record := mentions ("Running command" :: outcomes) w.records

theorem threshold_discard (p : Path) (w : World) :
    (Build.discard p w).2.threshold = w.threshold := by
  obtain ⟨tree, records, h⟩ := tidied_discard p w
  rw [h]

theorem records_discard (hthreshold : w.threshold = .debug)
    (hunlink : ∀ f, (unlink p w).1 = .error f → f.isOfSystem = true) :
    (Build.discard p w).2.records = w.records ++ [removal p (unlink p w).1] := by
  have hkept : (unlink p w).2.threshold = .debug := by
    obtain ⟨tree, h, -⟩ := unlink_eq p w
    rw [h]
    exact hthreshold
  cases h : (unlink p w).1 with
  | ok =>
    rw [discard_of_ok h, note_apply, if_pos (by rw [hkept]; rfl), records_unlink]
    rfl
  | error f =>
    rw [discard_of_error h (hunlink f h), note_apply, if_pos (by rw [hkept]; rfl), records_unlink]
    rfl

theorem records_sweep (hthreshold : w.threshold = .debug) (hpaths : ∀ p ∈ paths, Plain p.text)
    (hunlink : ∀ e ∈ w.faults.unlink, e.2.isOfSystem = true) :
    (sweep paths w).records = w.records ++ removals paths w := by
  induction paths generalizing w with
  | nil => simp [sweep, removals]
  | cons p paths ih =>
    have hfirst := records_discard hthreshold fun f =>
      World.isOfSystem_unlink hunlink (hpaths p List.mem_cons_self)
    have hrest := ih ((threshold_discard p w).trans hthreshold)
      (fun q hq => hpaths q (List.mem_cons_of_mem p hq))
      ((unlinkFaults_discard p w).symm ▸ hunlink)
    show (sweep paths (Build.discard p w).2).records = _
    rw [hrest, hfirst, removals, List.append_assoc, List.singleton_append]

theorem subject_removal (p : Path) (removed : Except Fault Unit) :
    (removal p removed).subject ∈ outcomes := by
  cases removed with
  | ok => rw [removal, subject_detailed (by decide)]; decide
  | error f => rw [removal, refusal, subject_detailed (by decide)]; decide

theorem mentions_removals (paths : List Path) (w : World) :
    mentions ("Running command" :: outcomes) (removals paths w) = removals paths w := by
  refine List.filter_eq_self.2 fun r hr => decide_eq_true (List.mem_cons_of_mem _ ?_)
  induction paths generalizing w with
  | nil => cases hr
  | cons p paths ih =>
    rcases List.mem_cons.1 hr with rfl | hr
    · exact subject_removal p _
    · exact ih _ hr

theorem mentions_announcements (commands : List (List String)) :
    mentions ("Running command" :: outcomes) (commands.map announcement) =
      commands.map announcement := by
  refine List.filter_eq_self.2 fun r hr => decide_eq_true ?_
  obtain ⟨command, -, rfl⟩ := List.mem_map.1 hr
  rw [announcement, subject_detailed (by decide)]
  exact List.mem_cons_self

end records

section order

variable {r : Runner} {o : Options} {sink : Sink} {source : Bytes} {script file : Path}
  {args : List String} {w : World}

/-- The run of the compiler, as its runner tells it. -/
def compilation (r : Runner) (compiler : String) (source executable : Path) :
    Session Fault Result :=
  r.run (.text compiler :: ["build", "-o", executable.text, source.text].map .text) .nothing "Build"

theorem compile_ok_iff (r : Runner) (compiler : String) (source executable : Path) (w : World) :
    (compile r compiler source executable w).1 = .ok () ↔
      ∃ result, (compilation r compiler source executable w).1 = .ok result ∧
        result.termination = .exited 0 := by
  cases h : compilation r compiler source executable w with
  | mk ended v =>
    unfold compilation at h
    rw [compile, bind_apply, mapError_apply, h]
    cases ended with
    | error f => simp
    | ok result =>
      simp only [mapError_ok, Except.ok.injEq, exists_eq_left', ← Result.failure?_eq_none_iff]
      cases result.failure? with
      | none => exact iff_of_true rfl rfl
      | some failure =>
        refine iff_of_false (fun hok => ?_) (Option.some_ne_none failure)
        cases hok

/-- Whatever system faults its removals meet with, a build that cleans up is one that removes
nothing and a sweep after it: when the first file goes, each child has been started and has ended.
The source goes once and last, the executable goes once and before it where the compiler exited
with zero, and nothing else goes. The records tell the same in the same order. -/
theorem discards_in_order (hunlink : ∀ e ∈ w.faults.unlink, e.2.isOfSystem = true)
    (hfile : (written o sink source script w).1 = .ok file) (r : Runner) (args : List String) :
    let kept := buildAndRun r { o with noClean := true } sink source script args w
    let cleaned := buildAndRun r { o with noClean := false } sink source script args w
    let program := executableOf file
    let built := ∃ result,
      (compilation r o.compiler file program (written o sink source script w).2).1 = .ok result ∧
        result.termination = .exited 0
    ∃ (paths : List Path) (commands : List (List String)),
      (built → paths = [program, file]) ∧ (¬ built → paths = [file]) ∧
      program.text = file.text ++ Artifact.executableSuffix ∧
      kept.2.starts = w.starts ++ commands.map plainStart ∧
      kept.2.Alike (started (commands.map plainStart) (written o sink source script w).2) ∧
      cleaned.2.starts = kept.2.starts ∧ cleaned.2 = sweep paths kept.2 ∧
      (w.threshold = .debug →
        events kept.2 = events w ++ commands.map announcement ∧
        events cleaned.2 =
          events w ++ commands.map announcement ++ removals paths kept.2) := by
  intro kept cleaned program built
  have hsource := (isPresent_made (find_written hfile).1).1
  have hplain := plain_written hfile
  have hbuilt : (compiled r o sink source script w file).1 = .ok () ↔ built :=
    compile_ok_iff r o.compiler file program _
  have hswept : cleaned.2 = sweep (swept r o sink source script w) kept.2 := left_eq_sweep
  have hasides : ∀ message ∈ asides, message ∉ "Running command" :: outcomes := by decide
  obtain ⟨commands, records, hstarts, hrecords, hthreshold, hmentions⟩ := announces_buildAndRun
    (o := { o with noClean := true }) hasides (.inl rfl) r sink source script args w
  obtain ⟨ss, -, hstarted⟩ := left_alike_started hfile r args
  obtain rfl : ss = commands.map plainStart :=
    List.append_cancel_left ((starts_left hstarted).symm.trans hstarts)
  obtain ⟨tree, records', htidied⟩ : Tidied cleaned.2 kept.2 := tidied_left false
  refine ⟨swept r o sink source script w, commands, fun h => swept_of_compiled hfile (hbuilt.2 h),
    fun h => ?_, hsource.text_executableOf, hstarts, hstarted, by rw [htidied], hswept,
    fun hdebug => ?_⟩
  · cases hc : (compiled r o sink source script w file).1 with
    | ok => exact absurd (hbuilt.1 hc) h
    | error e => exact swept_of_uncompiled hfile hc
  · have hkept : events kept.2 = events w ++ commands.map announcement := by
      rw [events, hrecords, mentions_append, hmentions, hdebug]
      exact congrArg _ (mentions_announcements commands)
    obtain ⟨-, -, hfaults⟩ :=
      (discreet_buildAndRun (o := { o with noClean := true }) rfl r sink source script args).texts w
    have hpaths : ∀ p ∈ swept r o sink source script w, Plain p.text := by
      intro p hp
      obtain ⟨file', hfile', hp⟩ := mem_swept hp
      obtain rfl := Except.ok.inj (hfile.symm.trans hfile')
      rcases hp with rfl | rfl
      · exact hplain
      · exact hsource.plain_executableOf hplain
    refine ⟨hkept, ?_⟩
    rw [events, hswept, records_sweep (hthreshold.trans hdebug) hpaths (hfaults.symm ▸ hunlink),
      mentions_append, mentions_removals]
    exact congrArg (· ++ _) hkept

theorem discards_in_order_stuckExecutable :
    let file : Path := ⟨.single, ["tmp", "goscript-0badc0de-x.go"]⟩
    let w : World := { stuckExecutable with threshold := .debug }
    let build (noClean : Bool) := buildAndRun ⟨false, .reports⟩ { Options.default with noClean }
      (.channel .output) [] (.ofText "/x.go") [] w
    let denied : Fault :=
      .numbered 13 "Permission denied" (some "/tmp/goscript-0badc0de-x.go.exe")
    let commands := [["go", "build", "-o", (executableOf file).text, file.text],
      [(executableOf file).text, "/x.go"]]
    (∀ e ∈ w.faults.unlink, e.2.isOfSystem = true) ∧
      (written .default (.channel .output) [] (.ofText "/x.go") w).1 = .ok file ∧
      (build false).2.starts = commands.map plainStart ∧
      events (build true).2 = commands.map announcement ∧
      events (build false).2 = commands.map announcement ++
        [removal (executableOf file) (.error denied), removal file (.ok ())] := by
  intro file w build denied commands
  have hfile : (written .default (.channel .output) [] (.ofText "/x.go") w).1 = .ok file :=
    eq_ok_of_toOption (by decide +kernel)
  have hended : (build true).2.starts = commands.map plainStart := by decide +kernel
  have hremovals : removals [executableOf file, file] (build true).2 =
      [removal (executableOf file) (.error denied), removal file (.ok ())] := by decide +kernel
  obtain ⟨paths, commands', hpaths, -, -, hstarts, -, hcleaned, -, hevents⟩ :=
    discards_in_order (w := w) (o := .default) isOfSystem_stuckExecutable hfile ⟨false, .reports⟩ []
  obtain rfl : commands' = commands :=
    (List.map_inj_right fun _ _ h => congrArg Start.command h).1 (hstarts.symm.trans hended)
  obtain rfl := hpaths ⟨⟨commands[0], .exited 0, "", ""⟩, eq_ok_of_toOption (by decide +kernel), rfl⟩
  obtain ⟨hkept, hremoved⟩ := hevents rfl
  rw [show events w = [] from rfl, List.nil_append] at hkept hremoved
  exact ⟨isOfSystem_stuckExecutable, hfile, hcleaned.trans hended, hkept, hremovals ▸ hremoved⟩

end order

end ScriptLauncher.Build
