import ScriptLauncher.Proofs.Build.Keeping

/-! Removals that fail. Each leaves one warning and its own file behind; the other file goes all
the same, and nothing of this shows in how the build ends, what it starts and what it writes. -/

namespace ScriptLauncher.Build

open Host Command Session
open Artifact (executableOf Plain)

section sweep

variable {v w : World} {p : Path} {paths : List Path} {l : Location} {f : Fault}

def warnings (w : World) : List Record := w.records.filter (·.level = .warning)

/-- The record of a removal that fails. -/
def refusal (p : Path) (f : Fault) : Record :=
  ⟨.warning, .build,
    detailed "Failed to remove temporary file" [("path", p.text), ("error", f.message)]⟩

/-- One record for each path in turn whose removal fails. -/
def refusals : List Path → World → List Record
  | [], _ => []
  | p :: paths, w =>
    match (unlink p w).1 with
    | .ok () => refusals paths (Build.discard p w).2
    | .error f => refusal p f :: refusals paths (Build.discard p w).2

theorem records_unlink (p : Path) (w : World) : (unlink p w).2.records = w.records := by
  obtain ⟨tree, htree, -⟩ := unlink_eq p w
  rw [htree]
  rfl

theorem unlinkFaults_discard (p : Path) (w : World) :
    (Build.discard p w).2.faults.unlink = w.faults.unlink := by
  obtain ⟨tree, records, h⟩ := tidied_discard p w
  rw [h]

theorem warnings_note_debug (component : Component) (message : String)
    (details : List (String × String)) (w : World) :
    warnings (note .debug component message details w).2 = warnings w := by
  show warnings (if Level.passes .debug w.threshold then _ else w) = warnings w
  split
  · simp [warnings]
  · rfl

theorem warnings_note_warning (component : Component) (message : String)
    (details : List (String × String)) (w : World) :
    warnings (note .warning component message details w).2 =
      warnings w ++ [⟨.warning, component, detailed message details⟩] := by
  show (w.records ++ _).filter _ = _
  simp [warnings]

theorem discard_of_ok (h : (unlink p w).1 = .ok ()) :
    (Build.discard p w).2 = (note .debug .build "Removed temporary file" [("path", p.text)]
      (unlink p w).2).2 := by
  rw [Build.discard, attempt_bind, h]
  rfl

theorem discard_of_error (h : (unlink p w).1 = .error f) (hf : f.isOfSystem = true) :
    (Build.discard p w).2 = (note .warning .build "Failed to remove temporary file"
      [("path", p.text), ("error", f.message)] (unlink p w).2).2 := by
  rw [Build.discard, attempt_bind, h]
  dsimp only
  rw [if_pos hf]
  rfl

/-- Each removal that fails gives one warning, and nothing else in a sweep gives any. -/
theorem warnings_sweep (hpaths : ∀ p ∈ paths, Plain p.text)
    (hunlink : ∀ e ∈ w.faults.unlink, e.2.isOfSystem = true) :
    warnings (sweep paths w) = warnings w ++ refusals paths w := by
  induction paths generalizing w with
  | nil => simp [sweep, refusals]
  | cons p paths ih =>
    have hrest := ih (fun q hq => hpaths q (List.mem_cons_of_mem p hq))
      ((unlinkFaults_discard p w).symm ▸ hunlink)
    have hkept : warnings (unlink p w).2 = warnings w := by rw [warnings, records_unlink, warnings]
    show warnings (sweep paths (Build.discard p w).2) = _
    rw [hrest, refusals]
    cases h : (unlink p w).1 with
    | ok => rw [discard_of_ok h, warnings_note_debug, hkept]
    | error f =>
      have hf := World.isOfSystem_unlink hunlink (hpaths p List.mem_cons_self) h
      rw [discard_of_error h hf, warnings_note_warning, hkept, List.append_assoc]
      rfl

theorem unlink_alike (p : Path) (h : v.Alike w) : (unlink p v).2.Alike (unlink p w).2 := by
  obtain ⟨records, texts, rfl⟩ := h
  rw [unlink_apply, unlink_apply,
    show ({ w with records, texts } : World).removable p = w.removable p from rfl]
  cases w.removable p with
  | error f => exact ⟨records, texts, rfl⟩
  | ok l? => cases l? <;> exact ⟨records, texts, rfl⟩

theorem sweep_alike (paths : List Path) (h : v.Alike w) :
    (sweep paths v).Alike (sweep paths w) := by
  induction paths generalizing v w with
  | nil => exact h
  | cons p paths ih =>
    exact ih (((discard_apply p v).1.trans (unlink_alike p h)).trans (discard_apply p w).1.symm)

/-- A sweep leaves alone what stands where none of its paths leads. -/
theorem node?_sweep
    (h : ∀ p ∈ paths, ∀ n, w.tree.find false w.home p ≠ .ok (.taken l n)) :
    (sweep paths w).tree.node? l = w.tree.node? l := by
  induction paths generalizing w with
  | nil => rfl
  | cons p paths ih =>
    obtain ⟨records, hdiscard⟩ := (discard_noted p w).1
    obtain ⟨tree, htree, hextends⟩ := unlink_eq p w
    have hkept : (unlink p w).2.tree.node? l = w.tree.node? l := by
      rw [unlink_apply]
      cases hr : w.removable p with
      | error f => rfl
      | ok m? =>
        cases m? with
        | none => rfl
        | some m =>
          obtain ⟨-, -, n, hfind, -⟩ := World.removable_eq_some_iff.1 hr
          refine FileTree.node?_remove_ne _ ?_
          rintro rfl
          exact h p List.mem_cons_self n hfind
    show (sweep paths (Build.discard p w).2).tree.node? l = _
    rw [hdiscard]
    refine (ih fun q hq n hfind => h q (List.mem_cons_of_mem p hq) n ?_).trans hkept
    rw [htree] at hfind
    exact hextends.find hfind

end sweep

section masks

variable {r : Runner} {o : Options} {sink : Sink} {source : Bytes} {script file : Path}
  {args : List String} {w : World}

/-- A compiler that exits with zero has the executable removed as well. -/
theorem swept_of_exited (hfile : (written o sink source script w).1 = .ok file)
    (hcompiled : r.dryRun = false → Termination.ofStart (start (buildStart o.compiler file)
      (written o sink source script w).2).1 = .exited 0) :
    swept r o sink source script w = [executableOf file, file] := by
  have hsource := (isPresent_made (find_written hfile).1).1
  refine swept_of_compiled hfile ?_
  unfold compiled
  cases hdry : r.dryRun with
  | true => rw [compile_dry hdry]
  | false =>
    have hok := hcompiled hdry
    have hresult := (compile_start hdry hsource (.refl _) o.compiler).2 fun f hf => by
      rw [hf] at hok
      cases hok
    rw [hresult, if_pos hok]

/-- A build that keeps its files does not depend on what removing them would meet with. -/
theorem kept_of_unlink (r : Runner) (o : Options) (sink : Sink) (source : Bytes) (script : Path)
    (args : List String) (w : World) (unlink : List (String × Fault)) :
    ∃ records,
      buildAndRun r { o with noClean := true } sink source script args
          { w with faults := { w.faults with unlink } } =
        ((buildAndRun r { o with noClean := true } sink source script args w).1,
          (left r o sink source script args w true).veil unlink records
            (left r o sink source script args w true).texts) := by
  have hdiscreet : Discreet (buildAndRun r { o with noClean := true } sink source script args) :=
    discreet_buildAndRun rfl r sink source script args
  obtain ⟨said, hrun⟩ := hdiscreet w
  obtain ⟨records, hself⟩ := hrun w.faults.unlink w.records w.texts
  obtain ⟨records', hother⟩ := hrun unlink w.records w.texts
  have htexts : (left r o sink source script args w true).texts = w.texts ++ said := by
    rw [World.veil_self] at hself
    exact congrArg (World.texts ∘ Prod.snd) hself
  exact ⟨records', htexts ▸ hother⟩

/-- Whatever system faults its removals meet with, a build that cleans up after a compiler that
exited with zero ends, starts and writes as where there are none, and as where nothing is removed.
What its children left is removed if its own removal does not fail, each failed removal gives one
warning, and what stands anywhere else stays as the children left it. -/
theorem cleanup_masks_nothing (hunlink : ∀ e ∈ w.faults.unlink, e.2.isOfSystem = true)
    (hfile : (written o sink source script w).1 = .ok file)
    (hcompiled : r.dryRun = false → Termination.ofStart (start (buildStart o.compiler file)
      (written o sink source script w).2).1 = .exited 0) (args : List String) :
    let cleaned := buildAndRun r { o with noClean := false } sink source script args w
    let unhindered := buildAndRun r { o with noClean := false } sink source script args
      { w with faults := { w.faults with unlink := [] } }
    let kept := buildAndRun r { o with noClean := true } sink source script args w
    let paths := [executableOf file, file]
    (cleaned.1 = unhindered.1 ∧ cleaned.2.starts = unhindered.2.starts ∧
      cleaned.2.texts = unhindered.2.texts) ∧
    (cleaned.1 = kept.1 ∧ cleaned.2.starts = kept.2.starts ∧ cleaned.2.texts = kept.2.texts) ∧
    (∃ ss, kept.2.starts = w.starts ++ ss ∧
      kept.2.Alike (started ss (written o sink source script w).2)) ∧
    (∀ p ∈ paths, cleaned.2.isPresent p = true → Refused paths kept.2 p) ∧
    warnings cleaned.2 = warnings kept.2 ++ refusals paths kept.2 ∧
    ∀ l, (∀ p ∈ paths, ∀ n, kept.2.tree.find false kept.2.home p ≠ .ok (.taken l n)) →
      cleaned.2.tree.node? l = kept.2.tree.node? l := by
  intro cleaned unhindered kept paths
  have hsource := (isPresent_made (find_written hfile).1).1
  have hplain := plain_written hfile
  have hswept : cleaned.2 = sweep paths kept.2 := by
    show left r o sink source script args w false = _
    rw [left_eq_sweep, swept_of_exited hfile hcompiled]
    rfl
  have hcleaned : cleaned.1 = kept.1 := fst_noClean hunlink false
  obtain ⟨records, hkept⟩ := kept_of_unlink r o sink source script args w []
  have hunhindered : unhindered.1 = kept.1 := by
    refine (fst_noClean (w := { w with faults := { w.faults with unlink := [] } })
      nofun false).trans ?_
    rw [hkept]
  obtain ⟨tree, records', htidied⟩ : Tidied cleaned.2 kept.2 := tidied_left false
  obtain ⟨tree', records'', htidied'⟩ : Tidied unhindered.2 _ :=
    tidied_left (w := { w with faults := { w.faults with unlink := [] } }) false
  rw [left, hkept] at htidied'
  obtain ⟨ss, -, hstarted⟩ := left_alike_started hfile r args
  obtain ⟨-, -, hfaults⟩ :=
    (discreet_buildAndRun (o := { o with noClean := true }) rfl r sink source script args).texts w
  refine ⟨⟨hcleaned.trans hunhindered.symm, ?_, ?_⟩, ⟨hcleaned, ?_, ?_⟩,
    ⟨ss, starts_left hstarted, hstarted⟩, fun p hp hpresent => ?_, ?_, fun l hl => ?_⟩
  · rw [htidied, htidied']
    rfl
  · rw [htidied, htidied']
    rfl
  · rw [htidied]
  · rw [htidied]
  · rw [hswept] at hpresent
    exact refused_of_isPresent hp hpresent
  · rw [hswept]
    refine warnings_sweep (fun p hp => ?_) (hfaults.symm ▸ hunlink)
    rcases List.mem_cons.1 hp with rfl | hp
    · exact hsource.plain_executableOf hplain
    · exact List.mem_singleton.1 hp ▸ hplain
  · rw [hswept]
    exact node?_sweep hl

/-- A world whose compiler leaves a product that cannot be removed, and whose script is killed. -/
def stuckExecutable : World :=
  { World.initial [] (.ofText "/tmp") .warning with
    tree := FileTree.empty.put ["tmp"] .directory
    faults := { Faults.none with
      unlink := [("/tmp/goscript-0badc0de-x.go.exe", .numbered 13 "Permission denied" none)] }
    tokens := ["0badc0de"]
    children := [{ Child.idle with product := some .file }, { Child.idle with returnCode := -9 }] }

theorem isOfSystem_stuckExecutable :
    ∀ e ∈ stuckExecutable.faults.unlink, e.2.isOfSystem = true := by
  decide

theorem cleanup_masks_nothing_stuckExecutable :
    let file : Path := ⟨.single, ["tmp", "goscript-0badc0de-x.go"]⟩
    let build (noClean : Bool) (w : World) := buildAndRun ⟨false, .reports⟩
      { Options.default with noClean } (.channel .output) [] (.ofText "/x.go") [] w
    let found := written .default (.channel .output) [] (.ofText "/x.go") stuckExecutable
    let denied : Fault :=
      .numbered 13 "Permission denied" (some "/tmp/goscript-0badc0de-x.go.exe")
    (∀ e ∈ stuckExecutable.faults.unlink, e.2.isOfSystem = true) ∧ found.1 = .ok file ∧
      Termination.ofStart (start (buildStart defaultCompiler file) found.2).1 = .exited 0 ∧
      (build false stuckExecutable).1 = .error (.exit ⟨137⟩) ∧
      (build true stuckExecutable).1 = .error (.exit ⟨137⟩) ∧
      (build false stuckExecutable).2.isPresent (executableOf file) = true ∧
      Refused [executableOf file, file] (build true stuckExecutable).2 (executableOf file) ∧
      (build false stuckExecutable).2.isPresent file = false ∧
      warnings (build false stuckExecutable).2 = [refusal (executableOf file) denied] := by
  intro file build found denied
  have hfile : found.1 = .ok file := rfl
  have hcompiled : Termination.ofStart (start (buildStart defaultCompiler file) found.2).1 =
      .exited 0 := by decide +kernel
  obtain ⟨-, ⟨hresult, -⟩, -, hrefused, hwarnings, -⟩ := cleanup_masks_nothing
    (r := ⟨false, .reports⟩) isOfSystem_stuckExecutable hfile (fun _ => hcompiled) []
  have hended : (build true stuckExecutable).1 = .error (.exit ⟨137⟩) := rfl
  have hstuck : (build false stuckExecutable).2.isPresent (executableOf file) = true := by
    decide +kernel
  exact ⟨isOfSystem_stuckExecutable, hfile, hcompiled, hresult.trans hended, hended, hstuck,
    hrefused _ List.mem_cons_self hstuck, by decide +kernel, hwarnings.trans (by decide +kernel)⟩

end masks

end ScriptLauncher.Build
