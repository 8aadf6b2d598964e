import ScriptLauncher.Proofs.Artifact.Tries
import ScriptLauncher.Proofs.Build.Status

/-! The ends that a build may come to: a result, one of the reasons that it has a name for, or an
exit with a status. What is left are faults that pass through it as they are. -/

namespace ScriptLauncher.Build

open Host Command Session
open Artifact (IsSource Unacceptable executableOf triedAt)

/-- An end that the build names: a result, a reason of its own, or an exit with a status that tells
of a failure. -/
def Documented : Except Stop Result → Prop
  | .ok _ => True
  | .error (.unwritable _) | .error (.notCompiled _) | .error (.notStarted _) => True
  | .error (.exit status) => status.code ≠ 0
  | .error (.fault _) => False

variable {r : Runner} {o : Options} {sink : Sink} {source : Bytes} {script file : Path}
  {args : List String} {u v w : World}

theorem documented_ending {result : Result} {started : Except Fault Child}
    (h : result.termination = .ofStart started) : Documented (ending result) := by
  unfold ending
  cases hended : result.termination with
  | exited code =>
    dsimp only
    split
    · trivial
    · next hcode => exact hcode
  | killed signal =>
    have hpos := pos_of_killed (h.symm.trans hended)
    show 128 + signal ≠ 0
    omega
  | unstarted f => trivial

/-- A build whose source is written ends as its children do. -/
theorem documented_of_written (hw : w.OfSystem)
    (hfile : (written o sink source script w).1 = .ok file) (r : Runner) (args : List String) :
    Documented (buildAndRun r o sink source script args w).1 := by
  cases hdry : r.dryRun with
  | true =>
    obtain ⟨result, hended⟩ := fst_of_dry hw hdry hfile args
    rw [hended]
    trivial
  | false =>
    rw [fst_of_written hw hdry hfile args]
    split
    · exact documented_ending rfl
    · trivial

theorem drawn_finished (hsource : IsSource file) (hplain : Artifact.Plain file.text)
    (hu : u.OfSystem) (r : Runner) (o : Options) (script : Path) (args : List String) :
    (finished r o script args file u).2.drawn = u.drawn := by
  have hstart (s : Start) (w : World) : (start s w).2.drawn = w.drawn := by
    obtain ⟨tree, children, h, -⟩ := start_eq s w
    rw [h]
  cases hdry : r.dryRun with
  | true =>
    obtain ⟨-, tree, records, h⟩ := finished_dry hdry hsource hplain hu.home hu.unlink o script args
    rw [h]
    rfl
  | false =>
    obtain ⟨⟨records, texts, hworld⟩, -⟩ := compile_start hdry hsource (.refl u) o.compiler
    rw [finished_of_isSource hsource, bind_apply]
    cases hcompiled : compile r o.compiler file (executableOf file) u with
    | mk result v =>
      rw [hcompiled] at hworld
      replace hworld : v = _ := hworld
      have hv : v.drawn = u.drawn := by rw [hworld, ← hstart (buildStart o.compiler file) u]
      cases result with
      | error e => exact hv
      | ok =>
        have hhome : ∀ f, v.homeText = .error f → f.isOfSystem = true := by
          rw [hworld]
          intro f hf
          exact hu.home f (homeText_start _ u ▸ hf)
        obtain ⟨⟨records', texts', hlaunch⟩, -⟩ :=
          launch_start hdry hsource (.refl v) hhome script args
        obtain ⟨tree, records'', htidied⟩ := tidied_withArtifact o.noClean (executableOf file)
          (launch r (executableOf file) script args) v
        dsimp only
        rw [htidied, hlaunch]
        exact (hstart _ v).trans hv

/-- All tokens are drawn before anything is compiled. -/
theorem drawn_buildAndRun (hw : w.OfSystem) (r : Runner) (o : Options) (sink : Sink)
    (source : Bytes) (script : Path) (args : List String) :
    (buildAndRun r o sink source script args w).2.drawn =
      (written o sink source script w).2.drawn := by
  cases hfile : (written o sink source script w).1 with
  | error e => rw [buildAndRun_of_error hfile]
  | ok file =>
    obtain ⟨tree, records, htidied⟩ := tidied_withArtifact o.noClean file
      (finished r o script args file) (written o sink source script w).2
    rw [buildAndRun_of_ok hfile, htidied]
    exact drawn_finished (isPresent_made (find_written hfile).1).1 (plain_written hfile)
      (ofSystem_written hw o sink source script) r o script args

/-- Where only faults of the system stand ready, a build ends as documented, unless the system
cannot take the path of the last token that is drawn. This fault passes through it. -/
theorem documented_iff (hw : w.OfSystem) (hsink : ∀ f, sink = .failing f → f.isReported = true)
    (r : Runner) (o : Options) (source : Bytes) (script : Path) (args : List String) :
    let ended := buildAndRun r o sink source script args w
    let path := triedAt script.name (o.directory.getD w.temporary) w
    ∃ last, ended.2.drawn = w.drawn + (last + 1) ∧
      (Documented ended.1 ↔ ¬ Unacceptable w (path last)) ∧
      (¬ Documented ended.1 → ended.1 = .error (.fault .embeddedNull)) := by
  intro ended path
  have hopened : opened o sink source w =
      (.ok (Scaffold.assemble source o.imports), (opened o sink source w).2) :=
    Prod.ext (opened_ok hsink source w) rfl
  -- the search starts in a world that differs from the first one in records and texts only
  obtain ⟨records, texts, halike⟩ := (opened_apply o sink source w).1
  obtain ⟨⟨records', texts', hworld⟩, hresult⟩ := written_of_ok hopened script
  have hdrawn : ended.2.drawn = _ := drawn_buildAndRun hw r o sink source script args
  rw [hworld, halike] at hdrawn
  rw [halike] at hresult
  obtain ⟨i, hi, hlast⟩ := Artifact.writeSource_refused (Scaffold.assemble source o.imports)
    script.name (o.directory.getD w.temporary) (w := { w with records, texts }) { hw with }
  refine ⟨i, hdrawn.trans hi, ?_⟩
  rcases hlast with ⟨hnull, hfound⟩ | ⟨hnot, hsystem⟩
  · have hended : ended.1 = .error (.fault .embeddedNull) := by
      show (buildAndRun r o sink source script args w).1 = _
      rw [hfound] at hresult
      rw [buildAndRun_of_error hresult]
      rfl
    rw [hended]
    exact ⟨iff_of_false id (not_not_intro hnull), fun _ => rfl⟩
  · have hdocumented : Documented ended.1 := by
      show Documented (buildAndRun r o sink source script args w).1
      cases hfound : (Artifact.writeSource (Scaffold.assemble source o.imports) script.name
          (o.directory.getD w.temporary) { w with records, texts }).1 with
      | error f =>
        rw [hfound, mapError_error, if_pos (hsystem f hfound)] at hresult
        rw [buildAndRun_of_error hresult]
        trivial
      | ok file =>
        rw [hfound] at hresult
        exact documented_of_written hw hresult r args
    exact ⟨iff_of_true hdocumented hnot, fun h => absurd hdocumented h⟩

theorem documented_iff_killedScript :
    let ended := buildAndRun ⟨false, .reports⟩ .default (.channel .output) [] (.ofText "/x.go") []
      killedScript
    killedScript.OfSystem ∧ Documented ended.1 := by
  intro ended
  obtain ⟨last, hlast, hiff, -⟩ := documented_iff ready_killedScript.ofSystem
    ready_killedScript.sink ⟨false, .reports⟩ .default [] (.ofText "/x.go") []
  have hdrawn : ended.2.drawn = 1 := rfl
  have hone : 1 = 0 + (last + 1) := hdrawn.symm.trans hlast
  obtain rfl : last = 0 := by omega
  refine ⟨ready_killedScript.ofSystem, hiff.2 ?_⟩
  rintro ⟨hnull, -⟩
  revert hnull
  decide

theorem not_forall_documented :
    ¬ ∀ (r : Runner) (o : Options) (sink : Sink) (source : Bytes) (script : Path)
      (args : List String) (w : World), w.OfSystem →
        (∀ f, sink = .failing f → f.isReported = true) →
          Documented (buildAndRun r o sink source script args w).1 := by
  intro h
  exact h ⟨false, .reports⟩ .default (.channel .output) [] (.ofText "a\x00b.go") [] killedScript
    ready_killedScript.ofSystem ready_killedScript.sink

end ScriptLauncher.Build
