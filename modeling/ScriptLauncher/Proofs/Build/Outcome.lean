import ScriptLauncher.Proofs.Build.Steps

/-! What a build starts and how it ends, where only the system's own faults can happen. -/

namespace ScriptLauncher.Build

open Host Command Session
open Artifact (IsSource executableOf Plain)

/-- A build that the system can only refuse by its own faults: those that stand ready are of
that kind, and no name that it makes has a null in it. -/
structure Ready (o : Options) (sink : Sink) (script : Path) (w : World) : Prop where
  ofSystem : w.OfSystem
  sink : ∀ f, sink = .failing f → f.isReported = true
  script : Plain script.text
  directory : Plain (o.directory.getD w.temporary).text
  tokens : ∀ token ∈ w.tokens, Plain token

/-- A step that ended so, with these starts made so far, and no fault of another kind ahead. -/
structure Ends {α : Type} (x : Except Stop α × World) (result : Except Stop α)
    (starts : List Start) : Prop where
  result : x.1 = result
  starts : x.2.starts = starts
  ofSystem : x.2.OfSystem

section

variable {α : Type} {x : Session Stop α} {result : Except Stop α} {starts : List Start}
  {v w : World} {p : Path}

theorem Ends.of_alike {y : Except Stop α × World} (h : y.1 = result) (hy : y.2.Alike v)
    (hstarts : v.starts = starts) (hv : v.OfSystem) : Ends y result starts := by
  refine ⟨h, ?_, hv.of_alike hy⟩
  obtain ⟨records, texts, hy⟩ := hy
  rw [hy]
  exact hstarts

theorem Ends.withArtifact (h : Ends (x w) result starts) (hp : Plain p.text) (noClean : Bool) :
    Ends (withArtifact noClean p x w) result starts := by
  cases noClean with
  | true => exact h
  | false =>
    obtain ⟨hworld, hok⟩ := discard_apply p (x w).2
    have hdiscard := hok fun f hf => World.isOfSystem_unlink h.ofSystem.unlink hp hf
    rw [withArtifact_false, ensuring_of_ok (Prod.ext hdiscard rfl)]
    obtain ⟨tree, htree, -⟩ := unlink_eq p (x w).2
    rw [htree] at hworld
    exact .of_alike h.result hworld h.starts (h.ofSystem.withTree tree)

end

theorem printSource_ok {sink : Sink} (h : ∀ f, sink = .failing f → f.isReported = true)
    (code : Bytes) (w : World) : (printSource code sink w).1 = .ok () := by
  rw [printSource, attempt_bind]
  cases sink with
  | channel c => rfl
  | failing f =>
    rw [show (dump code (.failing f) w).1 = .error f from rfl]
    dsimp only
    rw [if_pos (h f rfl)]
    rfl

theorem opened_ok {o : Options} {sink : Sink} (h : ∀ f, sink = .failing f → f.isReported = true)
    (source : Bytes) (w : World) :
    (opened o sink source w).1 = .ok (Scaffold.assemble source o.imports) := by
  rw [opened, lift_bind, (assembleNoted_apply source o.imports w).1]
  split
  · rw [bind_of_ok (Prod.ext (printSource_ok h _ _) rfl)]
    rfl
  · rfl

/-- The start that compiles a source. -/
def buildStart (compiler : String) (file : Path) : Start :=
  plainStart [compiler, "build", "-o", file.text ++ Artifact.executableSuffix, file.text]

/-- The start that runs what was compiled. -/
def runStart (home : Except Fault String) (file script : Path) (args : List String) : Start :=
  plainStart ((file.text ++ Artifact.executableSuffix) :: fullText home script :: args)

section

variable {r : Runner} {o : Options} {sink : Sink} {source : Bytes} {script : Path}
  {args : List String} {u v w : World} {file : Path}

theorem compileCommand_eq (hsource : IsSource file) (compiler : String) :
    compileCommand compiler file (executableOf file) = (buildStart compiler file).command := by
  rw [compileCommand, hsource.text_executableOf]
  rfl

theorem runStart_command (hsource : IsSource file) (home : Except Fault String) (script : Path)
    (args : List String) :
    (executableOf file).text :: fullText home script :: args =
      (runStart home file script args).command := by
  rw [hsource.text_executableOf]
  rfl

theorem compile_start (hreal : r.dryRun = false) (hsource : IsSource file) (hv : v.Alike u)
    (compiler : String) :
    let build := buildStart compiler file
    (compile r compiler file (executableOf file) v).2.Alike (start build u).2 ∧
      ((∀ f, (start build u).1 = .error f → f.isReported = true) →
        (compile r compiler file (executableOf file) v).1 =
          if Termination.ofStart (start build u).1 = .exited 0 then .ok ()
          else .error (.notCompiled ⟨build.command, .ofStart (start build u).1, "", ""⟩)) := by
  intro build
  have hcommand : compileCommand compiler file (executableOf file) = build.command :=
    compileCommand_eq hsource compiler
  obtain ⟨hsame, hstart⟩ := start_alike build hv
  obtain ⟨hworld, hresult⟩ := compile_real hreal compiler file (executableOf file) v
    (hcommand ▸ Prod.ext hsame rfl :
      start (plainStart (compileCommand compiler file (executableOf file))) v =
        ((start build u).1, (start build v).2))
  refine ⟨hworld.trans hstart, fun hf => ?_⟩
  rw [hresult hf, hcommand]

theorem launch_start (hreal : r.dryRun = false) (hsource : IsSource file) (hv : v.Alike u)
    (hhome : ∀ f, u.homeText = .error f → f.isOfSystem = true) (script : Path)
    (args : List String) :
    let run := runStart u.homeText file script args
    (launch r (executableOf file) script args v).2.Alike (start run u).2 ∧
      ((∀ f, (start run u).1 = .error f → f.isReported = true) →
        (launch r (executableOf file) script args v).1 =
          ending ⟨run.command, .ofStart (start run u).1, "", ""⟩) := by
  intro run
  have hsameHome : v.homeText = u.homeText := by
    obtain ⟨records, texts, rfl⟩ := hv
    rfl
  have hcommand : (executableOf file).text :: fullText v.homeText script :: args = run.command :=
    hsameHome ▸ runStart_command hsource v.homeText script args
  obtain ⟨hsame, hstart⟩ := start_alike run hv
  obtain ⟨hworld, hresult⟩ := launch_real hreal (executableOf file) script args v
    (fun f hf => hhome f (hsameHome ▸ hf))
    (hcommand ▸ Prod.ext hsame rfl :
      start (plainStart ((executableOf file).text :: fullText v.homeText script :: args)) v =
        ((start run u).1, (start run v).2))
  refine ⟨hworld.trans hstart, fun hf => ?_⟩
  rw [hresult hf, hcommand]

theorem launch_ends (hreal : r.dryRun = false) (hsource : IsSource file) (hv : v.Alike u)
    (hu : u.OfSystem) (script : Path) (args : List String) :
    Ends (launch r (executableOf file) script args v)
      (ending ⟨(runStart u.homeText file script args).command,
        .ofStart (start (runStart u.homeText file script args) u).1, "", ""⟩)
      (u.starts ++ [runStart u.homeText file script args]) := by
  obtain ⟨hworld, hresult⟩ := launch_start hreal hsource hv hu.home script args
  exact .of_alike (hresult fun f => isReported_start hu) hworld (starts_start _ u) (hu.start _)

theorem finished_ends (hreal : r.dryRun = false) (hsource : IsSource file)
    (hplain : Plain file.text) (hv : v.Alike u) (hu : u.OfSystem) (o : Options) (script : Path)
    (args : List String) :
    let build := buildStart o.compiler file
    let run := runStart u.homeText file script args
    if Termination.ofStart (start build u).1 = .exited 0 then
      Ends (finished r o script args file v)
        (ending ⟨run.command, .ofStart (start run (start build u).2).1, "", ""⟩)
        (u.starts ++ [build, run])
    else
      Ends (finished r o script args file v)
        (.error (.notCompiled ⟨build.command, .ofStart (start build u).1, "", ""⟩))
        (u.starts ++ [build]) := by
  intro build run
  have hexe := hsource.plain_executableOf hplain
  rw [finished_of_isSource hsource]
  obtain ⟨hworld, hresult⟩ := compile_start hreal hsource hv o.compiler
  replace hresult := hresult fun f => isReported_start hu
  split
  · next hok =>
    rw [if_pos hok] at hresult
    rw [bind_of_ok (Prod.ext hresult rfl)]
    apply Ends.withArtifact _ hexe
    have hlaunch := launch_ends hreal hsource hworld (hu.start build) script args
    rw [homeText_start, starts_start, List.append_assoc] at hlaunch
    exact hlaunch
  · next hfailed =>
    rw [if_neg hfailed] at hresult
    rw [bind_of_error (Prod.ext hresult rfl)]
    exact .of_alike rfl hworld (starts_start build u) (hu.start build)

theorem written_ends (hready : Ready o sink script w) (source : Bytes) :
    let found := Artifact.writeSource (Scaffold.assemble source o.imports) script.name
      (o.directory.getD w.temporary) (opened o sink source w).2
    (written o sink source script w).2.Alike found.2 ∧ found.2.OfSystem ∧
      found.2.starts = w.starts ∧ found.2.homeText = w.homeText ∧
      (∀ f, found.1 = .error f → (written o sink source script w).1 = .error (.unwritable f)) ∧
      ∀ file, found.1 = .ok file → (written o sink source script w).1 = .ok file ∧
        Plain file.text ∧ ∃ l, found.2.tree.find false found.2.home file =
          .ok (.taken l (.file (Scaffold.assemble source o.imports))) := by
  intro found
  have hopened : opened o sink source w =
      (.ok (Scaffold.assemble source o.imports), (opened o sink source w).2) :=
    Prod.ext (opened_ok hready.sink source w) rfl
  have halike := (opened_apply o sink source w).1
  obtain ⟨hworld, hresult⟩ := written_of_ok hopened script
  have hsearch := searches_made hopened script
  have hsame : (opened o sink source w).2.temporary = w.temporary ∧
      (opened o sink source w).2.tokens = w.tokens ∧
      (opened o sink source w).2.starts = w.starts ∧
      (opened o sink source w).2.homeText = w.homeText := by
    obtain ⟨records, texts, h⟩ := halike
    rw [h]
    exact ⟨rfl, rfl, rfl, rfl⟩
  obtain ⟨htemporary, htokens, hstarts, hhome⟩ := hsame
  rw [htemporary] at hworld hresult hsearch
  have hsystem := hready.ofSystem.of_alike halike
  have hfollows := hsearch.follows
  refine ⟨hworld, hfollows.ofSystem hsystem, hfollows.starts.trans hstarts,
    hfollows.homeText.trans hhome, fun f hf => ?_, fun file hfile => ?_⟩
  · rw [show (Artifact.writeSource _ _ _ _).1 = .error f from hf] at hresult hsearch
    have hsys : f.isOfSystem = true :=
      hsearch.isOfSystem hsystem (fun token ht => hready.tokens token (htokens ▸ ht))
        hready.directory (Artifact.plain_name hready.script)
    rw [hresult, mapError_error, if_pos hsys]
  · rw [show (Artifact.writeSource _ _ _ _).1 = .ok file from hfile] at hresult hsearch
    exact ⟨hresult, hsearch.plain, hsearch.find.2⟩

end

/-- A world whose compiler succeeds, and whose script is killed. -/
def killedScript : World :=
  { World.initial [] (.ofText "/tmp") .warning with
    tree := FileTree.empty.put ["tmp"] .directory
    tokens := ["0badc0de"]
    children := [Child.idle, { Child.idle with returnCode := -9 }] }

theorem ready_killedScript : Ready .default (.channel .output) (.ofText "/x.go") killedScript where
  ofSystem := {
    stat := fun _ h => by cases h
    create := fun _ h => by cases h
    write := fun _ h => by cases h
    unlink := fun _ h => by cases h
    children := by decide
    home := fun _ h => by cases h }
  sink := fun _ h => by cases h
  script := by decide
  directory := by decide
  tokens := by decide

end ScriptLauncher.Build
