import ScriptLauncher.Proofs.Build.Outcome

/-! A dry run is a run whose starts are only reported: it makes and removes the same source, it
ends well, and its reports name the commands that a real run would start. -/

namespace ScriptLauncher.Build

open Host Command Session
open Artifact (IsSource executableOf Plain)

section

variable {r : Runner} {o : Options} {sink : Sink} {source : Bytes} {script file p : Path}
  {args : List String} {u v w : World} {c : Channel}

/-- A world in which only files have come or gone since, and records. -/
def Tidied (v w : World) : Prop := ∃ tree records, v = { w with tree, records }

theorem Tidied.of_noted (h : v.Noted w) : Tidied v w := by
  obtain ⟨records, rfl⟩ := h
  exact ⟨w.tree, records, rfl⟩

theorem Tidied.trans (h : Tidied u v) (h' : Tidied v w) : Tidied u w := by
  obtain ⟨tree, records, rfl⟩ := h
  obtain ⟨_, _, rfl⟩ := h'
  exact ⟨tree, records, rfl⟩

theorem tidied_discard (p : Path) (w : World) : Tidied (Build.discard p w).2 w := by
  obtain ⟨tree, htree, -⟩ := unlink_eq p w
  have hnoted := (discard_noted p w).1
  rw [htree] at hnoted
  obtain ⟨records, h⟩ := hnoted
  exact ⟨tree, records, h⟩

theorem tidied_withArtifact {α : Type} (noClean : Bool) (p : Path) (x : Session Stop α)
    (w : World) : Tidied (withArtifact noClean p x w).2 (x w).2 := by
  cases noClean with
  | true => exact .of_noted (.refl _)
  | false =>
    rw [withArtifact_false, ensuring_snd]
    exact tidied_discard p (x w).2

/-- Removing a file changes no outcome, since each way in which it can fail is a record only. -/
theorem withArtifact_fst {α : Type} {x : Session Stop α} (hp : Plain p.text)
    (hunlink : ∀ e ∈ (x w).2.faults.unlink, e.2.isOfSystem = true) (noClean : Bool) :
    (withArtifact noClean p x w).1 = (x w).1 := by
  cases noClean with
  | true => rfl
  | false =>
    have hdiscard := (discard_noted p (x w).2).2 fun f => World.isOfSystem_unlink hunlink hp
    rw [withArtifact_false, ensuring_of_ok (Prod.ext hdiscard rfl)]

theorem textOn_append {texts : List (Channel × String)} (h : w.texts = v.texts ++ texts)
    (c : Channel) :
    w.textOn c = v.textOn c ++ String.join ((texts.filter (·.1 = c)).map (·.2)) := by
  rw [World.textOn, World.textOn, h, List.filter_append, List.map_append, String.join_append]

/-- What a search for a name leaves as it was. -/
theorem written_texts (o : Options) (sink : Sink) (source : Bytes) (script : Path) (w : World) :
    ∃ tree tokens drawn records, (written o sink source script w).2 =
      { w with tree, tokens, drawn, records, texts := w.texts ++ shown o sink source } := by
  obtain ⟨⟨records, hopened⟩, -⟩ := opened_texts o sink source w
  cases h : opened o sink source w with
  | mk result v =>
    rw [h] at hopened
    cases hopened
    cases result with
    | error e =>
      rw [(written_of_error h).2]
      exact ⟨w.tree, w.tokens, w.drawn, records, rfl⟩
    | ok code =>
      obtain ⟨tree, tokens, drawn, hfollows, -⟩ := (searches_made h script).follows
      obtain ⟨records', hwritten⟩ := (writeSource_apply code script.name o.directory _).1
      rw [written, bind_of_ok h, hwritten]
      refine ⟨tree, tokens, drawn, records', ?_⟩
      rw [show (Artifact.writeSource code script.name _ _).2 = _ from hfollows]

theorem home_written (o : Options) (sink : Sink) (source : Bytes) (script : Path) (w : World) :
    (written o sink source script w).2.home = w.home := by
  obtain ⟨tree, tokens, drawn, records, h⟩ := written_texts o sink source script w
  rw [h]

theorem faults_written (o : Options) (sink : Sink) (source : Bytes) (script : Path) (w : World) :
    (written o sink source script w).2.faults = w.faults := by
  obtain ⟨tree, tokens, drawn, records, h⟩ := written_texts o sink source script w
  rw [h]

theorem buildAndRun_of_error {e : Stop} (h : (written o sink source script w).1 = .error e)
    (r : Runner) (args : List String) :
    buildAndRun r o sink source script args w = (.error e, (written o sink source script w).2) := by
  rw [buildAndRun_eq, bind_of_error (Prod.ext h rfl)]

theorem buildAndRun_of_ok (h : (written o sink source script w).1 = .ok file) (r : Runner)
    (args : List String) :
    buildAndRun r o sink source script args w =
      withArtifact o.noClean file (finished r o script args file)
        (written o sink source script w).2 := by
  rw [buildAndRun_eq, bind_of_ok (Prod.ext h rfl)]

theorem finished_dry (hdry : r.dryRun = true) (hsource : IsSource file) (hplain : Plain file.text)
    (hhome : ∀ f, u.homeText = .error f → f.isOfSystem = true)
    (hunlink : ∀ e ∈ u.faults.unlink, e.2.isOfSystem = true) (o : Options) (script : Path)
    (args : List String) :
    let build := (buildStart o.compiler file).command
    let run := (runStart u.homeText file script args).command
    (finished r o script args file u).1 = .ok ⟨run, .exited 0, "", ""⟩ ∧
      Tidied (finished r o script args file u).2
        ((u.tell r.reports (report "Build" build)).tell r.reports (report "Run" run)) := by
  intro build run
  have hexe := hsource.plain_executableOf hplain
  rw [finished_of_isSource hsource, bind_of_ok (compile_dry hdry _ _ _ _),
    compileCommand_eq hsource]
  obtain ⟨hresult, hnoted⟩ := launch_dry hdry (executableOf file) script args
    (u.tell r.reports (report "Build" build)) hhome
  rw [show (u.tell r.reports (report "Build" build)).homeText = u.homeText from rfl,
    runStart_command hsource] at hresult hnoted
  have hkept : ∀ e ∈ (launch r (executableOf file) script args
      (u.tell r.reports (report "Build" build))).2.faults.unlink, e.2.isOfSystem = true := by
    obtain ⟨records, h⟩ := hnoted
    rw [h]
    exact hunlink
  exact ⟨(withArtifact_fst hexe hkept o.noClean).trans hresult,
    (tidied_withArtifact o.noClean _ _ _).trans (.of_noted hnoted)⟩

/-- Where the compiler exits with zero, the program is started next, and nothing after it. -/
theorem starts_finished (hreal : r.dryRun = false) (hsource : IsSource file)
    (hhome : ∀ f, u.homeText = .error f → f.isOfSystem = true) (o : Options) (script : Path)
    (args : List String)
    (hok : Termination.ofStart (start (buildStart o.compiler file) u).1 = .exited 0) :
    (finished r o script args file u).2.starts =
      u.starts ++ [buildStart o.compiler file, runStart u.homeText file script args] := by
  obtain ⟨hworld, hresult⟩ := compile_start hreal hsource (.refl u) o.compiler
  replace hresult := hresult fun f hf => by
    rw [hf] at hok
    cases hok
  rw [if_pos hok] at hresult
  obtain ⟨hlaunch, -⟩ := launch_start hreal hsource hworld
    (fun f hf => hhome f (homeText_start _ u ▸ hf)) script args
  rw [homeText_start] at hlaunch
  rw [finished_of_isSource hsource, bind_of_ok (Prod.ext hresult rfl)]
  obtain ⟨tree, records, htidied⟩ := tidied_withArtifact o.noClean (executableOf file)
    (launch r (executableOf file) script args) (compile r o.compiler file (executableOf file) u).2
  obtain ⟨records', texts, hlaunch⟩ := hlaunch
  rw [htidied, hlaunch]
  show (start _ _).2.starts = _
  rw [starts_start, starts_start, List.append_assoc]
  rfl

/-- Once a source is written, a dry run ends well, and its world differs from the one at that time
in two reports, files and records only. -/
theorem dry_of_ok (hfile : (written o sink source script w).1 = .ok file)
    (hhome : ∀ f, w.homeText = .error f → f.isOfSystem = true)
    (hunlink : ∀ e ∈ w.faults.unlink, e.2.isOfSystem = true) (c : Channel) (args : List String) :
    let build := (buildStart o.compiler file).command
    let run := (runStart w.homeText file script args).command
    (buildAndRun ⟨true, c⟩ o sink source script args w).1 = .ok ⟨run, .exited 0, "", ""⟩ ∧
      Tidied (buildAndRun ⟨true, c⟩ o sink source script args w).2
        (((written o sink source script w).2.tell c (report "Build" build)).tell c
          (report "Run" run)) := by
  intro build run
  have hsource := (isPresent_made (find_written hfile).1).1
  have hplain := plain_written hfile
  obtain ⟨tree, tokens, drawn, records, hfound⟩ := written_texts o sink source script w
  have hhome' : (written o sink source script w).2.homeText = w.homeText := by rw [hfound]
  have hfaults : (written o sink source script w).2.faults = w.faults := by rw [hfound]
  obtain ⟨hresult, hworld⟩ := finished_dry (r := ⟨true, c⟩) rfl hsource hplain
    (fun f hf => hhome f (hhome' ▸ hf)) (hfaults ▸ hunlink) o script args
  rw [hhome'] at hresult hworld
  have hkept : ∀ e ∈ (finished ⟨true, c⟩ o script args file
      (written o sink source script w).2).2.faults.unlink, e.2.isOfSystem = true := by
    obtain ⟨_, _, h⟩ := hworld
    rw [h]
    exact hfaults ▸ hunlink
  rw [buildAndRun_of_ok hfile]
  exact ⟨(withArtifact_fst hplain hkept o.noClean).trans hresult,
    (tidied_withArtifact o.noClean file _ _).trans hworld⟩

/-- Once a source is written, a real run starts two commands if its compiler exits with zero. -/
theorem starts_real_of_ok (hfile : (written o sink source script w).1 = .ok file)
    (hhome : ∀ f, w.homeText = .error f → f.isOfSystem = true)
    (hok : Termination.ofStart (start (buildStart o.compiler file)
      (written o sink source script w).2).1 = .exited 0) (c : Channel) (args : List String) :
    (buildAndRun ⟨false, c⟩ o sink source script args w).2.starts =
      w.starts ++ [buildStart o.compiler file, runStart w.homeText file script args] := by
  have hsource := (isPresent_made (find_written hfile).1).1
  obtain ⟨tree, tokens, drawn, records, hfound⟩ := written_texts o sink source script w
  have hhome' : (written o sink source script w).2.homeText = w.homeText := by rw [hfound]
  have hstarts' : (written o sink source script w).2.starts = w.starts := by rw [hfound]
  have hstarts := starts_finished (r := ⟨false, c⟩) rfl hsource
    (fun f hf => hhome f (hhome' ▸ hf)) o script args hok
  obtain ⟨_, _, h⟩ := tidied_withArtifact o.noClean file
    (finished ⟨false, c⟩ o script args file) (written o sink source script w).2
  rw [hhome', hstarts'] at hstarts
  rw [buildAndRun_of_ok hfile, h]
  exact hstarts

/-- A dry run ends as the real one does where no source can be written, with nothing reported.
Otherwise it ends well, starts nothing and takes no child away, whatever the children would do, and
reports two commands. They are those that the real run starts when its compiler exits with zero. -/
theorem dry_run_reports (c c' : Channel) (o : Options) (sink : Sink) (source : Bytes)
    (script : Path) (args : List String) (w : World)
    (hhome : ∀ f, w.homeText = .error f → f.isOfSystem = true)
    (hunlink : ∀ e ∈ w.faults.unlink, e.2.isOfSystem = true) :
    let dry := buildAndRun ⟨true, c⟩ o sink source script args w
    let real := buildAndRun ⟨false, c'⟩ o sink source script args w
    let found := written o sink source script w
    (∀ e, found.1 = .error e → dry.1 = .error e ∧ real.1 = .error e ∧
      dry.2.starts = w.starts ∧ real.2.starts = w.starts ∧
      dry.2.texts = w.texts ++ shown o sink source) ∧
    ∀ file, found.1 = .ok file →
      let build := buildStart o.compiler file
      let run := runStart w.homeText file script args
      dry.1 = .ok ⟨run.command, .exited 0, "", ""⟩ ∧
        dry.2.starts = w.starts ∧ dry.2.children = w.children ∧
        dry.2.texts = w.texts ++ shown o sink source ++
          [(c, report "Build" build.command), (c, report "Run" run.command)] ∧
        ((∀ e ∈ shown o sink source, e.1 ≠ c) → dry.2.textOn c =
          w.textOn c ++ (report "Build" build.command ++ report "Run" run.command)) ∧
        (Termination.ofStart (start build found.2).1 = .exited 0 →
          real.2.starts = w.starts ++ [build, run]) := by
  intro dry real found
  obtain ⟨tree, tokens, drawn, records, hfound⟩ := written_texts o sink source script w
  refine ⟨fun e he => ?_, fun file hfile => ?_⟩
  · rw [show dry = _ from buildAndRun_of_error he _ args,
      show real = _ from buildAndRun_of_error he _ args, hfound]
    exact ⟨rfl, rfl, rfl, rfl, rfl⟩
  · intro build run
    obtain ⟨hresult, tree', records', hworld⟩ := dry_of_ok hfile hhome hunlink c args
    have hlast : dry.2 = _ := hworld
    rw [show written o sink source script w = found from rfl, show found.2 = _ from hfound] at hlast
    have htexts : dry.2.texts = w.texts ++ (shown o sink source ++
        [(c, report "Build" build.command), (c, report "Run" run.command)]) := by
      rw [hlast]
      simp only [World.tell, List.append_assoc]
      rfl
    refine ⟨hresult, by rw [hlast]; rfl, by rw [hlast]; rfl, ?_, fun hshown => ?_, fun hok => ?_⟩
    · rw [htexts, List.append_assoc]
    · have hnone : (shown o sink source).filter (·.1 = c) = [] :=
        List.filter_eq_nil_iff.2 fun e he => by simpa using hshown e he
      rw [textOn_append htexts, List.filter_append, hnone]
      simp
    · exact starts_real_of_ok hfile hhome hok c' args

theorem dry_run_reports_killedScript :
    let dry := buildAndRun ⟨true, .reports⟩ .default (.channel .output) [] (.ofText "/x.go") ["-v"]
      killedScript
    let real := buildAndRun ⟨false, .reports⟩ .default (.channel .output) [] (.ofText "/x.go")
      ["-v"] killedScript
    (∀ f, killedScript.homeText = .error f → f.isOfSystem = true) ∧
      (∀ e ∈ killedScript.faults.unlink, e.2.isOfSystem = true) ∧
      dry.1 = .ok ⟨["/tmp/goscript-0badc0de-x.go.exe", "/x.go", "-v"], .exited 0, "", ""⟩ ∧
      dry.2.starts = [] ∧ dry.2.children = killedScript.children ∧
      dry.2.textOn .reports =
        "Build: go build -o /tmp/goscript-0badc0de-x.go.exe /tmp/goscript-0badc0de-x.go\n" ++
          "Run: /tmp/goscript-0badc0de-x.go.exe /x.go -v\n" ∧
      real.2.starts =
        [⟨["go", "build", "-o", "/tmp/goscript-0badc0de-x.go.exe", "/tmp/goscript-0badc0de-x.go"],
            false, false⟩,
          ⟨["/tmp/goscript-0badc0de-x.go.exe", "/x.go", "-v"], false, false⟩] := by
  intro dry real
  have hready := ready_killedScript.ofSystem
  obtain ⟨hresult, hstarts, hchildren, -, htexts, hreal⟩ := (dry_run_reports .reports .reports
    .default (.channel .output) [] (.ofText "/x.go") ["-v"] killedScript hready.home
    hready.unlink).2 ⟨.single, ["tmp", "goscript-0badc0de-x.go"]⟩ rfl
  have hshown : ∀ e ∈ shown .default (.channel .output) [], e.1 ≠ .reports := by
    simp [shown, Options.default]
  exact ⟨hready.home, hready.unlink, hresult, hstarts, hchildren, htexts hshown, hreal rfl⟩

end

end ScriptLauncher.Build
