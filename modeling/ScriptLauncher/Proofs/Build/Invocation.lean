import ScriptLauncher.Proofs.Artifact.Containment
import ScriptLauncher.Proofs.Build.DryRun

/-! Which program a build runs in the end. Its command names the file that was built, but the system
takes the name for a path only where there is a slash in it. -/

namespace ScriptLauncher.Build

open Host Command Session
open Artifact (IsSource executableOf candidate sourceName)
open ScriptLauncher.Path (Slashless)

variable {r : Runner} {o : Options} {sink : Sink} {source : Bytes} {script file : Path}
  {args : List String} {u v w : World}

theorem starts_finished_prefix (hreal : r.dryRun = false) (hsource : IsSource file)
    (hhome : ∀ f, u.homeText = .error f → f.isOfSystem = true) (o : Options) (script : Path)
    (args : List String) :
    ∃ more, more <+: [runStart u.homeText file script args] ∧
      (finished r o script args file u).2.starts =
        u.starts ++ buildStart o.compiler file :: more := by
  obtain ⟨hcompiled, -⟩ := compile_start hreal hsource (.refl u) o.compiler
  rw [finished_of_isSource hsource, bind_apply]
  cases hc : compile r o.compiler file (executableOf file) u with
  | mk result v =>
    rw [hc] at hcompiled
    cases result with
    | error e =>
      obtain ⟨records, texts, rfl⟩ := hcompiled
      exact ⟨[], List.nil_prefix, starts_start _ u⟩
    | ok =>
      obtain ⟨hlaunch, -⟩ := launch_start hreal hsource hcompiled
        (fun f hf => hhome f (homeText_start _ u ▸ hf)) script args
      obtain ⟨tree, records, htidied⟩ := tidied_withArtifact o.noClean (executableOf file)
        (launch r (executableOf file) script args) v
      obtain ⟨records', texts, hlaunch⟩ := hlaunch
      refine ⟨_, List.prefix_rfl, ?_⟩
      dsimp only
      rw [htidied, hlaunch]
      show (start _ _).2.starts = _
      rw [starts_start, starts_start, homeText_start, List.append_assoc]
      rfl

theorem candidate_written (hfile : (written o sink source script w).1 = .ok file) :
    ∃ token, file = candidate (o.directory.getD w.temporary) script.name token := by
  cases h : opened o sink source w with
  | mk result v =>
    cases result with
    | error e =>
      rw [(written_of_error h).2] at hfile
      cases hfile
    | ok code =>
      obtain ⟨records, texts, hv⟩ : v.Alike w := by
        have hworld := (opened_apply o sink source w).1
        rwa [h] at hworld
      have hsearches := searches_made h script
      have hresult := (written_of_ok h script).2
      rw [hfile] at hresult
      generalize (Artifact.writeSource code script.name (o.directory.getD v.temporary) v).1 = ended
        at hsearches hresult
      cases ended with
      | error f => cases hresult
      | ok file' =>
        cases hresult
        rw [show w.temporary = v.temporary by rw [hv]]
        exact hsearches.candidate

/-- A real run starts the compiler, and after it the program or nothing. -/
theorem starts_real (hfile : (written o sink source script w).1 = .ok file)
    (hhome : ∀ f, w.homeText = .error f → f.isOfSystem = true) (c : Channel) (args : List String) :
    ∃ more, more <+: [runStart w.homeText file script args] ∧
      (buildAndRun ⟨false, c⟩ o sink source script args w).2.starts =
        w.starts ++ buildStart o.compiler file :: more := by
  have hsource := (isPresent_made (find_written hfile).1).1
  obtain ⟨tree, tokens, drawn, records, hfound⟩ := written_texts o sink source script w
  have hhome' : (written o sink source script w).2.homeText = w.homeText := by rw [hfound]
  have hstarts' : (written o sink source script w).2.starts = w.starts := by rw [hfound]
  obtain ⟨more, hmore, hstarts⟩ := starts_finished_prefix (r := ⟨false, c⟩) rfl hsource
    (fun f hf => hhome f (hhome' ▸ hf)) o script args
  obtain ⟨_, _, htidied⟩ := tidied_withArtifact o.noClean file
    (finished ⟨false, c⟩ o script args file) (written o sink source script w).2
  rw [hhome'] at hmore
  rw [hstarts'] at hstarts
  refine ⟨more, hmore, ?_⟩
  rw [buildAndRun_of_ok hfile, htidied]
  exact hstarts

/-- Where the system looks for the program of a command. A word with a slash in it is the path of
the program; each other word is a name that is looked for in some directories in turn. -/
def lookups (search : List Path) (word : String) : List Path :=
  if '/' ∈ word.toList then [.ofText word] else search.map (·.join (.ofText word))

theorem lookups_eq_iff (word : String) :
    (∀ search, lookups search word = [.ofText word]) ↔ '/' ∈ word.toList := by
  refine ⟨fun h => Decidable.byContradiction fun hslash => ?_, fun hslash search => if_pos hslash⟩
  have hnowhere := h []
  rw [lookups, if_neg hslash] at hnowhere
  cases hnowhere

/-- Both commands of a build have the text of the executable, the first as what to build and the
second as what to run. Whatever directories the system searches for programs, it runs the file that
was built, unless this is to lie in the directory of relative paths. Then its text has no slash in
it, and the system runs some other program that it finds under this name, or none. -/
theorem runs_built_file_iff (hhome : ∀ f, w.homeText = .error f → f.isOfSystem = true)
    (hunlink : ∀ e ∈ w.faults.unlink, e.2.isOfSystem = true)
    (hfile : (written o sink source script w).1 = .ok file) (c : Channel) (args : List String) :
    let real := buildAndRun ⟨false, c⟩ o sink source script args w
    let dry := buildAndRun ⟨true, c⟩ o sink source script args w
    let found := written o sink source script w
    let directory := o.directory.getD w.temporary
    ∃ build run word token,
      (∃ more, more <+: [plainStart run] ∧ real.2.starts = w.starts ++ plainStart build :: more) ∧
      (Termination.ofStart (start (plainStart build) found.2).1 = .exited 0 →
        real.2.starts = w.starts ++ [plainStart build, plainStart run]) ∧
      dry.2.texts = found.2.texts ++ [(c, report "Build" build), (c, report "Run" run)] ∧
      build = [o.compiler, "build", "-o", word, file.text] ∧ run.head? = some word ∧
      file = candidate directory script.name token ∧
      ('/' ∈ word.toList ↔ directory ≠ .here ∨ ¬ Slashless (sourceName script.name token)) ∧
      ((∀ search, lookups search word = [.ofText word]) ↔ '/' ∈ word.toList) := by
  intro real dry found directory
  obtain ⟨token, htoken⟩ := candidate_written hfile
  obtain ⟨-, tree, records, hdry⟩ := dry_of_ok hfile hhome hunlink c args
  refine ⟨(buildStart o.compiler file).command, (runStart w.homeText file script args).command,
    file.text ++ Artifact.executableSuffix, token, starts_real hfile hhome c args,
    fun hok => starts_real_of_ok hfile hhome hok c args, ?_, rfl, rfl, htoken, ?_, lookups_eq_iff _⟩
  · rw [show dry.2 = _ from hdry]
    simp only [World.tell, List.append_assoc]
    rfl
  · rw [← Artifact.slash_mem_candidate, ← htoken, String.toList_append, List.mem_append]
    simp [Artifact.executableSuffix]

theorem runs_built_file_iff_killedScript :
    let real := buildAndRun ⟨false, .reports⟩ .default (.channel .output) [] (.ofText "/x.go") []
      killedScript
    let word := "/tmp/goscript-0badc0de-x.go.exe"
    (∀ f, killedScript.homeText = .error f → f.isOfSystem = true) ∧
      (∀ e ∈ killedScript.faults.unlink, e.2.isOfSystem = true) ∧
      real.2.starts = [plainStart ["go", "build", "-o", word, "/tmp/goscript-0badc0de-x.go"],
        plainStart [word, "/x.go"]] ∧
      ∀ search, lookups search word = [.ofText word] := by
  intro real word
  have hready := ready_killedScript.ofSystem
  have hended : real.2.starts = [plainStart ["go", "build", "-o", word,
    "/tmp/goscript-0badc0de-x.go"], plainStart [word, "/x.go"]] := rfl
  have hfile : (written .default (.channel .output) [] (.ofText "/x.go") killedScript).1 =
      .ok ⟨.single, ["tmp", "goscript-0badc0de-x.go"]⟩ := rfl
  obtain ⟨build, run, word', token, ⟨more, -, hstarts⟩, -, -, rfl, -, -, hslash, hlookups⟩ :=
    runs_built_file_iff hready.home hready.unlink hfile .reports []
  have hfirst := (List.cons.inj (hstarts.symm.trans hended)).1
  obtain rfl : word' = word := Option.some.inj (congrArg (·.command[3]?) hfirst)
  exact ⟨hready.home, hready.unlink, hended, hlookups.2 (hslash.2 (.inl (by decide)))⟩

/-- Files that are made in the directory of relative paths. -/
theorem not_forall_runs_built_file :
    ¬ ∀ (o : Options) (sink : Sink) (source : Bytes) (script : Path) (args : List String)
      (w : World) (build run : List String),
      (buildAndRun ⟨false, .reports⟩ o sink source script args w).2.starts =
        w.starts ++ [plainStart build, plainStart run] →
      ∃ word, run.head? = some word ∧ build[3]? = some word ∧ '/' ∈ word.toList := by
  intro h
  obtain ⟨word, hrun, -, hslash⟩ := h { Options.default with directory := some (.ofText ".") }
    (.channel .output) [] (.ofText "/x.go") [] killedScript
    ["go", "build", "-o", "goscript-0badc0de-x.go.exe", "goscript-0badc0de-x.go"]
    ["goscript-0badc0de-x.go.exe", "/x.go"] rfl
  cases hrun
  exact absurd hslash (by decide)

end ScriptLauncher.Build
