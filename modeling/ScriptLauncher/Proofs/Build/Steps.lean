import ScriptLauncher.Build
import ScriptLauncher.Proofs.Artifact.Search
import ScriptLauncher.Proofs.Command.Runner

/-! The steps of a build, each by what it does to a world that differs from the one after it
in records and texts only. -/

namespace ScriptLauncher.Build

open Host Command Session

variable {u v w : World} {p : Path}

theorem readNoted_noted (source : Bytes) (w : World) :
    (Script.readNoted source w).2.Noted w := by
  show World.Noted (((Script.Reading.ofSource source).note source) w).2 w
  unfold Script.Reading.note
  cases (Script.Reading.ofSource source).body with
  | none => exact note_noted _ _ _ _ w
  | some body => exact note_noted _ _ _ _ w

theorem assembleNoted_apply (source : Bytes) (imports : List Scaffold.Import) (w : World) :
    (Script.assembleNoted source imports w).1 = Scaffold.assemble source imports ∧
      (Script.assembleNoted source imports w).2.Noted w :=
  ⟨rfl, (note_noted _ _ _ _ _).trans (readNoted_noted source w)⟩

/-- What printing some code writes: the code and a newline, or nothing where writing fails. -/
def printed (code : Bytes) : Sink → List (Channel × String)
  | .channel c => [(c, Utf8.decode code), (c, "\n")]
  | .failing _ => []

theorem printSource_texts (code : Bytes) (sink : Sink) (w : World) :
    (printSource code sink w).2.Noted { w with texts := w.texts ++ printed code sink } := by
  cases sink with
  | channel c =>
    refine ⟨w.records, ?_⟩
    show { w with texts := w.texts ++ [(c, Utf8.decode code)] ++ [(c, "\n")] } = _
    rw [List.append_assoc]
    rfl
  | failing f =>
    rw [printSource, attempt_bind, show dump code (.failing f) w = (.error f, w) from rfl, printed,
      List.append_nil]
    dsimp only
    split
    · exact note_noted _ _ _ _ w
    · exact .refl w

/-- What comes before anything is made: the code, and maybe a dump of it. -/
def opened (o : Options) (sink : Sink) (source : Bytes) : Session Stop Bytes := do
  let code ← Script.assembleNoted source o.imports
  if o.showSource then printSource code sink
  return code

def written (o : Options) (sink : Sink) (source : Bytes) (script : Path) : Session Stop Path := do
  writeSource (← opened o sink source) script.name o.directory

@[simp] theorem withArtifact_true {α : Type} (p : Path) (x : Session Stop α) :
    withArtifact true p x = x := rfl

@[simp] theorem withArtifact_false {α : Type} (p : Path) (x : Session Stop α) :
    withArtifact false p x = ensuring x (Build.discard p) := rfl

def finished (r : Runner) (o : Options) (script : Path) (args : List String) (file : Path) :
    Session Stop Result := do
  let executable ← mapError .fault (ask fun _ => Artifact.executable file)
  compile r o.compiler file executable
  withArtifact o.noClean executable (launch r executable script args)

theorem buildAndRun_eq (r : Runner) (o : Options) (sink : Sink) (source : Bytes) (script : Path)
    (args : List String) :
    buildAndRun r o sink source script args = (do
      let file ← written o sink source script
      withArtifact o.noClean file (finished r o script args file)) := by
  cases h : o.showSource <;>
    simp [buildAndRun, written, opened, finished, h]

/-- What a build writes before it makes anything. -/
def shown (o : Options) (sink : Sink) (source : Bytes) : List (Channel × String) :=
  if o.showSource then printed (Scaffold.assemble source o.imports) sink else []

theorem opened_texts (o : Options) (sink : Sink) (source : Bytes) (w : World) :
    (opened o sink source w).2.Noted { w with texts := w.texts ++ shown o sink source } ∧
      ∀ code, (opened o sink source w).1 = .ok code → code = Scaffold.assemble source o.imports := by
  obtain ⟨hcode, records, hworld⟩ := assembleNoted_apply source o.imports w
  rw [opened, lift_bind, hcode, hworld, shown]
  split
  · rw [bind_apply]
    have hprint := printSource_texts (Scaffold.assemble source o.imports) sink { w with records }
    cases hresult : printSource (Scaffold.assemble source o.imports) sink { w with records } with
    | mk result u =>
      rw [hresult] at hprint
      obtain ⟨records', rfl⟩ := hprint
      cases result with
      | ok => exact ⟨⟨records', rfl⟩, fun code h => (Except.ok.inj h).symm⟩
      | error e => exact ⟨⟨records', rfl⟩, fun code h => by cases h⟩
  · refine ⟨⟨records, ?_⟩, fun code h => (Except.ok.inj h).symm⟩
    rw [List.append_nil]
    rfl

theorem opened_apply (o : Options) (sink : Sink) (source : Bytes) (w : World) :
    (opened o sink source w).2.Alike w ∧
      ∀ code, (opened o sink source w).1 = .ok code → code = Scaffold.assemble source o.imports := by
  obtain ⟨⟨records, hworld⟩, hcode⟩ := opened_texts o sink source w
  exact ⟨⟨records, _, hworld⟩, hcode⟩

theorem finished_of_executable {file executable : Path}
    (h : Artifact.executable file = .ok executable) (r : Runner) (o : Options) (script : Path)
    (args : List String) (w : World) :
    finished r o script args file w =
      (do
        compile r o.compiler file executable
        withArtifact o.noClean executable (launch r executable script args) :
          Session Stop Result) w := by
  rw [finished, bind_apply, mapError_apply, ask_apply, h]
  rfl

theorem finished_of_isSource {file : Path} (h : Artifact.IsSource file) (r : Runner) (o : Options)
    (script : Path) (args : List String) (w : World) :
    finished r o script args file w =
      (do
        compile r o.compiler file (Artifact.executableOf file)
        withArtifact o.noClean (Artifact.executableOf file)
          (launch r (Artifact.executableOf file) script args) : Session Stop Result) w :=
  finished_of_executable h.executable r o script args w

theorem writeSource_apply (code : Bytes) (script : String) (directory : Option Path) (w : World) :
    (writeSource code script directory w).2.Noted
        (Artifact.writeSource code script (directory.getD w.temporary) w).2 ∧
      (writeSource code script directory w).1 =
        (Artifact.writeSource code script (directory.getD w.temporary) w).1.mapError
          (fun f => if f.isOfSystem then .unwritable f else .fault f) := by
  rw [writeSource, bind_apply, get_apply]
  dsimp only
  rw [attempt_bind]
  cases Artifact.writeSource code script (directory.getD w.temporary) w with
  | mk result v =>
    cases result with
    | ok p => exact ⟨note_noted _ _ _ _ v, rfl⟩
    | error f =>
      dsimp only
      split
      · next hf => exact ⟨note_noted _ _ _ _ v, by simp [hf]⟩
      · next hf => exact ⟨.refl v, by simp [hf]⟩

theorem discard_noted (p : Path) (w : World) :
    (Build.discard p w).2.Noted (unlink p w).2 ∧
      ((∀ f, (unlink p w).1 = .error f → f.isOfSystem = true) →
        (Build.discard p w).1 = .ok ()) := by
  rw [Build.discard, attempt_bind]
  cases unlink p w with
  | mk result v =>
    cases result with
    | ok => exact ⟨note_noted _ _ _ _ v, fun _ => rfl⟩
    | error f =>
      dsimp only
      split
      · exact ⟨note_noted _ _ _ _ v, fun _ => rfl⟩
      · next hf => exact ⟨.refl v, fun h => absurd (h f rfl) hf⟩

theorem discard_apply (p : Path) (w : World) :
    (Build.discard p w).2.Alike (unlink p w).2 ∧
      ((∀ f, (unlink p w).1 = .error f → f.isOfSystem = true) →
        (Build.discard p w).1 = .ok ()) :=
  ⟨(discard_noted p w).1.alike, (discard_noted p w).2⟩

def compileCommand (compiler : String) (source executable : Path) : List String :=
  [compiler, "build", "-o", executable.text, source.text]

theorem compile_dry {r : Runner} (h : r.dryRun = true) (compiler : String)
    (source executable : Path) (w : World) :
    compile r compiler source executable w =
      (.ok (), w.tell r.reports (report "Build" (compileCommand compiler source executable))) := by
  rw [compile, bind_apply, mapError_apply, Runner.run_dry h]
  rfl

theorem compile_real {r : Runner} (h : r.dryRun = false) (compiler : String)
    (source executable : Path) (w : World) {result : Except Fault Child} {v : World}
    (hstart : start (plainStart (compileCommand compiler source executable)) w = (result, v)) :
    (compile r compiler source executable w).2.Alike v ∧
      ((∀ f, result = .error f → f.isReported = true) →
        (compile r compiler source executable w).1 =
          if Termination.ofStart result = .exited 0 then .ok ()
          else .error (.notCompiled
            ⟨compileCommand compiler source executable, .ofStart result, "", ""⟩)) := by
  obtain ⟨hworld, hresult⟩ := spawn_apply (compileCommand compiler source executable) w
  rw [hstart] at hworld hresult
  have hrun : r.run (.text compiler :: ["build", "-o", executable.text, source.text].map .text)
      .nothing "Build" w = spawn (compileCommand compiler source executable) .nothing w :=
    Runner.run_real h _ _ w
  rw [compile, bind_apply, mapError_apply, hrun]
  generalize spawn (compileCommand compiler source executable) .nothing w = ended
    at hworld hresult ⊢
  obtain ⟨ended, u⟩ := ended
  cases ended with
  | error f => exact ⟨hworld, fun hf => by cases hresult hf⟩
  | ok result' =>
    rw [mapError_ok]
    dsimp only
    cases hfailure : result'.failure? with
    | none =>
      refine ⟨hworld, fun hf => ?_⟩
      cases hresult hf
      rw [if_pos ((Result.failure?_eq_none_iff _).1 hfailure)]
      rfl
    | some failure =>
      refine ⟨(note_alike _ _ _ _ u).trans hworld, fun hf => ?_⟩
      cases hresult hf
      rw [if_neg fun h => by cases ((Result.failure?_eq_none_iff _).2 h).symm.trans hfailure]
      rfl

/-- The absolute text of a path, or its own text where its place has no name. -/
def fullText (home : Except Fault String) (p : Path) : String :=
  match home with
  | .ok home => ((Path.ofText home).join p).text
  | .error _ => p.text

theorem scriptWord_apply (p : Path) (w : World) :
    (scriptWord p w).2.Noted w ∧
      ((∀ f, w.homeText = .error f → f.isOfSystem = true) →
        (scriptWord p w).1 = .ok (fullText w.homeText p)) := by
  rw [scriptWord]
  cases habsolute : p.isAbsolute with
  | true =>
    refine ⟨.refl w, fun _ => ?_⟩
    show Except.ok p.text = _
    unfold fullText
    split
    · rw [Path.join_absolute habsolute]
    · rfl
  | false =>
    rw [if_neg (by decide), bind_apply, get_apply]
    dsimp only
    cases hhome : w.homeText with
    | ok home => exact ⟨.refl w, fun _ => rfl⟩
    | error f =>
      dsimp only
      split
      · exact ⟨note_noted _ _ _ _ w, fun _ => rfl⟩
      · next hf => exact ⟨.refl w, fun h => absurd (h f rfl) hf⟩

/-- What a build ends with when its script was run. -/
def ending (result : Result) : Except Stop Result :=
  match result.termination with
  | .exited code => if code = 0 then .ok result else .error (.exit ⟨code⟩)
  | .killed signal => .error (.exit ⟨128 + signal⟩)
  | .unstarted _ => .error (.notStarted result)

/-- The exit code is looked at first: what never started has none of its own and fails later. -/
theorem ending_of_start {result : Result} {started : Except Fault Child}
    (h : result.termination = .ofStart started) :
    ending result = if result.exitCode ≠ 0 then .error (.exit ⟨result.exitCode⟩)
      else if result.failure? = none then .ok result else .error (.notStarted result) := by
  simp only [Result.failure?_eq_none_iff]
  unfold ending Result.exitCode
  rw [h]
  cases started with
  | error f => rfl
  | ok child =>
    by_cases hneg : child.returnCode < 0
    · rw [Termination.ofStart, Termination.ofReturnCode_of_neg hneg, if_pos]
      · rfl
      · show ¬ 128 + -child.returnCode = 0
        omega
    · rw [Termination.ofStart, Termination.ofReturnCode_of_nonneg (Int.not_lt.1 hneg)]
      dsimp only [Termination.exitCode]
      by_cases hzero : child.returnCode = 0 <;> simp [hzero]

theorem launch_real {r : Runner} (h : r.dryRun = false) (executable script : Path)
    (args : List String) (w : World) {result : Except Fault Child} {v : World}
    (hhome : ∀ f, w.homeText = .error f → f.isOfSystem = true)
    (hstart : start (plainStart (executable.text :: fullText w.homeText script :: args)) w =
      (result, v)) :
    (launch r executable script args w).2.Alike v ∧
      ((∀ f, result = .error f → f.isReported = true) →
        (launch r executable script args w).1 =
          ending ⟨executable.text :: fullText w.homeText script :: args, .ofStart result, "", ""⟩) := by
  obtain ⟨hsame, hword⟩ := scriptWord_apply script w
  replace hword := hword hhome
  rw [launch]
  generalize fullText w.homeText script = word at hstart hword ⊢
  cases hu : scriptWord script w with
  | mk argument u =>
    rw [hu] at hsame hword
    cases hword
    obtain ⟨hstart', hv⟩ := start_alike (plainStart (executable.text :: word :: args)) hsame.alike
    rw [hstart] at hstart' hv
    obtain ⟨hworld, hspawn⟩ := spawn_apply (executable.text :: word :: args) u
    rw [hstart'] at hspawn
    replace hworld := hworld.trans hv
    have hrun : r.run (.path executable :: (word :: args).map .text) .nothing "Run" u =
        spawn (executable.text :: word :: args) .nothing u := by
      rw [Runner.run_real h]
      simp [Value.display, Function.comp_def]
    rw [bind_of_ok hu, bind_apply, mapError_apply, hrun]
    generalize spawn (executable.text :: word :: args) .nothing u = ended at hworld hspawn ⊢
    obtain ⟨ended, x⟩ := ended
    cases ended with
    | error f => exact ⟨hworld, fun hf => by cases hspawn hf⟩
    | ok ended =>
      have hending (hf : ∀ f, result = .error f → f.isReported = true) :
          ending ⟨executable.text :: word :: args, .ofStart result, "", ""⟩ =
            if ended.exitCode ≠ 0 then .error (.exit ⟨ended.exitCode⟩)
            else if ended.failure? = none then .ok ended else .error (.notStarted ended) := by
        cases hspawn hf
        exact ending_of_start rfl
      rw [mapError_ok]
      dsimp only
      by_cases hcode : ended.exitCode = 0
      · rw [if_neg (Decidable.not_not.2 hcode)]
        cases hfailure : ended.failure? with
        | none =>
          refine ⟨hworld, fun hf => ?_⟩
          rw [hending hf, if_neg (Decidable.not_not.2 hcode), if_pos hfailure]
          rfl
        | some failure =>
          refine ⟨(note_alike _ _ _ _ x).trans hworld, fun hf => ?_⟩
          rw [hending hf, if_neg (Decidable.not_not.2 hcode), if_neg (by rw [hfailure]; nofun)]
          rfl
      · rw [if_pos hcode]
        refine ⟨(note_alike _ _ _ _ x).trans hworld, fun hf => ?_⟩
        rw [hending hf, if_pos hcode]
        rfl

/-- A script that is only reported ends well. -/
theorem launch_dry {r : Runner} (h : r.dryRun = true) (executable script : Path)
    (args : List String) (w : World) (hhome : ∀ f, w.homeText = .error f → f.isOfSystem = true) :
    let command := executable.text :: fullText w.homeText script :: args
    (launch r executable script args w).1 = .ok ⟨command, .exited 0, "", ""⟩ ∧
      (launch r executable script args w).2.Noted (w.tell r.reports (report "Run" command)) := by
  intro command
  obtain ⟨hsame, hword⟩ := scriptWord_apply script w
  replace hword := hword hhome
  rw [launch]
  cases hu : scriptWord script w with
  | mk argument u =>
    rw [hu] at hsame hword
    cases hword
    have hcommand : (Value.path executable :: (fullText w.homeText script :: args).map .text).map
        Value.display = command := by
      simp [command, Value.display, Function.comp_def]
    rw [bind_of_ok hu, bind_apply, mapError_apply, Runner.run_dry h, hcommand]
    obtain ⟨records, rfl⟩ := hsame
    exact ⟨rfl, records, rfl⟩

section made

variable (o : Options) (sink : Sink) (source : Bytes) (script : Path) (w : World)

def made : List Path :=
  match opened o sink source w with
  | (.ok code, v) => Artifact.made code script.name (o.directory.getD v.temporary) v
  | (.error _, _) => []

variable {o sink source script w}

theorem written_of_error {e : Stop} {v : World} (h : opened o sink source w = (.error e, v)) :
    made o sink source script w = [] ∧ written o sink source script w = (.error e, v) := by
  constructor
  · rw [made, h]
  · rw [written, bind_of_error h]

theorem searches_made {code : Bytes} {v : World} (h : opened o sink source w = (.ok code, v))
    (script : Path) :
    Artifact.Searches code script.name (o.directory.getD v.temporary) v
      (made o sink source script w)
      (Artifact.writeSource code script.name (o.directory.getD v.temporary) v).1
      (Artifact.writeSource code script.name (o.directory.getD v.temporary) v).2 := by
  rw [made, h]
  exact Artifact.searches _ _ _ _ v

theorem written_of_ok {code : Bytes} {v : World} (h : opened o sink source w = (.ok code, v))
    (script : Path) :
    (written o sink source script w).2.Alike
        (Artifact.writeSource code script.name (o.directory.getD v.temporary) v).2 ∧
      (written o sink source script w).1 =
        (Artifact.writeSource code script.name (o.directory.getD v.temporary) v).1.mapError
          (fun f => if f.isOfSystem then .unwritable f else .fault f) := by
  rw [written, bind_of_ok h]
  obtain ⟨hworld, hresult⟩ := writeSource_apply code script.name o.directory v
  exact ⟨hworld.alike, hresult⟩

theorem isPresent_made {s : Path} (hs : s ∈ made o sink source script w) :
    Artifact.IsSource s ∧ (written o sink source script w).2.isPresent s = true := by
  cases h : opened o sink source w with
  | mk result v =>
    cases result with
    | error e =>
      rw [(written_of_error h).1] at hs
      cases hs
    | ok code =>
      rw [(written_of_ok h script).1.isPresent]
      exact (searches_made h script).isPresent hs

/-- A source that is written was searched for, with the assembled code to put into it. -/
theorem searches_written {s : Path} (hs : (written o sink source script w).1 = .ok s) :
    ∃ u v directory, Artifact.Searches (Scaffold.assemble source o.imports) script.name directory u
      (made o sink source script w) (.ok s) v ∧ (written o sink source script w).2.Alike v := by
  cases h : opened o sink source w with
  | mk result u =>
    cases result with
    | error e =>
      rw [(written_of_error h).2] at hs
      cases hs
    | ok code =>
      obtain rfl := (opened_apply o sink source w).2 code (by rw [h])
      obtain ⟨hworld, hresult⟩ := written_of_ok h script
      have hsearches := searches_made h script
      rw [hs] at hresult
      generalize Artifact.writeSource _ script.name (o.directory.getD u.temporary) u = found
        at hworld hresult hsearches
      obtain ⟨ended, v⟩ := found
      cases ended with
      | error f => cases hresult
      | ok s' =>
        cases hresult
        exact ⟨u, v, _, hsearches, hworld⟩

theorem find_written {s : Path} (hs : (written o sink source script w).1 = .ok s) :
    s ∈ made o sink source script w ∧
      ∃ l, (written o sink source script w).2.tree.find false
        (written o sink source script w).2.home s =
          .ok (.taken l (.file (Scaffold.assemble source o.imports))) := by
  obtain ⟨u, v, directory, hsearches, records, texts, hworld⟩ := searches_written hs
  rw [hworld]
  exact hsearches.find

theorem plain_written {s : Path} (hs : (written o sink source script w).1 = .ok s) :
    Artifact.Plain s.text := by
  obtain ⟨u, v, directory, hsearches, -⟩ := searches_written hs
  exact hsearches.plain

end made

end ScriptLauncher.Build
