import ScriptLauncher.Proofs.Build.Cleanup
import ScriptLauncher.Proofs.Build.DryRun
import ScriptLauncher.Proofs.Host.Discreet

/-! A build that keeps its files, to which each other build comes before it removes anything. It
is discreet, and what it does to files after it has written its source is what its children do. -/

namespace ScriptLauncher.Build

open Host Command Session
open Artifact (IsSource executableOf Plain)

section discreet

theorem discreet_writeOnce (content : Bytes) (script : String) (directory : Path) :
    Discreet (Artifact.writeOnce content script directory) := by
  have hwrite (p : Path) : Discreet (Artifact.write content p) := by
    have hfresh := (discreet_create p).bind fun l => discreet_fill p l content
    refine (discreet_ask fun _ _ _ _ => rfl).bind fun taken => ?_
    cases taken with
    | true => exact (discreet_throw _).bind fun _ => hfresh
    | false => exact hfresh
  refine discreet_drawToken.bind fun token => (hwrite _).attempt.bind fun tried => ?_
  cases tried with
  | ok => exact discreet_pure _
  | error f =>
    dsimp only
    split
    · exact discreet_pure _
    · exact discreet_throw f

theorem discreet_search {content : Bytes} {script : String} {directory : Path} :
    Discreet (Artifact.writeSource content script directory) := by
  have hwithin (n : Nat) : Discreet (Artifact.writeWithin content script directory n) := by
    induction n with
    | zero => exact discreet_throw _
    | succ n ih =>
      refine (discreet_writeOnce content script directory).bind fun found => ?_
      cases found with
      | some p => exact discreet_pure p
      | none => exact ih
  exact fun w => hwithin (Artifact.draws w) w

theorem discreet_writeSource (code : Bytes) (script : String) (directory : Option Path) :
    Discreet (writeSource code script directory) := by
  refine discreet_get_bind (fun w => discreet_search.attempt.bind fun found => ?_)
    fun _ _ _ _ => rfl
  cases found with
  | ok p => exact discreet_note.bind fun _ => discreet_pure p
  | error f =>
    dsimp only
    split
    · exact discreet_note.bind fun _ => discreet_throw _
    · exact discreet_throw _

theorem discreet_printSource (code : Bytes) (sink : Sink) : Discreet (printSource code sink) := by
  have hdump : Discreet (dump code sink) :=
    (discreet_write _ sink).bind fun _ => discreet_write _ sink
  refine hdump.attempt.bind fun printed => ?_
  cases printed with
  | ok => exact discreet_pure ()
  | error f =>
    dsimp only
    split
    · exact discreet_note
    · exact discreet_throw _

theorem discreet_assembleNoted (source : Bytes) (imports : List Scaffold.Import) :
    Discreet (liftM (Script.assembleNoted source imports) : Session Stop Bytes) := by
  refine discreet_of_silent fun w unlink records texts => ?_
  obtain ⟨hcode, records', hworld⟩ := assembleNoted_apply source imports w
  obtain ⟨hcode', records'', hworld'⟩ :=
    assembleNoted_apply source imports (w.veil unlink records texts)
  refine ⟨records'', ?_⟩
  rw [lift_apply, lift_apply, hcode, hcode', hworld, hworld']
  rfl

theorem discreet_opened (o : Options) (sink : Sink) (source : Bytes) :
    Discreet (opened o sink source) := by
  refine (discreet_assembleNoted source o.imports).bind fun code => ?_
  split
  · exact (discreet_printSource code sink).bind fun _ => discreet_pure code
  · exact discreet_pure code

theorem discreet_run {r : Runner} {words : List Value} {capture : Capture} {label : String} :
    Discreet (r.run words capture label) := by
  unfold Runner.run
  dsimp only
  split
  · exact discreet_say.bind fun _ => discreet_pure _
  · refine discreet_note.bind fun _ => (discreet_start _).attempt.bind fun started => ?_
    cases started with
    | error f =>
      dsimp only
      split
      · exact discreet_note.bind fun _ => discreet_pure _
      · exact discreet_throw f
    | ok child =>
      dsimp only
      split
      · exact discreet_note.bind fun _ => discreet_pure _
      · exact discreet_pure _

theorem discreet_compile (r : Runner) (compiler : String) (source executable : Path) :
    Discreet (compile r compiler source executable) := by
  refine (discreet_run.mapError _).bind fun result => ?_
  cases result.failure? with
  | none => exact discreet_pure ()
  | some failure => exact discreet_note.bind fun _ => discreet_throw _

theorem discreet_scriptWord (p : Path) : Discreet (scriptWord p) := by
  unfold scriptWord
  split
  · exact discreet_pure p.text
  · refine discreet_get_bind (fun w => ?_) fun _ _ _ _ => rfl
    cases w.homeText with
    | ok home => exact discreet_pure _
    | error f =>
      dsimp only
      split
      · exact discreet_note.bind fun _ => discreet_pure p.text
      · exact discreet_throw _

theorem discreet_launch (r : Runner) (executable script : Path) (args : List String) :
    Discreet (launch r executable script args) := by
  refine (discreet_scriptWord script).bind fun word =>
    (discreet_run.mapError _).bind fun result => ?_
  dsimp only
  split
  · exact discreet_note.bind fun _ => discreet_throw _
  · cases result.failure? with
    | none => exact discreet_pure result
    | some failure => exact discreet_note.bind fun _ => discreet_throw _

theorem discreet_written (o : Options) (sink : Sink) (source : Bytes) (script : Path) :
    Discreet (written o sink source script) :=
  (discreet_opened o sink source).bind fun code => discreet_writeSource code script.name o.directory

theorem discreet_finished {o : Options} (h : o.noClean = true) (r : Runner) (script : Path)
    (args : List String) (file : Path) : Discreet (finished r o script args file) := by
  refine ((discreet_ask fun _ _ _ _ => rfl).mapError _).bind fun executable =>
    (discreet_compile r o.compiler file executable).bind fun _ => ?_
  rw [h]
  exact discreet_launch r executable script args

/-- A build that keeps its files can tell no two worlds apart that differ in records, texts and
faults of removals only. -/
theorem discreet_buildAndRun {o : Options} (h : o.noClean = true) (r : Runner) (sink : Sink)
    (source : Bytes) (script : Path) (args : List String) :
    Discreet (buildAndRun r o sink source script args) := by
  rw [buildAndRun_eq]
  refine (discreet_written o sink source script).bind fun file => ?_
  rw [h]
  exact discreet_finished h r script args file

end discreet

section delegates

/-- The world after some starts in turn. -/
def started (ss : List Start) (w : World) : World := ss.foldl (fun w s => (start s w).2) w

/-- A step that leaves all changes, but for records and texts, to the children that it starts; a
dry one starts none. -/
def Delegates {ε α : Type} (dry : Bool) (x : Session ε α) : Prop :=
  ∀ w, ∃ ss, (dry = true → ss = []) ∧ (x w).2.Alike (started ss w)

variable {ε δ α β : Type} {dry : Bool} {v w : World}

theorem started_append (ss ss' : List Start) (w : World) :
    started (ss ++ ss') w = started ss' (started ss w) :=
  List.foldl_append

theorem started_alike (ss : List Start) (h : v.Alike w) :
    (started ss v).Alike (started ss w) := by
  induction ss generalizing v w with
  | nil => exact h
  | cons s ss ih => exact ih (start_alike s h).2

theorem starts_started (ss : List Start) (w : World) :
    (started ss w).starts = w.starts ++ ss := by
  induction ss generalizing w with
  | nil => exact (List.append_nil _).symm
  | cons s ss ih =>
    show (started ss (start s w).2).starts = _
    rw [ih, starts_start, List.append_assoc]
    rfl

theorem delegates_of_alike {x : Session ε α} (h : ∀ w, (x w).2.Alike w) : Delegates dry x :=
  fun w => ⟨[], fun _ => rfl, h w⟩

theorem delegates_note {level : Level} {component : Component} {message : String}
    {details : List (String × String)} :
    Delegates dry (liftM (note level component message details) : Session ε Unit) :=
  delegates_of_alike fun w => note_alike level component message details w

theorem Delegates.bind {x : Session ε α} {f : α → Session ε β} (hx : Delegates dry x)
    (hf : ∀ a, Delegates dry (f a)) : Delegates dry (x >>= f) := by
  intro w
  obtain ⟨ss, hdry, hx⟩ := hx w
  rw [bind_apply]
  cases h : x w with
  | mk result v =>
    rw [h] at hx
    cases result with
    | error e => exact ⟨ss, hdry, hx⟩
    | ok a =>
      obtain ⟨ss', hdry', hf⟩ := hf a v
      refine ⟨ss ++ ss', fun h => by rw [hdry h, hdry' h, List.append_nil], ?_⟩
      rw [started_append]
      exact hf.trans (started_alike ss' hx)

theorem Delegates.mapError {x : Session ε α} (f : ε → δ) (h : Delegates dry x) :
    Delegates dry (Session.mapError f x) := h

theorem delegates_run {r : Runner} {words : List Value} {label : String} :
    Delegates r.dryRun (r.run words .nothing label) := by
  intro w
  cases h : r.dryRun with
  | true =>
    rw [Runner.run_dry h]
    exact ⟨[], fun _ => rfl, World.tell_alike _ _ _⟩
  | false =>
    rw [Runner.run_real h]
    exact ⟨[plainStart (words.map Value.display)], nofun, (spawn_apply _ w).1⟩

theorem delegates_compile (r : Runner) (compiler : String) (source executable : Path) :
    Delegates r.dryRun (compile r compiler source executable) := by
  refine (delegates_run.mapError _).bind fun result => ?_
  cases result.failure? with
  | none => exact delegates_of_alike fun w => .refl w
  | some failure => exact delegates_note.bind fun _ => delegates_of_alike fun w => .refl w

theorem delegates_launch (r : Runner) (executable script : Path) (args : List String) :
    Delegates r.dryRun (launch r executable script args) := by
  refine (delegates_of_alike fun w => (scriptWord_apply script w).1.alike).bind fun word =>
    (delegates_run.mapError _).bind fun result => ?_
  dsimp only
  split
  · exact delegates_note.bind fun _ => delegates_of_alike fun w => .refl w
  · cases result.failure? with
    | none => exact delegates_of_alike fun w => .refl w
    | some failure => exact delegates_note.bind fun _ => delegates_of_alike fun w => .refl w

theorem delegates_finished {o : Options} (h : o.noClean = true) (r : Runner) (script : Path)
    (args : List String) (file : Path) : Delegates r.dryRun (finished r o script args file) := by
  refine (delegates_of_alike fun w => .refl w).bind fun executable =>
    (delegates_compile r o.compiler file executable).bind fun _ => ?_
  rw [h]
  exact delegates_launch r executable script args

/-- Where children leave a file alone it stays as it is; else one of them was the first to remove
it or to write something else into it. -/
theorem node?_started {l : Location} {content : Bytes} (h : w.tree.node? l = some (.file content))
    (ss : List Start) :
    (started ss w).tree.node? l = some (.file content) ∨
      ∃ before s after, ss = before ++ s :: after ∧
        (started before w).tree.node? l = some (.file content) ∧
        ((started (before ++ [s]) w).tree.node? l = none ∨
          ∃ other, other ≠ content ∧
            (started (before ++ [s]) w).tree.node? l = some (.file other)) := by
  induction ss generalizing w with
  | nil => exact .inl h
  | cons s ss ih =>
    obtain ⟨tree, children, heq, -, hsurvives⟩ := start_eq s w
    by_cases hsame : (start s w).2.tree.node? l = some (.file content)
    · rcases ih hsame with hkept | ⟨before, s', after, rfl, hbefore, hchanged⟩
      · exact .inl hkept
      · exact .inr ⟨s :: before, s', after, rfl, hbefore, hchanged⟩
    · refine .inr ⟨[], s, ss, rfl, h, ?_⟩
      show (start s w).2.tree.node? l = none ∨ ∃ other, other ≠ content ∧
        (start s w).2.tree.node? l = some (.file other)
      rw [heq] at hsame ⊢
      cases hsurvives l _ h with
      | gone hgone => exact .inl hgone
      | same hkept => exact absurd hkept hsame
      | @rewritten other _ hother =>
        refine .inr ⟨other, ?_, hother⟩
        rintro rfl
        exact hsame hother

end delegates

section cleaned

variable {r : Runner} {o : Options} {sink : Sink} {source : Bytes} {script file p : Path}
  {args : List String} {v w : World}

theorem unlink_finished (h : IsSource file) (u : World) :
    (finished r o script args file u).2.faults.unlink = u.faults.unlink := by
  rw [finished_of_isSource h, bind_apply]
  obtain ⟨-, -, hcompile⟩ := (discreet_compile r o.compiler file (executableOf file)).texts u
  cases hc : compile r o.compiler file (executableOf file) u with
  | mk result v =>
    rw [hc] at hcompile
    cases result with
    | error e => exact hcompile
    | ok =>
      obtain ⟨-, -, hlaunch⟩ := (discreet_launch r (executableOf file) script args).texts v
      obtain ⟨tree, records, h⟩ := tidied_withArtifact o.noClean (executableOf file)
        (launch r (executableOf file) script args) v
      dsimp only
      rw [h]
      exact hlaunch.trans hcompile

theorem fst_finished (h : IsSource file) (hplain : Plain file.text) {u : World}
    (hunlink : ∀ e ∈ u.faults.unlink, e.2.isOfSystem = true) (noClean : Bool) :
    (finished r { o with noClean } script args file u).1 =
      (finished r { o with noClean := true } script args file u).1 := by
  rw [finished_of_isSource h, finished_of_isSource h, bind_apply, bind_apply]
  dsimp only
  obtain ⟨-, -, hcompile⟩ := (discreet_compile r o.compiler file (executableOf file)).texts u
  cases hc : compile r o.compiler file (executableOf file) u with
  | mk result v =>
    rw [hc] at hcompile
    cases result with
    | error e => rfl
    | ok =>
      obtain ⟨-, -, hlaunch⟩ := (discreet_launch r (executableOf file) script args).texts v
      have hfaults := (hlaunch.trans hcompile).symm ▸ hunlink
      exact withArtifact_fst (h.plain_executableOf hplain) hfaults noClean

/-- Cleaning up does not show in how a build ends, where removals fail with system faults. -/
theorem fst_noClean (hunlink : ∀ e ∈ w.faults.unlink, e.2.isOfSystem = true) (noClean : Bool) :
    (buildAndRun r { o with noClean } sink source script args w).1 =
      (buildAndRun r { o with noClean := true } sink source script args w).1 := by
  obtain ⟨-, -, hwritten⟩ := (discreet_written o sink source script).texts w
  cases hfile : (written o sink source script w).1 with
  | error e =>
    have hsame (b : Bool) : (written { o with noClean := b } sink source script w).1 = .error e :=
      hfile
    rw [buildAndRun_of_error (hsame noClean), buildAndRun_of_error (hsame true)]
  | ok file =>
    have hsame (b : Bool) : (written { o with noClean := b } sink source script w).1 = .ok file :=
      hfile
    have hsource := (isPresent_made (find_written hfile).1).1
    have hplain := plain_written hfile
    have hfaults := hwritten.symm ▸ hunlink
    rw [buildAndRun_of_ok (hsame noClean), buildAndRun_of_ok (hsame true), written_noClean,
      written_noClean, withArtifact_true,
      withArtifact_fst hplain ((unlink_finished hsource _).symm ▸ hfaults)]
    exact fst_finished hsource hplain hfaults noClean

theorem tidied_sweep (paths : List Path) (w : World) : Tidied (sweep paths w) w := by
  induction paths generalizing w with
  | nil => exact .of_noted (.refl w)
  | cons p paths ih => exact (ih _).trans (tidied_discard p w)

/-- Nor does it show in what was started and written. -/
theorem tidied_left (noClean : Bool) :
    Tidied (left r o sink source script args w noClean)
      (left r o sink source script args w true) := by
  cases noClean with
  | true => exact .of_noted (.refl _)
  | false =>
    rw [left_eq_sweep]
    exact tidied_sweep _ _

/-- After the source is written, all that a build does to the world, but for records and texts,
is done by the children that it starts, as long as nothing is removed. -/
theorem left_alike_started (hfile : (written o sink source script w).1 = .ok file) (r : Runner)
    (args : List String) :
    ∃ ss, (r.dryRun = true → ss = []) ∧
      (left r o sink source script args w true).Alike
        (started ss (written o sink source script w).2) := by
  have hsame : (written { o with noClean := true } sink source script w).1 = .ok file := hfile
  rw [left, buildAndRun_of_ok hsame]
  exact delegates_finished rfl r script args file _

theorem starts_left {ss : List Start}
    (h : (left r o sink source script args w true).Alike
      (started ss (written o sink source script w).2)) :
    (left r o sink source script args w true).starts = w.starts ++ ss := by
  obtain ⟨tree, tokens, drawn, records, hwritten⟩ := written_texts o sink source script w
  obtain ⟨records', texts', h⟩ := h
  rw [h, show (World.starts _) = (started ss _).starts from rfl, starts_started, hwritten]

end cleaned

end ScriptLauncher.Build
