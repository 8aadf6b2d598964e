import ScriptLauncher.Proofs.Build.Status
import ScriptLauncher.Proofs.CommandLine.Arguments

/-! The status of a command line: what each one says of the run that ended with it, and the
notice that a run which failed leaves behind. -/

namespace ScriptLauncher.CommandLine

open Host Build Session Command
open Artifact (Plain)

section notice

variable {s : String} {c : Char}

/-- What is told of a failure. -/
def failureNotice (reason : String) : String := "Failed: " ++ reason ++ "\n"

def IsNotice (s : String) : Prop := "Failed: ".toList <+: s.toList

theorem not_isNotice_of_head? (h : s.toList.head? = some c) (hc : c ≠ 'F') : ¬ IsNotice s := by
  rintro ⟨rest, hrest⟩
  rw [← hrest] at h
  exact hc (Option.some.inj h).symm

theorem not_isNotice_append (h : s.toList.head? = some c) (hc : c ≠ 'F') (t : String) :
    ¬ IsNotice (s ++ t) := by
  refine not_isNotice_of_head? (c := c) ?_ hc
  rw [String.toList_append, List.head?_append, h]
  rfl

theorem not_isNotice_report (h : s.toList.head? = some c) (hc : c ≠ 'F')
    (command : List String) : ¬ IsNotice (report s command) := by
  simp only [report, String.append_assoc]
  exact not_isNotice_append h hc _

theorem head?_usage : usage.toList.head? = some 'u' := by
  rw [usage, String.intercalate_cons_cons, String.append_assoc, String.toList_append,
    List.head?_append]
  rfl

theorem not_isNotice_shown (o : Options) (sink : Sink) (source : Bytes) :
    ∀ e ∈ shown o sink source, ¬ IsNotice e.2 := by
  have hcode : (Utf8.decode (Scaffold.assemble source o.imports)).toList.head? = some 'p' := by
    rw [Utf8.decode, String.toList_ofList]
    rfl
  unfold shown
  split
  · cases sink with
    | channel c =>
      refine List.forall_mem_cons.2 ⟨not_isNotice_of_head? hcode (by decide), ?_⟩
      have hbreak : ¬ IsNotice "\n" := not_isNotice_of_head? (c := '\n') (by decide) (by decide)
      exact List.forall_mem_singleton.2 hbreak
    | failing f => nofun
  · nofun

end notice

section reading

variable {i : Intake} {s : Settings} {script : String} {argv : List String} {w : World} {p : Path}
  {f : Fault}

/-- The ways in which a script that is named cannot be read: there is nothing, there is a directory,
or the system refuses to look or to read. -/
inductive Unreadable (w : World) (p : Path) : Fault → Prop
  | missing (h : w.lookup? p = .ok none) : Unreadable w p (notFound p)
  | directory (h : w.lookup? p = .ok (some .directory)) : Unreadable w p (notFound p)
  | unseen {f : Fault} (h : w.lookup? p = .error f) : Unreadable w p f
  | unread {n : Node} {f : Fault} (h : w.lookup? p = .ok (some n)) (hn : n ≠ .directory)
    (hread : w.read p = .error f) : Unreadable w p f

theorem Unreadable.isOfSystem (h : Unreadable w p f) (hw : w.OfSystem)
    (hread : ∀ e ∈ w.faults.read, e.2.isOfSystem = true) (hp : Plain p.text) :
    f.isOfSystem = true := by
  cases h with
  | missing | directory => rfl
  | unseen h => exact World.isOfSystem_lookup? hw hp h
  | unread _ _ h => exact World.isOfSystem_read hread hp h

theorem sourceAt_error_iff : sourceAt w p = .error f ↔ Unreadable w p f := by
  constructor
  · intro h
    unfold sourceAt at h
    split at h
    · next hlookup =>
      cases h
      exact .unseen hlookup
    · next n? hlookup =>
      cases n? with
      | none =>
        cases h
        exact .missing hlookup
      | some n =>
        by_cases hn : n = .directory
        · subst hn
          cases h
          exact .directory hlookup
        · rw [if_pos (by simpa using hn)] at h
          exact .unread hlookup hn h
  · intro h
    unfold sourceAt
    cases h with
    | missing h | directory h =>
      rw [h]
      rfl
    | unseen h => rw [h]
    | unread h hn hread =>
      rw [h, ← hread]
      exact if_pos (by simpa using hn)

theorem Intake.readScript_error_iff : (i.readScript s w).1 = .error f ↔
    (∃ script, s.file? = some script ∧ Unreadable w (.ofText script) f) ∨
      s.file? = none ∧ i.inlineText s = .error f := by
  rw [readScript_eq]
  cases s.file? with
  | none => simp [map_eq_error_iff]
  | some script => simp [map_eq_error_iff, sourceAt_error_iff]

theorem Settings.script_of_file? (h : s.file? = some script) : s.script = some script := by
  unfold file? at h
  split at h
  · cases h
  · exact h

theorem mem_of_script (h : parse argv = .accepted s) (hscript : s.script = some script) :
    script ∈ argv := by
  obtain ⟨words, hwords, options, rest, t, rfl, hopening, -, rfl⟩ := splits_of_parse h
  rw [← Word.map_fst_ofTexts hwords, List.map_append, List.mem_append]
  refine .inr ?_
  match rest with
  | [] => cases hopening.script.symm.trans hscript
  | [(text, word)] =>
    cases word with
    | separator => cases hopening.script.symm.trans hscript
    | _ =>
      cases hscript
      simp
  | (text, word) :: (text', word') :: rest =>
    cases word with
    | separator =>
      cases hscript
      simp
    | _ =>
      cases word' <;>
        · cases hscript
          simp

theorem plain_ofText (h : Plain script) : Plain (Path.ofText script).text := by
  refine Artifact.plain_text.2 fun part hpart => ?_
  rw [Artifact.plain_iff] at h ⊢
  exact fun hnull => h (Path.mem_of_mem_names hpart hnull)

theorem plain_of_file? (hwords : ∀ word ∈ argv, Plain word) (h : parse argv = .accepted s)
    (hfile : s.file? = some script) : Plain (Path.ofText script).text :=
  plain_ofText (hwords script (mem_of_script h (Settings.script_of_file? hfile)))

end reading

section ends

/-- A command line and a world without a null in their texts, where only faults of the system stand
ready. -/
structure Tame (i : Intake) (argv : List String) (w : World) : Prop where
  words : ∀ word ∈ argv, Plain word
  input : ∀ f, i.input = .error f → f.isOfSystem = true
  ofSystem : w.OfSystem
  read : ∀ e ∈ w.faults.read, e.2.isOfSystem = true
  temporary : Plain w.temporary.text
  tokens : ∀ token ∈ w.tokens, Plain token

namespace Intake

variable {i : Intake} {argv : List String} {s : Settings} {source : Bytes} {streams : Streams}
  {w : World} {p : Path} {f : Fault} {result : Result} {stop : Stop} {reason : String} {n : Int}

/-- The command line is accepted, and the text and the path of its script are these. -/
structure Picks (i : Intake) (argv : List String) (w : World) (s : Settings) (source : Bytes)
    (p : Path) : Prop where
  accepted : parse argv = .accepted s
  read : (i.readScript s w).1 = .ok (source, p)

/-- The reasons for which a run fails: its script cannot be read, or the build has one. -/
inductive Fails (i : Intake) (argv : List String) (streams : Streams) (w : World) : String → Prop
  | unread {s : Settings} {script : String} {f : Fault} (hparse : parse argv = .accepted s)
    (hfile : s.file? = some script) (h : Unreadable w (.ofText script) f) :
    Fails i argv streams w f.message
  | noInput {s : Settings} {f : Fault} (hparse : parse argv = .accepted s)
    (hsource : s.source.nonempty? = none) (hscript : s.script = none) (h : i.input = .error f) :
    Fails i argv streams w f.message
  | unbuilt {s : Settings} {source : Bytes} {p : Path} {stop : Stop} {reason : String}
    (hpicks : i.Picks argv w s source p)
    (hstop : (i.build s streams source p (listening s w)).1 = .error stop)
    (hreason : stop.message? = some reason) : Fails i argv streams w reason

/-- What is to be written down as bytes and has no encoding: the source that the command line gives,
or an import of the program around a script that was read. -/
inductive Unencoded (i : Intake) (argv : List String) (w : World) : Fault → Prop
  | source {s : Settings} {text : String} {f : Fault} (hparse : parse argv = .accepted s)
    (hsource : s.source.nonempty? = some text) (h : i.encode text = .error f) :
    Unencoded i argv w f
  | imports {s : Settings} {source : Bytes} {p : Path} {f : Fault}
    (hpicks : i.Picks argv w s source p)
    (h : i.encodeImports (buildOptions s).imports = .error f) : Unencoded i argv w f

theorem Unencoded.unencodable (h : i.Unencoded argv w f) : ∃ e, f = .unencodable e := by
  cases h with
  | source _ _ h =>
    obtain ⟨e, -, rfl⟩ := encode_eq_error_iff.1 h
    exact ⟨e, rfl⟩
  | imports _ h => exact encodeImports_eq_error h

end Intake

open Intake

variable {i : Intake} {argv : List String} {s : Settings} {source : Bytes} {streams : Streams}
  {w : World} {p : Path} {f : Fault} {result : Result} {stop : Stop} {reason : String} {n : Int}

theorem Tame.ofSystem_listening (h : Tame i argv w) (s : Settings) : (listening s w).OfSystem := by
  obtain ⟨threshold, hw⟩ := listening_eq s w
  rw [hw]
  exact { h.ofSystem with }

theorem Tame.ready (h : Tame i argv w) (hpicks : i.Picks argv w s source p) (c : Channel) :
    Ready (buildOptions s) (.channel c) p (listening s w) where
  ofSystem := h.ofSystem_listening s
  sink := nofun
  script := by
    rcases path_of_readScript hpicks.read with rfl | ⟨script, hfile, rfl⟩
    · decide
    · exact plain_of_file? h.words hpicks.accepted hfile
  directory := by
    obtain ⟨threshold, hw⟩ := listening_eq s w
    rw [hw]
    exact h.temporary
  tokens := by
    obtain ⟨threshold, hw⟩ := listening_eq s w
    rw [hw]
    exact h.tokens

theorem Intake.Picks.run_eq (h : i.Picks argv w s source p) (streams : Streams) :
    i.run argv streams w = i.runScript s streams source p (listening s w) := by
  rw [run_of_parse h.accepted, runAccepted_of_read h.read]

theorem Intake.runScript_of_ok {v : World} (h : (i.build s streams source p v).1 = .ok result) :
    i.runScript s streams source p v = (.ok 0, (i.build s streams source p v).2) := by
  rw [runScript, attempt_bind, h]
  rfl

theorem Intake.runScript_of_message {v : World}
    (h : (i.build s streams source p v).1 = .error stop) (hreason : stop.message? = some reason) :
    i.runScript s streams source p v = (.ok failureStatus,
      (i.build s streams source p v).2.tell streams.errors (failureNotice reason)) := by
  rw [runScript, attempt_bind, h]
  dsimp only
  rw [hreason]
  rfl

theorem Intake.runScript_of_silent {v : World}
    (h : (i.build s streams source p v).1 = .error stop) (hreason : stop.message? = none) :
    i.runScript s streams source p v = (.error stop, (i.build s streams source p v).2) := by
  rw [runScript, attempt_bind, h]
  dsimp only
  rw [hreason]
  rfl

theorem Intake.runAccepted_of_error (hread : (i.readScript s w).1 = .error f) (streams : Streams) :
    i.runAccepted s streams w =
      if f.isOfSystem then
        (.ok failureStatus, (note .warning .commandLine "Failed to read script"
          [("script", s.script.getD "None"), ("error", f.message)] (listening s w)).2.tell
            streams.errors (failureNotice f.message))
      else (.error (.fault f), listening s w) := by
  have hread' : i.readScript { s with verbose := false } (listening s w) =
      (.error f, listening s w) :=
    (i.readScript_listening s w).trans (Prod.ext hread rfl)
  rw [runAccepted_listening, runAccepted]
  simp only [Bool.false_eq_true, if_false]
  rw [attempt_bind, hread']
  dsimp only
  split <;> rfl

theorem Intake.runAccepted_of_unread (hread : (i.readScript s w).1 = .error f)
    (hf : f.isOfSystem = true) (streams : Streams) :
    ∃ v : World, v.Noted (listening s w) ∧ i.runAccepted s streams w =
      (.ok failureStatus, v.tell streams.errors (failureNotice f.message)) := by
  rw [runAccepted_of_error hread, if_pos hf]
  exact ⟨_, note_noted .., rfl⟩

theorem Intake.runAccepted_of_fault (hread : (i.readScript s w).1 = .error f)
    (hf : f.isOfSystem = false) (streams : Streams) :
    i.runAccepted s streams w = (.error (.fault f), listening s w) := by
  rw [runAccepted_of_error hread, if_neg (by simp [hf])]

/-- A command line that is not accepted has its usage told, and no more is done. -/
theorem Intake.run_of_not_accepted (h : ∀ s, parse argv ≠ .accepted s) (streams : Streams) :
    ∃ c text, ¬ IsNotice text ∧ ∀ (i : Intake) w, i.run argv streams w =
      (.ok usageStatus, (note .warning .commandLine "Argument parsing failed"
        [("argv", Text.quoteList argv)] (w.tell c text)).2) := by
  unfold run
  cases hparse : parse argv with
  | accepted s => exact absurd hparse (h s)
  | help =>
    refine ⟨.output, help, ?_, fun _ _ => rfl⟩
    rw [help]
    exact not_isNotice_append head?_usage (by decide) _
  | refused e =>
    refine ⟨.errors, e.report, ?_, fun _ _ => rfl⟩
    simp only [UsageError.report, String.append_assoc]
    exact not_isNotice_append head?_usage (by decide) _

theorem Intake.says_build (i : Intake) (s : Settings) (streams : Streams) (source : Bytes)
    (p : Path) : Says (¬ IsNotice ·) (i.build s streams source p) := by
  cases hencoded : i.encodeImports (buildOptions s).imports with
  | ok =>
    have hbuild := not_isNotice_report (s := "Build") (c := 'B') (by decide) (by decide)
    have hrun := not_isNotice_report (s := "Run") (c := 'R') (by decide) (by decide)
    rw [build_of_encoded hencoded]
    exact says_buildAndRun _ _ _ source p _ (not_isNotice_shown _ _ source) hbuild hrun
  | error f =>
    refine says_of_noted fun w => ?_
    obtain ⟨v, hv, hbuild⟩ := build_of_unencoded hencoded streams source p w
    rw [hbuild]
    exact hv

theorem Intake.texts_build (i : Intake) (s : Settings) (streams : Streams) (source : Bytes)
    (p : Path) (w : World) :
    ∃ said, (i.build s streams source p (listening s w)).2.texts = w.texts ++ said ∧
      ∀ e ∈ said, ¬ IsNotice e.2 := by
  obtain ⟨threshold, hw⟩ := listening_eq s w
  rw [hw]
  exact i.says_build s streams source p _

theorem Intake.run_of_unread (hparse : parse argv = .accepted s)
    (hread : (i.readScript s w).1 = .error f) (hf : f.isOfSystem = true) :
    (i.run argv streams w).1 = .ok failureStatus ∧ ∃ said, (i.run argv streams w).2.texts =
      w.texts ++ (said ++ [(streams.errors, failureNotice f.message)]) := by
  obtain ⟨v, hv, hrun⟩ := runAccepted_of_unread hread hf streams
  have htexts : v.texts = w.texts := by
    obtain ⟨threshold, hw⟩ := listening_eq s w
    obtain ⟨records, hv⟩ := hv
    rw [hv, hw]
  rw [run_of_parse hparse, hrun, World.tell, htexts]
  exact ⟨rfl, [], rfl⟩

theorem Intake.run_of_fails (h : Tame i argv w) (hfails : i.Fails argv streams w reason) :
    (i.run argv streams w).1 = .ok failureStatus ∧ ∃ said, (i.run argv streams w).2.texts =
      w.texts ++ (said ++ [(streams.errors, failureNotice reason)]) := by
  cases hfails with
  | unread hparse hfile hunread =>
    exact run_of_unread hparse (readScript_error_iff.2 (.inl ⟨_, hfile, hunread⟩))
      (hunread.isOfSystem h.ofSystem h.read (plain_of_file? h.words hparse hfile))
  | @noInput s f hparse hsource hscript hinput =>
    have hread : (i.readScript s w).1 = .error f := readScript_error_iff.2
      (.inr ⟨(Settings.file?_of_none hsource).trans hscript, (inlineText_of_none hsource).trans hinput⟩)
    exact run_of_unread hparse hread (h.input _ hinput)
  | @unbuilt s source p stop _ hpicks hstop hreason =>
    obtain ⟨said, htexts, -⟩ := i.texts_build s streams source p w
    rw [hpicks.run_eq, runScript_of_message hstop hreason, World.tell, htexts]
    exact ⟨rfl, said, List.append_assoc ..⟩

theorem Intake.run_of_finished (hpicks : i.Picks argv w s source p)
    (hbuilt : (i.build s streams source p (listening s w)).1 = .ok result) :
    (i.run argv streams w).1 = .ok 0 ∧ ∃ said, (i.run argv streams w).2.texts = w.texts ++ said ∧
      ∀ e ∈ said, ¬ IsNotice e.2 := by
  rw [hpicks.run_eq, runScript_of_ok hbuilt]
  exact ⟨rfl, i.texts_build s streams source p w⟩

theorem Intake.run_of_exit (hpicks : i.Picks argv w s source p)
    (hbuilt : (i.build s streams source p (listening s w)).1 = .error (.exit ⟨n⟩)) :
    (i.run argv streams w).1 = .error (.exit ⟨n⟩) ∧
      ∃ said, (i.run argv streams w).2.texts = w.texts ++ said ∧ ∀ e ∈ said, ¬ IsNotice e.2 := by
  rw [hpicks.run_eq, runScript_of_silent hbuilt rfl]
  exact ⟨rfl, i.texts_build s streams source p w⟩

/-- Without an encoding a run goes no further than its script. -/
theorem Intake.run_of_unencoded (h : i.Unencoded argv w f) (streams : Streams) :
    ∃ v : World, (∃ threshold, v.Noted { w with threshold }) ∧
      i.run argv streams w = (.error (.fault f), v) := by
  cases h with
  | @source s text _ hparse hsource hencode =>
    obtain ⟨e, -, rfl⟩ := encode_eq_error_iff.1 hencode
    have hread : (i.readScript s w).1 = .error (.unencodable e) := readScript_error_iff.2
      (.inr ⟨Settings.file?_of_some hsource, (inlineText_of_some hsource).trans hencode⟩)
    obtain ⟨threshold, hw⟩ := listening_eq s w
    rw [run_of_parse hparse, runAccepted_of_fault hread rfl, hw]
    exact ⟨_, ⟨threshold, .refl _⟩, rfl⟩
  | @imports s source p _ hpicks hencode =>
    obtain ⟨v, hv, hbuild⟩ := build_of_unencoded hencode streams source p (listening s w)
    obtain ⟨threshold, hw⟩ := listening_eq s w
    rw [hpicks.run_eq, runScript_of_silent (congrArg Prod.fst hbuild) rfl, hbuild]
    exact ⟨v, ⟨threshold, hw ▸ hv⟩, rfl⟩

/-- The ways in which the run of a command line ends, and the outcome of each. -/
inductive Intake.Ends (i : Intake) (argv : List String) (streams : Streams) (w : World) :
    Except Stop Int → Prop
  | refused (h : ∀ s, parse argv ≠ .accepted s) : Ends i argv streams w (.ok usageStatus)
  | failed {reason : String} (h : i.Fails argv streams w reason) :
    Ends i argv streams w (.ok failureStatus)
  | finished {s : Settings} {source : Bytes} {p : Path} {result : Result}
    (hpicks : i.Picks argv w s source p)
    (h : (i.build s streams source p (listening s w)).1 = .ok result) :
    Ends i argv streams w (.ok 0)
  | exited {s : Settings} {source : Bytes} {p : Path} {n : Int}
    (hpicks : i.Picks argv w s source p)
    (h : (i.build s streams source p (listening s w)).1 = .error (.exit ⟨n⟩)) :
    Ends i argv streams w (.error (.exit ⟨n⟩))
  | unencoded {f : Fault} (h : i.Unencoded argv w f) : Ends i argv streams w (.error (.fault f))

variable {outcome : Except Stop Int}

theorem Intake.Ends.eq_run (hends : i.Ends argv streams w outcome) (h : Tame i argv w) :
    (i.run argv streams w).1 = outcome := by
  cases hends with
  | refused hrefused =>
    obtain ⟨c, text, -, hrun⟩ := run_of_not_accepted hrefused streams
    rw [hrun]
  | failed hfails => exact (run_of_fails h hfails).1
  | finished hpicks hbuilt => exact (run_of_finished hpicks hbuilt).1
  | exited hpicks hbuilt => exact (run_of_exit hpicks hbuilt).1
  | unencoded hunencoded =>
    obtain ⟨v, -, hrun⟩ := run_of_unencoded hunencoded streams
    rw [hrun]

theorem Intake.exists_ends_of_unread (hparse : parse argv = .accepted s)
    (hread : (i.readScript s w).1 = .error f) (streams : Streams) :
    ∃ outcome, i.Ends argv streams w outcome := by
  rcases readScript_error_iff.1 hread with ⟨script, hfile, hunread⟩ | ⟨hfile, htext⟩
  · exact ⟨_, .failed (.unread hparse hfile hunread)⟩
  · cases hsource : s.source.nonempty? with
    | some text =>
      rw [inlineText_of_some hsource] at htext
      exact ⟨_, .unencoded (.source hparse hsource htext)⟩
    | none =>
      rw [inlineText_of_none hsource] at htext
      rw [Settings.file?_of_none hsource] at hfile
      exact ⟨_, .failed (.noInput hparse hsource hfile htext)⟩

theorem Intake.exists_ends_of_picks (h : Tame i argv w) (hpicks : i.Picks argv w s source p)
    (streams : Streams) : ∃ outcome, i.Ends argv streams w outcome := by
  cases hencoded : i.encodeImports (buildOptions s).imports with
  | error f => exact ⟨_, .unencoded (.imports hpicks hencoded)⟩
  | ok =>
    have hbuild := build_of_encoded hencoded streams source p
    rcases buildAndRun_cases (h.ready hpicks streams.output) ⟨s.dryRun, streams.errors⟩ source
      (scriptArgs s) with ⟨result, hok⟩ | ⟨stop, reason, hstop, hreason⟩ | ⟨n, hexit⟩
    · exact ⟨_, .finished hpicks (by rw [hbuild]; exact hok)⟩
    · exact ⟨_, .failed (.unbuilt hpicks (by rw [hbuild]; exact hstop) hreason)⟩
    · exact ⟨_, .exited hpicks (by rw [hbuild]; exact hexit)⟩

theorem Intake.run_ends (h : Tame i argv w) (streams : Streams) :
    i.Ends argv streams w (i.run argv streams w).1 := by
  have hsome : ∃ outcome, i.Ends argv streams w outcome := by
    by_cases hparse : ∃ s, parse argv = .accepted s
    · obtain ⟨s, hparse⟩ := hparse
      cases hread : (i.readScript s w).1 with
      | error f => exact exists_ends_of_unread hparse hread streams
      | ok picked => exact exists_ends_of_picks h ⟨hparse, hread⟩ streams
    · exact ⟨_, .refused (not_exists.1 hparse)⟩
  obtain ⟨outcome, hends⟩ := hsome
  rw [hends.eq_run h]
  exact hends

/-- Each outcome of a run is that of one of its ways to end, and each of these has its outcome. -/
theorem Intake.fst_run_eq_iff (h : Tame i argv w) :
    (i.run argv streams w).1 = outcome ↔ i.Ends argv streams w outcome :=
  ⟨fun heq => heq ▸ run_ends h streams, fun hends => hends.eq_run h⟩

theorem Intake.Ends.failed_or_quiet (hends : i.Ends argv streams w outcome) :
    (∃ reason, i.Fails argv streams w reason) ∨
      ∃ said, (i.run argv streams w).2.texts = w.texts ++ said ∧ ∀ e ∈ said, ¬ IsNotice e.2 := by
  cases hends with
  | refused hrefused =>
    obtain ⟨c, text, htext, hrun⟩ := run_of_not_accepted hrefused streams
    obtain ⟨records, hnoted⟩ := note_noted .warning .commandLine "Argument parsing failed"
      [("argv", Text.quoteList argv)] (w.tell c text)
    refine .inr ⟨[(c, text)], ?_, List.forall_mem_singleton.2 htext⟩
    rw [hrun, hnoted]
    rfl
  | failed hfails => exact .inl ⟨_, hfails⟩
  | finished hpicks hbuilt => exact .inr (run_of_finished hpicks hbuilt).2
  | exited hpicks hbuilt => exact .inr (run_of_exit hpicks hbuilt).2
  | unencoded hunencoded =>
    obtain ⟨v, ⟨threshold, records, hv⟩, hrun⟩ := run_of_unencoded hunencoded streams
    refine .inr ⟨[], ?_, nofun⟩
    rw [hrun, hv, List.append_nil]

/-- A run tells of a failure if it fails, and then last of all. -/
theorem Intake.texts_run (h : Tame i argv w) (streams : Streams) :
    ∃ said, (i.run argv streams w).2.texts = w.texts ++ said ∧
      (∀ reason, i.Fails argv streams w reason →
        said.getLast? = some (streams.errors, failureNotice reason)) ∧
      ∀ e ∈ said, IsNotice e.2 → (i.run argv streams w).1 = .ok failureStatus := by
  by_cases hfails : ∃ reason, i.Fails argv streams w reason
  · obtain ⟨reason, hfails⟩ := hfails
    obtain ⟨hended, said, htexts⟩ := run_of_fails h hfails
    refine ⟨_, htexts, fun reason' hfails' => ?_, fun _ _ _ => hended⟩
    obtain ⟨-, said', htexts'⟩ := run_of_fails h hfails'
    rw [List.append_cancel_left (htexts.symm.trans htexts'), List.getLast?_concat]
  · obtain ⟨said, htexts, hquiet⟩ := (run_ends h streams).failed_or_quiet.resolve_left hfails
    exact ⟨said, htexts, fun reason h => absurd ⟨reason, h⟩ hfails,
      fun e he hnotice => absurd hnotice (hquiet e he)⟩

/-- The build of a script with an encoding ends the program just when its children do. -/
theorem Intake.ends_exit_iff (h : Tame i argv w) (n : Int) :
    i.Ends argv streams w (.error (.exit ⟨n⟩)) ↔ ∃ s source p, i.Picks argv w s source p ∧
      i.encodeImports (buildOptions s).imports = .ok () ∧ s.dryRun = false ∧
      Exits (buildOptions s) (.channel streams.output) source p (scriptArgs s) (listening s w) n := by
  constructor
  · intro hends
    cases hends with
    | @exited s source p _ hpicks hbuilt =>
      cases hencoded : i.encodeImports (buildOptions s).imports with
      | ok =>
        rw [build_of_encoded hencoded] at hbuilt
        exact ⟨s, source, p, hpicks, hencoded, (fst_eq_exit_iff (h.ready hpicks _) _ _ _ n).1 hbuilt⟩
      | error f =>
        obtain ⟨v, -, hbuild⟩ := build_of_unencoded hencoded streams source p (listening s w)
        cases hbuilt.symm.trans (congrArg Prod.fst hbuild)
  · rintro ⟨s, source, p, hpicks, hencoded, hexits⟩
    refine .exited hpicks ?_
    rw [build_of_encoded hencoded]
    exact (fst_eq_exit_iff (h.ready hpicks _) _ _ _ n).2 hexits

/-- The status of a run tells how all went. It ends in one of four ways, each with an outcome of its
own; where the command line is not accepted no file and no input matters; and a notice of a failure
is the last text of a run that fails, and stands nowhere else. -/
structure TellsStatus (i : Intake) (argv : List String) (streams : Streams) (w : World) : Prop where
  ways : (i.run argv streams w).1 = .ok 2 ∨ (i.run argv streams w).1 = .ok 255 ∨
    (i.run argv streams w).1 = .ok 0 ∨ ∃ n, n ≠ 0 ∧ (i.run argv streams w).1 = .error (.exit ⟨n⟩)
  refused : (i.run argv streams w).1 = .ok 2 ↔ ∀ s, parse argv ≠ .accepted s
  untouched : (i.run argv streams w).1 = .ok 2 →
    (∃ c text, (i.run argv streams w).2.Noted (w.tell c text)) ∧
    ∀ (i' : Intake) tree faults, i'.run argv streams { w with tree, faults } =
      ((i.run argv streams w).1, { (i.run argv streams w).2 with tree, faults })
  failed : (i.run argv streams w).1 = .ok 255 ↔ ∃ reason, i.Fails argv streams w reason
  finished : (i.run argv streams w).1 = .ok 0 ↔ ∃ s source p result, i.Picks argv w s source p ∧
    (i.build s streams source p (listening s w)).1 = .ok result
  exited : ∀ n, (i.run argv streams w).1 = .error (.exit ⟨n⟩) ↔ ∃ s source p,
    i.Picks argv w s source p ∧ i.encodeImports (buildOptions s).imports = .ok () ∧
    s.dryRun = false ∧ Exits (buildOptions s) (.channel streams.output) source p (scriptArgs s)
      (listening s w) n
  told : ∃ said, (i.run argv streams w).2.texts = w.texts ++ said ∧
    (∀ reason, i.Fails argv streams w reason →
      said.getLast? = some (streams.errors, failureNotice reason)) ∧
    ∀ e ∈ said, IsNotice e.2 → (i.run argv streams w).1 = .ok 255

theorem tellsStatus_of_encoded (h : Tame i argv w) (streams : Streams)
    (hencoded : ∀ f, ¬ i.Unencoded argv w f) : TellsStatus i argv streams w := by
  have hrefused : (i.run argv streams w).1 = .ok 2 ↔ ∀ s, parse argv ≠ .accepted s := by
    refine (fst_run_eq_iff h).trans ⟨fun hends => ?_, .refused⟩
    cases hends with
    | refused hrefused => exact hrefused
  have hexited (n : Int) : (i.run argv streams w).1 = .error (.exit ⟨n⟩) ↔ _ :=
    (fst_run_eq_iff h).trans (ends_exit_iff h n)
  refine ⟨?_, hrefused, fun hended => ?_, ?_, ?_, hexited, texts_run h streams⟩
  · cases hended : (i.run argv streams w).1 with
    | ok status =>
      cases (fst_run_eq_iff h).1 hended with
      | refused | failed | finished => simp [usageStatus, failureStatus]
    | error stop =>
      cases (fst_run_eq_iff h).1 hended with
      | exited =>
        obtain ⟨_, _, _, -, -, -, _, -, -, hn, -⟩ := (hexited _).1 hended
        exact .inr (.inr (.inr ⟨_, hn, rfl⟩))
      | unencoded hunencoded => exact absurd hunencoded (hencoded _)
  · obtain ⟨c, text, -, hrun⟩ := run_of_not_accepted (hrefused.1 hended) streams
    refine ⟨⟨c, text, ?_⟩, fun i' tree faults => ?_⟩
    · rw [hrun]
      dsimp only
      exact note_noted ..
    · rw [hrun, hrun]
      rfl
  · refine (fst_run_eq_iff h).trans ⟨fun hends => ?_, fun ⟨_, hfails⟩ => .failed hfails⟩
    cases hends with
    | failed hfails => exact ⟨_, hfails⟩
  · refine (fst_run_eq_iff h).trans ⟨fun hends => ?_, fun ⟨_, _, _, _, hpicks, hbuilt⟩ =>
      .finished hpicks hbuilt⟩
    cases hends with
    | finished hpicks hbuilt => exact ⟨_, _, _, _, hpicks, hbuilt⟩

theorem TellsStatus.encoded (h : TellsStatus i argv streams w) (f : Fault) :
    ¬ i.Unencoded argv w f := by
  intro hunencoded
  obtain ⟨v, -, hrun⟩ := run_of_unencoded hunencoded streams
  rcases h.ways with hended | hended | hended | ⟨n, -, hended⟩ <;>
    cases (congrArg Prod.fst hrun).symm.trans hended

/-- What has to be text for a run to go on: the source that it is given, and the import path of the
helper package for a script that is read. -/
theorem Intake.forall_not_unencoded_iff : (∀ f, ¬ i.Unencoded argv w f) ↔
    ∀ s, parse argv = .accepted s →
      (∀ text, s.source.nonempty? = some text → i.escapes.Clean text) ∧
      ∀ source p, (i.readScript s w).1 = .ok (source, p) → s.noHelper = false →
        i.escapes.Clean s.helperPackage.display := by
  constructor
  · intro hencoded s hparse
    refine ⟨fun text hsource => ?_, fun source p hread => encodeImports_buildOptions.1 ?_⟩
    · cases hencode : i.encode text with
      | ok b => exact (encode_eq_ok_iff.1 hencode).1
      | error f => exact absurd (.source hparse hsource hencode) (hencoded f)
    · cases himports : i.encodeImports (buildOptions s).imports with
      | ok => rfl
      | error f => exact absurd (.imports ⟨hparse, hread⟩ himports) (hencoded f)
  · intro h f hunencoded
    cases hunencoded with
    | source hparse hsource hencode =>
      cases (encode_of_clean ((h _ hparse).1 _ hsource)).symm.trans hencode
    | imports hpicks hencode =>
      have hclean := (h _ hpicks.accepted).2 _ _ hpicks.read
      cases (encodeImports_buildOptions.2 hclean).symm.trans hencode

/-- Where only faults of the system stand ready and no text has a null in it, the status of a run
tells how all went just when all that the run has to write down as bytes is text. Otherwise the run
makes, starts and tells nothing, and ends with a fault that says which bytes are in the way. -/
theorem tellsStatus_iff (h : Tame i argv w) (streams : Streams) :
    (TellsStatus i argv streams w ↔ ∀ s, parse argv = .accepted s →
      (∀ text, s.source.nonempty? = some text → i.escapes.Clean text) ∧
      ∀ source p, (i.readScript s w).1 = .ok (source, p) → s.noHelper = false →
        i.escapes.Clean s.helperPackage.display) ∧
    ∀ f, i.Unencoded argv w f → (∃ e, f = .unencodable e) ∧
      ∃ v : World, (∃ threshold, v.Noted { w with threshold }) ∧
        i.run argv streams w = (.error (.fault f), v) := by
  rw [← forall_not_unencoded_iff]
  exact ⟨⟨TellsStatus.encoded, tellsStatus_of_encoded h streams⟩,
    fun f hunencoded => ⟨hunencoded.unencodable, run_of_unencoded hunencoded streams⟩⟩

/-- Bytes may stand in words, and standard input cannot be read. -/
def brokenInput : Intake := ⟨.last, .error (.numbered 5 "Input/output error" none)⟩

theorem tame_killedScript (h : ∀ word ∈ argv, Plain word) : Tame brokenInput argv killedScript where
  words := h
  input f hf := by
    cases hf
    rfl
  ofSystem := ready_killedScript.ofSystem
  read := nofun
  temporary := ready_killedScript.directory
  tokens := ready_killedScript.tokens

/-- A script that is killed ends the program, whatever standard input is like; one that cannot be
read from there, or from its file, is told of. -/
theorem tellsStatus_iff_killedScript :
    let run (argv : List String) := brokenInput.run argv ⟨.output, .errors⟩ killedScript
    (∀ argv ∈ [["--src", "x"], [], ["/x.go"]], Tame brokenInput argv killedScript ∧
      TellsStatus brokenInput argv ⟨.output, .errors⟩ killedScript) ∧
    (run ["--src", "x"]).1 = .error (.exit ⟨137⟩) ∧
    (run []).1 = .ok 255 ∧ (run []).2.texts.getLast? =
      some (.errors, "Failed: [Errno 5] Input/output error\n") ∧
    (run ["/x.go"]).1 = .ok 255 ∧ (run ["/x.go"]).2.texts.getLast? =
      some (.errors, "Failed: script not found: /x.go\n") := by
  intro run
  have hinline : parse ["--src", "x"] =
      .accepted { Settings.initial with source := .text "x" } := by decide +kernel
  have hempty : parse [] = .accepted .initial := by decide +kernel
  have hnamed : parse ["/x.go"] =
      .accepted { Settings.initial with script := some "/x.go" } := by decide +kernel
  have htame : ∀ argv ∈ [["--src", "x"], [], ["/x.go"]], Tame brokenInput argv killedScript := by
    simp only [List.forall_mem_cons, List.not_mem_nil, false_imp_iff, implies_true, and_true]
    exact ⟨tame_killedScript (by decide), tame_killedScript (by decide),
      tame_killedScript (by decide)⟩
  have htells {argv : List String} {t : Settings} (hargv : argv ∈ [["--src", "x"], [], ["/x.go"]])
      (hparse : parse argv = .accepted t)
      (hsource : ∀ text, t.source.nonempty? = some text → brokenInput.escapes.Clean text)
      (hhelper : brokenInput.escapes.Clean t.helperPackage.display) :
      TellsStatus brokenInput argv ⟨.output, .errors⟩ killedScript := by
    refine (tellsStatus_iff (htame argv hargv) _).1.2 fun s hs => ?_
    obtain rfl := Verdict.accepted.inj (hparse.symm.trans hs)
    exact ⟨hsource, fun _ _ _ _ => hhelper⟩
  have htellsInline := htells (by simp) hinline
    (fun text h => by cases h; decide +kernel) (by decide +kernel)
  have htellsEmpty := htells (by simp) hempty nofun (by decide +kernel)
  have htellsNamed := htells (by simp) hnamed nofun (by decide +kernel)
  have hpicks : brokenInput.Picks ["--src", "x"] killedScript
      { Settings.initial with source := .text "x" } (Utf8.encode "x") (.ofText inlineName) :=
    ⟨hinline, by rfl⟩
  have hencoded : brokenInput.encodeImports
      (buildOptions { Settings.initial with source := .text "x" }).imports = .ok () :=
    encodeImports_buildOptions.2 fun _ => by decide +kernel
  have hfails : brokenInput.Fails [] ⟨.output, .errors⟩ killedScript _ :=
    .noInput hempty rfl rfl rfl
  have hfails' : brokenInput.Fails ["/x.go"] ⟨.output, .errors⟩ killedScript
      (notFound (.ofText "/x.go")).message := .unread hnamed rfl (.missing rfl)
  obtain ⟨said, htexts, hlast, -⟩ := htellsEmpty.told
  obtain ⟨said', htexts', hlast', -⟩ := htellsNamed.told
  refine ⟨?_, (htellsInline.exited 137).2 ⟨_, _, _, hpicks, hencoded, rfl, ?_⟩,
    htellsEmpty.failed.2 ⟨_, hfails⟩, ?_, htellsNamed.failed.2 ⟨_, hfails'⟩, ?_⟩
  · simp only [List.forall_mem_cons, List.not_mem_nil, false_imp_iff, implies_true, and_true]
    exact ⟨⟨htame _ (by simp), htellsInline⟩, ⟨htame _ (by simp), htellsEmpty⟩,
      htame _ (by simp), htellsNamed⟩
  · exact ⟨⟨.single, ["tmp", "goscript-0badc0de-noname.go"]⟩, rfl, rfl, by decide, .inr rfl⟩
  · rw [htexts]
    exact hlast _ hfails
  · rw [htexts']
    exact hlast' _ hfails'

/-- A source of one byte that is no text ends a run without any status. -/
theorem not_forall_tellsStatus : ¬ ∀ (i : Intake) (argv : List String) (streams : Streams)
    (w : World), Tame i argv w → TellsStatus i argv streams w := by
  intro h
  let byte : String := String.singleton (Char.ofNat 0x10FFFF)
  have hparse : parse ["--src", byte] =
      .accepted { Settings.initial with source := .text byte } := by decide +kernel
  have hunclean : ¬ brokenInput.escapes.Clean byte := by decide +kernel
  obtain ⟨e, hencode⟩ := Text.Escapes.exists_encode_eq_error hunclean
  have htells := h brokenInput ["--src", byte] ⟨.output, .errors⟩ killedScript
    (tame_killedScript (by decide +kernel))
  exact htells.encoded _ (.source hparse rfl (encode_eq_error_iff.2 ⟨e, hencode, rfl⟩))

end ends

end ScriptLauncher.CommandLine
