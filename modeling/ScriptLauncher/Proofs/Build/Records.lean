import ScriptLauncher.Proofs.Build.DryRun

/-! What a build puts on record. Each command is announced before it is started, and no other record
of a build is on the same subject, so that the announcements tell what was started and in which
order. -/

namespace ScriptLauncher

open Host Command Session

section subject

/-- What a record is on: its text before the details. -/
def Host.Record.subject (r : Record) : String :=
  String.ofList (r.message.toList.takeWhile (· ≠ '(')).dropLast

theorem subject_detailed {level : Level} {component : Component} {message : String}
    (h : '(' ∉ message.toList) (details : List (String × String)) :
    (Record.mk level component (detailed message details)).subject = message := by
  have hbefore : ∀ c ∈ message.toList ++ [' '], decide (c ≠ '(') = true := by
    intro c hc
    rcases List.mem_append.1 hc with hc | hc
    · exact decide_eq_true fun heq => h (heq ▸ hc)
    · rw [List.mem_singleton.1 hc]
      decide
  have hmessage : (message.toList ++ [' ']) ++ ['('] <+: (detailed message details).toList := by
    simp only [detailed, String.toList_append, List.append_assoc]
    exact (List.prefix_append_right_inj _).2 (List.prefix_append ..)
  obtain ⟨rest, hrest⟩ := hmessage
  rw [Record.subject, ← hrest, List.append_assoc, List.takeWhile_append_of_pos hbefore]
  simp

/-- The records on some subjects. -/
def mentions (subjects : List String) (records : List Record) : List Record :=
  records.filter (·.subject ∈ subjects)

theorem mentions_append (subjects : List String) (records records' : List Record) :
    mentions subjects (records ++ records') =
      mentions subjects records ++ mentions subjects records' :=
  List.filter_append ..

end subject

namespace Command

/-- The record that a command is going to be started with the streams of its parent. -/
def announcement (command : List String) : Record :=
  ⟨.debug, .runner, detailed "Running command"
    [("command", Text.quoteTuple command), ("io_mode", Capture.nothing.name)]⟩

/-- The announcements of some commands, where records of their level are kept. -/
def announced (threshold : Level) (commands : List (List String)) : List Record :=
  if Level.passes .debug threshold then commands.map announcement else []

theorem announced_append (threshold : Level) (commands commands' : List (List String)) :
    announced threshold (commands ++ commands') =
      announced threshold commands ++ announced threshold commands' := by
  unfold announced
  split
  · exact List.map_append
  · rfl

/-- A step that announces what it starts, and puts nothing else on record on some subjects. -/
def Announces {ε α : Type} (subjects : List String) (x : Session ε α) : Prop :=
  ∀ w, ∃ commands records, (x w).2.starts = w.starts ++ commands.map plainStart ∧
    (x w).2.records = w.records ++ records ∧ (x w).2.threshold = w.threshold ∧
    mentions subjects records = mentions subjects (announced w.threshold commands)

variable {ε δ α β : Type} {subjects : List String}

theorem announces_of_silent {x : Session ε α} (h : ∀ w, (x w).2.starts = w.starts ∧
    (x w).2.records = w.records ∧ (x w).2.threshold = w.threshold) : Announces subjects x := by
  intro w
  obtain ⟨hstarts, hrecords, hthreshold⟩ := h w
  refine ⟨[], [], by simp [hstarts], by simp [hrecords], hthreshold, ?_⟩
  simp [announced]

theorem announces_pure (a : α) : Announces subjects (pure a : Session ε α) :=
  announces_of_silent fun _ => ⟨rfl, rfl, rfl⟩

theorem announces_throw (e : ε) : Announces subjects (throw e : Session ε α) :=
  announces_of_silent fun _ => ⟨rfl, rfl, rfl⟩

theorem Announces.bind {x : Session ε α} {f : α → Session ε β} (hx : Announces subjects x)
    (hf : ∀ a, Announces subjects (f a)) : Announces subjects (x >>= f) := by
  intro w
  obtain ⟨commands, records, hstarts, hrecords, hthreshold, hmentions⟩ := hx w
  rw [bind_apply]
  cases h : x w with
  | mk result v =>
    rw [h] at hstarts hrecords hthreshold
    cases result with
    | error e => exact ⟨commands, records, hstarts, hrecords, hthreshold, hmentions⟩
    | ok a =>
      obtain ⟨commands', records', hstarts', hrecords', hthreshold', hmentions'⟩ := hf a v
      refine ⟨commands ++ commands', records ++ records', ?_, ?_, hthreshold'.trans hthreshold, ?_⟩
      · rw [hstarts', hstarts, List.map_append, List.append_assoc]
      · rw [hrecords', hrecords, List.append_assoc]
      · rw [announced_append, mentions_append, mentions_append, hmentions, hmentions', hthreshold]

theorem Announces.attempt {x : Session ε α} (h : Announces subjects x) :
    Announces subjects (Session.attempt x : Session δ (Except ε α)) := h

theorem Announces.mapError {x : Session ε α} (f : ε → δ) (h : Announces subjects x) :
    Announces subjects (Session.mapError f x) := h

theorem Announces.ensuring {x : Session ε α} {last : Session ε Unit} (hx : Announces subjects x)
    (hlast : Announces subjects last) : Announces subjects (Session.ensuring x last) := by
  intro w
  have hboth : Announces subjects (Session.attempt x >>= fun _ : Except ε α => last) :=
    (hx.attempt (δ := ε)).bind fun _ => hlast
  obtain ⟨commands, records, h⟩ := hboth w
  rw [attempt_bind] at h
  exact ⟨commands, records, by rwa [ensuring_snd]⟩

theorem note_apply (level : Level) (component : Component) (message : String)
    (details : List (String × String)) (w : World) :
    (note level component message details w).2 = if level.passes w.threshold then
      { w with records := w.records ++ [⟨level, component, detailed message details⟩] } else w :=
  rfl

theorem announces_note {level : Level} {component : Component} {message : String}
    {details : List (String × String)} (hplain : '(' ∉ message.toList) (h : message ∉ subjects) :
    Announces subjects (liftM (note level component message details) : Session ε Unit) := by
  intro w
  have hother : mentions subjects [⟨level, component, detailed message details⟩] = [] := by
    simp [mentions, subject_detailed hplain, h]
  rw [lift_apply, note_apply]
  split
  · refine ⟨[], _, (List.append_nil _).symm, rfl, rfl, hother.trans ?_⟩
    simp [announced, mentions]
  · refine ⟨[], [], (List.append_nil _).symm, (List.append_nil _).symm, rfl, ?_⟩
    simp [announced]

/-- A start after its own announcement, and what comes then. -/
theorem announces_start (command : List String) {f : Except Fault Child → Session ε α}
    (hf : ∀ started, Announces subjects (f started)) :
    Announces subjects (do
      note .debug .runner "Running command"
        [("command", Text.quoteTuple command), ("io_mode", Capture.nothing.name)]
      f (← Session.attempt (start (plainStart command)))) := by
  have hstart : Announces subjects (do
      note .debug .runner "Running command"
        [("command", Text.quoteTuple command), ("io_mode", Capture.nothing.name)]
      Session.attempt (start (plainStart command)) : Session ε (Except Fault Child)) := by
    intro w
    rw [lift_bind, attempt_apply]
    obtain ⟨tree, children, hw, -⟩ := start_eq (plainStart command)
      (note .debug .runner "Running command"
        [("command", Text.quoteTuple command), ("io_mode", Capture.nothing.name)] w).2
    rw [hw, note_apply]
    refine ⟨[command], announced w.threshold [command], ?_, ?_, ?_, rfl⟩
    · split <;> rfl
    · unfold announced
      split
      · rfl
      · exact (List.append_nil _).symm
    · split <;> rfl
  have hboth := hstart.bind hf
  rwa [bind_assoc] at hboth

end Command

namespace Build

variable {subjects : List String}

/-- What a build puts on record besides what it starts and removes. -/
def asides : List String :=
  ["Body starts", "Script has no body", "Assembled source", "Failed to print assembled source",
    "Wrote temporary source", "Failed to write temporary source", "Cannot resolve script path",
    "Failed to start command", "Command failed", "Compile failed", "Script exited",
    "Script did not start"]

/-- The two ways in which a removal ends, on record. -/
def outcomes : List String := ["Removed temporary file", "Failed to remove temporary file"]

theorem announces_of_mem {ε : Type} {level : Level} {component : Component} {message : String}
    {details : List (String × String)} (h : ∀ message ∈ asides, message ∉ subjects)
    (hmessage : message ∈ asides) :
    Announces subjects (liftM (note level component message details) : Session ε Unit) := by
  have hplain : ∀ message ∈ asides, '(' ∉ message.toList := by decide
  exact announces_note (hplain message hmessage) (h message hmessage)

theorem announces_spawn (h : ∀ message ∈ asides, message ∉ subjects) (command : List String) :
    Announces subjects (spawn command .nothing) := by
  refine announces_start command fun started => ?_
  cases started with
  | error f =>
    dsimp only
    split
    · exact (announces_of_mem h (by decide)).bind fun _ => announces_pure _
    · exact announces_throw f
  | ok child =>
    dsimp only
    split
    · exact (announces_of_mem h (by decide)).bind fun _ => announces_pure _
    · exact announces_pure _

theorem announces_run (h : ∀ message ∈ asides, message ∉ subjects) (r : Runner)
    (words : List Value) (label : String) : Announces subjects (r.run words .nothing label) := by
  unfold Runner.run
  dsimp only
  split
  · exact announces_of_silent fun w => ⟨rfl, rfl, rfl⟩
  · exact announces_spawn h _

theorem announces_compile (h : ∀ message ∈ asides, message ∉ subjects) (r : Runner)
    (compiler : String) (source executable : Path) :
    Announces subjects (compile r compiler source executable) := by
  refine ((announces_run h r _ _).mapError _).bind fun result => ?_
  cases result.failure? with
  | none => exact announces_pure ()
  | some failure => exact (announces_of_mem h (by decide)).bind fun _ => announces_throw _

theorem announces_scriptWord (h : ∀ message ∈ asides, message ∉ subjects) (p : Path) :
    Announces subjects (scriptWord p) := by
  unfold scriptWord
  split
  · exact announces_pure p.text
  · intro w
    rw [bind_apply, get_apply]
    dsimp only
    cases w.homeText with
    | ok home => exact announces_pure _ w
    | error f =>
      dsimp only
      split
      · exact ((announces_of_mem h (by decide)).bind fun _ => announces_pure p.text) w
      · exact announces_throw _ w

theorem announces_launch (h : ∀ message ∈ asides, message ∉ subjects) (r : Runner)
    (executable script : Path) (args : List String) :
    Announces subjects (launch r executable script args) := by
  refine (announces_scriptWord h script).bind fun word =>
    ((announces_run h r _ _).mapError _).bind fun result => ?_
  dsimp only
  split
  · exact (announces_of_mem h (by decide)).bind fun _ => announces_throw _
  · cases result.failure? with
    | none => exact announces_pure result
    | some failure => exact (announces_of_mem h (by decide)).bind fun _ => announces_throw _

theorem announces_assembleNoted (h : ∀ message ∈ asides, message ∉ subjects) (source : Bytes)
    (imports : List Scaffold.Import) :
    Announces subjects (liftM (Script.assembleNoted source imports) : Session Stop Bytes) := by
  have hread : Announces subjects
      (liftM ((Script.Reading.ofSource source).note source) : Session Stop Unit) := by
    unfold Script.Reading.note
    cases (Script.Reading.ofSource source).body with
    | none => exact announces_of_mem h (by decide)
    | some body => exact announces_of_mem h (by decide)
  exact hread.bind fun _ => (announces_of_mem h (by decide)).bind fun _ => announces_pure _

theorem announces_printSource (h : ∀ message ∈ asides, message ∉ subjects) (code : Bytes)
    (sink : Sink) : Announces subjects (printSource code sink) := by
  have hdump : Announces subjects (dump code sink) := by
    cases sink with
    | channel c => exact announces_of_silent fun w => ⟨rfl, rfl, rfl⟩
    | failing f => exact announces_of_silent fun w => ⟨rfl, rfl, rfl⟩
  refine hdump.attempt.bind fun printed => ?_
  cases printed with
  | ok => exact announces_pure ()
  | error f =>
    dsimp only
    split
    · exact announces_of_mem h (by decide)
    · exact announces_throw _

theorem announces_opened (h : ∀ message ∈ asides, message ∉ subjects) (o : Options) (sink : Sink)
    (source : Bytes) : Announces subjects (opened o sink source) := by
  refine (announces_assembleNoted h source o.imports).bind fun code => ?_
  split
  · exact (announces_printSource h code sink).bind fun _ => announces_pure code
  · exact announces_pure code

theorem announces_writeSource (h : ∀ message ∈ asides, message ∉ subjects) (code : Bytes)
    (script : String) (directory : Option Path) :
    Announces subjects (writeSource code script directory) := by
  have hsearch (directory : Path) :
      Announces subjects (Artifact.writeSource code script directory) := by
    refine announces_of_silent fun w => ?_
    obtain ⟨tree, tokens, drawn, hw, -⟩ :=
      (Artifact.searches code script directory (Artifact.draws w) w).follows
    rw [show (Artifact.writeSource code script directory w).2 = _ from hw]
    exact ⟨rfl, rfl, rfl⟩
  intro w
  rw [writeSource, bind_apply, get_apply]
  refine ((hsearch (directory.getD w.temporary)).attempt.bind fun found => ?_) w
  cases found with
  | ok p => exact (announces_of_mem h (by decide)).bind fun _ => announces_pure p
  | error f =>
    dsimp only
    split
    · exact (announces_of_mem h (by decide)).bind fun _ => announces_throw _
    · exact announces_throw _

theorem announces_discard (h : ∀ message ∈ outcomes, message ∉ subjects) (p : Path) :
    Announces subjects (Build.discard p) := by
  have hunlink : Announces subjects (unlink p) := by
    refine announces_of_silent fun w => ?_
    obtain ⟨tree, hw, -⟩ := unlink_eq p w
    rw [hw]
    exact ⟨rfl, rfl, rfl⟩
  have hnote {level component message details} (hmessage : message ∈ outcomes) :
      Announces subjects (liftM (note level component message details) : Session Stop Unit) := by
    have hplain : ∀ message ∈ outcomes, '(' ∉ message.toList := by decide
    exact announces_note (hplain message hmessage) (h message hmessage)
  refine hunlink.attempt.bind fun removed => ?_
  cases removed with
  | ok => exact hnote (by decide)
  | error f =>
    dsimp only
    split
    · exact hnote (by decide)
    · exact announces_throw _

theorem announces_withArtifact {α : Type} {noClean : Bool} {x : Session Stop α}
    (hclean : noClean = true ∨ ∀ message ∈ outcomes, message ∉ subjects)
    (hx : Announces subjects x) (p : Path) : Announces subjects (withArtifact noClean p x) := by
  cases noClean with
  | true => exact hx
  | false => exact hx.ensuring (announces_discard (hclean.resolve_left Bool.false_ne_true) p)

/-- What a build has on record on other subjects are the announcements of its starts. How removals
end is such a subject where nothing is removed. -/
theorem announces_buildAndRun {o : Options} (h : ∀ message ∈ asides, message ∉ subjects)
    (hclean : o.noClean = true ∨ ∀ message ∈ outcomes, message ∉ subjects) (r : Runner)
    (sink : Sink) (source : Bytes) (script : Path) (args : List String) :
    Announces subjects (buildAndRun r o sink source script args) := by
  rw [buildAndRun_eq]
  refine ((announces_opened h o sink source).bind fun code =>
    announces_writeSource h code script.name o.directory).bind fun file =>
      announces_withArtifact hclean ?_ file
  refine (announces_of_silent fun w => ⟨rfl, rfl, rfl⟩).bind fun executable =>
    (announces_compile h r o.compiler file executable).bind fun _ =>
      announces_withArtifact hclean (announces_launch h r executable script args) executable

end Build

end ScriptLauncher
