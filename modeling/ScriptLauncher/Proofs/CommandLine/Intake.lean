import ScriptLauncher.CommandLine.Run
import ScriptLauncher.Proofs.Build.Steps

/-! How a run comes by its script, and what of it and of the imports has to have an encoding. -/

namespace ScriptLauncher.CommandLine

open Host Build Session Command

section map

variable {ε α β : Type} {x : Except ε α} {g : α → β} {b : β} {e : ε}

theorem map_eq_ok_iff : g <$> x = .ok b ↔ ∃ a, x = .ok a ∧ g a = b := by
  cases x <;> simp [Functor.map, Except.map]

theorem map_eq_error_iff : g <$> x = .error e ↔ x = .error e := by
  cases x <;> simp [Functor.map, Except.map]

end map

section reading

variable {i : Intake} {s : Settings} {text script : String} {source b : Bytes} {w : World} {p : Path}
  {f : Fault}

theorem Intake.encode_eq_ok_iff :
    i.encode text = .ok b ↔ i.escapes.Clean text ∧ b = Utf8.encode text := by
  rw [encode, ← Text.Escapes.encode_eq_ok_iff]
  cases i.escapes.encode text with
  | ok => exact (Except.ok.injEq ..).to_iff.trans (Except.ok.injEq ..).to_iff.symm
  | error => exact ⟨nofun, nofun⟩

theorem Intake.encode_of_clean (h : i.escapes.Clean text) : i.encode text = .ok (Utf8.encode text) :=
  encode_eq_ok_iff.2 ⟨h, rfl⟩

theorem Intake.encode_plain (input : Bytes) (text : String) :
    (plain input).encode text = .ok (Utf8.encode text) :=
  encode_of_clean (Text.Escapes.clean_empty text)

theorem Intake.encode_eq_error_iff : i.encode text = .error f ↔
    ∃ e, i.escapes.encode text = .error e ∧ f = .unencodable e := by
  rw [encode]
  cases i.escapes.encode text with
  | ok => exact ⟨nofun, nofun⟩
  | error e =>
    constructor
    · intro h
      exact ⟨e, rfl, (Except.error.inj h).symm⟩
    · rintro ⟨_, h, rfl⟩
      cases h
      rfl

/-- The world in which a script is read and run: a verbose one keeps all records. -/
def listening (s : Settings) (w : World) : World :=
  if s.verbose then { w with threshold := .debug } else w

theorem listening_eq (s : Settings) (w : World) :
    ∃ threshold, listening s w = { w with threshold } := by
  unfold listening
  split
  · exact ⟨.debug, rfl⟩
  · exact ⟨w.threshold, rfl⟩

def notFound (p : Path) : Fault := .unnumbered ("script not found: " ++ p.text)

/-- The text of a script that is named. -/
def sourceAt (w : World) (p : Path) : Except Fault Bytes :=
  match w.lookup? p with
  | .error f => .error f
  | .ok n? => if n?.any (· != .directory) then w.read p else .error (notFound p)

/-- The name of the file that a script is read from, if it is read from one. -/
def Settings.file? (s : Settings) : Option String :=
  match s.source.nonempty? with
  | some _ => none
  | none => s.script

theorem Settings.file?_of_some (h : s.source.nonempty? = some text) : s.file? = none := by
  rw [file?, h]

theorem Settings.file?_of_none (h : s.source.nonempty? = none) : s.file? = s.script := by
  rw [file?, h]

/-- The text of a script that is read from no file. -/
def Intake.inlineText (i : Intake) (s : Settings) : Except Fault Bytes :=
  match s.source.nonempty? with
  | some text => i.encode text
  | none => i.input

theorem Intake.inlineText_of_some (h : s.source.nonempty? = some text) :
    i.inlineText s = i.encode text := by
  rw [inlineText, h]

theorem Intake.inlineText_of_none (h : s.source.nonempty? = none) : i.inlineText s = i.input := by
  rw [inlineText, h]

/-- Reading a script leaves the world as it is. -/
theorem Intake.readScript_eq (i : Intake) (s : Settings) (w : World) :
    i.readScript s w =
      (match s.file? with
        | some script => (·, .ofText script) <$> sourceAt w (.ofText script)
        | none => (·, .ofText inlineName) <$> i.inlineText s, w) := by
  unfold readScript Settings.file? inlineText
  cases s.source.nonempty? with
  | some text =>
    dsimp only
    rw [bind_apply, ask_apply]
    cases i.encode text <;> rfl
  | none =>
    cases s.script with
    | none =>
      dsimp only
      rw [bind_apply, ask_apply]
      cases i.input <;> rfl
    | some script =>
      dsimp only
      rw [bind_apply, ask_apply, World.isFile, sourceAt]
      cases w.lookup? (.ofText script) with
      | error f => rfl
      | ok n? =>
        dsimp only [Functor.map, Except.map]
        split
        · rw [bind_apply, ask_apply]
          cases w.read (.ofText script) <;> rfl
        · rfl

def Settings.inlineText (s : Settings) (input : Bytes) : Bytes :=
  match s.source.nonempty? with
  | some text => Utf8.encode text
  | none => input

theorem Intake.inlineText_plain (s : Settings) (input : Bytes) :
    (plain input).inlineText s = .ok (s.inlineText input) := by
  unfold inlineText Settings.inlineText
  cases s.source.nonempty? with
  | some text => exact encode_plain input text
  | none => rfl

/-- Where no file is named and all words are texts, reading a script cannot fail. -/
theorem readScript_eq (s : Settings) (input : Bytes) (w : World) :
    readScript s input w =
      (match s.file? with
        | some script => (·, .ofText script) <$> sourceAt w (.ofText script)
        | none => .ok (s.inlineText input, .ofText inlineName), w) := by
  rw [readScript, Intake.readScript_eq, Intake.inlineText_plain]
  rfl

theorem Intake.path_of_readScript (h : (i.readScript s w).1 = .ok (source, p)) :
    p = .ofText inlineName ∨ ∃ script, s.file? = some script ∧ p = .ofText script := by
  rw [readScript_eq] at h
  cases hfile : s.file? with
  | none =>
    rw [hfile] at h
    obtain ⟨_, -, heq⟩ := map_eq_ok_iff.1 h
    cases heq
    exact .inl rfl
  | some script =>
    rw [hfile] at h
    obtain ⟨_, -, heq⟩ := map_eq_ok_iff.1 h
    cases heq
    exact .inr ⟨script, rfl, rfl⟩

theorem Intake.readScript_listening (i : Intake) (s : Settings) (w : World) :
    i.readScript s (listening s w) = ((i.readScript s w).1, listening s w) := by
  obtain ⟨threshold, hw⟩ := listening_eq s w
  rw [hw, readScript_eq, readScript_eq]
  rfl

theorem sourceAt_of_isFile (h : w.isFile p = .ok true) : sourceAt w p = w.read p := by
  unfold World.isFile at h
  unfold sourceAt
  cases hlookup : w.lookup? p with
  | error f =>
    rw [hlookup] at h
    cases h
  | ok n? =>
    rw [hlookup] at h
    exact if_pos (Except.ok.inj h)

theorem readScript_of_file {input : Bytes} (hsource : s.source.nonempty? = none)
    (hscript : s.script = some script) (hisFile : w.isFile (.ofText script) = .ok true)
    (hread : w.read (.ofText script) = .ok source) :
    (readScript s input w).1 = .ok (source, .ofText script) := by
  rw [readScript_eq, Settings.file?_of_none hsource, hscript]
  dsimp only
  rw [sourceAt_of_isFile hisFile, hread]
  rfl

end reading

namespace Intake

section imports

variable {i : Intake} {s : Settings} {f : Fault} {imported : Scaffold.Import}
  {imports : List Scaffold.Import}

theorem clean_importText :
    i.escapes.Clean (Scaffold.importText imported) ↔ i.escapes.Clean imported.package := by
  have hbefore : i.escapes.Clean " import . \"" := Text.Escapes.clean_of_ascii (by decide)
  have hbehind : i.escapes.Clean "\";" := Text.Escapes.clean_of_ascii (by decide)
  simp [Scaffold.importText, Text.Escapes.clean_append, hbefore, hbehind]

theorem encodeImports_eq_ok_iff : i.encodeImports imports = .ok () ↔
    ∀ imported ∈ imports, i.escapes.Clean imported.package := by
  induction imports with
  | nil => simp [encodeImports]
  | cons imported imports ih =>
    rw [List.forall_mem_cons, ← clean_importText, ← ih, encodeImports]
    cases hencode : i.encode (Scaffold.importText imported) with
    | ok => simp [(encode_eq_ok_iff.1 hencode).1]
    | error f =>
      have hunclean : ¬ i.escapes.Clean (Scaffold.importText imported) := fun h => by
        cases (encode_of_clean h).symm.trans hencode
      simp [hunclean]

theorem encodeImports_eq_error (h : i.encodeImports imports = .error f) :
    ∃ e, f = .unencodable e := by
  induction imports with
  | nil => cases h
  | cons imported imports ih =>
    rw [encodeImports] at h
    cases hencode : i.encode (Scaffold.importText imported) with
    | ok => exact ih (by simpa only [hencode] using h)
    | error g =>
      obtain ⟨e, -, rfl⟩ := encode_eq_error_iff.1 hencode
      simp only [hencode, Except.error.injEq] at h
      exact ⟨e, h.symm⟩

/-- The imports that a program always has are ASCII; only the helper package is the command
line's. -/
theorem encodeImports_buildOptions : i.encodeImports (buildOptions s).imports = .ok () ↔
    (s.noHelper = false → i.escapes.Clean s.helperPackage.display) := by
  have hascii : ∀ imported ∈ Scaffold.standardImports,
      imported.package.toList.all (·.toNat < 0x80) := by decide
  have hstandard : ∀ imported ∈ Scaffold.standardImports, i.escapes.Clean imported.package :=
    fun imported himported => Text.Escapes.clean_of_ascii (hascii imported himported)
  rw [encodeImports_eq_ok_iff, buildOptions, Scaffold.importsWith]
  cases s.noHelper with
  | true => simpa using hstandard
  | false => simpa [or_imp, forall_and] using fun _ => hstandard

theorem encodeImports_plain (input : Bytes) (imports : List Scaffold.Import) :
    (plain input).encodeImports imports = .ok () :=
  encodeImports_eq_ok_iff.2 fun imported _ => Text.Escapes.clean_empty imported.package

end imports

section build

variable {i : Intake} {s : Settings} {streams : Streams} {source : Bytes} {p : Path} {w : World}
  {f : Fault}

theorem build_of_encoded (h : i.encodeImports (buildOptions s).imports = .ok ())
    (streams : Streams) (source : Bytes) (p : Path) :
    i.build s streams source p = buildAndRun ⟨s.dryRun, streams.errors⟩ (buildOptions s)
      (.channel streams.output) source p (scriptArgs s) := by
  rw [build, h]

theorem build_plain (input : Bytes) (s : Settings) (streams : Streams) (source : Bytes) (p : Path) :
    (plain input).build s streams source p = buildAndRun ⟨s.dryRun, streams.errors⟩
      (buildOptions s) (.channel streams.output) source p (scriptArgs s) :=
  build_of_encoded (encodeImports_plain input _) streams source p

/-- A script whose imports have no encoding is read, and the rest of the world left as it is. -/
theorem build_of_unencoded (h : i.encodeImports (buildOptions s).imports = .error f)
    (streams : Streams) (source : Bytes) (p : Path) (w : World) :
    ∃ v : World, v.Noted w ∧ i.build s streams source p w = (.error (.fault f), v) := by
  rw [build, h]
  exact ⟨(Script.readNoted source w).2, readNoted_noted source w, rfl⟩

end build

end Intake

end ScriptLauncher.CommandLine
