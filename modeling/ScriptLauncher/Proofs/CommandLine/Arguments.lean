import ScriptLauncher.Proofs.Build.DryRun
import ScriptLauncher.Proofs.CommandLine.Intake
import ScriptLauncher.Proofs.CommandLine.Reading
import ScriptLauncher.Proofs.CommandLine.Words

/-! The words behind a script's name. They reach the script as they are, but for two things that
come of reading them with the options: a separator that stands first is lost, and a word that is
short for several options is refused. -/

namespace ScriptLauncher.CommandLine

open Host Build Session Command

section parse

variable {s t : Settings} {opts args : List String} {script : String} {e : UsageError}
  {words rest argWords : List (String × Word)}

theorem splits_of_parse {argv : List String} (h : parse argv = .accepted s) :
    ∃ words, Word.ofTexts argv = .ok words ∧ Splits .initial words s := by
  unfold parse at h
  cases hwords : Word.ofTexts argv with
  | error e => simp [hwords] at h
  | ok words =>
    simp only [hwords] at h
    exact ⟨words, rfl, (splits_of_accepted h).2⟩

/-- A script without arguments is named by the last word, but for a separator on either side. -/
theorem withPositionals_cases (hstops : Stops rest) (ht : t.script = none)
    (hscript : (t.withPositionals rest).script = some script)
    (hargs : (t.withPositionals rest).args = []) :
    rest = [(script, .argument)] ∨ (∃ text word, rest = [(text, .separator), (script, word)]) ∨
      ∃ text, rest = [(script, .argument), (text, .separator)] := by
  match rest with
  | [] => cases ht.symm.trans hscript
  | [(text, word)] =>
    rcases hstops _ rfl with hword | hword <;> cases hword
    · cases hscript
      exact .inl rfl
    · cases ht.symm.trans hscript
  | (text, word) :: (text', word') :: rest =>
    rcases hstops _ rfl with hword | hword <;> cases hword
    · cases word' with
      | separator =>
        cases hscript
        cases List.map_eq_nil_iff.1 hargs
        exact .inr (.inr ⟨text', rfl⟩)
      | _ => cases hargs
    · cases hscript
      cases List.map_eq_nil_iff.1 hargs
      exact .inr (.inl ⟨text, word', rfl⟩)

theorem parse_of_opening {argv : List String} {options : List (String × Word)}
    (hopening : Opening .initial options t) (hstops : Stops rest)
    (hwords : Word.ofTexts argv = .ok (options ++ rest)) :
    parse argv = .accepted (t.withPositionals rest) := by
  rw [parse, hwords]
  dsimp only
  rw [hopening.reads, readWords_of_stops hstops]
  rfl

/-- Behind a separator among the options no word is anything but itself. -/
theorem parse_of_mem (h : parse (opts ++ [script]) = .accepted s) (hscript : s.script = some script)
    (hargs : s.args = []) (hmem : "--" ∈ opts) (args : List String) :
    parse (opts ++ script :: args) = .accepted { s with args } := by
  obtain ⟨words, hwords, options, rest, t, rfl, hopening, hstops, rfl⟩ := splits_of_parse h
  rw [Word.ofTexts_append_of_mem hmem] at hwords
  cases hopts : Word.ofTexts opts with
  | error e =>
    rw [hopts] at hwords
    cases hwords
  | ok optWords =>
    rw [hopts] at hwords
    replace hwords : optWords ++ [(script, .argument)] = options ++ rest := Except.ok.inj hwords
    rcases withPositionals_cases hstops hopening.script hscript hargs with
      rfl | ⟨text, word, rfl⟩ | ⟨text, rfl⟩
    · -- the separator would be one of the options that are read
      obtain ⟨w, hw, hseparator⟩ := (Word.separator_mem_iff hopts).2 hmem
      obtain ⟨rfl, -⟩ := List.append_inj' hwords rfl
      exact absurd hseparator (hopening.no_separator w hw)
    · rw [List.append_cons options] at hwords
      obtain ⟨rfl, -⟩ := List.append_inj' hwords rfl
      have hall : Word.ofTexts (opts ++ script :: args) = .ok (options ++
          (text, .separator) :: (script, .argument) :: args.map (·, .argument)) := by
        rw [Word.ofTexts_append_of_mem hmem, hopts]
        exact congrArg Except.ok (List.append_assoc ..)
      rw [parse_of_opening hopening (by simp [Stops]) hall]
      simp [Settings.withPositionals, Function.comp_def]
    · rw [List.append_cons options] at hwords
      obtain ⟨-, hlast⟩ := List.append_inj' hwords rfl
      cases hlast

/-- Without a separator among the options, the script's name is the first word that is none. -/
theorem opening_of_not_mem (h : parse (opts ++ [script]) = .accepted s)
    (hscript : s.script = some script) (hargs : s.args = []) (hmem : "--" ∉ opts) :
    script ≠ "--" ∧ Word.ofText script = .ok .argument ∧
      ∃ options t, Word.ofTexts opts = .ok options ∧ Opening .initial options t ∧
        s = t.withPositionals [(script, .argument)] := by
  obtain ⟨words, hwords, options, rest, t, rfl, hopening, hstops, rfl⟩ := splits_of_parse h
  obtain ⟨optWords, scriptWords, hopts, hlast, hwords⟩ := (Word.ofTexts_append_eq_ok hmem).1 hwords
  have hnone : ∀ w ∈ optWords, w.2 ≠ .separator := fun w hw hseparator =>
    hmem ((Word.separator_mem_iff hopts).1 ⟨w, hw, hseparator⟩)
  have hseparator := Word.separator_mem_iff hlast
  obtain ⟨word, rfl⟩ : ∃ word, scriptWords = [(script, word)] := by
    obtain ⟨w, hw, hname⟩ := List.map_eq_singleton_iff.1 (Word.map_fst_ofTexts hlast)
    exact ⟨w.2, by rw [hw, ← hname]⟩
  rcases withPositionals_cases hstops hopening.script hscript hargs with
    rfl | ⟨text, word', rfl⟩ | ⟨text, rfl⟩
  · obtain ⟨rfl, hlast'⟩ := List.append_inj' hwords rfl
    cases hlast'
    have hne : script ≠ "--" := by simpa [eq_comm] using hseparator
    obtain ⟨_, _, hword, -, heq⟩ := (Word.ofTexts_cons_eq_ok hne).1 hlast
    cases heq
    exact ⟨hne, hword, optWords, t, hopts, hopening, rfl⟩
  · rw [List.append_cons options] at hwords
    obtain ⟨rfl, -⟩ := List.append_inj' hwords rfl
    exact absurd rfl (hnone (text, .separator) (by simp))
  · rw [List.append_cons options] at hwords
    obtain ⟨rfl, hlast'⟩ := List.append_inj' hwords rfl
    cases hlast'
    -- the last word is a separator that names the script, so another one stands before it
    have hname : script = "--" := by simpa [eq_comm] using hseparator
    have hopts' : script ∈ opts := by
      rw [← Word.map_fst_ofTexts hopts]
      simp
    exact absurd (hname ▸ hopts') hmem

/-- The words behind a script's name that the script is given. -/
def passed (opts args : List String) : List String :=
  if "--" ∉ opts ∧ args.head? = some "--" then args.tail else args

theorem passed_eq_self_iff :
    passed opts args = args ↔ "--" ∈ opts ∨ args.head? ≠ some "--" := by
  unfold passed
  split
  · next h =>
    obtain ⟨hmem, hhead⟩ := h
    obtain ⟨rest, rfl⟩ := List.head?_eq_some_iff.1 hhead
    simp [hmem]
  · next h => simpa [Decidable.or_iff_not_imp_left] using h

theorem args_withPositionals (h : Word.ofTexts args = .ok argWords) :
    t.withPositionals ((script, .argument) :: argWords) =
      { t with script, args := if args.head? = some "--" then args.tail else args } := by
  have hnames := Word.map_fst_ofTexts h
  cases args with
  | nil =>
    cases h
    rfl
  | cons text rest =>
    by_cases hseparator : text = "--"
    · subst hseparator
      cases h
      simp [Settings.withPositionals, Function.comp_def]
    · obtain ⟨word, words, hword, -, rfl⟩ := (Word.ofTexts_cons_eq_ok hseparator).1 h
      have hne := Word.ne_separator_of_ofText hword
      rw [List.head?_cons, if_neg (by simpa using hseparator), ← hnames]
      cases word with
      | separator => exact absurd rfl hne
      | _ => rfl

/-- A script's name, once accepted, is accepted with any words behind it that are understood. -/
theorem parse_append (h : parse (opts ++ [script]) = .accepted s) (hscript : s.script = some script)
    (hargs : s.args = []) (args : List String) :
    ("--" ∈ opts ∨ Understood args →
      parse (opts ++ script :: args) = .accepted { s with args := passed opts args }) ∧
    ("--" ∉ opts → ¬ Understood args → ∃ e, parse (opts ++ script :: args) = .refused e) := by
  by_cases hmem : "--" ∈ opts
  · refine ⟨fun _ => ?_, fun hnot => absurd hmem hnot⟩
    rw [parse_of_mem h hscript hargs hmem, passed_eq_self_iff.2 (.inl hmem)]
  · obtain ⟨hne, hword, options, t, hopts, hopening, rfl⟩ :=
      opening_of_not_mem h hscript hargs hmem
    constructor
    · intro hunderstood
      obtain ⟨argWords, hargWords⟩ :=
        Word.ofTexts_of_understood (hunderstood.resolve_left hmem)
      have hall : Word.ofTexts (opts ++ script :: args) =
          .ok (options ++ (script, .argument) :: argWords) :=
        (Word.ofTexts_append_eq_ok hmem).2 ⟨options, _, hopts,
          (Word.ofTexts_cons_eq_ok hne).2 ⟨_, argWords, hword, hargWords, rfl⟩, rfl⟩
      rw [parse_of_opening hopening (by simp [Stops]) hall, args_withPositionals hargWords]
      simp [passed, hmem, Settings.withPositionals]
    · intro _ hambiguous
      have hall : ¬ Understood (opts ++ script :: args) := fun hall =>
        hambiguous ((Word.understood_cons hne).1 ((Word.understood_append hmem).1 hall).2).2
      obtain ⟨e, he⟩ := Word.ofTexts_error_iff.2 hall
      exact ⟨e, by rw [parse, he]⟩

theorem passed_cases (opts args : List String) :
    passed opts args = args ∨ "--" :: passed opts args = args := by
  unfold passed
  split
  · next h =>
    obtain ⟨rest, rfl⟩ := List.head?_eq_some_iff.1 h.2
    exact .inr rfl
  · exact .inl rfl

/-- No word behind a script's name is read as a setting. -/
theorem parse_append_settings (h : parse (opts ++ [script]) = .accepted s)
    (hscript : s.script = some script) (hargs : s.args = []) (args : List String) :
    (∀ t, parse (opts ++ script :: args) = .accepted t →
      t = { s with args := t.args } ∧ (t.args = args ∨ "--" :: t.args = args)) ∧
    ((∃ t, parse (opts ++ script :: args) = .accepted t) ↔ "--" ∈ opts ∨ Understood args) := by
  obtain ⟨haccepted, hrefused⟩ := parse_append h hscript hargs args
  have hunderstood {t} (ht : parse (opts ++ script :: args) = .accepted t) :
      "--" ∈ opts ∨ Understood args := by
    refine Classical.byContradiction fun hnot => ?_
    rw [not_or] at hnot
    obtain ⟨e, he⟩ := hrefused hnot.1 hnot.2
    cases ht.symm.trans he
  refine ⟨fun t ht => ?_, fun ⟨_, ht⟩ => hunderstood ht, fun h => ⟨_, haccepted h⟩⟩
  cases ht.symm.trans (haccepted (hunderstood ht))
  exact ⟨rfl, passed_cases opts args⟩

/-- Words that look like settings stay behind the name, and the separator before them goes. -/
theorem parse_append_settings_of_options :
    let opts := ["--noclean", "--comp=a"]
    let args := ["--", "--dry-run", "--compiler=x", "-h"]
    let s := { Settings.initial with
      noClean := true, compiler := .text "a", script := some "x.go" }
    parse (opts ++ ["x.go"]) = .accepted s ∧
      ∃ t, parse (opts ++ "x.go" :: args) = .accepted t ∧
        t = { s with args := t.args } ∧ (t.args = args ∨ "--" :: t.args = args) := by
  intro opts args s
  have hparse : parse (opts ++ ["x.go"]) = .accepted s := by decide +kernel
  obtain ⟨hsame, haccepted⟩ := parse_append_settings hparse rfl rfl args
  obtain ⟨t, ht⟩ := haccepted.2 (.inr (by decide +kernel))
  exact ⟨hparse, t, ht, hsame t ht⟩

end parse

section run

variable {i : Intake} {s : Settings} {argv opts args : List String} {script : String}
  {input source : Bytes} {streams : Streams} {w : World} {file p : Path} {e : UsageError}

/-- All that the option for more records does, it does before a script is read. -/
theorem Intake.runAccepted_listening (i : Intake) (s : Settings) (streams : Streams) (w : World) :
    i.runAccepted s streams w =
      i.runAccepted { s with verbose := false } streams (listening s w) := by
  unfold runAccepted listening
  cases s.verbose <;> rfl

theorem Intake.runAccepted_of_read (hread : (i.readScript s w).1 = .ok (source, p))
    (streams : Streams) :
    i.runAccepted s streams w = i.runScript s streams source p (listening s w) := by
  have hread' : i.readScript { s with verbose := false } (listening s w) =
      (.ok (source, p), listening s w) :=
    (i.readScript_listening s w).trans (Prod.ext hread rfl)
  rw [runAccepted_listening, runAccepted]
  simp only [Bool.false_eq_true, if_false]
  rw [attempt_bind, hread']
  rfl

theorem Intake.runScript_plain (input : Bytes) (s : Settings) (streams : Streams) (source : Bytes)
    (p : Path) :
    (plain input).runScript s streams source p = CommandLine.runScript s streams source p := by
  rw [CommandLine.runScript, runScript, runScript, build_plain, build_plain]

theorem runAccepted_of_read (hread : (readScript s input w).1 = .ok (source, p))
    (streams : Streams) :
    runAccepted s input streams w = runScript s streams source p (listening s w) := by
  rw [runAccepted, Intake.runAccepted_of_read hread, Intake.runScript_plain]

/-- Telling how a script ended starts nothing. -/
theorem starts_runScript (s : Settings) (streams : Streams) (source : Bytes) (p : Path)
    (v : World) :
    (runScript s streams source p v).2.starts =
      (buildAndRun ⟨s.dryRun, streams.errors⟩ (buildOptions s) (.channel streams.output) source p
        (scriptArgs s) v).2.starts := by
  rw [runScript, Intake.runScript, attempt_bind, Intake.build_plain]
  cases buildAndRun ⟨s.dryRun, streams.errors⟩ (buildOptions s) (.channel streams.output) source p
      (scriptArgs s) v with
  | mk ended v =>
    cases ended with
    | ok => rfl
    | error stop =>
      dsimp only
      cases stop.message? <;> rfl

theorem Intake.run_of_parse (h : parse argv = .accepted s) (i : Intake) (streams : Streams) :
    i.run argv streams = i.runAccepted s streams := by
  rw [run, h]

theorem run_of_parse (h : parse argv = .accepted s) (input : Bytes) (streams : Streams)
    (w : World) : run argv input streams w = runAccepted s input streams w := by
  rw [run, Intake.run_of_parse h, runAccepted]

theorem starts_run (hparse : parse argv = .accepted s) (hreal : s.dryRun = false)
    (hsource : s.source.nonempty? = none) (hscript : s.script = some script)
    (hisFile : w.isFile (.ofText script) = .ok true)
    (hread : w.read (.ofText script) = .ok source)
    (hhome : ∀ f, w.homeText = .error f → f.isOfSystem = true)
    (hfile : (written (buildOptions s) (.channel streams.output) source (.ofText script)
      (listening s w)).1 = .ok file)
    (hok : Termination.ofStart (Session.start (buildStart (buildOptions s).compiler file)
      (written (buildOptions s) (.channel streams.output) source (.ofText script)
        (listening s w)).2).1 = .exited 0) :
    (run argv input streams w).2.starts = w.starts ++
      [buildStart (buildOptions s).compiler file,
        runStart w.homeText file (.ofText script) s.args] := by
  obtain ⟨threshold, h⟩ := listening_eq s w
  have hargs : scriptArgs s = s.args := by rw [scriptArgs, hsource]
  rw [run_of_parse hparse, runAccepted_of_read (readScript_of_file hsource hscript hisFile hread),
    starts_runScript, hreal, hargs]
  rw [h] at hfile hok ⊢
  exact starts_real_of_ok hfile hhome hok streams.errors s.args

theorem run_of_refused (hparse : parse argv = .refused e) :
    (run argv input streams w).1 = .ok usageStatus ∧
      (run argv input streams w).2.starts = w.starts := by
  unfold run Intake.run
  rw [hparse]
  obtain ⟨records, h⟩ := note_noted .warning .commandLine "Argument parsing failed"
    [("argv", Text.quoteList argv)] (w.tell .errors e.report)
  refine ⟨rfl, ?_⟩
  show (note _ _ _ _ (w.tell .errors e.report)).2.starts = w.starts
  rw [h]
  rfl

/-- A script that is accepted without words behind its name, and whose compiler exits with zero, is
started with just the words that stand behind its name, if the options held a separator or if
those words neither begin with one nor have an ambiguous one before their first. Otherwise it is
started without the separator that comes first, or nothing is started. -/
theorem run_passes_iff (opts : List String) (streams : Streams)
    (hparse : parse (opts ++ [script]) = .accepted s)
    (hscript : s.script = some script) (hargs : s.args = [])
    (hreal : s.dryRun = false) (hsource : s.source.nonempty? = none)
    (hisFile : w.isFile (.ofText script) = .ok true)
    (hread : w.read (.ofText script) = .ok source)
    (hhome : ∀ f, w.homeText = .error f → f.isOfSystem = true)
    (hfile : (written (buildOptions s) (.channel streams.output) source (.ofText script)
      (listening s w)).1 = .ok file)
    (hok : Termination.ofStart (Session.start (buildStart (buildOptions s).compiler file)
      (written (buildOptions s) (.channel streams.output) source (.ofText script)
        (listening s w)).2).1 = .exited 0) (args : List String) (input : Bytes) :
    let ended := run (opts ++ script :: args) input streams w
    let build := buildStart (buildOptions s).compiler file
    let program (words : List String) := runStart w.homeText file (.ofText script) words
    (ended.2.starts = w.starts ++ [build, program args] ↔
      "--" ∈ opts ∨ (Understood args ∧ args.head? ≠ some "--")) ∧
    ("--" ∉ opts → args.head? = some "--" →
      ended.2.starts = w.starts ++ [build, program args.tail]) ∧
    ("--" ∉ opts → ¬ Understood args →
      ended.1 = .ok usageStatus ∧ ended.2.starts = w.starts) := by
  intro ended build program
  obtain ⟨haccepted, hrefused⟩ := parse_append hparse hscript hargs args
  have hpassed (h : "--" ∈ opts ∨ Understood args) :
      ended.2.starts = w.starts ++ [build, program (passed opts args)] :=
    starts_run (s := { s with args := passed opts args }) (haccepted h) hreal hsource hscript
      hisFile hread hhome hfile hok
  have hnothing (hmem : "--" ∉ opts) (h : ¬ Understood args) :
      ended.1 = .ok usageStatus ∧ ended.2.starts = w.starts := by
    obtain ⟨e, he⟩ := hrefused hmem h
    exact run_of_refused he
  refine ⟨⟨fun hstarts => ?_, fun h => ?_⟩, fun hmem hhead => ?_, hnothing⟩
  · by_cases hunderstood : "--" ∈ opts ∨ Understood args
    · have hprogram := List.append_cancel_left (hstarts.symm.trans (hpassed hunderstood))
      have hsame : passed opts args = args := by
        simpa [program, runStart, plainStart, eq_comm] using hprogram
      have hhead := passed_eq_self_iff.1 hsame
      exact hunderstood.elim .inl fun h => hhead.imp_right fun hne => ⟨h, hne⟩
    · rw [not_or] at hunderstood
      obtain ⟨hmem, hambiguous⟩ := hunderstood
      have hnone := (hnothing hmem hambiguous).2.symm.trans hstarts
      simp at hnone
  · have hsame := passed_eq_self_iff.2 (h.imp_right And.right)
    rw [hpassed (h.imp_right And.left), hsame]
  · have hsame : passed opts args = args.tail := if_pos ⟨hmem, hhead⟩
    obtain ⟨rest, rfl⟩ := List.head?_eq_some_iff.1 hhead
    rw [hpassed (.inr (by simp [Understood])), hsame]

/-- A world with an empty script in it, whose children all succeed. -/
def emptyScript : World :=
  { World.initial [] (.ofText "/tmp") .warning with
    tree := (FileTree.empty.put ["tmp"] .directory).put ["x.go"] (.file [])
    tokens := ["0badc0de"] }

def emptySettings : Settings := { Settings.initial with script := some "/x.go" }

def emptySource : Path := ⟨.single, ["tmp", "goscript-0badc0de-x.go"]⟩

theorem buildOptions_emptySettings : buildOptions emptySettings = .default := rfl

theorem written_emptyScript :
    (written (buildOptions emptySettings) (.channel .output) [] (.ofText "/x.go") emptyScript).1 =
      .ok emptySource := by
  rw [buildOptions_emptySettings]
  rfl

theorem exited_emptyScript :
    Termination.ofStart (Session.start (buildStart defaultCompiler emptySource)
      (written (buildOptions emptySettings) (.channel .output) [] (.ofText "/x.go")
        emptyScript).2).1 = .exited 0 := by
  rw [buildOptions_emptySettings]
  rfl

theorem run_passes_iff_emptyScript :
    let ended := run ["--compiler", "go", "/x.go", "-h", "--noclean", "a b"] [] ⟨.output, .errors⟩
      emptyScript
    parse ["--compiler", "go", "/x.go"] = .accepted emptySettings ∧
      emptyScript.isFile (.ofText "/x.go") = .ok true ∧
      emptyScript.read (.ofText "/x.go") = .ok [] ∧
      ended.2.starts =
        [⟨["go", "build", "-o", "/tmp/goscript-0badc0de-x.go.exe", "/tmp/goscript-0badc0de-x.go"],
            false, false⟩,
          ⟨["/tmp/goscript-0badc0de-x.go.exe", "/x.go", "-h", "--noclean", "a b"],
            false, false⟩] := by
  intro ended
  have hparse : parse ["--compiler", "go", "/x.go"] = .accepted emptySettings := by decide +kernel
  have hpasses := (run_passes_iff (w := emptyScript) ["--compiler", "go"] ⟨.output, .errors⟩ hparse
    rfl rfl rfl rfl rfl rfl nofun written_emptyScript exited_emptyScript
    ["-h", "--noclean", "a b"] []).1
  exact ⟨hparse, rfl, rfl, hpasses.2 (.inr (by decide +kernel))⟩

/-- A first separator does not reach the script, and a word that is short for two options keeps it
from being started. -/
theorem not_forall_run_passes :
    parse ["/x.go"] = .accepted emptySettings ∧
      emptyScript.isFile (.ofText "/x.go") = .ok true ∧
      emptyScript.read (.ofText "/x.go") = .ok [] ∧
      ¬ (∀ args : List String, (∀ arg ∈ args, World.holdsNull arg = false) →
        (run ("/x.go" :: args) [] ⟨.output, .errors⟩ emptyScript).2.starts =
          [buildStart defaultCompiler emptySource,
            runStart emptyScript.homeText emptySource (.ofText "/x.go") args]) ∧
      (run ["/x.go", "--", "a"] [] ⟨.output, .errors⟩ emptyScript).2.starts =
        [buildStart defaultCompiler emptySource,
          runStart emptyScript.homeText emptySource (.ofText "/x.go") ["a"]] ∧
      (run ["/x.go", "--no"] [] ⟨.output, .errors⟩ emptyScript).2.starts = [] := by
  have hnothing : (run ["/x.go", "--no"] [] ⟨.output, .errors⟩ emptyScript).2.starts = [] := by
    decide +kernel
  refine ⟨by decide +kernel, rfl, rfl, fun h => ?_, by decide +kernel, hnothing⟩
  cases hnothing.symm.trans (h ["--no"] (by decide))

end run

end ScriptLauncher.CommandLine
