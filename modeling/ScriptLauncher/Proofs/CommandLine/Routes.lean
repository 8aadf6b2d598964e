import ScriptLauncher.Proofs.CommandLine.Arguments

/-! The three ways to a script's text: from the option, from standard input and from a file. Where
the file bears the name of a script that comes from none, a run cannot tell them apart. -/

namespace ScriptLauncher.CommandLine

open Host Build Session

namespace Settings

variable (s : Settings) (o : Opt) (h : Held)

@[simp] theorem source_turnOn : (s.turnOn o).source = s.source := by cases o <;> rfl

@[simp] theorem source_foldl_turnOn (os : List Opt) :
    (os.foldl turnOn s).source = s.source := by
  induction os generalizing s with
  | nil => rfl
  | cons o os ih => rw [List.foldl_cons, ih, source_turnOn]

theorem source_hold {o : Opt} (ho : o ≠ .source) : (s.hold h o).source = s.source := by
  cases o with
  | source => exact absurd rfl ho
  | _ => rfl

@[simp] theorem source_withPositionals (words : List (String × Word)) :
    (s.withPositionals words).source = s.source := by
  unfold withPositionals
  split <;> rfl

end Settings

/-- Words that spell an option, in full or cut short, with a value or without. -/
inductive Word.Spells (o : Opt) : Word → Prop
  | letter (value : Option String) : Spells o (.letter o value)
  | long (value : Option String) : Spells o (.long o value)

variable {s t u : Settings} {unknown opts : List String} {words : List (String × Word)}
  {c text : String} {input source : Bytes} {streams : Streams} {w : World} {p : Path}

/-- A command line that does not spell the option for the source leaves the source as it was. -/
theorem source_of_accepted (h : readWords s unknown words = .accepted u)
    (hwords : ∀ w ∈ words, ¬ w.2.Spells .source) : u.source = s.source := by
  fun_induction readWords s unknown words with
  | case1 => rw [(accepted_of_verdict h).2]
  | case2 _ _ _ _ ih => exact ih h (List.forall_mem_cons.1 hwords).2
  | case3 s _ _ o _ _ _ ih | case7 s _ _ o _ _ _ ih =>
    obtain ⟨hword, hrest⟩ := List.forall_mem_cons.1 hwords
    have hne : o ≠ .source := by rintro rfl; exact hword (by constructor)
    rw [ih h (List.forall_mem_cons.1 hrest).2, s.source_hold _ hne]
  | case6 _ _ _ _ _ _ _ ih | case10 _ _ _ _ _ _ _ ih =>
    rw [ih h (List.forall_mem_cons.1 hwords).2, Settings.source_turnOn]
  | case11 s _ _ o _ _ _ ih | case16 s _ _ o _ _ _ ih =>
    obtain ⟨hword, hrest⟩ := List.forall_mem_cons.1 hwords
    have hne : o ≠ .source := by rintro rfl; exact hword (by constructor)
    rw [ih h hrest, s.source_hold _ hne]
  | case15 _ _ _ _ _ _ _ _ _ _ _ ih =>
    rw [ih h (List.forall_mem_cons.1 hwords).2, Settings.source_foldl_turnOn]
  | case18 => rw [(accepted_of_verdict h).2, Settings.source_withPositionals]
  | _ => cases h

/-- Without a script and without a separator, a command line is options alone. -/
theorem opening_of_scriptless (h : parse opts = .accepted s) (hscript : s.script = none)
    (hmem : "--" ∉ opts) :
    ∃ options, Word.ofTexts opts = .ok options ∧ Opening .initial options s := by
  obtain ⟨words, hwords, options, rest, t, rfl, hopening, hstops, rfl⟩ := splits_of_parse h
  have hnone : ∀ w ∈ rest, w.2 ≠ .separator := fun w hw hseparator =>
    hmem ((Word.separator_mem_iff hwords).1 ⟨w, List.mem_append_right _ hw, hseparator⟩)
  cases rest with
  | nil =>
    rw [List.append_nil] at hwords
    exact ⟨options, hwords, hopening⟩
  | cons first rest =>
    obtain ⟨text, word⟩ := first
    obtain rfl := (hstops _ rfl).resolve_right (hnone _ (by simp))
    cases rest with
    | nil => cases hscript
    | cons second rest =>
      obtain ⟨text', word'⟩ := second
      cases word' <;> cases hscript

theorem args_of_scriptless (h : parse opts = .accepted s) (hscript : s.script = none)
    (hmem : "--" ∉ opts) : s.args = [] := by
  obtain ⟨options, -, hopening⟩ := opening_of_scriptless h hscript hmem
  exact hopening.args

theorem source_of_parse (h : parse opts = .accepted s) (hmem : "--" ∉ opts)
    (hopts : ∀ text ∈ opts, ∀ word, Word.ofText text = .ok word → ¬ word.Spells .source) :
    s.source = .text "" := by
  unfold parse at h
  cases hwords : Word.ofTexts opts with
  | error e => simp [hwords] at h
  | ok words =>
    simp only [hwords] at h
    refine source_of_accepted h fun w hw => ?_
    obtain ⟨hw, hword⟩ := Word.ofText_of_mem hmem hwords w hw
    exact hopts w.1 hw w.2 hword

/-- A word that is no option names the script of a command line that has none. -/
theorem parse_append_argument (h : parse opts = .accepted s) (hscript : s.script = none)
    (hmem : "--" ∉ opts) (htext : Word.ofText text = .ok .argument) :
    parse (opts ++ [text]) = .accepted { s with script := some text, args := [] } := by
  obtain ⟨options, hoptions, hopening⟩ := opening_of_scriptless h hscript hmem
  have hall : Word.ofTexts (opts ++ [text]) = .ok (options ++ [(text, .argument)]) :=
    (Word.ofTexts_append_eq_ok hmem).2 ⟨options, _, hoptions,
      (Word.ofTexts_cons_eq_ok (Word.ne_of_ofText htext)).2 ⟨_, [], htext, rfl, rfl⟩, rfl⟩
  exact parse_of_opening hopening (by simp [Stops]) hall

/-- A source that is accepted behind the options is held as it is. -/
theorem parse_append_source (h : parse opts = .accepted s) (hscript : s.script = none)
    (hmem : "--" ∉ opts) :
    (∀ t, parse (opts ++ ["--src", c]) = .accepted t → t = { s with source := .text c }) ∧
      (Word.ofText c = .ok .argument →
        parse (opts ++ ["--src", c]) = .accepted { s with source := .text c }) := by
  obtain ⟨options, hoptions, hopening⟩ := opening_of_scriptless h hscript hmem
  have hsrc : Word.ofText "--src" = .ok (.long .source none) := rfl
  have hall {word : Word} (hc : Word.ofTexts [c] = .ok [(c, word)]) :
      parse (opts ++ ["--src", c]) =
        readWords s [] [("--src", .long .source none), (c, word)] := by
    have hwords : Word.ofTexts (opts ++ ["--src", c]) =
        .ok (options ++ [("--src", .long .source none), (c, word)]) :=
      (Word.ofTexts_append_eq_ok hmem).2 ⟨options, _, hoptions,
        (Word.ofTexts_cons_eq_ok (by decide)).2 ⟨_, _, hsrc, hc, rfl⟩, rfl⟩
    rw [parse, hwords]
    exact hopening.reads _
  refine ⟨fun t ht => ?_, fun hc => ?_⟩
  · cases hwords : Word.ofTexts [c] with
    | error e =>
      obtain ⟨words, hwords', -⟩ := splits_of_parse ht
      obtain ⟨_, _, -, hlast, -⟩ := (Word.ofTexts_append_eq_ok hmem).1 hwords'
      obtain ⟨_, _, -, hlast, -⟩ := (Word.ofTexts_cons_eq_ok (by decide)).1 hlast
      cases hwords.symm.trans hlast
    | ok words =>
      obtain ⟨w, rfl, hname⟩ := List.map_eq_singleton_iff.1 (Word.map_fst_ofTexts hwords)
      obtain ⟨text, word⟩ := w
      obtain rfl : text = c := hname
      rw [hall hwords] at ht
      cases word with
      | argument => exact (Verdict.accepted.inj ht).symm
      | _ => cases ht
  · rw [hall ((Word.ofTexts_cons_eq_ok (Word.ne_of_ofText hc)).2 ⟨_, [], hc, rfl, rfl⟩)]
    rfl

/-- A run depends on its settings through the script that they name and through what a build is
told of them. -/
theorem run_eq_runScript {argv : List String} (hparse : parse argv = .accepted t)
    (hread : (readScript t input w).1 = .ok (source, p))
    (hverbose : t.verbose = s.verbose) (hdry : t.dryRun = s.dryRun)
    (hoptions : buildOptions t = buildOptions s) (hargs : scriptArgs t = scriptArgs s) :
    run argv input streams w = runScript s streams source p (listening s w) := by
  have hlistening : listening t w = listening s w := by rw [listening, listening, hverbose]
  rw [run_of_parse hparse, runAccepted_of_read hread, hlistening, runScript, runScript,
    Intake.runScript, Intake.runScript, Intake.build_plain, Intake.build_plain, hdry, hoptions, hargs]

/-- A script that is not empty runs the same, to the last child and the last record, whether its
text is an option's, comes from standard input or stands in a file of the name that it has then. -/
theorem run_routes_agree (hparse : parse opts = .accepted s) (hscript : s.script = none)
    (hmem : "--" ∉ opts)
    (hopts : ∀ text ∈ opts, ∀ word, Word.ofText text = .ok word → ¬ word.Spells .source)
    (hc : c ≠ "") (hisFile : w.isFile (.ofText inlineName) = .ok true)
    (hread : w.read (.ofText inlineName) = .ok (Utf8.encode c)) (streams : Streams) :
    let piped := run opts (Utf8.encode c) streams w
    (∀ input, run (opts ++ [inlineName]) input streams w = piped) ∧
      (∀ t, parse (opts ++ ["--src", c]) = .accepted t →
        t.source = .text c ∧ ∀ input, run (opts ++ ["--src", c]) input streams w = piped) ∧
      (Word.ofText c = .ok .argument → ∃ t, parse (opts ++ ["--src", c]) = .accepted t) := by
  intro piped
  have hsource : s.source.nonempty? = none := by
    rw [source_of_parse hparse hmem hopts]
    rfl
  have hargs : s.args = [] := args_of_scriptless hparse hscript hmem
  have hwords : scriptArgs s = [] := by rw [scriptArgs, hsource, hargs]
  have hpiped : piped =
      runScript s streams (Utf8.encode c) (.ofText inlineName) (listening s w) := by
    refine run_eq_runScript hparse ?_ rfl rfl rfl rfl
    rw [readScript_eq, Settings.file?, Settings.inlineText, hsource, hscript]
  obtain ⟨hsame, haccepted⟩ := parse_append_source (c := c) hparse hscript hmem
  refine ⟨fun input => ?_, fun t ht => ?_, fun h => ⟨_, haccepted h⟩⟩
  · have hname : Word.ofText inlineName = .ok .argument := rfl
    have hparse' := parse_append_argument hparse hscript hmem hname
    rw [hpiped]
    refine run_eq_runScript hparse' (readScript_of_file hsource rfl hisFile hread) rfl rfl rfl ?_
    rw [hwords, scriptArgs, hsource]
  · obtain rfl := hsame t ht
    have hheld : (Held.text c).nonempty? = some c := if_neg hc
    refine ⟨rfl, fun input => ?_⟩
    rw [hpiped]
    refine run_eq_runScript ht ?_ rfl rfl rfl ?_
    · rw [readScript_eq, Settings.file?, Settings.inlineText, hheld]
    · rw [hwords, scriptArgs, hheld, hscript]
      exact hargs

/-- A world with a script in it that bears the name of those that come from no file. -/
def namelessScript : World :=
  { World.initial [] (.ofText "/tmp") .warning with
    tree := (FileTree.empty.put ["tmp"] .directory).put [inlineName] (.file (Utf8.encode "x"))
    tokens := ["0badc0de"] }

theorem run_routes_agree_namelessScript :
    let piped := run ["--noclean"] (Utf8.encode "x") ⟨.output, .errors⟩ namelessScript
    parse ["--noclean"] = .accepted { Settings.initial with noClean := true } ∧
      namelessScript.isFile (.ofText inlineName) = .ok true ∧
      namelessScript.read (.ofText inlineName) = .ok (Utf8.encode "x") ∧
      run ["--noclean", inlineName] [] ⟨.output, .errors⟩ namelessScript = piped ∧
      run ["--noclean", "--src", "x"] [] ⟨.output, .errors⟩ namelessScript = piped := by
  intro piped
  have hparse : parse ["--noclean"] = .accepted { Settings.initial with noClean := true } := by
    decide +kernel
  have hopts : ∀ text ∈ ["--noclean"], ∀ word, Word.ofText text = .ok word →
      ¬ word.Spells .source := by
    intro text hmem word hword
    obtain rfl := List.mem_singleton.1 hmem
    obtain rfl : .long .noClean none = word := Except.ok.inj hword
    nofun
  obtain ⟨hfile, hsource, haccepted⟩ := run_routes_agree (c := "x") (w := namelessScript) hparse
    rfl (by decide) hopts (by decide) rfl rfl ⟨.output, .errors⟩
  obtain ⟨t, ht⟩ := haccepted rfl
  exact ⟨hparse, rfl, rfl, hfile [], (hsource t ht).2 []⟩

end ScriptLauncher.CommandLine
