import ScriptLauncher.Proofs.Build.Records
import ScriptLauncher.Proofs.CommandLine.Spelling
import ScriptLauncher.Proofs.CommandLine.Status

/-! Command lines on which the parser ends the program. A request for help may be spelled in several
ways, and counts if it is reached before anything that is refused. -/

namespace ScriptLauncher.CommandLine

open Host Build Session Command

section help

variable {text : String} {o : Opt} {os : List Opt} {s : Settings} {unknown : List String}
  {words : List (String × Word)}

/-- A text that asks for help: the long spelling, or letters of options without a value, of which
one is that for help. After the first letter there may be an equals sign. -/
def IsHelp (text : String) : Prop :=
  text = "--help" ∨ ∃ c value, 'h' ∈ c :: value ∧ (∀ d ∈ c :: value, d = 'h' ∨ d = 'v') ∧
    (text.toList = '-' :: c :: value ∨ value ≠ [] ∧ text.toList = '-' :: c :: '=' :: value)

/-- A word that ends the reading with help. -/
def Word.AsksHelp : Word → Prop
  | .letter o none | .long o none => o = .help
  | .letter o (some value) =>
    o.takesValue = false ∧ value ≠ "" ∧ ∃ os, letters o value.toList = .ok os ∧ .help ∈ os
  | _ => False

theorem letters_eq_ok_iff {cs : List Char} : letters o cs = .ok os ↔
    (∀ c ∈ cs, c = 'h' ∨ c = 'v') ∧ os = o :: cs.filterMap Opt.letter? := by
  induction cs generalizing o os with
  | nil => simp [letters, eq_comm]
  | cons c cs ih =>
    rw [letters, List.forall_mem_cons, List.filterMap_cons]
    cases hletter : Opt.letter? c with
    | none =>
      have hother : ¬ (c = 'h' ∨ c = 'v') := by
        rintro (rfl | rfl) <;> cases hletter
      simp [hother]
    | some p =>
      have hc : c = 'h' ∨ c = 'v' := (Opt.letter?_eq_some_iff.1 hletter).imp And.left And.left
      dsimp only
      cases hrest : letters p cs with
      | error e =>
        have hnot : ¬ ∀ c ∈ cs, c = 'h' ∨ c = 'v' := fun hall => by
          cases hrest.symm.trans (ih.2 ⟨hall, rfl⟩)
        simp [Functor.map, Except.map, hnot]
      | ok ps =>
        obtain ⟨hall, rfl⟩ := ih.1 hrest
        exact ⟨fun h => ⟨⟨hc, hall⟩, (Except.ok.inj h).symm⟩, fun h => congrArg Except.ok h.2.symm⟩

theorem help_mem_letters {c : Char} {cs : List Char} (h : Opt.letter? c = some o) :
    (∃ os, letters o cs = .ok os ∧ .help ∈ os) ↔
      'h' ∈ c :: cs ∧ ∀ d ∈ c :: cs, d = 'h' ∨ d = 'v' := by
  have hc : c = 'h' ∨ c = 'v' := (Opt.letter?_eq_some_iff.1 h).imp And.left And.left
  have hfirst : Opt.help = o ↔ 'h' = c := by
    rcases Opt.letter?_eq_some_iff.1 h with ⟨rfl, rfl⟩ | ⟨rfl, rfl⟩ <;> decide
  have hrest : Opt.help ∈ cs.filterMap Opt.letter? ↔ 'h' ∈ cs := by
    simp [List.mem_filterMap, Opt.letter?_eq_some_iff]
  simp only [letters_eq_ok_iff, List.forall_mem_cons, hc, true_and]
  constructor
  · rintro ⟨os, ⟨hall, rfl⟩, hhelp⟩
    rw [List.mem_cons, hfirst, hrest] at hhelp
    exact ⟨List.mem_cons.2 hhelp, hall⟩
  · rintro ⟨hhelp, hall⟩
    refine ⟨_, ⟨hall, rfl⟩, ?_⟩
    rw [List.mem_cons, hfirst, hrest]
    exact List.mem_cons.1 hhelp

/-- No text that is cut short asks for help: it would be short for another option as well. -/
theorem begun_ne_help {spelling start : String} (h : Word.isLong spelling = true) :
    begun start ≠ [(spelling, .help)] := by
  intro hbegun
  have hlonger : ("--helper-package", Opt.helperPackage) ∈ begun start := by
    obtain ⟨hmem, hstart⟩ := List.mem_filter.1 (hbegun ▸ List.mem_singleton_self (spelling, Opt.help))
    have hlong : ∀ e ∈ Opt.spellings, Word.isLong e.1 = true → e.2 = .help → e.1 = "--help" := by
      decide
    rw [hlong _ hmem h rfl] at hstart
    refine List.mem_filter.2 ⟨by decide, List.isPrefixOf_iff_prefix.2 ?_⟩
    exact (List.isPrefixOf_iff_prefix.1 hstart).trans ⟨"er-package".toList, rfl⟩
  rw [hbegun] at hlonger
  simp at hlonger

theorem isHelp_of_gives {word : Word} (h : Word.Gives text word) (hword : word.AsksHelp) :
    IsHelp text := by
  cases h with
  | @alone o h =>
    have ho : o = .help := by
      unfold Word.ofSpelling at hword
      split at hword <;> exact hword
    have hmem := Opt.mem_of_spelled? h
    rw [ho] at hmem
    have htext : text = "-h" ∨ text = "--help" := by simpa [Opt.spellings] using hmem
    rcases htext with rfl | rfl
    · exact .inr ⟨'h', [], by simp, by simp, .inl rfl⟩
    · exact .inl rfl
  | @equals start value o h htext =>
    unfold Word.ofSpelling at hword
    split at hword
    · cases hword
    · next hshort =>
      obtain ⟨-, hvalue, hletters⟩ := hword
      have hletter : ∀ e ∈ Opt.spellings, Word.isLong e.1 = true ∨ e.1 = "-h" ∨ e.1 = "-v" := by
        decide
      obtain ⟨c, rfl⟩ : ∃ c, start = String.ofList ['-', c] := by
        rcases (hletter _ (Opt.mem_of_spelled? h)).resolve_left hshort with rfl | rfl
        · exact ⟨'h', rfl⟩
        · exact ⟨'v', rfl⟩
      rw [help_mem_letters (show Opt.letter? c = some o from h)] at hletters
      rw [String.toList_ofList] at htext
      exact .inr ⟨c, _, hletters.1, hletters.2, .inr ⟨mt String.toList_eq_nil_iff.1 hvalue, htext⟩⟩
  | @short spelling o hdashes hunspelled h =>
    cases hvalue : (Word.cutValue text.toList).2 with
    | some value =>
      rw [hvalue] at hword
      cases hword
    | none =>
      rw [hvalue] at hword
      obtain rfl : o = .help := hword
      have hlong := Word.isLong_of_begun hdashes (h ▸ List.mem_singleton_self _)
      exact absurd h (begun_ne_help hlong)
  | letters htext hunspelled h =>
    obtain ⟨-, -, hletters⟩ := hword
    rw [String.toList_ofList, help_mem_letters h] at hletters
    exact .inr ⟨_, _, hletters.1, hletters.2, .inl htext⟩

theorem gives_of_isHelp (h : IsHelp text) : ∃ word, Word.Gives text word ∧ word.AsksHelp := by
  rcases h with rfl | ⟨c, value, hhelp, hall, htext⟩
  · exact ⟨_, .alone rfl, rfl⟩
  obtain ⟨o, ho⟩ : ∃ o, Opt.letter? c = some o := by
    rcases hall c List.mem_cons_self with rfl | rfl <;> exact ⟨_, rfl⟩
  have hletters := (help_mem_letters ho).2 ⟨hhelp, hall⟩
  have htakes : o.takesValue = false := by
    rcases Opt.letter?_eq_some_iff.1 ho with ⟨-, rfl⟩ | ⟨-, rfl⟩ <;> rfl
  rcases htext with htext | ⟨hvalue, htext⟩
  · cases value with
    | nil =>
      obtain rfl : 'h' = c := by simpa using hhelp
      obtain rfl : text = "-h" := String.toList_inj.1 htext
      exact ⟨_, .alone rfl, rfl⟩
    | cons d rest =>
      have hplain : Opt.spelled? text = none := by
        refine Option.eq_none_iff_forall_ne_some.2 fun o' ho' => ?_
        have hmem := Opt.mem_of_spelled? ho'
        have hc : c ≠ '-' := by rcases hall c List.mem_cons_self with rfl | rfl <;> decide
        simp [Opt.spellings, ← String.toList_inj, htext, hc] at hmem
      have hequals : '=' ∉ text.toList := by
        rw [htext, List.mem_cons]
        rintro (h | h)
        · cases h
        · rcases hall _ h with h | h <;> cases h
      rw [← Word.beforeValue_eq_self hequals] at hplain
      exact ⟨_, .letters htext hplain ho, htakes, by simp, by rwa [String.toList_ofList]⟩
  · refine ⟨.letter o (some (String.ofList value)), ?_, htakes, by simpa using hvalue,
      by rwa [String.toList_ofList]⟩
    have hgives : Word.Gives text
        (Word.ofSpelling (String.ofList ['-', c]) o (some (String.ofList value))) :=
      .equals ho (by simpa using htext)
    rwa [Word.ofSpelling, Word.isLong_of_letter ho] at hgives

/-- Words that are read in one go before the script's name: a word that is no known option, an
option with what it takes, or letters together. A request for help is none of these. -/
inductive Item : List (String × Word) → Prop
  | unknown (text : String) : Item [(text, .unknown)]
  | flag {text : String} {word : Word} {o : Opt} (hword : word = .letter o none ∨ word = .long o none)
    (htakes : ¬ o.takesValue = true) (ho : o ≠ .help) : Item [(text, word)]
  | value {text value : String} {word : Word} {o : Opt}
    (hword : word = .letter o none ∨ word = .long o none) (htakes : o.takesValue = true) :
    Item [(text, word), (value, .argument)]
  | held {text value : String} {word : Word} {o : Opt}
    (hword : word = .letter o (some value) ∨ word = .long o (some value))
    (htakes : o.takesValue = true) : Item [(text, word)]
  | letters {text value : String} {o : Opt} {os : List Opt} (htakes : ¬ o.takesValue = true)
    (hvalue : value ≠ "") (h : letters o value.toList = .ok os) (hhelp : .help ∉ os) :
    Item [(text, .letter o (some value))]

/-- Words that are items, one after another. -/
inductive Items : List (String × Word) → Prop
  | nil : Items []
  | append {item rest : List (String × Word)} (h : Item item) (hrest : Items rest) :
    Items (item ++ rest)

theorem Item.reads {item : List (String × Word)} (h : Item item) (s : Settings)
    (unknown : List String) : ∃ t unknown', ∀ rest,
      readWords s unknown (item ++ rest) = readWords t unknown' rest := by
  cases h with
  | unknown text => exact ⟨s, unknown ++ [text], fun rest => by simp [readWords]⟩
  | @flag _ _ o hword htakes ho =>
    refine ⟨s.turnOn o, unknown, fun rest => ?_⟩
    rcases hword with rfl | rfl <;>
      exact (readWords.eq_def ..).trans ((if_neg htakes).trans (if_neg ho))
  | @value _ value _ o hword htakes =>
    refine ⟨s.hold (.text value) o, unknown, fun rest => ?_⟩
    rcases hword with rfl | rfl <;> simp [readWords, htakes]
  | @held _ value _ o hword htakes =>
    refine ⟨s.hold (.ofValue value) o, unknown, fun rest => ?_⟩
    rcases hword with rfl | rfl <;> simp [readWords, htakes]
  | @letters _ value o os htakes hvalue h hhelp =>
    refine ⟨os.foldl Settings.turnOn s, unknown, fun rest => ?_⟩
    simp only [List.cons_append, List.nil_append, readWords, h]
    rw [if_neg htakes, if_neg hvalue, if_neg (by simpa using hhelp)]

theorem Items.reads (h : Items words) (s : Settings) (unknown : List String) :
    ∃ t unknown', ∀ rest, readWords s unknown (words ++ rest) = readWords t unknown' rest := by
  induction h generalizing s unknown with
  | nil => exact ⟨s, unknown, fun _ => rfl⟩
  | append h hrest ih =>
    obtain ⟨t, unknown', hitem⟩ := h.reads s unknown
    obtain ⟨u, unknown'', hitems⟩ := ih t unknown'
    exact ⟨u, unknown'', fun rest => by rw [List.append_assoc, hitem, hitems]⟩

theorem Item.no_separator {item : List (String × Word)} (h : Item item) :
    ∀ w ∈ item, w.2 ≠ .separator := by
  cases h with
  | unknown | letters => simp
  | flag hword | held hword | value hword => rcases hword with rfl | rfl <;> simp

theorem Items.no_separator (h : Items words) : ∀ w ∈ words, w.2 ≠ .separator := by
  induction h with
  | nil => nofun
  | append h hrest ih => exact fun w hw => (List.mem_append.1 hw).elim (h.no_separator w) (ih w)

theorem Word.AsksHelp.reads {word : Word} (h : word.AsksHelp) (s : Settings)
    (unknown : List String) (text : String) (rest : List (String × Word)) :
    readWords s unknown ((text, word) :: rest) = .help := by
  cases word with
  | letter o value =>
    cases value with
    | none =>
      obtain rfl : o = .help := h
      exact (readWords.eq_def ..).trans rfl
    | some value =>
      obtain ⟨htakes, hvalue, os, hletters, hhelp⟩ := h
      simp only [readWords, hletters]
      rw [if_neg (by simp [htakes]), if_neg hvalue, if_pos (by simpa using hhelp)]
  | long o value =>
    cases value with
    | none =>
      obtain rfl : o = .help := h
      exact (readWords.eq_def ..).trans rfl
    | some value => cases h
  | _ => cases h

/-- Words of which one asks for help, and those before it are items. -/
def ReachesHelp (words : List (String × Word)) : Prop :=
  ∃ before w after, words = before ++ w :: after ∧ Items before ∧ w.2.AsksHelp

theorem ReachesHelp.append {item : List (String × Word)} (h : ReachesHelp words)
    (hitem : Item item) : ReachesHelp (item ++ words) := by
  obtain ⟨before, w, after, rfl, hitems, hw⟩ := h
  exact ⟨item ++ before, w, after, (List.append_assoc ..).symm, hitems.append hitem, hw⟩

theorem readWords_help_iff : readWords s unknown words = .help ↔ ReachesHelp words := by
  constructor
  · intro h
    fun_induction readWords s unknown words with
    | case1 s unknown | case18 s unknown =>
      unfold Settings.verdict at h
      split at h <;> cases h
    | case2 s unknown text rest ih => exact (ih h).append (.unknown text)
    | case3 _ _ _ _ htakes _ _ ih => exact (ih h).append (.value (.inl rfl) htakes)
    | case7 _ _ _ _ htakes _ _ ih => exact (ih h).append (.value (.inr rfl) htakes)
    | case5 s unknown text rest => exact ⟨[], _, _, rfl, .nil, rfl⟩
    | case9 s unknown text rest => exact ⟨[], _, _, rfl, .nil, rfl⟩
    | case6 _ _ _ _ _ htakes hhelp ih => exact (ih h).append (.flag (.inl rfl) htakes hhelp)
    | case10 _ _ _ _ _ htakes hhelp ih => exact (ih h).append (.flag (.inr rfl) htakes hhelp)
    | case11 _ _ _ _ _ _ htakes ih => exact (ih h).append (.held (.inl rfl) htakes)
    | case16 _ _ _ _ _ _ htakes ih => exact (ih h).append (.held (.inr rfl) htakes)
    | case14 s unknown text o value rest htakes hvalue os hletters hhelp =>
      exact ⟨[], _, _, rfl, .nil, by simpa using htakes, hvalue, os, hletters, by simpa using hhelp⟩
    | case15 _ _ _ _ _ _ htakes hvalue _ hletters hhelp ih =>
      exact (ih h).append (.letters htakes hvalue hletters (by simpa using hhelp))
    | _ => cases h
  · rintro ⟨before, w, after, rfl, hitems, hw⟩
    obtain ⟨t, unknown', hreads⟩ := hitems.reads s unknown
    rw [hreads]
    exact hw.reads t unknown' w.1 after

/-- Up to the first separator each word says what its text says. -/
theorem Word.ofText_of_split {argv : List String} {before after : List (String × Word)}
    {w : String × Word} (h : ofTexts argv = .ok (before ++ w :: after))
    (hbefore : ∀ v ∈ before, v.2 ≠ .separator) :
    w = ("--", .separator) ∨ ofText w.1 = .ok w.2 := by
  induction before generalizing argv with
  | nil =>
    cases argv with
    | nil => cases h
    | cons text argv =>
      by_cases hsep : text = "--"
      · subst hsep
        cases h
        exact .inl rfl
      · obtain ⟨word, rest, hword, -, heq⟩ := (ofTexts_cons_eq_ok hsep).1 h
        cases heq
        exact .inr hword
  | cons v before ih =>
    obtain ⟨hv, hbefore⟩ := List.forall_mem_cons.1 hbefore
    cases argv with
    | nil => cases h
    | cons text argv =>
      by_cases hsep : text = "--"
      · subst hsep
        obtain ⟨rfl, -⟩ := List.cons.inj (Except.ok.inj h)
        exact absurd rfl hv
      · obtain ⟨word, rest, -, hrest, heq⟩ := (ofTexts_cons_eq_ok hsep).1 h
        obtain ⟨-, rfl⟩ := List.cons.inj heq
        exact ih hrest hbefore

/-- A command line asks for help if none of its words is refused and the first word that is no item
asks for help. -/
def AsksForHelp (argv : List String) : Prop :=
  ∃ before w after, Word.ofTexts argv = .ok (before ++ w :: after) ∧ Items before ∧ IsHelp w.1

theorem parse_eq_help_iff (argv : List String) : parse argv = .help ↔ AsksForHelp argv := by
  unfold parse
  cases hwords : Word.ofTexts argv with
  | error e =>
    refine iff_of_false nofun ?_
    rintro ⟨before, w, after, hok, -⟩
    cases hwords.symm.trans hok
  | ok words =>
    dsimp only
    rw [readWords_help_iff]
    constructor
    · rintro ⟨before, w, after, rfl, hitems, hasks⟩
      refine ⟨before, w, after, hwords, hitems, ?_⟩
      rcases Word.ofText_of_split hwords hitems.no_separator with rfl | hword
      · cases hasks
      · have hgives : Word.Gives w.1 w.2 :=
          Word.gives_iff.2 ⟨hword, fun h => by simp [h, Word.AsksHelp] at hasks,
            fun h => by simp [h, Word.AsksHelp] at hasks⟩
        exact isHelp_of_gives hgives hasks
    · rintro ⟨before, w, after, hok, hitems, hhelp⟩
      obtain rfl := Except.ok.inj (hwords.symm.trans hok)
      obtain ⟨word, hgives, hasks⟩ := gives_of_isHelp hhelp
      have hword := Word.ofText_of_gives hgives
      rcases Word.ofText_of_split hwords hitems.no_separator with rfl | hword'
      · exact absurd rfl (Word.ne_of_ofText hword)
      · obtain rfl := Except.ok.inj (hword.symm.trans hword')
        exact ⟨before, w, after, rfl, hitems, hasks⟩

end help

section run

variable {i : Intake} {s : Settings} {input source : Bytes} {streams : Streams} {w : World}
  {p : Path} {n : Int} {subjects argv : List String}

/-- The status with which the parser ends the program, if it does. -/
def Verdict.status? : Verdict → Option Int
  | .accepted _ => none
  | .help => some 0
  | .refused _ => some usageStatus

/-- What the parser tells before that. -/
def Verdict.told : Verdict → List (Channel × String)
  | .accepted _ => []
  | .help => [(.output, CommandLine.help)]
  | .refused e => [(.errors, e.report)]

theorem fst_runScript (h : (i.runScript s streams source p w).1 = .ok n) :
    n = 0 ∨ n = failureStatus := by
  cases hbuilt : (i.build s streams source p w).1 with
  | ok result =>
    rw [Intake.runScript_of_ok hbuilt] at h
    exact .inl (Except.ok.inj h).symm
  | error stop =>
    cases hmessage : stop.message? with
    | none =>
      rw [Intake.runScript_of_silent hbuilt hmessage] at h
      cases h
    | some message =>
      rw [Intake.runScript_of_message hbuilt hmessage] at h
      exact .inr (Except.ok.inj h).symm

/-- An accepted command line never has the status of wrong usage. -/
theorem fst_runAccepted (h : (i.runAccepted s streams w).1 = .ok n) :
    n = 0 ∨ n = failureStatus := by
  cases hread : (i.readScript s w).1 with
  | ok picked =>
    obtain ⟨source, p⟩ := picked
    rw [Intake.runAccepted_of_read hread] at h
    exact fst_runScript h
  | error f =>
    cases hf : f.isOfSystem with
    | true =>
      obtain ⟨v, -, hrun⟩ := Intake.runAccepted_of_unread hread hf streams
      rw [hrun] at h
      exact .inr (Except.ok.inj h).symm
    | false =>
      rw [Intake.runAccepted_of_fault hread hf] at h
      cases h

theorem announces_runAccepted (hverbose : s.verbose = false)
    (h : ∀ message ∈ "Failed to read script" :: asides ++ outcomes, message ∉ subjects)
    (input : Bytes) (streams : Streams) :
    Announces subjects (runAccepted s input streams) := by
  have hasides : ∀ message ∈ asides, message ∉ subjects := fun message hm => h message (by simp [hm])
  have houtcomes : ∀ message ∈ outcomes, message ∉ subjects :=
    fun message hm => h message (by simp [hm])
  have hsay (message : String) : Announces subjects
      (liftM (sayFailure streams.errors message) : Session Stop Unit) :=
    announces_of_silent fun w => ⟨rfl, rfl, rfl⟩
  have hread : Announces subjects (readScript s input) :=
    announces_of_silent fun w => by simp [readScript_eq]
  unfold runAccepted Intake.runAccepted
  simp only [hverbose, Bool.false_eq_true, if_false]
  refine (Announces.attempt hread).bind fun ended => ?_
  cases ended with
  | error f =>
    dsimp only
    split
    · refine (announces_note (by decide) (h _ (by simp))).bind fun _ => ?_
      exact (hsay _).bind fun _ => announces_pure _
    · exact announces_throw _
  | ok picked =>
    dsimp only
    rw [Intake.runScript, Intake.build_plain]
    refine (announces_buildAndRun hasides (.inr houtcomes) _ _ _ _ _).attempt.bind fun ended => ?_
    cases ended with
    | ok => exact announces_pure _
    | error stop =>
      dsimp only
      split
      · exact (hsay _).bind fun _ => announces_pure _
      · exact announces_throw _

theorem mentions_run (h : parse argv = .accepted s) (input : Bytes) (streams : Streams)
    (w : World) :
    mentions ["Argument parsing failed"] (run argv input streams w).2.records =
      mentions ["Argument parsing failed"] w.records := by
  have hother : ∀ message ∈ "Failed to read script" :: asides ++ outcomes,
      message ∉ ["Argument parsing failed"] := by decide
  obtain ⟨commands, records, -, hrecords, -, hmentions⟩ :=
    announces_runAccepted (s := { s with verbose := false }) rfl hother input streams (listening s w)
  have hnone : mentions ["Argument parsing failed"] records = [] := by
    refine hmentions.trans (List.filter_eq_nil_iff.2 fun r hr => ?_)
    unfold announced at hr
    split at hr
    · obtain ⟨command, -, rfl⟩ := List.mem_map.1 hr
      rw [announcement, subject_detailed (by decide)]
      decide
    · cases hr
  obtain ⟨threshold, hlistening⟩ := listening_eq s w
  rw [run_of_parse h, runAccepted, Intake.runAccepted_listening]
  refine (congrArg _ hrecords).trans ?_
  rw [mentions_append, hnone, List.append_nil, hlistening]

theorem run_of_told {c : Channel} {text : String} (h : (parse argv).told = [(c, text)])
    (input : Bytes) (streams : Streams) (w : World) :
    run argv input streams w = (.ok usageStatus, (note .warning .commandLine
      "Argument parsing failed" [("argv", Text.quoteList argv)] (w.tell c text)).2) := by
  unfold run Intake.run
  cases hparse : parse argv with
  | accepted s =>
    rw [hparse] at h
    cases h
  | help | refused =>
    rw [hparse] at h
    cases h
    rfl

/-- The parser has the last word: where it ends the program with a status, a run returns this status
and tells nothing but what the parser does. The status of wrong usage, and a warning that parsing
failed, come from a command line that the parser refuses. -/
structure KeepsVerdict (argv : List String) (input : Bytes) (streams : Streams) (w : World) :
    Prop where
  status : ∀ c, (parse argv).status? = some c → (run argv input streams w).1 = .ok c ∧
    (runAndExit argv input w).1 = .error (.exit ⟨c⟩) ∧
    (run argv input streams w).2.texts = w.texts ++ (parse argv).told
  usage : (run argv input streams w).1 = .ok usageStatus → ∃ e, parse argv = .refused e
  warning : mentions ["Argument parsing failed"] (run argv input streams w).2.records ≠
    mentions ["Argument parsing failed"] w.records → ∃ e, parse argv = .refused e

theorem keepsVerdict_iff (argv : List String) (input : Bytes) (streams : Streams) (w : World) :
    (KeepsVerdict argv input streams w ↔ ¬ AsksForHelp argv) ∧
    (AsksForHelp argv → run argv input streams w = (.ok usageStatus,
      (note .warning .commandLine "Argument parsing failed" [("argv", Text.quoteList argv)]
        (w.tell .output help)).2)) := by
  rw [← parse_eq_help_iff]
  cases hparse : parse argv with
  | accepted s =>
    refine ⟨iff_of_true ⟨?_, ?_, ?_⟩ nofun, nofun⟩
    · rw [hparse]
      nofun
    · intro hended
      rw [run_of_parse hparse] at hended
      rcases fst_runAccepted hended with h | h <;> cases h
    · exact fun h => absurd (mentions_run hparse input streams w) h
  | help =>
    have hrun := run_of_told (by rw [hparse]; rfl : (parse argv).told = [(.output, help)]) input
      streams w
    refine ⟨iff_of_false ?_ (not_not_intro rfl), fun _ => hrun⟩
    rintro ⟨hstatus, -, -⟩
    obtain ⟨hended, -⟩ := hstatus 0 (by rw [hparse]; rfl)
    rw [hrun] at hended
    cases hended
  | refused e =>
    have hrun := run_of_told (by rw [hparse]; rfl : (parse argv).told = [(.errors, e.report)])
    refine ⟨iff_of_true ⟨fun c hc => ?_, fun _ => ⟨e, hparse⟩, fun _ => ⟨e, hparse⟩⟩ nofun, nofun⟩
    rw [hparse] at hc ⊢
    obtain rfl := Option.some.inj hc
    obtain ⟨records, hnoted⟩ := note_noted .warning .commandLine "Argument parsing failed"
      [("argv", Text.quoteList argv)] (w.tell .errors e.report)
    refine ⟨by rw [hrun], ?_, ?_⟩
    · have hended : (Intake.plain input).run argv ⟨.output, .errors⟩ w = _ := hrun input _ w
      rw [runAndExit, Intake.runAndExit, bind_of_ok hended]
      rfl
    · rw [hrun, hnoted]
      rfl

/-- Letters behind an option ask for help, unless a word that is short for several options stands
anywhere behind them. -/
theorem keepsVerdict_iff_of_letters :
    let argv := ["--compiler", "go", "-vh", "--bad"]
    AsksForHelp argv ∧ ¬ KeepsVerdict argv [] ⟨.output, .errors⟩ killedScript ∧
      ¬ AsksForHelp (argv ++ ["--no"]) ∧
      KeepsVerdict (argv ++ ["--no"]) [] ⟨.output, .errors⟩ killedScript := by
  intro argv
  have hhelp : AsksForHelp argv := (parse_eq_help_iff argv).1 (by decide +kernel)
  have hrefused : ¬ AsksForHelp (argv ++ ["--no"]) :=
    mt (parse_eq_help_iff _).2 (by decide +kernel)
  obtain ⟨hkeeps, -⟩ := keepsVerdict_iff argv [] ⟨.output, .errors⟩ killedScript
  obtain ⟨hkeeps', -⟩ := keepsVerdict_iff (argv ++ ["--no"]) [] ⟨.output, .errors⟩ killedScript
  exact ⟨hhelp, fun h => hkeeps.1 h hhelp, hrefused, hkeeps'.2 hrefused⟩

/-- A request for help has the status of wrong usage. -/
theorem not_forall_keepsVerdict :
    ¬ ∀ (argv : List String) (input : Bytes) (streams : Streams) (w : World),
      KeepsVerdict argv input streams w := by
  intro h
  have hparse : parse ["-h"] = .help := rfl
  obtain ⟨hended, -⟩ := (h ["-h"] [] ⟨.output, .errors⟩ (.initial [] (.ofText "/tmp") .warning)).status
    0 (by rw [hparse]; rfl)
  have hrun := run_of_told (by rw [hparse]; rfl : (parse ["-h"]).told = [(.output, help)]) []
    ⟨.output, .errors⟩ (.initial [] (.ofText "/tmp") .warning)
  rw [hrun] at hended
  cases hended

end run

end ScriptLauncher.CommandLine
