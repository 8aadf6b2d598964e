import ScriptLauncher.Proofs.CommandLine.Routes
import ScriptLauncher.Proofs.CommandLine.Spelling
import ScriptLauncher.Proofs.CommandLine.Status

/-! A source that is given on the command line. The last one given counts, and it counts as given
only where there is a text in it: an empty one, and a separator that is held, leave the script to
standard input or to the file that is named. -/

namespace ScriptLauncher.CommandLine

open Host Build Session

section given

variable {s u : Settings} {unknown texts : List String} {words : List (String × Word)}
  {text v : String} {value : Option String}

/-- The values that an option is given, in turn, before the first word that is no option. -/
def given (o : Opt) : List (String × Word) → List String
  | (_, .unknown) :: rest => given o rest
  | (_, .letter p none) :: rest | (_, .long p none) :: rest =>
    if p.takesValue then
      match rest with
      | (value, .argument) :: rest => if p = o then value :: given o rest else given o rest
      | _ => []
    else given o rest
  | (_, .letter p (some value)) :: rest | (_, .long p (some value)) :: rest =>
    if p.takesValue ∧ p = o then value :: given o rest else given o rest
  | _ => []

/-- The sources that a command line gives. -/
def sourcesGiven (argv : List String) : List String :=
  match Word.ofTexts argv with
  | .ok words => given .source words
  | .error _ => []

theorem getLast?_given_cons (v : String) (vs : List String) (h : Held) :
    ((v :: vs).getLast?.map Held.ofValue).getD h =
      (vs.getLast?.map Held.ofValue).getD (.ofValue v) := by
  rw [List.getLast?_cons]
  cases vs.getLast? <;> rfl

theorem ofTexts_tail {word : Word} (h : Word.ofTexts texts = .ok ((text, word) :: words))
    (hword : word ≠ .separator) : text ≠ "--" ∧ ∃ rest, Word.ofTexts rest = .ok words := by
  cases texts with
  | nil => cases h
  | cons first texts =>
    by_cases hsep : first = "--"
    · subst hsep
      cases h
      exact absurd rfl hword
    · obtain ⟨_, rest, -, hrest, heq⟩ := (Word.ofTexts_cons_eq_ok hsep).1 h
      cases heq
      exact ⟨hsep, texts, hrest⟩

theorem source_of_value {o : Opt} (hv : v ≠ "--") (vs : List String)
    (ih : u.source = (vs.getLast?.map Held.ofValue).getD (s.hold (.text v) o).source) :
    u.source = ((if o = .source then v :: vs else vs).getLast?.map Held.ofValue).getD s.source := by
  have hheld : Held.ofValue v = .text v := if_neg hv
  split
  · next ho =>
    subst ho
    rw [getLast?_given_cons, hheld]
    exact ih
  · next ho =>
    rwa [s.source_hold _ ho] at ih

/-- What is held in the end is the last value that was given, or what was held before. -/
theorem source_of_given (hwords : Word.ofTexts texts = .ok words)
    (h : readWords s unknown words = .accepted u) :
    u.source = ((given .source words).getLast?.map Held.ofValue).getD s.source := by
  fun_induction readWords s unknown words generalizing texts with
  | case1 =>
    rw [(accepted_of_verdict h).2]
    rfl
  | case2 s unknown text rest ih =>
    obtain ⟨-, _, hrest⟩ := ofTexts_tail hwords (by simp)
    rw [ih hrest h, given]
  | case3 s unknown text o htakes value rest ih | case7 s unknown text o htakes value rest ih =>
    obtain ⟨-, _, hvalue⟩ := ofTexts_tail hwords (by simp)
    obtain ⟨hne, _, hrest⟩ := ofTexts_tail hvalue (by simp)
    rw [given, if_pos htakes]
    exact source_of_value hne _ (ih hrest h)
  | case6 s unknown text o rest htakes hhelp ih | case10 s unknown text o rest htakes hhelp ih =>
    obtain ⟨-, _, hrest⟩ := ofTexts_tail hwords (by simp)
    rw [given.eq_def]
    dsimp only
    rw [if_neg htakes, ih hrest h, Settings.source_turnOn]
  | case11 s unknown text o value rest htakes ih | case16 s unknown text o value rest htakes ih =>
    obtain ⟨-, _, hrest⟩ := ofTexts_tail hwords (by simp)
    have hlast := ih hrest h
    rw [given]
    by_cases ho : o = .source
    · subst ho
      rw [if_pos ⟨htakes, rfl⟩, getLast?_given_cons]
      exact hlast
    · rwa [if_neg fun h => ho h.2, ← s.source_hold _ ho]
  | case15 s unknown text o value rest htakes hvalue os hletters hhelp ih =>
    obtain ⟨-, _, hrest⟩ := ofTexts_tail hwords (by simp)
    rw [given, if_neg (fun h => htakes h.1), ih hrest h, Settings.source_foldl_turnOn]
  | case18 s unknown words hnil hunknown hletter hlong hletter' hlong' =>
    rw [(accepted_of_verdict h).2, Settings.source_withPositionals, given.eq_def]
    split
    · exact (hunknown _ _ rfl).elim
    · exact (hletter _ _ _ rfl).elim
    · exact (hlong _ _ _ rfl).elim
    · exact (hletter' _ _ _ _ rfl).elim
    · exact (hlong' _ _ _ _ rfl).elim
    · rfl
  | _ => cases h

theorem spelled_source (h : Opt.spelled? text = some .source) : text = "--src" := by
  simpa [Opt.spellings] using Opt.mem_of_spelled? h

theorem short_source {spelling start : String} (hunspelled : Opt.spelled? start = none)
    (h : begun start = [(spelling, .source)]) : start = "--sr" := by
  obtain ⟨hmem, hstart⟩ := List.mem_filter.1 (h ▸ List.mem_singleton_self (spelling, Opt.source))
  obtain rfl : spelling = "--src" := by simpa [Opt.spellings] using hmem
  have hshort : ∀ n < 6, let start := String.ofList ("--src".toList.take n)
      Opt.spelled? start = none → begun start = [("--src", .source)] → start = "--sr" := by
    decide
  have htake := List.prefix_iff_eq_take.1 (List.isPrefixOf_iff_prefix.1 hstart)
  have hlength := (List.isPrefixOf_iff_prefix.1 hstart).length_le
  have heq : String.ofList ("--src".toList.take start.toList.length) = start := by
    rw [← htake, String.ofList_toList]
  have hstarts := hshort start.toList.length (Nat.lt_succ_of_le hlength)
  rw [heq] at hstarts
  exact hstarts hunspelled h

/-- The option for the source is given by its name and by one shorter text. -/
theorem ofText_source_iff : Word.ofText text = .ok (.long .source value) ↔
    ∃ name, (name = "--src" ∨ name = "--sr") ∧
      (value = none ∧ text = name ∨ ∃ v, value = some v ∧ text = name ++ "=" ++ v) := by
  constructor
  · intro h
    have hgives := Word.gives_iff.2 ⟨h, nofun, nofun⟩
    generalize hword : Word.long .source value = word at hgives
    cases hgives with
    | alone ho =>
      unfold Word.ofSpelling at hword
      split at hword <;> cases hword
      exact ⟨text, .inl (spelled_source ho), .inl ⟨rfl, rfl⟩⟩
    | @equals start v o ho htext =>
      unfold Word.ofSpelling at hword
      split at hword <;> cases hword
      refine ⟨start, .inl (spelled_source ho), .inr ⟨v, rfl, String.toList_inj.1 ?_⟩⟩
      simpa using htext
    | short hdashes hunspelled hbegun =>
      cases hword
      have hname := short_source hunspelled hbegun
      refine ⟨beforeValue text, .inr hname, ?_⟩
      cases hvalue : (Word.cutValue text.toList).2 with
      | none =>
        rw [beforeValue, Word.cutValue_of_none hvalue, String.ofList_toList]
        exact .inl ⟨rfl, rfl⟩
      | some v =>
        refine .inr ⟨v, rfl, String.toList_inj.1 ?_⟩
        simpa [beforeValue] using Word.cutValue_of_some hvalue
    | letters => cases hword
  · rintro ⟨name, hname, ⟨rfl, rfl⟩ | ⟨v, rfl, rfl⟩⟩
    · rcases hname with rfl | rfl <;> rfl
    · rcases hname with rfl | rfl
      · have hgives : Word.Gives ("--src" ++ "=" ++ v)
            (Word.ofSpelling "--src" .source (some v)) := .equals rfl (by simp)
        exact Word.ofText_of_gives hgives
      · have htext : ("--sr" ++ "=" ++ v).toList = "--sr".toList ++ '=' :: v.toList := by simp
        have hcut : Word.cutValue ("--sr" ++ "=" ++ v).toList = ("--sr", some v) := by
          rw [htext, Word.cutValue_append (by decide), String.ofList_toList, String.ofList_toList]
        have hbefore : beforeValue ("--sr" ++ "=" ++ v) = "--sr" := by rw [beforeValue, hcut]
        have hdashes : "--".toList <+: ("--sr" ++ "=" ++ v).toList :=
          ⟨"sr=".toList ++ v.toList, by simp⟩
        have hbegun : begun (beforeValue ("--sr" ++ "=" ++ v)) = [("--src", .source)] := by
          rw [hbefore]
          rfl
        have hgives := Word.Gives.short hdashes (by rw [hbefore]; rfl) hbegun
        rw [hcut] at hgives
        exact Word.ofText_of_gives hgives

end given

section run

variable {argv : List String} {s : Settings} {v : String}

theorem source_of_sourcesGiven (hparse : parse argv = .accepted s)
    (hgiven : (sourcesGiven argv).getLast? = some v) : s.source = .ofValue v := by
  unfold parse at hparse
  cases hwords : Word.ofTexts argv with
  | error e => simp [hwords] at hparse
  | ok words =>
    simp only [hwords] at hparse
    simp only [sourcesGiven, hwords] at hgiven
    rw [source_of_given hwords hparse, hgiven]
    rfl

theorem nonempty?_ofValue (v : String) :
    (Held.ofValue v).nonempty? = if v ≠ "" ∧ v ≠ "--" then some v else none := by
  unfold Held.ofValue
  by_cases hseparator : v = "--"
  · simp [hseparator, Held.nonempty?]
  · by_cases hempty : v = "" <;> simp [hseparator, hempty, Held.nonempty?]

/-- What is picked where all words are texts. -/
def Picks (argv : List String) (input : Bytes) (w : World) (s : Settings) (source : Bytes)
    (p : Path) : Prop :=
  (Intake.plain input).Picks argv w s source p

theorem Picks.read {input source : Bytes} {w : World} {p : Path}
    (h : Picks argv input w s source p) : (readScript s input w).1 = .ok (source, p) :=
  Intake.Picks.read h

/-- A text is the whole script: a run reads nothing else, its files bear the name of a script that
comes from no file, and all words that are no options are for the script, in their order. -/
structure TakesWhole (argv : List String) (s : Settings) (v : String) : Prop where
  picks : ∀ input w, Picks argv input w s (Utf8.encode v) (.ofText inlineName)
  args : scriptArgs s = s.script.toList ++ s.args
  runs : ∀ input streams w, run argv input streams w =
    runScript s streams (Utf8.encode v) (.ofText inlineName) (listening s w)

theorem takesWhole_of_nonempty (hparse : parse argv = .accepted s)
    (h : s.source.nonempty? = some v) : TakesWhole argv s v := by
  have hpicks (input : Bytes) (w : World) :
      Picks argv input w s (Utf8.encode v) (.ofText inlineName) := by
    refine ⟨hparse, ?_⟩
    show (readScript s input w).1 = _
    simp [readScript_eq, Settings.file?, Settings.inlineText, h]
  refine ⟨hpicks, ?_, fun input streams w => ?_⟩
  · unfold scriptArgs
    rw [h]
    cases s.script <;> rfl
  · rw [run, (hpicks input w).run_eq streams, Intake.runScript_plain]

/-- A world in which the system does not tell what stands at a path. -/
def unseenAt (p : Path) : World :=
  { World.initial [] (.ofText "/tmp") .warning with
    faults := { Faults.none with stat := [(p.text, .internal "")] } }

theorem not_takesWhole_of_none (h : s.source.nonempty? = none) : ¬ TakesWhole argv s v := by
  intro hwhole
  cases hscript : s.script with
  | none =>
    -- what is read from standard input may be anything
    have hread := (hwhole.picks (0 :: Utf8.encode v) (unseenAt .here)).read
    simp [readScript_eq, Settings.file?, Settings.inlineText, h, hscript] at hread
  | some script =>
    have hread := (hwhole.picks [] (unseenAt (.ofText script))).read
    have hlookup : (unseenAt (.ofText script)).lookup? (.ofText script) =
        .error (.internal "") := by
      simp [World.lookup?, World.stat, World.guarded, unseenAt, Fault.withPath, Fault.hasCause]
    simp [readScript_eq, Settings.file?, h, hscript, sourceAt, hlookup, Functor.map,
      Except.map] at hread

/-- The last source that is given is the whole script, unless it is empty or the separator. With
these the script comes from the file that is named, or else from standard input, as if no source
were given. -/
theorem takesWhole_iff (hparse : parse argv = .accepted s)
    (hgiven : (sourcesGiven argv).getLast? = some v) :
    (TakesWhole argv s v ↔ v ≠ "" ∧ v ≠ "--") ∧
    (v = "" ∨ v = "--" → scriptArgs s = s.args ∧ ∀ input w, readScript s input w =
      (match s.script with
        | some script => (·, .ofText script) <$> sourceAt w (.ofText script)
        | none => .ok (input, .ofText inlineName), w)) := by
  have hsource : s.source.nonempty? = _ :=
    (congrArg Held.nonempty? (source_of_sourcesGiven hparse hgiven)).trans (nonempty?_ofValue v)
  by_cases htext : v ≠ "" ∧ v ≠ "--"
  · rw [if_pos htext] at hsource
    refine ⟨iff_of_true (takesWhole_of_nonempty hparse hsource) htext, fun hother => ?_⟩
    exact (hother.elim htext.1 htext.2).elim
  · rw [if_neg htext] at hsource
    refine ⟨iff_of_false (not_takesWhole_of_none hsource) htext, fun _ => ⟨?_, fun input w => ?_⟩⟩
    · rw [scriptArgs, hsource]
    · have hread := readScript_eq s input w
      rw [Settings.file?, Settings.inlineText, hsource] at hread
      exact hread

theorem takesWhole_iff_of_options :
    let argv := ["--sr=a", "-v", "--src", "b", "x.go", "--src", "c"]
    let s := { Settings.initial with
      verbose := true, source := .text "b", script := some "x.go", args := ["--src", "c"] }
    parse argv = .accepted s ∧ sourcesGiven argv = ["a", "b"] ∧ TakesWhole argv s "b" ∧
      scriptArgs s = ["x.go", "--src", "c"] := by
  intro argv s
  have hparse : parse argv = .accepted s := by decide +kernel
  have hgiven : sourcesGiven argv = ["a", "b"] := by decide +kernel
  have hwhole := (takesWhole_iff hparse (by rw [hgiven]; rfl)).1.2 (by decide)
  exact ⟨hparse, hgiven, hwhole, hwhole.args⟩

/-- Behind an empty source the script is read from the file that is named. -/
theorem not_forall_takesWhole :
    ¬ ∀ (argv : List String) (s : Settings) (v : String), parse argv = .accepted s →
      (sourcesGiven argv).getLast? = some v → TakesWhole argv s v := by
  intro h
  have hparse : parse ["--src", "", "/x.go"] = .accepted emptySettings := by decide +kernel
  have hgiven : sourcesGiven ["--src", "", "/x.go"] = [""] := by decide +kernel
  have hwhole := h _ _ "" hparse (by rw [hgiven]; rfl)
  cases hwhole.args

end run

end ScriptLauncher.CommandLine
