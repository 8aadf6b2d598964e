import ScriptLauncher.CommandLine.Settings

/-! How a command line is read: its options first, each for itself, and then the words that stand
from the first one on that is none. -/

namespace ScriptLauncher.CommandLine

namespace Settings

variable (s : Settings) (o : Opt) (h : Held)

@[simp] theorem script_turnOn : (s.turnOn o).script = s.script := by cases o <;> rfl

@[simp] theorem args_turnOn : (s.turnOn o).args = s.args := by cases o <;> rfl

@[simp] theorem script_hold : (s.hold h o).script = s.script := by cases o <;> rfl

@[simp] theorem args_hold : (s.hold h o).args = s.args := by cases o <;> rfl

@[simp] theorem script_foldl_turnOn (os : List Opt) :
    (os.foldl turnOn s).script = s.script := by
  induction os generalizing s with
  | nil => rfl
  | cons o os ih => rw [List.foldl_cons, ih, script_turnOn]

@[simp] theorem args_foldl_turnOn (os : List Opt) : (os.foldl turnOn s).args = s.args := by
  induction os generalizing s with
  | nil => rfl
  | cons o os ih => rw [List.foldl_cons, ih, args_turnOn]

end Settings

variable {s t u : Settings} {unknown : List String} {words rest : List (String × Word)}

/-- Words that are options alone. What stands behind them is read with other settings, and is read
the same whatever it is. -/
structure Opening (s : Settings) (options : List (String × Word)) (t : Settings) : Prop where
  reads : ∀ rest, readWords s [] (options ++ rest) = readWords t [] rest
  script : t.script = s.script
  args : t.args = s.args
  no_separator : ∀ w ∈ options, w.2 ≠ .separator

/-- Words at which the reading of options comes to its end. -/
def Stops (words : List (String × Word)) : Prop :=
  ∀ w ∈ words.head?, w.2 = .argument ∨ w.2 = .separator

theorem Opening.refl (s : Settings) : Opening s [] s := ⟨fun _ => rfl, rfl, rfl, nofun⟩

theorem Opening.trans {options options' : List (String × Word)} (h : Opening s options t)
    (h' : Opening t options' u) : Opening s (options ++ options') u where
  reads rest := by rw [List.append_assoc, h.reads, h'.reads]
  script := h'.script.trans h.script
  args := h'.args.trans h.args
  no_separator w hw := (List.mem_append.1 hw).elim (h.no_separator w) (h'.no_separator w)

variable {o : Opt} {text value : String} {word : Word}

theorem opening_value (h : o.takesValue = true)
    (hword : word = .letter o none ∨ word = .long o none) :
    Opening s [(text, word), (value, .argument)] (s.hold (.text value) o) where
  reads rest := by rcases hword with rfl | rfl <;> simp [readWords, h]
  script := s.script_hold o _
  args := s.args_hold o _
  no_separator := by rcases hword with rfl | rfl <;> simp

theorem opening_flag (h : ¬ o.takesValue = true) (hhelp : o ≠ .help)
    (hword : word = .letter o none ∨ word = .long o none) :
    Opening s [(text, word)] (s.turnOn o) where
  reads rest := by
    rcases hword with rfl | rfl <;>
      exact (readWords.eq_def ..).trans ((if_neg h).trans (if_neg hhelp))
  script := s.script_turnOn o
  args := s.args_turnOn o
  no_separator := by rcases hword with rfl | rfl <;> simp

theorem opening_held (h : o.takesValue = true)
    (hword : word = .letter o (some value) ∨ word = .long o (some value)) :
    Opening s [(text, word)] (s.hold (.ofValue value) o) where
  reads rest := by rcases hword with rfl | rfl <;> simp [readWords, h]
  script := s.script_hold o _
  args := s.args_hold o _
  no_separator := by rcases hword with rfl | rfl <;> simp

theorem opening_letters {os : List Opt} (h : ¬ o.takesValue = true) (hvalue : ¬ value = "")
    (hletters : letters o value.toList = .ok os) (hhelp : ¬ os.contains .help = true) :
    Opening s [(text, .letter o (some value))] (os.foldl Settings.turnOn s) where
  reads rest := by
    simp only [List.cons_append, List.nil_append, readWords, hletters]
    rw [if_neg h, if_neg hvalue, if_neg hhelp]
  script := s.script_foldl_turnOn os
  args := s.args_foldl_turnOn os
  no_separator := by simp

theorem readWords_of_stops (h : Stops words) :
    readWords s unknown words = (s.withPositionals words).verdict unknown := by
  cases words with
  | nil => rfl
  | cons w rest =>
    obtain ⟨text, word⟩ := w
    rcases h _ rfl with hw | hw <;> cases hw <;> rfl

/-- Words that are options up to the first one that is none. -/
def Splits (s : Settings) (words : List (String × Word)) (u : Settings) : Prop :=
  ∃ options rest t, words = options ++ rest ∧ Opening s options t ∧ Stops rest ∧
    u = t.withPositionals rest

theorem Opening.splits {options : List (String × Word)} (h : Opening s options t)
    (h' : Splits t rest u) : Splits s (options ++ rest) u := by
  obtain ⟨options', rest', t', rfl, hopening, hstops, rfl⟩ := h'
  exact ⟨options ++ options', rest', t', (List.append_assoc ..).symm, h.trans hopening, hstops, rfl⟩

theorem accepted_of_verdict (h : s.verdict unknown = .accepted u) : unknown = [] ∧ u = s := by
  cases unknown with
  | nil => exact ⟨rfl, (Verdict.accepted.inj h).symm⟩
  | cons => cases h

/-- Of an accepted command line no option is unknown, and they all stand first. -/
theorem splits_of_accepted (h : readWords s unknown words = .accepted u) :
    unknown = [] ∧ Splits s words u := by
  fun_induction readWords s unknown words with
  | case1 s unknown =>
    obtain ⟨hnone, rfl⟩ := accepted_of_verdict h
    exact ⟨hnone, [], [], _, rfl, .refl _, nofun, rfl⟩
  | case2 s unknown text rest ih =>
    -- a word that is not known stays so
    obtain ⟨hnone, -⟩ := ih h
    simp at hnone
  | case3 _ _ _ _ htakes _ _ ih | case7 _ _ _ _ htakes _ _ ih =>
    obtain ⟨hnone, hsplits⟩ := ih h
    exact ⟨hnone, (opening_value htakes (by simp)).splits hsplits⟩
  | case6 _ _ _ _ _ htakes hhelp ih | case10 _ _ _ _ _ htakes hhelp ih =>
    obtain ⟨hnone, hsplits⟩ := ih h
    exact ⟨hnone, (opening_flag htakes hhelp (by simp)).splits hsplits⟩
  | case11 _ _ _ _ _ _ htakes ih | case16 _ _ _ _ _ _ htakes ih =>
    obtain ⟨hnone, hsplits⟩ := ih h
    exact ⟨hnone, (opening_held htakes (by simp)).splits hsplits⟩
  | case15 _ _ _ _ _ _ htakes hvalue _ hletters hhelp ih =>
    obtain ⟨hnone, hsplits⟩ := ih h
    exact ⟨hnone, (opening_letters htakes hvalue hletters hhelp).splits hsplits⟩
  | case18 s unknown words _ hunknown hletter hlong hletter' hlong' =>
    obtain ⟨hnone, rfl⟩ := accepted_of_verdict h
    refine ⟨hnone, [], words, s, rfl, .refl s, ?_, rfl⟩
    rintro ⟨text, word⟩ hw
    obtain ⟨rest, rfl⟩ := List.head?_eq_some_iff.1 hw
    cases word with
    | argument => exact .inl rfl
    | separator => exact .inr rfl
    | unknown => exact (hunknown _ _ rfl).elim
    | letter o value =>
      cases value with
      | none => exact (hletter _ _ _ rfl).elim
      | some value => exact (hletter' _ _ _ _ rfl).elim
    | long o value =>
      cases value with
      | none => exact (hlong _ _ _ rfl).elim
      | some value => exact (hlong' _ _ _ _ rfl).elim
  | _ => cases h

end ScriptLauncher.CommandLine
