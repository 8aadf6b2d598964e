import ScriptLauncher.CommandLine.Word

/-! How a list of words is understood. Only a word that is short for several options is refused,
and only before the first separator; what stands behind that is never looked at. -/

namespace ScriptLauncher.CommandLine

/-- A word's text up to the first equals sign. -/
def beforeValue (text : String) : String := (Word.cutValue text.toList).1

/-- The spellings that a text begins. -/
def begun (text : String) : List (String × Opt) :=
  Opt.spellings.filter fun e => text.toList.isPrefixOf e.1.toList

/-- Short for several options: it has two dashes, and what stands before its value begins several
spellings and is none itself. -/
structure IsAmbiguous (text : String) : Prop where
  dashes : "--".toList <+: text.toList
  unspelled : Opt.spelled? (beforeValue text) = none
  several : 2 ≤ (begun (beforeValue text)).length

instance (text : String) : Decidable (IsAmbiguous text) :=
  decidable_of_iff ("--".toList <+: text.toList ∧ Opt.spelled? (beforeValue text) = none ∧
      2 ≤ (begun (beforeValue text)).length)
    ⟨fun ⟨h, h', h''⟩ => ⟨h, h', h''⟩, fun h => ⟨h.dashes, h.unspelled, h.several⟩⟩

/-- Words of which none is refused: before the first separator, no one is ambiguous. -/
def Understood (texts : List String) : Prop :=
  ∀ text ∈ texts.takeWhile (· ≠ "--"), ¬ IsAmbiguous text

instance (texts : List String) : Decidable (Understood texts) :=
  inferInstanceAs (Decidable (∀ text ∈ texts.takeWhile (· ≠ "--"), ¬ IsAmbiguous text))

namespace Word

variable {text : String} {texts : List String} {words : List (String × Word)}

theorem cutValue_of_none {s : List Char} (h : (cutValue s).2 = none) :
    (cutValue s).1 = String.ofList s := by
  have hnone : s.dropWhile (· != '=') = [] := by
    cases hd : s.dropWhile (· != '=') with
    | nil => rfl
    | cons c rest => simp [cutValue, hd] at h
  have hall : s.takeWhile (· != '=') = s := by
    have happend := List.takeWhile_append_dropWhile (p := (· != '=')) (l := s)
    rwa [hnone, List.append_nil] at happend
  rw [cutValue, hall]

/-- No option is spelled with an equals sign. -/
theorem beforeValue_of_spelled {o : Opt} (h : Opt.spelled? text = some o) :
    beforeValue text = text := by
  obtain ⟨e, hfind, -⟩ := Option.map_eq_some_iff.1 h
  have hall : ∀ e ∈ Opt.spellings, beforeValue e.1 = e.1 := by decide
  have heq : e.1 = text := by simpa using List.find?_some hfind
  exact heq ▸ hall e (List.mem_of_find?_eq_some hfind)

theorem length_candidates (h : "--".toList <+: text.toList) :
    (candidates text.toList).length = (begun (beforeValue text)).length := by
  obtain ⟨rest, hrest⟩ := h
  have htext : text.toList = '-' :: '-' :: rest := hrest.symm
  rw [beforeValue, begun, htext]
  simp only [candidates]
  rw [List.length_filterMap_eq_countP, ← List.countP_eq_length_filter]
  refine List.countP_congr fun e _ => ?_
  split <;> simp_all

/-- A word of one dash stands for one option at most. -/
theorem dashes_of_several (h : 2 ≤ (candidates text.toList).length) :
    "--".toList <+: text.toList := by
  unfold candidates at h
  split at h
  · next htext => exact ⟨_, htext.symm⟩
  · split at h <;> simp at h
  · simp at h

theorem unspelled_iff : Opt.spelled? (beforeValue text) = none ↔
    Opt.spelled? text = none ∧ ∀ o value, Opt.spelled? (beforeValue text) = some o →
      (cutValue text.toList).2 ≠ some value := by
  constructor
  · intro h
    refine ⟨?_, fun o _ ho => by cases ho.symm.trans h⟩
    cases ho : Opt.spelled? text with
    | none => rfl
    | some o => exact (beforeValue_of_spelled ho ▸ ho).symm.trans h
  · rintro ⟨hplain, hheld⟩
    cases ho : Opt.spelled? (beforeValue text) with
    | none => rfl
    | some o =>
      cases hv : (cutValue text.toList).2 with
      | none =>
        have hwhole : beforeValue text = text := by
          rw [beforeValue, cutValue_of_none hv, String.ofList_toList]
        rw [hwhole, hplain] at ho
        cases ho
      | some value => exact absurd hv (hheld o value ho)

/-- The words that are refused are the ambiguous ones. -/
theorem ofText_error_iff : (∃ e, ofText text = .error e) ↔ IsAmbiguous text := by
  constructor
  · rintro ⟨e, h⟩
    unfold ofText at h
    dsimp only at h
    split at h
    · cases h
    split at h
    · cases h
    split at h
    · cases h
    split at h
    · cases h
    rename_i hplain _ _ hheld
    have hunspelled : Opt.spelled? (beforeValue text) = none := by
      refine unspelled_iff.2 ⟨?_, fun o value ho hv => hheld o value (Prod.ext ho hv)⟩
      exact Option.eq_none_iff_forall_ne_some.2 hplain
    split at h
    · cases h
    · split at h <;> cases h
    · next hone hnone =>
      have hseveral : 2 ≤ (candidates text.toList).length := by
        cases hc : candidates text.toList with
        | nil => exact absurd hc hnone
        | cons c rest =>
          cases rest with
          | nil => exact absurd hc (hone c.1 c.2.1 c.2.2)
          | cons => simp
      have hdashes := dashes_of_several hseveral
      exact ⟨hdashes, hunspelled, length_candidates hdashes ▸ hseveral⟩
  · rintro ⟨hdashes, hunspelled, hseveral⟩
    have hplain := (unspelled_iff.1 hunspelled).1
    rw [← length_candidates hdashes] at hseveral
    obtain ⟨rest, hrest⟩ := hdashes
    have htext : text.toList = '-' :: '-' :: rest := hrest.symm
    rw [beforeValue] at hunspelled
    refine ⟨.ambiguous text ((candidates text.toList).map (·.1)), ?_⟩
    unfold ofText
    simp only [hplain, hunspelled]
    rw [if_neg (by simp [htext]), if_neg (by simp [htext])]
    match hc : candidates text.toList with
    | [] => simp [hc] at hseveral
    | [_] => simp [hc] at hseveral
    | _ :: _ :: _ => rfl

theorem ne_separator_of_ofText {word : Word} (h : ofText text = .ok word) : word ≠ .separator := by
  have hspelling (spelling : String) (o : Opt) (value : Option String) :
      ofSpelling spelling o value ≠ .separator := by
    unfold ofSpelling
    split <;> nofun
  rintro rfl
  unfold ofText at h
  dsimp only at h
  split at h
  · cases h
  split at h
  · exact hspelling _ _ _ (Except.ok.inj h)
  split at h
  · cases h
  split at h
  · exact hspelling _ _ _ (Except.ok.inj h)
  split at h
  · exact hspelling _ _ _ (Except.ok.inj h)
  · split at h <;> cases h
  · cases h

/-- The separator itself would be short for every option. -/
theorem ne_of_ofText {word : Word} (h : ofText text = .ok word) : text ≠ "--" := by
  rintro rfl
  obtain ⟨e, he⟩ := ofText_error_iff.2 (by decide +kernel : IsAmbiguous "--")
  cases he.symm.trans h

theorem ofTexts_separator (rest : List String) :
    ofTexts ("--" :: rest) = .ok (("--", .separator) :: rest.map (·, .argument)) := rfl

theorem ofTexts_cons (h : text ≠ "--") (rest : List String) :
    ofTexts (text :: rest) = do
      let word ← ofText text
      return (text, word) :: (← ofTexts rest) :=
  if_neg h

theorem ofTexts_cons_eq_ok (h : text ≠ "--") :
    ofTexts (text :: texts) = .ok words ↔
      ∃ word rest, ofText text = .ok word ∧ ofTexts texts = .ok rest ∧
        words = (text, word) :: rest := by
  rw [ofTexts_cons h]
  cases ofText text with
  | error e => simp [bind, Except.bind]
  | ok word =>
    cases ofTexts texts with
    | error e => simp [bind, Except.bind]
    | ok rest => simp [bind, Except.bind, pure, Except.pure, eq_comm]

theorem understood_cons (h : text ≠ "--") :
    Understood (text :: texts) ↔ ¬ IsAmbiguous text ∧ Understood texts := by
  unfold Understood
  rw [List.takeWhile_cons_of_pos (by simpa using h)]
  simp

theorem understood_append (h : "--" ∉ texts) {rest : List String} :
    Understood (texts ++ rest) ↔ (∀ text ∈ texts, ¬ IsAmbiguous text) ∧ Understood rest := by
  induction texts with
  | nil => simp
  | cons text texts ih =>
    rw [List.mem_cons, not_or] at h
    rw [List.cons_append, understood_cons (Ne.symm h.1), ih h.2, List.forall_mem_cons, and_assoc]

/-- A list of words is refused for an ambiguous one, and for nothing else. -/
theorem ofTexts_error_iff : (∃ e, ofTexts texts = .error e) ↔ ¬ Understood texts := by
  induction texts with
  | nil => simp [ofTexts, Understood]
  | cons text texts ih =>
    by_cases h : text = "--"
    · subst h
      simp [ofTexts_separator, Understood]
    · rw [understood_cons h, Decidable.not_and_iff_not_or_not, Decidable.not_not, ← ih,
        ← ofText_error_iff, ofTexts_cons h]
      cases ofText text with
      | error e => simp [bind, Except.bind]
      | ok word => cases ofTexts texts <;> simp [bind, Except.bind, pure, Except.pure]

theorem ofTexts_of_understood (h : Understood texts) : ∃ words, ofTexts texts = .ok words := by
  cases hwords : ofTexts texts with
  | ok words => exact ⟨words, rfl⟩
  | error e => exact absurd h (ofTexts_error_iff.1 ⟨e, hwords⟩)

/-- What stands behind a separator is not looked at. -/
theorem ofTexts_append_of_mem (h : "--" ∈ texts) (rest : List String) :
    ofTexts (texts ++ rest) = (· ++ rest.map (·, .argument)) <$> ofTexts texts := by
  induction texts with
  | nil => cases h
  | cons text texts ih =>
    rw [List.cons_append]
    by_cases hsep : text = "--"
    · subst hsep
      rw [ofTexts_separator, ofTexts_separator, List.map_append]
      rfl
    · have hmem := (List.mem_cons.1 h).resolve_left (Ne.symm hsep)
      rw [ofTexts_cons hsep, ofTexts_cons hsep, ih hmem]
      cases ofText text with
      | error e => rfl
      | ok word => cases ofTexts texts <;> rfl

theorem ofTexts_append (h : "--" ∉ texts) (rest : List String) :
    ofTexts (texts ++ rest) = do
      let words ← ofTexts texts
      return words ++ (← ofTexts rest) := by
  induction texts with
  | nil =>
    rw [List.nil_append]
    cases ofTexts rest <;> rfl
  | cons text texts ih =>
    rw [List.mem_cons, not_or] at h
    obtain ⟨hsep, htexts⟩ := h
    rw [List.cons_append, ofTexts_cons (Ne.symm hsep), ofTexts_cons (Ne.symm hsep), ih htexts]
    cases ofText text with
    | error e => rfl
    | ok word =>
      cases ofTexts texts with
      | error e => rfl
      | ok words => cases ofTexts rest <;> rfl

theorem ofTexts_append_eq_ok (h : "--" ∉ texts) {rest : List String} :
    ofTexts (texts ++ rest) = .ok words ↔ ∃ ws ws', ofTexts texts = .ok ws ∧
      ofTexts rest = .ok ws' ∧ ws ++ ws' = words := by
  rw [ofTexts_append h]
  cases ofTexts texts with
  | error e => simp [bind, Except.bind]
  | ok ws => cases ofTexts rest <;> simp [bind, Except.bind, pure, Except.pure]

theorem map_fst_ofTexts (h : ofTexts texts = .ok words) : words.map (·.1) = texts := by
  induction texts generalizing words with
  | nil => cases h; rfl
  | cons text texts ih =>
    by_cases hsep : text = "--"
    · subst hsep
      cases h
      simp [Function.comp_def]
    · obtain ⟨word, rest, -, hrest, rfl⟩ := (ofTexts_cons_eq_ok hsep).1 h
      rw [List.map_cons, ih hrest]

theorem separator_mem_iff (h : ofTexts texts = .ok words) :
    (∃ w ∈ words, w.2 = .separator) ↔ "--" ∈ texts := by
  induction texts generalizing words with
  | nil => cases h; simp
  | cons text texts ih =>
    by_cases hsep : text = "--"
    · subst hsep
      cases h
      simp
    · obtain ⟨word, rest, hword, hrest, rfl⟩ := (ofTexts_cons_eq_ok hsep).1 h
      simp only [List.mem_cons, exists_eq_or_imp]
      rw [ih hrest]
      simp [ne_separator_of_ofText hword, Ne.symm hsep]

theorem ofText_of_mem (h : "--" ∉ texts) (hwords : ofTexts texts = .ok words) :
    ∀ w ∈ words, w.1 ∈ texts ∧ ofText w.1 = .ok w.2 := by
  induction texts generalizing words with
  | nil => cases hwords; nofun
  | cons text texts ih =>
    rw [List.mem_cons, not_or] at h
    obtain ⟨word, rest, hword, hrest, rfl⟩ := (ofTexts_cons_eq_ok (Ne.symm h.1)).1 hwords
    refine List.forall_mem_cons.2 ⟨⟨List.mem_cons_self, hword⟩, fun w hw => ?_⟩
    obtain ⟨hmem, heq⟩ := ih h.2 hrest w hw
    exact ⟨List.mem_cons_of_mem _ hmem, heq⟩

end Word

end ScriptLauncher.CommandLine
