import ScriptLauncher.CommandLine.Settings
import ScriptLauncher.Proofs.CommandLine.Words

/-! The texts that give an option: its spellings in full or cut short, alone or with a value, and
letters that come together. -/

namespace ScriptLauncher.CommandLine

section spellings

variable {text start : String} {o : Opt} {c : Char}

theorem Opt.mem_of_spelled? (h : Opt.spelled? text = some o) : (text, o) ∈ Opt.spellings := by
  obtain ⟨e, hfind, rfl⟩ := Option.map_eq_some_iff.1 h
  obtain rfl : e.1 = text := by simpa using List.find?_some hfind
  exact List.mem_of_find?_eq_some hfind

theorem Opt.letter?_eq_some_iff :
    Opt.letter? c = some o ↔ c = 'h' ∧ o = .help ∨ c = 'v' ∧ o = .verbose := by
  constructor
  · intro h
    have hmem := Opt.mem_of_spelled? h
    simpa [Opt.spellings, ← String.toList_inj] using hmem
  · rintro (⟨rfl, rfl⟩ | ⟨rfl, rfl⟩) <;> rfl

end spellings

namespace Word

variable {text : String} {word : Word}

theorem cutValue_of_some {s : List Char} {value : String} (h : (cutValue s).2 = some value) :
    s = (cutValue s).1.toList ++ '=' :: value.toList := by
  have happend := List.takeWhile_append_dropWhile (p := (· != '=')) (l := s)
  cases hrest : s.dropWhile (· != '=') with
  | nil => simp [cutValue, hrest] at h
  | cons c rest =>
    have hhead := List.head?_dropWhile_not (· != '=') s
    have hc : c = '=' := by simpa [hrest] using hhead
    obtain rfl : String.ofList rest = value := by simpa [cutValue, hrest] using h
    rw [hrest, hc] at happend
    rw [cutValue, String.toList_ofList, String.toList_ofList, happend]

theorem cutValue_append {start : List Char} (h : '=' ∉ start) (value : List Char) :
    cutValue (start ++ '=' :: value) = (String.ofList start, some (String.ofList value)) := by
  have hstart : ∀ c ∈ start, (c != '=') = true := fun c hc =>
    bne_iff_ne.2 fun heq => h (heq ▸ hc)
  rw [cutValue, List.takeWhile_append_of_pos hstart, List.dropWhile_append_of_pos hstart]
  simp

theorem beforeValue_eq_self (h : '=' ∉ text.toList) : beforeValue text = text := by
  cases hvalue : (cutValue text.toList).2 with
  | none => rw [beforeValue, cutValue_of_none hvalue, String.ofList_toList]
  | some value =>
    rw [cutValue_of_some hvalue] at h
    simp at h

/-- With two dashes, a text may stand for each option that has a spelling which it begins. -/
theorem candidates_of_dashes (h : "--".toList <+: text.toList) :
    candidates text.toList =
      (begun (beforeValue text)).map fun e => (e.1, e.2, (cutValue text.toList).2) := by
  obtain ⟨rest, hrest⟩ := h
  have htext : text.toList = '-' :: '-' :: rest := hrest.symm
  rw [beforeValue, begun, htext]
  simp only [candidates]
  induction Opt.spellings with
  | nil => rfl
  | cons e es ih =>
    simp only [List.filterMap_cons, List.filter_cons, ih]
    split <;> simp_all

/-- The ways to give an option, alone or with a value. -/
inductive Gives (text : String) : Word → Prop
  | alone {o : Opt} (h : Opt.spelled? text = some o) : Gives text (ofSpelling text o none)
  | equals {start value : String} {o : Opt} (h : Opt.spelled? start = some o)
    (htext : text.toList = start.toList ++ '=' :: value.toList) :
    Gives text (ofSpelling start o (some value))
  | short {spelling : String} {o : Opt} (hdashes : "--".toList <+: text.toList)
    (hunspelled : Opt.spelled? (beforeValue text) = none)
    (h : begun (beforeValue text) = [(spelling, o)]) :
    Gives text (.long o (cutValue text.toList).2)
  | letters {o : Opt} {c : Char} {rest : List Char} (htext : text.toList = '-' :: c :: rest)
    (hunspelled : Opt.spelled? (beforeValue text) = none) (h : Opt.letter? c = some o) :
    Gives text (.letter o (some (String.ofList rest)))

theorem isLong_of_begun (h : "--".toList <+: text.toList) {e : String × Opt}
    (he : e ∈ begun (beforeValue text)) : isLong e.1 = true := by
  obtain ⟨rest, hrest⟩ := h
  have hstart : "--".toList <+: (beforeValue text).toList := by
    refine ⟨rest.takeWhile (· != '='), ?_⟩
    rw [beforeValue, ← hrest, cutValue]
    simp
  have hbegun := List.isPrefixOf_iff_prefix.1 (List.mem_filter.1 he).2
  exact List.isPrefixOf_iff_prefix.2 (hstart.trans hbegun)

theorem isLong_of_letter {c : Char} {o : Opt} (h : Opt.letter? c = some o) :
    isLong (String.ofList ['-', c]) = false := by
  rcases Opt.letter?_eq_some_iff.1 h with ⟨rfl, -⟩ | ⟨rfl, -⟩ <;> rfl

theorem gives_of_candidates {spelling : String} {o : Opt} {value : Option String}
    (h : candidates text.toList = [(spelling, o, value)])
    (hunspelled : Opt.spelled? (beforeValue text) = none) :
    Gives text (ofSpelling spelling o value) := by
  by_cases hdashes : "--".toList <+: text.toList
  · rw [candidates_of_dashes hdashes] at h
    obtain ⟨e, hbegun, heq⟩ := List.map_eq_singleton_iff.1 h
    cases heq
    rw [ofSpelling, if_pos (isLong_of_begun hdashes (hbegun ▸ List.mem_singleton_self e))]
    exact .short hdashes hunspelled hbegun
  · unfold candidates at h
    split at h
    · next rest htext => exact absurd ⟨rest, htext.symm⟩ hdashes
    · next c rest _ htext =>
      split at h
      · next o' ho =>
        cases h
        rw [ofSpelling, isLong_of_letter ho]
        exact .letters htext hunspelled ho
      · cases h
    · cases h

theorem gives_of_ofText (h : ofText text = .ok word) :
    word = .argument ∨ word = .unknown ∨ Gives text word := by
  unfold ofText at h
  dsimp only at h
  split at h
  · exact .inl (Except.ok.inj h).symm
  split at h
  · next o ho =>
    obtain rfl := Except.ok.inj h
    exact .inr (.inr (.alone ho))
  split at h
  · exact .inl (Except.ok.inj h).symm
  split at h
  · next o value heq =>
    obtain rfl := Except.ok.inj h
    obtain ⟨ho, hvalue⟩ := Prod.mk.inj heq
    exact .inr (.inr (.equals ho (cutValue_of_some hvalue)))
  rename_i hplain _ _ hheld
  split at h
  · next spelling o value hone =>
    obtain rfl := Except.ok.inj h
    have hunspelled : Opt.spelled? (beforeValue text) = none :=
      unspelled_iff.2 ⟨Option.eq_none_iff_forall_ne_some.2 hplain,
        fun o value ho hv => hheld o value (Prod.ext ho hv)⟩
    exact .inr (.inr (gives_of_candidates hone hunspelled))
  · split at h
    · exact .inl (Except.ok.inj h).symm
    · exact .inr (.inl (Except.ok.inj h).symm)
  · cases h

theorem ofText_of_candidates {spelling : String} {o : Opt} {value : Option String} {c : Char}
    {rest : List Char} (htext : text.toList = '-' :: c :: rest)
    (hunspelled : Opt.spelled? (beforeValue text) = none)
    (h : candidates text.toList = [(spelling, o, value)]) :
    ofText text = .ok (ofSpelling spelling o value) := by
  have hplain := (unspelled_iff.1 hunspelled).1
  rw [beforeValue] at hunspelled
  unfold ofText
  simp only [hplain, hunspelled, h]
  rw [if_neg (by simp [htext]), if_neg (by simp [htext])]

theorem ofText_of_gives (h : Gives text word) : ofText text = .ok word := by
  have hspelled : ∀ e ∈ Opt.spellings, e.1.toList.head? = some '-' ∧ '=' ∉ e.1.toList := by decide
  cases h with
  | alone h =>
    obtain ⟨hdash, -⟩ := hspelled _ (Opt.mem_of_spelled? h)
    unfold ofText
    simp only [h]
    rw [if_neg (by simp [hdash])]
  | @equals start value o h htext =>
    obtain ⟨hdash, hequals⟩ := hspelled _ (Opt.mem_of_spelled? h)
    have hcut : cutValue text.toList = (start, some value) := by
      rw [htext, cutValue_append hequals, String.ofList_toList, String.ofList_toList]
    -- a text with an equals sign is no spelling
    have hplain : Opt.spelled? text = none := by
      refine Option.eq_none_iff_forall_ne_some.2 fun o ho => ?_
      obtain ⟨-, hnone⟩ := hspelled _ (Opt.mem_of_spelled? ho)
      rw [htext] at hnone
      simp at hnone
    obtain ⟨rest, hrest⟩ := List.head?_eq_some_iff.1 hdash
    unfold ofText
    simp only [hplain, hcut, h]
    rw [if_neg (by simp [htext, hrest]), if_neg (by simp [htext, hrest])]
  | @short spelling o hdashes hunspelled h =>
    have hlong := isLong_of_begun hdashes (h ▸ List.mem_singleton_self _)
    have hcandidates := candidates_of_dashes hdashes
    rw [h] at hcandidates
    obtain ⟨rest, hrest⟩ := hdashes
    have htext : text.toList = '-' :: '-' :: rest := hrest.symm
    rw [ofText_of_candidates htext hunspelled hcandidates, ofSpelling, if_pos hlong]
  | @letters o c rest htext hunspelled h =>
    have hcandidates : candidates text.toList =
        [(String.ofList ['-', c], o, some (String.ofList rest))] := by
      rw [htext]
      rcases Opt.letter?_eq_some_iff.1 h with ⟨rfl, rfl⟩ | ⟨rfl, rfl⟩ <;> rfl
    rw [ofText_of_candidates htext hunspelled hcandidates, ofSpelling, isLong_of_letter h]
    rfl

/-- A text says an option just where it gives it in one of these ways. -/
theorem gives_iff : Gives text word ↔ ofText text = .ok word ∧ word ≠ .argument ∧ word ≠ .unknown := by
  constructor
  · intro h
    refine ⟨ofText_of_gives h, ?_⟩
    cases h with
    | alone | equals =>
      unfold ofSpelling
      split <;> exact ⟨nofun, nofun⟩
    | short | letters => exact ⟨nofun, nofun⟩
  · rintro ⟨h, hargument, hunknown⟩
    exact ((gives_of_ofText h).resolve_left hargument).resolve_left hunknown

end Word

end ScriptLauncher.CommandLine
