import ScriptLauncher.Text.ShellWords

/-! Lines of words as a shell takes them apart, and that it finds in a joined line the words that
were joined, whatever characters they hold. -/

namespace ScriptLauncher.ShellWords

/-- Where the next character stands: outside of quotes, between them, or behind a backslash. -/
inductive Quoting
  | bare
  | escaped
  | single
  | double
  | doubleEscaped
  deriving DecidableEq, Repr

/-- What a shell does not take as it is outside of quotes. -/
def isSpecial (c : Char) : Bool := "|&;<>()$`*?[#~\t".toList.contains c

/-- What a character adds to its word, and how the one behind it is quoted. An expansion adds
nothing that is known, and is refused. -/
def take : Quoting → Char → Option (Quoting × List Char)
  | .bare, '\'' => some (.single, [])
  | .bare, '"' => some (.double, [])
  | .bare, '\\' => some (.escaped, [])
  | .bare, c => if isSpecial c then none else some (.bare, [c])
  | .escaped, c => if c = '\n' then none else some (.bare, [c])
  | .single, '\'' => some (.bare, [])
  | .single, c => some (.single, [c])
  | .double, '"' => some (.bare, [])
  | .double, '\\' => some (.doubleEscaped, [])
  | .double, c => if c = '$' ∨ c = '`' then none else some (.double, [c])
  | .doubleEscaped, c =>
    if c = '\n' then some (.double, [])
    else if "$`\"\\".toList.contains c then some (.double, [c])
    else some (.double, ['\\', c])

/-- The word that has begun, if one has. -/
def ended (word : Option (List Char)) : List String := (word.map String.ofList).toList

/-- The words up to the first newline outside of quotes, and the text behind it. -/
def readLine (q : Quoting) (word : Option (List Char)) :
    List Char → Option (List String × List Char)
  | [] => none
  | c :: s =>
    if q = .bare ∧ c = '\n' then some (ended word, s)
    else if q = .bare ∧ c = ' ' then do
      let (words, rest) ← readLine .bare none s
      return (ended word ++ words, rest)
    else do
      let (q, cs) ← take q c
      readLine q (some (word.getD [] ++ cs)) s

theorem length_readLine {s rest : List Char} {q : Quoting} {word : Option (List Char)}
    {words : List String} (h : readLine q word s = some (words, rest)) :
    rest.length < s.length := by
  induction s generalizing q word words with
  | nil => cases h
  | cons c s ih =>
    rw [readLine] at h
    split at h
    · cases h
      exact Nat.lt_succ_self _
    · split at h
      · obtain ⟨⟨words', rest'⟩, hread, hrest⟩ := Option.bind_eq_some_iff.1 h
        cases hrest
        exact Nat.lt_succ_of_lt (ih hread)
      · obtain ⟨⟨q', cs⟩, -, hread⟩ := Option.bind_eq_some_iff.1 h
        exact Nat.lt_succ_of_lt (ih hread)

theorem ne_of_isPlain {c d : Char} (h : isPlain c = true) (hd : isPlain d = false) : c ≠ d := by
  rintro rfl
  cases h.symm.trans hd

theorem not_isSpecial_of_isPlain {c : Char} (h : isPlain c = true) : isSpecial c = false := by
  have hspecial : ("|&;<>()$`*?[#~\t".toList.all fun d => !isPlain d) = true := by decide
  refine Bool.eq_false_iff.2 fun hc => ?_
  have hplain := List.all_eq_true.1 hspecial c (List.contains_iff_mem.1 hc)
  simp [h] at hplain

theorem take_of_isPlain {c : Char} (h : isPlain c = true) : take .bare c = some (.bare, [c]) := by
  rw [take]
  · rw [not_isSpecial_of_isPlain h]
    rfl
  · exact ne_of_isPlain h (by decide)
  · exact ne_of_isPlain h (by decide)
  · exact ne_of_isPlain h (by decide)

theorem readLine_take {q q' : Quoting} {c : Char} {cs : List Char}
    (htake : take q c = some (q', cs)) (hends : q = .bare → c ≠ '\n' ∧ c ≠ ' ')
    (word : Option (List Char)) (s : List Char) :
    readLine q word (c :: s) = readLine q' (some (word.getD [] ++ cs)) s := by
  rw [readLine, if_neg fun h => (hends h.1).1 h.2, if_neg fun h => (hends h.1).2 h.2, htake]
  rfl

theorem readLine_of_isPlain {c : Char} (h : isPlain c = true) (word : Option (List Char))
    (s : List Char) :
    readLine .bare word (c :: s) = readLine .bare (some (word.getD [] ++ [c])) s :=
  readLine_take (take_of_isPlain h)
    (fun _ => ⟨ne_of_isPlain h (by decide), ne_of_isPlain h (by decide)⟩) word s

theorem readLine_plain {s : List Char} (h : ∀ c ∈ s, isPlain c = true) (word rest : List Char) :
    readLine .bare (some word) (s ++ rest) = readLine .bare (some (word ++ s)) rest := by
  induction s generalizing word with
  | nil => rw [List.nil_append, List.append_nil]
  | cons c s ih =>
    obtain ⟨hc, hs⟩ := List.forall_mem_cons.1 h
    rw [List.cons_append, readLine_of_isPlain hc, ih hs]
    simp

theorem readLine_open (word : Option (List Char)) (s : List Char) :
    readLine .bare word ('\'' :: s) = readLine .single (some (word.getD [])) s := by
  rw [readLine_take (show take .bare '\'' = some (.single, []) from rfl) (by decide),
    List.append_nil]

theorem readLine_close (word s : List Char) :
    readLine .single (some word) ('\'' :: s) = readLine .bare (some word) s := by
  rw [readLine_take (show take .single '\'' = some (.bare, []) from rfl) (by simp),
    Option.getD_some, List.append_nil]

/-- What is protected is read as it was: each single quote in it stands between double ones. -/
theorem readLine_protect (s word rest : List Char) :
    readLine .single (some word) (protect s ++ '\'' :: rest) =
      readLine .bare (some (word ++ s)) rest := by
  induction s generalizing word with
  | nil => rw [protect_nil, List.nil_append, readLine_close, List.append_nil]
  | cons c s ih =>
    by_cases hc : c = '\''
    · subst hc
      show readLine .single (some word)
        ('\'' :: '"' :: '\'' :: '"' :: '\'' :: (protect s ++ '\'' :: rest)) = _
      rw [readLine_close,
        readLine_take (show take .bare '"' = some (.double, []) from rfl) (by decide),
        readLine_take (show take .double '\'' = some (.double, ['\'']) from rfl) (by simp),
        readLine_take (show take .double '"' = some (.bare, []) from rfl) (by simp),
        readLine_open]
      simp [ih]
    · have htake : take .single c = some (.single, [c]) := by
        rw [take]
        exact hc
      have hcons : protect (c :: s) = c :: protect s := by simp [protect, hc]
      rw [hcons, List.cons_append, readLine_take htake (by simp)]
      simp [ih]

/-- A quoted word is read as one word, or as more of the word that has begun. -/
theorem readLine_quoteChars (s : List Char) (word : Option (List Char)) (rest : List Char) :
    readLine .bare word (quoteChars s ++ rest) =
      readLine .bare (some (word.getD [] ++ s)) rest := by
  unfold quoteChars
  split
  · rw [List.cons_append, List.cons_append, List.append_assoc, List.singleton_append,
      readLine_open, readLine_protect]
  · next h =>
    obtain ⟨hne, hplain⟩ : s ≠ [] ∧ ∀ c ∈ s, isPlain c = true := by simpa using h
    obtain ⟨c, s, rfl⟩ := List.exists_cons_of_ne_nil hne
    obtain ⟨hc, hs⟩ := List.forall_mem_cons.1 hplain
    rw [List.cons_append, readLine_of_isPlain hc, readLine_plain hs]
    simp

@[simp] theorem join_singleton (word : String) : join [word] = quote word := by
  simp [join]

theorem join_cons_cons (word next : String) (words : List String) :
    join (word :: next :: words) = quote word ++ " " ++ join (next :: words) := by
  simp [join]

/-- Joined words are read back, up to the newline that closes them. -/
theorem readLine_join (words : List String) (rest : List Char) :
    readLine .bare none ((join words).toList ++ '\n' :: rest) = some (words, rest) := by
  induction words with
  | nil => rfl
  | cons word words ih =>
    cases words with
    | nil =>
      rw [join_singleton, quote, String.toList_ofList, readLine_quoteChars]
      simp [readLine, ended]
    | cons next words =>
      rw [join_cons_cons, String.toList_append, String.toList_append, quote, String.toList_ofList,
        List.append_assoc, List.append_assoc, readLine_quoteChars]
      show (do
        let (words, rest) ← readLine .bare none ((join (next :: words)).toList ++ '\n' :: rest)
        return (ended (some (([] : List Char) ++ word.toList)) ++ words, rest)) = _
      rw [ih]
      simp [ended]

end ScriptLauncher.ShellWords
