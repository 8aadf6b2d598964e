import ScriptLauncher.Path
import ScriptLauncher.Text.Utf8

/-! The texts of paths: what a suffix on the last name does to them, and which characters
they hold. -/

namespace ScriptLauncher.Path

theorem text_of_ne_nil {root : Root} {parts : List String} (h : parts ≠ []) :
    (Path.mk root parts).text = root.text ++ "/".intercalate parts := by
  cases root with
  | relative =>
    cases parts with
    | nil => exact absurd rfl h
    | cons => rfl
  | single | double => rfl

theorem text_append (root : Root) (init : List String) (last suffix : String) :
    (Path.mk root (init ++ [last ++ suffix])).text =
      (Path.mk root (init ++ [last])).text ++ suffix := by
  rw [text_of_ne_nil (by simp), text_of_ne_nil (by simp)]
  cases init with
  | nil => simp [String.append_assoc]
  | cons first init =>
    rw [String.intercalate_append_of_ne_nil (by simp) (by simp),
      String.intercalate_append_of_ne_nil (by simp) (by simp)]
    simp [String.append_assoc]

/-- A path's text does not get shorter when a name is added to it. -/
theorem length_text_le (root : Root) (init : List String) {last : String} (h : last ≠ "") :
    (Utf8.encode (Path.mk root init).text).length ≤
      (Utf8.encode (Path.mk root (init ++ [last])).text).length := by
  rw [text_of_ne_nil (show init ++ [last] ≠ [] by simp)]
  cases init with
  | nil =>
    cases root with
    | relative =>
      -- the text of the path without names is a dot, and a name has one byte at least
      obtain ⟨c, s, hlast⟩ := List.exists_cons_of_ne_nil (mt String.toList_eq_nil_iff.1 h)
      have hdot : (Utf8.encode ".").length = 1 := by decide
      have hpos : 1 ≤ (Utf8.encode last).length := by
        have hc := List.length_pos_iff.2 (Utf8.encodeChar_ne_nil c)
        rw [Utf8.encode, hlast, Utf8.encodeChars_cons, List.length_append]
        omega
      simpa [text, Root.text, hdot] using hpos
    | single | double => simp [text, Root.text, Utf8.encode]
  | cons first init =>
    rw [text_of_ne_nil (by simp), String.intercalate_append_of_ne_nil (by simp) (by simp)]
    simp [Utf8.encode]

def withSuffix (p : Path) (suffix : String) : Path :=
  ⟨p.root, p.parts.dropLast ++ [p.name ++ suffix]⟩

theorem parts_eq {p : Path} (h : p.parts ≠ []) : p.parts.dropLast ++ [p.name] = p.parts := by
  rw [name, List.getLastD_eq_getLast?, List.getLast?_eq_some_getLast h]
  exact List.dropLast_concat_getLast h

theorem addSuffix?_of_ne_nil {p : Path} (h : p.parts ≠ []) (suffix : String) :
    p.addSuffix? suffix = some (p.withSuffix suffix) := by
  simp [addSuffix?, withSuffix, h]

theorem text_withSuffix {p : Path} (h : p.parts ≠ []) (suffix : String) :
    (p.withSuffix suffix).text = p.text ++ suffix := by
  rw [withSuffix, text_append, parts_eq h]

theorem withSuffix_inj {p q : Path} {suffix : String} (hp : p.parts ≠ []) (hq : q.parts ≠ [])
    (h : p.withSuffix suffix = q.withSuffix suffix) : p = q := by
  obtain ⟨hroot, hparts⟩ := Path.mk.inj h
  obtain ⟨hinit, hlast⟩ := List.append_inj' hparts rfl
  have hname : p.name = q.name := String.append_left_inj suffix |>.1 (List.cons.inj hlast).1
  have hsame : p.parts = q.parts := by rw [← parts_eq hp, ← parts_eq hq, hinit, hname]
  cases p
  cases q
  exact congr (congrArg Path.mk hroot) hsame

theorem mem_of_mem_pieces {s piece : List Char} {c : Char} (hpiece : piece ∈ pieces s)
    (hc : c ∈ piece) : c ∈ s := by
  induction s generalizing piece with
  | nil =>
    obtain rfl := List.mem_singleton.1 hpiece
    exact hc
  | cons d s ih =>
    simp only [pieces] at hpiece
    split at hpiece
    · rcases List.mem_cons.1 hpiece with rfl | hpiece
      · cases hc
      · exact List.mem_cons_of_mem d (ih hpiece hc)
    · split at hpiece
      · next hnil => exact absurd hnil (pieces_ne_nil s)
      · next first rest hs =>
        rcases List.mem_cons.1 hpiece with rfl | hpiece
        · rcases List.mem_cons.1 hc with rfl | hc
          · exact List.mem_cons_self
          · exact List.mem_cons_of_mem d (ih (hs ▸ List.mem_cons_self) hc)
        · exact List.mem_cons_of_mem d (ih (hs ▸ List.mem_cons_of_mem first hpiece) hc)

theorem not_mem_of_mem_pieces {s piece : List Char} (hpiece : piece ∈ pieces s) : '/' ∉ piece := by
  induction s generalizing piece with
  | nil =>
    obtain rfl := List.mem_singleton.1 hpiece
    simp
  | cons c s ih =>
    simp only [pieces] at hpiece
    split at hpiece
    · rcases List.mem_cons.1 hpiece with rfl | hpiece
      · simp
      · exact ih hpiece
    · next hc =>
      split at hpiece
      · next hnil => exact absurd hnil (pieces_ne_nil s)
      · next first rest hs =>
        rcases List.mem_cons.1 hpiece with rfl | hpiece
        · simp [Ne.symm hc, ih (hs ▸ List.mem_cons_self)]
        · exact ih (hs ▸ List.mem_cons_of_mem first hpiece)

/-- Without a slash, what is added to a text goes to its last piece. -/
theorem pieces_append (s : List Char) {t : List Char} (ht : '/' ∉ t) :
    ∃ init last, pieces (s ++ t) = init ++ [last ++ t] := by
  induction s with
  | nil => exact ⟨[], [], by simp [pieces_of_not_mem ht]⟩
  | cons c s ih =>
    obtain ⟨init, last, h⟩ := ih
    simp only [List.cons_append, pieces, h]
    split
    · exact ⟨[] :: init, last, rfl⟩
    · cases init with
      | nil => exact ⟨[], c :: last, rfl⟩
      | cons first init => exact ⟨(c :: first) :: init, last, rfl⟩

theorem names_append (s : List Char) {t : List Char} (ht : '/' ∉ t) (hlong : 1 < t.length) :
    ∃ init last, names (s ++ t) = init ++ [String.ofList (last ++ t)] := by
  obtain ⟨init, last, h⟩ := pieces_append s ht
  have hname : isName (last ++ t) = true := by
    have hlen : 1 < (last ++ t).length := by
      rw [List.length_append]
      exact Nat.lt_of_lt_of_le hlong (Nat.le_add_left _ _)
    simp only [isName, Bool.and_eq_true, bne_iff_ne]
    constructor <;> intro hshort <;> simp [hshort] at hlen
  refine ⟨(init.filter isName).map String.ofList, last, ?_⟩
  simp [names, h, hname]

theorem names_of_not_mem {s : List Char} (hs : '/' ∉ s) (hname : isName s = true) :
    names s = [String.ofList s] := by
  simp [names, pieces_of_not_mem hs, hname]

theorem mem_of_mem_names {s : List Char} {name : String} {c : Char} (hname : name ∈ names s)
    (hc : c ∈ name.toList) : c ∈ s := by
  obtain ⟨piece, hpiece, rfl⟩ := List.mem_map.1 hname
  rw [String.toList_ofList] at hc
  exact mem_of_mem_pieces (List.mem_filter.1 hpiece).1 hc

/-- A text without a slash in it, as each name of a path is. -/
abbrev Slashless (s : String) : Prop := '/' ∉ s.toList

theorem slashless_append {s t : String} : Slashless (s ++ t) ↔ Slashless s ∧ Slashless t := by
  simp only [Slashless, String.toList_append, List.mem_append, not_or]

theorem slashless_name_ofText (s : String) : Slashless (ofText s).name := by
  rw [name, List.getLastD_eq_getLast?]
  cases hlast : (ofText s).parts.getLast? with
  | none => decide
  | some part =>
    obtain ⟨piece, hpiece, rfl⟩ := List.mem_map.1 (List.mem_of_getLast? hlast)
    rw [Option.getD_some, Slashless, String.toList_ofList]
    exact not_mem_of_mem_pieces (List.mem_filter.1 hpiece).1

theorem mem_intercalate {parts : List String} {c : Char} (hslash : c ≠ '/') :
    c ∈ ("/".intercalate parts).toList ↔ ∃ part ∈ parts, c ∈ part.toList := by
  induction parts with
  | nil => simp
  | cons part parts ih =>
    cases parts with
    | nil => simp
    | cons next parts =>
      rw [String.intercalate_cons_cons, String.toList_append, List.mem_append, ih]
      simp [hslash]

/-- The characters of a path's text, other than the two that it may owe to its form, are
those of its names. -/
theorem mem_text {p : Path} {c : Char} (hslash : c ≠ '/') (hdot : c ≠ '.') :
    c ∈ p.text.toList ↔ ∃ part ∈ p.parts, c ∈ part.toList := by
  obtain ⟨root, parts⟩ := p
  by_cases h : parts = []
  · subst h
    cases root <;> simp [text, Root.text, hslash, hdot]
  · rw [text_of_ne_nil h, String.toList_append, List.mem_append, mem_intercalate hslash]
    have hroot : c ∉ root.text.toList := by cases root <;> simp [Root.text, hslash]
    simp [hroot]

/-- A slash parts the pieces of what stands before it from those of what stands behind. -/
theorem pieces_slash (s t : List Char) : pieces (s ++ '/' :: t) = pieces s ++ pieces t := by
  induction s with
  | nil => rfl
  | cons c s ih =>
    simp only [List.cons_append, pieces, ih]
    split
    · rfl
    · cases h : pieces s with
      | nil => exact absurd h (pieces_ne_nil s)
      | cons piece rest => rfl

theorem names_slash (s t : List Char) : names (s ++ '/' :: t) = names s ++ names t := by
  rw [names, pieces_slash, List.filter_append, List.map_append]
  rfl

/-- Before the last name of a path, its text is empty or ends in a slash. -/
theorem toList_text {p : Path} (h : p.parts ≠ []) :
    p.text.toList = p.name.toList ∨ ∃ front, p.text.toList = front ++ '/' :: p.name.toList := by
  rw [show p.text = (Path.mk p.root p.parts).text from rfl, text_of_ne_nil h, ← parts_eq h]
  cases p.parts.dropLast with
  | nil =>
    cases p.root with
    | relative => exact .inl (by simp [Root.text])
    | single => exact .inr ⟨[], by simp [Root.text]⟩
    | double => exact .inr ⟨['/'], by simp [Root.text]⟩
  | cons first init =>
    refine .inr ⟨(p.root.text ++ "/".intercalate (first :: init)).toList, ?_⟩
    rw [String.intercalate_append_of_ne_nil (by simp) (by simp)]
    simp [String.toList_append]

/-- The last name of a path can be read back from its text. -/
theorem name_ofText_text {p : Path} (hslash : Slashless p.name)
    (hname : isName p.name.toList = true) (h : p.parts ≠ []) : (ofText p.text).name = p.name := by
  have hlast := names_of_not_mem hslash hname
  rw [String.ofList_toList] at hlast
  show (names p.text.toList).getLastD "" = p.name
  rcases toList_text h with htext | ⟨front, htext⟩
  · rw [htext, hlast]
    rfl
  · rw [htext, names_slash, hlast, List.getLastD_eq_getLast?, List.getLast?_concat]
    rfl

/-- The directory that relative paths are read in, as the texts "." and "" name it. -/
def here : Path := ⟨.relative, []⟩

example : ofText "./." = here ∧ ofText "" = here := ⟨rfl, rfl⟩

theorem slash_mem_text (root : Root) (init : List String) (last : String) :
    '/' ∈ (Path.mk root (init ++ [last])).text.toList ↔
      Path.mk root init ≠ here ∨ '/' ∈ last.toList := by
  rw [text_of_ne_nil (by simp)]
  cases init with
  | nil => cases root <;> simp [Root.text, here]
  | cons first init =>
    rw [String.intercalate_append_of_ne_nil (by simp) (by simp)]
    simp [here]

/-- A slash between two texts that are long enough to be names parts them. -/
theorem names_of_mem {front middle back : List Char} (hfront : '/' ∉ front)
    (hlong : 1 < front.length) (h : '/' ∈ middle) (hback : '/' ∉ back) (hlong' : 1 < back.length) :
    ∃ init last, init ≠ [] ∧ names (front ++ middle ++ back) = init ++ [last] := by
  obtain ⟨a, b, rfl, ha⟩ := List.eq_append_cons_of_mem h
  have hfirst : names (front ++ a) = [String.ofList (front ++ a)] := by
    refine names_of_not_mem (by simp [hfront, ha]) ?_
    obtain ⟨c, d, rest, rfl⟩ : ∃ c d rest, front = c :: d :: rest := by
      match front, hlong with
      | c :: d :: rest, _ => exact ⟨c, d, rest, rfl⟩
    simp [isName]
  obtain ⟨init, last, hlast⟩ := names_append b hback hlong'
  refine ⟨String.ofList (front ++ a) :: init, String.ofList (last ++ back), by simp, ?_⟩
  rw [show front ++ (a ++ '/' :: b) ++ back = (front ++ a) ++ '/' :: (b ++ back) by simp,
    names_slash, hfirst, hlast]
  rfl

end ScriptLauncher.Path
