import ScriptLauncher.Text.Bytes
import Mathlib.Data.List.Basic

/-! Lines and splits of a byte string. A byte string is made of closed lines and, perhaps,
an open one at its end; a split at newlines has one piece more than there are newlines. -/

namespace ScriptLauncher.Bytes

theorem lines_of_not_mem {l : Bytes} (hne : l ≠ []) (h : newline ∉ l) : lines l = [l] := by
  induction l with
  | nil => exact absurd rfl hne
  | cons b l ih =>
    simp only [List.mem_cons, not_or] at h
    cases l with
    | nil => simp [lines, Ne.symm h.1]
    | cons c l =>
      rw [lines, ih (by simp) h.2]
      simp [Ne.symm h.1]

/-- A byte string is empty, an open line, or a closed line before another byte string. -/
theorem lines_induction {motive : Bytes → Prop} (nil : motive [])
    (last : ∀ l, l ≠ [] → newline ∉ l → motive l)
    (line : ∀ l s, newline ∉ l → motive s → motive (l ++ newline :: s)) (s : Bytes) :
    motive s := by
  by_cases hs : newline ∈ s
  · obtain ⟨l, t, rfl, hl⟩ := List.eq_append_cons_of_mem hs
    exact line l t hl (lines_induction nil last line t)
  · cases s with
    | nil => exact nil
    | cons b s => exact last _ (by simp) hs
termination_by s.length

/-- The closed lines of a byte string, and the open one that may follow them. -/
structure IsLines (s : Bytes) (ls : List Bytes) : Prop where
  newline_not_mem : ∀ l ∈ ls, newline ∉ l
  unlines_eq : unlines ls = s ∨ (unlines ls = s ++ [newline] ∧ ls.getLast? ≠ some [])

theorem isLines_lines (s : Bytes) : IsLines s (lines s) := by
  induction s using lines_induction with
  | nil => exact ⟨by simp, .inl rfl⟩
  | last l hne hl =>
    rw [lines_of_not_mem hne hl]
    exact ⟨by simpa using hl, .inr ⟨by simp, by simpa using hne⟩⟩
  | line l s hl ih =>
    rw [lines_append_newline hl]
    refine ⟨fun m hm => ?_, ?_⟩
    · rcases List.mem_cons.1 hm with rfl | hm
      · exact hl
      · exact ih.newline_not_mem m hm
    · rcases ih.unlines_eq with h | ⟨h, hlast⟩
      · exact .inl (by rw [unlines_cons, h])
      · refine .inr ⟨by rw [unlines_cons, h]; simp, ?_⟩
        cases hs : lines s with
        | nil => rw [hs] at h; simp at h
        | cons m ms => rw [hs] at hlast; simpa [List.getLast?_cons_cons] using hlast

theorem newline_not_mem_take (s : Bytes) (k : Nat) : ∀ l ∈ s.lines.take k, newline ∉ l :=
  fun _ h => newline_not_mem (List.mem_of_mem_take h)

theorem lines_unlines_append {ls : List Bytes} (h : ∀ l ∈ ls, newline ∉ l) (s : Bytes) :
    lines (unlines ls ++ s) = ls ++ lines s := by
  induction ls with
  | nil => rfl
  | cons l ls ih =>
    simp only [List.mem_cons, forall_eq_or_imp] at h
    rw [unlines_cons, List.append_assoc, List.cons_append, lines_append_newline h.1, ih h.2,
      List.cons_append]

/-- There is one way to see a byte string as lines. -/
theorem isLines_iff {s : Bytes} {ls : List Bytes} : IsLines s ls ↔ ls = lines s := by
  constructor
  · rintro ⟨hmem, rfl | ⟨h, hlast⟩⟩
    · simpa using (lines_unlines_append hmem []).symm
    · rcases List.eq_nil_or_concat ls with rfl | ⟨init, l, rfl⟩
      · simp at h
      · have hs : s = unlines init ++ l := by
          simpa [unlines, ← List.append_assoc] using h.symm
        have hl : l ≠ [] := by simpa using hlast
        simp only [List.concat_eq_append, List.mem_append, List.mem_singleton] at hmem
        rw [hs, lines_unlines_append (fun m hm => hmem m (.inl hm)),
          lines_of_not_mem hl (hmem l (.inr rfl)), List.concat_eq_append]
  · rintro rfl
    exact isLines_lines s

theorem splitOn_unlines_append {ls : List Bytes} (h : ∀ l ∈ ls, newline ∉ l) (s : Bytes) :
    (unlines ls ++ s).splitOn newline = ls ++ s.splitOn newline := by
  induction ls with
  | nil => rfl
  | cons l ls ih =>
    simp only [List.mem_cons, forall_eq_or_imp] at h
    rw [unlines_cons, List.append_assoc, List.cons_append,
      List.splitOn_append_cons_self_of_not_mem h.1, ih h.2, List.cons_append]

theorem count_unlines {ls : List Bytes} (h : ∀ l ∈ ls, newline ∉ l) :
    (unlines ls).count newline = ls.length := by
  induction ls with
  | nil => rfl
  | cons l ls ih =>
    simp only [List.mem_cons, forall_eq_or_imp] at h
    simp [List.count_eq_zero.2 h.1, ih h.2]

/-- An open line at the end is the one line without a newline of its own. -/
theorem count_newline (s : Bytes) :
    s.count newline + (if s ≠ [] ∧ s.getLast? ≠ some newline then 1 else 0) =
      (lines s).length := by
  induction s using lines_induction with
  | nil => rfl
  | last l hne hl =>
    have hlast : l.getLast? ≠ some newline := fun h => hl (List.mem_of_getLast? h)
    rw [List.count_eq_zero.2 hl, if_pos ⟨hne, hlast⟩, lines_of_not_mem hne hl]
    rfl
  | line l s hl ih =>
    rw [lines_append_newline hl, List.length_cons, ← ih, List.count_append,
      List.count_eq_zero.2 hl, List.count_cons_self]
    cases s with
    | nil => simp
    | cons b s => simp [List.getLast?_cons]; omega

/-- A split shows the lines, and one empty piece more behind a last newline. -/
theorem splitOn_newline (s : Bytes) :
    s.splitOn newline = lines s ∨ s.splitOn newline = lines s ++ [[]] := by
  have h := isLines_lines s
  have hsplit := splitOn_unlines_append h.newline_not_mem []
  rcases h.unlines_eq with hs | ⟨hs, -⟩
  · rw [hs] at hsplit
    exact .inr (by simpa using hsplit)
  · rw [hs, List.append_assoc, List.singleton_append, List.splitOn_append_cons_self] at hsplit
    exact .inl (List.append_cancel_right hsplit)

/-- Up to any of its lines a byte string consists of closed lines. -/
theorem unlines_take_append {s : Bytes} {k : Nat} (h : k < s.lines.length) :
    ∃ t, unlines (s.lines.take k) ++ t = s ∧ t ≠ [] ∧ t.lines = s.lines.drop k := by
  induction s using lines_induction generalizing k with
  | nil => simp at h
  | last l hne hl =>
    rw [lines_of_not_mem hne hl] at h ⊢
    obtain rfl : k = 0 := by simpa using h
    exact ⟨l, rfl, hne, lines_of_not_mem hne hl⟩
  | line l s hl ih =>
    rw [lines_append_newline hl] at h ⊢
    cases k with
    | zero => exact ⟨l ++ newline :: s, rfl, by simp, lines_append_newline hl s⟩
    | succ k =>
      obtain ⟨t, ht, hne, hlines⟩ := ih (Nat.lt_of_succ_lt_succ h)
      refine ⟨t, ?_, hne, hlines⟩
      rw [List.take_succ_cons, unlines_cons, List.append_assoc, List.cons_append, ht]

/-- A piece of the right part is found again behind the newlines of the left one. Only the
first piece is longer there. -/
theorem getElem?_splitOn_append {t piece : Bytes} {j : Nat} (s : Bytes)
    (h : (t.splitOn newline)[j]? = some piece) :
    ∃ whole, ((s ++ t).splitOn newline)[s.count newline + j]? = some whole ∧
      piece <:+ whole ∧ (0 < j → whole = piece) := by
  induction s with
  | nil => exact ⟨piece, by simpa using h, List.suffix_rfl, fun _ => rfl⟩
  | cons b s ih =>
    obtain ⟨whole, hwhole, hsuffix, hj⟩ := ih
    rw [List.cons_append, List.splitOn_cons_eq_if_modifyHead]
    by_cases hb : b = newline
    · subst hb
      refine ⟨whole, ?_, hsuffix, hj⟩
      rw [List.count_cons_self, Nat.add_right_comm]
      simpa using hwhole
    · rw [List.count_cons_of_ne hb, if_neg (by simpa using hb), List.getElem?_modifyHead, hwhole]
      by_cases hi : s.count newline + j = 0
      · exact ⟨b :: whole, by simp [hi], hsuffix.trans (List.suffix_cons ..), fun h => by omega⟩
      · exact ⟨whole, by rw [if_neg hi], hsuffix, hj⟩

end ScriptLauncher.Bytes
