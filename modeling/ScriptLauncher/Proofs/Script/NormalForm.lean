import ScriptLauncher.Proofs.Script.Scaffold

/-! The normal form of a script: its directives are blanked, and its last line is closed where it
has no body. A script and its normal form read alike, so they make the same program. -/

namespace ScriptLauncher.Bytes

theorem unlines_lines_eq_self_iff (s : Bytes) :
    unlines s.lines = s ↔ s = [] ∨ s.getLast? = some newline := by
  induction s using lines_induction with
  | nil => simp
  | last l hne hl =>
    have hlast : l.getLast? ≠ some newline := fun h => hl (List.mem_of_getLast? h)
    simp [lines_of_not_mem hne hl, hne, hlast]
  | line l s hl ih =>
    rw [lines_append_newline hl, unlines_cons, List.append_cancel_left_eq, List.cons.injEq, ih]
    cases s <;> simp

end ScriptLauncher.Bytes

namespace ScriptLauncher.Script

/-- The lines of the prologue, each closed, and the body. -/
def Reading.text (r : Reading) : Bytes := Bytes.unlines r.prologue ++ r.body.getD []

def normalForm (source : Bytes) : Bytes := (Reading.ofSource source).text

/-- A line that is kept empty leads to the same stage as the line itself. -/
theorem Stage.after_blanked (stage : Stage) (line : Bytes) :
    stage.after (if stage.after line = .ready then [] else line) = stage.after line := by
  split
  · next h =>
    -- a stage never goes back, so this one was the first before the line as well
    have hrank := rank_after stage line
    rw [h] at hrank ⊢
    cases stage <;> simp [rank] at hrank
    rfl
  · rfl

/-- Reading what was kept and what was left unread goes the same way once more. -/
theorem readLines_again (stage : Stage) (ls : List Bytes) :
    readLines stage ((readLines stage ls).1 ++ (readLines stage ls).2.1) = readLines stage ls := by
  induction ls generalizing stage with
  | nil => rfl
  | cons line rest ih =>
    by_cases h : stage.after line = .main
    · simp [readLines, h]
    · have hblanked := Stage.after_blanked stage line
      simp only [readLines, if_neg h, List.cons_append, hblanked, ih]
      split <;> rfl

theorem lines_body (source : Bytes) :
    ((Reading.ofSource source).body.getD []).lines = (readLines .ready source.lines).2.1 := by
  rw [unread_eq]
  cases h : (Reading.ofSource source).body with
  | none => simp [body_eq_none_iff.1 h]
  | some body => exact (spans_of_body h).2.2.2

theorem lines_normalForm (source : Bytes) :
    (normalForm source).lines =
      (Reading.ofSource source).prologue ++ (readLines .ready source.lines).2.1 := by
  rw [normalForm, Reading.text, Bytes.lines_unlines_append (newline_not_mem_prologue source),
    lines_body]

theorem ofSource_normalForm (source : Bytes) :
    Reading.ofSource (normalForm source) = .ofSource source := by
  have hread : readLines .ready (normalForm source).lines = readLines .ready source.lines := by
    rw [lines_normalForm]
    exact readLines_again ..
  have htake : (normalForm source).lines.take (readLines .ready source.lines).1.length =
      (readLines .ready source.lines).1 := by
    rw [lines_normalForm]
    exact List.take_left
  have hdrop : (normalForm source).drop (extent (readLines .ready source.lines).1) =
      (Reading.ofSource source).body.getD [] := List.drop_left
  have hbody : (Reading.ofSource source).body =
      if (readLines .ready source.lines).2.1.isEmpty then none
      else some ((Reading.ofSource source).body.getD []) := by
    simp only [Reading.ofSource]
    split <;> rfl
  calc
    Reading.ofSource (normalForm source) =
        ⟨(readLines .ready source.lines).1,
          if (readLines .ready source.lines).2.1.isEmpty then none
          else some ((normalForm source).drop (extent
            ((normalForm source).lines.take (readLines .ready source.lines).1.length))),
          (readLines .ready source.lines).2.2⟩ := by
      rw [Reading.ofSource, hread]
    _ = ⟨(readLines .ready source.lines).1, (Reading.ofSource source).body,
          (readLines .ready source.lines).2.2⟩ := by
      rw [htake, hdrop, ← hbody]
    _ = .ofSource source := rfl

theorem kept_eq_self_iff {line : Bytes} : kept line = line ↔ isDirective line = false := by
  cases h : isDirective line with
  | true =>
    obtain ⟨rest, rfl⟩ := exists_of_isDirective h
    simp [kept, h]
  | false => simp [kept, h]

theorem map_kept_eq_self_iff {ls : List Bytes} :
    ls.map kept = ls ↔ ∀ line ∈ ls, isDirective line = false :=
  calc
    ls.map kept = ls ↔ ls.map kept = ls.map id := by rw [List.map_id]
    _ ↔ ∀ line ∈ ls, kept line = id line := List.map_inj_left
    _ ↔ ∀ line ∈ ls, isDirective line = false := by simp only [id, kept_eq_self_iff]

/-- Nothing is blanked where no directive leads the script. -/
theorem prologue_eq_take_iff {source : Bytes} :
    (Reading.ofSource source).prologue = source.lines.take (preceding source.lines) ↔
      ∀ line ∈ source.lines.takeWhile isLeading, isDirective line = false := by
  rw [prologue_eq_map, map_kept_eq_self_iff, take_preceding, List.forall_mem_append]
  exact and_iff_left fun line h =>
    kept_eq_self_iff.1 (kept_of_isPreamble (List.mem_takeWhile_imp h))

/-- A normal form has one newline for each line of the prologue, and those of the body. -/
theorem closed_of_normalForm_eq {source : Bytes} (h : normalForm source = source) :
    (Reading.ofSource source).body ≠ none ∨ source = [] ∨
      source.getLast? = some Bytes.newline := by
  have hcount := count_source source
  have hsource := congrArg (List.count Bytes.newline) h
  rw [normalForm, Reading.text, List.count_append,
    Bytes.count_unlines (newline_not_mem_prologue source)] at hsource
  by_contra hopen
  simp only [not_or, Decidable.not_not] at hopen
  dsimp only at hcount
  rw [if_pos ⟨hopen.2.1, hopen.1, hopen.2.2⟩] at hcount
  omega

theorem prologue_of_normalForm_eq {source : Bytes} (h : normalForm source = source) :
    (Reading.ofSource source).prologue = source.lines.take (preceding source.lines) := by
  have hlines := lines_normalForm source
  rw [h] at hlines
  have htake := congrArg (List.take (preceding source.lines)) hlines
  rw [List.take_left' (length_prologue source)] at htake
  exact htake.symm

theorem text_of_closed {source : Bytes} (h : (Reading.ofSource source).body ≠ none ∨
      source = [] ∨ source.getLast? = some Bytes.newline) :
    Bytes.unlines (source.lines.take (preceding source.lines)) ++
      (Reading.ofSource source).body.getD [] = source := by
  cases hbody : (Reading.ofSource source).body with
  | some body => exact (spans_of_body hbody).2.2.1
  | none =>
    rw [hbody] at h
    simpa [body_eq_none_iff.1 hbody, Bytes.unlines_lines_eq_self_iff] using h

theorem normalForm_eq_self_iff (source : Bytes) :
    normalForm source = source ↔
      (∀ line ∈ source.lines.takeWhile isLeading, isDirective line = false) ∧
        ((Reading.ofSource source).body ≠ none ∨ source = [] ∨
          source.getLast? = some Bytes.newline) := by
  rw [← prologue_eq_take_iff]
  constructor
  · exact fun h => ⟨prologue_of_normalForm_eq h, closed_of_normalForm_eq h⟩
  · rintro ⟨hprologue, hclosed⟩
    rw [normalForm, Reading.text, hprologue, text_of_closed hclosed]

/-- A script reads as its normal form does, which is its own normal form and makes the same
program. Nothing is to be changed where no directive leads and the last line is closed. -/
theorem normalForm_retracts (source : Bytes) :
    let n := normalForm source
    (Reading.ofSource n).prologue = (Reading.ofSource source).prologue ∧
      (Reading.ofSource n).body = (Reading.ofSource source).body ∧
      (Reading.ofSource n).stage = (Reading.ofSource source).stage ∧
      normalForm n = n ∧
      (∀ imports, Scaffold.assemble n imports = Scaffold.assemble source imports) ∧
      (n = source ↔
        (∀ line ∈ source.lines.takeWhile isLeading, isDirective line = false) ∧
          ((Reading.ofSource source).body ≠ none ∨ source = [] ∨
            source.getLast? = some Bytes.newline)) := by
  intro n
  have hread : Reading.ofSource n = .ofSource source := ofSource_normalForm source
  refine ⟨by rw [hread], by rw [hread], by rw [hread], ?_, fun imports => ?_,
    normalForm_eq_self_iff source⟩
  · exact congrArg Reading.text hread
  · exact congrArg (Scaffold.wrap imports) hread

example : normalForm (Utf8.encode "#!g\n\nimport x") = Utf8.encode "\n\nimport x\n" := by
  decide +kernel

end ScriptLauncher.Script
