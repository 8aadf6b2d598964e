import ScriptLauncher.Proofs.Script.Scaffold

/-! The program around a script gives back how the script was read. Nothing in it is escaped:
what marks the end of the prologue is that no line of a prologue can begin as the entry does,
whatever the comments and the body of the script hold. -/

namespace ScriptLauncher.Script

theorem isPreamble_of_mem_prologue {source l : Bytes}
    (h : l ∈ (Reading.ofSource source).prologue) : isPreamble l = true := by
  rw [prologue_eq, List.mem_append] at h
  rcases h with h | h
  · obtain rfl := List.eq_of_mem_replicate h
    rfl
  · exact List.mem_takeWhile_imp h

theorem body_ne_nil {source body : Bytes} (h : (Reading.ofSource source).body = some body) :
    body ≠ [] :=
  (spans_of_body h).2.1

/-- The last stage of a reading, told from what was kept. -/
def stageOf (prologue : List Bytes) (body : Option Bytes) : Stage :=
  if body.isSome then .main else if prologue.all List.isEmpty then .ready else .imports

theorem all_isEmpty_prologue {source : Bytes}
    (h : preceding source.lines = source.lines.length) :
    (Reading.ofSource source).prologue.all List.isEmpty = true ↔
      leading source.lines = source.lines.length := by
  have hspan : (source.lines.drop (leading source.lines)).takeWhile isPreamble =
      source.lines.drop (leading source.lines) := by
    refine (List.takeWhile_prefix isPreamble).eq_of_length ?_
    rw [List.length_drop]
    unfold preceding at h
    omega
  rw [prologue_eq, hspan, List.all_append, drop_leading]
  constructor
  · intro hall
    refine Nat.le_antisymm (leading_le _) ?_
    rw [← List.drop_eq_nil_iff, drop_leading]
    cases hrest : source.lines.dropWhile isLeading with
    | nil => rfl
    | cons line rest =>
      -- the first line that leads no more is not empty
      have hline : isLeading line = false := by
        have := List.head?_dropWhile_not isLeading source.lines
        simpa [hrest] using this
      simp only [isLeading, Bool.or_eq_false_iff] at hline
      simp [hrest, hline.1] at hall
  · intro hall
    rw [← drop_leading, hall, List.drop_length]
    simp

theorem stage_eq_stageOf (source : Bytes) :
    (Reading.ofSource source).stage =
      stageOf (Reading.ofSource source).prologue (Reading.ofSource source).body := by
  rw [stage_eq, stageOf]
  rcases Nat.lt_or_eq_of_le (preceding_le source.lines) with hlt | heq
  · obtain ⟨body, hbody, -⟩ := body_of_preceding_lt hlt
    have hleading : leading source.lines ≠ source.lines.length := by
      have : leading source.lines ≤ preceding source.lines := Nat.le_add_right ..
      omega
    rw [if_neg hleading, if_neg (Nat.ne_of_lt hlt), hbody]
    rfl
  · rw [body_of_preceding_eq heq, if_pos heq]
    simp only [all_isEmpty_prologue heq]
    rfl

end ScriptLauncher.Script

namespace ScriptLauncher.Scaffold

open Script

/-- A program read back: its prologue ends before the first line that cannot precede a body,
and that is the line of its entry. -/
def unwrap (imports : List Import) (program : Bytes) : Reading :=
  let rest : Bytes := program.drop (header imports).length
  let prologue := rest.lines.takeWhile isPreamble
  let tail := rest.drop (extent prologue + (entry imports).length)
  let text := tail.take (tail.length - closing.length)
  let body := if text.isEmpty then none else some text
  ⟨prologue, body, stageOf prologue body⟩

theorem isPreamble_cons_f (l : Bytes) : isPreamble (102 :: l) = false := by
  rw [isPreamble, Bytes.trim_cons (by decide)]
  rfl

theorem entry_eq (imports : List Import) : ∃ s, entry imports = 102 :: s := by
  have hinit : Utf8.encode "func init() \x7b Args = Args[1:];" =
      102 :: Utf8.encode "unc init() \x7b Args = Args[1:];" := by decide
  rw [entry, hinit]
  exact ⟨_, rfl⟩

theorem takeWhile_lines_entry (imports : List Import) (s : Bytes) :
    (entry imports ++ s).lines.takeWhile isPreamble = [] := by
  obtain ⟨e, he⟩ := entry_eq imports
  rw [he, List.cons_append, Bytes.lines, if_neg (by decide)]
  split <;> simp [isPreamble_cons_f]

theorem takeWhile_lines_program (source : Bytes) (imports : List Import) (s : Bytes) :
    (Bytes.unlines (Reading.ofSource source).prologue ++ (entry imports ++ s)).lines.takeWhile
      isPreamble = (Reading.ofSource source).prologue := by
  rw [Bytes.lines_unlines_append (newline_not_mem_prologue source),
    List.takeWhile_append_of_pos fun _ => isPreamble_of_mem_prologue,
    takeWhile_lines_entry, List.append_nil]

theorem unwrap_assemble (source : Bytes) (imports : List Import) :
    unwrap imports (assemble source imports) = .ofSource source := by
  have hprologue := takeWhile_lines_program source imports
    ((Reading.ofSource source).body.getD [] ++ closing)
  have hbody : (if ((Reading.ofSource source).body.getD []).isEmpty then none
      else some ((Reading.ofSource source).body.getD [])) = (Reading.ofSource source).body := by
    cases h : (Reading.ofSource source).body with
    | none => rfl
    | some body => simp [body_ne_nil h]
  have hdrop : extent (Reading.ofSource source).prologue + (entry imports).length =
      (Bytes.unlines (Reading.ofSource source).prologue ++ entry imports).length := by
    rw [List.length_append, extent]
  rw [unwrap, assemble_eq, List.drop_left]
  rw [hprologue, hdrop, ← List.append_assoc, List.drop_left, List.length_append,
    Nat.add_sub_cancel, List.take_left, hbody, ← stage_eq_stageOf]

/-- A script may hold the text that is put around it. -/
example :
    let script := Utf8.encode "//func init() \x7b Args = Args[1:]; \x7d; func main() \x7b \nf()\n\x7d\n"
    (unwrap [] (assemble script [])).body = some (Utf8.encode "f()\n\x7d\n") := by
  decide +kernel

/-- Two scripts make one program just when they read alike, since the program gives back how
its script was read: where the body starts, that there is none, and the last stage. -/
theorem assemble_inj_iff (imports : List Import) (s t : Bytes) :
    (assemble s imports = assemble t imports ↔
      (Reading.ofSource s).prologue = (Reading.ofSource t).prologue ∧
        (Reading.ofSource s).body = (Reading.ofSource t).body ∧
        (Reading.ofSource s).stage = (Reading.ofSource t).stage) ∧
      unwrap imports (assemble s imports) = .ofSource s := by
  refine ⟨⟨fun h => ?_, fun ⟨hprologue, hbody, hstage⟩ => ?_⟩, unwrap_assemble s imports⟩
  · have hread := congrArg (unwrap imports) h
    rw [unwrap_assemble, unwrap_assemble] at hread
    rw [hread]
    exact ⟨rfl, rfl, rfl⟩
  · have hread : Reading.ofSource s = Reading.ofSource t := by
      rw [Reading.mk.injEq]
      exact ⟨hprologue, hbody, hstage⟩
    rw [assemble, assemble, hread]

end ScriptLauncher.Scaffold
