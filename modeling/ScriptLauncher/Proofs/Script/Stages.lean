import ScriptLauncher.Proofs.Script.Reading

/-! Stages over all lines of a script. A stage never goes back and the last one takes in every
line, so reading, which stops where the body starts, ends in the stage to which all lines lead. -/

namespace ScriptLauncher.Script

namespace Stage

variable {stage s : Stage} {ls : List Bytes}

theorem foldl_advance (stage : Stage) (ls : List Bytes) :
    (ls.filter (· ≠ [])).foldl advance stage = ls.foldl after stage := by
  induction ls generalizing stage with
  | nil => rfl
  | cons line rest ih =>
    cases line with
    | nil => simpa using ih stage
    | cons b line => simpa [after] using ih (stage.advance (b :: line))

@[simp] theorem foldl_after_main (ls : List Bytes) : ls.foldl after .main = .main := by
  induction ls with
  | nil => rfl
  | cons line rest ih => rw [List.foldl_cons, after_main, ih]

theorem rank_le_of_mem_trail (h : s ∈ stage.trail ls) : stage.rank ≤ s.rank := by
  induction ls generalizing stage with
  | nil => cases h
  | cons line rest ih =>
    have hstep := rank_advance stage line
    rcases List.mem_cons.1 h with rfl | h
    · exact hstep
    · exact Nat.le_trans hstep (ih h)

theorem pairwise_trail (stage : Stage) (ls : List Bytes) :
    (stage :: stage.trail ls).Pairwise (·.rank ≤ ·.rank) := by
  induction ls generalizing stage with
  | nil => exact List.pairwise_singleton ..
  | cons line rest ih => exact List.pairwise_cons.2 ⟨fun _ => rank_le_of_mem_trail, ih _⟩

end Stage

theorem readLines_stage_eq_foldl (stage : Stage) (ls : List Bytes) :
    (readLines stage ls).2.2 = ls.foldl Stage.after stage := by
  induction ls generalizing stage with
  | nil => rfl
  | cons line rest ih =>
    rw [readLines, List.foldl_cons]
    split
    · next h => rw [h, Stage.foldl_after_main]
    · exact ih _

/-- The lines up to some place lead into the body just where reading has stopped before it. -/
theorem foldl_take_eq_main_iff {stage : Stage} (h : stage ≠ .main) (ls : List Bytes) (i : Nat) :
    (ls.take i).foldl Stage.after stage = .main ↔
      (readLines stage ls).2.1 ≠ [] ∧ (readLines stage ls).1.length < i := by
  induction ls generalizing stage i with
  | nil => simp [readLines, h]
  | cons line rest ih =>
    cases i with
    | zero => simpa using h
    | succ i =>
      rw [List.take_succ_cons, List.foldl_cons, readLines]
      split
      · next hs => simp [hs]
      · next hs => simpa using ih hs i

/-- The empty piece behind a last newline leads nowhere. -/
theorem foldl_after_splitOn (stage : Stage) (source : Bytes) (i : Nat) :
    ((source.splitOn Bytes.newline).take i).foldl Stage.after stage =
      (source.lines.take i).foldl Stage.after stage := by
  rcases Bytes.splitOn_newline source with h | h
  · rw [h]
  · rw [h, List.take_append, List.foldl_append]
    cases i - source.lines.length with
    | zero => rfl
    | succ n => simp

/-- A body starts at the first byte of the line behind the prologue. -/
theorem splitOn_of_body {source body : Bytes} (h : (Reading.ofSource source).body = some body) :
    let script := source.splitOn Bytes.newline
    let k := (Reading.ofSource source).prologue.length
    Bytes.unlines (script.take k) ++ body = source ∧ body.splitOn Bytes.newline = script.drop k := by
  intro script k
  obtain ⟨-, -, hsource, -⟩ := spans_of_body h
  have hscript : script = source.lines.take (preceding source.lines) ++
      body.splitOn Bytes.newline := by
    rw [← Bytes.splitOn_unlines_append (Bytes.newline_not_mem_take source _) body, hsource]
  have hlength : (source.lines.take (preceding source.lines)).length = k := by
    rw [List.length_take, Nat.min_eq_left (preceding_le _)]
    exact (length_prologue source).symm
  rw [hscript, List.take_left' hlength, List.drop_left' hlength]
  exact ⟨hsource, rfl⟩

/-- Reading stops at the body and passes over empty lines, and yet its last stage is the one to
which all lines lead, the body's among them. The body starts at the first line that leads to
the last stage. -/
theorem ofSource_agrees_foldl (source : Bytes) :
    let r := Reading.ofSource source
    let k := r.prologue.length
    let script := source.splitOn Bytes.newline
    let upTo (i : Nat) : Stage := ((script.take i).filter (· ≠ [])).foldl Stage.advance .ready
    r.stage = (script.filter (· ≠ [])).foldl Stage.advance .ready ∧
      (∀ stage ls, (stage :: Stage.trail stage ls).Pairwise (·.rank ≤ ·.rank)) ∧
      (∀ i, upTo i = .main ↔ r.body ≠ none ∧ k < i) ∧
      (∀ body, r.body = some body →
        Bytes.unlines (script.take k) ++ body = source ∧
          body.splitOn Bytes.newline = script.drop k) := by
  intro r k script upTo
  have hupTo (i : Nat) : upTo i = (source.lines.take i).foldl Stage.after .ready :=
    (Stage.foldl_advance ..).trans (foldl_after_splitOn ..)
  refine ⟨?_, Stage.pairwise_trail, fun i => ?_, fun body => splitOn_of_body⟩
  · calc
      r.stage = source.lines.foldl Stage.after .ready := readLines_stage_eq_foldl ..
      _ = script.foldl Stage.after .ready := by
        rcases Bytes.splitOn_newline source with h | h
        · rw [← h]
        · simp [script, h]
      _ = (script.filter (· ≠ [])).foldl Stage.advance .ready := (Stage.foldl_advance ..).symm
  · rw [hupTo, foldl_take_eq_main_iff (by decide), body_ne_none_iff]
    rfl

end ScriptLauncher.Script
