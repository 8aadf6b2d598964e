import ScriptLauncher.Script.Reading
import ScriptLauncher.Proofs.Text.Lines

/-! Reading as spans of lines: the leading directives, the preamble behind them, and the
body. Both spans are longest ones, and the loop through the stages finds just these. -/

namespace ScriptLauncher.Script

/-- Empty lines and directives may lead a script. -/
def isLeading (line : Bytes) : Bool := line.isEmpty || isDirective line

def leading (ls : List Bytes) : Nat := (ls.takeWhile isLeading).length

/-- The lines before the body: the leading ones, and the preamble behind them. -/
def preceding (ls : List Bytes) : Nat :=
  leading ls + ((ls.drop (leading ls)).takeWhile isPreamble).length

theorem drop_leading (ls : List Bytes) : ls.drop (leading ls) = ls.dropWhile isLeading := by
  calc
    ls.drop (leading ls) = (ls.takeWhile isLeading ++ ls.dropWhile isLeading).drop (leading ls) := by
      rw [List.takeWhile_append_dropWhile]
    _ = ls.dropWhile isLeading := List.drop_left

theorem take_preceding (ls : List Bytes) :
    ls.take (preceding ls) =
      ls.takeWhile isLeading ++ (ls.drop (leading ls)).takeWhile isPreamble := by
  rw [preceding, List.take_add,
    ← List.prefix_iff_eq_take.1 (List.takeWhile_prefix isPreamble (l := ls.drop (leading ls))),
    leading, ← List.prefix_iff_eq_take.1 (List.takeWhile_prefix isLeading)]

theorem leading_le (ls : List Bytes) : leading ls ≤ ls.length :=
  (List.takeWhile_prefix isLeading).length_le

theorem preceding_le (ls : List Bytes) : preceding ls ≤ ls.length := by
  have hd := leading_le ls
  have hk := (List.takeWhile_prefix isPreamble (l := ls.drop (leading ls))).length_le
  rw [List.length_drop] at hk
  unfold preceding
  omega

namespace Stage

theorem after_imports (line : Bytes) :
    after .imports line = if isPreamble line then .imports else .main := by
  cases line with
  | nil => rfl
  | cons b line => rfl

theorem after_ready_of_leading {line : Bytes} (h : isLeading line = true) :
    after .ready line = .ready := by
  cases line with
  | nil => rfl
  | cons b line =>
    have hd : isDirective (b :: line) = true := by simpa [isLeading] using h
    simp [after, advance, hd]

/-- The first line that leads no more is placed anew, as a line of the preamble would be. -/
theorem after_ready_of_not_leading {line : Bytes} (h : isLeading line = false) :
    after .ready line = after .imports line := by
  simp only [isLeading, Bool.or_eq_false_iff] at h
  simp [after, advance, h.1, h.2]

end Stage

theorem readLines_imports (ls : List Bytes) :
    readLines .imports ls = (ls.takeWhile isPreamble, ls.dropWhile isPreamble,
      if ls.dropWhile isPreamble = [] then .imports else .main) := by
  induction ls with
  | nil => rfl
  | cons line rest ih =>
    cases h : isPreamble line with
    | true => simp [readLines, Stage.after_imports, h, ih]
    | false => simp [readLines, Stage.after_imports, h]

theorem readLines_ready_of_not_leading {line : Bytes} (h : isLeading line = false)
    (rest : List Bytes) : readLines .ready (line :: rest) = readLines .imports (line :: rest) := by
  simp only [readLines, Stage.after_ready_of_not_leading h]

theorem readLines_ready (ls : List Bytes) :
    readLines .ready ls =
      (List.replicate (leading ls) [] ++ (ls.dropWhile isLeading).takeWhile isPreamble,
        (ls.dropWhile isLeading).dropWhile isPreamble,
        if ls.dropWhile isLeading = [] then .ready
        else if (ls.dropWhile isLeading).dropWhile isPreamble = [] then .imports else .main) := by
  induction ls with
  | nil => rfl
  | cons line rest ih =>
    cases h : isLeading line with
    | true =>
      simp [readLines, Stage.after_ready_of_leading h, ih, leading, h, List.replicate_succ]
    | false =>
      rw [readLines_ready_of_not_leading h, readLines_imports]
      simp [leading, h]

theorem prologue_eq (source : Bytes) :
    (Reading.ofSource source).prologue =
      List.replicate (leading source.lines) [] ++
        (source.lines.drop (leading source.lines)).takeWhile isPreamble := by
  simp only [Reading.ofSource, readLines_ready, drop_leading]

theorem length_prologue (source : Bytes) :
    (Reading.ofSource source).prologue.length = preceding source.lines := by
  simp [prologue_eq, preceding]

theorem unread_eq (source : Bytes) :
    (readLines .ready source.lines).2.1 = source.lines.drop (preceding source.lines) := by
  rw [readLines_unread, ← length_prologue]
  rfl

theorem body_of_preceding_eq {source : Bytes} (h : preceding source.lines = source.lines.length) :
    (Reading.ofSource source).body = none := by
  simp [Reading.ofSource, unread_eq, h]

/-- The body starts at the first byte of the first line that does not precede it. -/
theorem body_of_preceding_lt {source : Bytes} (h : preceding source.lines < source.lines.length) :
    ∃ body, (Reading.ofSource source).body = some body ∧ body ≠ [] ∧
      Bytes.unlines (source.lines.take (preceding source.lines)) ++ body = source ∧
      body.lines = source.lines.drop (preceding source.lines) := by
  obtain ⟨body, hbody, hne, hlines⟩ := Bytes.unlines_take_append h
  refine ⟨body, ?_, hne, hbody, hlines⟩
  have hkept : (readLines .ready source.lines).1.length = preceding source.lines :=
    length_prologue source
  have hunread : (readLines .ready source.lines).2.1 ≠ [] := by
    simpa [unread_eq] using h
  have hdrop : source.drop (extent (source.lines.take (preceding source.lines))) = body := by
    have h' := congrArg (List.drop (extent (source.lines.take (preceding source.lines)))) hbody
    exact h'.symm.trans List.drop_left
  simp [Reading.ofSource, hkept, hunread, hdrop]

theorem body_ne_none_iff (source : Bytes) :
    (Reading.ofSource source).body ≠ none ↔ (readLines .ready source.lines).2.1 ≠ [] := by
  simp [Reading.ofSource]

theorem body_eq_none_iff {source : Bytes} :
    (Reading.ofSource source).body = none ↔ preceding source.lines = source.lines.length := by
  have h := not_congr (body_ne_none_iff source)
  simp only [ne_eq, Decidable.not_not, unread_eq, List.drop_eq_nil_iff] at h
  exact h.trans ⟨Nat.le_antisymm (preceding_le _), Nat.le_of_eq ∘ Eq.symm⟩

theorem spans_of_body {source body : Bytes} (h : (Reading.ofSource source).body = some body) :
    preceding source.lines < source.lines.length ∧ body ≠ [] ∧
      Bytes.unlines (source.lines.take (preceding source.lines)) ++ body = source ∧
      body.lines = source.lines.drop (preceding source.lines) := by
  have hlt : preceding source.lines < source.lines.length := by
    refine Nat.lt_of_le_of_ne (preceding_le _) fun heq => ?_
    cases h.symm.trans (body_of_preceding_eq heq)
  obtain ⟨body', hbody, hspans⟩ := body_of_preceding_lt hlt
  obtain rfl : body = body' := Option.some.inj (h.symm.trans hbody)
  exact ⟨hlt, hspans⟩

theorem stage_eq (source : Bytes) :
    (Reading.ofSource source).stage =
      if leading source.lines = source.lines.length then .ready
      else if preceding source.lines = source.lines.length then .imports else .main := by
  have hready : source.lines.dropWhile isLeading = [] ↔
      leading source.lines = source.lines.length := by
    rw [← drop_leading, List.drop_eq_nil_iff]
    exact ⟨Nat.le_antisymm (leading_le _), Nat.le_of_eq ∘ Eq.symm⟩
  have himports : (source.lines.dropWhile isLeading).dropWhile isPreamble = [] ↔
      preceding source.lines = source.lines.length := by
    have hunread := unread_eq source
    simp only [readLines_ready] at hunread
    rw [hunread, List.drop_eq_nil_iff]
    exact ⟨Nat.le_antisymm (preceding_le _), Nat.le_of_eq ∘ Eq.symm⟩
  simp only [Reading.ofSource, readLines_ready, hready, himports]

/-- A script read as spans of its lines. The two spans say where its body starts and which
stage it ends in. -/
theorem ofSource_spans {source : Bytes} {ls : List Bytes} (h : Bytes.IsLines source ls) :
    let r := Reading.ofSource source
    let d := leading ls
    let k := preceding ls
    r.prologue = List.replicate d [] ++ (ls.drop d).take (k - d) ∧
      (r.body = none ↔ k = ls.length) ∧
      (k < ls.length → ∃ body, r.body = some body ∧ body ≠ [] ∧
        Bytes.unlines (ls.take k) ++ body = source) ∧
      (r.stage = .main ↔ k < ls.length) ∧ (r.stage = .ready ↔ d = ls.length) ∧
      (r.stage = .imports ↔ d ≠ ls.length ∧ k = ls.length) := by
  obtain rfl := Bytes.isLines_iff.1 h
  intro r d k
  have hd : d ≤ k := Nat.le_add_right ..
  have hk : k ≤ source.lines.length := preceding_le _
  refine ⟨?_, ?_, ?_, ?_⟩
  · have hspan : k - d = ((source.lines.drop d).takeWhile isPreamble).length :=
      Nat.add_sub_cancel_left ..
    rw [hspan, ← List.prefix_iff_eq_take.1 (List.takeWhile_prefix isPreamble)]
    exact prologue_eq source
  · constructor
    · intro hbody
      rcases Nat.lt_or_eq_of_le hk with hlt | heq
      · obtain ⟨body, hsome, -⟩ := body_of_preceding_lt hlt
        exact absurd (hbody.symm.trans hsome) (by simp)
      · exact heq
    · exact body_of_preceding_eq
  · intro hlt
    obtain ⟨body, hbody, hne, hsource, -⟩ := body_of_preceding_lt hlt
    exact ⟨body, hbody, hne, hsource⟩
  · have hstage : r.stage = if d = source.lines.length then .ready
        else if k = source.lines.length then .imports else .main := stage_eq source
    rw [hstage]
    split_ifs with h₁ h₂
    · simp [h₁]; omega
    · simp [h₁, h₂]
    · simp [h₁, h₂]; omega

/-- A line of blanks ends the leading lines, and a directive below the body belongs to it. -/
theorem ofSource_spans_blank_line :
    let source := Utf8.encode "#!g\n\n \n// c\nf()\n# g"
    let ls := ["#!g", "", " ", "// c", "f()", "# g"].map Utf8.encode
    Bytes.IsLines source ls ∧
      (Reading.ofSource source).prologue = [[], []] ++ [" ", "// c"].map Utf8.encode ∧
      (Reading.ofSource source).stage = .main ∧
      ∃ body, (Reading.ofSource source).body = some body ∧ body ≠ [] ∧
        Bytes.unlines (ls.take 4) ++ body = source := by
  intro source ls
  have h : Bytes.IsLines source ls := Bytes.isLines_iff.2 (by decide)
  have hk : preceding ls < ls.length := by decide
  obtain ⟨hprologue, -, hbody, hmain, -⟩ := ofSource_spans h
  exact ⟨h, hprologue, hmain.2 hk, hbody hk⟩

end ScriptLauncher.Script
