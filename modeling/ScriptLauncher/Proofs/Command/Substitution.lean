import ScriptLauncher.Command.Shell
import ScriptLauncher.Proofs.Command.Output

/-! Command substitution: the output of a command as a text, without the line ends that close it,
whether the runner is asked for it or a shell. -/

namespace ScriptLauncher.Command

open Host Session

section lineEnds

/-- A line feed or a carriage return. -/
def IsLineEnd (b : UInt8) : Prop := b = 13 ∨ b = 10

theorem stripLineEnds_append {s t : String} (ht : ∀ c ∈ t.toList, c = '\r' ∨ c = '\n')
    (hs : ∀ c ∈ s.toList.getLast?, ¬ (c = '\r' ∨ c = '\n')) : stripLineEnds (s ++ t) = s := by
  have hends : ∀ c ∈ t.toList.reverse, decide (c = '\r' ∨ c = '\n') = true := fun c hc =>
    decide_eq_true (ht c (List.mem_reverse.1 hc))
  have hkeep : s.toList.reverse.dropWhile (fun c => c = '\r' ∨ c = '\n') = s.toList.reverse := by
    rw [← List.head?_reverse] at hs
    cases h : s.toList.reverse with
    | nil => rfl
    | cons c rest =>
      rw [h] at hs
      exact List.dropWhile_cons_of_neg (by simpa using hs c rfl)
  rw [stripLineEnds, String.toList_append, List.reverse_append,
    List.dropWhile_append_of_pos hends, hkeep, List.reverse_reverse, String.ofList_toList]

/-- Line ends as bytes are line ends as text. -/
theorem exists_encode_of_lineEnds {ends : Bytes} (h : ∀ b ∈ ends, IsLineEnd b) :
    ∃ t : String, Utf8.encode t = ends ∧ ∀ c ∈ t.toList, c = '\r' ∨ c = '\n' := by
  induction ends with
  | nil => exact ⟨"", rfl, by simp⟩
  | cons b ends ih =>
    obtain ⟨hb, hends⟩ := List.forall_mem_cons.1 h
    obtain ⟨t, rfl, ht⟩ := ih hends
    obtain ⟨c, hc, hend⟩ : ∃ c, Utf8.encodeChar c = [b] ∧ (c = '\r' ∨ c = '\n') := by
      rcases hb with rfl | rfl
      · exact ⟨'\r', by decide, .inl rfl⟩
      · exact ⟨'\n', by decide, .inr rfl⟩
    refine ⟨String.ofList (c :: t.toList), ?_, ?_⟩
    · rw [Utf8.encode, String.toList_ofList, Utf8.encodeChars_cons, hc]
      rfl
    · rw [String.toList_ofList]
      exact List.forall_mem_cons.2 ⟨hend, ht⟩

/-- What is read ends in a line end only where the bytes do. -/
theorem isLineEnd_of_decode {p : Bytes} {c : Char} (hlast : c ∈ (Utf8.decode p).toList.getLast?)
    (hc : c = '\r' ∨ c = '\n') : ∃ b ∈ p.getLast?, IsLineEnd b := by
  have hdecodes : Utf8.Decodes p (Utf8.decode p).toList := by
    rw [Utf8.decodes_iff, Utf8.decode, String.toList_ofList]
  rcases hc with rfl | rfl
  · exact ⟨13, hdecodes.getLast? hlast (by decide), .inl rfl⟩
  · exact ⟨10, hdecodes.getLast? hlast (by decide), .inr rfl⟩

/-- Line ends may be dropped before bytes are read, or after. -/
theorem stripLineEnds_decode {p ends : Bytes} (hends : ∀ b ∈ ends, IsLineEnd b)
    (hlast : ∀ b ∈ p.getLast?, ¬ IsLineEnd b) :
    stripLineEnds (Utf8.decode (p ++ ends)) = Utf8.decode p := by
  obtain ⟨t, rfl, ht⟩ := exists_encode_of_lineEnds hends
  -- The line ends leave the text before them as it is, and broken bytes never read as one.
  rw [Utf8.decode_append_encode]
  refine stripLineEnds_append ht fun c hc hend => ?_
  obtain ⟨b, hb, hline⟩ := isLineEnd_of_decode hc hend
  exact hlast b hb hline

end lineEnds

section runner

variable {r : Runner} {words : List Value} {capture : Capture} {label : String} {w : World}
  {f : Fault}

theorem spawn_of_unreported {command : List String}
    (h : (start ⟨command, capture.takesOutput, capture.takesErrors⟩ w).1 = .error f)
    (hf : f.isReported = false) : (spawn command capture w).1 = .error f := by
  have hnote := note_alike .debug .runner "Running command"
    [("command", Text.quoteTuple command), ("io_mode", capture.name)] w
  have hstart := (start_alike ⟨command, capture.takesOutput, capture.takesErrors⟩ hnote).1
  rw [spawn, lift_bind, attempt_bind, hstart, h]
  dsimp only
  rw [if_neg (by rw [hf]; exact Bool.false_ne_true)]
  rfl

theorem Runner.starts_run (r : Runner) (words : List Value) (capture : Capture) (label : String)
    (w : World) : (r.run words capture label w).2.starts =
      w.starts ++ if r.dryRun then [] else [startOf words capture] := by
  cases hdry : r.dryRun with
  | true =>
    rw [run_dry hdry]
    exact (List.append_nil _).symm
  | false =>
    obtain ⟨records, texts, halike⟩ := (spawn_start (words.map Value.display) capture w).1
    rw [run_spawn hdry, halike]
    exact starts_start _ w

theorem Runner.eval_apply (r : Runner) (words : List Value) (w : World) :
    r.eval words w = ((r.execWithOutput words w).1.map fun result => stripLineEnds result.output,
      (r.execWithOutput words w).2) := by
  rw [eval, bind_apply]
  cases r.execWithOutput words w with
  | mk ended v => cases ended <;> rfl

/-- What the output of a command stands for as a text. Without a start it is empty, unless the start
fails for a reason of its own; a child's output is read up to the line ends that close it. -/
structure Runner.Substitutes (r : Runner) (words : List Value) (w : World) : Prop where
  dry : r.dryRun = true → (r.eval words w).1 = .ok ""
  unstarted : ∀ f, r.dryRun = false → (start (startOf words .output) w).1 = .error f →
    (r.eval words w).1 = if f.isReported then .ok "" else .error f
  started : ∀ child p ends, r.dryRun = false →
    (start (startOf words .output) w).1 = .ok child → child.output = p ++ ends →
    (∀ b ∈ ends, IsLineEnd b) → (∀ b ∈ p.getLast?, ¬ IsLineEnd b) →
    (r.eval words w).1 = .ok (Utf8.decode p)

theorem Runner.substitutes (r : Runner) (words : List Value) (w : World) :
    r.Substitutes words w where
  dry hdry := by
    rw [eval_apply, execWithOutput, run_dry hdry]
    rfl
  unstarted f hreal hstart := by
    rw [eval_apply, execWithOutput]
    cases hf : f.isReported with
    | true =>
      rw [run_of_unstarted hreal hstart hf]
      rfl
    | false =>
      rw [run_spawn hreal, spawn_of_unreported hstart hf]
      rfl
  started child p ends hreal hstart houtput hends hlast := by
    rw [eval_apply, execWithOutput, run_of_started hreal hstart]
    show Except.ok (stripLineEnds (Utf8.decode child.output)) = _
    rw [houtput, stripLineEnds_decode hends hlast]

end runner

section shell

/-- A command that is run in two ways, by a shell and by a runner: they end in the same way and
leave the same world, but for the label under which a dry run reports the command. -/
def Matches {α : Type} (r : Runner) (command : List String) (w : World) (label label' : String)
    (x : Except ShellError α × World) (y : Except Fault α × World) : Prop :=
  x.1 = y.1.mapError .system ∧
    if r.dryRun then x.2 = w.tell r.reports (report label command) ∧
      y.2 = w.tell r.reports (report label' command)
    else x.2 = y.2

variable {command : Value} {args : List Value} {line : String}

theorem Shell.withLine_of_ok {α : Type} (h : Template.render command args = .ok line)
    (next : String → Session Fault α) :
    withLine command args next = Session.mapError .system (next line) := by
  rw [withLine, h]

theorem Runner.matches_run (r : Runner) (words : List Value) (capture : Capture)
    (label label' : String) (w : World) :
    Matches r (words.map Value.display) w label label'
      (Session.mapError .system (r.run words capture label) w)
      (r.run words capture label' w) := by
  unfold Matches
  cases hdry : r.dryRun with
  | true =>
    rw [mapError_apply, run_dry hdry, run_dry hdry]
    exact ⟨rfl, rfl, rfl⟩
  | false =>
    rw [mapError_apply, run_spawn hdry, run_spawn hdry]
    exact ⟨rfl, rfl⟩

theorem Matches.map {α β : Type} {r : Runner} {command : List String} {w : World}
    {label label' : String} {x : Except ShellError α × World} {y : Except Fault α × World}
    (h : Matches r command w label label' x y) (f : α → β) :
    Matches r command w label label' (x.1.map f, x.2) (y.1.map f, y.2) := by
  refine ⟨?_, h.2⟩
  show x.1.map f = _
  rw [h.1]
  cases y.1 <;> rfl

theorem Shell.eval_apply (sh : Shell) (command : Value) (args : List Value) (w : World) :
    sh.eval command args w =
      ((sh.runWithOutput command args w).1.map fun result => stripLineEnds result.output,
        (sh.runWithOutput command args w).2) := by
  rw [eval, bind_apply]
  cases sh.runWithOutput command args w with
  | mk ended v => cases ended <;> rfl

/-- A shell that is asked to run a line does what the runner does that is given the shell, `-c` and
the line, as one word that is not filled in again. Both evaluate a command to its output up to the
line ends that close it. -/
theorem shell_substitutes (r : Runner) (shell : String) (command : Value) (args : List Value)
    {line : String} (hline : Template.render command args = .ok line) (w : World) :
    let sh : Shell := ⟨r, shell⟩
    let words : List Value := [.text shell, .text "-c", .text line]
    (Matches r [shell, "-c", line] w "Bash" "Exec" (sh.run command args w) (r.exec words w) ∧
      Matches r [shell, "-c", line] w "BashWithStdout" "ExecWithStdout"
        (sh.runWithOutput command args w) (r.execWithOutput words w) ∧
      Matches r [shell, "-c", line] w "BashWithStdout" "ExecWithStdout"
        (sh.eval command args w) (r.eval words w)) ∧
    ((r.exec words w).2.starts =
        w.starts ++ (if r.dryRun then [] else [⟨[shell, "-c", line], false, false⟩]) ∧
      (r.execWithOutput words w).2.starts =
        w.starts ++ (if r.dryRun then [] else [⟨[shell, "-c", line], true, false⟩]) ∧
      (r.eval words w).2 = (r.execWithOutput words w).2) ∧
    ∀ words', r.Substitutes words' w := by
  intro sh words
  have hrun : sh.run command args = _ := Shell.withLine_of_ok hline _
  have hwithOutput : sh.runWithOutput command args = _ := Shell.withLine_of_ok hline _
  have hmatches : Matches r [shell, "-c", line] w "BashWithStdout" "ExecWithStdout"
      (sh.runWithOutput command args w) (r.execWithOutput words w) := by
    rw [hwithOutput]
    exact r.matches_run words .output "BashWithStdout" "ExecWithStdout" w
  refine ⟨⟨?_, hmatches, ?_⟩, ⟨?_, ?_, ?_⟩, fun words' => r.substitutes words' w⟩
  · rw [hrun]
    exact r.matches_run words .nothing "Bash" "Exec" w
  · rw [Shell.eval_apply, Runner.eval_apply]
    exact hmatches.map _
  · exact r.starts_run words .nothing "Exec" w
  · exact r.starts_run words .output "ExecWithStdout" w
  · rw [Runner.eval_apply]

/-- A child that fails behind a character that it has not ended, and a line end. -/
def brokenLine : Child := { Child.idle with output := [0x61, 0xC3, 13, 10], returnCode := 1 }

theorem shell_substitutes_brokenLine :
    let w := { World.initial [] (.ofText "/tmp") .warning with children := [brokenLine] }
    Template.render (.text "echo 100%") [] = .ok "echo 100%" ∧
      ((⟨⟨false, .reports⟩, "bash"⟩ : Shell).eval (.text "echo 100%") [] w).1 = .ok "a\uFFFD" := by
  intro w
  have hline : Template.render (.text "echo 100%") [] = .ok "echo 100%" := rfl
  obtain ⟨⟨-, -, heval⟩, -, hvalue⟩ := shell_substitutes ⟨false, .reports⟩ "bash" _ _ hline w
  have houtput := (hvalue [.text "bash", .text "-c", .text "echo 100%"]).started brokenLine
    [0x61, 0xC3] [13, 10] rfl rfl rfl (by simp [IsLineEnd]) (by simp [IsLineEnd])
  refine ⟨hline, heval.1.trans ?_⟩
  rw [houtput]
  decide

end shell

end ScriptLauncher.Command
