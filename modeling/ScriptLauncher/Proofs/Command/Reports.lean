import ScriptLauncher.Command.Shell
import ScriptLauncher.Proofs.Command.Runner
import ScriptLauncher.Proofs.Text.ShellWords

/-! Sessions of commands in a dry run. From the text of their reports alone, the label and the
words of each command can be read back, in order. -/

namespace ScriptLauncher.Command

open Host Session

/-- A command under the label of its report. -/
structure Entry where
  label : String
  command : List String
  deriving DecidableEq, Repr

section reading

def readLabel : List Char → Option (List Char × List Char)
  | [] => none
  | ':' :: ' ' :: s => some ([], s)
  | c :: s => do
    let (label, rest) ← readLabel s
    return (c :: label, rest)

theorem length_readLabel {s label rest : List Char} (h : readLabel s = some (label, rest)) :
    rest.length < s.length := by
  fun_induction readLabel s generalizing label with
  | case1 => cases h
  | case2 s =>
    cases h
    simp only [List.length_cons]
    omega
  | case3 c s _ ih =>
    obtain ⟨⟨label', rest'⟩, hread, hrest⟩ := Option.bind_eq_some_iff.1 h
    cases hrest
    exact Nat.lt_succ_of_lt (ih hread)

/-- Reads reports to the end of the text: each has a label up to the first colon with a blank behind
it, and then words up to the end of their line. -/
def readReports (s : List Char) : Option (List Entry) :=
  if s = [] then some []
  else match hlabel : readLabel s with
    | none => none
    | some (label, line) => match hline : ShellWords.readLine .bare none line with
      | none => none
      | some (command, rest) =>
        have : rest.length < s.length :=
          Nat.lt_trans (ShellWords.length_readLine hline) (length_readLabel hlabel)
        (⟨String.ofList label, command⟩ :: ·) <$> readReports rest
termination_by s.length

theorem readLabel_append {label : List Char} (h : ':' ∉ label) (rest : List Char) :
    readLabel (label ++ ':' :: ' ' :: rest) = some (label, rest) := by
  induction label with
  | nil => rfl
  | cons c label ih =>
    rw [List.mem_cons, not_or] at h
    rw [List.cons_append, readLabel, ih h.2]
    · rfl
    · rintro rest' rfl
      exact absurd rfl h.1

theorem readReports_report {label : String} (h : ':' ∉ label.toList) (command : List String)
    (rest : List Char) :
    readReports ((report label command).toList ++ rest) =
      (⟨label, command⟩ :: ·) <$> readReports rest := by
  have htext : (report label command).toList ++ rest = label.toList ++
      ':' :: ' ' :: ((ShellWords.join command).toList ++ '\n' :: rest) := by
    simp [report]
  have hlabel := readLabel_append h ((ShellWords.join command).toList ++ '\n' :: rest)
  have hline := ShellWords.readLine_join command rest
  rw [htext, readReports, if_neg (by simp)]
  split
  · next hnone => cases hlabel.symm.trans hnone
  · next hsome =>
    cases hlabel.symm.trans hsome
    split
    · next hnone => cases hline.symm.trans hnone
    · next hsome =>
      cases hline.symm.trans hsome
      rw [String.ofList_toList]

def Entry.report (e : Entry) : String := Command.report e.label e.command

/-- Reports one after the other are read back, if no label has a colon in it. -/
theorem readReports_join {entries : List Entry} (h : ∀ e ∈ entries, ':' ∉ e.label.toList) :
    readReports (String.join (entries.map Entry.report)).toList = some entries := by
  induction entries with
  | nil => rw [List.map_nil, readReports]; rfl
  | cons e entries ih =>
    obtain ⟨he, hrest⟩ := List.forall_mem_cons.1 h
    rw [List.map_cons, String.join_cons, String.toList_append, Entry.report,
      readReports_report he, ih hrest]
    rfl

end reading

/-- One of the ways to have a command run, with what it is given. -/
inductive Request
  | exec (executable : Value) (args : List Value)
  | execWithOutput (executable : Value) (args : List Value)
  | execWithBoth (executable : Value) (args : List Value)
  | eval (executable : Value) (args : List Value)
  | shellRun (shell : String) (line : Value) (args : List Value)
  | shellRunWithOutput (shell : String) (line : Value) (args : List Value)
  | shellEval (shell : String) (line : Value) (args : List Value)
  deriving Repr

inductive Reply
  | result (r : Result)
  | text (s : String)
  deriving DecidableEq, Repr

namespace Request

def perform (r : Runner) : Request → Session ShellError Reply
  | .exec executable args => mapError .system (.result <$> r.exec (executable :: args))
  | .execWithOutput executable args =>
    mapError .system (.result <$> r.execWithOutput (executable :: args))
  | .execWithBoth executable args =>
    mapError .system (.result <$> r.execWithBoth (executable :: args))
  | .eval executable args => mapError .system (.text <$> r.eval (executable :: args))
  | .shellRun shell line args => .result <$> Shell.run ⟨r, shell⟩ line args
  | .shellRunWithOutput shell line args => .result <$> Shell.runWithOutput ⟨r, shell⟩ line args
  | .shellEval shell line args => .text <$> Shell.eval ⟨r, shell⟩ line args

/-- Performs requests in turn, also behind one that fails. -/
def performAll (r : Runner) : List Request → World → List (Except ShellError Reply) × World
  | [], w => ([], w)
  | q :: qs, w =>
    let (reply, w) := q.perform r w
    let (replies, w) := performAll r qs w
    (reply :: replies, w)

def label : Request → String
  | .exec .. => "Exec"
  | .execWithOutput .. | .eval .. => "ExecWithStdout"
  | .execWithBoth .. => "ExecWithStdErrOut"
  | .shellRun .. => "Bash"
  | .shellRunWithOutput .. | .shellEval .. => "BashWithStdout"

/-- The words of the command that is asked for, if its line can be filled in. -/
def command : Request → Template.Filled (List String)
  | .exec executable args | .execWithOutput executable args | .execWithBoth executable args
  | .eval executable args => .ok ((executable :: args).map Value.display)
  | .shellRun shell line args | .shellRunWithOutput shell line args
  | .shellEval shell line args => (fun line => [shell, "-c", line]) <$> Template.render line args

/-- What a request says in a dry run, if anything. -/
def entry? (q : Request) : Option Entry :=
  match q.command with
  | .ok command => some ⟨q.label, command⟩
  | .error _ => none

/-- What a dry run answers: a result without output, or an empty text. -/
def answer (command : List String) : Request → Reply
  | .eval .. | .shellEval .. => .text ""
  | _ => .result ⟨command, .exited 0, "", ""⟩

def dryReply (q : Request) : Except ShellError Reply :=
  match q.command with
  | .ok command => .ok (q.answer command)
  | .error e => .error (.template e)

theorem colon_not_mem_label (q : Request) : ':' ∉ q.label.toList := by
  unfold label
  split <;> decide

theorem colon_not_mem_entry {qs : List Request} : ∀ e ∈ qs.filterMap entry?, ':' ∉ e.label.toList := by
  intro e he
  obtain ⟨q, -, hq⟩ := List.mem_filterMap.1 he
  unfold entry? at hq
  split at hq
  · cases hq
    exact q.colon_not_mem_label
  · cases hq

theorem perform_dry (c : Channel) (q : Request) (w : World) :
    q.perform ⟨true, c⟩ w = match q.command with
      | .ok command => (.ok (q.answer command), w.tell c (report q.label command))
      | .error e => (.error (.template e), w) := by
  cases q with
  | exec | execWithOutput | execWithBoth | eval => rfl
  | shellRun shell line args =>
    simp only [perform, command, Shell.run, Shell.withLine]
    cases Template.render line args <;> rfl
  | shellRunWithOutput shell line args =>
    simp only [perform, command, Shell.runWithOutput, Shell.withLine]
    cases Template.render line args <;> rfl
  | shellEval shell line args =>
    simp only [perform, command, Shell.eval, Shell.runWithOutput, Shell.withLine]
    cases Template.render line args <;> rfl

/-- A dry session answers each request, and changes nothing but the texts: it adds a report for each
command. -/
theorem performAll_dry (c : Channel) (qs : List Request) (w : World) :
    performAll ⟨true, c⟩ qs w = (qs.map dryReply,
      { w with texts := w.texts ++ (qs.filterMap entry?).map fun e => (c, e.report) }) := by
  induction qs generalizing w with
  | nil => simp [performAll]
  | cons q qs ih =>
    rw [performAll, perform_dry]
    cases h : q.command with
    | error e => simp [ih, dryReply, entry?, h]
    | ok command => simp [ih, dryReply, entry?, h, World.tell, Entry.report]

/-- Whatever is asked for in a dry session, nothing is started and no child takes its turn, each
request is answered, and the labels and the words of the commands are read back from what the
session has said. -/
theorem dry_session_readable (c : Channel) (qs : List Request) (w : World) :
    let ended := performAll ⟨true, c⟩ qs w
    (ended.2.starts = w.starts ∧ ended.2.children = w.children ∧ ended.2.tree = w.tree) ∧
    ended.1 = qs.map dryReply ∧
    ∃ said : String, ended.2.textOn c = w.textOn c ++ said ∧
      readReports said.toList = some (qs.filterMap entry?) := by
  intro ended
  have hended : ended = _ := performAll_dry c qs w
  rw [hended]
  refine ⟨⟨rfl, rfl, rfl⟩, rfl, String.join ((qs.filterMap entry?).map Entry.report), ?_,
    readReports_join colon_not_mem_entry⟩
  have hall : ((qs.filterMap entry?).map fun e => (c, e.report)).filter (·.1 = c) =
      (qs.filterMap entry?).map fun e => (c, e.report) := by
    refine List.filter_eq_self.2 fun e he => ?_
    obtain ⟨entry, -, rfl⟩ := List.mem_map.1 he
    exact decide_eq_true rfl
  rw [World.textOn, List.filter_append, hall, List.map_append, List.map_map, String.join_append]
  rfl

end Request

end ScriptLauncher.Command
