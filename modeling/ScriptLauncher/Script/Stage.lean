import ScriptLauncher.Text.Utf8

/-! The three stages of a script: leading directive lines, then import and comment
lines, then the body. Every line is placed by the stage before it. -/

namespace ScriptLauncher.Script

inductive Stage
  | ready
  | imports
  | main
  deriving DecidableEq, Repr

namespace Stage

def name : Stage → String
  | .ready => "ready"
  | .imports => "import"
  | .main => "main"

def all : List Stage := [.ready, .imports, .main]

def ofName? (s : String) : Option Stage := all.find? (·.name == s)

def rank : Stage → Nat
  | .ready => 0
  | .imports => 1
  | .main => 2

end Stage

def directiveMarker : Bytes := Utf8.encode "#"
def importKeyword : Bytes := Utf8.encode "import "
def lineComment : Bytes := Utf8.encode "//"

def isDirective (line : Bytes) : Bool := directiveMarker.isPrefixOf line

/-- Blank lines, imports and line comments, wherever they start in the line. -/
def isPreamble (line : Bytes) : Bool :=
  let trimmed := line.trim
  trimmed.isEmpty || importKeyword.isPrefixOf trimmed || lineComment.isPrefixOf trimmed

namespace Stage

/-- The stage after a line that is not empty. -/
def advance (stage : Stage) (line : Bytes) : Stage :=
  match stage with
  | .ready => if isDirective line then .ready else if isPreamble line then .imports else .main
  | .imports => if isPreamble line then .imports else .main
  | .main => .main

/-- The stage after any line: an empty one leaves it as it is. -/
def after (stage : Stage) (line : Bytes) : Stage :=
  if line.isEmpty then stage else stage.advance line

/-- The stages after each of some lines. -/
def trail (stage : Stage) : List Bytes → List Stage
  | [] => []
  | line :: rest => stage.advance line :: trail (stage.advance line) rest

@[simp] theorem advance_main (line : Bytes) : advance .main line = .main := rfl

@[simp] theorem after_main (line : Bytes) : after .main line = .main := by
  simp [after]

@[simp] theorem after_nil (stage : Stage) : after stage [] = stage := rfl

theorem rank_advance (stage : Stage) (line : Bytes) : stage.rank ≤ (stage.advance line).rank := by
  cases stage <;> simp only [advance] <;> (repeat' split) <;> decide

theorem rank_after (stage : Stage) (line : Bytes) : stage.rank ≤ (stage.after line).rank := by
  unfold after
  split
  · exact Nat.le_refl _
  · exact rank_advance ..

end Stage

end ScriptLauncher.Script
