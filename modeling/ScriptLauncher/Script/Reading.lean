import ScriptLauncher.Script.Stage

/-! Reading a script: its lines up to the first one of the body are the prologue,
and the body is the text from there on. -/

namespace ScriptLauncher.Script

structure Reading where
  /-- The lines before the body; a directive line is kept as an empty one. -/
  prologue : List Bytes
  body : Option Bytes
  stage : Stage
  deriving DecidableEq, Repr

/-- The lines kept before the body, the lines from the body on, and the last stage. -/
def readLines (stage : Stage) : List Bytes → List Bytes × List Bytes × Stage
  | [] => ([], [], stage)
  | line :: rest =>
    let stage := stage.after line
    if stage = .main then ([], line :: rest, .main)
    else
      let r := readLines stage rest
      ((if stage = .ready then [] else line) :: r.1, r.2)

theorem readLines_unread (stage : Stage) (ls : List Bytes) :
    (readLines stage ls).2.1 = ls.drop (readLines stage ls).1.length := by
  induction ls generalizing stage with
  | nil => rfl
  | cons line rest ih =>
    simp only [readLines]
    split
    · rfl
    · simpa using ih (stage.after line)

/-- The number of bytes that some closed lines take. -/
def extent (ls : List Bytes) : Nat := (Bytes.unlines ls).length

def Reading.ofSource (source : Bytes) : Reading :=
  let (kept, unread, stage) := readLines .ready source.lines
  let offset := extent (source.lines.take kept.length)
  ⟨kept, if unread.isEmpty then none else some (source.drop offset), stage⟩

end ScriptLauncher.Script
