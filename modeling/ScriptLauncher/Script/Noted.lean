import ScriptLauncher.Host.Session
import ScriptLauncher.Scaffold

/-! Reading and wrapping a script, with records of what was found. -/

namespace ScriptLauncher.Script

open Host

def Reading.note (source : Bytes) (r : Reading) : StateM World Unit :=
  match r.body with
  | some body => Session.note .debug .scanner "Body starts"
      [("offset", toString (source.length - body.length)),
        ("lines_before", toString r.prologue.length)]
  | none => Session.note .debug .scanner "Script has no body"
      [("lines", toString r.prologue.length), ("stage", r.stage.name)]

def readNoted (source : Bytes) : StateM World Reading := do
  let r := Reading.ofSource source
  r.note source
  return r

def assembleNoted (source : Bytes) (imports : List Scaffold.Import) : StateM World Bytes := do
  let r ← readNoted source
  let code := Scaffold.wrap imports r
  Session.note .debug .scaffold "Assembled source"
    [("input_bytes", toString source.length), ("output_bytes", toString code.length),
      ("stage", r.stage.name)]
  return code

end ScriptLauncher.Script
