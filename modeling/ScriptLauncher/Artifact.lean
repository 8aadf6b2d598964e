import ScriptLauncher.Host.Session

/-! The files made for a script: a source under a name that is still free, and the
executable that is named after it. -/

namespace ScriptLauncher.Artifact

open Host

def sourceSuffix : String := ".go"
def executableSuffix : String := ".exe"
def mark : String := "goscript-"

def endsWith (s suffix : String) : Bool := suffix.toList.isSuffixOf s.toList

/-- The last part of a source's name: the name of the script, with the suffix of sources. -/
def baseName (script : String) : String :=
  if endsWith script sourceSuffix then script else script ++ sourceSuffix

/-- The path of a source for a script, told apart by a token. -/
def candidate (directory : Path) (script token : String) : Path :=
  directory.join (.ofText (mark ++ token ++ "-" ++ baseName script))

/-- The path of the executable that is built from a source; a path without a name has none. -/
def executable (source : Path) : Except Fault Path :=
  match source.addSuffix? executableSuffix with
  | some p => .ok p
  | none => .error (.unacceptable
      ("PosixPath(" ++ Text.quote source.text ++ ") has an empty name"))

/-- Makes a new file with some content, unless something is there already. -/
def write (content : Bytes) (p : Path) : Session Fault Unit := do
  if ← Session.ask (·.pathExists p) then throw (.ofCause .exists p.text)
  let l ← Session.create p
  Session.fill p l content

/-- Draws a token and tries its path. A path that is taken, or gets taken meanwhile, counts
as none. -/
def writeOnce (content : Bytes) (script : String) (directory : Path) :
    Session Fault (Option Path) := do
  let token ← Session.drawToken
  let p := candidate directory script token
  match ← Session.attempt (write content p) with
  | .ok () => return some p
  | .error f => if f.hasCause .exists then return none else throw f

def writeWithin (content : Bytes) (script : String) (directory : Path) :
    Nat → Session Fault Path
  | 0 => throw (.ofCause .exists directory.text)
  | n + 1 => do
    match ← writeOnce content script directory with
    | some p => return p
    | none => writeWithin content script directory n

/-- More draws than there can be paths that are taken: each token in stock may name one,
and each entry and each fault that stands ready may take one of the numbered tokens. -/
def draws (w : World) : Nat :=
  w.tokens.length + w.tree.entries.length + w.faults.stat.length + w.faults.create.length
    + w.faults.write.length + 1

/-- Writes a source under the first candidate that is free. -/
def writeSource (content : Bytes) (script : String) (directory : Path) : Session Fault Path :=
  fun w => writeWithin content script directory (draws w) w

end ScriptLauncher.Artifact
