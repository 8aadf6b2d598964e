import ScriptLauncher.CommandLine.Run

/-! The command line as a program. The world that it runs in holds the script that is
named, as it is on disk, and a temporary directory. This program starts no children of its
own, so outside a dry run every start fails; sources that are to stay are written to disk. -/

namespace ScriptLauncher.Outer

open Host

def temporary : String := "/tmp"

def cannotStart : Fault := .numbered 38 "Function not implemented" none

def child : Child := { Child.idle with failure := some cannotStart }

/-- Reads a stream to its end. -/
partial def readAll (s : IO.FS.Stream) (sofar : List UInt8) : IO Bytes := do
  let chunk ← s.read 65536
  if chunk.isEmpty then return sofar else readAll s (sofar ++ chunk.toList)

/-- What reading standard input comes to. -/
def input : IO (Except Fault Bytes) := do
  try return .ok (← readAll (← IO.getStdin) [])
  catch e => return .error (.unnumbered (toString e))

/-- What stands at a path on disk. -/
def nodeAt (path : String) : IO Node := do
  try
    let content ← IO.FS.readBinFile path
    return .file content.toList
  catch
    | .inappropriateType .. => return .directory
    | e => throw e

/-- The location of a path that is read at another one; links are left to the disk. -/
def locate (home : Path) (p : Path) : Location := (home.join p).parts

/-- A tree with a directory at a location and above it. -/
def withDirectories (t : FileTree) (l : Location) : FileTree :=
  (List.range (l.length + 1)).foldl (fun t i =>
    if (t.node? (l.take i)).isSome then t else t.put (l.take i) .directory) t

def faultOf (path : String) : IO.Error → Fault
  | .permissionDenied .. => .numbered 13 "Permission denied" (some path)
  | e => .unnumbered (toString e)

def isMissing : IO.Error → Bool
  | .noFileOrDirectory .. => true
  | _ => false

/-- The world with a script in it: a file that cannot be read has its fault ready, and one
that is missing is not there. -/
def withScript (w : World) (home p : Path) : IO World := do
  let l := locate home p
  let tree := withDirectories w.tree l.dropLast
  try
    let n ← nodeAt p.text
    return w.withTree (tree.put l n)
  catch e =>
    if isMissing e then return w
    else
      let faults := { w.faults with read := [(p.text, faultOf p.text e)] }
      return { w.withTree (tree.put l (.stream [])) with faults }

def token : IO String := do
  let bytes ← IO.getRandomBytes 4
  return String.ofList (bytes.toList.flatMap fun b => Text.hex 2 b.toNat)

def world (argv : List String) : IO World := do
  let home := Path.ofText (toString (← IO.currentDir))
  let w := World.initial home.parts (.ofText temporary) .warning
  let tree := withDirectories (withDirectories w.tree home.parts) (Path.ofText temporary).parts
  let w := { w.withTree tree with tokens := [← token], children := [child, child] }
  match CommandLine.namedScript argv with
  | some p => withScript w home p
  | none => return w

/-- Writes the files that were left in the temporary directory to disk. -/
def keep (w : World) : IO Unit := do
  for (names, n) in w.tree.below (Path.ofText temporary).parts do
    match n with
    | .file content =>
      IO.FS.writeBinFile (temporary ++ "/" ++ "/".intercalate names) ⟨content.toArray⟩
    | _ => pure ()

def status : Except Build.Stop Unit → UInt32
  | .error (.exit e) => UInt32.ofNat (e.code % 256).toNat
  | .error _ => 1
  | .ok () => 0

end ScriptLauncher.Outer

open ScriptLauncher in
def main (argv : List String) : IO UInt32 := do
  let input ← if CommandLine.readsInput argv then Outer.input else pure (.ok [])
  let intake : CommandLine.Intake := ⟨.empty, input⟩
  let (ended, w) := intake.runAndExit argv (← Outer.world argv)
  for r in w.records do IO.eprintln r.line
  IO.eprint (w.textOn .errors)
  IO.print (w.textOn .output)
  Outer.keep w
  return Outer.status ended
