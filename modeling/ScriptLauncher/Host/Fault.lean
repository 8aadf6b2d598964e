import ScriptLauncher.Text.Escapes

/-! Faults: what the system answers instead of doing what it was asked. -/

namespace ScriptLauncher.Host

/-- The numbers of the faults that the system itself reports here. -/
inductive Cause
  | missing
  | exists
  | notDirectory
  | isDirectory
  | nameTooLong
  | tooManyLinks
  deriving DecidableEq, Repr

def Cause.number : Cause → Int
  | .missing => 2
  | .exists => 17
  | .notDirectory => 20
  | .isDirectory => 21
  | .nameTooLong => 36
  | .tooManyLinks => 40

def Cause.reason : Cause → String
  | .missing => "No such file or directory"
  | .exists => "File exists"
  | .notDirectory => "Not a directory"
  | .isDirectory => "Is a directory"
  | .nameTooLong => "File name too long"
  | .tooManyLinks => "Too many levels of symbolic links"

/-- A system fault has a number or not; the others are values that the system cannot
take, texts that have no encoding, and failures that belong to none of these. -/
inductive Fault
  | numbered (number : Int) (reason : String) (path : Option String)
  | unnumbered (reason : String)
  | unacceptable (reason : String)
  | unencodable (e : Text.EncodeError)
  | internal (reason : String)
  deriving DecidableEq, Repr

namespace Fault

def ofCause (c : Cause) (path : String) : Fault := .numbered c.number c.reason (some path)

def embeddedNull : Fault := .unacceptable "embedded null byte"

def isOfSystem : Fault → Bool
  | .numbered .. | .unnumbered _ => true
  | _ => false

/-- Whether a fault comes from the system or from a value that it cannot take. -/
def isReported : Fault → Bool
  | .internal _ => false
  | _ => true

def hasCause (f : Fault) (c : Cause) : Bool :=
  match f with
  | .numbered number .. => number == c.number
  | _ => false

def message : Fault → String
  | .numbered number reason path =>
    "[Errno " ++ toString number ++ "] " ++ reason ++
      match path with
      | none => ""
      | some path => ": " ++ Text.quote path
  | .unnumbered reason | .unacceptable reason | .internal reason => reason
  | .unencodable e => e.message

/-- The reason alone where a numbered fault gives one, and the whole message otherwise. -/
def briefly (f : Fault) : String :=
  match f with
  | .numbered _ reason _ => if reason = "" then f.message else reason
  | f => f.message

/-- The fault with a path, unless it has one already or takes none. -/
def withPath (f : Fault) (path : String) : Fault :=
  match f with
  | .numbered number reason none => .numbered number reason (some path)
  | f => f

@[simp] theorem hasCause_ofCause (c d : Cause) (path : String) :
    (ofCause c path).hasCause d = (c == d) := by
  cases c <;> cases d <;> rfl

@[simp] theorem isOfSystem_ofCause (c : Cause) (path : String) :
    (ofCause c path).isOfSystem = true := rfl

end Fault

end ScriptLauncher.Host
