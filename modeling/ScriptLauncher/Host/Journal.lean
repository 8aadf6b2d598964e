/-! Records of what a session did, and the places where it writes text. -/

namespace ScriptLauncher.Host

inductive Level
  | debug
  | warning
  deriving DecidableEq, Repr

namespace Level

def name : Level → String
  | .debug => "DEBUG"
  | .warning => "WARNING"

def all : List Level := [.debug, .warning]

def ofName? (s : String) : Option Level := all.find? (·.name == s)

/-- Whether records of a level are kept where the threshold is another one. -/
def passes (level threshold : Level) : Bool :=
  match level, threshold with
  | .debug, .warning => false
  | _, _ => true

end Level

inductive Component
  | scanner
  | scaffold
  | runner
  | build
  | commandLine
  deriving DecidableEq, Repr

def Component.name : Component → String
  | .scanner => "goscript.scanner"
  | .scaffold => "goscript.scaffold"
  | .runner => "goscript.runner"
  | .build => "goscript.build"
  | .commandLine => "cli.script_runner"

structure Record where
  level : Level
  component : Component
  message : String
  deriving DecidableEq, Repr

def Record.line (r : Record) : String :=
  r.level.name ++ " " ++ r.component.name ++ ": " ++ r.message

def detailed (message : String) (details : List (String × String)) : String :=
  message ++ " (" ++ " ".intercalate (details.map fun (name, value) => name ++ "=" ++ value) ++ ")"

/-- The process's own two streams, and the streams that a caller may hand in. -/
inductive Channel
  | output
  | errors
  | callerOutput
  | callerErrors
  | reports
  deriving DecidableEq, Repr

end ScriptLauncher.Host
