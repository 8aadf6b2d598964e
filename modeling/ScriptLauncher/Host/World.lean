import ScriptLauncher.Host.FileTree
import ScriptLauncher.Host.Journal

/-! The world that a session acts on: a file tree, a supply of tokens, the children
that will be started, and a record of all that was done. -/

namespace ScriptLauncher.Host

/-- Faults that stand ready for some paths, by what is asked of the path. -/
structure Faults where
  stat : List (String × Fault)
  create : List (String × Fault)
  write : List (String × Fault)
  read : List (String × Fault)
  unlink : List (String × Fault)
  deriving DecidableEq, Repr

def Faults.none : Faults := ⟨[], [], [], [], []⟩

/-- What a child leaves at the path in its fourth word. -/
inductive Product
  | file
  | directory
  deriving DecidableEq, Repr

/-- A child that cannot be started, or one that runs: its effect on files, what it
writes, and its return code. -/
structure Child where
  failure : Option Fault
  product : Option Product
  removes : List String
  output : Bytes
  errors : Bytes
  returnCode : Int
  deriving DecidableEq, Repr

def Child.idle : Child := ⟨none, none, [], [], [], 0⟩

/-- An attempt to start a command, and which of its streams were captured. -/
structure Start where
  command : List String
  capturesOutput : Bool
  capturesErrors : Bool
  deriving DecidableEq, Repr

structure World where
  tree : FileTree
  /-- Where relative paths are read. -/
  home : Location
  /-- The text that names this place, if the system gives it. -/
  homeText : Except Fault String
  temporary : Path
  faults : Faults
  tokens : List String
  /-- The number of tokens drawn so far. -/
  drawn : Nat
  children : List Child
  threshold : Level
  records : List Record
  texts : List (Channel × String)
  starts : List Start

namespace World

/-- A world with an empty tree, in which nothing has been done. -/
def initial (home : Location) (temporary : Path) (threshold : Level) : World where
  tree := .empty
  home
  homeText := .ok (Root.single.text ++ "/".intercalate home)
  temporary
  faults := .none
  tokens := []
  drawn := 0
  children := []
  threshold
  records := []
  texts := []
  starts := []

def textOn (w : World) (c : Channel) : String :=
  String.join ((w.texts.filter (·.1 = c)).map (·.2))

def holdsNull (s : String) : Bool := s.toList.contains '\x00'

/-- Asks something of a path: a fault that stands ready comes first, and a path with a
null in it asks nothing. -/
def guarded (ready : List (String × Fault)) (p : Path) (ask : Except Fault α) : Except Fault α :=
  match ready.lookup p.text with
  | some f => .error (f.withPath p.text)
  | none => if holdsNull p.text then .error .embeddedNull else ask

def find (w : World) (follow : Bool) (p : Path) : Except Fault FileTree.Place :=
  match w.tree.find follow w.home p with
  | .ok place => .ok place
  | .error c => .error (.ofCause c p.text)

def stat (w : World) (p : Path) : Except Fault Node :=
  guarded w.faults.stat p do
    match ← w.find true p with
    | .taken _ n => return n
    | .free _ => throw (.ofCause .missing p.text)

/-- Whether something is there; what is missing, or lies below a file, is not. -/
def lookup? (w : World) (p : Path) : Except Fault (Option Node) :=
  match w.stat p with
  | .ok n => .ok (some n)
  | .error f => if f.hasCause .missing || f.hasCause .notDirectory then .ok none else .error f

def pathExists (w : World) (p : Path) : Except Fault Bool :=
  Option.isSome <$> w.lookup? p

def isDirectory (w : World) (p : Path) : Except Fault Bool :=
  (fun n? => n? == some .directory) <$> w.lookup? p

/-- Whether something is there that is no directory. -/
def isFile (w : World) (p : Path) : Except Fault Bool :=
  (fun n? => n?.any (· != .directory)) <$> w.lookup? p

/-- The place of a new file, where nothing may be yet, not even a link to nowhere. -/
def vacancy (w : World) (p : Path) : Except Fault Location :=
  guarded w.faults.create p do
    match ← w.find false p with
    | .free l => return l
    | .taken .. => throw (.ofCause .exists p.text)

def read (w : World) (p : Path) : Except Fault Bytes :=
  guarded w.faults.read p do
    match ← w.find true p with
    | .taken _ (.file content) | .taken _ (.stream content) => return content
    | .taken _ .directory => throw (.ofCause .isDirectory p.text)
    -- a path that is followed to its end ends at no link
    | .taken _ (.link _) => return []
    | .free _ => throw (.ofCause .missing p.text)

/-- What the system has to remove; nothing, where nothing is there. -/
def removable (w : World) (p : Path) : Except Fault (Option Location) :=
  guarded w.faults.unlink p do
    match w.tree.find false w.home p with
    | .ok (.taken _ .directory) => throw (.ofCause .isDirectory p.text)
    | .ok (.taken l _) => return some l
    | .ok (.free _) | .error .missing => return none
    | .error c => throw (.ofCause c p.text)

def withTree (w : World) (tree : FileTree) : World := { w with tree }

/-- What a child writes into the file that it leaves. -/
def productContent : Bytes := Utf8.encode "EXE"

/-- The tree after a child has left its product at a path; where it cannot, it leaves none. -/
def leave (w : World) (path : String) : Product → World
  | .file => match w.find true (.ofText path) with
    | .ok (.free l) | .ok (.taken l (.file _)) => w.withTree (w.tree.put l (.file productContent))
    | _ => w
  | .directory => match w.find false (.ofText path) with
    | .ok (.free l) => w.withTree (w.tree.put l .directory)
    | _ => w

/-- The tree after a child has removed a path that is there and no directory. -/
def drop (w : World) (path : String) : World :=
  match w.find false (.ofText path) with
  | .ok (.taken _ .directory) => w
  | .ok (.taken l _) => w.withTree (w.tree.remove l)
  | _ => w

def run (w : World) (c : Child) (command : List String) : World :=
  let w := match c.product, command[3]? with
    | some p, some path => w.leave path p
    | _, _ => w
  c.removes.foldl drop w

end World

end ScriptLauncher.Host
