import ScriptLauncher.Path
import ScriptLauncher.Host.Fault
import ScriptLauncher.Text.Utf8

/-! File trees: what stands at which location, and how a path finds its way there
through directories and links. -/

namespace ScriptLauncher.Host

/-- The names from the root down. -/
abbrev Location := List String

inductive Node
  | file (content : Bytes)
  | directory
  | link (target : String)
  /-- A pipe or a device, and what it gives to a reader before it ends. -/
  | stream (content : Bytes)
  deriving DecidableEq, Repr

structure FileTree where
  entries : List (Location × Node)
  deriving DecidableEq, Repr

namespace FileTree

def empty : FileTree := ⟨[]⟩

/-- What stands at a location; the root is always a directory. -/
def node? (t : FileTree) (l : Location) : Option Node :=
  if l = [] then some .directory else t.entries.lookup l

def remove (t : FileTree) (l : Location) : FileTree := ⟨t.entries.filter (·.1 != l)⟩

def put (t : FileTree) (l : Location) (n : Node) : FileTree := ⟨(l, n) :: (t.remove l).entries⟩

/-- A name may take 255 bytes, and a whole path one less than 4096. -/
def longestName : Nat := 255
def longestPath : Nat := 4095

def longestChain : Nat := 40

/-- Where a path leads: to something, or to a free name in a directory. -/
inductive Place
  | taken (l : Location) (n : Node)
  | free (l : Location)
  deriving DecidableEq, Repr

/-- The names that the text of a link leads along. A slash at the end asks for a directory. -/
def linkNames (target : String) : List String :=
  let pieces := (Path.pieces target.toList).map String.ofList
  let names := pieces.filter (· != "")
  if pieces.getLast? = some "" then names ++ ["."] else names

def isRooted (target : String) : Bool := target.toList.head? == some '/'

/-- Goes along some names. A link on the way, and one at the end that is to be followed,
leads on by `jump`. -/
def walkFrom (t : FileTree) (follow : Bool) (jump : Location → List String → Except Cause Place)
    (here : Location) : List String → Except Cause Place
  | [] => match t.node? here with
    | some n => .ok (.taken here n)
    | none => .error .missing
  | name :: rest =>
    if t.node? here ≠ some .directory then .error .notDirectory
    else if name = "." then walkFrom t follow jump here rest
    else if name = ".." then walkFrom t follow jump here.dropLast rest
    else if longestName < (Utf8.encode name).length then .error .nameTooLong
    else
      let there := here ++ [name]
      match t.node? there with
      | none => if rest.isEmpty then .ok (.free there) else .error .missing
      | some (.link target) =>
        if rest.isEmpty && !follow then .ok (.taken there (.link target))
        else jump (if isRooted target then [] else here) (linkNames target ++ rest)
      | some _ => walkFrom t follow jump there rest

/-- Goes along some names, and through at most `links` links. -/
def walk (t : FileTree) (follow : Bool) : Nat → Location → List String → Except Cause Place
  | 0 => walkFrom t follow fun _ _ => .error .tooManyLinks
  | links + 1 => walkFrom t follow (walk t follow links)

/-- Where a path leads that is read at a location. -/
def find (t : FileTree) (follow : Bool) (home : Location) (p : Path) : Except Cause Place :=
  if longestPath < (Utf8.encode p.text).length then .error .nameTooLong
  else t.walk follow longestChain (if p.isAbsolute then [] else home) p.parts

/-- Everything below a location, each with the names that lead there from it. -/
def below (t : FileTree) (l : Location) : List (List String × Node) :=
  t.entries.filterMap fun (m, n) =>
    if l.isPrefixOf m && m != l then some (m.drop l.length, n) else none

@[simp] theorem node?_root (t : FileTree) : t.node? [] = some .directory := by
  simp [node?]

@[simp] theorem node?_put_self (t : FileTree) {l : Location} (h : l ≠ []) (n : Node) :
    (t.put l n).node? l = some n := by
  simp [node?, put, h]

theorem lookup_filter_ne {l m : Location} (h : l ≠ m) (es : List (Location × Node)) :
    (es.filter (·.1 != m)).lookup l = es.lookup l := by
  induction es with
  | nil => rfl
  | cons e es ih =>
    obtain ⟨k, n⟩ := e
    by_cases hk : k = m
    · subst hk
      have hl : (l == k) = false := by simpa using h
      simp [List.lookup_cons, hl, ih]
    · simp only [List.filter_cons, bne_iff_ne, ne_eq, hk, not_false_eq_true, ↓reduceIte,
        List.lookup_cons, ih]

theorem lookup_filter_self (l : Location) (es : List (Location × Node)) :
    (es.filter (·.1 != l)).lookup l = none := by
  rw [List.lookup_eq_none_iff]
  intro e he
  simp only [List.mem_filter, bne_iff_ne, ne_eq] at he
  simpa using fun h => he.2 h.symm

theorem node?_remove_ne (t : FileTree) {l m : Location} (h : l ≠ m) :
    (t.remove m).node? l = t.node? l := by
  simp [node?, remove, lookup_filter_ne h]

@[simp] theorem node?_remove_self (t : FileTree) {l : Location} (h : l ≠ []) :
    (t.remove l).node? l = none := by
  simp [node?, remove, h, lookup_filter_self]

theorem node?_put_ne (t : FileTree) {l m : Location} (h : l ≠ m) (n : Node) :
    (t.put m n).node? l = t.node? l := by
  have hl : (l == m) = false := by simpa using h
  simp [node?, put, remove, List.lookup_cons, hl, lookup_filter_ne h]

end FileTree

end ScriptLauncher.Host
