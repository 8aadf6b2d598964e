/-! Path texts: a root and the names below it. Repeated slashes and the name `.`
say nothing and are dropped; `..` is kept, since it may follow a link. -/

namespace ScriptLauncher

/-- Two leading slashes are a root of their own; three or more are one. -/
inductive Root
  | relative
  | single
  | double
  deriving DecidableEq, Repr

def Root.text : Root → String
  | .relative => ""
  | .single => "/"
  | .double => "//"

def Root.ofChars : List Char → Root
  | '/' :: '/' :: '/' :: _ => .single
  | '/' :: '/' :: _ => .double
  | '/' :: _ => .single
  | _ => .relative

structure Path where
  root : Root
  parts : List String
  deriving DecidableEq, Repr

namespace Path

/-- The pieces between slashes, empty ones among them. -/
def pieces : List Char → List (List Char)
  | [] => [[]]
  | c :: s =>
    if c = '/' then [] :: pieces s
    else match pieces s with
      | [] => [[c]]
      | p :: ps => (c :: p) :: ps

theorem pieces_ne_nil (s : List Char) : pieces s ≠ [] := by
  cases s with
  | nil => simp [pieces]
  | cons c s =>
    simp only [pieces]
    split
    · simp
    · split <;> simp

theorem pieces_of_not_mem {s : List Char} (h : '/' ∉ s) : pieces s = [s] := by
  induction s with
  | nil => rfl
  | cons c s ih =>
    simp only [List.mem_cons, not_or] at h
    simp [pieces, Ne.symm h.1, ih h.2]

def isName (piece : List Char) : Bool := piece != [] && piece != ['.']

def names (s : List Char) : List String := ((pieces s).filter isName).map String.ofList

def ofText (s : String) : Path := ⟨Root.ofChars s.toList, names s.toList⟩

def text (p : Path) : String :=
  match p.root, p.parts with
  | .relative, [] => "."
  | root, parts => root.text ++ "/".intercalate parts

def isAbsolute (p : Path) : Bool := p.root != .relative

/-- The last name; empty where there is none. -/
def name (p : Path) : String := p.parts.getLastD ""

/-- What is named on the right, seen from the left; an absolute path is itself. -/
def join (p q : Path) : Path := if q.isAbsolute then q else ⟨p.root, p.parts ++ q.parts⟩

def parent (p : Path) : Path := ⟨p.root, p.parts.dropLast⟩

/-- The path with a text added to its last name, if it has one. -/
def addSuffix? (p : Path) (suffix : String) : Option Path :=
  if p.parts.isEmpty then none
  else some ⟨p.root, p.parts.dropLast ++ [p.name ++ suffix]⟩

@[simp] theorem name_mk (root : Root) (parts : List String) (n : String) :
    (Path.mk root (parts ++ [n])).name = n := by
  simp [name]

@[simp] theorem parent_mk (root : Root) (parts : List String) (n : String) :
    (Path.mk root (parts ++ [n])).parent = ⟨root, parts⟩ := by
  simp [parent]

theorem join_relative {p q : Path} (h : q.isAbsolute = false) :
    p.join q = ⟨p.root, p.parts ++ q.parts⟩ := by
  simp [join, h]

theorem join_absolute {p q : Path} (h : q.isAbsolute = true) : p.join q = q := by
  simp [join, h]

end Path

end ScriptLauncher
