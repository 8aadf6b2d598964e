import ScriptLauncher.Number.Decimal
import ScriptLauncher.Path
import ScriptLauncher.Text.Quoted

/-! Values that can stand as a word of a command, and their two texts: the display
of a value, and the literal that shows its kind as well. -/

namespace ScriptLauncher

inductive Value
  | text : String → Value
  | int : Int → Value
  | bool : Bool → Value
  | none : Value
  | float : Binary64 → Value
  | path : Path → Value
  | bytes : Bytes → Value
  | list : List Value → Value
  | tuple : List Value → Value
  | dict : List (Value × Value) → Value
  deriving Repr

namespace Value

/-- The name of a value's kind, as error messages give it. -/
def kindName : Value → String
  | .text _ => "str"
  | .int _ => "int"
  | .bool _ => "bool"
  | .none => "NoneType"
  | .float _ => "float"
  | .path _ => "PosixPath"
  | .bytes _ => "bytes"
  | .list _ => "list"
  | .tuple _ => "tuple"
  | .dict _ => "dict"

mutual

def literal : Value → String
  | .text s => Text.quote s
  | .int n => toString n
  | .bool b => if b then "True" else "False"
  | .none => "None"
  | .float x => x.text
  | .path p => "PosixPath(" ++ Text.quote p.text ++ ")"
  | .bytes s => Text.quoteBytes s
  | .list vs => "[" ++ ", ".intercalate (literals vs) ++ "]"
  | .tuple [v] => "(" ++ literal v ++ ",)"
  | .tuple vs => "(" ++ ", ".intercalate (literals vs) ++ ")"
  | .dict kvs => "\x7b" ++ ", ".intercalate (entryLiterals kvs) ++ "\x7d"

def literals : List Value → List String
  | [] => []
  | v :: vs => literal v :: literals vs

def entryLiterals : List (Value × Value) → List String
  | [] => []
  | (k, v) :: kvs => (literal k ++ ": " ++ literal v) :: entryLiterals kvs

end

/-- The display: a text and a path as they are, and any other value as its literal. -/
def display : Value → String
  | .text s => s
  | .path p => p.text
  | v => v.literal

def number? : Value → Option (Int ⊕ Binary64)
  | .int n => some (.inl n)
  | .bool b => some (.inl (if b then 1 else 0))
  | .float x => some (.inr x)
  | _ => Option.none

def sameNumber : Int ⊕ Binary64 → Int ⊕ Binary64 → Bool
  | .inl m, .inl n => m == n
  | .inl n, .inr x | .inr x, .inl n => x.toInt? == some n
  | .inr x, .inr y => x.same y

mutual

/-- Whether two values are one key: numbers of equal value are, whatever their kind. -/
def sameKey (v w : Value) : Bool :=
  match v, w with
  | .text s, .text t => s == t
  | .none, .none => true
  | .path p, .path q => p == q
  | .bytes s, .bytes t => s == t
  | .tuple vs, .tuple ws => sameKeys vs ws
  | v, w => match v.number?, w.number? with
    | some m, some n => sameNumber m n
    | _, _ => false

def sameKeys : List Value → List Value → Bool
  | [], [] => true
  | v :: vs, w :: ws => sameKey v w && sameKeys vs ws
  | _, _ => false

end

/-- Puts an entry: a key that is there keeps its place and its form, with the new value. -/
def putEntry (k v : Value) : List (Value × Value) → List (Value × Value)
  | [] => [(k, v)]
  | (l, w) :: kvs => if sameKey l k then (l, v) :: kvs else (l, w) :: putEntry k v kvs

def ofEntries (kvs : List (Value × Value)) : Value :=
  .dict (kvs.foldl (fun entries (k, v) => putEntry k v entries) [])

end Value

end ScriptLauncher
