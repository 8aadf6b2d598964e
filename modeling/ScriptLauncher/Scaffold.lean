import ScriptLauncher.Script.Reading

/-! The program around a script: a package clause with its imports, the lines of the
prologue, the head of the entry function, the body, and a closing. Neither the
clause nor the head has a newline of its own, so lines keep their numbers. -/

namespace ScriptLauncher.Scaffold

open Script

/-- A package whose names are all imported, and one of its members, which the program
touches so that the import counts as used. -/
structure Import where
  package : String
  symbol : String
  deriving DecidableEq, Repr

def standardImports : List Import :=
  [⟨"fmt", "Printf"⟩, ⟨"os", "Exit"⟩, ⟨"strings", "Contains"⟩, ⟨"math", "Abs"⟩,
    ⟨"strconv", "Atoi"⟩, ⟨"time", "Sleep"⟩]

def helperImport : Import := ⟨"github.com/daviddengcn/gosl/builtin", "Exec"⟩

def defaultImports : List Import := standardImports ++ [helperImport]

def importsWith (helperPackage : String) (noHelper : Bool) : List Import :=
  if noHelper then standardImports
  else standardImports ++ [⟨helperPackage, helperImport.symbol⟩]

def packageClause : Bytes := Utf8.encode "package main;"

def importText (i : Import) : String := " import . \"" ++ i.package ++ "\";"

def importClause (i : Import) : Bytes := Utf8.encode (importText i)

def header (imports : List Import) : Bytes := packageClause ++ imports.flatMap importClause

def useClause (i : Import) : Bytes := Utf8.encode (" _ = " ++ i.symbol ++ ";")

def entry (imports : List Import) : Bytes :=
  Utf8.encode "func init() \x7b Args = Args[1:];" ++ imports.flatMap useClause
    ++ Utf8.encode " \x7d; func main() \x7b "

def closing : Bytes := Utf8.encode "\n\x7d\n"

def wrap (imports : List Import) (r : Reading) : Bytes :=
  header imports ++ Bytes.unlines r.prologue ++ entry imports ++ r.body.getD [] ++ closing

def assemble (source : Bytes) (imports : List Import) : Bytes := wrap imports (.ofSource source)

@[simp] theorem importsWith_helperImport :
    importsWith helperImport.package false = defaultImports := rfl

end ScriptLauncher.Scaffold
