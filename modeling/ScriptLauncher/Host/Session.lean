import ScriptLauncher.Host.World

/-! Sessions: steps that change a world, and that may stop with an error. What a step
did before it stopped stays done. -/

namespace ScriptLauncher.Host

abbrev Session (ε : Type) := ExceptT ε (StateM World)

namespace Session

/-- How a step ends, as a value: it may end with an error, but does not stop with one. -/
def attempt (x : Session ε α) : Session δ (Except ε α) := fun w =>
  let r := x w
  (.ok r.1, r.2)

def mapError (f : ε → δ) (x : Session ε α) : Session δ α := fun w =>
  let r := x w
  (r.1.mapError f, r.2)

/-- Does a last step however the first one ended. An error of the last step wins. -/
def ensuring (x : Session ε α) (last : Session ε Unit) : Session ε α := fun w =>
  let r := x w
  match last r.2 with
  | (.ok (), w) => (r.1, w)
  | (.error e, w) => (.error e, w)

@[simp] theorem attempt_apply (x : Session ε α) (w : World) :
    (attempt x : Session δ (Except ε α)) w = (.ok (x w).1, (x w).2) := rfl

@[simp] theorem mapError_apply (f : ε → δ) (x : Session ε α) (w : World) :
    mapError f x w = ((x w).1.mapError f, (x w).2) := rfl

theorem ensuring_of_ok {x : Session ε α} {last : Session ε Unit} {w w' : World}
    (h : last (x w).2 = (.ok (), w')) : ensuring x last w = ((x w).1, w') := by
  simp only [ensuring, h]

theorem ensuring_snd (x : Session ε α) (last : Session ε Unit) (w : World) :
    (ensuring x last w).2 = (last (x w).2).2 := by
  simp only [ensuring]
  split <;> next h => rw [h]

/-- Keeps a record, unless its level lies below the threshold. -/
def note (level : Level) (component : Component) (message : String)
    (details : List (String × String)) : StateM World Unit :=
  modify fun w =>
    if level.passes w.threshold then
      { w with records := w.records ++ [⟨level, component, detailed message details⟩] }
    else w

def say (c : Channel) (s : String) : StateM World Unit :=
  modify fun w => { w with texts := w.texts ++ [(c, s)] }

/-- A stream to write to: a channel, or one on which every write fails. -/
inductive Sink
  | channel (c : Channel)
  | failing (f : Fault)
  deriving DecidableEq, Repr

def Sink.write (s : String) : Sink → Session Fault Unit
  | .channel c => say c s
  | .failing f => throw f

/-- The token of a number: its hexadecimal digits, eight at least. -/
def numberedToken (n : Nat) : String := String.ofList (Text.hex 8 n)

/-- The next token: the ones in stock come first, and then the numbers of the draws. -/
def drawToken : StateM World String := fun w =>
  match w.tokens with
  | [] => (numberedToken w.drawn, { w with drawn := w.drawn + 1 })
  | token :: tokens => (token, { w with tokens, drawn := w.drawn + 1 })

def ask (question : World → Except Fault α) : Session Fault α := fun w => (question w, w)

@[simp] theorem ask_apply (question : World → Except Fault α) (w : World) :
    ask question w = (question w, w) := rfl

def create (p : Path) : Session Fault Location := do
  let l ← ask (·.vacancy p)
  modify fun w => w.withTree (w.tree.put l (.file []))
  return l

def fill (p : Path) (l : Location) (content : Bytes) : Session Fault Unit := do
  ask fun w => World.guarded w.faults.write p (.ok ())
  modify fun w => w.withTree (w.tree.put l (.file content))

/-- Removes a file. One that is not there, or that the system says is missing, counts as removed. -/
def unlink (p : Path) : Session Fault Unit := do
  match ← attempt (ask (·.removable p)) with
  | .ok (some l) => modify fun w => w.withTree (w.tree.remove l)
  | .ok none => return
  | .error f => if f.hasCause .missing then return else throw f

/-- Attempts to start a command. A word with a null in it starts nothing; otherwise the
next child takes its turn, an idle one if none is left. -/
def start (s : Start) : Session Fault Child := fun w =>
  let w := { w with starts := w.starts ++ [s] }
  if s.command.any World.holdsNull then (.error .embeddedNull, w)
  else
    let child := w.children.headD .idle
    let w := { w with children := w.children.tail }
    match child.failure with
    | some f => (.error (f.withPath (s.command.headD "")), w)
    | none => (.ok child, w.run child s.command)

end Session

end ScriptLauncher.Host
