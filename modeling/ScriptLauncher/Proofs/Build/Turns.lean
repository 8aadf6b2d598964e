import ScriptLauncher.Proofs.Build.Steps

/-! A build in turns. In each turn it asks the file tree for one thing, changes one thing in it,
or has one child run. When nothing else happens in between, the turns come to the whole build. -/

namespace ScriptLauncher.Build

open Host Command Session

/-- A build that is asked for. Alone it needs no spare draws; where others take names at the same
time, it may draw more often than its first look at the world tells. -/
structure Call where
  runner : Runner
  options : Options
  sink : Sink
  source : Bytes
  script : Path
  args : List String
  spare : Nat
  deriving DecidableEq, Repr

/-- What a search for a name goes on with. -/
structure Search where
  code : Bytes
  directory : Path
  draws : Nat
  deriving DecidableEq, Repr

inductive Phase
  | opening
  | choosing (search : Search)
  | creating (search : Search) (file : Path)
  | filling (search : Search) (file : Path) (l : Location)
  | compiling (file : Path)
  | launching (file executable : Path)
  | discarding (file executable : Path) (ended : Except Stop Result)
  | releasing (file : Path) (ended : Except Stop Result)
  | closed (ended : Except Stop Result)

/-- The source that a build has made, until it is done with its files. -/
def Phase.source? : Phase → Option Path
  | .filling _ file _ | .compiling file | .launching file _ | .discarding file .. |
    .releasing file _ => some file
  | .opening | .choosing _ | .creating .. | .closed _ => none

/-- The source that a build has a child work on in its next turn. -/
def Phase.starts? : Phase → Option Path
  | .compiling file | .launching file _ => some file
  | _ => none

/-- How a search ends, put on record. -/
def reported (code : Bytes) (directory : Path) (ended : Except Fault Path) : Session Stop Path := do
  match ended with
  | .ok p =>
    note .debug .build "Wrote temporary source" [("path", p.text), ("bytes", toString code.length)]
    return p
  | .error f =>
    if f.isOfSystem then
      note .warning .build "Failed to write temporary source"
        [("directory", directory.text), ("error", f.message)]
      throw (.unwritable f)
    else throw (.fault f)

theorem writeSource_eq (code : Bytes) (script : String) (directory : Option Path) :
    writeSource code script directory = (do
      let directory := directory.getD (← get).temporary
      reported code directory (← attempt (Artifact.writeSource code script directory))) := rfl

namespace Search

/-- What comes after a search that has ended. -/
def settle (s : Search) (ended : Except Fault Path) (w : World) : Phase × World :=
  match reported s.code s.directory ended w with
  | (.ok file, w) => (.compiling file, w)
  | (.error e, w) => (.closed (.error e), w)

/-- What comes after a try that failed: another one, if its path was taken. -/
def retry (s : Search) (f : Fault) (w : World) : Phase × World :=
  if f.hasCause .exists then (.choosing s, w) else s.settle (.error f) w

def tries (s : Search) (script : String) : Session Fault Path :=
  Artifact.writeWithin s.code script s.directory s.draws

/-- A search from a try on. -/
def trying (s : Search) (script : String) (file : Path) (x : Session Fault Unit) :
    Session Fault Path := do
  match ← attempt x with
  | .ok () => return file
  | .error f => if f.hasCause .exists then s.tries script else throw f

end Search

namespace Call

variable (c : Call)

def build : Session Stop Result :=
  buildAndRun c.runner c.options c.sink c.source c.script c.args

def directory (w : World) : Path := c.options.directory.getD w.temporary

def search (code : Bytes) (w : World) : Search :=
  ⟨code, c.directory w, Artifact.draws w + c.spare⟩

def turn : Phase → World → Phase × World
  | .opening, w =>
    match opened c.options c.sink c.source w with
    | (.ok code, w) => (.choosing (c.search code w), w)
    | (.error e, w) => (.closed (.error e), w)
  | .choosing s, w =>
    match s.draws with
    | 0 => s.settle (.error (.ofCause .exists s.directory.text)) w
    | draws + 1 =>
      let s := { s with draws }
      let file := Artifact.tried c.script.name s.directory w
      let w := (drawToken w).2
      match w.pathExists file with
      | .ok false => (.creating s file, w)
      | .ok true => s.retry (.ofCause .exists file.text) w
      | .error f => s.retry f w
  | .creating s file, w =>
    match create file w with
    | (.ok l, w) => (.filling s file l, w)
    | (.error f, w) => s.retry f w
  | .filling s file l, w =>
    match fill file l s.code w with
    | (.ok (), w) => s.settle (.ok file) w
    | (.error f, w) => s.retry f w
  | .compiling file, w =>
    match Artifact.executable file with
    | .ok executable =>
      match compile c.runner c.options.compiler file executable w with
      | (.ok (), w) => (.launching file executable, w)
      | (.error e, w) => (.releasing file (.error e), w)
    | .error f => (.releasing file (.error (.fault f)), w)
  | .launching file executable, w =>
    let ended := launch c.runner executable c.script c.args w
    (.discarding file executable ended.1, ended.2)
  | .discarding file executable ended, w =>
    let ended := withArtifact c.options.noClean executable (fun w => (ended, w)) w
    (.releasing file ended.1, ended.2)
  | .releasing file ended, w =>
    let ended := withArtifact c.options.noClean file (fun w => (ended, w)) w
    (.closed ended.1, ended.2)
  | .closed ended, w => (.closed ended, w)

/-- A build from its search on. -/
def proceed (s : Search) (search : Session Fault Path) : Session Stop Result := do
  let file ← reported s.code s.directory (← attempt search)
  withArtifact c.options.noClean file (finished c.runner c.options c.script c.args file)

/-- What is left of a build, as one session. -/
def rest : Phase → Session Stop Result
  | .opening => do
    let code ← opened c.options c.sink c.source
    let s := c.search code (← get)
    c.proceed s (s.tries c.script.name)
  | .choosing s => c.proceed s (s.tries c.script.name)
  | .creating s file =>
    c.proceed s (s.trying c.script.name file (do fill file (← create file) s.code))
  | .filling s file l => c.proceed s (s.trying c.script.name file (fill file l s.code))
  | .compiling file =>
    withArtifact c.options.noClean file (finished c.runner c.options c.script c.args file)
  | .launching file executable =>
    withArtifact c.options.noClean file
      (withArtifact c.options.noClean executable (launch c.runner executable c.script c.args))
  | .discarding file executable ended =>
    withArtifact c.options.noClean file
      (withArtifact c.options.noClean executable fun w => (ended, w))
  | .releasing file ended => withArtifact c.options.noClean file fun w => (ended, w)
  | .closed ended => fun w => (ended, w)

end Call

section alone

variable {c : Call} {s : Search} {φ : Phase} {w v : World} {file : Path}

theorem Call.rest_settle {search : Session Fault Path} {ended : Except Fault Path}
    (h : search w = (ended, v)) :
    c.rest (s.settle ended v).1 (s.settle ended v).2 = c.proceed s search w := by
  rw [Call.proceed, attempt_bind, h, bind_apply, Search.settle]
  cases reported s.code s.directory ended v with
  | mk result u => cases result <;> rfl

theorem Search.trying_apply (s : Search) (script : String) (file : Path) (x : Session Fault Unit)
    (w : World) :
    s.trying script file x w = match x w with
      | (.ok (), v) => (.ok file, v)
      | (.error f, v) => if f.hasCause .exists then s.tries script v else (.error f, v) := by
  rw [Search.trying, attempt_bind]
  cases x w with
  | mk result v =>
    cases result with
    | ok => rfl
    | error f =>
      dsimp only
      split <;> rfl

theorem Call.rest_retry {x : Session Fault Unit} {f : Fault} (h : x w = (.error f, v)) :
    c.rest (s.retry f v).1 (s.retry f v).2 = c.proceed s (s.trying c.script.name file x) w := by
  have htrying := s.trying_apply c.script.name file x w
  rw [h] at htrying
  dsimp only at htrying
  rw [Search.retry]
  split
  · next hf =>
    rw [if_pos hf] at htrying
    rw [Call.proceed, attempt_bind, htrying]
    rfl
  · next hf =>
    rw [if_neg hf] at htrying
    exact Call.rest_settle htrying

theorem tries_succ {draws : Nat} (h : s.draws = draws + 1) (script : String) :
    s.tries script w = { s with draws }.trying script (Artifact.tried script s.directory w)
      (Artifact.write s.code (Artifact.tried script s.directory w)) (drawToken w).2 := by
  rw [Search.tries, h, Artifact.writeWithin, bind_apply, Artifact.writeOnce_apply,
    Search.trying_apply]
  generalize Artifact.write s.code (Artifact.tried script s.directory w) (drawToken w).2 = tried
  obtain ⟨result, v⟩ := tried
  cases result with
  | ok => rfl
  | error f => cases hf : f.hasCause .exists <;> simp [hf, Search.tries]

theorem Call.proceed_congr {s' : Search} {search search' : Session Fault Path} {w' : World}
    (hcode : s.code = s'.code) (hdirectory : s.directory = s'.directory)
    (h : search w = search' w') : c.proceed s search w = c.proceed s' search' w' := by
  rw [Call.proceed, Call.proceed, attempt_bind, attempt_bind, hcode, hdirectory, h]

theorem withArtifact_congr {α : Type} {noClean : Bool} {p : Path} {x y : Session Stop α}
    (h : x v = y w) : withArtifact noClean p x v = withArtifact noClean p y w := by
  cases noClean with
  | true => exact h
  | false => simp only [withArtifact_false, ensuring, h]

/-- A turn leaves the rest of the build to do. -/
theorem Call.rest_turn (c : Call) (φ : Phase) (w : World) :
    c.rest (c.turn φ w).1 (c.turn φ w).2 = c.rest φ w := by
  cases φ with
  | opening =>
    rw [Call.turn, Call.rest, bind_apply]
    generalize opened c.options c.sink c.source w = ended
    obtain ⟨result, v⟩ := ended
    cases result with
    | error e => rfl
    | ok code =>
      dsimp only
      rw [bind_apply, get_apply, Call.rest]
  | choosing s =>
    rw [Call.turn, Call.rest]
    cases hdraws : s.draws with
    | zero =>
      refine Call.rest_settle ?_
      rw [Search.tries, hdraws]
      rfl
    | succ draws =>
      refine Eq.trans ?_ (Call.proceed_congr rfl rfl (tries_succ hdraws c.script.name)).symm
      dsimp only
      generalize hfile : Artifact.tried c.script.name s.directory w = file
      cases hexists : (drawToken w).2.pathExists file with
      | error f => exact Call.rest_retry (Artifact.write_of_error hexists)
      | ok present =>
        cases present with
        | true => exact Call.rest_retry (Artifact.write_of_taken hexists)
        | false =>
          refine Call.proceed_congr rfl rfl ?_
          rw [Search.trying_apply, Search.trying_apply, Artifact.write_of_absent hexists]
  | creating s file =>
    rw [Call.turn, Call.rest]
    cases hcreate : create file w with
    | mk result v =>
      cases result with
      | ok l =>
        refine Call.proceed_congr rfl rfl ?_
        rw [Search.trying_apply, Search.trying_apply, bind_of_ok hcreate]
      | error f => exact Call.rest_retry (bind_of_error hcreate)
  | filling s file l =>
    rw [Call.turn, Call.rest]
    cases hfill : fill file l s.code w with
    | mk result v =>
      cases result with
      | ok =>
        refine Call.rest_settle ?_
        rw [Search.trying_apply, hfill]
      | error f => exact Call.rest_retry hfill
  | compiling file =>
    rw [Call.turn, Call.rest]
    cases hexecutable : Artifact.executable file with
    | error f =>
      refine withArtifact_congr ?_
      rw [finished, bind_apply, mapError_apply, ask_apply, hexecutable]
      rfl
    | ok executable =>
      have hfinished := finished_of_executable hexecutable c.runner c.options c.script c.args w
      dsimp only
      cases hcompile : compile c.runner c.options.compiler file executable w with
      | mk result v =>
        cases result with
        | ok => exact withArtifact_congr (hfinished.trans (bind_of_ok hcompile)).symm
        | error e => exact withArtifact_congr (hfinished.trans (bind_of_error hcompile)).symm
  | launching file executable => exact withArtifact_congr (withArtifact_congr rfl)
  | discarding file executable ended => exact withArtifact_congr rfl
  | releasing file ended => rfl
  | closed ended => rfl

end alone

section remains

/-- A world that reads paths, and would place sources, as an earlier one does, and has no tokens in
stock that this one had not. -/
structure Remains (v w : World) : Prop where
  home : v.home = w.home
  temporary : v.temporary = w.temporary
  tokens : v.tokens ⊆ w.tokens

variable {ε δ α β : Type} {u v w : World}

theorem remains_refl (w : World) : Remains w w := ⟨rfl, rfl, List.Subset.refl _⟩

theorem Remains.trans (h : Remains u v) (h' : Remains v w) : Remains u w :=
  ⟨h.home.trans h'.home, h.temporary.trans h'.temporary, List.Subset.trans h.tokens h'.tokens⟩

theorem remains_of_alike (h : v.Alike w) : Remains v w := by
  obtain ⟨records, texts, rfl⟩ := h
  exact ⟨rfl, rfl, List.Subset.refl _⟩

theorem remains_bind {x : Session ε α} {f : α → Session ε β} (hx : Remains (x w).2 w)
    (hf : ∀ a v, Remains (f a v).2 v) : Remains ((x >>= f) w).2 w := by
  rw [bind_apply]
  cases h : x w with
  | mk result v =>
    rw [h] at hx
    cases result with
    | ok a => exact (hf a v).trans hx
    | error e => exact hx

theorem remains_note (level : Level) (component : Component) (message : String)
    (details : List (String × String)) (w : World) :
    Remains (note level component message details w).2 w :=
  remains_of_alike (note_alike level component message details w)

theorem remains_drawToken (w : World) : Remains (drawToken w).2 w := by
  obtain ⟨tree, tokens, drawn, h, -, htokens⟩ := Artifact.follows_drawToken w
  rw [h]
  exact ⟨rfl, rfl, htokens⟩

theorem remains_run (r : Runner) (words : List Value) (label : String) (w : World) :
    Remains (r.run words .nothing label w).2 w := by
  cases hdry : r.dryRun with
  | true =>
    rw [Runner.run_dry hdry]
    exact remains_of_alike (World.tell_alike _ _ _)
  | false =>
    rw [Runner.run_real hdry]
    refine (remains_of_alike (spawn_apply _ w).1).trans ?_
    obtain ⟨tree, children, h, -⟩ := start_eq (plainStart (words.map Value.display)) w
    rw [h]
    exact ⟨rfl, rfl, List.Subset.refl _⟩

theorem remains_compile (r : Runner) (compiler : String) (source executable : Path) (w : World) :
    Remains (compile r compiler source executable w).2 w := by
  rw [compile]
  refine remains_bind (remains_run r _ _ w) fun result v => ?_
  cases result.failure? with
  | none => exact remains_refl v
  | some failure => exact remains_note _ _ _ _ v

theorem remains_launch (r : Runner) (executable script : Path) (args : List String) (w : World) :
    Remains (launch r executable script args w).2 w := by
  rw [launch]
  refine remains_bind (remains_of_alike (scriptWord_apply script w).1.alike) fun word v => ?_
  refine remains_bind (remains_run r _ _ v) fun result v => ?_
  dsimp only
  split
  · exact remains_note _ _ _ _ v
  · cases result.failure? with
    | none => exact remains_refl v
    | some failure => exact remains_note _ _ _ _ v

end remains

section moves

/-- What removing a file comes to in the tree. -/
def Removes (w : World) (p : Path) (tree : FileTree) : Prop :=
  tree = w.tree ∨ ∃ l, w.removable p = .ok (some l) ∧ tree = w.tree.remove l

/-- What a turn may come to: the phase after it, and the tree. Of what children leave nothing is
said here. -/
inductive Moves (c : Call) (w : World) : Phase → Phase → FileTree → Prop
  | opened : s.directory = c.directory w → Moves c w .opening (.choosing s) w.tree
  | taken : s.draws = draws + 1 → Moves c w (.choosing s) (.choosing { s with draws }) w.tree
  | chosen : s.draws = draws + 1 → Moves c w (.choosing s)
      (.creating { s with draws } (Artifact.tried c.script.name s.directory w)) w.tree
  | created : w.vacancy file = .ok l →
      Moves c w (.creating s file) (.filling s file l) (w.tree.put l (.file []))
  | uncreated : Moves c w (.creating s file) (.choosing s) w.tree
  | filled : Moves c w (.filling s file l) (.compiling file) (w.tree.put l (.file s.code))
  | unfilled : Moves c w (.filling s file l) (.choosing s) w.tree
  | compiled : Artifact.executable file = .ok executable →
      Moves c w (.compiling file) (.launching file executable) tree
  | uncompiled : Moves c w (.compiling file) (.releasing file ended) tree
  | launched : Moves c w (.launching file executable) (.discarding file executable ended) tree
  | discarded : Removes w executable tree →
      Moves c w (.discarding file executable ended) (.releasing file ended') tree
  | released : Removes w file tree → Moves c w (.releasing file ended) (.closed ended') tree
  | closed : Moves c w φ (.closed ended) w.tree

variable {c : Call} {s : Search} {φ : Phase} {u v w : World} {file : Path}

theorem settle_ok (s : Search) (file : Path) (w : World) :
    ∃ v, s.settle (.ok file) w = (.compiling file, v) ∧ v.Noted w :=
  ⟨_, rfl, note_noted _ _ _ _ w⟩

theorem settle_error (s : Search) (f : Fault) (w : World) :
    ∃ ended v, s.settle (.error f) w = (.closed ended, v) ∧ v.Noted w := by
  rw [Search.settle, reported]
  cases f.isOfSystem with
  | true =>
    exact ⟨.error (.unwritable f), (note .warning .build "Failed to write temporary source"
      [("directory", s.directory.text), ("error", f.message)] w).2, rfl, note_noted _ _ _ _ w⟩
  | false => exact ⟨_, _, rfl, .refl w⟩

theorem retry_cases (s : Search) (f : Fault) (w : World) :
    s.retry f w = (.choosing s, w) ∨ ∃ ended v, s.retry f w = (.closed ended, v) ∧ v.Noted w := by
  rw [Search.retry]
  split
  · exact .inl rfl
  · exact .inr (settle_error s f w)

/-- A turn in which a try has failed. -/
theorem moves_retry (hagain : Moves c w φ (.choosing s) w.tree) (hv : v.tree = w.tree)
    (hremains : Remains v w) (f : Fault) :
    Moves c w φ (s.retry f v).1 (s.retry f v).2.tree ∧ Remains (s.retry f v).2 w := by
  rcases retry_cases s f v with h | ⟨ended, u, h, hnoted⟩
  · rw [h, hv]
    exact ⟨hagain, hremains⟩
  · obtain ⟨records, rfl⟩ := hnoted
    rw [h]
    exact ⟨hv ▸ .closed, hremains.home, hremains.temporary, hremains.tokens⟩

theorem tree_drawToken (w : World) : (drawToken w).2.tree = w.tree := by
  unfold drawToken
  split <;> rfl

theorem removes_withArtifact (noClean : Bool) (p : Path) (ended : Except Stop Result) (w : World) :
    Removes w p (withArtifact noClean p (fun w => (ended, w)) w).2.tree ∧
      Remains (withArtifact noClean p (fun w => (ended, w)) w).2 w := by
  cases noClean with
  | true => exact ⟨.inl rfl, remains_refl w⟩
  | false =>
    rw [withArtifact_false, ensuring_snd]
    obtain ⟨records, h⟩ := (discard_noted p w).1
    rw [h, unlink_apply]
    cases hr : w.removable p with
    | error f => exact ⟨.inl rfl, rfl, rfl, List.Subset.refl _⟩
    | ok l? =>
      cases l? with
      | none => exact ⟨.inl rfl, rfl, rfl, List.Subset.refl _⟩
      | some l => exact ⟨.inr ⟨l, hr, rfl⟩, rfl, rfl, List.Subset.refl _⟩

theorem moves_turn (c : Call) (φ : Phase) (w : World) :
    Moves c w φ (c.turn φ w).1 (c.turn φ w).2.tree ∧ Remains (c.turn φ w).2 w := by
  cases φ with
  | opening =>
    rw [Call.turn]
    obtain ⟨⟨records, h⟩, -⟩ := opened_texts c.options c.sink c.source w
    cases hopened : opened c.options c.sink c.source w with
    | mk result v =>
      rw [hopened] at h
      subst h
      cases result with
      | ok code => exact ⟨.opened rfl, rfl, rfl, List.Subset.refl _⟩
      | error e => exact ⟨.closed, rfl, rfl, List.Subset.refl _⟩
  | choosing s =>
    rw [Call.turn]
    cases hdraws : s.draws with
    | zero =>
      obtain ⟨ended, v, h, records, rfl⟩ :=
        settle_error s (.ofCause .exists s.directory.text) w
      dsimp only
      rw [h]
      exact ⟨.closed, rfl, rfl, List.Subset.refl _⟩
    | succ draws =>
      have hdrawn := remains_drawToken w
      have htree : (drawToken w).2.tree = w.tree := tree_drawToken w
      dsimp only
      cases (drawToken w).2.pathExists (Artifact.tried c.script.name s.directory w) with
      | error f => exact moves_retry (.taken hdraws) htree hdrawn f
      | ok present =>
        cases present with
        | true => exact moves_retry (.taken hdraws) htree hdrawn _
        | false => exact ⟨htree ▸ .chosen hdraws, hdrawn⟩
  | creating s file =>
    rw [Call.turn]
    cases hvacancy : w.vacancy file with
    | error f =>
      rw [create_of_error hvacancy]
      exact moves_retry .uncreated rfl (remains_refl w) f
    | ok l =>
      rw [create_of_ok hvacancy]
      exact ⟨.created hvacancy, rfl, rfl, List.Subset.refl _⟩
  | filling s file l =>
    rw [Call.turn, fill_apply]
    cases World.guarded w.faults.write file (.ok ()) with
    | error f => exact moves_retry .unfilled rfl (remains_refl w) f
    | ok =>
      obtain ⟨v, h, records, rfl⟩ := settle_ok s file (w.withTree (w.tree.put l (.file s.code)))
      dsimp only
      rw [h]
      exact ⟨.filled, rfl, rfl, List.Subset.refl _⟩
  | compiling file =>
    rw [Call.turn]
    cases hexecutable : Artifact.executable file with
    | error f => exact ⟨.uncompiled, remains_refl w⟩
    | ok executable =>
      have hcompile := remains_compile c.runner c.options.compiler file executable w
      dsimp only
      cases h : compile c.runner c.options.compiler file executable w with
      | mk result v =>
        rw [h] at hcompile
        cases result with
        | ok => exact ⟨.compiled hexecutable, hcompile⟩
        | error e => exact ⟨.uncompiled, hcompile⟩
  | launching file executable =>
    exact ⟨.launched, remains_launch c.runner executable c.script c.args w⟩
  | discarding file executable ended =>
    obtain ⟨hremoves, hremains⟩ := removes_withArtifact c.options.noClean executable ended w
    exact ⟨.discarded hremoves, hremains⟩
  | releasing file ended =>
    obtain ⟨hremoves, hremains⟩ := removes_withArtifact c.options.noClean file ended w
    exact ⟨.released hremoves, hremains⟩
  | closed ended => exact ⟨.closed, remains_refl w⟩

end moves

/-- How many turns a build has before it at most, once its search has begun. -/
def Phase.left : Phase → Nat
  | .choosing s => 3 * s.draws + 5
  | .creating s _ => 3 * s.draws + 7
  | .filling s _ _ => 3 * s.draws + 6
  | .compiling _ => 4
  | .launching .. => 3
  | .discarding .. => 2
  | .releasing .. => 1
  | .opening | .closed _ => 0

theorem Moves.ne_opening {c : Call} {w : World} {φ φ' : Phase} {tree : FileTree}
    (h : Moves c w φ φ' tree) : φ' ≠ .opening := by
  cases h <;> nofun

theorem Moves.left_lt {c : Call} {w : World} {φ φ' : Phase} {tree : FileTree}
    (h : Moves c w φ φ' tree) (hopening : φ ≠ .opening) (hclosed : ∀ ended, φ ≠ .closed ended) :
    φ'.left < φ.left := by
  cases h with
  | opened => exact absurd rfl hopening
  | taken hdraws | chosen hdraws =>
    simp only [Phase.left, hdraws]
    omega
  | created | uncreated | filled | unfilled =>
    simp only [Phase.left]
    omega
  | compiled | uncompiled | launched | discarded | released => simp [Phase.left]
  | closed =>
    cases φ with
    | opening => exact absurd rfl hopening
    | closed ended => exact absurd rfl (hclosed ended)
    | _ => simp [Phase.left]

namespace Call

variable (c : Call)

/-- Some turns of a build, with nothing in between. -/
def turns : Nat → Phase × World → Phase × World
  | 0, x => x
  | n + 1, x => turns n (c.turn x.1 x.2)

theorem rest_opening (h : c.spare = 0) : c.rest .opening = c.build := by
  funext w
  rw [build, buildAndRun_eq, rest, bind_apply, bind_apply, written, bind_apply]
  cases opened c.options c.sink c.source w with
  | mk result v =>
    cases result with
    | error e => rfl
    | ok code =>
      dsimp only
      rw [writeSource_eq, bind_apply, get_apply]
      dsimp only
      rw [bind_apply, get_apply]
      dsimp only
      rw [proceed, attempt_bind, bind_apply, attempt_bind, search, h]
      rfl

theorem turns_rest {φ : Phase} (hφ : φ ≠ .opening) (w : World) :
    ∃ n, c.turns n (φ, w) = (.closed (c.rest φ w).1, (c.rest φ w).2) := by
  induction hleft : φ.left using Nat.strongRecOn generalizing φ w with
  | ind left ih =>
    subst hleft
    by_cases hclosed : ∃ ended, φ = .closed ended
    · obtain ⟨ended, rfl⟩ := hclosed
      exact ⟨0, rfl⟩
    · have hmoves := (moves_turn c φ w).1
      have hlt := hmoves.left_lt hφ fun ended h => hclosed ⟨ended, h⟩
      obtain ⟨n, hn⟩ := ih _ hlt hmoves.ne_opening (c.turn φ w).2 rfl
      exact ⟨n + 1, hn.trans (by rw [rest_turn])⟩

/-- The turns of a build with nothing in between come to the whole build. -/
theorem turns_alone (h : c.spare = 0) (w : World) :
    ∃ n, c.turns n (.opening, w) = (.closed (c.build w).1, (c.build w).2) := by
  have hrest : c.rest (c.turn .opening w).1 (c.turn .opening w).2 = c.build w := by
    rw [rest_turn, rest_opening c h]
  obtain ⟨n, hn⟩ := c.turns_rest (moves_turn c .opening w).1.ne_opening (c.turn .opening w).2
  exact ⟨n + 1, hn.trans (by rw [hrest])⟩

end Call

end ScriptLauncher.Build
