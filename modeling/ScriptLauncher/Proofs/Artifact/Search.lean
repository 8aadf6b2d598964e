import ScriptLauncher.Proofs.Artifact.Naming
import ScriptLauncher.Proofs.Host.Fault

/-! The search for a free name: which files it makes, what it leaves of them, and which
faults end it. -/

namespace ScriptLauncher.Artifact

open Host Session

def makes (w : World) (p : Path) : Bool :=
  match w.pathExists p, w.vacancy p with
  | .ok false, .ok _ => true
  | _, _ => false

/-- Writing at a path: which files it makes, how it ends, and in which world. -/
inductive Writes (content : Bytes) (p : Path) (w : World) :
    List Path → Except Fault Unit → World → Prop
  | unseen : w.pathExists p = .error f → Writes content p w [] (.error f) w
  | taken : w.pathExists p = .ok true → Writes content p w [] (.error (.ofCause .exists p.text)) w
  | refused : w.pathExists p = .ok false → w.vacancy p = .error f →
      Writes content p w [] (.error f) w
  | unfilled : w.pathExists p = .ok false → w.vacancy p = .ok l →
      World.guarded w.faults.write p (.ok ()) = .error f →
      Writes content p w [p] (.error f) (w.withTree (w.tree.put l (.file [])))
  | filled : w.pathExists p = .ok false → w.vacancy p = .ok l →
      World.guarded w.faults.write p (.ok ()) = .ok () →
      Writes content p w [p] (.ok ()) (w.withTree (w.tree.put l (.file content)))

theorem put_put (t : FileTree) (l : Location) (m n : Node) : (t.put l m).put l n = t.put l n := by
  simp [FileTree.put, FileTree.remove, List.filter_filter]

theorem write_of_error {content : Bytes} {p : Path} {w : World} {f : Fault}
    (h : w.pathExists p = .error f) : write content p w = (.error f, w) := by
  rw [write, bind_apply, ask_apply, h]

theorem write_of_taken {content : Bytes} {p : Path} {w : World} (h : w.pathExists p = .ok true) :
    write content p w = (.error (.ofCause .exists p.text), w) := by
  rw [write, bind_apply, ask_apply, h]
  rfl

theorem write_of_absent {content : Bytes} {p : Path} {w : World} (h : w.pathExists p = .ok false) :
    write content p w = (create p >>= fun l => fill p l content) w := by
  rw [write, bind_apply, ask_apply, h]
  rfl

theorem writes (content : Bytes) (p : Path) (w : World) :
    Writes content p w (if makes w p then [p] else []) (write content p w).1
      (write content p w).2 := by
  cases hexists : w.pathExists p with
  | error f =>
    rw [write_of_error hexists, makes, hexists]
    exact .unseen hexists
  | ok present =>
    cases present with
    | true =>
      rw [write_of_taken hexists, makes, hexists]
      exact .taken hexists
    | false =>
      rw [write_of_absent hexists, makes, hexists]
      cases hvacancy : w.vacancy p with
      | error f =>
        rw [bind_of_error (create_of_error hvacancy)]
        exact .refused hexists hvacancy
      | ok l =>
        rw [bind_of_ok (create_of_ok hvacancy), fill_apply]
        cases hfill : World.guarded w.faults.write p (.ok ()) with
        | error f =>
          simp only [World.withTree, hfill]
          exact .unfilled hexists hvacancy hfill
        | ok =>
          simp only [World.withTree, hfill, put_put]
          exact .filled hexists hvacancy hfill

def tried (script : String) (directory : Path) (w : World) : Path :=
  candidate directory script (drawToken w).1

/-- A search for a free name: the files that it makes, how it ends, and in which world. -/
inductive Searches (content : Bytes) (script : String) (directory : Path) :
    World → List Path → Except Fault Path → World → Prop
  | out : Searches content script directory w [] (.error (.ofCause .exists directory.text)) w
  | found : Writes content (tried script directory w) (drawToken w).2 made (.ok ()) v →
      Searches content script directory w made (.ok (tried script directory w)) v
  | failed : Writes content (tried script directory w) (drawToken w).2 made (.error f) v →
      f.hasCause .exists = false → Searches content script directory w made (.error f) v
  | again : Writes content (tried script directory w) (drawToken w).2 made (.error f) v →
      f.hasCause .exists = true → Searches content script directory v made' ended u →
      Searches content script directory w (made ++ made') ended u

def madeWithin (content : Bytes) (script : String) (directory : Path) : Nat → World → List Path
  | 0, _ => []
  | n + 1, w =>
    let p := tried script directory w
    let made := if makes (drawToken w).2 p then [p] else []
    match write content p (drawToken w).2 with
    | (.ok (), _) => made
    | (.error f, v) =>
      if f.hasCause .exists then made ++ madeWithin content script directory n v else made

def made (content : Bytes) (script : String) (directory : Path) (w : World) : List Path :=
  madeWithin content script directory (draws w) w

theorem writeOnce_apply (content : Bytes) (script : String) (directory : Path) (w : World) :
    writeOnce content script directory w =
      match write content (tried script directory w) (drawToken w).2 with
      | (.ok (), v) => (.ok (some (tried script directory w)), v)
      | (.error f, v) => if f.hasCause .exists then (.ok none, v) else (.error f, v) := by
  rw [writeOnce, bind_apply, lift_apply]
  show (attempt (write content (tried script directory w)) >>= _) (drawToken w).2 = _
  rw [bind_apply, attempt_apply]
  cases write content (tried script directory w) (drawToken w).2 with
  | mk result v =>
    cases result with
    | ok => rfl
    | error f => cases h : f.hasCause .exists <;> simp [h]

theorem searches (content : Bytes) (script : String) (directory : Path) (n : Nat) (w : World) :
    Searches content script directory w (madeWithin content script directory n w)
      (writeWithin content script directory n w).1
      (writeWithin content script directory n w).2 := by
  induction n generalizing w with
  | zero => exact .out
  | succ n ih =>
    have hwrites := writes content (tried script directory w) (drawToken w).2
    rw [writeWithin, madeWithin, bind_apply, writeOnce_apply]
    cases hwrite : write content (tried script directory w) (drawToken w).2 with
    | mk result v =>
      rw [hwrite] at hwrites
      cases result with
      | ok => exact .found hwrites
      | error f =>
        cases h : f.hasCause .exists with
        | false =>
          simp only [h, Bool.false_eq_true, ↓reduceIte]
          exact .failed hwrites h
        | true =>
          simp only [h, ↓reduceIte]
          exact .again hwrites h (ih v)

variable {content : Bytes} {script : String} {directory : Path} {u v w : World} {p s : Path}
  {files : List Path} {result : Except Fault Unit} {ended : Except Fault Path}

/-- A world that a search has come to: it may have more files and fewer tokens. -/
def Follows (v w : World) : Prop :=
  ∃ tree tokens drawn, v = { w with tree, tokens, drawn } ∧ FileTree.Extends tree w.tree ∧
    tokens ⊆ w.tokens

theorem Follows.refl (w : World) : Follows w w :=
  ⟨w.tree, w.tokens, w.drawn, rfl, .refl _, List.Subset.refl _⟩

theorem Follows.trans (h : Follows u v) (h' : Follows v w) : Follows u w := by
  obtain ⟨tree, tokens, drawn, rfl, htree, htokens⟩ := h
  obtain ⟨_, _, _, rfl, htree', htokens'⟩ := h'
  exact ⟨tree, tokens, drawn, rfl, htree.trans htree', fun _ h => htokens' (htokens h)⟩

theorem Follows.isPresent (h : Follows v w) (hp : w.isPresent p = true) : v.isPresent p = true := by
  obtain ⟨tree, tokens, drawn, rfl, htree, -⟩ := h
  exact World.isPresent_mono (v := w) rfl htree hp

theorem follows_drawToken (w : World) : Follows (drawToken w).2 w := by
  unfold drawToken
  split
  · exact ⟨w.tree, w.tokens, _, rfl, .refl _, List.Subset.refl _⟩
  · next token tokens h =>
    refine ⟨w.tree, tokens, _, rfl, .refl _, ?_⟩
    rw [h]
    exact List.subset_cons_self token tokens

theorem follows_put {l : Location} (h : w.vacancy p = .ok l) (n : Node) :
    Follows (w.withTree (w.tree.put l n)) w := by
  obtain ⟨-, -, hfind⟩ := World.vacancy_eq_ok_iff.1 h
  have hfree : w.tree.node? l = none := FileTree.node?_of_find hfind
  exact ⟨_, w.tokens, w.drawn, rfl, FileTree.extends_put hfree n, List.Subset.refl _⟩

theorem Writes.follows (h : Writes content p w files result v) : Follows v w := by
  cases h with
  | unseen | taken | refused => exact .refl _
  | unfilled _ hvacancy => exact follows_put hvacancy _
  | filled _ hvacancy => exact follows_put hvacancy _

theorem Searches.follows (h : Searches content script directory w files ended v) :
    Follows v w := by
  induction h with
  | out => exact .refl _
  | found hwrites => exact hwrites.follows.trans (follows_drawToken _)
  | failed hwrites => exact hwrites.follows.trans (follows_drawToken _)
  | again hwrites _ _ ih => exact ih.trans (hwrites.follows.trans (follows_drawToken _))

theorem find_put {l : Location} (h : w.vacancy p = .ok l) (content : Bytes) :
    (w.tree.put l (.file content)).find false w.home p = .ok (.taken l (.file content)) :=
  FileTree.find_put (World.vacancy_eq_ok_iff.1 h).2.2 rfl

theorem Writes.isPresent (h : Writes content p w files result v) (hs : s ∈ files) :
    s = p ∧ v.isPresent s = true := by
  cases h with
  | unseen | taken | refused => cases hs
  | unfilled _ hvacancy =>
    obtain rfl := List.mem_singleton.1 hs
    exact ⟨rfl, World.isPresent_iff.2 ⟨_, _, find_put hvacancy []⟩⟩
  | filled _ hvacancy =>
    obtain rfl := List.mem_singleton.1 hs
    exact ⟨rfl, World.isPresent_iff.2 ⟨_, _, find_put hvacancy content⟩⟩

/-- What a search makes is named like a source and is there when it ends. -/
theorem Searches.isPresent (h : Searches content script directory w files ended v)
    (hs : s ∈ files) : IsSource s ∧ v.isPresent s = true := by
  induction h with
  | out => cases hs
  | found hwrites | failed hwrites =>
    obtain ⟨rfl, hpresent⟩ := hwrites.isPresent hs
    exact ⟨isSource_candidate _ _ _, hpresent⟩
  | again hwrites _ hrest ih =>
    -- what an earlier try has made is kept by the later ones
    rcases List.mem_append.1 hs with hs | hs
    · obtain ⟨rfl, hpresent⟩ := hwrites.isPresent hs
      refine ⟨isSource_candidate _ _ _, ?_⟩
      exact hrest.follows.isPresent hpresent
    · exact ih hs

/-- A search that succeeds has made a file under the path that it gives, with all of the
content in it. -/
theorem Searches.find (h : Searches content script directory w files (.ok s) v) :
    s ∈ files ∧ ∃ l, v.tree.find false v.home s = .ok (.taken l (.file content)) := by
  generalize hended : Except.ok s = ended at h
  induction h with
  | out | failed => cases hended
  | found hwrites =>
    cases hended
    cases hwrites with
    | filled _ hvacancy => exact ⟨List.mem_singleton_self _, _, find_put hvacancy content⟩
  | again _ _ _ ih =>
    obtain ⟨hs, hfind⟩ := ih hended
    exact ⟨List.mem_append_right _ hs, hfind⟩

theorem Follows.not_isPresent (h : Follows v w) (hp : v.isPresent p = false) :
    w.isPresent p = false :=
  Bool.eq_false_iff.2 fun hpresent => Bool.eq_false_iff.1 hp (h.isPresent hpresent)

theorem Follows.node?_none {l : Location} (h : Follows v w) (hl : v.tree.node? l = none) :
    w.tree.node? l = none := by
  obtain ⟨tree, tokens, drawn, rfl, htree, -⟩ := h
  cases hn : w.tree.node? l with
  | none => rfl
  | some n => cases hl.symm.trans (htree l n hn)

theorem not_isPresent_of_vacancy {l : Location} (h : w.vacancy p = .ok l) :
    w.isPresent p = false := by
  obtain ⟨-, -, hfind⟩ := World.vacancy_eq_ok_iff.1 h
  rw [Bool.eq_false_iff, Ne, World.isPresent_iff]
  rintro ⟨m, n, hfind'⟩
  cases hfind.symm.trans hfind'

/-- A search that succeeds gives a path at which nothing stood before, not even a link, and
whose file stands where nothing stood. -/
theorem Searches.fresh (h : Searches content script directory w files (.ok s) v) :
    w.isPresent s = false ∧ ∃ l, w.tree.node? l = none ∧ v.Holds s l content := by
  generalize hended : Except.ok s = ended at h
  induction h with
  | out | failed => cases hended
  | @found w _ _ hwrites =>
    cases hended
    have hdraw := follows_drawToken w
    cases hwrites with
    | @filled l _ hvacancy =>
      have hfree := FileTree.node?_of_find (World.vacancy_eq_ok_iff.1 hvacancy).2.2
      exact ⟨hdraw.not_isPresent (not_isPresent_of_vacancy hvacancy), l, hdraw.node?_none hfree,
        World.holds_of_find (find_put hvacancy content)⟩
  | @again w _ _ _ _ _ _ hwrites _ _ ih =>
    -- what the later tries find free was free before the earlier ones as well
    have hfollows := hwrites.follows.trans (follows_drawToken w)
    obtain ⟨hpresent, l, hfree, hholds⟩ := ih hended
    exact ⟨hfollows.not_isPresent hpresent, l, hfollows.node?_none hfree, hholds⟩

theorem Searches.plain (h : Searches content script directory w files (.ok s) v) :
    Plain s.text := by
  generalize hended : Except.ok s = ended at h
  induction h with
  | out | failed => cases hended
  | found hwrites =>
    cases hended
    cases hwrites with
    | filled _ hvacancy => exact (World.vacancy_eq_ok_iff.1 hvacancy).2.1
  | again _ _ _ ih => exact ih hended

/-- A search gives one of the candidates. -/
theorem Searches.candidate (h : Searches content script directory w files (.ok s) v) :
    ∃ token, s = Artifact.candidate directory script token := by
  generalize hended : Except.ok s = ended at h
  induction h with
  | out | failed => cases hended
  | found => exact ⟨_, Except.ok.inj hended⟩
  | again _ _ _ ih => exact ih hended

theorem Follows.starts (h : Follows v w) : v.starts = w.starts := by
  obtain ⟨tree, tokens, drawn, rfl, -⟩ := h
  rfl

theorem Follows.homeText (h : Follows v w) : v.homeText = w.homeText := by
  obtain ⟨tree, tokens, drawn, rfl, -⟩ := h
  rfl

theorem Follows.ofSystem (h : Follows v w) (hw : w.OfSystem) : v.OfSystem := by
  obtain ⟨tree, tokens, drawn, rfl, -, -⟩ := h
  exact { hw with }

theorem Follows.plain (h : Follows v w) (hw : ∀ token ∈ w.tokens, Plain token) :
    ∀ token ∈ v.tokens, Plain token := by
  obtain ⟨tree, tokens, drawn, rfl, -, htokens⟩ := h
  exact fun token ht => hw token (htokens ht)

theorem plain_drawToken (hw : ∀ token ∈ w.tokens, Plain token) : Plain (drawToken w).1 := by
  unfold drawToken
  split
  · exact plain_numberedToken w.drawn
  · next token tokens h => exact hw token (h ▸ List.mem_cons_self)

theorem Writes.isOfSystem {f : Fault} (h : Writes content p w files (.error f) v)
    (hw : w.OfSystem) (hp : Plain p.text) : f.isOfSystem = true := by
  cases h with
  | unseen hexists => exact World.isOfSystem_pathExists hw hp hexists
  | taken => rfl
  | refused _ hvacancy => exact World.isOfSystem_vacancy hw hp hvacancy
  | unfilled _ _ hfill => exact World.isOfSystem_guarded hw.write hp (fun hok => by cases hok) hfill

theorem Searches.isOfSystem {f : Fault} (h : Searches content script directory w files (.error f) v)
    (hw : w.OfSystem) (htokens : ∀ token ∈ w.tokens, Plain token)
    (hdirectory : Plain directory.text) (hscript : Plain script) : f.isOfSystem = true := by
  generalize hended : Except.error f = ended at h
  induction h with
  | out =>
    cases hended
    rfl
  | found => cases hended
  | @failed w _ _ _ hwrites =>
    cases hended
    have hdraw := follows_drawToken w
    exact hwrites.isOfSystem (hdraw.ofSystem hw)
      (plain_candidate hdirectory hscript (plain_drawToken htokens))
  | @again w _ _ _ _ _ _ hwrites _ _ ih =>
    have hnext := hwrites.follows.trans (follows_drawToken w)
    exact ih (hnext.ofSystem hw) (hnext.plain htokens) hended

theorem drawToken_eq (w : World) : ∃ tokens drawn, (drawToken w).2 = { w with tokens, drawn } := by
  unfold drawToken
  split <;> exact ⟨_, _, rfl⟩

theorem Writes.tree_of_error {f : Fault} (h : Writes content p w files (.error f) v)
    (hwrite : w.faults.write = []) : v = w := by
  cases h with
  | unseen | taken | refused => rfl
  | unfilled _ hvacancy hfill =>
    rw [hwrite, World.guarded_eq_ok_iff.2 ⟨rfl, (World.vacancy_eq_ok_iff.1 hvacancy).2.1, rfl⟩]
      at hfill
    cases hfill

/-- Where writing does not fail, a search makes the file that it gives, and no other. -/
theorem Searches.tree {ended : Except Fault Path}
    (h : Searches content script directory w files ended v) (hwrite : w.faults.write = []) :
    (∀ f, ended = .error f → v.tree = w.tree) ∧
      ∀ p, ended = .ok p → ∃ l, w.tree.find false w.home p = .ok (.free l) ∧
        v.tree = w.tree.put l (.file content) := by
  induction h with
  | out => exact ⟨fun _ _ => rfl, nofun⟩
  | @found w _ _ hwrites =>
    refine ⟨nofun, fun p hp => ?_⟩
    cases hp
    obtain ⟨tokens, drawn, hdrawn⟩ := drawToken_eq w
    cases hwrites with
    | @filled l _ hvacancy =>
      have hfree := (World.vacancy_eq_ok_iff.1 hvacancy).2.2
      rw [hdrawn] at hfree ⊢
      exact ⟨l, hfree, rfl⟩
  | @failed w _ _ _ hwrites =>
    refine ⟨fun _ _ => ?_, nofun⟩
    obtain ⟨tokens, drawn, hdrawn⟩ := drawToken_eq w
    rw [hwrites.tree_of_error (by rw [hdrawn]; exact hwrite), hdrawn]
  | @again w _ _ _ _ _ _ hwrites _ _ ih =>
    obtain ⟨tokens, drawn, hdrawn⟩ := drawToken_eq w
    rw [hwrites.tree_of_error (by rw [hdrawn]; exact hwrite), hdrawn] at ih
    exact ih hwrite

end ScriptLauncher.Artifact
