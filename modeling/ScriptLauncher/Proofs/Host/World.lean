import ScriptLauncher.Host.World
import ScriptLauncher.Proofs.Host.FileTree
import ScriptLauncher.Proofs.Path

/-! Paths in a world: whether something stands at a path, and what creating, removing and
running a child do to it. -/

namespace ScriptLauncher.Host

namespace FileTree

/-- What a child leaves of a thing that was there: nothing, or the thing, of which only a file
may have another content. -/
inductive Survives (t : FileTree) (m : Location) : Node → Prop
  | gone : t.node? m = none → Survives t m n
  | same : t.node? m = some n → Survives t m n
  | rewritten : t.node? m = some (.file content') → Survives t m (.file content)

def Extends (u t : FileTree) : Prop := ∀ m n, t.node? m = some n → u.node? m = some n

theorem Extends.refl (t : FileTree) : Extends t t := fun _ _ h => h

theorem Extends.trans {s t u : FileTree} (h : Extends s t) (h' : Extends t u) : Extends s u :=
  fun m n hm => h m n (h' m n hm)

theorem Survives.of_extends {t u : FileTree} {m : Location} {n : Node} (h : Survives t m n)
    (hu : Extends t u) : Survives u m n := by
  cases hm : u.node? m with
  | none => exact .gone hm
  | some n' =>
    have ht := hu m n' hm
    cases h with
    | gone h => cases h.symm.trans ht
    | same h => exact .same (hm.trans (ht.symm.trans h))
    | rewritten h => exact .rewritten (hm.trans (ht.symm.trans h))

variable {t u : FileTree} {follow : Bool} {home : Location} {p : Path} {place : Place}

theorem find_eq_ok_iff : t.find follow home p = .ok place ↔
    ¬ longestPath < (Utf8.encode p.text).length ∧
      Leads t follow longestChain (if p.isAbsolute then [] else home) p.parts place := by
  unfold find
  split
  · next h => simp [h]
  · next h => rw [walk_eq_ok_iff]; simp [h]

theorem node?_of_find (h : t.find follow home p = .ok place) :
    t.node? place.location = place.node? :=
  (find_eq_ok_iff.1 h).2.node?_location

theorem ne_nil_of_node? {l : Location} (h : t.node? l ≠ some .directory) : l ≠ [] := by
  rintro rfl
  exact h (node?_root t)

theorem node?_remove (t : FileTree) {l : Location} (hl : l ≠ []) (m : Location) :
    (t.remove l).node? m = if m = l then none else t.node? m := by
  split
  · next h => rw [h, node?_remove_self t hl]
  · next h => exact node?_remove_ne t h

theorem extends_put {l : Location} (hl : t.node? l = none) (n : Node) :
    Extends (t.put l n) t := by
  intro m n' hm
  have hne : m ≠ l := by
    rintro rfl
    cases hl.symm.trans hm
  rw [node?_put_ne t hne, hm]

/-- Putting a file somewhere makes no passage. -/
theorem passage_of_put {l m : Location} {n : Node} {content : Bytes}
    (h : (t.put l (.file content)).node? m = some n) (hn : n.isPassage = true) :
    t.node? m = some n := by
  by_cases hm : m = l
  · subst hm
    by_cases hroot : m = []
    · subst hroot
      exact (node?_root t).trans ((node?_root _).symm.trans h)
    · rw [node?_put_self t hroot] at h
      cases h
      cases hn
  · rwa [node?_put_ne t hm] at h

theorem extends_remove {l : Location} (hl : l ≠ []) : Extends t (t.remove l) := by
  intro m n hm
  rw [node?_remove t hl] at hm
  split at hm
  · cases hm
  · exact hm

/-- Removing what was just put where nothing stood undoes it. -/
theorem remove_put {l : Location} (hl : l ≠ []) (h : t.node? l = none) (n : Node) :
    (t.put l n).remove l = t := by
  have hnone : t.entries.lookup l = none := by simpa [node?, hl] using h
  rw [List.lookup_eq_none_iff] at hnone
  have hfilter : t.entries.filter (·.1 != l) = t.entries := by
    refine List.filter_eq_self.2 fun e he => bne_iff_ne.2 fun heq => ?_
    exact absurd heq.symm (bne_iff_ne.1 (hnone e he))
  simp [put, remove, hfilter]

theorem Extends.find {l : Location} {n : Node} (h : Extends u t)
    (hfind : t.find follow home p = .ok (.taken l n)) :
    u.find follow home p = .ok (.taken l n) := by
  obtain ⟨hshort, hleads⟩ := find_eq_ok_iff.1 hfind
  refine find_eq_ok_iff.2 ⟨hshort, ?_⟩
  exact hleads.taken_of_passages (fun m n hm _ => h m n hm) (h l n hleads.node?_location)
    fun _ => rfl

theorem find_put {l : Location} {n : Node} (h : t.find false home p = .ok (.free l))
    (hn : n.isPassage = false) : (t.put l n).find false home p = .ok (.taken l n) := by
  have hfree : t.node? l = none := node?_of_find h
  have hl : l ≠ [] := ne_nil_of_node? (t := t) (by simp [hfree])
  obtain ⟨hshort, hleads⟩ := find_eq_ok_iff.1 h
  refine find_eq_ok_iff.2 ⟨hshort, ?_⟩
  exact hleads.taken_of_passages (fun m n' hm _ => extends_put hfree n m n' hm)
    (node?_put_self t hl n) fun hp => by cases hp.symm.trans hn

/-- The last name of a path is found in the directory to which the path before it leads. -/
theorem find_parent {root : Root} {init : List String} {last : String} (hne : last ≠ "")
    (hdot : last ≠ ".") (hup : last ≠ "..")
    (h : t.find false home ⟨root, init ++ [last]⟩ = .ok place) :
    ∃ m, t.find true home ⟨root, init⟩ = .ok (.taken m .directory) ∧
      place.location = m ++ [last] := by
  obtain ⟨hshort, hleads⟩ := find_eq_ok_iff.1 h
  obtain ⟨m, hm, hlocation⟩ := hleads.parent hdot hup
  refine ⟨m, find_eq_ok_iff.2 ⟨fun hlong => hshort ?_, hm⟩, hlocation⟩
  exact Nat.lt_of_lt_of_le hlong (Path.length_text_le root init hne)

end FileTree

namespace World

variable {v w : World} {p : Path} {l : Location} {n : Node}

theorem find_eq_ok_iff {follow : Bool} {place : FileTree.Place} :
    w.find follow p = .ok place ↔ w.tree.find follow w.home p = .ok place := by
  unfold find
  split <;> next h => simp [h]

/-- Whether something stands at a path, be it a link to nowhere. -/
def isPresent (w : World) (p : Path) : Bool :=
  match w.find false p with
  | .ok (.taken ..) => true
  | _ => false

theorem isPresent_iff :
    w.isPresent p = true ↔ ∃ l n, w.tree.find false w.home p = .ok (.taken l n) := by
  simp only [← find_eq_ok_iff]
  unfold isPresent
  split
  · next l n h => simp [h]
  · next h => simpa using fun l n hf => h l n hf

theorem isPresent_mono (hhome : v.home = w.home) (h : FileTree.Extends w.tree v.tree)
    (hp : v.isPresent p = true) : w.isPresent p = true := by
  obtain ⟨l, n, hfind⟩ := isPresent_iff.1 hp
  exact isPresent_iff.2 ⟨l, n, hhome ▸ h.find hfind⟩

/-- A path leads to a file with some content, whether or not a link at its end is followed. -/
def Holds (w : World) (p : Path) (l : Location) (content : Bytes) : Prop :=
  ∀ follow, w.tree.find follow w.home p = .ok (.taken l (.file content))

theorem holds_of_find {content : Bytes}
    (h : w.tree.find false w.home p = .ok (.taken l (.file content))) : w.Holds p l content := by
  intro follow
  cases follow with
  | false => exact h
  | true =>
    obtain ⟨hshort, hleads⟩ := FileTree.find_eq_ok_iff.1 h
    exact FileTree.find_eq_ok_iff.2 ⟨hshort, hleads.followed fun target => nofun⟩

theorem Holds.node? {content : Bytes} (h : w.Holds p l content) :
    w.tree.node? l = some (.file content) :=
  FileTree.node?_of_find (h false)

theorem Holds.mono {content : Bytes} (h : w.Holds p l content) (hhome : v.home = w.home)
    (hext : FileTree.Extends v.tree w.tree) : v.Holds p l content :=
  fun follow => hhome ▸ hext.find (h follow)

theorem isPresent_congr (hhome : v.home = w.home) (htree : v.tree = w.tree) :
    v.isPresent p = w.isPresent p := by
  rw [Bool.eq_iff_iff, isPresent_iff, isPresent_iff, hhome, htree]

theorem guarded_eq_ok_iff {α : Type} {ready : List (String × Fault)} {ask : Except Fault α} {a : α} :
    guarded ready p ask = .ok a ↔
      ready.lookup p.text = none ∧ holdsNull p.text = false ∧ ask = .ok a := by
  unfold guarded
  split
  · next h => simp [h]
  · next h => cases hn : holdsNull p.text <;> simp [h]

theorem vacancy_eq_ok_iff : w.vacancy p = .ok l ↔
    w.faults.create.lookup p.text = none ∧ holdsNull p.text = false ∧
      w.tree.find false w.home p = .ok (.free l) := by
  rw [vacancy, guarded_eq_ok_iff, ← find_eq_ok_iff]
  cases w.find false p with
  | error f => simp [bind, Except.bind]
  | ok place =>
    cases place <;>
      simp [bind, Except.bind, pure, Except.pure, throw, throwThe, MonadExceptOf.throw]

theorem removable_eq_some_iff : w.removable p = .ok (some l) ↔
    w.faults.unlink.lookup p.text = none ∧ holdsNull p.text = false ∧
      ∃ n, w.tree.find false w.home p = .ok (.taken l n) ∧ n ≠ .directory := by
  rw [removable, guarded_eq_ok_iff]
  cases w.tree.find false w.home p with
  | error c => cases c <;> simp [throw, throwThe, MonadExceptOf.throw, pure, Except.pure]
  | ok place =>
    cases place with
    | free m => simp [pure, Except.pure]
    | taken m n =>
      cases n <;>
        simp [throw, throwThe, MonadExceptOf.throw, pure, Except.pure, and_assoc]

theorem isPresent_of_removable_none (h : w.removable p = .ok none) : w.isPresent p = false := by
  rw [removable, guarded_eq_ok_iff] at h
  obtain ⟨-, -, h⟩ := h
  rw [Bool.eq_false_iff, Ne, isPresent_iff]
  rintro ⟨l, n, hfind⟩
  rw [hfind] at h
  cases n <;> cases h

theorem ne_nil_of_removable (h : w.removable p = .ok (some l)) : l ≠ [] := by
  obtain ⟨-, -, n, hfind, hn⟩ := removable_eq_some_iff.1 h
  refine FileTree.ne_nil_of_node? (t := w.tree) fun hdir => hn ?_
  exact Option.some.inj ((FileTree.node?_of_find hfind).symm.trans hdir)

theorem not_isPresent_remove (h : w.removable p = .ok (some l)) :
    (w.withTree (w.tree.remove l)).isPresent p = false := by
  have hl := ne_nil_of_removable h
  obtain ⟨-, -, n, hfind, -⟩ := removable_eq_some_iff.1 h
  rw [Bool.eq_false_iff, Ne, isPresent_iff]
  rintro ⟨m, n', hfind'⟩
  have hsame := hfind.symm.trans ((FileTree.extends_remove hl).find hfind')
  cases hsame
  have hnode := FileTree.node?_of_find hfind'
  rw [FileTree.Place.location, withTree, FileTree.node?_remove_self w.tree hl] at hnode
  cases hnode

/-- Removing what is no passage leaves all that stands elsewhere within reach. -/
theorem isPresent_remove_of_ne (hl : l ≠ [])
    (hleaf : ∀ n, w.tree.node? l = some n → n.isPassage = false)
    (hne : ∀ m n, w.tree.find false w.home p = .ok (.taken m n) → m ≠ l)
    (h : w.isPresent p = true) : (w.withTree (w.tree.remove l)).isPresent p = true := by
  obtain ⟨m, n, hfind⟩ := isPresent_iff.1 h
  obtain ⟨hshort, hleads⟩ := FileTree.find_eq_ok_iff.1 hfind
  have hkeep : ∀ m n, m ≠ l → w.tree.node? m = some n →
      (w.tree.remove l).node? m = some n := by
    intro m n hm hn
    rw [FileTree.node?_remove_ne _ hm, hn]
  refine isPresent_iff.2 ⟨m, n, FileTree.find_eq_ok_iff.2 ⟨hshort, ?_⟩⟩
  refine hleads.taken_of_passages (fun m' n' hn hpassage => ?_)
    (hkeep m n (hne m n hfind) hleads.node?_location) fun _ => rfl
  refine hkeep m' n' ?_ hn
  rintro rfl
  cases hpassage.symm.trans (hleaf n' hn)

theorem survives_leave {m : Location} (path : String) (product : Product)
    (h : w.tree.node? m = some n) : FileTree.Survives (w.leave path product).tree m n := by
  unfold leave
  cases product with
  | file =>
    dsimp only
    split
    · next l hfind =>
      have hfree : w.tree.node? l = none := FileTree.node?_of_find (find_eq_ok_iff.1 hfind)
      exact .same (FileTree.extends_put hfree _ m n h)
    · next l content hfind =>
      have hfile : w.tree.node? l = some (.file content) :=
        FileTree.node?_of_find (find_eq_ok_iff.1 hfind)
      have hl : l ≠ [] := FileTree.ne_nil_of_node? (t := w.tree) (by simp [hfile])
      by_cases hm : m = l
      · subst hm
        cases hfile.symm.trans h
        exact .rewritten (FileTree.node?_put_self _ hl _)
      · exact .same ((FileTree.node?_put_ne _ hm _).trans h)
    · exact .same h
  | directory =>
    dsimp only
    split
    · next l hfind =>
      have hfree : w.tree.node? l = none := FileTree.node?_of_find (find_eq_ok_iff.1 hfind)
      exact .same (FileTree.extends_put hfree _ m n h)
    · exact .same h

theorem extends_drop (w : World) (path : String) : FileTree.Extends w.tree (w.drop path).tree := by
  unfold drop
  split
  · exact .refl _
  · next l n hdir hfind =>
    refine FileTree.extends_remove (FileTree.ne_nil_of_node? (t := w.tree) fun h => ?_)
    have hn := (FileTree.node?_of_find (find_eq_ok_iff.1 hfind)).symm.trans h
    exact hdir (Option.some.inj hn)
  · exact .refl _

theorem leave_eq (w : World) (path : String) (product : Product) :
    w.leave path product = w.withTree (w.leave path product).tree := by
  unfold leave
  cases product <;> dsimp only <;> split <;> rfl

theorem drop_eq (w : World) (path : String) : w.drop path = w.withTree (w.drop path).tree := by
  unfold drop
  split <;> rfl

theorem foldl_drop_eq (w : World) (paths : List String) :
    paths.foldl drop w = w.withTree (paths.foldl drop w).tree ∧
      FileTree.Extends w.tree (paths.foldl drop w).tree := by
  induction paths generalizing w with
  | nil => exact ⟨rfl, .refl _⟩
  | cons path paths ih =>
    obtain ⟨heq, hext⟩ := ih (w.drop path)
    refine ⟨?_, (extends_drop w path).trans hext⟩
    rw [List.foldl_cons, heq, drop_eq]
    rfl

theorem run_eq (w : World) (c : Child) (command : List String) :
    w.run c command = w.withTree (w.run c command).tree := by
  unfold run
  cases c.product with
  | none => exact (foldl_drop_eq w _).1
  | some product =>
    cases command[3]? with
    | none => exact (foldl_drop_eq w _).1
    | some path =>
      dsimp only
      rw [(foldl_drop_eq (w.leave path product) _).1, leave_eq]
      rfl

theorem survives_run {m : Location} (c : Child) (command : List String)
    (h : w.tree.node? m = some n) : FileTree.Survives (w.run c command).tree m n := by
  unfold run
  cases c.product with
  | none => exact (FileTree.Survives.same h).of_extends (foldl_drop_eq w _).2
  | some product =>
    cases command[3]? with
    | none => exact (FileTree.Survives.same h).of_extends (foldl_drop_eq w _).2
    | some path =>
      exact (survives_leave path product h).of_extends (foldl_drop_eq (w.leave path product) _).2

variable {last : String} {f : Fault}

/-- An answer that is a fault: one that stands ready, the refusal of a null, or what was asked. -/
theorem guarded_eq_error {α : Type} {ready : List (String × Fault)} {ask : Except Fault α}
    (h : guarded ready p ask = .error f) :
    (∃ g, ready.lookup p.text = some g ∧ f = g.withPath p.text) ∨
      ready.lookup p.text = none ∧ holdsNull p.text = true ∧ f = .embeddedNull ∨
      ready.lookup p.text = none ∧ holdsNull p.text = false ∧ ask = .error f := by
  unfold guarded at h
  split at h
  · next g hg =>
    cases h
    exact .inl ⟨g, hg, rfl⟩
  · next hnone =>
    split at h
    · next hnull =>
      cases h
      exact .inr (.inl ⟨hnone, hnull, rfl⟩)
    · next hplain => exact .inr (.inr ⟨hnone, Bool.eq_false_iff.2 hplain, h⟩)

/-- A path with a null in it gets no answer but a fault. -/
theorem guarded_of_null {α : Type} {ready : List (String × Fault)} {ask : Except Fault α}
    (h : holdsNull p.text = true) : guarded ready p ask =
      .error ((ready.lookup p.text).elim .embeddedNull (·.withPath p.text)) := by
  unfold guarded
  cases ready.lookup p.text with
  | none => exact if_pos h
  | some g => rfl

theorem find_error_ne_exists {follow : Bool} (h : w.find follow p = .error f) :
    f.hasCause .exists = false := by
  unfold find at h
  split at h
  · cases h
  · next c hc =>
    cases h
    rw [Fault.hasCause_ofCause, beq_eq_false_iff_ne]
    rintro rfl
    exact FileTree.find_ne_exists hc

/-- A path to something stands in its directory under its own last name. -/
theorem exists_of_isPresent (hlast : p.parts.getLast? = some last) (hdot : last ≠ ".")
    (hup : last ≠ "..") (h : w.isPresent p = true) :
    ∃ e ∈ w.tree.entries, e.1.getLast? = some last := by
  obtain ⟨l, n, hfind⟩ := isPresent_iff.1 h
  obtain ⟨-, hleads⟩ := FileTree.find_eq_ok_iff.1 hfind
  have hl : l.getLast? = some last := hleads.getLast?_location rfl hlast hdot hup
  have hnode := hleads.node?_location
  rw [FileTree.Place.location, FileTree.Place.node?, FileTree.node?,
    if_neg (by rintro rfl; cases hl)] at hnode
  obtain ⟨before, after, hentries, -⟩ := List.lookup_eq_some_iff.1 hnode
  exact ⟨(l, n), by simp [hentries], hl⟩

theorem isPresent_of_stat (hlast : p.parts.getLast? = some last) (hdot : last ≠ ".")
    (hup : last ≠ "..") (h : w.stat p = .ok n) : w.isPresent p = true := by
  obtain ⟨-, -, h⟩ := guarded_eq_ok_iff.1 h
  obtain ⟨init, hparts⟩ := List.getLast?_eq_some_iff.1 hlast
  cases hfind : w.find true p with
  | error f =>
    rw [hfind] at h
    cases h
  | ok place =>
    rw [hfind] at h
    cases place with
    | free l => cases h
    | taken l m =>
      obtain ⟨hshort, hleads⟩ := FileTree.find_eq_ok_iff.1 (find_eq_ok_iff.1 hfind)
      rw [hparts] at hleads
      obtain ⟨q, hq, htaken⟩ := hleads.unfollowed nofun hdot hup
      cases q with
      | free l => exact absurd rfl htaken
      | taken l n => exact isPresent_iff.2 ⟨l, n, FileTree.find_eq_ok_iff.2 ⟨hshort, hparts ▸ hq⟩⟩

theorem pathExists_eq_true_iff : w.pathExists p = .ok true ↔ ∃ n, w.stat p = .ok n := by
  unfold pathExists lookup?
  cases w.stat p with
  | ok n => simp [Functor.map, Except.map]
  | error f =>
    dsimp only
    split <;> simp [Functor.map, Except.map]

theorem pathExists_of_error (h : w.stat p = .error f) : w.pathExists p =
    if f.hasCause .missing || f.hasCause .notDirectory then .ok false else .error f := by
  unfold pathExists lookup?
  rw [h]
  dsimp only
  split <;> rfl

theorem pathExists_eq_error_iff : w.pathExists p = .error f ↔
    w.stat p = .error f ∧ f.hasCause .missing = false ∧ f.hasCause .notDirectory = false := by
  cases hstat : w.stat p with
  | ok n =>
    rw [pathExists, lookup?, hstat]
    simp [Functor.map, Except.map]
  | error g =>
    rw [pathExists_of_error hstat]
    split
    · next h =>
      rw [Except.error.injEq]
      refine ⟨nofun, ?_⟩
      rintro ⟨rfl, hmissing, hdirectory⟩
      simp [hmissing, hdirectory] at h
    · next h =>
      simp only [Bool.or_eq_true, not_or, Bool.not_eq_true] at h
      rw [Except.error.injEq]
      exact ⟨by rintro rfl; exact ⟨rfl, h⟩, fun h => Except.error.inj h.1⟩

/-- Looking says that something is there only where a fault that stands ready says it. -/
theorem lookup_of_stat (h : w.stat p = .error f) (hf : f.hasCause .exists = true) :
    ∃ g, w.faults.stat.lookup p.text = some g := by
  rcases guarded_eq_error h with ⟨g, hg, -⟩ | ⟨-, -, rfl⟩ | ⟨-, -, hask⟩
  · exact ⟨g, hg⟩
  · cases hf
  · cases hfind : w.find true p with
    | error g =>
      rw [hfind] at hask
      cases hask
      cases hf.symm.trans (find_error_ne_exists hfind)
    | ok place =>
      rw [hfind] at hask
      cases place <;> cases hask
      cases hf

/-- A new file finds something there where a fault that stands ready says so, or where it is. -/
theorem lookup_of_vacancy (h : w.vacancy p = .error f) (hf : f.hasCause .exists = true) :
    (∃ g, w.faults.create.lookup p.text = some g) ∨ w.isPresent p = true := by
  rcases guarded_eq_error h with ⟨g, hg, -⟩ | ⟨-, -, rfl⟩ | ⟨-, -, hask⟩
  · exact .inl ⟨g, hg⟩
  · cases hf
  · cases hfind : w.find false p with
    | error g =>
      rw [hfind] at hask
      cases hask
      cases hf.symm.trans (find_error_ne_exists hfind)
    | ok place =>
      rw [hfind] at hask
      cases place with
      | free l => cases hask
      | taken l n => exact .inr (isPresent_iff.2 ⟨l, n, find_eq_ok_iff.1 hfind⟩)

end World

end ScriptLauncher.Host
