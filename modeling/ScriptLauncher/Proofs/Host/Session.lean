import ScriptLauncher.Host.Session
import ScriptLauncher.Proofs.Host.World

/-! What the steps of a session do to a world, one equation for each. -/

namespace ScriptLauncher.Host

/-- Two worlds that differ in their records only. -/
def World.Noted (v w : World) : Prop := ∃ records, v = { w with records }

theorem World.Noted.refl (w : World) : w.Noted w := ⟨w.records, rfl⟩

theorem World.Noted.trans {u v w : World} (h : u.Noted v) (h' : v.Noted w) : u.Noted w := by
  obtain ⟨records, rfl⟩ := h
  obtain ⟨_, rfl⟩ := h'
  exact ⟨records, rfl⟩

/-- Two worlds that differ in their records and texts only: no step can tell them apart. -/
def World.Alike (v w : World) : Prop := ∃ records texts, v = { w with records, texts }

theorem World.Alike.refl (w : World) : w.Alike w := ⟨w.records, w.texts, rfl⟩

theorem World.Alike.trans {u v w : World} (h : u.Alike v) (h' : v.Alike w) : u.Alike w := by
  obtain ⟨records, texts, rfl⟩ := h
  obtain ⟨_, _, rfl⟩ := h'
  exact ⟨records, texts, rfl⟩

theorem World.Alike.symm {v w : World} (h : v.Alike w) : w.Alike v := by
  obtain ⟨records, texts, rfl⟩ := h
  exact ⟨w.records, w.texts, rfl⟩

theorem World.Noted.alike {v w : World} (h : v.Noted w) : v.Alike w := by
  obtain ⟨records, rfl⟩ := h
  exact ⟨records, w.texts, rfl⟩

namespace World

variable {v w : World}

/-- The world after a text has been written. -/
def tell (w : World) (c : Channel) (s : String) : World := { w with texts := w.texts ++ [(c, s)] }

theorem tell_alike (w : World) (c : Channel) (s : String) : (w.tell c s).Alike w :=
  ⟨w.records, _, rfl⟩

theorem Alike.tree (h : v.Alike w) : v.tree = w.tree := by
  obtain ⟨records, texts, rfl⟩ := h
  rfl

theorem Alike.isPresent (h : v.Alike w) (p : Path) : v.isPresent p = w.isPresent p := by
  obtain ⟨records, texts, rfl⟩ := h
  exact isPresent_congr rfl rfl

theorem leave_alike (path : String) (product : Product) (h : v.Alike w) :
    (v.leave path product).Alike (w.leave path product) := by
  obtain ⟨records, texts, rfl⟩ := h
  unfold leave
  cases product with
  | file =>
    simp only [show ({ w with records, texts } : World).find = w.find from rfl]
    split <;> exact ⟨records, texts, rfl⟩
  | directory =>
    simp only [show ({ w with records, texts } : World).find = w.find from rfl]
    split <;> exact ⟨records, texts, rfl⟩

theorem drop_alike (path : String) (h : v.Alike w) : (v.drop path).Alike (w.drop path) := by
  obtain ⟨records, texts, rfl⟩ := h
  unfold drop
  simp only [show ({ w with records, texts } : World).find = w.find from rfl]
  split <;> exact ⟨records, texts, rfl⟩

theorem run_alike (c : Child) (command : List String) (h : v.Alike w) :
    (v.run c command).Alike (w.run c command) := by
  have hdrop : ∀ {v w : World}, v.Alike w →
      (c.removes.foldl drop v).Alike (c.removes.foldl drop w) := by
    intro v w h
    induction c.removes generalizing v w with
    | nil => exact h
    | cons path paths ih => exact ih (drop_alike path h)
  unfold run
  cases c.product with
  | none => exact hdrop h
  | some product =>
    cases command[3]? with
    | none => exact hdrop h
    | some path => exact hdrop (leave_alike path product h)

end World

namespace Session

variable {ε δ α β : Type} {v w : World} {p : Path} {l : Location}

@[simp] theorem pure_apply (a : α) (w : World) : (pure a : Session ε α) w = (.ok a, w) := rfl

@[simp] theorem throw_apply (e : ε) (w : World) :
    (throw e : Session ε α) w = (.error e, w) := rfl

@[simp] theorem lift_apply (x : StateM World α) (w : World) :
    (liftM x : Session ε α) w = (.ok (x w).1, (x w).2) := rfl

@[simp] theorem get_apply (w : World) : (get : Session ε World) w = (.ok w, w) := rfl

@[simp] theorem mapError_ok (f : ε → δ) (a : α) :
    (Except.ok a : Except ε α).mapError f = .ok a := rfl

@[simp] theorem mapError_error (f : ε → δ) (e : ε) :
    (Except.error e : Except ε α).mapError f = .error (f e) := rfl

theorem bind_apply (x : Session ε α) (f : α → Session ε β) (w : World) :
    (x >>= f) w = match x w with
      | (.ok a, w) => f a w
      | (.error e, w) => (.error e, w) := by
  show ExceptT.bind x f w = _
  simp only [ExceptT.bind, ExceptT.mk, bind, StateT.bind]
  cases h : x w with
  | mk a w => cases a <;> rfl

theorem bind_of_ok {x : Session ε α} {f : α → Session ε β} {a : α} (h : x w = (.ok a, v)) :
    (x >>= f) w = f a v := by
  rw [bind_apply, h]

theorem bind_of_error {x : Session ε α} {f : α → Session ε β} {e : ε} (h : x w = (.error e, v)) :
    (x >>= f) w = (.error e, v) := by
  rw [bind_apply, h]

@[simp] theorem lift_bind (x : StateM World α) (f : α → Session ε β) (w : World) :
    ((liftM x : Session ε α) >>= f) w = f (x w).1 (x w).2 := by
  rw [bind_apply, lift_apply]

@[simp] theorem attempt_bind (x : Session δ α) (f : Except δ α → Session ε β) (w : World) :
    (attempt x >>= f) w = f (x w).1 (x w).2 := by
  rw [bind_apply, attempt_apply]

theorem note_noted (level : Level) (component : Component) (message : String)
    (details : List (String × String)) (w : World) :
    (note level component message details w).2.Noted w := by
  show World.Noted (if level.passes w.threshold then _ else w) w
  split
  · exact ⟨_, rfl⟩
  · exact .refl w

theorem note_alike (level : Level) (component : Component) (message : String)
    (details : List (String × String)) (w : World) :
    (note level component message details w).2.Alike w :=
  (note_noted level component message details w).alike

theorem create_of_error {f : Fault} (h : w.vacancy p = .error f) :
    create p w = (.error f, w) := by
  rw [create, bind_apply, ask_apply, h]

theorem create_of_ok (h : w.vacancy p = .ok l) :
    create p w = (.ok l, w.withTree (w.tree.put l (.file []))) := by
  rw [create, bind_apply, ask_apply, h]
  rfl

theorem fill_apply (p : Path) (l : Location) (content : Bytes) (w : World) :
    fill p l content w = match World.guarded w.faults.write p (.ok ()) with
      | .ok () => (.ok (), w.withTree (w.tree.put l (.file content)))
      | .error f => (.error f, w) := by
  rw [fill, bind_apply, ask_apply]
  cases World.guarded w.faults.write p (.ok ()) <;> rfl

theorem unlink_apply (p : Path) (w : World) :
    unlink p w = match w.removable p with
      | .error f => (if f.hasCause .missing then .ok () else .error f, w)
      | .ok none => (.ok (), w)
      | .ok (some l) => (.ok (), w.withTree (w.tree.remove l)) := by
  rw [unlink, attempt_bind, ask_apply]
  cases w.removable p with
  | error f =>
    dsimp only
    split <;> rfl
  | ok l => cases l <;> rfl

theorem not_isPresent_unlink {l? : Option Location} (h : w.removable p = .ok l?) :
    (unlink p w).2.isPresent p = false := by
  rw [unlink_apply, h]
  cases l? with
  | none => exact World.isPresent_of_removable_none h
  | some l => exact World.not_isPresent_remove h

theorem unlink_eq (p : Path) (w : World) :
    ∃ tree, (unlink p w).2 = w.withTree tree ∧ FileTree.Extends w.tree tree := by
  rw [unlink_apply]
  cases hr : w.removable p with
  | error f => exact ⟨w.tree, rfl, .refl _⟩
  | ok l =>
    cases l with
    | none => exact ⟨w.tree, rfl, .refl _⟩
    | some l => exact ⟨_, rfl, FileTree.extends_remove (World.ne_nil_of_removable hr)⟩

theorem unlink_of_taken {n : Node} (hunlink : w.faults.unlink = [])
    (hp : World.holdsNull p.text = false)
    (hfind : w.tree.find false w.home p = .ok (.taken l n)) (hn : n ≠ .directory) :
    unlink p w = (.ok (), w.withTree (w.tree.remove l)) := by
  have hr : w.removable p = .ok (some l) :=
    World.removable_eq_some_iff.2 ⟨by rw [hunlink]; rfl, hp, n, hfind, hn⟩
  rw [unlink_apply, hr]

theorem unlink_of_untaken
    (h : ∀ l n, w.tree.find false w.home p = .ok (.taken l n) → n = .directory) :
    (unlink p w).2 = w := by
  rw [unlink_apply]
  cases hr : w.removable p with
  | error f => rfl
  | ok l? =>
    cases l? with
    | none => rfl
    | some l =>
      obtain ⟨-, -, n, hfind, hn⟩ := World.removable_eq_some_iff.1 hr
      exact absurd (h l n hfind) hn

theorem start_alike (s : Start) (h : v.Alike w) :
    (start s v).1 = (start s w).1 ∧ (start s v).2.Alike (start s w).2 := by
  obtain ⟨records, texts, rfl⟩ := h
  unfold start
  dsimp only
  split
  · exact ⟨rfl, records, texts, rfl⟩
  · split
    · exact ⟨rfl, records, texts, rfl⟩
    · exact ⟨rfl, World.run_alike _ _ ⟨records, texts, rfl⟩⟩

/-- A start is put on record, takes a child away and changes files, and nothing else. -/
theorem start_eq (s : Start) (w : World) :
    ∃ tree children, (start s w).2 = { w with tree, children, starts := w.starts ++ [s] } ∧
      children ⊆ w.children ∧
      ∀ m n, w.tree.node? m = some n → FileTree.Survives tree m n := by
  unfold start
  dsimp only
  split
  · exact ⟨w.tree, w.children, rfl, List.Subset.refl _, fun _ _ h => .same h⟩
  · split
    · exact ⟨w.tree, w.children.tail, rfl, fun _ => List.mem_of_mem_tail, fun _ _ h => .same h⟩
    · rw [World.run_eq]
      exact ⟨_, w.children.tail, rfl, fun _ => List.mem_of_mem_tail, fun _ _ h => World.survives_run _ _ h⟩

theorem starts_start (s : Start) (w : World) : (start s w).2.starts = w.starts ++ [s] := by
  obtain ⟨tree, children, h, -⟩ := start_eq s w
  rw [h]

theorem homeText_start (s : Start) (w : World) : (start s w).2.homeText = w.homeText := by
  obtain ⟨tree, children, h, -⟩ := start_eq s w
  rw [h]

/-- A world in which children have run since: what was there survives. -/
structure Outlives (v w : World) : Prop where
  home : w.home = v.home
  survives : ∀ m n, v.tree.node? m = some n → FileTree.Survives w.tree m n

theorem Outlives.of_alike {u : World} (h : Outlives u v) (hw : w.Alike v) : Outlives u w := by
  obtain ⟨records, texts, rfl⟩ := hw
  exact ⟨h.home, h.survives⟩

theorem outlives_refl (w : World) : Outlives w w := ⟨rfl, fun _ _ h => .same h⟩

theorem outlives_start (s : Start) (w : World) : Outlives w (start s w).2 := by
  obtain ⟨tree, children, h, -, hsurvives⟩ := start_eq s w
  rw [h]
  exact ⟨rfl, hsurvives⟩

theorem Outlives.removable {content : Bytes} {m : Location} (h : Outlives v w)
    (hfile : v.tree.find false v.home p = .ok (.taken l (.file content)))
    (hr : w.removable p = .ok (some m)) :
    ∀ n, w.tree.node? m = some n → n.isPassage = false := by
  obtain ⟨-, -, n, hfind, -⟩ := World.removable_eq_some_iff.1 hr
  obtain ⟨-, hold⟩ := FileTree.find_eq_ok_iff.1 hfile
  obtain ⟨-, hnow⟩ := FileTree.find_eq_ok_iff.1 hfind
  rw [h.home] at hnow
  have hleaf : ∀ n, w.tree.node? l = some n → n.isPassage = false := by
    intro n hn
    cases h.survives l _ hold.node?_location with
    | gone hgone => cases hgone.symm.trans hn
    | same hsame =>
      cases hsame.symm.trans hn
      rfl
    | rewritten hsame =>
      cases hsame.symm.trans hn
      rfl
  have hkeep : ∀ m n, v.tree.node? m = some n → n.isPassage = true →
      w.tree.node? m = some n ∨ w.tree.node? m = none := by
    intro m n hn hpassage
    cases h.survives m n hn with
    | gone hgone => exact .inr hgone
    | same hsame => exact .inl hsame
    | rewritten => cases hpassage
  have hm : m = l := hold.location_unique hkeep ⟨_, rfl, rfl⟩ hleaf hnow
    (by simp [FileTree.Place.node?])
  exact hm ▸ hleaf

theorem ne_dots_of_length {name : String} (h : 2 < name.length) : name ≠ "." ∧ name ≠ ".." := by
  constructor <;> rintro rfl <;> revert h <;> decide

theorem isPresent_unlink_of_ne {q : Path} {content : Bytes} {a b : String} (h : Outlives v w)
    (hfile : v.tree.find false v.home p = .ok (.taken l (.file content)))
    (hp : p.parts.getLast? = some a) (hq : q.parts.getLast? = some b) (hne : a ≠ b)
    (ha : 2 < a.length) (hb : 2 < b.length) (hpresent : w.isPresent q = true) :
    (unlink p w).2.isPresent q = true := by
  rw [unlink_apply]
  cases hr : w.removable p with
  | error f => exact hpresent
  | ok m =>
    cases m with
    | none => exact hpresent
    | some m =>
      obtain ⟨-, -, n, hfind, -⟩ := World.removable_eq_some_iff.1 hr
      obtain ⟨-, hleads⟩ := FileTree.find_eq_ok_iff.1 hfind
      obtain ⟨hdot, hup⟩ := ne_dots_of_length ha
      have hm : m.getLast? = some a := hleads.getLast?_location rfl hp hdot hup
      refine World.isPresent_remove_of_ne (World.ne_nil_of_removable hr) (h.removable hfile hr)
        (fun m' n' hfind' => ?_) hpresent
      obtain ⟨-, hleads'⟩ := FileTree.find_eq_ok_iff.1 hfind'
      obtain ⟨hdot', hup'⟩ := ne_dots_of_length hb
      have hm' : m'.getLast? = some b := hleads'.getLast?_location rfl hq hdot' hup'
      rintro rfl
      exact hne (Option.some.inj (hm.symm.trans hm'))

end Session

end ScriptLauncher.Host
