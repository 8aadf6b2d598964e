import ScriptLauncher.Proofs.Host.Session

/-! Where only system faults stand ready and no text has a null in it, all that is asked of
a world fails with system faults only. -/

namespace ScriptLauncher.Host

theorem Fault.isOfSystem_withPath (f : Fault) (path : String) :
    (f.withPath path).isOfSystem = f.isOfSystem := by
  unfold withPath
  split <;> rfl

theorem Fault.hasCause_withPath (f : Fault) (path : String) (c : Cause) :
    (f.withPath path).hasCause c = f.hasCause c := by
  unfold withPath
  split <;> rfl

theorem Fault.isReported_withPath (f : Fault) (path : String) :
    (f.withPath path).isReported = f.isReported := by
  unfold withPath
  split <;> rfl

theorem Fault.isReported_of_isOfSystem {f : Fault} (h : f.isOfSystem = true) :
    f.isReported = true := by
  cases f with
  | numbered | unnumbered | unacceptable | unencodable => rfl
  | internal => cases h

namespace World

/-- Each fault that stands ready, in a file tree or a child or for the working directory, is
one of the system. -/
structure OfSystem (w : World) : Prop where
  stat : ∀ e ∈ w.faults.stat, e.2.isOfSystem = true
  create : ∀ e ∈ w.faults.create, e.2.isOfSystem = true
  write : ∀ e ∈ w.faults.write, e.2.isOfSystem = true
  unlink : ∀ e ∈ w.faults.unlink, e.2.isOfSystem = true
  children : ∀ c ∈ w.children, ∀ f, c.failure = some f → f.isOfSystem = true
  home : ∀ f, w.homeText = .error f → f.isOfSystem = true

variable {v w : World} {p : Path} {f : Fault}

theorem OfSystem.of_alike (h : w.OfSystem) (hv : v.Alike w) : v.OfSystem := by
  obtain ⟨records, texts, rfl⟩ := hv
  exact { h with }

theorem OfSystem.withTree (h : w.OfSystem) (tree : FileTree) : (w.withTree tree).OfSystem :=
  { h with }

theorem OfSystem.start (h : w.OfSystem) (s : Start) : (Session.start s w).2.OfSystem := by
  obtain ⟨tree, children, heq, hsub, -⟩ := Session.start_eq s w
  rw [heq]
  exact { h with children := fun c hc => h.children c (hsub hc) }

theorem isOfSystem_ready {ready : List (String × Fault)} {path : String}
    (hready : ∀ e ∈ ready, e.2.isOfSystem = true) (h : ready.lookup path = some f) :
    (f.withPath path).isOfSystem = true := by
  obtain ⟨before, after, rfl, -⟩ := List.lookup_eq_some_iff.1 h
  rw [Fault.isOfSystem_withPath]
  exact hready (path, f) (by simp)

theorem isOfSystem_guarded {α : Type} {ready : List (String × Fault)} {ask : Except Fault α}
    (hready : ∀ e ∈ ready, e.2.isOfSystem = true) (hp : holdsNull p.text = false)
    (hask : ask = .error f → f.isOfSystem = true) (h : guarded ready p ask = .error f) :
    f.isOfSystem = true := by
  unfold guarded at h
  split at h
  · next g hg =>
    cases h
    exact isOfSystem_ready hready hg
  · rw [hp] at h
    exact hask h

theorem isOfSystem_find {follow : Bool} (h : w.find follow p = .error f) :
    f.isOfSystem = true := by
  unfold find at h
  split at h
  · cases h
  · cases h
    rfl

theorem isOfSystem_stat (hw : w.OfSystem) (hp : holdsNull p.text = false)
    (h : w.stat p = .error f) : f.isOfSystem = true := by
  refine isOfSystem_guarded hw.stat hp (fun hask => ?_) h
  cases hfind : w.find true p with
  | error g =>
    rw [hfind] at hask
    cases hask
    exact isOfSystem_find hfind
  | ok place =>
    rw [hfind] at hask
    cases place with
    | taken => cases hask
    | free =>
      cases hask
      rfl

theorem isOfSystem_lookup? (hw : w.OfSystem) (hp : holdsNull p.text = false)
    (h : w.lookup? p = .error f) : f.isOfSystem = true := by
  unfold lookup? at h
  cases hstat : w.stat p with
  | ok n =>
    rw [hstat] at h
    cases h
  | error g =>
    simp only [hstat] at h
    split at h
    · cases h
    · cases h
      exact isOfSystem_stat hw hp hstat

theorem isOfSystem_pathExists (hw : w.OfSystem) (hp : holdsNull p.text = false)
    (h : w.pathExists p = .error f) : f.isOfSystem = true := by
  unfold pathExists at h
  cases hlookup : w.lookup? p with
  | ok n? =>
    rw [hlookup] at h
    cases h
  | error g =>
    rw [hlookup] at h
    cases h
    exact isOfSystem_lookup? hw hp hlookup

theorem isOfSystem_read (hread : ∀ e ∈ w.faults.read, e.2.isOfSystem = true)
    (hp : holdsNull p.text = false) (h : w.read p = .error f) : f.isOfSystem = true := by
  refine isOfSystem_guarded hread hp (fun hask => ?_) h
  cases hfind : w.find true p with
  | error g =>
    rw [hfind] at hask
    cases hask
    exact isOfSystem_find hfind
  | ok place =>
    rw [hfind] at hask
    cases place with
    | free =>
      cases hask
      rfl
    | taken l n =>
      cases n with
      | directory =>
        cases hask
        rfl
      | _ => cases hask

theorem isOfSystem_vacancy (hw : w.OfSystem) (hp : holdsNull p.text = false)
    (h : w.vacancy p = .error f) : f.isOfSystem = true := by
  refine isOfSystem_guarded hw.create hp (fun hask => ?_) h
  cases hfind : w.find false p with
  | error g =>
    rw [hfind] at hask
    cases hask
    exact isOfSystem_find hfind
  | ok place =>
    rw [hfind] at hask
    cases place with
    | free => cases hask
    | taken =>
      cases hask
      rfl

theorem isOfSystem_removable (hw : ∀ e ∈ w.faults.unlink, e.2.isOfSystem = true)
    (hp : holdsNull p.text = false) (h : w.removable p = .error f) : f.isOfSystem = true := by
  refine isOfSystem_guarded hw hp (fun hask => ?_) h
  split at hask
  · cases hask
    rfl
  · cases hask
  · cases hask
  · cases hask
  · cases hask
    rfl

theorem isOfSystem_unlink (hw : ∀ e ∈ w.faults.unlink, e.2.isOfSystem = true)
    (hp : holdsNull p.text = false) (h : (Session.unlink p w).1 = .error f) :
    f.isOfSystem = true := by
  rw [Session.unlink_apply] at h
  cases hr : w.removable p with
  | error g =>
    rw [hr] at h
    dsimp only at h
    split at h
    · cases h
    · cases h
      exact isOfSystem_removable hw hp hr
  | ok l =>
    rw [hr] at h
    cases l <;> cases h

end World

/-- A start fails with a fault that is reported, a null in a word or what the next child fails
with. -/
theorem Session.isReported_start_of_next {w : World} {s : Start} {f : Fault}
    (hnext : ∀ f, (w.children.headD .idle).failure = some f → f.isReported = true)
    (h : (Session.start s w).1 = .error f) : f.isReported = true := by
  unfold Session.start at h
  dsimp only at h
  split at h
  · cases h
    rfl
  · split at h
    · next g hg =>
      cases h
      rw [Fault.isReported_withPath]
      exact hnext g hg
    · cases h

theorem Session.isReported_start {w : World} {s : Start} {f : Fault} (hw : w.OfSystem)
    (h : (Session.start s w).1 = .error f) : f.isReported = true := by
  refine isReported_start_of_next (fun g hg => Fault.isReported_of_isOfSystem ?_) h
  cases hc : w.children with
  | nil =>
    rw [hc] at hg
    cases hg
  | cons c children =>
    rw [hc] at hg
    exact hw.children c (hc ▸ List.mem_cons_self) g hg

end ScriptLauncher.Host
