import ScriptLauncher.Proofs.Build.Turns
import Mathlib.Logic.Function.Basic
import Mathlib.Logic.Relation

/-! Builds side by side that place their files in one directory. Each takes the turns that come to
the whole build when it is alone (`Call.turns_alone`), in any order with those of the others. A
source keeps its name, and that of its executable, from all of them until its build is done with
both: the name is taken by making the file, and given up last. -/

namespace ScriptLauncher.Build

open Host Session
open Artifact (executableOf IsSource Lies)
open ScriptLauncher.Path (Slashless)

/-- The locations that a source in a directory keeps for its build: its own, and that of its
executable with all that is below. -/
def Reserved (place : Location) (file : Path) (l : Location) : Prop :=
  l = place ++ [file.name] ∨ place ++ [(executableOf file).name] <+: l

/-- What holds of a build between its turns. -/
def Stands (directory : Path) (place : Location) : Phase → Prop
  | .opening | .closed _ => True
  | .choosing s => s.directory = directory
  | .creating s file => s.directory = directory ∧ Lies directory file
  | .filling s file l => s.directory = directory ∧ Lies directory file ∧ l = place ++ [file.name]
  | .compiling file | .releasing file _ => Lies directory file
  | .launching file executable | .discarding file executable _ =>
    Lies directory file ∧ executable = executableOf file

/-- A path leads to one directory and to no other, if it leads to any. -/
def Denotes (t : FileTree) (home : Location) (p : Path) (place : Location) : Prop :=
  ∀ l, t.find true home p = .ok (.taken l .directory) → l = place

theorem Denotes.of_passages {t u : FileTree} {home place : Location} {p : Path}
    (h : Denotes t home p place)
    (hkeep : ∀ l n, u.node? l = some n → n.isPassage = true → t.node? l = some n) :
    Denotes u home p place := by
  intro l hfind
  obtain ⟨hshort, hleads⟩ := FileTree.find_eq_ok_iff.1 hfind
  have hdir := hkeep l .directory hleads.node?_location rfl
  exact h l (FileTree.find_eq_ok_iff.2
    ⟨hshort, hleads.taken_of_passages hkeep hdir fun _ => rfl⟩)

section names

variable {directory file other : Path} {place home l : Location} {t : FileTree}
  {p : FileTree.Place} {m n : String}

theorem location_of_find (hn : 2 < n.length)
    (hdirectory : Denotes t home directory place)
    (h : t.find false home ⟨directory.root, directory.parts ++ [n]⟩ = .ok p) :
    p.location = place ++ [n] := by
  obtain ⟨hdot, hup⟩ := ne_dots_of_length hn
  have hne : n ≠ "" := by
    rintro rfl
    exact absurd hn (by decide)
  obtain ⟨m, hm, hlocation⟩ := FileTree.find_parent hne hdot hup h
  rw [hlocation, hdirectory m hm]

theorem location_of_lies (h : Lies directory file)
    (hdirectory : Denotes t home directory place)
    (hfind : t.find false home file = .ok p) : p.location = place ++ [file.name] := by
  have hlength := h.isSource.length_name
  obtain ⟨stem, rfl⟩ := h
  rw [Path.name_mk] at hlength ⊢
  exact location_of_find hlength hdirectory hfind

theorem location_executableOf (h : Lies directory file)
    (hdirectory : Denotes t home directory place)
    (hfind : t.find false home (executableOf file) = .ok p) :
    p.location = place ++ [(executableOf file).name] := by
  have hlength : 2 < (executableOf file).name.length := by
    rw [Artifact.name_executableOf, String.length_append]
    exact Nat.lt_add_right _ h.isSource.length_name
  obtain ⟨stem, rfl⟩ := h
  refine location_of_find hlength hdirectory (Eq.trans ?_ hfind)
  rw [Artifact.name_executableOf]
  simp [Path.withSuffix]

theorem name_unique (h : place ++ [m] <+: l) (h' : place ++ [n] <+: l) : m = n := by
  have heq := (List.prefix_of_prefix_length_le h h' (by simp)).eq_of_length (by simp)
  exact List.singleton_inj.1 (List.append_cancel_left heq)

theorem Reserved.below (h : Reserved place file l) :
    place ++ [file.name] <+: l ∨ place ++ [(executableOf file).name] <+: l := by
  rcases h with rfl | h
  · exact .inl List.prefix_rfl
  · exact .inr h

/-- Sources of different names have nothing in common, neither with each other nor with the
executables. -/
theorem not_reserved (h : IsSource file) (h' : IsSource other) (hne : file.name ≠ other.name)
    (hl : Reserved place file l) : ¬ Reserved place other l := by
  intro hl'
  rcases hl.below with hfile | hfile <;> rcases hl'.below with hother | hother <;>
    have heq := name_unique hfile hother
  · exact hne heq
  · exact h.name_ne_executableOf other heq
  · exact h'.name_ne_executableOf file heq.symm
  · rw [Artifact.name_executableOf, Artifact.name_executableOf] at heq
    exact hne ((String.append_left_inj _).1 heq)

end names

section moves

variable {c : Call} {w : World} {φ φ' : Phase} {tree : FileTree} {place l : Location}
  {file : Path} {n : Node}

theorem Stands.lies {directory : Path} (h : Stands directory place φ)
    (hfile : φ.source? = some file) : Lies directory file := by
  cases φ with
  | opening | choosing | creating | closed => cases hfile
  | filling =>
    cases hfile
    exact h.2.1
  | compiling | releasing =>
    cases hfile
    exact h
  | launching | discarding =>
    cases hfile
    exact h.1

theorem Phase.source?_of_starts? (h : φ.starts? = some file) : φ.source? = some file := by
  cases φ with
  | compiling | launching => exact h
  | _ => cases h

/-- A new file is placed where nothing was, under its own name. -/
theorem location_of_vacancy (h : Lies (c.directory w) file)
    (hdirectory : Denotes w.tree w.home (c.directory w) place)
    (hvacancy : w.vacancy file = .ok l) :
    l = place ++ [file.name] ∧ w.tree.node? l = none := by
  have hfind := (World.vacancy_eq_ok_iff.1 hvacancy).2.2
  exact ⟨location_of_lies h hdirectory hfind, FileTree.node?_of_find hfind⟩

theorem Moves.stands (h : Moves c w φ φ' tree) (hφ : Stands (c.directory w) place φ)
    (hdirectory : Denotes w.tree w.home (c.directory w) place)
    (hscript : Slashless c.script.name) (htokens : ∀ t ∈ w.tokens, Slashless t) :
    Stands (c.directory w) place φ' := by
  cases h with
  | opened hsearch => exact hsearch
  | taken => exact hφ
  | @chosen draws s =>
    refine ⟨hφ, ?_⟩
    rw [Artifact.tried, show s.directory = c.directory w from hφ]
    exact Artifact.lies_candidate hscript (Artifact.slashless_drawToken htokens)
  | created hvacancy => exact ⟨hφ.1, hφ.2, (location_of_vacancy hφ.2 hdirectory hvacancy).1⟩
  | uncreated | unfilled => exact hφ.1
  | filled => exact hφ.2.1
  | compiled hexecutable =>
    refine ⟨hφ, ?_⟩
    rw [hφ.isSource.executable] at hexecutable
    exact (Except.ok.inj hexecutable).symm
  | uncompiled => exact hφ
  | launched => exact hφ
  | discarded => exact hφ.1
  | released | closed => trivial

/-- A source is held already before a turn, or made in it where nothing was. -/
theorem Moves.held_or_vacant (h : Moves c w φ φ' tree) (hφ : Stands (c.directory w) place φ)
    (hdirectory : Denotes w.tree w.home (c.directory w) place)
    (hfile : φ'.source? = some file) :
    φ.source? = some file ∨ w.tree.node? (place ++ [file.name]) = none := by
  cases h with
  | created hvacancy =>
    cases hfile
    obtain ⟨rfl, hfree⟩ := location_of_vacancy hφ.2 hdirectory hvacancy
    exact .inr hfree
  | filled | compiled | uncompiled | launched | discarded => exact .inl hfile
  | opened | taken | chosen | uncreated | unfilled | released | closed => cases hfile

theorem node?_of_removes {q : Path} (h : Removes w q tree)
    (hlocation : ∀ p, w.tree.find false w.home q = .ok p → p.location = l) {m : Location}
    (hm : m ≠ l) : tree.node? m = w.tree.node? m := by
  obtain rfl | ⟨k, hremovable, rfl⟩ := h
  · rfl
  · obtain ⟨-, -, n, hfind, -⟩ := World.removable_eq_some_iff.1 hremovable
    obtain rfl : k = l := hlocation _ hfind
    exact FileTree.node?_remove_ne _ hm

theorem extends_of_removes {q : Path} (h : Removes w q tree) :
    FileTree.Extends w.tree tree := by
  obtain rfl | ⟨k, hremovable, rfl⟩ := h
  · exact .refl _
  · exact FileTree.extends_remove (World.ne_nil_of_removable hremovable)

/-- What a turn without a child changes is reserved for the source that the build holds before it
or after it. -/
theorem Moves.reserved (h : Moves c w φ φ' tree) (hφ : Stands (c.directory w) place φ)
    (hdirectory : Denotes w.tree w.home (c.directory w) place)
    (hstarts : φ.starts? = none) (l : Location) :
    tree.node? l = w.tree.node? l ∨
      ∃ file, (φ.source? = some file ∨ φ'.source? = some file) ∧ Reserved place file l := by
  cases h with
  | opened | taken | chosen | uncreated | unfilled | closed => exact .inl rfl
  | compiled | uncompiled | launched => cases hstarts
  | @created file m s hvacancy =>
    obtain ⟨rfl, -⟩ := location_of_vacancy hφ.2 hdirectory hvacancy
    by_cases hl : l = place ++ [file.name]
    · exact .inr ⟨file, .inr rfl, .inl hl⟩
    · exact .inl (FileTree.node?_put_ne _ hl _)
  | @filled s file m =>
    obtain ⟨-, -, rfl⟩ := hφ
    by_cases hl : l = place ++ [file.name]
    · exact .inr ⟨file, .inl rfl, .inl hl⟩
    · exact .inl (FileTree.node?_put_ne _ hl _)
  | @discarded executable tree file ended ended' hremoves =>
    obtain ⟨hlies, rfl⟩ := hφ
    by_cases hl : l = place ++ [(executableOf file).name]
    · exact .inr ⟨file, .inl rfl, .inr (hl ▸ List.prefix_rfl)⟩
    · exact .inl (node?_of_removes hremoves
        (fun p hp => location_executableOf hlies hdirectory hp) hl)
  | @released file tree ended ended' hremoves =>
    by_cases hl : l = place ++ [file.name]
    · exact .inr ⟨file, .inl rfl, .inl hl⟩
    · exact .inl (node?_of_removes hremoves (fun p hp => location_of_lies hφ hdirectory hp) hl)

/-- A turn without a child opens no new passage. -/
theorem Moves.passage (h : Moves c w φ φ' tree) (hstarts : φ.starts? = none)
    (hnode : tree.node? l = some n) (hn : n.isPassage = true) : w.tree.node? l = some n := by
  cases h with
  | opened | taken | chosen | uncreated | unfilled | closed => exact hnode
  | compiled | uncompiled | launched => cases hstarts
  | created | filled => exact FileTree.passage_of_put hnode hn
  | discarded hremoves | released hremoves => exact extends_of_removes hremoves l n hnode

/-- The source of a build stays a file as long as it is held. -/
theorem Moves.occupied (h : Moves c w φ φ' tree) (hφ : Stands (c.directory w) place φ)
    (hdirectory : Denotes w.tree w.home (c.directory w) place)
    (hstarts : ∀ file, φ.starts? = some file →
      tree.node? (place ++ [file.name]) = w.tree.node? (place ++ [file.name]))
    (hheld : ∀ file, φ.source? = some file →
      ∃ content, w.tree.node? (place ++ [file.name]) = some (.file content))
    (hfile : φ'.source? = some file) :
    ∃ content, tree.node? (place ++ [file.name]) = some (.file content) := by
  cases h with
  | created hvacancy =>
    cases hfile
    obtain ⟨rfl, -⟩ := location_of_vacancy hφ.2 hdirectory hvacancy
    exact ⟨_, FileTree.node?_put_self _ (by simp) _⟩
  | filled =>
    cases hfile
    obtain ⟨-, -, rfl⟩ := hφ
    exact ⟨_, FileTree.node?_put_self _ (by simp) _⟩
  | compiled | uncompiled | launched =>
    cases hfile
    rw [hstarts file rfl]
    exact hheld file rfl
  | discarded hremoves =>
    cases hfile
    obtain ⟨hlies, rfl⟩ := hφ
    -- the executable that goes has another name than the source
    have hne : place ++ [file.name] ≠ place ++ [(executableOf file).name] := by
      simpa using hlies.isSource.name_ne_executableOf file
    rw [node?_of_removes hremoves (fun p hp => location_executableOf hlies hdirectory hp) hne]
    exact hheld file rfl
  | opened | taken | chosen | uncreated | unfilled | released | closed => cases hfile

end moves

/-- Builds that share a file tree; apart from the tree, each has a world of its own. -/
structure Builds (ι : Type*) where
  tree : FileTree
  world : ι → World
  phase : ι → Phase

namespace Builds

variable {ι : Type*} (calls : ι → Call) (place : Location)

def view (b : Builds ι) (i : ι) : World := (b.world i).withTree b.tree

/-- A tree that the children of a build may leave: in the shared directory they have changed
nothing but the executable that they were told to make, and no build takes another directory for
the shared one. -/
structure Harmless (b : Builds ι) (file : Path) (tree : FileTree) : Prop where
  inside : ∀ l, place <+: l → ¬ place ++ [(executableOf file).name] <+: l →
    tree.node? l = b.tree.node? l
  shared : ∀ i, Denotes tree (b.world i).home ((calls i).directory (b.world i)) place

/-- Builds that have done nothing yet, for one directory. Their tokens and the names of their
scripts may be equal. -/
structure Begins (b : Builds ι) : Prop where
  phase : ∀ i, b.phase i = .opening
  tokens : ∀ i, ∀ t ∈ (b.world i).tokens, Slashless t
  script : ∀ i, Slashless (calls i).script.name
  shared : ∀ i, Denotes b.tree (b.world i).home ((calls i).directory (b.world i)) place

/-- What holds of all builds at any time. -/
structure Sound (b : Builds ι) : Prop where
  tokens : ∀ i, ∀ t ∈ (b.world i).tokens, Slashless t
  script : ∀ i, Slashless (calls i).script.name
  shared : ∀ i, Denotes b.tree (b.world i).home ((calls i).directory (b.world i)) place
  stands : ∀ i, Stands ((calls i).directory (b.world i)) place (b.phase i)
  occupied : ∀ i file, (b.phase i).source? = some file →
    ∃ content, b.tree.node? (place ++ [file.name]) = some (.file content)
  apart : ∀ i j file other, i ≠ j → (b.phase i).source? = some file →
    (b.phase j).source? = some other → file.name ≠ other.name

variable {calls place} {b b' : Builds ι} {i j : ι} {file other : Path} {l : Location}

theorem sound_of_begins (h : Begins calls place b) : Sound calls place b where
  tokens := h.tokens
  script := h.script
  shared := h.shared
  stands i := by
    rw [h.phase i]
    trivial
  occupied i file hfile := by
    rw [h.phase i] at hfile
    cases hfile
  apart i j file other _ hfile := by
    rw [h.phase i] at hfile
    cases hfile

theorem Sound.isSource (h : Sound calls place b) (hfile : (b.phase i).source? = some file) :
    IsSource file :=
  ((h.stands i).lies hfile).isSource

theorem Harmless.keeps_source {tree : FileTree} (h : b.Harmless calls place file tree)
    (hfile : IsSource file) :
    tree.node? (place ++ [file.name]) = b.tree.node? (place ++ [file.name]) :=
  h.inside _ (List.prefix_append _ _) fun hbelow =>
    hfile.name_ne_executableOf file (name_unique List.prefix_rfl hbelow)

theorem Harmless.spares {tree : FileTree} (hharmless : b.Harmless calls place file tree)
    (h : Sound calls place b) (hij : i ≠ j) (hfile : (b.phase i).source? = some file)
    (hother : (b.phase j).source? = some other) (hl : Reserved place other l) :
    tree.node? l = b.tree.node? l := by
  have hne := h.apart i j file other hij hfile hother
  refine hharmless.inside l ?_ fun hbelow =>
    not_reserved (h.isSource hfile) (h.isSource hother) hne (.inr hbelow) hl
  rcases hl.below with hbelow | hbelow <;> exact (List.prefix_append place _).trans hbelow

variable [DecidableEq ι]

variable (calls) in
/-- The builds after a turn of one of them. -/
def after (b : Builds ι) (i : ι) : Builds ι :=
  let next := (calls i).turn (b.phase i) (b.view i)
  ⟨next.2.tree, Function.update b.world i next.2, Function.update b.phase i next.1⟩

variable (calls place) in
/-- A build takes its turn, or one of its children does something between two turns. -/
inductive Acts (b : Builds ι) (i : ι) : Builds ι → Prop
  | turn : (∀ file, (b.phase i).starts? = some file →
      b.Harmless calls place file (b.after calls i).tree) → Acts b i (b.after calls i)
  | child {file : Path} {tree : FileTree} : (b.phase i).source? = some file →
      b.Harmless calls place file tree → Acts b i { b with tree }

variable (calls place) in
def Reaches : Builds ι → Builds ι → Prop :=
  Relation.ReflTransGen fun b b' => ∃ i, Acts calls place b i b'

theorem phase_after_self (b : Builds ι) (i : ι) :
    (b.after calls i).phase i = ((calls i).turn (b.phase i) (b.view i)).1 :=
  Function.update_self i _ _

theorem phase_after_of_ne (b : Builds ι) (h : i ≠ j) :
    (b.after calls i).phase j = b.phase j :=
  Function.update_of_ne h.symm _ _

theorem moves_after (b : Builds ι) (i : ι) :
    Moves (calls i) (b.view i) (b.phase i) ((b.after calls i).phase i)
      (b.after calls i).tree := by
  rw [phase_after_self]
  exact (moves_turn (calls i) (b.phase i) (b.view i)).1

theorem remains_after (b : Builds ι) (i j : ι) :
    Remains ((b.after calls i).world j) (b.world j) := by
  by_cases h : i = j
  · subst h
    rw [show (b.after calls i).world i = ((calls i).turn (b.phase i) (b.view i)).2 from
      Function.update_self i _ _]
    have hturn := (moves_turn (calls i) (b.phase i) (b.view i)).2
    exact ⟨hturn.home, hturn.temporary, hturn.tokens⟩
  · rw [show (b.after calls i).world j = b.world j from Function.update_of_ne (Ne.symm h) _ _]
    exact remains_refl (b.world j)

theorem home_after (b : Builds ι) (i j : ι) :
    ((b.after calls i).world j).home = (b.world j).home :=
  (remains_after b i j).home

theorem directory_after (b : Builds ι) (i j : ι) :
    (calls j).directory ((b.after calls i).world j) = (calls j).directory (b.world j) :=
  congrArg ((calls j).options.directory.getD ·) (remains_after b i j).temporary

theorem Sound.stands_after (h : Sound calls place b) (i : ι) :
    Stands ((calls i).directory (b.world i)) place ((b.after calls i).phase i) :=
  (moves_after b i).stands (h.stands i) (h.shared i) (h.script i) (h.tokens i)

/-- A source that a build makes has another name than those that other builds hold, since their
files stand there. -/
theorem Sound.name_ne_after (h : Sound calls place b) (hij : i ≠ j)
    (hfile : ((b.after calls i).phase i).source? = some file)
    (hother : (b.phase j).source? = some other) : file.name ≠ other.name := by
  rcases (moves_after b i).held_or_vacant (h.stands i) (h.shared i) hfile with hheld | hvacant
  · exact h.apart i j file other hij hheld hother
  · intro heq
    obtain ⟨content, hoccupied⟩ := h.occupied j other hother
    rw [heq] at hvacant
    cases hvacant.symm.trans hoccupied

/-- Whatever a build does, it leaves what is reserved for the source of another. -/
theorem Sound.spares (h : Sound calls place b) (hacts : Acts calls place b i b') (hij : i ≠ j)
    (hother : (b.phase j).source? = some other) (hl : Reserved place other l) :
    b'.tree.node? l = b.tree.node? l := by
  cases hacts with
  | child hfile hharmless => exact hharmless.spares h hij hfile hother hl
  | turn hharmless =>
    cases hstarts : (b.phase i).starts? with
    | some file =>
      exact (hharmless file hstarts).spares h hij (Phase.source?_of_starts? hstarts) hother hl
    | none =>
      rcases (moves_after b i).reserved (h.stands i) (h.shared i) hstarts l with
        hsame | ⟨file, hfile, hreserved⟩
      · exact hsame
      · have hapart : IsSource file ∧ file.name ≠ other.name := by
          rcases hfile with hfile | hfile
          · exact ⟨h.isSource hfile, h.apart i j file other hij hfile hother⟩
          · exact ⟨((h.stands_after i).lies hfile).isSource, h.name_ne_after hij hfile hother⟩
        exact absurd hl (not_reserved hapart.1 (h.isSource hother) hapart.2 hreserved)

theorem Sound.shared_after (h : Sound calls place b)
    (hharmless : ∀ file, (b.phase i).starts? = some file →
      b.Harmless calls place file (b.after calls i).tree) (j : ι) :
    Denotes (b.after calls i).tree (b.world j).home ((calls j).directory (b.world j)) place := by
  cases hstarts : (b.phase i).starts? with
  | some file => exact (hharmless file hstarts).shared j
  | none => exact (h.shared j).of_passages fun l n => (moves_after b i).passage hstarts

theorem Sound.occupied_after (h : Sound calls place b)
    (hharmless : ∀ file, (b.phase i).starts? = some file →
      b.Harmless calls place file (b.after calls i).tree)
    (hfile : ((b.after calls i).phase i).source? = some file) :
    ∃ content, (b.after calls i).tree.node? (place ++ [file.name]) = some (.file content) := by
  refine (moves_after b i).occupied (h.stands i) (h.shared i) (fun file hstarts => ?_)
    (h.occupied i) hfile
  exact (hharmless file hstarts).keeps_source (h.isSource (Phase.source?_of_starts? hstarts))

theorem Sound.acts (h : Sound calls place b) (hacts : Acts calls place b i b') :
    Sound calls place b' := by
  have hspares {j : ι} {other : Path} (hij : i ≠ j) (hother : (b.phase j).source? = some other) :
      ∃ content, b'.tree.node? (place ++ [other.name]) = some (.file content) := by
    rw [h.spares hacts hij hother (.inl rfl)]
    exact h.occupied j other hother
  cases hacts with
  | @child file tree hfile hharmless =>
    refine ⟨h.tokens, h.script, hharmless.shared, h.stands, fun j other hother => ?_, h.apart⟩
    by_cases hij : i = j
    · subst hij
      cases hfile.symm.trans hother
      rw [show tree.node? _ = _ from hharmless.keeps_source (h.isSource hfile)]
      exact h.occupied i file hfile
    · exact hspares hij hother
  | turn hharmless =>
    refine ⟨fun j t ht => h.tokens j t ((remains_after b i j).tokens ht), h.script, fun j => ?_,
      fun j => ?_, fun j other hother => ?_, fun j k file other hjk hfile hother => ?_⟩
    · rw [home_after, directory_after]
      exact h.shared_after hharmless j
    · rw [directory_after]
      by_cases hij : i = j
      · subst hij
        exact h.stands_after i
      · rw [phase_after_of_ne b hij]
        exact h.stands j
    · by_cases hij : i = j
      · subst hij
        exact h.occupied_after hharmless hother
      · rw [phase_after_of_ne b hij] at hother
        exact hspares hij hother
    · by_cases hij : i = j
      · subst hij
        rw [phase_after_of_ne b hjk] at hother
        exact h.name_ne_after hjk hfile hother
      · rw [phase_after_of_ne b hij] at hfile
        by_cases hik : i = k
        · subst hik
          exact (h.name_ne_after hij hother hfile).symm
        · rw [phase_after_of_ne b hik] at hother
          exact h.apart j k file other hjk hfile hother

theorem Sound.reaches (h : Sound calls place b) (hreaches : Reaches calls place b b') :
    Sound calls place b' := by
  induction hreaches with
  | refl => exact h
  | tail _ hacts ih =>
    obtain ⟨i, hacts⟩ := hacts
    exact ih.acts hacts

theorem Acts.phase_of_ne (h : Acts calls place b i b') (hij : i ≠ j) : b'.phase j = b.phase j := by
  cases h with
  | turn => exact phase_after_of_ne b hij
  | child => rfl

/-- Whether builds can take turns in some order without a child that changes the tree. -/
def idle (calls : ι → Call) : List ι → Builds ι → Bool
  | [], _ => true
  | i :: schedule, b =>
    ((b.phase i).starts?.isNone || (b.after calls i).tree == b.tree) &&
      idle calls schedule (b.after calls i)

theorem Sound.acts_idle (h : Sound calls place b)
    (hidle : (b.phase i).starts?.isNone = true ∨ (b.after calls i).tree = b.tree) :
    Acts calls place b i (b.after calls i) := by
  refine .turn fun file hstarts => ?_
  rcases hidle with hnone | htree
  · rw [hstarts] at hnone
    cases hnone
  · rw [htree]
    exact ⟨fun _ _ _ => rfl, h.shared⟩

theorem reaches_idle (h : Sound calls place b) {schedule : List ι}
    (hidle : idle calls schedule b = true) :
    Reaches calls place b (schedule.foldl (after calls) b) := by
  induction schedule generalizing b with
  | nil => exact .refl
  | cons i schedule ih =>
    simp only [idle, Bool.and_eq_true, Bool.or_eq_true, beq_iff_eq] at hidle
    have hacts := h.acts_idle hidle.1
    exact .head ⟨i, hacts⟩ (ih (h.acts hacts) hidle.2)

/-- Builds whose turns, when nothing happens in between, come to the whole build, keep apart in any
order of their turns. At any time, the source that a build holds is a file, and it and its
executable lead to their own names in the shared directory and nowhere else. Sources of two builds
differ, and so do their executables and all that is reserved for them; what one build or its
children do next leaves what is reserved for the source of another. -/
theorem reaches_apart {b₀ : Builds ι} (hbegins : Begins calls place b₀)
    (hreaches : Reaches calls place b₀ b) :
    (∀ i w, (calls i).spare = 0 →
      ∃ n, (calls i).turns n (.opening, w) =
        (.closed ((calls i).build w).1, ((calls i).build w).2)) ∧
    (∀ i file, (b.phase i).source? = some file →
      (∃ content, b.tree.node? (place ++ [file.name]) = some (.file content)) ∧
      (∀ p, b.tree.find false (b.world i).home file = .ok p →
        p.location = place ++ [file.name]) ∧
      ∀ p, b.tree.find false (b.world i).home (executableOf file) = .ok p →
        p.location = place ++ [(executableOf file).name]) ∧
    (∀ i j file other, i ≠ j → (b.phase i).source? = some file →
      (b.phase j).source? = some other →
      file ≠ other ∧ file ≠ executableOf other ∧ executableOf file ≠ other ∧
        executableOf file ≠ executableOf other ∧
        ∀ l, Reserved place file l → ¬ Reserved place other l) ∧
    ∀ i j other b', i ≠ j → (b.phase j).source? = some other → Acts calls place b i b' →
      (b'.phase j).source? = some other ∧
        ∀ l, Reserved place other l → b'.tree.node? l = b.tree.node? l := by
  have h := (sound_of_begins hbegins).reaches hreaches
  refine ⟨fun i w hspare => (calls i).turns_alone hspare w, fun i file hfile => ?_,
    fun i j file other hij hfile hother => ?_, fun i j other b' hij hother hacts => ?_⟩
  · have hlies := (h.stands i).lies hfile
    exact ⟨h.occupied i file hfile, fun p hp => location_of_lies hlies (h.shared i) hp,
      fun p hp => location_executableOf hlies (h.shared i) hp⟩
  · have hname := h.apart i j file other hij hfile hother
    have hsource := h.isSource hfile
    have hsource' := h.isSource hother
    refine ⟨fun heq => hname (congrArg Path.name heq), hsource.ne_executableOf other,
      (hsource'.ne_executableOf file).symm, fun heq => hname (congrArg Path.name ?_),
      fun l hl => not_reserved hsource hsource' hname hl⟩
    exact Path.withSuffix_inj hsource.ne_nil hsource'.ne_nil heq
  · rw [hacts.phase_of_ne hij]
    exact ⟨hother, fun l hl => h.spares hacts hij hother hl⟩

/-- Two builds of one script with the same tokens. -/
def twins : Bool → Call := fun _ =>
  ⟨⟨false, .reports⟩, .default, .channel .output, [], .ofText "/x.go", [], 0⟩

def twinsBefore : Builds Bool where
  tree := FileTree.empty.put ["tmp"] .directory
  world _ := { World.initial [] (.ofText "/tmp") .warning with tokens := ["0badc0de", "feedface"] }
  phase _ := .opening

/-- Both see the first name free, and only one gets it. This one then goes on until its source is
all that it has left to remove. -/
def twinsSchedule : List Bool :=
  [true, false, true, false, true, false, false, false, true, true, true, true]

theorem begins_twinsBefore : Begins twins ["tmp"] twinsBefore where
  phase _ := rfl
  tokens _ := show ∀ t ∈ ["0badc0de", "feedface"], Slashless t by decide
  script _ := Path.slashless_name_ofText _
  shared _ l h := by
    have hfind : twinsBefore.tree.find true [] (.ofText "/tmp") =
        .ok (.taken ["tmp"] .directory) := rfl
    cases hfind.symm.trans h
    rfl

theorem reaches_apart_twins :
    let b := twinsSchedule.foldl (after twins) twinsBefore
    let file := Path.ofText "/tmp/goscript-0badc0de-x.go"
    let other := Path.ofText "/tmp/goscript-feedface-x.go"
    Begins twins ["tmp"] twinsBefore ∧ Reaches twins ["tmp"] twinsBefore b ∧
      (b.phase true).source? = some file ∧ (b.phase false).source? = some other ∧
      Acts twins ["tmp"] b true (b.after twins true) ∧
      file ≠ other ∧ executableOf file ≠ executableOf other ∧
      (b.after twins true).tree.node? ["tmp", file.name] = none ∧
      (b.after twins true).tree.node? ["tmp", other.name] = some (.file []) := by
  intro b file other
  obtain ⟨hidle, hfile, hother, hstarts, hgone, hkept⟩ :
      idle twins twinsSchedule twinsBefore = true ∧ (b.phase true).source? = some file ∧
        (b.phase false).source? = some other ∧ (b.phase true).starts?.isNone = true ∧
        (b.after twins true).tree.node? ["tmp", file.name] = none ∧
        b.tree.node? ["tmp", other.name] = some (.file []) := by
    decide +kernel
  have hsound := sound_of_begins begins_twinsBefore
  have hreaches : Reaches twins ["tmp"] twinsBefore b := reaches_idle hsound hidle
  have hacts : Acts twins ["tmp"] b true (b.after twins true) :=
    (hsound.reaches hreaches).acts_idle (.inl hstarts)
  obtain ⟨-, -, hapart, hspares⟩ := reaches_apart begins_twinsBefore hreaches
  obtain ⟨hne, -, -, hexecutable, -⟩ := hapart true false file other nofun hfile hother
  have hsame := (hspares true false other _ nofun hother hacts).2 ["tmp", other.name] (.inl rfl)
  exact ⟨begins_twinsBefore, hreaches, hfile, hother, hacts, hne, hexecutable, hgone,
    hsame.trans hkept⟩

end Builds

end ScriptLauncher.Build
