import ScriptLauncher.Proofs.Artifact.Search
import Mathlib.Data.Set.Function
import Mathlib.Order.Interval.Set.Defs

/-! The tries of a search one by one: which token each of them has, in which world it is made, what
it comes to, and how the last one decides the end of the search. -/

namespace ScriptLauncher.Artifact

open Host Session
open ScriptLauncher.Path (Slashless)

/-- The token of a draw, counted from a world on: one in stock, or the number of the draw. -/
def tokenAt (w : World) (i : Nat) : String := w.tokens[i]?.getD (numberedToken (w.drawn + i))

/-- The path that is tried with the token of a draw. -/
def triedAt (script : String) (directory : Path) (w : World) (i : Nat) : Path :=
  candidate directory script (tokenAt w i)

/-- The world after some tries in turn, however each of them went. -/
def afterTries (content : Bytes) (script : String) (directory : Path) : Nat → World → World
  | 0, w => w
  | n + 1, w => afterTries content script directory n (writeOnce content script directory w).2

/-- A try at a path stops with a fault: when it looks whether something is there, when it makes the
file, or when it fills it. -/
inductive Fails (w : World) (p : Path) : Fault → Prop
  | looking : w.pathExists p = .error f → Fails w p f
  | making : w.pathExists p = .ok false → w.vacancy p = .error f → Fails w p f
  | filling : w.pathExists p = .ok false → w.vacancy p = .ok l →
      World.guarded w.faults.write p (.ok ()) = .error f → Fails w p f

/-- Something is there already, or a fault of the try says so. -/
def Collides (w : World) (p : Path) : Prop :=
  w.pathExists p = .ok true ∨ ∃ f, Fails w p f ∧ f.hasCause .exists = true

variable {content : Bytes} {script : String} {directory p : Path} {v w : World} {f g : Fault}
  {i k m n : Nat}

section tokens

theorem tokenAt_drawToken (w : World) : (drawToken w).1 = tokenAt w 0 ∧
    (drawToken w).2.drawn = w.drawn + 1 ∧ ∀ i, tokenAt (drawToken w).2 i = tokenAt w (i + 1) := by
  have hnumber (i : Nat) : w.drawn + 1 + i = w.drawn + (i + 1) := Nat.add_right_comm _ _ _
  unfold drawToken tokenAt
  cases w.tokens with
  | nil => exact ⟨rfl, rfl, fun i => congrArg numberedToken (hnumber i)⟩
  | cons token tokens =>
    exact ⟨rfl, rfl, fun i =>
      congrArg (fun n => tokens[i]?.getD (numberedToken n)) (hnumber i)⟩

theorem tried_eq (script : String) (directory : Path) (w : World) :
    tried script directory w = triedAt script directory w 0 := by
  rw [tried, (tokenAt_drawToken w).1, triedAt]

theorem tokenAt_of_le (h : w.tokens.length ≤ i) : tokenAt w i = numberedToken (w.drawn + i) := by
  rw [tokenAt, List.getElem?_eq_none h]
  rfl

/-- When the tokens in stock are used up, no token comes twice. -/
theorem injOn_tokenAt (w : World) : Set.InjOn (tokenAt w) (Set.Ici w.tokens.length) := by
  intro i hi j hj h
  rw [tokenAt_of_le hi, tokenAt_of_le hj] at h
  exact Nat.add_left_cancel (numberedToken_injective h)

end tokens

section attempt

theorem Fails.unique (h : Fails w p f) (h' : Fails w p g) : f = g := by
  cases h with
  | looking hexists => cases h' <;> simp_all
  | making hexists hvacancy => cases h' <;> simp_all
  | filling hexists hvacancy hfill => cases h' <;> simp_all

theorem Fails.ne_true (h : Fails w p f) : w.pathExists p ≠ .ok true := by
  cases h <;> simp_all

theorem not_collides_of_fails (h : Fails w p f) (hf : f.hasCause .exists = false) :
    ¬ Collides w p := by
  rintro (htaken | ⟨g, hg, hcause⟩)
  · exact h.ne_true htaken
  · cases h.unique hg
    cases hf.symm.trans hcause

/-- Drawing a token changes nothing that a try asks for. -/
theorem fails_drawToken : Fails (drawToken w).2 p f ↔ Fails w p f := by
  obtain ⟨tokens, drawn, h⟩ := drawToken_eq w
  rw [h]
  constructor <;> intro hfails
  all_goals cases hfails with
  | looking hexists => exact .looking hexists
  | making hexists hvacancy => exact .making hexists hvacancy
  | filling hexists hvacancy hfill => exact .filling hexists hvacancy hfill

theorem pathExists_drawToken : (drawToken w).2.pathExists p = w.pathExists p := by
  obtain ⟨tokens, drawn, h⟩ := drawToken_eq w
  rw [h]
  rfl

variable {files : List Path}

theorem Writes.world {result : Except Fault Unit} (h : Writes content p w files result v) :
    v = w.withTree v.tree := by
  cases h with
  | unseen | taken | refused => rfl
  | unfilled | filled => rfl

theorem Writes.fails (h : Writes content p w files (.error f) v) :
    Fails w p f ∨ w.pathExists p = .ok true ∧ f.hasCause .exists = true := by
  cases h with
  | unseen hexists => exact .inl (.looking hexists)
  | taken hexists => exact .inr ⟨hexists, rfl⟩
  | refused hexists hvacancy => exact .inl (.making hexists hvacancy)
  | unfilled hexists hvacancy hfill => exact .inl (.filling hexists hvacancy hfill)

theorem Writes.not_collides (h : Writes content p w files (.ok ()) v) : ¬ Collides w p := by
  cases h with
  | filled hexists hvacancy hfill =>
    rintro (htaken | ⟨g, hg, -⟩)
    · cases hexists.symm.trans htaken
    · cases hg <;> simp_all

/-- What a try leaves when it gives no path: at most an empty file. -/
theorem Writes.left (h : Writes content p w files (.error f) v) :
    files = [] ∧ v.tree = w.tree ∨
      files = [p] ∧ ∃ l, w.vacancy p = .ok l ∧ v.tree = w.tree.put l (.file []) := by
  cases h with
  | unseen | taken | refused => exact .inl ⟨rfl, rfl⟩
  | unfilled _ hvacancy => exact .inr ⟨rfl, _, hvacancy, rfl⟩

theorem Writes.holds (h : Writes content p w files (.ok ()) v) : ∃ l, v.Holds p l content := by
  cases h with
  | filled _ hvacancy => exact ⟨_, World.holds_of_find (find_put hvacancy content)⟩

/-- What a try gives, by how its write ended. -/
def outcome (p : Path) : Except Fault Unit → Except Fault (Option Path)
  | .ok () => .ok (some p)
  | .error f => if f.hasCause .exists then .ok none else .error f

theorem writeOnce_eq (content : Bytes) (script : String) (directory : Path) (w : World) :
    let p := tried script directory w
    let written := write content p (drawToken w).2
    writeOnce content script directory w = (outcome p written.1, written.2) := by
  dsimp only
  rw [writeOnce_apply]
  cases write content (tried script directory w) (drawToken w).2 with
  | mk result v =>
    cases result with
    | ok => rfl
    | error f =>
      dsimp only [outcome]
      split <;> rfl

theorem writeOnce_writes (content : Bytes) (script : String) (directory : Path) (w : World) :
    let p := tried script directory w
    let ended := writeOnce content script directory w
    ∃ result, Writes content p (drawToken w).2 (if makes (drawToken w).2 p then [p] else []) result
      ended.2 ∧ ended.1 = outcome p result := by
  rw [writeOnce_eq]
  exact ⟨_, writes _ _ _, rfl⟩

/-- A try collides and gives nothing, or stops with another fault, or gives its path, which leads
to the content then. -/
theorem writeOnce_cases (content : Bytes) (script : String) (directory : Path) (w : World) :
    let p := tried script directory w
    let ended := writeOnce content script directory w
    Collides w p ∧ ended.1 = .ok none ∨
      (∃ f, Fails w p f ∧ f.hasCause .exists = false ∧ ended.1 = .error f) ∨
      ¬ Collides w p ∧ ended.1 = .ok (some p) ∧ ∃ l, ended.2.Holds p l content := by
  intro p ended
  obtain ⟨result, hwrites, hresult⟩ := writeOnce_writes content script directory w
  cases result with
  | error f =>
    have hfails := hwrites.fails
    rw [fails_drawToken, pathExists_drawToken] at hfails
    cases hf : f.hasCause .exists with
    | true =>
      refine .inl ⟨?_, by simpa [outcome, hf] using hresult⟩
      exact hfails.elim (fun h => .inr ⟨f, h, hf⟩) fun h => .inl h.1
    | false =>
      rw [hf] at hfails
      exact .inr (.inl ⟨f, hfails.resolve_right (by simp), hf, by simpa [outcome, hf] using hresult⟩)
  | ok =>
    have hnot := hwrites.not_collides
    simp only [Collides, pathExists_drawToken, fails_drawToken] at hnot
    exact .inr (.inr ⟨hnot, hresult, hwrites.holds⟩)

end attempt

section tries

theorem writeOnce_world (content : Bytes) (script : String) (directory : Path) (w : World) :
    ∃ tree, (writeOnce content script directory w).2 = (drawToken w).2.withTree tree := by
  obtain ⟨result, hwrites, -⟩ := writeOnce_writes content script directory w
  exact ⟨_, hwrites.world⟩

/-- Tries use up tokens and change files. -/
theorem afterTries_eq (content : Bytes) (script : String) (directory : Path) (n : Nat)
    (w : World) : ∃ tree tokens, afterTries content script directory n w =
      { w with tree, tokens, drawn := w.drawn + n } ∧
      ∀ i, tokenAt (afterTries content script directory n w) i = tokenAt w (n + i) := by
  induction n generalizing w with
  | zero => exact ⟨w.tree, w.tokens, rfl, fun i => by rw [afterTries, Nat.zero_add]⟩
  | succ n ih =>
    obtain ⟨tree, hworld⟩ := writeOnce_world content script directory w
    obtain ⟨-, hdrawn, htoken⟩ := tokenAt_drawToken w
    obtain ⟨tokens, drawn, hdraw⟩ := drawToken_eq w
    obtain ⟨tree', tokens', hafter, htoken'⟩ := ih ((drawToken w).2.withTree tree)
    rw [afterTries, hworld]
    refine ⟨tree', tokens', ?_, fun i => ?_⟩
    · rw [hafter]
      rw [hdraw] at hdrawn ⊢
      dsimp only at hdrawn
      simp only [World.withTree, hdrawn]
      rw [Nat.add_assoc, Nat.add_comm 1 n]
    · rw [htoken', Nat.add_right_comm, ← htoken]
      rfl

theorem tried_afterTries (content : Bytes) (script : String) (directory : Path) (i : Nat)
    (w : World) : tried script directory (afterTries content script directory i w) =
      triedAt script directory w i := by
  obtain ⟨tree, tokens, -, htoken⟩ := afterTries_eq content script directory i w
  rw [tried_eq, triedAt, htoken]
  rfl

theorem afterTries_succ (content : Bytes) (script : String) (directory : Path) (n : Nat)
    (w : World) : afterTries content script directory (n + 1) w =
      (writeOnce content script directory (afterTries content script directory n w)).2 := by
  induction n generalizing w with
  | zero => rfl
  | succ n ih => exact ih (writeOnce content script directory w).2

/-- The try of a search that comes after some others collides. -/
def CollidesAt (content : Bytes) (script : String) (directory : Path) (w : World) (i : Nat) : Prop :=
  Collides (afterTries content script directory i w) (triedAt script directory w i)

theorem collidesAt_iff : CollidesAt content script directory w i ↔
    (writeOnce content script directory (afterTries content script directory i w)).1 = .ok none := by
  have hcases := writeOnce_cases content script directory (afterTries content script directory i w)
  rw [tried_afterTries] at hcases
  unfold CollidesAt
  rcases hcases with ⟨hcollides, hended⟩ | ⟨f, hfails, hf, hended⟩ | ⟨hnot, hended, -⟩
  · simp [hcollides, hended]
  · simp [not_collides_of_fails hfails hf, hended]
  · simp [hnot, hended]

theorem writeWithin_succ (content : Bytes) (script : String) (directory : Path) (n : Nat)
    (w : World) : writeWithin content script directory (n + 1) w =
      match writeOnce content script directory w with
      | (.ok (some p), v) => (.ok p, v)
      | (.ok none, v) => writeWithin content script directory n v
      | (.error f, v) => (.error f, v) := by
  rw [writeWithin, bind_apply]
  cases writeOnce content script directory w with
  | mk result v =>
    cases result with
    | error f => rfl
    | ok p? => cases p? <;> rfl

/-- A search ends with its first try that does not collide, as this one does, unless it runs out of
draws before. -/
theorem writeWithin_cases (content : Bytes) (script : String) (directory : Path) (n : Nat)
    (w : World) :
    let ended := writeWithin content script directory n w
    (∃ k < n, (∀ i < k, CollidesAt content script directory w i) ∧
      ¬ CollidesAt content script directory w k ∧
      (writeOnce content script directory (afterTries content script directory k w)).1 =
        ended.1.map some ∧
      ended.2 = afterTries content script directory (k + 1) w) ∨
    (∀ i < n, CollidesAt content script directory w i) ∧
      ended = (.error (.ofCause .exists directory.text), afterTries content script directory n w) := by
  simp only [collidesAt_iff]
  induction n generalizing w with
  | zero => exact .inr ⟨fun i hi => absurd hi (Nat.not_lt_zero i), rfl⟩
  | succ n ih =>
    rw [writeWithin_succ]
    cases hfirst : writeOnce content script directory w with
    | mk result v =>
      have hnow : (∀ i < 0, (writeOnce content script directory
          (afterTries content script directory i w)).1 = .ok none) :=
        fun i hi => absurd hi (Nat.not_lt_zero i)
      have hafter (i : Nat) : afterTries content script directory (i + 1) w =
          afterTries content script directory i v := by
        rw [afterTries, hfirst]
      cases result with
      | error f =>
        refine .inl ⟨0, Nat.succ_pos n, hnow, ?_, ?_, (hafter 0).symm⟩
        · rw [afterTries, hfirst]
          nofun
        · rw [afterTries, hfirst]
          rfl
      | ok p? =>
        cases p? with
        | some p =>
          refine .inl ⟨0, Nat.succ_pos n, hnow, ?_, ?_, (hafter 0).symm⟩
          · rw [afterTries, hfirst]
            nofun
          · rw [afterTries, hfirst]
            rfl
        | none =>
          -- the first try has collided, and the others are those of the search that goes on
          have hshift {k : Nat} (h : ∀ i < k, (writeOnce content script directory
              (afterTries content script directory i v)).1 = .ok none) :
              ∀ i < k + 1, (writeOnce content script directory
                (afterTries content script directory i w)).1 = .ok none := by
            intro i hi
            cases i with
            | zero => rw [afterTries, hfirst]
            | succ i =>
              rw [hafter]
              exact h i (Nat.lt_of_succ_lt_succ hi)
          rcases ih v with ⟨k, hk, hbefore, hlast, hresult, hworld⟩ | ⟨hall, hended⟩
          · refine .inl ⟨k + 1, Nat.succ_lt_succ hk, hshift hbefore, ?_, ?_, ?_⟩
            · rwa [hafter]
            · rwa [hafter]
            · rwa [hafter]
          · refine .inr ⟨hshift hall, ?_⟩
            rwa [hafter]

theorem map_some_injective : Function.Injective (Except.map some : Except Fault Path → _) := by
  intro x y h
  cases x <;> cases y <;> cases h <;> rfl

theorem writeWithin_of_error (h : (writeWithin content script directory n w).1 = .error f) :
    ∃ m, (writeWithin content script directory n w).2 = afterTries content script directory m w ∧
      ∀ i < m, ∀ p, (writeOnce content script directory
        (afterTries content script directory i w)).1 ≠ .ok (some p) := by
  have hcollided {i : Nat} (hi : CollidesAt content script directory w i) (p : Path) :
      (writeOnce content script directory (afterTries content script directory i w)).1 ≠
        .ok (some p) := by
    rw [collidesAt_iff.1 hi]
    nofun
  rcases writeWithin_cases content script directory n w with
    ⟨k, -, hbefore, -, hresult, hworld⟩ | ⟨hall, hended⟩
  · refine ⟨k + 1, hworld, fun i hi p => ?_⟩
    rcases Nat.lt_succ_iff_lt_or_eq.1 hi with hlt | rfl
    · exact hcollided (hbefore i hlt) p
    · rw [hresult, h]
      nofun
  · exact ⟨n, congrArg Prod.snd hended, fun i hi => hcollided (hall i hi)⟩

end tries

section trees

theorem makes_congr (hv : ∃ tokens drawn, v = { w with tokens, drawn }) :
    makes v p = makes w p := by
  obtain ⟨tokens, drawn, rfl⟩ := hv
  rfl

theorem tree_writeOnce
    (h : ∀ p, (writeOnce content script directory w).1 ≠ .ok (some p)) :
    let p := tried script directory w
    let tree := (writeOnce content script directory w).2.tree
    makes w p = false ∧ tree = w.tree ∨
      makes w p = true ∧ ∃ l, w.tree.node? l = none ∧ tree = w.tree.put l (.file []) := by
  intro p tree
  obtain ⟨result, hwrites, hresult⟩ := writeOnce_writes content script directory w
  have hdrawn : (drawToken w).2.tree = w.tree := by
    obtain ⟨tokens, drawn, hdraw⟩ := drawToken_eq w
    rw [hdraw]
  cases result with
  | ok => exact absurd hresult (h p)
  | error f =>
    rw [makes_congr (drawToken_eq w)] at hwrites
    rw [← hdrawn]
    rcases hwrites.left with ⟨hfiles, hsame⟩ | ⟨hfiles, l, hvacancy, hput⟩
    · refine .inl ⟨?_, hsame⟩
      by_contra hmakes
      simp [p, hmakes] at hfiles
    · refine .inr ⟨?_, l, FileTree.node?_of_find (World.vacancy_eq_ok_iff.1 hvacancy).2.2, hput⟩
      by_contra hmakes
      simp [p, hmakes] at hfiles

/-- Tries that give no path leave the tree as it was just when none of their paths was free, and
leave nothing but empty files in any case. -/
theorem tree_afterTries
    (h : ∀ i < n, ∀ p, (writeOnce content script directory
      (afterTries content script directory i w)).1 ≠ .ok (some p)) :
    let tree := (afterTries content script directory n w).tree
    (tree = w.tree ↔ ∀ i < n, makes w (triedAt script directory w i) = false) ∧
      ∀ l, tree.node? l = w.tree.node? l ∨
        w.tree.node? l = none ∧ tree.node? l = some (.file []) := by
  induction n with
  | zero => exact ⟨⟨fun _ i hi => absurd hi (Nat.not_lt_zero i), fun _ => rfl⟩, fun l => .inl rfl⟩
  | succ n ih =>
    obtain ⟨hiff, hnodes⟩ := ih fun i hi => h i (Nat.lt_succ_of_lt hi)
    have hlast := tree_writeOnce (h n (Nat.lt_succ_self n))
    rw [afterTries_succ]
    rw [tried_afterTries] at hlast
    have hmakes (htree : (afterTries content script directory n w).tree = w.tree) :
        makes (afterTries content script directory n w) (triedAt script directory w n) =
          makes w (triedAt script directory w n) := by
      obtain ⟨tree, tokens, hworld, -⟩ := afterTries_eq content script directory n w
      refine makes_congr ⟨tokens, w.drawn + n, ?_⟩
      rw [hworld] at htree ⊢
      dsimp only at htree
      rw [htree]
    rcases hlast with ⟨hnone, hsame⟩ | ⟨hmade, l, hfree, hput⟩
    · dsimp only
      rw [hsame]
      refine ⟨⟨fun htree i hi => ?_, fun hall => ?_⟩, hnodes⟩
      · rcases Nat.lt_succ_iff_lt_or_eq.1 hi with hlt | rfl
        · exact hiff.1 htree i hlt
        · rw [← hmakes htree, hnone]
      · exact hiff.2 fun i hi => hall i (Nat.lt_succ_of_lt hi)
    · -- the file that was made stands where nothing did before
      have hl : l ≠ [] := FileTree.ne_nil_of_node? (by rw [hfree]; nofun)
      have hbefore : w.tree.node? l = none := by
        rcases hnodes l with heq | ⟨hnone, -⟩
        · exact heq.symm.trans hfree
        · exact hnone
      dsimp only
      rw [hput]
      refine ⟨⟨fun htree => ?_, fun hall => ?_⟩, fun m => ?_⟩
      · have hnode := FileTree.node?_put_self (afterTries content script directory n w).tree hl
          (.file [])
        rw [htree, hbefore] at hnode
        cases hnode
      · have htree := hiff.2 fun i hi => hall i (Nat.lt_succ_of_lt hi)
        rw [hmakes htree, hall n (Nat.lt_succ_self n)] at hmade
        cases hmade
      · by_cases hm : m = l
        · subst hm
          exact .inr ⟨hbefore, FileTree.node?_put_self _ hl _⟩
        · rw [FileTree.node?_put_ne _ hm]
          exact hnodes m

end trees

section null

/-- A path with a null in it, for which no fault stands ready that would come first. -/
def Unacceptable (w : World) (p : Path) : Prop :=
  World.holdsNull p.text = true ∧
    match w.faults.stat.lookup p.text with
    | none => True
    | some f => (f.hasCause .missing || f.hasCause .notDirectory) = true ∧
        w.faults.create.lookup p.text = none

theorem Fails.isOfSystem (h : Fails w p f) (hw : w.OfSystem) (hp : Plain p.text) :
    f.isOfSystem = true := by
  cases h with
  | looking hexists => exact World.isOfSystem_pathExists hw hp hexists
  | making _ hvacancy => exact World.isOfSystem_vacancy hw hp hvacancy
  | filling _ _ hfill => exact World.isOfSystem_guarded hw.write hp (fun hok => by cases hok) hfill

/-- Where only faults of the system stand ready, a try stops with another fault just when the
system cannot take its path. -/
theorem Fails.unacceptable (h : Fails w p f) (hw : w.OfSystem) :
    Unacceptable w p ∧ f = .embeddedNull ∨ ¬ Unacceptable w p ∧ f.isOfSystem = true := by
  by_cases hp : Plain p.text
  · exact .inr ⟨fun hnull => Bool.false_ne_true (hp.symm.trans hnull.1), h.isOfSystem hw hp⟩
  replace hp : World.holdsNull p.text = true := Bool.eq_true_of_not_eq_false hp
  have hstat : w.stat p = .error _ := World.guarded_of_null hp
  have hvacancy : w.vacancy p = .error _ := World.guarded_of_null hp
  have hexists := World.pathExists_of_error hstat
  unfold Unacceptable
  cases hlook : w.faults.stat.lookup p.text with
  | none =>
    rw [hlook] at hexists
    cases h.unique (.looking hexists)
    exact .inl ⟨⟨hp, trivial⟩, rfl⟩
  | some g =>
    rw [hlook, Option.elim, Fault.hasCause_withPath, Fault.hasCause_withPath] at hexists
    by_cases hnone : (g.hasCause .missing || g.hasCause .notDirectory) = true
    · -- nothing seems to be there, and the question goes on to the new file
      rw [if_pos hnone] at hexists
      cases h.unique (.making hexists hvacancy)
      cases hmake : w.faults.create.lookup p.text with
      | none => exact .inl ⟨⟨hp, hnone, rfl⟩, rfl⟩
      | some g' =>
        refine .inr ⟨fun hnull => ?_, World.isOfSystem_ready hw.create hmake⟩
        cases hnull.2.2
    · rw [if_neg hnone] at hexists
      cases h.unique (.looking hexists)
      exact .inr ⟨fun hnull => hnone hnull.2.1, World.isOfSystem_ready hw.stat hlook⟩

theorem Collides.not_unacceptable (h : Collides w p) (hw : w.OfSystem) : ¬ Unacceptable w p := by
  rcases h with htaken | ⟨f, hfails, hcause⟩
  · obtain ⟨n, hstat⟩ := World.pathExists_eq_true_iff.1 htaken
    have hplain := (World.guarded_eq_ok_iff.1 hstat).2.1
    exact fun hnull => Bool.false_ne_true (hplain.symm.trans hnull.1)
  · rcases hfails.unacceptable hw with ⟨-, rfl⟩ | ⟨hnot, -⟩
    · cases hcause
    · exact hnot

/-- A search ends with a fault that is none of the system just when the system cannot take the path
of its last draw. -/
theorem writeSource_refused (content : Bytes) (script : String) (directory : Path)
    (hw : w.OfSystem) :
    let ended := writeSource content script directory w
    ∃ i, ended.2.drawn = w.drawn + (i + 1) ∧
      (Unacceptable w (triedAt script directory w i) ∧ ended.1 = .error .embeddedNull ∨
        ¬ Unacceptable w (triedAt script directory w i) ∧
          ∀ f, ended.1 = .error f → f.isOfSystem = true) := by
  intro ended
  have hlater (n : Nat) (p : Path) : (afterTries content script directory n w).OfSystem ∧
      (afterTries content script directory n w).drawn = w.drawn + n ∧
      (Unacceptable (afterTries content script directory n w) p ↔ Unacceptable w p) := by
    obtain ⟨tree, tokens, h, -⟩ := afterTries_eq content script directory n w
    rw [h]
    exact ⟨{ hw with }, rfl, Iff.rfl⟩
  -- the draws before the last collide, which those with a null in their path never do
  have hcollided {i : Nat} (h : CollidesAt content script directory w i) :
      ¬ Unacceptable w (triedAt script directory w i) := by
    obtain ⟨hsystem, -, hsame⟩ := hlater i (triedAt script directory w i)
    exact mt hsame.2 (Collides.not_unacceptable h hsystem)
  rcases writeWithin_cases content script directory (draws w) w with
    ⟨k, -, -, hlast, hresult, hworld⟩ | ⟨hall, hended⟩
  · obtain ⟨hsystem, -, hsame⟩ := hlater k (triedAt script directory w k)
    refine ⟨k, (congrArg World.drawn hworld).trans (hlater (k + 1) directory).2.1, ?_⟩
    have hcases := writeOnce_cases content script directory (afterTries content script directory k w)
    dsimp only at hcases
    rw [tried_afterTries, hresult] at hcases
    rcases hcases with ⟨hcollides, -⟩ | ⟨f, hfails, -, hended⟩ | ⟨-, hended, -⟩
    · exact absurd hcollides hlast
    · replace hended : ended.1 = .error f := map_some_injective hended
      rw [hended]
      rcases hfails.unacceptable hsystem with ⟨hnull, rfl⟩ | ⟨hnot, hf⟩
      · exact .inl ⟨hsame.1 hnull, rfl⟩
      · exact .inr ⟨mt hsame.2 hnot, fun g hg => Except.error.inj hg ▸ hf⟩
    · replace hended : ended.1 = .ok (triedAt script directory w k) := map_some_injective hended
      have hsearch := searches content script directory (draws w) w
      rw [show (writeWithin content script directory (draws w) w).1 = _ from hended] at hsearch
      refine .inr ⟨fun hnull => Bool.false_ne_true (hsearch.plain.symm.trans hnull.1), ?_⟩
      rw [hended]
      nofun
  · replace hended : ended = _ := hended
    refine ⟨draws w - 1, ?_, .inr ⟨hcollided (hall _ (Nat.sub_lt (Nat.succ_pos _) Nat.one_pos)), ?_⟩⟩
    · rw [hended]
      exact (hlater (draws w) directory).2.1
    · rw [hended]
      rintro f ⟨⟩
      rfl

end null

end ScriptLauncher.Artifact
