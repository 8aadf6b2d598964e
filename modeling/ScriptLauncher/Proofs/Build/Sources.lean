import ScriptLauncher.Proofs.Build.Steps

/-! Sources that are asked for one after another. Each gets a file of its own, which was not
there before, and all that was there stays as it was; this rests on files being made
exclusively, and not on what is found out about a name before. -/

namespace ScriptLauncher.Build

open Host Session

structure Request where
  code : Bytes
  script : String
  directory : Option Path
  deriving DecidableEq, Repr

def Request.write (r : Request) : Session Stop Path := writeSource r.code r.script r.directory

/-- The world after some requests in turn; one that fails does not keep the next from coming. -/
def worldAfter (rs : List Request) (w : World) : World := rs.foldl (fun w r => (r.write w).2) w

/-- The request in some position gives a path. -/
def Gives (rs : List Request) (w : World) (i : Nat) (r : Request) (p : Path) : Prop :=
  rs[i]? = some r ∧ (r.write (worldAfter (rs.take i) w)).1 = .ok p

variable {rs : List Request} {r s : Request} {v w : World} {i j : Nat} {p q : Path}

/-- A world that has kept all of an earlier one. -/
structure Keeps (v w : World) : Prop where
  home : v.home = w.home
  tree : FileTree.Extends v.tree w.tree

theorem keeps_refl (w : World) : Keeps w w := ⟨rfl, .refl _⟩

theorem Keeps.trans {u : World} (h : Keeps u v) (h' : Keeps v w) : Keeps u w :=
  ⟨h.home.trans h'.home, h.tree.trans h'.tree⟩

theorem write_apply (r : Request) (w : World) :
    Keeps (r.write w).2 w ∧ ∀ p, (r.write w).1 = .ok p →
      w.isPresent p = false ∧ ∃ l, w.tree.node? l = none ∧ (r.write w).2.Holds p l r.code := by
  obtain ⟨hworld, hresult⟩ := writeSource_apply r.code r.script r.directory w
  have hsearch := Artifact.searches r.code r.script (r.directory.getD w.temporary)
    (Artifact.draws w) w
  rw [Request.write]
  generalize writeSource r.code r.script r.directory w = ended at hworld hresult ⊢
  obtain ⟨tree, tokens, drawn, heq, htree, -⟩ := hsearch.follows
  have hkeeps : Keeps (Artifact.writeSource r.code r.script
      (r.directory.getD w.temporary) w).2 w := by
    rw [show (Artifact.writeSource r.code r.script _ w).2 = _ from heq]
    exact ⟨rfl, htree⟩
  obtain ⟨records, hworld⟩ := hworld
  rw [hworld]
  refine ⟨⟨hkeeps.home, hkeeps.tree⟩, fun p hp => ?_⟩
  cases hfound : (Artifact.writeSource r.code r.script (r.directory.getD w.temporary) w).1 with
  | error f => rw [hfound, hp] at hresult; cases hresult
  | ok file =>
    rw [hfound, hp] at hresult
    cases hresult
    rw [show (Artifact.writeWithin _ _ _ _ _).1 = _ from hfound] at hsearch
    exact hsearch.fresh

theorem keeps_worldAfter (rs : List Request) (w : World) : Keeps (worldAfter rs w) w := by
  induction rs generalizing w with
  | nil => exact keeps_refl w
  | cons r rs ih => exact (ih (r.write w).2).trans (write_apply r w).1

theorem worldAfter_append (rs ss : List Request) (w : World) :
    worldAfter (rs ++ ss) w = worldAfter ss (worldAfter rs w) :=
  List.foldl_append

/-- Requests that come later keep all of what an earlier one has left. -/
theorem keeps_worldAfter_take (hij : i ≤ j) :
    Keeps (worldAfter (rs.take j) w) (worldAfter (rs.take i) w) := by
  obtain ⟨k, rfl⟩ := Nat.exists_eq_add_of_le hij
  rw [List.take_add, worldAfter_append]
  exact keeps_worldAfter _ _

theorem worldAfter_take_succ (h : rs[i]? = some r) :
    worldAfter (rs.take (i + 1)) w = (r.write (worldAfter (rs.take i) w)).2 := by
  rw [List.take_add_one, h, worldAfter_append]
  rfl

theorem Gives.fresh (h : Gives rs w i r p) :
    (worldAfter (rs.take i) w).isPresent p = false ∧
      ∃ l, (worldAfter (rs.take i) w).tree.node? l = none ∧
        (worldAfter (rs.take (i + 1)) w).Holds p l r.code := by
  rw [worldAfter_take_succ h.1]
  exact (write_apply r _).2 p h.2

theorem Gives.holds (h : Gives rs w i r p) (hij : i < j) :
    ∃ l, (worldAfter (rs.take i) w).tree.node? l = none ∧
      (worldAfter (rs.take j) w).Holds p l r.code := by
  obtain ⟨-, l, hfree, hholds⟩ := h.fresh
  have hkeeps : Keeps (worldAfter (rs.take j) w) _ := keeps_worldAfter_take hij
  exact ⟨l, hfree, hholds.mono hkeeps.home hkeeps.tree⟩

theorem Gives.lt_length (h : Gives rs w i r p) : i < rs.length :=
  (List.getElem?_eq_some_iff.1 h.1).1

theorem holds_unique {l m : Location} {c d : Bytes} (h : w.Holds p l c) (h' : w.Holds p m d) :
    l = m := by
  cases (h false).symm.trans (h' false)
  rfl

/-- Of two requests that give a path the later one finds the file of the earlier in its place. -/
theorem Gives.ne_of_lt (h : Gives rs w i r p) (h' : Gives rs w j s q) (hij : i < j)
    {l m : Location} {c d : Bytes} (hp : (worldAfter rs w).Holds p l c)
    (hq : (worldAfter rs w).Holds q m d) : l ≠ m := by
  obtain ⟨l', -, hholds⟩ := h.holds hij
  obtain ⟨m', hfree, hlast⟩ := h'.holds h'.lt_length
  have hkeeps : Keeps (worldAfter (rs.take rs.length) w) (worldAfter (rs.take j) w) :=
    keeps_worldAfter_take (Nat.le_of_lt h'.lt_length)
  rw [List.take_length] at hkeeps hlast
  obtain rfl := holds_unique hp (hholds.mono hkeeps.home hkeeps.tree)
  obtain rfl := holds_unique hq hlast
  rintro rfl
  cases hfree.symm.trans hholds.node?

/-- However many sources are asked for, and whichever of these requests fail: nothing that was
there is changed, each path that is given led nowhere when it was asked for and leads to its own
code in the end, and no two of them lead to one file. -/
theorem worldAfter_no_clobber (rs : List Request) (w : World) :
    FileTree.Extends (worldAfter rs w).tree w.tree ∧
      (∀ i r p, Gives rs w i r p →
        (worldAfter (rs.take i) w).isPresent p = false ∧
          ∃ l, (worldAfter (rs.take i) w).tree.node? l = none ∧
            (worldAfter rs w).Holds p l r.code) ∧
      ∀ i j r s p q, i ≠ j → Gives rs w i r p → Gives rs w j s q →
        p ≠ q ∧ ∀ l m c d, (worldAfter rs w).Holds p l c → (worldAfter rs w).Holds q m d →
          l ≠ m := by
  have hends : ∀ {i r p}, Gives rs w i r p →
      ∃ l, (worldAfter (rs.take i) w).tree.node? l = none ∧ (worldAfter rs w).Holds p l r.code := by
    intro i r p h
    have := h.holds h.lt_length
    rwa [List.take_length] at this
  have hne : ∀ {i j r s p q}, i ≠ j → Gives rs w i r p → Gives rs w j s q →
      ∀ l m c d, (worldAfter rs w).Holds p l c → (worldAfter rs w).Holds q m d → l ≠ m := by
    intro i j r s p q hij h h' l m c d hp hq
    rcases Nat.lt_or_gt_of_ne hij with hlt | hgt
    · exact h.ne_of_lt h' hlt hp hq
    · exact (h'.ne_of_lt h hgt hq hp).symm
  refine ⟨(keeps_worldAfter rs w).tree, fun i r p h => ⟨h.fresh.1, hends h⟩, ?_⟩
  intro i j r s p q hij h h'
  refine ⟨?_, hne hij h h'⟩
  rintro rfl
  obtain ⟨l, -, hholds⟩ := hends h
  exact hne hij h h' l l _ _ hholds hholds rfl

theorem eq_ok_of_toOption {ε α : Type} {x : Except ε α} {a : α} (h : x.toOption = some a) :
    x = .ok a := by
  cases x with
  | error e => cases h
  | ok b => exact congrArg Except.ok (Option.some.inj h)

/-- A world in which the first token that is drawn names a link to nowhere, and the others come
twice. -/
def danglingName : World :=
  { World.initial [] (.ofText "/tmp") .warning with
    tree := (FileTree.empty.put ["tmp"] .directory).put ["tmp", "goscript-0badc0de-x.go"]
      (.link "nowhere")
    tokens := ["0badc0de", "0badc0de", "feedface", "feedface"] }

theorem worldAfter_no_clobber_danglingName :
    let rs : List Request := [⟨[1], "x.go", none⟩, ⟨[2], "x", some (.ofText "/none")⟩, ⟨[3], "x", none⟩]
    let p : Path := ⟨.single, ["tmp", "goscript-feedface-x.go"]⟩
    let q : Path := ⟨.single, ["tmp", "goscript-00000004-x.go"]⟩
    Gives rs danglingName 0 ⟨[1], "x.go", none⟩ p ∧ Gives rs danglingName 2 ⟨[3], "x", none⟩ q ∧
      danglingName.isPresent p = false ∧
      (∃ l, (worldAfter rs danglingName).Holds p l [1]) ∧
      (∃ l, (worldAfter rs danglingName).Holds q l [3]) := by
  intro rs p q
  have hp : Gives rs danglingName 0 ⟨[1], "x.go", none⟩ p :=
    ⟨rfl, eq_ok_of_toOption (by decide +kernel)⟩
  have hq : Gives rs danglingName 2 ⟨[3], "x", none⟩ q :=
    ⟨rfl, eq_ok_of_toOption (by decide +kernel)⟩
  obtain ⟨-, hfresh, -⟩ := worldAfter_no_clobber rs danglingName
  obtain ⟨habsent, l, -, hl⟩ := hfresh 0 _ p hp
  obtain ⟨-, m, -, hm⟩ := hfresh 2 _ q hq
  exact ⟨hp, hq, habsent, ⟨l, hl⟩, ⟨m, hm⟩⟩

end ScriptLauncher.Build
