import ScriptLauncher.Proofs.Artifact.Tries
import Mathlib.Data.Finset.Card
import Mathlib.Order.Interval.Finset.Nat

/-! What a search may run into, and that it is over when it has run into all of it: each try that
collides does so under a name that stands last in a path to something, or in one with a fault
ready for it, and no name comes twice where no token does. -/

namespace ScriptLauncher.Artifact

open Host Session
open ScriptLauncher.Path (Slashless)

/-- The last names of all paths at which something stands, and of those with a fault ready for a
search. -/
def obstacles (w : World) : Finset String :=
  (w.tree.entries.map (fun e => e.1.getLastD "") ++
    (w.faults.stat ++ w.faults.create ++ w.faults.write).map
      fun e => (Path.ofText e.1).name).toFinset

variable {content : Bytes} {script : String} {directory p : Path} {v w : World} {f : Fault}
  {i k m n : Nat} {files : List Path}

/-- There are no more of them than things in the tree and faults that stand ready. -/
theorem card_obstacles_le (w : World) : (obstacles w).card ≤ w.tree.entries.length +
    (w.faults.stat.length + w.faults.create.length + w.faults.write.length) := by
  have hcard : (obstacles w).card ≤ _ := List.toFinset_card_le _
  simpa only [List.length_append, List.length_map] using hcard

theorem card_obstacles_lt_draws (w : World) :
    w.tokens.length + (obstacles w).card < draws w := by
  have hcard := card_obstacles_le w
  unfold draws
  omega

section names

theorem slashless_name_candidate (directory : Path) (script token : String) :
    Slashless (candidate directory script token).name := by
  obtain ⟨init, stem, hparts⟩ := isSource_candidate ⟨.relative, []⟩ script token
  have hname : (candidate directory script token).name =
      (Path.ofText (mark ++ token ++ "-" ++ baseName script)).name := by
    rw [candidate_eq] at hparts
    replace hparts : Path.names (mark ++ token ++ "-" ++ baseName script).toList =
      init ++ [stem ++ sourceSuffix] := hparts
    rw [candidate_eq, Path.ofText, Path.name, Path.name, hparts]
    simp only [← List.append_assoc, List.getLastD_eq_getLast?, List.getLast?_concat]
  rw [hname]
  exact Path.slashless_name_ofText _

theorem IsSource.name_ofText_text (h : IsSource p) (hslash : Slashless p.name) :
    (Path.ofText p.text).name = p.name := by
  refine Path.name_ofText_text hslash ?_ h.ne_nil
  have hlength := h.length_name
  rw [← String.length_toList] at hlength
  simp only [Path.isName, Bool.and_eq_true, bne_iff_ne]
  constructor <;> intro hshort <;> simp [hshort] at hlength

theorem mem_obstacles_of_entry (h : ∃ e ∈ w.tree.entries, e.1.getLast? = some p.name) :
    p.name ∈ obstacles w := by
  obtain ⟨e, he, hlast⟩ := h
  rw [obstacles, List.mem_toFinset]
  refine List.mem_append_left _ (List.mem_map.2 ⟨e, he, ?_⟩)
  rw [List.getLastD_eq_getLast?, hlast]
  rfl

theorem mem_obstacles_of_fault (h : IsSource p) (hslash : Slashless p.name)
    (hready : ∃ g, w.faults.stat.lookup p.text = some g ∨ w.faults.create.lookup p.text = some g ∨
      w.faults.write.lookup p.text = some g) : p.name ∈ obstacles w := by
  have hmem {ready : List (String × Fault)} {g : Fault} (hg : ready.lookup p.text = some g) :
      (p.text, g) ∈ ready := by
    obtain ⟨before, after, hready, -⟩ := List.lookup_eq_some_iff.1 hg
    simp [hready]
  obtain ⟨g, hg⟩ := hready
  rw [obstacles, List.mem_toFinset]
  refine List.mem_append_right _ (List.mem_map.2 ⟨(p.text, g), ?_, h.name_ofText_text hslash⟩)
  simp only [List.mem_append]
  rcases hg with hg | hg | hg
  · exact .inl (.inl (hmem hg))
  · exact .inl (.inr (hmem hg))
  · exact .inr (hmem hg)

theorem IsSource.mem_obstacles_of_isPresent (h : IsSource p) (hp : w.isPresent p = true) :
    p.name ∈ obstacles w := by
  obtain ⟨hdot, hup⟩ := ne_dots_of_length h.length_name
  exact mem_obstacles_of_entry (World.exists_of_isPresent h.getLast?_parts hdot hup hp)

/-- A try collides under the name of an obstacle. -/
theorem Collides.mem_obstacles (h : Collides w p) (hp : IsSource p) (hslash : Slashless p.name) :
    p.name ∈ obstacles w := by
  obtain ⟨hdot, hup⟩ := ne_dots_of_length hp.length_name
  rcases h with htaken | ⟨f, hfails, hcause⟩
  · obtain ⟨n, hstat⟩ := World.pathExists_eq_true_iff.1 htaken
    exact hp.mem_obstacles_of_isPresent (World.isPresent_of_stat hp.getLast?_parts hdot hup hstat)
  cases hfails with
  | looking hexists =>
    obtain ⟨g, hg⟩ := World.lookup_of_stat (World.pathExists_eq_error_iff.1 hexists).1 hcause
    exact mem_obstacles_of_fault hp hslash ⟨g, .inl hg⟩
  | making _ hvacancy =>
    rcases World.lookup_of_vacancy hvacancy hcause with ⟨g, hg⟩ | hpresent
    · exact mem_obstacles_of_fault hp hslash ⟨g, .inr (.inl hg)⟩
    · exact hp.mem_obstacles_of_isPresent hpresent
  | filling _ _ hfill =>
    rcases World.guarded_eq_error hfill with ⟨g, hg, -⟩ | ⟨-, -, rfl⟩ | ⟨-, -, hask⟩
    · exact mem_obstacles_of_fault hp hslash ⟨g, .inr (.inr hg)⟩
    · cases hcause
    · cases hask

end names

section growth

theorem obstacles_drawToken (w : World) : obstacles (drawToken w).2 = obstacles w := by
  obtain ⟨tokens, drawn, h⟩ := drawToken_eq w
  rw [h]
  rfl

/-- What a try leaves when it gives no path is no new obstacle, since the fault that it met stands
ready for the same path. -/
theorem Writes.obstacles_subset (h : Writes content p w files (.error f) v) (hp : IsSource p)
    (hslash : Slashless p.name) : obstacles v ⊆ obstacles w := by
  cases h with
  | unseen | taken | refused => exact Finset.Subset.refl _
  | @unfilled l _ _ hvacancy hfill =>
    obtain ⟨-, hplain, hfind⟩ := World.vacancy_eq_ok_iff.1 hvacancy
    obtain ⟨hdot, hup⟩ := ne_dots_of_length hp.length_name
    obtain ⟨-, hleads⟩ := FileTree.find_eq_ok_iff.1 hfind
    have hl : l.getLast? = some p.name :=
      hleads.getLast?_location rfl hp.getLast?_parts hdot hup
    have hself : p.name ∈ obstacles w := by
      rcases World.guarded_eq_error hfill with ⟨g, hg, -⟩ | ⟨-, hnull, -⟩ | ⟨-, -, hask⟩
      · exact mem_obstacles_of_fault hp hslash ⟨g, .inr (.inr hg)⟩
      · cases hplain.symm.trans hnull
      · cases hask
    intro name hname
    simp only [obstacles, List.mem_toFinset, World.withTree, FileTree.put, FileTree.remove,
      List.map_cons, List.cons_append, List.mem_cons, List.mem_append] at hname
    rcases hname with rfl | hname | hname
    · rwa [List.getLastD_eq_getLast?, hl]
    · obtain ⟨e, he, rfl⟩ := List.mem_map.1 hname
      rw [obstacles, List.mem_toFinset]
      exact List.mem_append_left _ (List.mem_map_of_mem (List.mem_filter.1 he).1)
    · rw [obstacles, List.mem_toFinset]
      exact List.mem_append_right _ hname

theorem obstacles_writeOnce (h : Collides w (tried script directory w)) :
    obstacles (writeOnce content script directory w).2 ⊆ obstacles w := by
  obtain ⟨result, hwrites, -⟩ := writeOnce_writes content script directory w
  rw [← obstacles_drawToken w]
  cases result with
  | ok =>
    refine absurd ?_ hwrites.not_collides
    simpa only [Collides, pathExists_drawToken, fails_drawToken] using h
  | error f =>
    exact hwrites.obstacles_subset (isSource_candidate _ _ _) (slashless_name_candidate _ _ _)

/-- Tries that collide bring no new obstacles. -/
theorem obstacles_afterTries (h : ∀ i < n, CollidesAt content script directory w i) :
    obstacles (afterTries content script directory n w) ⊆ obstacles w := by
  induction n with
  | zero => exact Finset.Subset.refl _
  | succ n ih =>
    have hlast := h n (Nat.lt_succ_self n)
    rw [CollidesAt, ← tried_afterTries content] at hlast
    rw [afterTries_succ]
    exact (obstacles_writeOnce hlast).trans (ih fun i hi => h i (Nat.lt_succ_of_lt hi))

end growth

section count

/-- The tokens of some draws are all different, and none of them has a slash in it. -/
structure TokensDiffer (w : World) (draws : Set Nat) : Prop where
  injOn : Set.InjOn (tokenAt w) draws
  slashless : ∀ i ∈ draws, Slashless (tokenAt w i)

/-- So are the tokens that come when those in stock are used up. -/
theorem tokensDiffer_of_le (h : w.tokens.length ≤ n) : TokensDiffer w (Set.Icc n m) where
  injOn := (injOn_tokenAt w).mono fun _ hi => h.trans hi.1
  slashless := fun i hi => by
    rw [tokenAt_of_le (h.trans hi.1)]
    exact slashless_numberedToken _

/-- Of more draws with different tokens than there are obstacles, one at least does not collide. -/
theorem exists_not_collidesAt (content : Bytes) (hscript : Slashless script) (directory : Path)
    (h : TokensDiffer w (Set.Icc n (n + (obstacles w).card))) :
    ∃ i ≤ n + (obstacles w).card, ¬ CollidesAt content script directory w i := by
  by_contra! hall
  have hmem : ∀ i ∈ Finset.Icc n (n + (obstacles w).card),
      (triedAt script directory w i).name ∈ obstacles w := by
    intro i hi
    have hle := (Finset.mem_Icc.1 hi).2
    have hcollides := hall i hle
    refine obstacles_afterTries (fun j hj => hall j (hj.le.trans hle)) ?_
    exact hcollides.mem_obstacles (isSource_candidate _ _ _) (slashless_name_candidate _ _ _)
  have hinj : Set.InjOn (fun i => (triedAt script directory w i).name)
      (Finset.Icc n (n + (obstacles w).card)) := by
    rw [Finset.coe_Icc]
    exact fun i hi j hj hname =>
      h.injOn hi hj (name_candidate_inj hscript (h.slashless i hi) (h.slashless j hj) hname)
  -- each of these draws has a name of its own, and there are not as many names
  have hcard := Finset.card_le_card_of_injOn _ hmem hinj
  rw [Nat.card_Icc] at hcard
  omega

/-- A search ends with its first try that does not collide, as this one does: it never runs out of
draws. -/
theorem writeSource_cases (content : Bytes) (hscript : Slashless script) (directory : Path)
    (w : World) :
    let ended := writeSource content script directory w
    ∃ k < draws w, (∀ i < k, CollidesAt content script directory w i) ∧
      ¬ CollidesAt content script directory w k ∧
      (writeOnce content script directory (afterTries content script directory k w)).1 =
        ended.1.map some ∧
      ended.2 = afterTries content script directory (k + 1) w := by
  rcases writeWithin_cases content script directory (draws w) w with h | ⟨hall, -⟩
  · exact h
  · obtain ⟨i, hi, hnot⟩ := exists_not_collidesAt content hscript directory
      (tokensDiffer_of_le (Nat.le_refl w.tokens.length))
    exact absurd (hall i (hi.trans_lt (card_obstacles_lt_draws w))) hnot

/-- The last try of a search gives its path, which leads to the content then, or stops with a fault
that is passed on. -/
theorem writeSource_last (content : Bytes) (hscript : Slashless script) (directory : Path)
    (w : World) :
    let ended := writeSource content script directory w
    ∃ k, (∀ i < k, CollidesAt content script directory w i) ∧
      ¬ CollidesAt content script directory w k ∧
      ended.2 = afterTries content script directory (k + 1) w ∧
      ((∃ l, ended.1 = .ok (triedAt script directory w k) ∧
          ended.2.Holds (triedAt script directory w k) l content) ∨
        ∃ f, Fails (afterTries content script directory k w) (triedAt script directory w k) f ∧
          f.hasCause .exists = false ∧ ended.1 = .error f) := by
  intro ended
  obtain ⟨k, -, hbefore, hlast, hresult, hworld⟩ := writeSource_cases content hscript directory w
  refine ⟨k, hbefore, hlast, hworld, ?_⟩
  change _ = ended.1.map some at hresult
  change ended.2 = _ at hworld
  have hcases := writeOnce_cases content script directory (afterTries content script directory k w)
  dsimp only at hcases
  rw [tried_afterTries, ← afterTries_succ, hresult, ← hworld] at hcases
  rcases hcases with ⟨hcollides, -⟩ | ⟨f, hfails, hf, hended⟩ | ⟨-, hended, l, hholds⟩
  · exact absurd hcollides hlast
  · exact .inr ⟨f, hfails, hf, map_some_injective hended⟩
  · exact .inl ⟨l, map_some_injective hended, hholds⟩

/-- More draws than a search takes change nothing. -/
theorem writeWithin_of_lt (hbefore : ∀ i < k, CollidesAt content script directory w i)
    (hlast : ¬ CollidesAt content script directory w k) (hk : k < n) :
    (writeOnce content script directory (afterTries content script directory k w)).1 =
        (writeWithin content script directory n w).1.map some ∧
      (writeWithin content script directory n w).2 =
        afterTries content script directory (k + 1) w := by
  rcases writeWithin_cases content script directory n w with
    ⟨k', -, hbefore', hlast', hended⟩ | ⟨hall, -⟩
  · have hsame : k' = k :=
      Nat.le_antisymm (Nat.not_lt.1 fun h => hlast (hbefore' k h))
        (Nat.not_lt.1 fun h => hlast' (hbefore k' h))
    exact hsame ▸ hended
  · exact absurd (hall k hk) hlast

theorem writeWithin_of_le (hscript : Slashless script) (h : draws w ≤ n) :
    writeWithin content script directory n w = writeSource content script directory w := by
  obtain ⟨k, hk, hbefore, hlast, hresult, hworld⟩ := writeSource_cases content hscript directory w
  obtain ⟨hresult', hworld'⟩ := writeWithin_of_lt hbefore hlast (hk.trans_le h)
  exact Prod.ext (map_some_injective (hresult'.symm.trans hresult)) (hworld'.trans hworld.symm)

/-- A search is one try and, where that collides, another search: it never comes to its bound. -/
theorem writeSource_unfold (content : Bytes) (hscript : Slashless script) (directory : Path)
    (w : World) : writeSource content script directory w =
      match writeOnce content script directory w with
      | (.ok (some p), v) => (.ok p, v)
      | (.ok none, v) => writeSource content script directory v
      | (.error f, v) => (.error f, v) := by
  have hlong : draws w ≤ draws w + draws (writeOnce content script directory w).2 + 1 := by omega
  rw [← writeWithin_of_le hscript hlong, writeWithin_succ]
  cases hfirst : writeOnce content script directory w with
  | mk result v =>
    cases result with
    | error f => rfl
    | ok p? =>
      cases p? with
      | some p => rfl
      | none => exact writeWithin_of_le hscript (Nat.le_add_left _ _)

end count

end ScriptLauncher.Artifact
