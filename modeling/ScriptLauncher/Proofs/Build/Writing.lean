import ScriptLauncher.Proofs.Artifact.Obstacles
import ScriptLauncher.Proofs.Build.Steps

/-! The source that is written for a script: how many draws its name takes, which of them decides,
and what is left where none gives a name. -/

namespace ScriptLauncher.Build

open Host Command Session
open Artifact (CollidesAt Fails TokensDiffer afterTries makes obstacles triedAt)
open ScriptLauncher.Path (Slashless)

variable {code : Bytes} {script : String} {directory : Option Path} {w : World} {e : Stop} {n : Nat}

section left

/-- A source that cannot be written leaves the files as they were just when no path that was tried
for it was free. In any case nothing is left but empty files where nothing stood before. -/
theorem writeSource_tree_iff (h : (writeSource code script directory w).1 = .error e) :
    let v := (writeSource code script directory w).2
    (v.tree = w.tree ↔ ∀ i, w.drawn + i < v.drawn →
        makes w (triedAt script (directory.getD w.temporary) w i) = false) ∧
      ∀ l, v.tree.node? l = w.tree.node? l ∨
        w.tree.node? l = none ∧ v.tree.node? l = some (.file []) := by
  intro v
  obtain ⟨⟨records, hworld⟩, hresult⟩ := writeSource_apply code script directory w
  cases hfound : (Artifact.writeSource code script (directory.getD w.temporary) w).1 with
  | ok p =>
    rw [hfound] at hresult
    cases h.symm.trans hresult
  | error f =>
    obtain ⟨m, hafter, hnone⟩ := Artifact.writeWithin_of_error hfound
    obtain ⟨tree, tokens, hdrawn, -⟩ :=
      Artifact.afterTries_eq code script (directory.getD w.temporary) m w
    obtain ⟨hiff, hnodes⟩ := Artifact.tree_afterTries hnone
    have hv : v =
        { Artifact.afterTries code script (directory.getD w.temporary) m w with records } := by
      rw [← hafter]
      exact hworld
    have hsame : v.drawn = w.drawn + m := by rw [hv, hdrawn]
    rw [hsame, show v.tree = _ from congrArg World.tree hv]
    exact ⟨by simpa only [Nat.add_lt_add_iff_left] using hiff, hnodes⟩

/-- A world whose directory for new files is missing. -/
def missingDirectory : World :=
  { World.initial [] (.ofText "/tmp") .warning with tokens := ["0badc0de"] }

theorem writeSource_tree_iff_missingDirectory :
    ∃ e, (writeSource [] "x.go" none missingDirectory).1 = .error e ∧
      (writeSource [] "x.go" none missingDirectory).2.tree = missingDirectory.tree := by
  refine ⟨_, rfl, (writeSource_tree_iff rfl).1.2 fun i hi => ?_⟩
  have hdrawn : (writeSource [] "x.go" none missingDirectory).2.drawn = 1 := rfl
  rw [hdrawn, show missingDirectory.drawn = 0 from rfl, Nat.zero_add, Nat.lt_one_iff] at hi
  subst hi
  rfl

/-- A world that lets the first source be made, but nothing be written into it. -/
def fullDisk : World :=
  { World.initial [] (.ofText "/tmp") .warning with
    tree := FileTree.empty.put ["tmp"] .directory
    faults := { Faults.none with
      write := [("/tmp/goscript-0badc0de-x.go",
        .numbered 28 "No space left on device" none)] }
    tokens := ["0badc0de"] }

theorem not_forall_writeSource_tree :
    ¬ ∀ (code : Bytes) (script : String) (directory : Option Path) (w : World) (e : Stop),
      (writeSource code script directory w).1 = .error e →
        (writeSource code script directory w).2.tree = w.tree := by
  intro h
  have hended : (writeSource [] "x.go" none fullDisk).1 = .error (.unwritable (.numbered 28
      "No space left on device" (some "/tmp/goscript-0badc0de-x.go"))) := rfl
  have hleft : (writeSource [] "x.go" none fullDisk).2.tree =
      fullDisk.tree.put ["tmp", "goscript-0badc0de-x.go"] (.file []) := rfl
  have hsame := hleft.symm.trans (h [] "x.go" none fullDisk _ hended)
  exact absurd hsame (by decide)

end left

section draws

/-- From the draw on at which the stock of tokens is used up, or from which on the tokens differ, there
are no more draws than obstacles, and one. Each draw before the last collides. The last one does
not, and gives its path, with the code in it, or fails with a fault that is passed on. -/
theorem writeSource_draws (code : Bytes) (directory : Option Path) (hscript : Slashless script)
    (hn : w.tokens.length ≤ n ∨ TokensDiffer w (Set.Icc n (n + (obstacles w).card))) :
    let folder := directory.getD w.temporary
    let ended := writeSource code script directory w
    ∃ k ≤ n + (obstacles w).card, ended.2.drawn = w.drawn + (k + 1) ∧
      (∀ i < k, CollidesAt code script folder w i) ∧ ¬ CollidesAt code script folder w k ∧
      let p := triedAt script folder w k
      ((∃ l, ended.1 = .ok p ∧ ended.2.Holds p l code) ∨
        ∃ f, Fails (afterTries code script folder k w) p f ∧ f.hasCause .exists = false ∧
          ended.1 = .error (if f.isOfSystem then .unwritable f else .fault f)) := by
  dsimp only
  obtain ⟨⟨records, hworld⟩, hresult⟩ := writeSource_apply code script directory w
  generalize directory.getD w.temporary = folder at hworld hresult ⊢
  obtain ⟨k, hbefore, hlast, hafter, hend⟩ := Artifact.writeSource_last code hscript folder w
  have hdiffer : TokensDiffer w (Set.Icc n (n + (obstacles w).card)) :=
    hn.elim Artifact.tokensDiffer_of_le id
  obtain ⟨i, hi, hnot⟩ := Artifact.exists_not_collidesAt code hscript folder hdiffer
  have hk : k ≤ i := Nat.not_lt.1 fun h => hnot (hbefore i h)
  generalize writeSource code script directory w = ended at hworld hresult ⊢
  generalize Artifact.writeSource code script folder w = found at hworld hresult hafter hend
  refine ⟨k, hk.trans hi, ?_, hbefore, hlast, ?_⟩
  · obtain ⟨tree, tokens, hdrawn, -⟩ := Artifact.afterTries_eq code script folder (k + 1) w
    rw [hworld, hafter, hdrawn]
  · rcases hend with ⟨l, hfound, hholds⟩ | ⟨f, hfails, hf, hfound⟩
    · refine .inl ⟨l, ?_, ?_⟩
      · rw [hresult, hfound]
        rfl
      · rw [hworld]
        exact hholds
    · refine .inr ⟨f, hfails, hf, ?_⟩
      rw [hresult, hfound]
      rfl

/-- A world with a link to nowhere under the name of the first two sources. -/
def repeatedToken : World :=
  { World.initial [] (.ofText "/tmp") .warning with
    tree := (FileTree.empty.put ["tmp"] .directory).put ["tmp", "goscript-0badc0de-x.go"]
      (.link "nowhere")
    tokens := ["0badc0de", "0badc0de"] }

theorem writeSource_draws_repeatedToken :
    let folder := Path.ofText "/tmp"
    Slashless "x.go" ∧ repeatedToken.tokens.length ≤ 2 ∧
      CollidesAt [] "x.go" folder repeatedToken 0 ∧ CollidesAt [] "x.go" folder repeatedToken 1 ∧
      (writeSource [] "x.go" none repeatedToken).1 =
        .ok ⟨.single, ["tmp", "goscript-00000002-x.go"]⟩ := by
  intro folder
  obtain ⟨k, -, hdrawn, hbefore, -, hend⟩ := writeSource_draws [] none
    (show Slashless "x.go" by decide) (.inl (show repeatedToken.tokens.length ≤ 2 by decide))
  have hk : 3 = 0 + (k + 1) := hdrawn
  obtain rfl : k = 2 := by omega
  refine ⟨by decide, Nat.le_refl 2, hbefore 0 (by decide), hbefore 1 (by decide), ?_⟩
  rcases hend with ⟨l, hfound, -⟩ | ⟨f, -, -, hfailed⟩
  · rw [hfound]
    rfl
  · cases hfailed

end draws

end ScriptLauncher.Build
