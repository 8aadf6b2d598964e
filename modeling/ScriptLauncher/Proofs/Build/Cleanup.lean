import ScriptLauncher.Proofs.Build.Steps

/-! What a build leaves behind: which files it removes when it ends, and which of those that
it made are still there then. -/

namespace ScriptLauncher.Build

open Host Command Session
open Artifact (IsSource executableOf)

section sweep

variable {w : World} {p q : Path} {paths : List Path}

def sweep (paths : List Path) (w : World) : World :=
  paths.foldl (fun w p => (Build.discard p w).2) w

/-- The system has a fault for an answer when the turn comes to remove a path. -/
def Refused (paths : List Path) (w : World) (p : Path) : Prop :=
  ∃ before after f, paths = before ++ p :: after ∧ (sweep before w).removable p = .error f

theorem Refused.mem (h : Refused paths w p) : p ∈ paths := by
  obtain ⟨before, after, f, rfl, -⟩ := h
  simp

theorem isPresent_of_discard (h : (Build.discard q w).2.isPresent p = true) :
    w.isPresent p = true := by
  rw [(discard_apply q w).1.isPresent] at h
  obtain ⟨tree, heq, htree⟩ := unlink_eq q w
  rw [heq] at h
  exact World.isPresent_mono (v := w.withTree tree) rfl htree h

theorem isPresent_of_sweep (h : (sweep paths w).isPresent p = true) : w.isPresent p = true := by
  induction paths generalizing w with
  | nil => exact h
  | cons q paths ih => exact isPresent_of_discard (ih h)

/-- A file that was to be removed and is still there has refused its removal. -/
theorem refused_of_isPresent (hp : p ∈ paths) (h : (sweep paths w).isPresent p = true) :
    Refused paths w p := by
  induction paths generalizing w with
  | nil => cases hp
  | cons q paths ih =>
    by_cases hq : p = q
    · subst hq
      cases hremovable : w.removable p with
      | error f => exact ⟨[], paths, f, rfl, hremovable⟩
      | ok =>
        have hgone := not_isPresent_unlink hremovable
        rw [← (discard_apply p w).1.isPresent] at hgone
        have hleft : (Build.discard p w).2.isPresent p = true := isPresent_of_sweep h
        cases hleft.symm.trans hgone
    · obtain ⟨before, after, f, rfl, hremovable⟩ := ih ((List.mem_cons.1 hp).resolve_left hq) h
      exact ⟨q :: before, after, f, rfl, hremovable⟩

end sweep

variable (r : Runner) (o : Options) (sink : Sink) (source : Bytes) (script : Path)
  (args : List String) (w : World)

def compiled (file : Path) : Except Stop Unit × World :=
  compile r o.compiler file (executableOf file) (written o sink source script w).2

/-- The files that a build removes when it ends, in turn. -/
def swept : List Path :=
  match (written o sink source script w).1 with
  | .error _ => []
  | .ok file => match (compiled r o sink source script w file).1 with
    | .error _ => [file]
    | .ok () => [executableOf file, file]

/-- The world after a build that cleans up, or that does not. -/
def left (noClean : Bool) : World :=
  (buildAndRun r { o with noClean } sink source script args w).2

variable {r o sink source script args w} {file p : Path} {e : Stop}

theorem written_noClean (noClean : Bool) :
    written { o with noClean } sink source script = written o sink source script := rfl

theorem left_of_unwritten (h : (written o sink source script w).1 = .error e) (noClean : Bool) :
    left r o sink source script args w noClean = (written o sink source script w).2 := by
  rw [left, buildAndRun_eq, written_noClean, bind_of_error (Prod.ext h rfl)]

theorem left_of_written (h : (written o sink source script w).1 = .ok file) (noClean : Bool) :
    left r o sink source script args w noClean =
      (withArtifact noClean file
        (compile r o.compiler file (executableOf file) >>= fun _ =>
          withArtifact noClean (executableOf file) (launch r (executableOf file) script args))
        (written o sink source script w).2).2 := by
  have hsource := (isPresent_made (find_written h).1).1
  rw [left, buildAndRun_eq, written_noClean, bind_of_ok (Prod.ext h rfl)]
  cases noClean with
  | true => rw [withArtifact_true, withArtifact_true, finished_of_isSource hsource]
  | false =>
    rw [withArtifact_false, withArtifact_false, ensuring_snd, ensuring_snd,
      finished_of_isSource hsource]

/-- Cleaning up is all that tells the two worlds apart. -/
theorem left_eq_sweep : left r o sink source script args w false =
    sweep (swept r o sink source script w) (left r o sink source script args w true) := by
  rw [swept]
  cases h : (written o sink source script w).1 with
  | error e => rw [left_of_unwritten h, left_of_unwritten h]; rfl
  | ok file =>
    rw [left_of_written h, left_of_written h]
    simp only [withArtifact_true, withArtifact_false, ensuring_snd, bind_apply, compiled]
    cases compile r o.compiler file (executableOf file) (written o sink source script w).2 with
    | mk result v =>
      cases result with
      | error e => rfl
      | ok =>
        dsimp only
        rw [ensuring_snd]
        rfl

theorem left_of_uncompiled (h : (written o sink source script w).1 = .ok file)
    (he : (compiled r o sink source script w file).1 = .error e) :
    left r o sink source script args w true = (compiled r o sink source script w file).2 := by
  rw [left_of_written h, withArtifact_true, bind_of_error (Prod.ext he rfl)]
  rfl

theorem swept_of_uncompiled (h : (written o sink source script w).1 = .ok file)
    (he : (compiled r o sink source script w file).1 = .error e) :
    swept r o sink source script w = [file] := by
  simp only [swept, h, he]

theorem swept_of_compiled (h : (written o sink source script w).1 = .ok file)
    (hok : (compiled r o sink source script w file).1 = .ok ()) :
    swept r o sink source script w = [executableOf file, file] := by
  simp only [swept, h, hok]

theorem mem_swept (hp : p ∈ swept r o sink source script w) :
    ∃ file, (written o sink source script w).1 = .ok file ∧ (p = file ∨ p = executableOf file) := by
  cases h : (written o sink source script w).1 with
  | error e =>
    simp only [swept, h] at hp
    cases hp
  | ok file =>
    refine ⟨file, rfl, ?_⟩
    cases hc : (compiled r o sink source script w file).1 with
    | error e =>
      rw [swept_of_uncompiled h hc] at hp
      exact .inl (List.mem_singleton.1 hp)
    | ok =>
      rw [swept_of_compiled h hc] at hp
      rcases List.mem_cons.1 hp with rfl | hp
      · exact .inr rfl
      · exact .inl (List.mem_singleton.1 hp)

/-- Nothing is removed for a source that was made but not written. -/
theorem not_mem_swept (hmade : file ∈ made o sink source script w)
    (h : (written o sink source script w).1 ≠ .ok file) (hp : p = file ∨ p = executableOf file) :
    p ∉ swept r o sink source script w := by
  intro hmem
  have hsource := (isPresent_made hmade).1
  obtain ⟨file', hwritten, hp'⟩ := mem_swept hmem
  have hsource' := (isPresent_made (find_written hwritten).1).1
  have hne : file ≠ file' := by
    rintro rfl
    exact h hwritten
  rcases hp with rfl | rfl
  · rcases hp' with rfl | rfl
    · exact hne rfl
    · exact hsource.ne_executableOf file' rfl
  · rcases hp' with heq | heq
    · exact hsource'.ne_executableOf file heq.symm
    · exact hne (Path.withSuffix_inj hsource.ne_nil hsource'.ne_nil heq)

theorem outlives_compiled (file : Path) :
    Outlives (written o sink source script w).2 (compiled r o sink source script w file).2 := by
  unfold compiled
  cases hreal : r.dryRun with
  | true =>
    rw [compile_dry hreal]
    exact (outlives_refl _).of_alike (World.tell_alike _ _ _)
  | false =>
    have hcompile := (compile_real hreal o.compiler file (executableOf file)
      (written o sink source script w).2 rfl).1
    exact (outlives_start _ _).of_alike hcompile

theorem isPresent_uncompiled (h : (written o sink source script w).1 = .ok file)
    (he : (compiled r o sink source script w file).1 = .error e)
    (hpresent : (compiled r o sink source script w file).2.isPresent (executableOf file) = true) :
    (left r o sink source script args w false).isPresent (executableOf file) = true := by
  obtain ⟨hmade, l, hfile⟩ := find_written h
  have hsource := (isPresent_made hmade).1
  rw [left_eq_sweep, left_of_uncompiled h he, swept_of_uncompiled h he]
  show (Build.discard file _).2.isPresent _ = true
  rw [(discard_apply _ _).1.isPresent]
  have hlong := hsource.length_name
  have hlonger : file.name.length < (file.name ++ Artifact.executableSuffix).length := by
    rw [String.length_append]
    exact Nat.lt_add_of_pos_right (by decide)
  exact isPresent_unlink_of_ne (outlives_compiled file) hfile hsource.getLast?_parts
    (Artifact.getLast?_executableOf file) (fun h => Nat.ne_of_lt hlonger (congrArg String.length h))
    hlong (Nat.lt_trans hlong hlonger) hpresent

variable (r o sink source script args w) in
/-- Of a source and its executable nothing is left, but for what has refused its removal. -/
def Gone (file : Path) : Prop :=
  ∀ p, p = file ∨ Artifact.executable file = .ok p →
    (left r o sink source script args w false).isPresent p = true →
      Refused (swept r o sink source script w) (left r o sink source script args w true) p

theorem gone_iff_of_written (h : (written o sink source script w).1 = .ok file) :
    Gone r o sink source script args w file ↔
      (compiled r o sink source script w file).1 = .ok () ∨
        (compiled r o sink source script w file).2.isPresent (executableOf file) = false := by
  have hsource := (isPresent_made (find_written h).1).1
  unfold Gone
  rw [hsource.executable]
  cases hc : (compiled r o sink source script w file).1 with
  | ok =>
    refine ⟨fun _ => .inl rfl, fun _ p hp hpresent => ?_⟩
    rw [left_eq_sweep] at hpresent
    refine refused_of_isPresent ?_ hpresent
    rw [swept_of_compiled h hc]
    rcases hp with rfl | ⟨⟨⟩⟩ <;> simp
  | error e =>
    constructor
    · intro hgone
      refine .inr (Bool.eq_false_iff.2 fun hpresent => ?_)
      -- nothing was to remove the executable, so nothing can have refused
      have hmem := (hgone _ (.inr rfl) (isPresent_uncompiled h hc hpresent)).mem
      rw [swept_of_uncompiled h hc] at hmem
      exact hsource.ne_executableOf file (List.mem_singleton.1 hmem).symm
    · intro hnone p hp hpresent
      rw [left_eq_sweep] at hpresent
      rcases hp with rfl | ⟨⟨⟩⟩
      · refine refused_of_isPresent ?_ hpresent
        rw [swept_of_uncompiled h hc]
        exact List.mem_singleton_self _
      · have hkept := isPresent_of_sweep hpresent
        rw [left_of_uncompiled h hc] at hkept
        cases hkept.symm.trans (hnone.resolve_left (by simp))

theorem gone_iff_of_unwritten (hmade : file ∈ made o sink source script w)
    (h : (written o sink source script w).1 ≠ .ok file) :
    Gone r o sink source script args w file ↔
      (left r o sink source script args w false).isPresent file = false ∧
        (left r o sink source script args w false).isPresent (executableOf file) = false := by
  have hsource := (isPresent_made hmade).1
  unfold Gone
  rw [hsource.executable]
  constructor
  · intro hgone
    constructor <;> refine Bool.eq_false_iff.2 fun hpresent => ?_
    · exact not_mem_swept hmade h (.inl rfl) (hgone _ (.inl rfl) hpresent).mem
    · exact not_mem_swept hmade h (.inr rfl) (hgone _ (.inr rfl) hpresent).mem
  · rintro ⟨hfile, hexe⟩ p (rfl | ⟨⟨⟩⟩) hpresent
    · cases hpresent.symm.trans hfile
    · cases hpresent.symm.trans hexe

variable (r o sink source script args w) in
/-- A build leaves nothing of what it made, just when the compiler either succeeded or left
nothing, and each source that was made but could not be written is gone for another reason.
Where no source was written at all, those that were made are still there. -/
theorem gone_iff :
    ((∀ file ∈ made o sink source script w, Gone r o sink source script args w file) ↔
      ∀ file ∈ made o sink source script w,
        ((written o sink source script w).1 = .ok file →
          (compiled r o sink source script w file).1 = .ok () ∨
            (compiled r o sink source script w file).2.isPresent (executableOf file) = false) ∧
        ((written o sink source script w).1 ≠ .ok file →
          (left r o sink source script args w false).isPresent file = false ∧
            (left r o sink source script args w false).isPresent (executableOf file) = false)) ∧
    left r o sink source script args w false =
      sweep (swept r o sink source script w) (left r o sink source script args w true) ∧
    ∀ e, (written o sink source script w).1 = .error e → ∀ file ∈ made o sink source script w,
      (left r o sink source script args w false).isPresent file = true := by
  refine ⟨forall₂_congr fun file hmade => ?_, left_eq_sweep, fun e he file hmade => ?_⟩
  · by_cases h : (written o sink source script w).1 = .ok file
    · rw [gone_iff_of_written h]
      simp [h]
    · rw [gone_iff_of_unwritten hmade h]
      simp [h]
  · rw [left_of_unwritten he]
    exact (isPresent_made hmade).2

/-- A world whose compiler leaves its product and fails then. -/
def lateFailure : World :=
  { World.initial [] (.ofText "/tmp") .warning with
    tree := FileTree.empty.put ["tmp"] .directory
    tokens := ["0badc0de"]
    children := [{ Child.idle with product := some .file, returnCode := 1 }] }

theorem not_gone_lateFailure :
    ¬ ∀ file ∈ made .default (.channel .output) [] (.ofText "/x.go") lateFailure,
      Gone ⟨false, .reports⟩ .default (.channel .output) [] (.ofText "/x.go") [] lateFailure file := by
  intro hgone
  have hwritten : (written .default (.channel .output) [] (.ofText "/x.go") lateFailure).1 =
      .ok ⟨.single, ["tmp", "goscript-0badc0de-x.go"]⟩ := by
    rfl
  rcases (gone_iff_of_written hwritten).1 (hgone _ (find_written hwritten).1) with hok | hnone
  · cases hok
  · exact absurd hnone (by decide +kernel)

end ScriptLauncher.Build
