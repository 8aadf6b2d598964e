import ScriptLauncher.Proofs.Build.Removal

/-! What a dry run leaves on disk. The source that it makes is gone when it ends; the executable is
never made, but its name, for which nobody checks that it is free, is cleared as well. -/

namespace ScriptLauncher.Build

open Host Command Session
open Artifact (IsSource executableOf)

variable {r : Runner} {o : Options} {sink : Sink} {source : Bytes} {script file : Path}
  {args : List String} {w : World}

theorem tree_written (hwrite : w.faults.write = []) :
    (∀ e, (written o sink source script w).1 = .error e →
      (written o sink source script w).2.tree = w.tree) ∧
    ∀ file, (written o sink source script w).1 = .ok file →
      ∃ l, w.tree.find false w.home file = .ok (.free l) ∧
        (written o sink source script w).2.tree =
          w.tree.put l (.file (Scaffold.assemble source o.imports)) := by
  obtain ⟨⟨records, texts, hopened⟩, hcode⟩ := opened_apply o sink source w
  cases h : opened o sink source w with
  | mk result v =>
    rw [h] at hopened hcode
    subst hopened
    cases result with
    | error e =>
      rw [(written_of_error h).2]
      exact ⟨fun _ _ => rfl, nofun⟩
    | ok code =>
      obtain rfl := hcode code rfl
      obtain ⟨⟨records', texts', hworld⟩, hresult⟩ := written_of_ok h script
      obtain ⟨herror, hok⟩ := (searches_made h script).tree hwrite
      rw [hworld, hresult]
      cases hfound : (Artifact.writeSource (Scaffold.assemble source o.imports) script.name
          (o.directory.getD w.temporary) { w with records, texts }).1 with
      | error f =>
        exact ⟨fun _ _ => herror f hfound, nofun⟩
      | ok p =>
        refine ⟨nofun, fun file hfile => ?_⟩
        cases hfile
        exact hok p hfound

section dry

/-- A dry run comes to the end of its work with the files that it had when its source was
written. -/
theorem left_of_dry (hdry : r.dryRun = true)
    (hfile : (written o sink source script w).1 = .ok file) (args : List String) :
    (left r o sink source script args w true).Alike (written o sink source script w).2 := by
  obtain ⟨ss, hstarts, h⟩ := left_alike_started hfile r args
  rwa [hstarts hdry] at h

theorem swept_of_dry (hdry : r.dryRun = true)
    (hfile : (written o sink source script w).1 = .ok file) :
    swept r o sink source script w = [executableOf file, file] := by
  refine swept_of_compiled hfile ?_
  rw [compiled, compile_dry hdry]

/-- Making the source puts nothing at the path of its executable. -/
theorem find_executableOf_put {l m : Location} {n : Node} {content : Bytes}
    (hsource : IsSource file) (hfree : w.tree.find false w.home file = .ok (.free l))
    (hfind : (w.tree.put l (.file content)).find false w.home (executableOf file) =
      .ok (.taken m n)) :
    w.tree.find false w.home (executableOf file) = .ok (.taken m n) := by
  obtain ⟨-, hleads⟩ := FileTree.find_eq_ok_iff.1 hfree
  obtain ⟨hshort, hleads'⟩ := FileTree.find_eq_ok_iff.1 hfind
  have hlong := hsource.length_name
  have hlonger : 2 < (file.name ++ Artifact.executableSuffix).length := by
    rw [String.length_append]
    exact Nat.lt_add_right _ hlong
  obtain ⟨hdot, hup⟩ := ne_dots_of_length hlong
  obtain ⟨hdot', hup'⟩ := ne_dots_of_length hlonger
  have hl : l.getLast? = some file.name :=
    hleads.getLast?_location rfl hsource.getLast?_parts hdot hup
  have hm : m.getLast? = some (file.name ++ Artifact.executableSuffix) :=
    hleads'.getLast?_location rfl (Artifact.getLast?_executableOf file) hdot' hup'
  have hne : m ≠ l := by
    rintro rfl
    have hname := Option.some.inj (hl.symm.trans hm)
    rw [← Artifact.name_executableOf] at hname
    exact hsource.name_ne_executableOf file hname
  have hnode : w.tree.node? m = some n := by
    rw [← FileTree.node?_put_ne w.tree hne]
    exact hleads'.node?_location
  refine FileTree.find_eq_ok_iff.2 ⟨hshort, ?_⟩
  exact hleads'.taken_of_passages (fun _ _ => FileTree.passage_of_put) hnode fun _ => rfl

/-- The files that a dry run leaves are those of two removals after its source was written. -/
theorem tree_of_dry (hdry : r.dryRun = true)
    (hfile : (written o sink source script w).1 = .ok file) :
    (left r o sink source script args w false).tree =
      (unlink file (unlink (executableOf file) (written o sink source script w).2).2).2.tree := by
  have hkept := left_of_dry hdry hfile args
  have hfirst := (discard_apply (executableOf file)
    (left r o sink source script args w true)).1.trans (unlink_alike _ hkept)
  rw [left_eq_sweep, swept_of_dry hdry hfile]
  exact ((discard_apply file _).1.trans (unlink_alike _ hfirst)).tree

/-- Where nothing can be removed in the executable's place, only the source is removed again. -/
theorem tree_of_untaken (hdry : r.dryRun = true) (hwrite : w.faults.write = [])
    (hunlink : w.faults.unlink = []) (hfile : (written o sink source script w).1 = .ok file)
    (h : ∀ l n, w.tree.find false w.home (executableOf file) = .ok (.taken l n) →
      n = .directory) :
    (left r o sink source script args w false).tree = w.tree := by
  have hsource := (isPresent_made (find_written hfile).1).1
  obtain ⟨l, hfree, hput⟩ := (tree_written hwrite).2 file hfile
  have hfreenode : w.tree.node? l = none := FileTree.node?_of_find hfree
  have hl : l ≠ [] := FileTree.ne_nil_of_node? (t := w.tree) (by simp [hfreenode])
  have hhome := home_written o sink source script w
  have hfaults := (congrArg Faults.unlink (faults_written o sink source script w)).trans hunlink
  rw [tree_of_dry hdry hfile]
  generalize (written o sink source script w).2 = u at hput hhome hfaults
  have huntaken : ∀ m n, u.tree.find false u.home (executableOf file) = .ok (.taken m n) →
      n = .directory := fun m n hfind =>
    h m n (find_executableOf_put hsource hfree (hput ▸ hhome ▸ hfind))
  have hfound : u.tree.find false u.home file =
      .ok (.taken l (.file (Scaffold.assemble source o.imports))) := by
    rw [hput, hhome]
    exact FileTree.find_put hfree rfl
  rw [unlink_of_untaken huntaken,
    unlink_of_taken hfaults (plain_written hfile) hfound nofun]
  show u.tree.remove l = w.tree
  rw [hput, FileTree.remove_put hl hfreenode]

/-- Whatever else stands in the executable's place is removed with the source. -/
theorem node?_of_taken {m : Location} {n : Node} (hdry : r.dryRun = true)
    (hwrite : w.faults.write = []) (hunlink : w.faults.unlink = [])
    (hfile : (written o sink source script w).1 = .ok file)
    (hfind : w.tree.find false w.home (executableOf file) = .ok (.taken m n))
    (hn : n ≠ .directory) :
    w.tree.node? m = some n ∧ (left r o sink source script args w false).tree.node? m = none := by
  have hsource := (isPresent_made (find_written hfile).1).1
  obtain ⟨l, hfree, hput⟩ := (tree_written hwrite).2 file hfile
  have hnode : w.tree.node? m = some n := FileTree.node?_of_find hfind
  have hm : m ≠ [] := FileTree.ne_nil_of_node? (t := w.tree) (by simpa [hnode] using hn)
  have hhome := home_written o sink source script w
  have hfaults := (congrArg Faults.unlink (faults_written o sink source script w)).trans hunlink
  refine ⟨hnode, ?_⟩
  rw [tree_of_dry hdry hfile]
  generalize (written o sink source script w).2 = u at hput hhome hfaults
  have htaken : u.tree.find false u.home (executableOf file) = .ok (.taken m n) := by
    rw [hput, hhome]
    exact (FileTree.extends_put (FileTree.node?_of_find hfree) _).find hfind
  rw [unlink_of_taken hfaults (hsource.plain_executableOf (plain_written hfile)) htaken hn]
  obtain ⟨rest, hrest, hextends⟩ := unlink_eq file (u.withTree (u.tree.remove m))
  rw [hrest]
  -- the second removal cannot bring it back
  cases hback : rest.node? m with
  | none => exact hback
  | some n' => cases (hextends m n' hback).symm.trans (FileTree.node?_remove_self u.tree hm)

/-- A dry run that cleans up, where no write and no removal fails, leaves the files as they were
just when nothing, or a directory, stands at the path of its executable. Anything else that stands
there is removed. -/
theorem dry_run_tree_iff (hdry : r.dryRun = true) (hwrite : w.faults.write = [])
    (hunlink : w.faults.unlink = []) :
    let ended := buildAndRun r { o with noClean := false } sink source script args w
    let found := written o sink source script w
    (ended.2.tree = w.tree ↔ ∀ file, found.1 = .ok file → ∀ l n,
      w.tree.find false w.home (executableOf file) = .ok (.taken l n) → n = .directory) ∧
    ∀ file l n, found.1 = .ok file →
      w.tree.find false w.home (executableOf file) = .ok (.taken l n) → n ≠ .directory →
        w.tree.node? l = some n ∧ ended.2.tree.node? l = none := by
  intro ended found
  have hremoved : ∀ file l n, found.1 = .ok file →
      w.tree.find false w.home (executableOf file) = .ok (.taken l n) → n ≠ .directory →
        w.tree.node? l = some n ∧ ended.2.tree.node? l = none :=
    fun file l n hfile => node?_of_taken hdry hwrite hunlink hfile
  refine ⟨⟨fun hsame file hfile l n hfind => ?_, fun huntaken => ?_⟩, hremoved⟩
  · by_cases hn : n = .directory
    · exact hn
    · obtain ⟨hnode, hgone⟩ := hremoved file l n hfile hfind hn
      cases hnode.symm.trans (hsame ▸ hgone)
  · cases hfile : found.1 with
    | error e =>
      show (left r o sink source script args w false).tree = w.tree
      rw [left_of_unwritten hfile]
      exact (tree_written hwrite).1 e hfile
    | ok file => exact tree_of_untaken hdry hwrite hunlink hfile (huntaken file hfile)

theorem dry_run_tree_iff_killedScript :
    let dry := buildAndRun ⟨true, .reports⟩ { Options.default with noClean := false }
      (.channel .output) [] (.ofText "/x.go") ["-v"] killedScript
    killedScript.faults.write = [] ∧ killedScript.faults.unlink = [] ∧
      dry.2.tree = killedScript.tree := by
  intro dry
  have hfound : (written .default (.channel .output) [] (.ofText "/x.go") killedScript).1 =
      .ok ⟨.single, ["tmp", "goscript-0badc0de-x.go"]⟩ := rfl
  have hfree : killedScript.tree.find false killedScript.home
      (executableOf ⟨.single, ["tmp", "goscript-0badc0de-x.go"]⟩) =
        .ok (.free ["tmp", "goscript-0badc0de-x.go.exe"]) := rfl
  refine ⟨rfl, rfl, (dry_run_tree_iff (r := ⟨true, .reports⟩) rfl rfl rfl).1.2 ?_⟩
  intro file hfile l n hfind
  cases hfound.symm.trans hfile
  cases hfree.symm.trans hfind

/-- A world with a file where the executable of the first source would be. -/
def takenExecutable : World :=
  { World.initial [] (.ofText "/tmp") .warning with
    tree := (FileTree.empty.put ["tmp"] .directory).put ["tmp", "goscript-0badc0de-x.go.exe"]
      (.file [])
    tokens := ["0badc0de"] }

theorem not_forall_dry_run_tree :
    ¬ ∀ (r : Runner) (o : Options) (sink : Sink) (source : Bytes) (script : Path)
      (args : List String) (w : World), r.dryRun = true → o.noClean = false →
        w.faults.write = [] → w.faults.unlink = [] →
          (buildAndRun r o sink source script args w).2.tree = w.tree := by
  intro h
  have hsame := h ⟨true, .reports⟩ .default (.channel .output) [] (.ofText "/x.go") []
    takenExecutable rfl rfl rfl rfl
  have hnode := congrArg (·.node? ["tmp", "goscript-0badc0de-x.go.exe"]) hsame
  exact absurd hnode (by decide +kernel)

end dry

end ScriptLauncher.Build
