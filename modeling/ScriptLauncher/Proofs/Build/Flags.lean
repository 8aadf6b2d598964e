import ScriptLauncher.Proofs.Build.Removal

/-! The two options that only let a build be observed: to print the program first, and to keep
its files. They add the print and leave the files, and nothing else depends on them. -/

namespace ScriptLauncher.Build

open Host Command Session
open Artifact (executableOf)

section dump

variable {r : Runner} {o : Options} {sink : Sink} {source : Bytes} {script : Path}
  {args : List String} {w : World}

variable (o source w) in
theorem opened_shown (hsink : ∀ f, sink = .failing f → f.isReported = true) (dump : Bool) :
    ∃ records, opened { o with showSource := dump } sink source w =
      (.ok (Scaffold.assemble source o.imports), w.veil w.faults.unlink records
        (w.texts ++ shown { o with showSource := dump } sink source)) := by
  obtain ⟨⟨records, hworld⟩, -⟩ := opened_texts { o with showSource := dump } sink source w
  exact ⟨records, Prod.ext (opened_ok hsink source w) hworld⟩

variable (o source w) in
/-- What comes after the program was printed, or was not, does the same either way. -/
theorem opened_bind {α : Type} {f : Bytes → Session Stop α}
    (hf : Discreet (f (Scaffold.assemble source o.imports)))
    (hsink : ∀ f, sink = .failing f → f.isReported = true) :
    let rest := f (Scaffold.assemble source o.imports) w
    ∃ said, ∀ dump, ∃ records, (opened { o with showSource := dump } sink source >>= f) w =
      (rest.1, rest.2.veil w.faults.unlink records
        (w.texts ++ shown { o with showSource := dump } sink source ++ said)) := by
  intro rest
  obtain ⟨said, hf⟩ := hf w
  refine ⟨said, fun dump => ?_⟩
  obtain ⟨records, hopened⟩ := opened_shown o source w hsink dump
  obtain ⟨records', hrest⟩ := hf w.faults.unlink records
    (w.texts ++ shown { o with showSource := dump } sink source)
  exact ⟨records', (bind_of_ok hopened).trans hrest⟩

theorem written_showSource (dump : Bool) :
    written { o with showSource := dump } sink source script =
      opened { o with showSource := dump } sink source >>= fun code =>
        writeSource code script.name o.directory := rfl

variable (o source script w) in
theorem written_shown (hsink : ∀ f, sink = .failing f → f.isReported = true) :
    let found := writeSource (Scaffold.assemble source o.imports) script.name o.directory w
    ∃ said, ∀ dump, ∃ records, written { o with showSource := dump } sink source script w =
      (found.1, found.2.veil w.faults.unlink records
        (w.texts ++ shown { o with showSource := dump } sink source ++ said)) := by
  simp only [written_showSource]
  exact opened_bind o source w (f := fun code => writeSource code script.name o.directory)
    (discreet_writeSource _ script.name o.directory) hsink

variable (r o source script args w) in
theorem kept_shown (hsink : ∀ f, sink = .failing f → f.isReported = true) :
    ∃ ended v said, ∀ dump, ∃ records,
      buildAndRun r { o with showSource := dump, noClean := true } sink source script args w =
        (ended, World.veil v w.faults.unlink records
          (w.texts ++ shown { o with showSource := dump } sink source ++ said)) := by
  let rest (code : Bytes) : Session Stop Result := do
    let file ← writeSource code script.name o.directory
    finished r { o with noClean := true } script args file
  have hrest (code : Bytes) : Discreet (rest code) :=
    (discreet_writeSource code script.name o.directory).bind fun file =>
      discreet_finished rfl r script args file
  obtain ⟨said, h⟩ := opened_bind o source w (hrest _) hsink
  refine ⟨(rest (Scaffold.assemble source o.imports) w).1,
    (rest (Scaffold.assemble source o.imports) w).2, said, fun dump => ?_⟩
  obtain ⟨records, h⟩ := h dump
  refine ⟨records, Eq.trans ?_ h⟩
  rw [buildAndRun_eq, written, bind_assoc]
  rfl

theorem swept_shown (hsink : ∀ f, sink = .failing f → f.isReported = true) (dump : Bool) :
    swept r { o with showSource := dump } sink source script w =
      swept r { o with showSource := false } sink source script w := by
  obtain ⟨said, hwritten⟩ := written_shown o source script w hsink
  obtain ⟨records, hdump⟩ := hwritten dump
  obtain ⟨records', hplain⟩ := hwritten false
  unfold swept compiled
  rw [hdump, hplain]
  cases (writeSource (Scaffold.assemble source o.imports) script.name o.directory w).1 with
  | error e => rfl
  | ok file =>
    dsimp only
    obtain ⟨said', hcompile⟩ := discreet_compile r o.compiler file (executableOf file)
      (writeSource (Scaffold.assemble source o.imports) script.name o.directory w).2
    obtain ⟨_, hdumped⟩ := hcompile w.faults.unlink records _
    obtain ⟨_, hsilent⟩ := hcompile w.faults.unlink records' _
    rw [hdumped, hsilent]

end dump

variable (r : Runner) (o : Options) (sink : Sink) (source : Bytes) (script : Path)
  (args : List String) (w : World)

/-- Whether a build prints its program and whether it keeps its files is nothing to how it ends,
what it starts and what else it writes. Printing adds the program and a newline and changes no
file. Keeping changes what stands at the places of the source and the executable only, and the
source is there with the whole program unless a child has removed or overwritten it. -/
theorem flags_only_observe (hunlink : ∀ e ∈ w.faults.unlink, e.2.isOfSystem = true)
    (hsink : ∀ f, sink = .failing f → f.isReported = true) :
    let code := Scaffold.assemble source o.imports
    let build (dump keep : Bool) :=
      buildAndRun r { o with showSource := dump, noClean := keep } sink source script args w
    let found (dump : Bool) := written { o with showSource := dump } sink source script w
    (∃ ended starts said, ∀ dump keep, (build dump keep).1 = ended ∧
      (build dump keep).2.starts = starts ∧
      (build dump keep).2.texts = w.texts ++ (if dump then printed code sink else []) ++ said) ∧
    (∀ keep, (build true keep).2.tree = (build false keep).2.tree) ∧
    (∀ dump l, (∀ file p n, (found dump).1 = .ok file → p = file ∨ p = executableOf file →
        (build dump true).2.tree.find false (build dump true).2.home p ≠ .ok (.taken l n)) →
      (build dump false).2.tree.node? l = (build dump true).2.tree.node? l) ∧
    ∀ dump file, (found dump).1 = .ok file →
      ∃ l ss, (found dump).2.tree.find false (found dump).2.home file =
          .ok (.taken l (.file code)) ∧
        (build dump true).2.starts = w.starts ++ ss ∧ (r.dryRun = true → ss = []) ∧
        ((build dump true).2.tree.node? l = some (.file code) ∨
          ∃ before s after, ss = before ++ s :: after ∧
            (started before (found dump).2).tree.node? l = some (.file code) ∧
            ((started (before ++ [s]) (found dump).2).tree.node? l = none ∨
              ∃ other, other ≠ code ∧
                (started (before ++ [s]) (found dump).2).tree.node? l = some (.file other))) := by
  intro code build found
  obtain ⟨ended, v, said, hkept⟩ := kept_shown r o source script args w hsink
  have hend (dump keep : Bool) : (build dump keep).1 = (build dump true).1 :=
    fst_noClean (o := { o with showSource := dump }) hunlink keep
  have htidied (dump keep : Bool) : Tidied (build dump keep).2 (build dump true).2 :=
    tidied_left (o := { o with showSource := dump }) keep
  have hsweep (dump : Bool) : (build dump false).2 =
      sweep (swept r { o with showSource := dump } sink source script w) (build dump true).2 :=
    left_eq_sweep (o := { o with showSource := dump })
  have hveil (dump : Bool) : (build dump true).2.Alike (v.veil w.faults.unlink [] []) := by
    obtain ⟨records, h⟩ := hkept dump
    rw [show build dump true = _ from h]
    exact ⟨records, _, rfl⟩
  refine ⟨⟨ended, v.starts, said, fun dump keep => ?_⟩, fun keep => ?_, fun dump l hl => ?_,
    fun dump file hfile => ?_⟩
  · obtain ⟨records, h⟩ := hkept dump
    obtain ⟨tree, records', hworld⟩ := htidied dump keep
    rw [hend, hworld, show build dump true = _ from h]
    exact ⟨rfl, rfl, rfl⟩
  · have hsame := (hveil true).trans (hveil false).symm
    cases keep with
    | true => exact hsame.tree
    | false =>
      rw [hsweep, hsweep, swept_shown hsink]
      exact (sweep_alike _ hsame).tree
  · rw [hsweep]
    refine node?_sweep fun p hp n => ?_
    obtain ⟨file, hfile, hp⟩ := mem_swept hp
    exact hl file p n hfile hp
  · obtain ⟨-, l, hfind⟩ := find_written hfile
    obtain ⟨ss, hdry, hstarted⟩ := left_alike_started hfile r args
    refine ⟨l, ss, hfind, starts_left hstarted, hdry, ?_⟩
    obtain ⟨records, texts, hworld⟩ := hstarted
    rw [show (build dump true).2 = _ from hworld]
    exact node?_started (FileTree.node?_of_find hfind) ss

theorem flags_only_observe_stuckExecutable :
    let sink : Sink := .channel .output
    let build (dump keep : Bool) := buildAndRun ⟨false, .reports⟩
      { Options.default with showSource := dump, noClean := keep } sink [] (.ofText "/x.go") []
      stuckExecutable
    (∀ e ∈ stuckExecutable.faults.unlink, e.2.isOfSystem = true) ∧
      (∀ f, sink = .failing f → f.isReported = true) ∧
      (∀ dump keep, (build dump keep).1 = .error (.exit ⟨137⟩)) ∧
      (∀ keep, (build false keep).2.texts = [] ∧
        (build true keep).2.texts = printed (Scaffold.assemble [] Scaffold.defaultImports) sink) ∧
      ∀ keep, (build true keep).2.tree = (build false keep).2.tree := by
  intro sink build
  have hsink : ∀ f, sink = .failing f → f.isReported = true := nofun
  obtain ⟨⟨ended, starts, said, hsame⟩, htree, -, -⟩ := flags_only_observe ⟨false, .reports⟩
    .default sink [] (.ofText "/x.go") [] stuckExecutable isOfSystem_stuckExecutable hsink
  obtain ⟨hended, -, hsaid⟩ := hsame false false
  have hnone : said = [] := hsaid.symm.trans rfl
  have hkilled : ended = .error (.exit ⟨137⟩) := hended.symm.trans rfl
  refine ⟨isOfSystem_stuckExecutable, hsink, fun dump keep => (hsame dump keep).1.trans hkilled,
    fun keep => ⟨?_, ?_⟩, htree⟩
  · rw [(hsame false keep).2.2, hnone]
    rfl
  · rw [(hsame true keep).2.2, hnone, List.append_nil]
    rfl

end ScriptLauncher.Build
