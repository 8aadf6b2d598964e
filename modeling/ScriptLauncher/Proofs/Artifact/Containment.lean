import ScriptLauncher.Proofs.Artifact.Naming

/-! Where the artifacts of a script lie: right in their directory, under names that tell token and
base, and sources and executables always apart. -/

namespace ScriptLauncher.Artifact

open ScriptLauncher.Path (Slashless)

variable {s s' t t' : String} {directory p : Path}

/-- The name of a source: the mark, the token and the base. -/
def sourceName (script token : String) : String := mark ++ token ++ "-" ++ baseName script

theorem sourceName_inj (hlength : t.length = t'.length) (h : sourceName s t = sourceName s' t') :
    t = t' ∧ baseName s = baseName s' := by
  have hchars : t.toList ++ '-' :: (baseName s).toList = t'.toList ++ '-' :: (baseName s').toList := by
    have hlists := congrArg String.toList h
    simp only [sourceName, String.append_assoc, String.toList_append] at hlists
    exact List.append_cancel_left hlists
  obtain ⟨htoken, hbase⟩ := List.append_inj hchars hlength
  exact ⟨String.toList_inj.1 htoken, String.toList_inj.1 (List.cons.inj hbase).2⟩

theorem endsWith_baseName (script : String) : endsWith (baseName script) sourceSuffix = true := by
  obtain ⟨stem, hstem⟩ := baseName_eq script
  rw [hstem, endsWith, List.isSuffixOf_iff_suffix, String.toList_append]
  exact List.suffix_append ..

/-- The texts of paths in one directory differ in their last names only. -/
theorem text_concat (root : Root) (parts : List String) (name : String) :
    (Path.mk root (parts ++ [name])).text = (Path.mk root (parts ++ [""])).text ++ name := by
  rw [← Path.text_append, String.empty_append]

theorem text_candidate_inj (hs : Slashless s) (hs' : Slashless s') (ht : Slashless t)
    (ht' : Slashless t') (h : (candidate directory s t).text = (candidate directory s' t').text) :
    sourceName s t = sourceName s' t' := by
  rw [candidate_of_slashless hs ht, candidate_of_slashless hs' ht', text_concat,
    text_concat _ _ (mark ++ t' ++ "-" ++ baseName s')] at h
  exact (String.append_right_inj _).1 h

theorem IsSource.exists_text (h : IsSource p) : ∃ front, p.text = front ++ sourceSuffix := by
  obtain ⟨init, stem, hparts⟩ := h
  refine ⟨(Path.mk p.root (init ++ [stem])).text, ?_⟩
  rw [← Path.text_append, ← hparts]

theorem IsSource.text_ne_executableOf {q : Path} (h : IsSource p) (hq : IsSource q) :
    p.text ≠ (executableOf q).text := by
  obtain ⟨front, hfront⟩ := h.exists_text
  rw [hfront, hq.text_executableOf]
  intro htext
  have hend := congrArg (List.reverse ∘ String.toList) htext
  simp [executableSuffix, sourceSuffix] at hend

theorem parent_executableOf (p : Path) : (executableOf p).parent = p.parent := by
  rw [executableOf, Path.withSuffix, Path.parent_mk, Path.parent]

/-- A source has a slash in its text unless it lies in the directory of relative paths, under a name
that has none. -/
theorem slash_mem_candidate (directory : Path) (script token : String) :
    '/' ∈ (candidate directory script token).text.toList ↔
      directory ≠ .here ∨ ¬ Slashless (sourceName script token) := by
  obtain ⟨stem, hstem⟩ := baseName_eq script
  obtain ⟨middle, hname⟩ : ∃ middle, (sourceName script token).toList =
      mark.toList ++ middle ++ sourceSuffix.toList :=
    ⟨(token ++ "-" ++ stem).toList, by simp [sourceName, hstem, String.append_assoc]⟩
  have hslash : Slashless (sourceName script token) ↔ '/' ∉ middle := by
    simp [Slashless, hname, mark, sourceSuffix]
  rw [candidate_eq]
  change '/' ∈ (Path.mk _ (_ ++ Path.names (sourceName script token).toList)).text.toList ↔ _
  by_cases h : '/' ∈ middle
  · have hmark : '/' ∉ mark.toList := by decide
    have hsuffix : '/' ∉ sourceSuffix.toList := by decide
    obtain ⟨init, last, hinit, hnames⟩ :=
      Path.names_of_mem hmark (by decide) h hsuffix (by decide)
    rw [hname, hnames, ← List.append_assoc, Path.slash_mem_text]
    refine iff_of_true (.inl fun hhere => hinit ?_) (.inr fun hnone => hslash.1 hnone h)
    exact (List.append_eq_nil_iff.1 (congrArg Path.parts hhere)).2
  · have hisName : Path.isName (sourceName script token).toList = true := by
      simp [hname, Path.isName, mark]
    rw [Path.names_of_not_mem (hslash.2 h) hisName, Path.slash_mem_text, String.ofList_toList,
      Decidable.not_not]

/-- Whatever the directory and the script are called, a source lies right in the directory, under a
name with the mark, the token and a base that ends in the suffix of sources. Its executable lies
beside it, under its text with the suffix of executables. The text of a source tells token and base,
and no executable has it. -/
theorem artifacts_apart (directoryText scriptText : String) {token : String}
    (hlength : token.length = 8) (hslash : '/' ∉ token.toList) :
    let directory := Path.ofText directoryText
    let script := (Path.ofText scriptText).name
    let source := candidate directory script token
    (source.parent = directory ∧ source.name = mark ++ token ++ "-" ++ baseName script ∧
      endsWith (baseName script) sourceSuffix = true) ∧
    (∃ program, executable source = .ok program ∧ program.parent = source.parent ∧
      program.text = source.text ++ executableSuffix) ∧
    (∀ scriptText' token', token'.length = 8 → '/' ∉ token'.toList →
      let script' := (Path.ofText scriptText').name
      (candidate directory script' token').text = source.text →
      token' = token ∧ baseName script' = baseName script) ∧
    ∀ directoryText' scriptText' token' program,
      executable (candidate (Path.ofText directoryText') (Path.ofText scriptText').name token') =
        .ok program → program.text ≠ source.text := by
  intro directory script source
  have hscript (text : String) : Slashless (Path.ofText text).name := Path.slashless_name_ofText text
  have hsource : IsSource source := isSource_candidate directory script token
  have hlies : source = _ := candidate_of_slashless (hscript scriptText) hslash
  refine ⟨⟨?_, ?_, endsWith_baseName script⟩, ?_, ?_, ?_⟩
  · rw [hlies, Path.parent_mk]
  · rw [hlies, Path.name_mk]
  · exact ⟨executableOf source, hsource.executable, parent_executableOf source,
      hsource.text_executableOf⟩
  · intro scriptText' token' hlength' hslash' script' htext
    exact sourceName_inj (hlength'.trans hlength.symm)
      (text_candidate_inj (hscript scriptText') (hscript scriptText) hslash' hslash htext)
  · intro directoryText' scriptText' token' program hprogram
    have hother := isSource_candidate (Path.ofText directoryText') (Path.ofText scriptText').name token'
    rw [hother.executable] at hprogram
    cases hprogram
    exact (hsource.text_ne_executableOf hother).symm

/-- A script that is named as the directory above still lends its name to a source. -/
theorem artifacts_apart_upward :
    ("0a1b2c3d".length = 8 ∧ '/' ∉ "0a1b2c3d".toList) ∧
      let source := candidate (.ofText "//tmp/./x//") (Path.ofText "/a/..").name "0a1b2c3d"
      source.name = "goscript-0a1b2c3d-...go" ∧ source.parent.text = "//tmp/x" ∧
        ∃ program, executable source = .ok program ∧
          program.text = "//tmp/x/goscript-0a1b2c3d-...go.exe" := by
  have hlength : "0a1b2c3d".length = 8 := by decide
  have hslash : '/' ∉ "0a1b2c3d".toList := by decide
  obtain ⟨⟨hparent, hname, -⟩, ⟨program, hprogram, -, htext⟩, -⟩ :=
    artifacts_apart "//tmp/./x//" "/a/.." hlength hslash
  refine ⟨⟨hlength, hslash⟩, hname.trans (by decide), ?_, program, hprogram, htext.trans (by decide)⟩
  exact (congrArg Path.text hparent).trans (by decide)

end ScriptLauncher.Artifact
