import ScriptLauncher.Artifact
import ScriptLauncher.Proofs.Path

/-! The names that sources and executables get. -/

namespace ScriptLauncher.Artifact

open Host

def IsSource (p : Path) : Prop := ∃ init stem, p.parts = init ++ [stem ++ sourceSuffix]

theorem baseName_eq (script : String) : ∃ stem, baseName script = stem ++ sourceSuffix := by
  unfold baseName
  split
  · next h =>
    obtain ⟨stem, hstem⟩ := List.isSuffixOf_iff_suffix.1 h
    refine ⟨String.ofList stem, String.toList_inj.1 ?_⟩
    rw [String.toList_append, String.toList_ofList, hstem]
  · exact ⟨script, rfl⟩

theorem candidate_eq (directory : Path) (script token : String) :
    candidate directory script token =
      ⟨directory.root, directory.parts ++
        Path.names (mark ++ token ++ "-" ++ baseName script).toList⟩ := by
  have hroot : (Path.ofText (mark ++ token ++ "-" ++ baseName script)).isAbsolute = false := by
    simp [Path.ofText, mark, String.toList_append, Root.ofChars, Path.isAbsolute]
  rw [candidate, Path.join_relative hroot]
  rfl

theorem isSource_candidate (directory : Path) (script token : String) :
    IsSource (candidate directory script token) := by
  obtain ⟨stem, hstem⟩ := baseName_eq script
  obtain ⟨init, last, hnames⟩ := Path.names_append (mark ++ token ++ "-" ++ stem).toList
    (t := sourceSuffix.toList) (by decide) (by decide)
  refine ⟨directory.parts ++ init, String.ofList last, ?_⟩
  rw [candidate_eq, hstem, ← String.append_assoc, String.toList_append, hnames, String.ofList_append,
    String.ofList_toList, List.append_assoc]

theorem IsSource.ne_nil {p : Path} (h : IsSource p) : p.parts ≠ [] := by
  obtain ⟨init, stem, h⟩ := h
  simp [h]

theorem IsSource.length_name {p : Path} (h : IsSource p) : 2 < p.name.length := by
  obtain ⟨init, stem, h⟩ := h
  rw [Path.name, h, List.getLastD_eq_getLast?, List.getLast?_concat]
  show 2 < (stem ++ sourceSuffix).length
  rw [String.length_append]
  exact Nat.lt_of_lt_of_le (by decide : 2 < sourceSuffix.length) (Nat.le_add_left _ _)

theorem IsSource.getLast?_parts {p : Path} (h : IsSource p) : p.parts.getLast? = some p.name := by
  rw [← Path.parts_eq h.ne_nil, List.getLast?_concat]

abbrev executableOf (p : Path) : Path := p.withSuffix executableSuffix

theorem IsSource.executable {p : Path} (h : IsSource p) :
    executable p = .ok (executableOf p) := by
  rw [Artifact.executable, Path.addSuffix?_of_ne_nil h.ne_nil]

theorem getLast?_executableOf (p : Path) :
    (executableOf p).parts.getLast? = some (p.name ++ executableSuffix) :=
  List.getLast?_concat

theorem name_executableOf (p : Path) : (executableOf p).name = p.name ++ executableSuffix :=
  Path.name_mk _ _ _

theorem IsSource.name_ne_executableOf {p : Path} (h : IsSource p) (q : Path) :
    p.name ≠ (executableOf q).name := by
  obtain ⟨init, stem, h⟩ := h
  rw [name_executableOf, Path.name, h, List.getLastD_eq_getLast?, List.getLast?_concat]
  intro hname
  have hend := congrArg (List.reverse ∘ String.toList) hname
  simp [executableSuffix, sourceSuffix] at hend

theorem IsSource.ne_executableOf {p : Path} (h : IsSource p) (q : Path) : p ≠ executableOf q :=
  fun heq => h.name_ne_executableOf q (congrArg Path.name heq)

theorem IsSource.text_executableOf {p : Path} (h : IsSource p) :
    (executableOf p).text = p.text ++ executableSuffix :=
  Path.text_withSuffix h.ne_nil executableSuffix

section null

/-- A text that the system takes: there is no null in it. -/
abbrev Plain (s : String) : Prop := World.holdsNull s = false

variable {s t : String} {p directory : Path}

theorem plain_iff : Plain s ↔ '\x00' ∉ s.toList := by
  simp [Plain, World.holdsNull]

theorem plain_append : Plain (s ++ t) ↔ Plain s ∧ Plain t := by
  simp only [plain_iff, String.toList_append, List.mem_append, not_or]

theorem plain_text : Plain p.text ↔ ∀ part ∈ p.parts, Plain part := by
  simp only [plain_iff, Path.mem_text (show '\x00' ≠ '/' by decide) (by decide)]
  exact ⟨fun h part hpart hnull => h ⟨part, hpart, hnull⟩, fun h ⟨part, hpart, hnull⟩ =>
    h part hpart hnull⟩

theorem plain_name (h : Plain p.text) : Plain p.name := by
  rw [Path.name, List.getLastD_eq_getLast?]
  cases hlast : p.parts.getLast? with
  | none => decide
  | some part => exact plain_text.1 h part (List.mem_of_getLast? hlast)

theorem plain_baseName (h : Plain s) : Plain (baseName s) := by
  unfold baseName
  split
  · exact h
  · exact plain_append.2 ⟨h, by decide⟩

theorem plain_candidate (hdirectory : Plain directory.text) (hs : Plain s) (ht : Plain t) :
    Plain (candidate directory s t).text := by
  rw [plain_text, candidate_eq]
  intro part hpart
  rcases List.mem_append.1 hpart with hpart | hpart
  · exact plain_text.1 hdirectory part hpart
  · have hall : Plain (mark ++ t ++ "-" ++ baseName s) := by
      refine plain_append.2 ⟨plain_append.2 ⟨plain_append.2 ⟨?_, ht⟩, ?_⟩, plain_baseName hs⟩ <;>
        decide
    rw [plain_iff] at hall ⊢
    exact fun hnull => hall (Path.mem_of_mem_names hpart hnull)

theorem IsSource.plain_executableOf (h : IsSource p) (hplain : Plain p.text) :
    Plain (executableOf p).text := by
  rw [h.text_executableOf]
  exact plain_append.2 ⟨hplain, by decide⟩

theorem mem_toDigits {n : Nat} {c : Char} (h : c ∈ Nat.toDigits 16 n) :
    c ∈ "0123456789abcdef".toList := by
  have hdigit : ∀ d < 16, Nat.digitChar d ∈ "0123456789abcdef".toList := by decide
  induction n using Nat.strongRecOn with
  | ind n ih =>
    rw [Nat.toDigits_eq_if (by decide)] at h
    split at h
    · next hlt => exact List.mem_singleton.1 h ▸ hdigit n hlt
    · rcases List.mem_append.1 h with h | h
      · exact ih (n / 16) (by omega) h
      · exact List.mem_singleton.1 h ▸ hdigit (n % 16) (Nat.mod_lt n (by decide))

theorem mem_numberedToken {n : Nat} {c : Char} (h : c ∈ (Session.numberedToken n).toList) :
    c ∈ "0123456789abcdef".toList := by
  rw [Session.numberedToken, String.toList_ofList, Text.hex, List.leftpad] at h
  rcases List.mem_append.1 h with h | h
  · obtain ⟨-, rfl⟩ := List.mem_replicate.1 h
    decide
  · exact mem_toDigits h

theorem plain_numberedToken (n : Nat) : Plain (Session.numberedToken n) :=
  plain_iff.2 fun h => absurd (mem_numberedToken h) (by decide)

end null

section hexadecimal

/-- The number that some hexadecimal digits stand for. -/
def hexValue (s : List Char) : Nat :=
  s.foldl (fun n c => 16 * n + "0123456789abcdef".toList.idxOf c) 0

theorem hexValue_toDigits (n : Nat) : hexValue (Nat.toDigits 16 n) = n := by
  have hdigit : ∀ d < 16, "0123456789abcdef".toList.idxOf (Nat.digitChar d) = d := by decide
  induction n using Nat.strongRecOn with
  | ind n ih =>
    rw [Nat.toDigits_eq_if (by decide)]
    split
    · next hlt => simpa [hexValue] using hdigit n hlt
    · rw [hexValue, List.foldl_append, ← hexValue, ih (n / 16) (by omega), List.foldl_cons,
        List.foldl_nil, hdigit (n % 16) (Nat.mod_lt n (by decide))]
      exact Nat.div_add_mod n 16

theorem hexValue_hex (width n : Nat) : hexValue (Text.hex width n) = n := by
  have hzeros : ∀ k, (List.replicate k '0').foldl
      (fun n c => 16 * n + "0123456789abcdef".toList.idxOf c) 0 = 0 := by
    intro k
    induction k with
    | zero => rfl
    | succ k ih => exact ih
  rw [Text.hex, List.leftpad, hexValue, List.foldl_append, hzeros]
  exact hexValue_toDigits n

theorem numberedToken_injective : Function.Injective Session.numberedToken := by
  intro m n h
  have hdigits := String.ofList_inj.1 h
  rw [← hexValue_hex 8 m, hdigits, hexValue_hex]

end hexadecimal

section slashless

open ScriptLauncher.Path (Slashless)

variable {s t : String} {directory p : Path} {w : World}

/-- A path of a source right in a directory. -/
def Lies (directory p : Path) : Prop :=
  ∃ stem, p = ⟨directory.root, directory.parts ++ [stem ++ sourceSuffix]⟩

theorem Lies.isSource (h : Lies directory p) : IsSource p := by
  obtain ⟨stem, rfl⟩ := h
  exact ⟨directory.parts, stem, rfl⟩

/-- Where neither the token nor the name of the script brings a slash in, a source gets one name,
with the token in it. -/
theorem candidate_of_slashless (hs : Slashless s) (ht : Slashless t) :
    candidate directory s t =
      ⟨directory.root, directory.parts ++ [mark ++ t ++ "-" ++ baseName s]⟩ := by
  have hbase : Slashless (baseName s) := by
    unfold baseName
    split
    · exact hs
    · exact Path.slashless_append.2 ⟨hs, by decide⟩
  have hall : Slashless (mark ++ t ++ "-" ++ baseName s) :=
    Path.slashless_append.2 ⟨Path.slashless_append.2 ⟨Path.slashless_append.2
      ⟨by decide, ht⟩, by decide⟩, hbase⟩
  have hname : Path.isName (mark ++ t ++ "-" ++ baseName s).toList = true := by
    simp [Path.isName, mark]
  rw [candidate_eq, Path.names_of_not_mem hall hname, String.ofList_toList]

/-- Such a source lies right in the directory that it is made for. -/
theorem lies_candidate (hs : Slashless s) (ht : Slashless t) :
    Lies directory (candidate directory s t) := by
  obtain ⟨stem, hstem⟩ := baseName_eq s
  refine ⟨mark ++ t ++ "-" ++ stem, ?_⟩
  rw [candidate_of_slashless hs ht, hstem, ← String.append_assoc]

/-- Its name tells which token it has. -/
theorem name_candidate_inj {t' : String} (hs : Slashless s) (ht : Slashless t)
    (ht' : Slashless t') (h : (candidate directory s t).name = (candidate directory s t').name) :
    t = t' := by
  rw [candidate_of_slashless hs ht, candidate_of_slashless hs ht', Path.name_mk, Path.name_mk] at h
  exact (String.append_right_inj mark).1
    ((String.append_left_inj "-").1 ((String.append_left_inj (baseName s)).1 h))

theorem slashless_numberedToken (n : Nat) : Slashless (Session.numberedToken n) :=
  fun hmem => absurd (mem_numberedToken hmem) (by decide)

theorem slashless_drawToken (h : ∀ t ∈ w.tokens, Slashless t) :
    Slashless (Session.drawToken w).1 := by
  unfold Session.drawToken
  split
  · exact slashless_numberedToken w.drawn
  · next token tokens htokens => exact h token (htokens ▸ List.mem_cons_self)

end slashless

end ScriptLauncher.Artifact
