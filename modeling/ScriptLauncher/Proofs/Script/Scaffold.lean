import ScriptLauncher.Scaffold
import ScriptLauncher.Proofs.Script.Reading
import ScriptLauncher.Proofs.Text.Utf8
import Mathlib.Data.List.TakeWhile

/-! The program around a script keeps the script's lines where they are: a line moves down
by the newlines of the clauses before it, and not at all where those have none. -/

namespace ScriptLauncher.Bytes

theorem trimRight_cons {b : UInt8} (h : isBlank b = false) (s : Bytes) :
    trimRight (b :: s) = b :: trimRight s := by
  rw [trimRight, List.reverse_cons, List.dropWhile_append]
  split
  · next hs => simp_all [trimRight]
  · simp [trimRight]

theorem trim_cons {b : UInt8} (h : isBlank b = false) (s : Bytes) :
    trim (b :: s) = b :: trimRight s := by
  rw [trim, trimLeft, List.dropWhile_cons_of_neg (by simp [h]), trimRight_cons h]

end ScriptLauncher.Bytes

namespace ScriptLauncher.Script

theorem exists_of_isDirective {line : Bytes} (h : isDirective line = true) :
    ∃ rest, line = 35 :: rest := by
  obtain ⟨rest, hrest⟩ := List.isPrefixOf_iff_prefix.1 h
  exact ⟨rest, hrest.symm⟩

/-- A directive is no line of the preamble, since its marker is no blank and starts neither
an import nor a comment. -/
theorem isPreamble_of_isDirective {line : Bytes} (h : isDirective line = true) :
    isPreamble line = false := by
  obtain ⟨rest, rfl⟩ := exists_of_isDirective h
  rw [isPreamble, Bytes.trim_cons (by decide)]
  rfl

def kept (line : Bytes) : Bytes := if isDirective line then [] else line

theorem kept_of_isLeading {line : Bytes} (h : isLeading line = true) : kept line = [] := by
  cases line with
  | nil => rfl
  | cons b line =>
    have hd : isDirective (b :: line) = true := by simpa [isLeading] using h
    rw [kept, if_pos hd]

theorem kept_of_isPreamble {line : Bytes} (h : isPreamble line = true) : kept line = line := by
  cases hd : isDirective line with
  | true => exact absurd (isPreamble_of_isDirective hd) (by simp [h])
  | false => simp [kept, hd]

theorem prologue_eq_map (source : Bytes) :
    (Reading.ofSource source).prologue =
      (source.lines.take (preceding source.lines)).map kept := by
  have hleading : (source.lines.takeWhile isLeading).map kept =
      List.replicate (leading source.lines) [] := by
    rw [List.eq_replicate_iff]
    refine ⟨List.length_map .., fun l hl => ?_⟩
    obtain ⟨line, hline, rfl⟩ := List.mem_map.1 hl
    exact kept_of_isLeading (List.mem_takeWhile_imp hline)
  have hpreamble (ls : List Bytes) :
      (ls.takeWhile isPreamble).map kept = ls.takeWhile isPreamble := by
    rw [List.map_congr_left fun l hl => kept_of_isPreamble (List.mem_takeWhile_imp hl)]
    exact List.map_id' _
  rw [prologue_eq, take_preceding, List.map_append, hleading, hpreamble]

theorem newline_not_mem_prologue (source : Bytes) :
    ∀ l ∈ (Reading.ofSource source).prologue, Bytes.newline ∉ l := by
  intro l hl
  rw [prologue_eq_map] at hl
  obtain ⟨line, hline, rfl⟩ := List.mem_map.1 hl
  have h := Bytes.newline_not_mem (List.mem_of_mem_take hline)
  unfold kept
  split
  · simp
  · exact h

theorem getElem?_prologue {source line : Bytes} {i : Nat}
    (hi : i < (Reading.ofSource source).prologue.length)
    (h : (source.splitOn Bytes.newline)[i]? = some line) :
    (Reading.ofSource source).prologue[i]? = some (kept line) := by
  rw [length_prologue] at hi
  have hlt : i < source.lines.length := Nat.lt_of_lt_of_le hi (preceding_le _)
  have hline : source.lines[i]? = some line := by
    rcases Bytes.splitOn_newline source with hs | hs
    · rwa [hs] at h
    · rwa [hs, List.getElem?_append_left hlt] at h
  rw [prologue_eq_map, List.getElem?_map, List.getElem?_take_of_lt hi, hline]
  rfl

/-- Behind the prologue the lines of a script are those of its body. -/
theorem getElem?_body {source line : Bytes} {j : Nat}
    (h : (source.splitOn Bytes.newline)[(Reading.ofSource source).prologue.length + j]? =
      some line) :
    (((Reading.ofSource source).body.getD []).splitOn Bytes.newline)[j]? = some line := by
  rw [length_prologue] at h
  rcases Nat.lt_or_eq_of_le (preceding_le source.lines) with hlt | heq
  · obtain ⟨body, hbody, -, hsource, -⟩ := body_of_preceding_lt hlt
    have hmem := Bytes.newline_not_mem_take source (preceding source.lines)
    have hsplit := Bytes.splitOn_unlines_append hmem body
    rw [hsource] at hsplit
    rw [hsplit, List.getElem?_append_right (by rw [List.length_take]; omega),
      List.length_take, Nat.min_eq_left (preceding_le _), Nat.add_sub_cancel_left] at h
    rwa [hbody]
  · rw [body_of_preceding_eq heq]
    rcases Bytes.splitOn_newline source with hs | hs
    · rw [hs, List.getElem?_eq_none (by omega)] at h
      exact absurd h (by simp)
    · rw [hs, heq, List.getElem?_append_right (by omega), Nat.add_sub_cancel_left] at h
      simpa using h

theorem count_source (source : Bytes) :
    let r := Reading.ofSource source
    r.prologue.length + (r.body.getD []).count Bytes.newline = source.count Bytes.newline +
      if source ≠ [] ∧ r.body = none ∧ source.getLast? ≠ some Bytes.newline then 1 else 0 := by
  intro r
  have hlen : r.prologue.length = preceding source.lines := length_prologue source
  rcases Nat.lt_or_eq_of_le (preceding_le source.lines) with hlt | heq
  · obtain ⟨body, hbody, -, hsource, -⟩ := body_of_preceding_lt hlt
    have hcount := congrArg (List.count Bytes.newline) hsource
    rw [List.count_append, Bytes.count_unlines (Bytes.newline_not_mem_take source _),
      List.length_take, Nat.min_eq_left (preceding_le _)] at hcount
    simp [r, hbody, hlen, hcount]
  · have hbody : r.body = none := body_of_preceding_eq heq
    have hcount := Bytes.count_newline source
    simpa [hbody, hlen, heq] using hcount.symm

end ScriptLauncher.Script

namespace ScriptLauncher.Scaffold

open Script

theorem count_header {imports : List Import} (h : ∀ i ∈ imports, '\n' ∉ i.package.toList) :
    (header imports).count Bytes.newline = 0 := by
  rw [header, List.count_eq_zero, List.mem_append, not_or, List.mem_flatMap]
  refine ⟨by decide, fun ⟨i, hi, hm⟩ => h i hi ?_⟩
  simpa [importClause, importText, Utf8.newline_mem_encode] using hm

theorem count_entry {imports : List Import} (h : ∀ i ∈ imports, '\n' ∉ i.symbol.toList) :
    (entry imports).count Bytes.newline = 0 := by
  rw [entry, List.count_eq_zero, List.mem_append, List.mem_append, not_or, not_or, List.mem_flatMap]
  refine ⟨⟨by decide, fun ⟨i, hi, hm⟩ => h i hi ?_⟩, by decide⟩
  simpa [useClause, Utf8.newline_mem_encode] using hm

theorem assemble_eq (source : Bytes) (imports : List Import) :
    assemble source imports =
      header imports ++ (Bytes.unlines (Reading.ofSource source).prologue ++
        (entry imports ++ ((Reading.ofSource source).body.getD [] ++ closing))) := by
  simp [assemble, wrap]

theorem closing_eq : closing = Bytes.newline :: Utf8.encode "\x7d\n" := by decide

/-- A script line that is no directive is the end of a program line, and all of it from the
second line of the prologue and of the body on. An empty line stands for a directive. -/
theorem assemble_line_numbers (source : Bytes) (imports : List Import) :
    let r := Reading.ofSource source
    let h := (header imports).count Bytes.newline
    let e := (entry imports).count Bytes.newline
    let k := r.prologue.length
    let script := source.splitOn Bytes.newline
    let program := (assemble source imports).splitOn Bytes.newline
    ((∀ i ∈ imports, '\n' ∉ i.package.toList ∧ '\n' ∉ i.symbol.toList) → h = 0 ∧ e = 0) ∧
      (∀ i line, i < k → script[i]? = some line → isDirective line = false →
        ∃ whole, program[h + i]? = some whole ∧ line <:+ whole ∧ (0 < i → whole = line)) ∧
      (∀ i line, i < k → script[i]? = some line → isDirective line = true → 0 < i →
        program[h + i]? = some []) ∧
      (∀ i line, k ≤ i → script[i]? = some line →
        ∃ whole, program[h + e + i]? = some whole ∧ line <:+ whole ∧ (k < i → whole = line)) ∧
      (assemble source imports).count Bytes.newline = source.count Bytes.newline + h + e + 2 +
        if source ≠ [] ∧ r.body = none ∧ source.getLast? ≠ some Bytes.newline then 1 else 0 := by
  intro r h e k script program
  have hmem : ∀ l ∈ r.prologue, Bytes.newline ∉ l := newline_not_mem_prologue source
  -- A line of the prologue, kept or emptied, is found again behind the header.
  have hprologue : ∀ i line, i < k → script[i]? = some line →
      ∃ whole, program[h + i]? = some whole ∧ kept line <:+ whole ∧ (0 < i → whole = kept line) := by
    intro i line hi hline
    have hkept : r.prologue[i]? = some (kept line) := getElem?_prologue hi hline
    have hsplit : ((Bytes.unlines r.prologue ++
        (entry imports ++ (r.body.getD [] ++ closing))).splitOn Bytes.newline)[i]? =
          some (kept line) := by
      rw [Bytes.splitOn_unlines_append hmem, List.getElem?_append_left hi, hkept]
    simpa only [program, assemble_eq] using Bytes.getElem?_splitOn_append (header imports) hsplit
  refine ⟨fun hi => ⟨count_header fun i h => (hi i h).1, count_entry fun i h => (hi i h).2⟩,
    ?_, ?_, ?_, ?_⟩
  · intro i line hi hline hd
    simpa [kept, hd] using hprologue i line hi hline
  · intro i line hi hline hd hpos
    obtain ⟨whole, hwhole, -, heq⟩ := hprologue i line hi hline
    rw [hwhole, heq hpos, kept, if_pos hd]
  · intro i line hi hline
    obtain ⟨j, rfl⟩ := Nat.exists_eq_add_of_le hi
    have hbody := getElem?_body hline
    have hsplit : ((r.body.getD [] ++ closing).splitOn Bytes.newline)[j]? = some line := by
      obtain ⟨hj, -⟩ := List.getElem?_eq_some_iff.1 hbody
      rw [closing_eq, List.splitOn_append_cons_self, List.getElem?_append_left hj, hbody]
    obtain ⟨whole, hwhole, hsuffix, heq⟩ := Bytes.getElem?_splitOn_append
      (header imports ++ (Bytes.unlines r.prologue ++ entry imports)) hsplit
    have hcount : (header imports ++ (Bytes.unlines r.prologue ++ entry imports)).count
        Bytes.newline + j = h + e + (k + j) := by
      rw [List.count_append, List.count_append, Bytes.count_unlines hmem]
      omega
    refine ⟨whole, ?_, hsuffix, fun hk => heq (by omega)⟩
    rw [hcount] at hwhole
    simpa only [program, assemble_eq, List.append_assoc] using hwhole
  · have hclosing : closing.count Bytes.newline = 2 := by decide
    have hsource := count_source source
    rw [assemble_eq, List.count_append, List.count_append, List.count_append, List.count_append,
      Bytes.count_unlines hmem, hclosing]
    simp only [r, h, e] at hsource ⊢
    omega

end ScriptLauncher.Scaffold
