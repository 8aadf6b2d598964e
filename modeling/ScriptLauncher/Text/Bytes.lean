/-! Byte strings, as lists, with the few cuts that reading a script needs: the
lines of a text, and a line without the blanks around it. -/

namespace ScriptLauncher

abbrev Bytes := List UInt8

namespace Bytes

def newline : UInt8 := 10

/-- Space, tab, line feed, vertical tab, form feed and carriage return. -/
def isBlank (b : UInt8) : Bool := b == 32 || (9 ≤ b && b ≤ 13)

def trimLeft (s : Bytes) : Bytes := s.dropWhile isBlank

def trimRight (s : Bytes) : Bytes := (s.reverse.dropWhile isBlank).reverse

def trim (s : Bytes) : Bytes := s.trimLeft.trimRight

/-- The lines of a text, without their newlines. The last one may lack its newline;
after a final newline there is no further line. -/
def lines : Bytes → List Bytes
  | [] => []
  | b :: s =>
    if b = newline then [] :: lines s
    else match lines s with
      | [] => [[b]]
      | line :: rest => (b :: line) :: rest

/-- The lines, each closed by a newline. -/
def unlines (ls : List Bytes) : Bytes := ls.flatMap (· ++ [newline])

@[simp] theorem lines_nil : lines [] = [] := rfl

@[simp] theorem lines_newline (s : Bytes) : lines (newline :: s) = [] :: lines s := by
  simp [lines]

@[simp] theorem unlines_nil : unlines [] = [] := rfl

@[simp] theorem unlines_cons (l : Bytes) (ls : List Bytes) :
    unlines (l :: ls) = l ++ newline :: unlines ls := by
  simp [unlines]

theorem lines_append_newline {l : Bytes} (h : newline ∉ l) (s : Bytes) :
    lines (l ++ newline :: s) = l :: lines s := by
  induction l with
  | nil => simp
  | cons b l ih =>
    simp only [List.mem_cons, not_or] at h
    simp [lines, Ne.symm h.1, ih h.2]

theorem newline_not_mem {s l : Bytes} (h : l ∈ lines s) : newline ∉ l := by
  induction s generalizing l with
  | nil => simp at h
  | cons b s ih =>
    by_cases hb : b = newline
    · subst hb
      rw [lines_newline, List.mem_cons] at h
      rcases h with rfl | h
      · simp
      · exact ih h
    · simp only [lines, hb, ↓reduceIte] at h
      split at h
      · simp only [List.mem_singleton] at h
        subst h
        simp [Ne.symm hb]
      · next e =>
        rw [e] at ih
        rcases List.mem_cons.1 h with rfl | h
        · simp [Ne.symm hb, ih List.mem_cons_self]
        · exact ih (List.mem_cons_of_mem _ h)

end Bytes

end ScriptLauncher
