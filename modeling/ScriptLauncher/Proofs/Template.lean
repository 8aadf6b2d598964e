import ScriptLauncher.Template
import Mathlib.Data.List.Basic

/-! Templates whose only directives are slots for displays, `%s`: what they are read as, and what
they are filled to. -/

namespace ScriptLauncher.Template

/-- A literal as a template has it, each percent sign written twice. -/
def escape (s : List Char) : List Char := s.flatMap fun c => if c = '%' then ['%', '%'] else [c]

/-- A slot and the literal behind it. -/
def slotBefore (literal : String) : List Char := '%' :: 's' :: escape literal.toList

/-- The template of some literals, with a slot before each but the first. -/
def slotted (first : String) (rest : List String) : String :=
  String.ofList (escape first.toList ++ rest.flatMap slotBefore)

/-- The literals with the displays of values in between. -/
def interleaved (first : String) (rest : List String) (args : List Value) : String :=
  first ++ String.join (List.zipWith (fun v literal => v.display ++ literal) args rest)

/-- The directive of a slot: no flag, no size, and the conversion to a display. -/
def slot (index : Nat) : Directive :=
  ⟨⟨false, false, false, false, false⟩, .absent, .absent, some ('s', index)⟩

section pieces

theorem piecesOf_plain (size : Nat) {c : Char} (hc : c ≠ '%') (s : List Char) :
    piecesOf size (c :: s) = .plain c :: piecesOf size s := by
  rw [piecesOf]
  · rintro s' rfl
    exact absurd rfl hc
  · exact hc

theorem piecesOf_escape (size : Nat) (literal s : List Char) :
    piecesOf size (escape literal ++ s) = literal.map .plain ++ piecesOf size s := by
  induction literal with
  | nil => rfl
  | cons c literal ih =>
    by_cases hc : c = '%'
    · subst hc
      show piecesOf size ('%' :: '%' :: (escape literal ++ s)) = _
      rw [piecesOf, ih]
      rfl
    · have hescape : escape (c :: literal) = c :: escape literal := by
        rw [escape, List.flatMap_cons, if_neg hc]
        rfl
      rw [hescape, List.cons_append, piecesOf_plain size hc, ih]
      rfl

theorem readDirective_slot (size : Nat) (s : List Char) :
    readDirective size ('s' :: s) = (.directive (slot (size - s.length - 1)), s) := rfl

theorem piecesOf_slotBefore (size : Nat) (literal : String) (s : List Char) :
    piecesOf size (slotBefore literal ++ s) =
      .directive (slot (size - (escape literal.toList ++ s).length - 1)) ::
        (literal.toList.map .plain ++ piecesOf size s) := by
  show piecesOf size ('%' :: 's' :: (escape literal.toList ++ s)) = _
  rw [piecesOf, readDirective_slot, piecesOf_escape]
  intro t ht
  exact absurd (List.cons.inj ht).1 (by decide)

end pieces

section fill

variable {vs : List Value} {ps : List Piece}

theorem fill_cons_of_ok {p : Piece} {s : List Char} {vs' : List Value}
    (h : fillPiece p vs = .ok (s, vs')) : fill (p :: ps) vs = (s ++ ·) <$> fill ps vs' := by
  rw [fill, h]
  show (do return s ++ (← fill ps vs')) = _
  cases fill ps vs' <;> rfl

theorem fill_plain (literal : List Char) (ps : List Piece) (vs : List Value) :
    fill (literal.map .plain ++ ps) vs = (literal ++ ·) <$> fill ps vs := by
  induction literal with
  | nil =>
    show fill ps vs = _
    cases fill ps vs <;> rfl
  | cons c literal ih =>
    have hplain : fillPiece (.plain c) vs = .ok ([c], vs) := rfl
    rw [List.map_cons, List.cons_append, fill_cons_of_ok hplain, ih]
    cases fill ps vs <;> rfl

theorem fillDirective_slot (index : Nat) (v : Value) (vs : List Value) :
    fillDirective (slot index) (v :: vs) = .ok (v.display.toList, vs) := by
  show Except.ok (Setting.placeText ⟨_, 0, none⟩ v.display.toList, vs) = _
  simp [Setting.placeText, Setting.place, List.leftpad]

theorem fill_slot (index : Nat) (ps : List Piece) (v : Value) (vs : List Value) :
    fill (.directive (slot index) :: ps) (v :: vs) = (v.display.toList ++ ·) <$> fill ps vs :=
  fill_cons_of_ok (fillDirective_slot index v vs)

/-- Each slot takes one value. Where they run out, or some are left over, the template is not
filled. -/
theorem fill_slots (size : Nat) (rest : List String) (args : List Value) :
    fill (piecesOf size (rest.flatMap slotBefore)) args =
      if args.length < rest.length then .error .missingArgument
      else if rest.length < args.length then .error .unusedArgument
      else .ok (String.join (List.zipWith (fun v literal => v.display ++ literal) args rest)).toList := by
  induction rest generalizing args with
  | nil =>
    rw [List.flatMap_nil, piecesOf]
    cases args <;> rfl
  | cons literal rest ih =>
    rw [List.flatMap_cons, piecesOf_slotBefore]
    cases args with
    | nil => rfl
    | cons v args =>
      rw [fill_slot, fill_plain, ih]
      simp only [List.length_cons, Nat.add_lt_add_iff_right]
      split_ifs
      · rfl
      · rfl
      · simp

theorem format_slotted (first : String) (rest : List String) (args : List Value) :
    format (slotted first rest) args =
      if args.length < rest.length then .error .missingArgument
      else if rest.length < args.length then .error .unusedArgument
      else .ok (interleaved first rest args) := by
  rw [format, slotted, String.toList_ofList, pieces, piecesOf_escape, fill_plain, fill_slots]
  split_ifs
  · rfl
  · rfl
  · show Except.ok (String.ofList (first.toList ++ (String.join _).toList)) = _
    rw [String.ofList_append, String.ofList_toList, String.ofList_toList]
    rfl

theorem render_of_ne_nil {args : List Value} (h : args ≠ []) (v : Value) :
    render v args = format v.display args := by
  rw [render, if_neg (by simpa using h)]

end fill

end ScriptLauncher.Template
