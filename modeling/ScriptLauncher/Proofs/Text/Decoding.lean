import ScriptLauncher.Proofs.Text.CharacterBytes

/-! Reading bytes as text. What the reader makes of bytes is told by the encodings of characters
alone (`Decodes`), and from there it follows that whole characters are read as what they are,
whatever stands beside them. -/

namespace ScriptLauncher.Utf8

/-- A text for some bytes: encodings stand for their characters; a byte that begins no character
stands for a mark, and so do bytes that begin one which does not come, as many as do so. -/
inductive Decodes : Bytes → List Char → Prop
  | nil : Decodes [] []
  | char {s : Bytes} {cs : List Char} (c : Char) :
    Decodes s cs → Decodes (encodeChar c ++ s) (c :: cs)
  | stray {b : UInt8} {s : Bytes} {cs : List Char} :
    ¬ Begins [b] → Decodes s cs → Decodes (b :: s) (mark :: cs)
  | broken {u s : Bytes} {cs : List Char} :
    u ≠ [] → Begins u → (∀ c, encodeChar c ≠ u) → (∀ b ∈ s.head?, ¬ Begins (u ++ [b])) →
    Decodes s cs → Decodes (u ++ s) (mark :: cs)

section reading

variable {p q : Pending} {n : Nat} {b : UInt8} {c : Char} {u s : Bytes} {cs : List Char}

theorem decodeFrom_cons (p : Pending) (b : UInt8) (s : Bytes) :
    decodeFrom p (b :: s) = (next p b.toNat).1 ++ decodeFrom (next p b.toNat).2 s := by
  cases p <;> rfl

/-- What is read by a step from `p` under the byte `n`, and where it leads. -/
def Step.reading (p : Pending) (n : Nat) : Step → List Char × Pending
  | .char c => ([c], .none)
  | .more q => ([], q)
  | .refuse => if p = .none then ([mark], .none) else (mark :: (afresh n).1, (afresh n).2)

theorem next_eq (p : Pending) (n : Nat) : next p n = (step p n).reading p n := by
  cases p with
  | none =>
    rw [next, afresh, step]
    cases start n <;> rfl
  | inside left low high bits =>
    rw [next]
    · cases step (.inside left low high bits) n <;> rfl
    · intro hp
      cases hp

theorem decodeFrom_of_char (h : step p b.toNat = .char c) (s : Bytes) :
    decodeFrom p (b :: s) = c :: decodeFrom .none s := by
  rw [decodeFrom_cons, next_eq, h]
  rfl

theorem decodeFrom_of_more (h : step p b.toNat = .more q) (s : Bytes) :
    decodeFrom p (b :: s) = decodeFrom q s := by
  rw [decodeFrom_cons, next_eq, h]
  rfl

/-- Between characters, a byte that is refused is marked itself. -/
theorem decodeFrom_none_of_refuse (h : step .none b.toNat = .refuse) (s : Bytes) :
    decodeFrom .none (b :: s) = mark :: decodeFrom .none s := by
  rw [decodeFrom_cons, next_eq, h]
  rfl

/-- Inside a character, what was read of it is marked and the byte is read again. -/
theorem decodeFrom_inside_of_refuse (hp : p ≠ .none) (h : step p b.toNat = .refuse) (s : Bytes) :
    decodeFrom p (b :: s) = mark :: decodeFrom .none (b :: s) := by
  rw [decodeFrom_cons, next_eq, h, Step.reading, if_neg hp, decodeFrom_cons .none]
  rfl

theorem step_of_feed (h : feed u = .more p) (b : UInt8) : feed (u ++ [b]) = step p b.toNat := by
  rw [feed_concat, h, Step.after]

theorem eq_nil_of_feed (h : feed u = .more .none) : u = [] := by
  have haccounts := accounts_feed u
  rwa [h] at haccounts

theorem decodeFrom_append_of_more (h : feed u = .more p) (s : Bytes) :
    decodeFrom .none (u ++ s) = decodeFrom p s := by
  induction u using List.reverseRecOn generalizing p s with
  | nil =>
    cases h
    rfl
  | append_singleton u b ih =>
    rw [List.append_assoc, List.singleton_append]
    rw [feed_concat] at h
    cases hu : feed u with
    | char | refuse =>
      rw [hu] at h
      cases h
    | more q =>
      rw [hu] at h
      rw [ih hu, decodeFrom_of_more h]

theorem decodeFrom_encodeChar_append (c : Char) (s : Bytes) :
    decodeFrom .none (encodeChar c ++ s) = c :: decodeFrom .none s := by
  obtain ⟨u, b, hu⟩ : ∃ u b, encodeChar c = u ++ [b] :=
    ⟨_, _, (List.dropLast_concat_getLast (encodeChar_ne_nil c)).symm⟩
  have hfeed := feed_encodeChar c
  rw [hu, feed_concat] at hfeed
  rw [hu, List.append_assoc, List.singleton_append]
  cases h : feed u with
  | char | refuse =>
    rw [h] at hfeed
    cases hfeed
  | more p =>
    rw [h] at hfeed
    rw [decodeFrom_append_of_more h, decodeFrom_of_char hfeed]

/-- Bytes that begin a character, and no more than that, leave the reader inside it. -/
theorem exists_feed (hne : u ≠ []) (hbegins : Begins u) (hwhole : ∀ c, encodeChar c ≠ u) :
    ∃ p, feed u = .more p ∧ p ≠ .none := by
  cases h : feed u with
  | refuse => exact absurd h (begins_iff.1 hbegins)
  | char c => exact absurd (feed_eq_char_iff.1 h) (hwhole c)
  | more p =>
    refine ⟨p, rfl, ?_⟩
    rintro rfl
    exact hne (eq_nil_of_feed h)

theorem begun_of_feed (h : feed u = .more p) (hp : p ≠ .none) :
    u ≠ [] ∧ Begins u ∧ ∀ c, encodeChar c ≠ u := by
  refine ⟨?_, begins_iff.2 (by rw [h]; nofun), fun c hc => ?_⟩
  · rintro rfl
    cases h
    exact hp rfl
  · cases (feed_eq_char_iff.2 hc).symm.trans h

theorem decodes_from (h : feed u = .more p) (s : Bytes) : Decodes (u ++ s) (decodeFrom p s) := by
  -- On the bytes to come. Those of a character that has not ended yet are in `u`, and a byte that
  -- does not go on with it is read anew, as if `u` were empty (`hnone`).
  induction s generalizing u p with
  | nil =>
    cases p with
    | none =>
      obtain rfl := eq_nil_of_feed h
      exact .nil
    | inside =>
      obtain ⟨hne, hbegins, hwhole⟩ := begun_of_feed h nofun
      exact .broken hne hbegins hwhole nofun .nil
  | cons b s ih =>
    have hnone : Decodes (b :: s) (decodeFrom .none (b :: s)) := by
      cases hb : step .none b.toNat with
      | char c =>
        have hchar : encodeChar c = [b] := feed_eq_char_iff.1 hb
        rw [decodeFrom_of_char hb, ← List.singleton_append, ← hchar]
        exact .char c (ih (u := []) rfl)
      | more q =>
        rw [decodeFrom_of_more hb]
        exact ih (u := [b]) hb
      | refuse =>
        rw [decodeFrom_none_of_refuse hb]
        exact .stray (not_begins_iff.2 hb) (ih (u := []) rfl)
    by_cases hp : p = .none
    · subst hp
      obtain rfl := eq_nil_of_feed h
      exact hnone
    cases hb : step p b.toNat with
    | char c =>
      rw [← step_of_feed h] at hb
      rw [decodeFrom_of_char (hb ▸ step_of_feed h b).symm, List.append_cons, ← feed_eq_char_iff.1 hb]
      exact .char c (ih (u := []) rfl)
    | more q =>
      rw [decodeFrom_of_more hb, List.append_cons]
      exact ih (by rw [step_of_feed h, hb])
    | refuse =>
      rw [decodeFrom_inside_of_refuse hp hb]
      obtain ⟨hne, hbegins, hwhole⟩ := begun_of_feed h hp
      refine .broken hne hbegins hwhole (fun x hx => ?_) hnone
      obtain rfl := Option.some.inj hx
      exact not_begins_iff.2 ((step_of_feed h b).trans hb)

theorem decodeFrom_of_decodes (h : Decodes s cs) : decodeFrom .none s = cs := by
  induction h with
  | nil => rfl
  | char c _ ih => rw [decodeFrom_encodeChar_append, ih]
  | stray hb _ ih =>
    rw [decodeFrom_none_of_refuse (not_begins_iff.1 hb), ih]
  | @broken u s cs hne hbegins hwhole hmax _ ih =>
    obtain ⟨p, hfeed, hp⟩ := exists_feed hne hbegins hwhole
    rw [decodeFrom_append_of_more hfeed]
    cases s with
    | nil =>
      cases p with
      | none => exact absurd rfl hp
      | inside => exact congrArg (mark :: ·) ih
    | cons b s =>
      have hb : step p b.toNat = .refuse := by
        rw [← step_of_feed hfeed]
        exact not_begins_iff.1 (hmax b rfl)
      rw [decodeFrom_inside_of_refuse hp hb, ih]

/-- The reader finds the one text that stands for some bytes. -/
theorem decodes_iff : Decodes s cs ↔ decodeChars s = cs :=
  ⟨decodeFrom_of_decodes, fun h => h ▸ decodes_from (u := []) rfl s⟩

end reading

section laws

variable {s : Bytes} {cs : List Char} {c : Char}

theorem decodeChars_encodeChars_append (t : List Char) (s : Bytes) :
    decodeChars (encodeChars t ++ s) = t ++ decodeChars s := by
  induction t with
  | nil => rfl
  | cons c t ih =>
    rw [encodeChars_cons, List.append_assoc, decodeChars, decodeFrom_encodeChar_append,
      List.cons_append, ← ih, decodeChars]

/-- A character that was begun does not go on with the first byte of another. -/
theorem not_begins_of_not_isTail {u : Bytes} {b : UInt8} (hne : u ≠ []) (hb : ¬ IsTail b) :
    ¬ Begins (u ++ [b]) := by
  rintro ⟨c, v, hv⟩
  obtain ⟨a, rest, hchar, -, htails⟩ := encodeChar_cons c
  obtain ⟨x, u, rfl⟩ := List.exists_cons_of_ne_nil hne
  rw [hchar] at hv
  obtain ⟨-, hrest⟩ := List.cons.inj hv
  exact hb (htails b (hrest ▸ by simp))

/-- What is broken at the end of some bytes stays so before whole characters. -/
theorem Decodes.append (h : Decodes s cs) (t : List Char) :
    Decodes (s ++ encodeChars t) (cs ++ t) := by
  induction h with
  | nil =>
    rw [decodes_iff, List.nil_append, ← List.append_nil (encodeChars t),
      decodeChars_encodeChars_append]
    exact List.append_nil t
  | char c _ ih =>
    rw [List.append_assoc]
    exact .char c ih
  | stray hb _ ih => exact .stray hb ih
  | @broken u s cs hne hbegins hwhole hmax _ ih =>
    rw [List.append_assoc]
    refine .broken hne hbegins hwhole (fun b hb => ?_) ih
    -- Only bytes that are broken at the end meet the new ones, of which the first is no tail.
    cases s with
    | cons x s => exact hmax b hb
    | nil =>
      cases t with
      | nil => cases hb
      | cons c t =>
        obtain ⟨a, rest, hchar, ha, -⟩ := encodeChar_cons c
        rw [List.nil_append, encodeChars_cons, hchar] at hb
        obtain rfl := Option.some.inj hb
        exact not_begins_of_not_isTail hne ha

theorem decodeChars_append_encodeChars (s : Bytes) (t : List Char) :
    decodeChars (s ++ encodeChars t) = decodeChars s ++ t :=
  decodes_iff.1 ((decodes_iff.2 rfl).append t)

theorem Decodes.eq_nil (h : Decodes s []) : s = [] := by
  cases h
  rfl

theorem getLast?_of_mark (hlast : (mark :: cs).getLast? = some c) (hc : c.toNat < 0x80) :
    cs.getLast? = some c := by
  cases cs with
  | nil =>
    obtain rfl := Option.some.inj hlast
    exact absurd hc (by decide)
  | cons => rwa [List.getLast?_cons_cons] at hlast

/-- A character of one byte at the end of a text is the last byte. -/
theorem Decodes.getLast? (h : Decodes s cs) (hlast : cs.getLast? = some c) (hc : c.toNat < 0x80) :
    s.getLast? = some (UInt8.ofNat c.toNat) := by
  induction h with
  | nil => cases hlast
  | @char s cs d h ih =>
    rw [List.getLast?_append]
    cases cs with
    | nil =>
      obtain rfl := h.eq_nil
      rw [List.getLast?_singleton] at hlast
      obtain rfl := Option.some.inj hlast
      rw [encodeChar_ascii hc]
      rfl
    | cons => rw [ih (by rwa [List.getLast?_cons_cons] at hlast), Option.some_or]
  | @stray b s cs _ _ ih =>
    rw [← List.singleton_append, List.getLast?_append, ih (getLast?_of_mark hlast hc),
      Option.some_or]
  | broken _ _ _ _ _ ih =>
    rw [List.getLast?_append, ih (getLast?_of_mark hlast hc), Option.some_or]

theorem decode_encode_append (t : String) (s : Bytes) : decode (encode t ++ s) = t ++ decode s := by
  rw [decode, encode, decodeChars_encodeChars_append, String.ofList_append, String.ofList_toList]
  rfl

theorem decode_append_encode (s : Bytes) (t : String) : decode (s ++ encode t) = decode s ++ t := by
  rw [decode, encode, decodeChars_append_encodeChars, String.ofList_append, String.ofList_toList]
  rfl

theorem decode_encode (t : String) : decode (encode t) = t := by
  have h := decode_encode_append t []
  rw [List.append_nil] at h
  rw [h]
  exact String.append_empty

end laws

end ScriptLauncher.Utf8
