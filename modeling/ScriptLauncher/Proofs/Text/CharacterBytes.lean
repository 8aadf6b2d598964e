import ScriptLauncher.Proofs.Text.Utf8
import Mathlib.Data.List.Basic
import Mathlib.Data.List.Induction

/-! The bytes of one character: the reader takes bytes for a character just when they are its
encoding, and refuses them just when no character's encoding begins with them. -/

namespace ScriptLauncher.Utf8

section bytes

/-- A byte that goes on with a character. -/
def IsTail (b : UInt8) : Prop := 0x80 ≤ b.toNat ∧ b.toNat ≤ 0xBF

/-- The bits of a character that are read so far, with those of one more tail. -/
def extend (bits : Nat) (b : UInt8) : Nat := bits * 64 + (b.toNat - 0x80)

theorem ofNat_eq {b : UInt8} {n : Nat} (h : n = b.toNat) : UInt8.ofNat n = b := by
  subst h
  exact UInt8.ofNat_toNat

theorem toNat_ofNat {n : Nat} (h : n.isValidChar) : (Char.ofNat n).toNat = n := by
  rw [Char.ofNat, dif_pos h]
  rfl

theorem encodeChar_ofNat {n : Nat} (h : n.isValidChar) :
    encodeChar (Char.ofNat n) =
      if n < 0x80 then [UInt8.ofNat n]
      else if n < 0x800 then [UInt8.ofNat (0xC0 + n / 64), UInt8.ofNat (0x80 + n % 64)]
      else if n < 0x10000 then
        [UInt8.ofNat (0xE0 + n / 4096), UInt8.ofNat (0x80 + n / 64 % 64), UInt8.ofNat (0x80 + n % 64)]
      else
        [UInt8.ofNat (0xF0 + n / 262144), UInt8.ofNat (0x80 + n / 4096 % 64),
          UInt8.ofNat (0x80 + n / 64 % 64), UInt8.ofNat (0x80 + n % 64)] := by
  rw [encodeChar, toNat_ofNat h]

variable {a b c d : UInt8}

theorem encodeChar_one (ha : a.toNat < 0x80) : encodeChar (Char.ofNat a.toNat) = [a] := by
  rw [encodeChar_ofNat (.inl (by omega)), if_pos ha, UInt8.ofNat_toNat]

theorem encodeChar_two (ha : 0xC2 ≤ a.toNat ∧ a.toNat < 0xE0) (hb : IsTail b) :
    encodeChar (Char.ofNat (extend (a.toNat - 0xC0) b)) = [a, b] := by
  unfold IsTail extend at *
  rw [encodeChar_ofNat (.inl (by omega)), if_neg (by omega), if_pos (by omega),
    ofNat_eq (show _ = a.toNat by omega), ofNat_eq (show _ = b.toNat by omega)]

/-- Of three bytes, the second keeps out what two bytes can say, and the surrogates. -/
theorem encodeChar_three (ha : 0xE0 ≤ a.toNat ∧ a.toNat < 0xF0) (hb : IsTail b)
    (hshort : a.toNat = 0xE0 → 0xA0 ≤ b.toNat) (hpair : a.toNat = 0xED → b.toNat ≤ 0x9F)
    (hc : IsTail c) :
    encodeChar (Char.ofNat (extend (extend (a.toNat - 0xE0) b) c)) = [a, b, c] := by
  unfold IsTail extend at *
  rw [encodeChar_ofNat (by unfold Nat.isValidChar; omega), if_neg (by omega), if_neg (by omega),
    if_pos (by omega), ofNat_eq (show _ = a.toNat by omega), ofNat_eq (show _ = b.toNat by omega),
    ofNat_eq (show _ = c.toNat by omega)]

/-- Of four bytes, the second keeps out what three bytes can say, and what lies past the last
character. -/
theorem encodeChar_four (ha : 0xF0 ≤ a.toNat ∧ a.toNat ≤ 0xF4) (hb : IsTail b)
    (hshort : a.toNat = 0xF0 → 0x90 ≤ b.toNat) (hlast : a.toNat = 0xF4 → b.toNat ≤ 0x8F)
    (hc : IsTail c) (hd : IsTail d) :
    encodeChar (Char.ofNat (extend (extend (extend (a.toNat - 0xF0) b) c) d)) = [a, b, c, d] := by
  unfold IsTail extend at *
  rw [encodeChar_ofNat (by unfold Nat.isValidChar; omega), if_neg (by omega), if_neg (by omega),
    if_neg (by omega), ofNat_eq (show _ = a.toNat by omega), ofNat_eq (show _ = b.toNat by omega),
    ofNat_eq (show _ = c.toNat by omega), ofNat_eq (show _ = d.toNat by omega)]

/-- Only the first byte of a character is no tail. -/
theorem encodeChar_cons (c : Char) :
    ∃ a v, encodeChar c = a :: v ∧ ¬ IsTail a ∧ ∀ x ∈ v, IsTail x := by
  have hmax := toNat_lt c
  unfold encodeChar IsTail
  dsimp only
  split_ifs <;> refine ⟨_, _, rfl, ?_, ?_⟩ <;>
    simp only [List.forall_mem_cons, List.not_mem_nil, UInt8.toNat_ofNat', false_imp_iff,
      implies_true, and_true] <;>
    omega

end bytes

section start

theorem start_one {b : Nat} (h : b < 0x80) : start b = .char (Char.ofNat b) := if_pos h

theorem start_two {k : Nat} (h : 2 ≤ k) (h' : k < 32) :
    start (0xC0 + k) = .more (.inside 1 0x80 0xBF k) := by
  rw [start, if_neg (by omega), if_neg (by omega), if_pos (by omega), Nat.add_sub_cancel_left]

theorem start_three {k : Nat} (h : k < 16) : start (0xE0 + k) =
    .more (.inside 2 (if k = 0 then 0xA0 else 0x80) (if k = 13 then 0x9F else 0xBF) k) := by
  by_cases hshort : k = 0
  · subst hshort
    rfl
  by_cases hpair : k = 13
  · subst hpair
    rfl
  rw [start, if_neg (by omega), if_neg (by omega), if_neg (by omega), if_neg (by omega),
    if_neg (by omega), if_pos (by omega), if_neg hshort, if_neg hpair, Nat.add_sub_cancel_left]

theorem start_four {k : Nat} (h : k ≤ 4) : start (0xF0 + k) =
    .more (.inside 3 (if k = 0 then 0x90 else 0x80) (if k = 4 then 0x8F else 0xBF) k) := by
  by_cases hshort : k = 0
  · subst hshort
    rfl
  by_cases hlast : k = 4
  · subst hlast
    rfl
  rw [start, if_neg (by omega), if_neg (by omega), if_neg (by omega), if_neg (by omega),
    if_neg (by omega), if_neg (by omega), if_neg (by omega), if_pos (by omega), if_neg hshort,
    if_neg hlast, Nat.add_sub_cancel_left]

theorem start_refuse {b : Nat} (h : 0x80 ≤ b) (h' : b < 0xC2 ∨ 0xF5 ≤ b) : start b = .refuse := by
  rcases h' with h' | h'
  · rw [start, if_neg (by omega), if_pos h']
  · rw [start, if_neg (by omega), if_neg (by omega), if_neg (by omega), if_neg (by omega),
      if_neg (by omega), if_neg (by omega), if_neg (by omega), if_neg (by omega), if_neg (by omega)]

theorem step_char {left low high bits b : Nat} (hleft : left ≤ 1) (hb : low ≤ b ∧ b ≤ high) :
    step (.inside left low high bits) b = .char (Char.ofNat (bits * 64 + (b - 0x80))) := by
  rw [step, if_pos hb, if_pos hleft]

theorem step_more {left low high bits b : Nat} (hleft : 1 < left) (hb : low ≤ b ∧ b ≤ high) :
    step (.inside left low high bits) b =
      .more (.inside (left - 1) 0x80 0xBF (bits * 64 + (b - 0x80))) := by
  rw [step, if_pos hb, if_neg (Nat.not_le.2 hleft)]

theorem step_refuse {left low high bits b : Nat} (hb : ¬ (low ≤ b ∧ b ≤ high)) :
    step (.inside left low high bits) b = .refuse := if_neg hb

end start

section feed

/-- What the reader has come to, with one more byte. -/
def Step.after : Step → UInt8 → Step
  | .more p, b => step p b.toNat
  | .char _, _ | .refuse, _ => .refuse

/-- What the reader comes to that takes some bytes for one character. -/
def feed (u : Bytes) : Step := u.foldl Step.after (.more .none)

variable {u v : Bytes} {c : Char} {b : UInt8}

theorem feed_concat (u : Bytes) (b : UInt8) : feed (u ++ [b]) = (feed u).after b := by
  rw [feed, List.foldl_append]
  rfl

theorem feed_append_refuse (h : feed u = .refuse) (v : Bytes) : feed (u ++ v) = .refuse := by
  induction v using List.reverseRecOn with
  | nil => rwa [List.append_nil]
  | append_singleton v b ih => rw [← List.append_assoc, feed_concat, ih]; rfl

theorem toNat_byte {n : Nat} (h : n < 256) : (UInt8.ofNat n).toNat = n := by
  rw [UInt8.toNat_ofNat', Nat.mod_eq_of_lt h]

theorem feed_one (a : UInt8) : feed [a] = start a.toNat := rfl

theorem feed_encodeChar (c : Char) : feed (encodeChar c) = .char c := by
  have hmax := toNat_lt c
  have hchar {n : Nat} (h : n = c.toNat) : Step.char (Char.ofNat n) = .char c := by
    rw [h, Char.ofNat_toNat]
  have hpair : 0xD800 ≤ c.toNat → 0xDFFF < c.toNat := by
    rcases c.valid with h | h
    · exact fun h' => absurd h (Nat.not_lt.2 h')
    · exact fun _ => h.1
  unfold encodeChar
  dsimp only
  generalize c.toNat = n at *
  split_ifs with h₁ h₂ h₃
  · rw [feed_one, toNat_byte (by omega), start_one h₁, hchar rfl]
  · show ((start _).after _) = _
    rw [toNat_byte (by omega), start_two (by omega) (by omega), Step.after, toNat_byte (by omega),
      step_char (by omega) (by omega), hchar (by omega)]
  · show (((start _).after _).after _) = _
    rw [toNat_byte (by omega), start_three (by omega), Step.after, toNat_byte (by omega),
      step_more (by omega) (by split_ifs <;> omega), Step.after, toNat_byte (by omega),
      step_char (by omega) (by omega), hchar (by omega)]
  · show ((((start _).after _).after _).after _) = _
    rw [toNat_byte (by omega), start_four (by omega), Step.after, toNat_byte (by omega),
      step_more (by omega) (by split_ifs <;> omega), Step.after, toNat_byte (by omega),
      step_more (by omega) (by omega), Step.after, toNat_byte (by omega),
      step_char (by omega) (by omega), hchar (by omega)]

/-- Bytes that the reader has taken for the first part of a character, and what may follow: a byte
of its range and tails, which together with them are a character. -/
structure Opened (u : Bytes) (left low high bits : Nat) : Prop where
  left_pos : 0 < left
  le_low : 0x80 ≤ low
  low_le : low ≤ high
  high_le : high ≤ 0xBF
  completes : ∀ (b : UInt8) (v : Bytes), low ≤ b.toNat → b.toNat ≤ high → v.length + 1 = left →
    (∀ x ∈ v, IsTail x) →
    encodeChar (Char.ofNat (v.foldl extend (extend bits b))) = u ++ b :: v

/-- What the reader comes to says what it has read. -/
def Accounts (u : Bytes) : Step → Prop
  | .char c => encodeChar c = u
  | .more .none => u = []
  | .more (.inside left low high bits) => Opened u left low high bits
  | .refuse => True

theorem opened_two {a : UInt8} {k : Nat} (ha : a.toNat = 0xC0 + k) (h : 2 ≤ k) (h' : k < 32) :
    Opened [a] 1 0x80 0xBF k where
  left_pos := by omega
  le_low := by omega
  low_le := by omega
  high_le := by omega
  completes b v hlow hhigh hlength _ := by
    obtain rfl := List.eq_nil_of_length_eq_zero (Nat.succ.inj hlength)
    have hchar := encodeChar_two (a := a) (by omega) ⟨hlow, hhigh⟩
    rwa [ha, Nat.add_sub_cancel_left] at hchar

theorem opened_three {a : UInt8} {k : Nat} (ha : a.toNat = 0xE0 + k) (h : k < 16) :
    Opened [a] 2 (if k = 0 then 0xA0 else 0x80) (if k = 13 then 0x9F else 0xBF) k where
  left_pos := by omega
  le_low := by split_ifs <;> omega
  low_le := by split_ifs <;> omega
  high_le := by split_ifs <;> omega
  completes b v hlow hhigh hlength htails := by
    obtain ⟨c, rfl⟩ := List.length_eq_one_iff.1 (Nat.succ.inj hlength)
    have hchar := encodeChar_three (a := a) (b := b) (by omega)
      (by constructor <;> split_ifs at hlow hhigh <;> omega)
      (by split_ifs at hlow hhigh <;> omega) (by split_ifs at hlow hhigh <;> omega)
      (htails c List.mem_cons_self)
    rwa [ha, Nat.add_sub_cancel_left] at hchar

theorem opened_four {a : UInt8} {k : Nat} (ha : a.toNat = 0xF0 + k) (h : k ≤ 4) :
    Opened [a] 3 (if k = 0 then 0x90 else 0x80) (if k = 4 then 0x8F else 0xBF) k where
  left_pos := by omega
  le_low := by split_ifs <;> omega
  low_le := by split_ifs <;> omega
  high_le := by split_ifs <;> omega
  completes b v hlow hhigh hlength htails := by
    obtain ⟨c, d, rfl⟩ := List.length_eq_two.1 (Nat.succ.inj hlength)
    have hchar := encodeChar_four (a := a) (b := b) (by omega)
      (by constructor <;> split_ifs at hlow hhigh <;> omega)
      (by split_ifs at hlow hhigh <;> omega) (by split_ifs at hlow hhigh <;> omega)
      (htails c List.mem_cons_self) (htails d (by simp))
    rwa [ha, Nat.add_sub_cancel_left] at hchar

theorem accounts_start (a : UInt8) : Accounts [a] (start a.toNat) := by
  by_cases hone : a.toNat < 0x80
  · rw [start_one hone]
    exact encodeChar_one hone
  by_cases hnone : a.toNat < 0xC2 ∨ 0xF5 ≤ a.toNat
  · rw [start_refuse (by omega) hnone]
    trivial
  by_cases htwo : a.toNat < 0xE0
  · obtain ⟨k, hk⟩ := Nat.exists_eq_add_of_le (show 0xC0 ≤ a.toNat by omega)
    rw [hk, start_two (by omega) (by omega)]
    exact opened_two hk (by omega) (by omega)
  by_cases hthree : a.toNat < 0xF0
  · obtain ⟨k, hk⟩ := Nat.exists_eq_add_of_le (show 0xE0 ≤ a.toNat by omega)
    rw [hk, start_three (by omega)]
    exact opened_three hk (by omega)
  · obtain ⟨k, hk⟩ := Nat.exists_eq_add_of_le (show 0xF0 ≤ a.toNat by omega)
    rw [hk, start_four (by omega)]
    exact opened_four hk (by omega)

theorem accounts_after {r : Step} (h : Accounts u r) (b : UInt8) :
    Accounts (u ++ [b]) (r.after b) := by
  cases r with
  | char c => trivial
  | refuse => trivial
  | more p =>
    cases p with
    | none =>
      obtain rfl : u = [] := h
      exact accounts_start b
    | inside left low high bits =>
      have hopened : Opened u left low high bits := h
      rw [Step.after]
      -- A byte in range is the last one that is owed, or takes its place among those read.
      by_cases hb : low ≤ b.toNat ∧ b.toNat ≤ high
      · by_cases hleft : left ≤ 1
        · rw [step_char hleft hb]
          exact hopened.completes b [] hb.1 hb.2 (by have := hopened.left_pos; simp; omega) nofun
        · have hbits : bits * 64 + (b.toNat - 0x80) = extend bits b := rfl
          rw [step_more (Nat.not_le.1 hleft) hb, hbits]
          refine ⟨by omega, by omega, by omega, by omega, ?_⟩
          intro x v hlow hhigh hlength htails
          have hall := hopened.completes b (x :: v) hb.1 hb.2 (by rw [List.length_cons]; omega)
            (List.forall_mem_cons.2 ⟨⟨hlow, hhigh⟩, htails⟩)
          rw [List.foldl_cons] at hall
          rwa [List.append_assoc, List.singleton_append]
      · rw [step_refuse hb]
        trivial

theorem accounts_feed (u : Bytes) : Accounts u (feed u) := by
  induction u using List.reverseRecOn with
  | nil => rfl
  | append_singleton u b ih =>
    rw [feed_concat]
    exact accounts_after ih b

theorem feed_eq_char_iff : feed u = .char c ↔ encodeChar c = u := by
  constructor
  · intro h
    have haccounts := accounts_feed u
    rwa [h] at haccounts
  · rintro rfl
    exact feed_encodeChar c

/-- Some character's encoding begins with these bytes. -/
def Begins (u : Bytes) : Prop := ∃ c, u <+: encodeChar c

theorem Opened.begins {left low high bits : Nat} (h : Opened u left low high bits) : Begins u := by
  obtain ⟨hpos, hle, hrange, hmax, hall⟩ := h
  have hlow : (UInt8.ofNat low).toNat = low := toNat_byte (by omega)
  refine ⟨_, _, (hall (UInt8.ofNat low) (List.replicate (left - 1) 0x80) ?_ ?_ ?_ ?_).symm⟩
  · exact Nat.le_of_eq hlow.symm
  · rwa [hlow]
  · rw [List.length_replicate]
    omega
  · intro x hx
    rw [List.eq_of_mem_replicate hx]
    exact ⟨by decide, by decide⟩

theorem begins_iff : Begins u ↔ feed u ≠ .refuse := by
  constructor
  · rintro ⟨c, v, hv⟩ hrefuse
    have hchar := feed_encodeChar c
    rw [← hv, feed_append_refuse hrefuse v] at hchar
    cases hchar
  · intro hfeed
    have haccounts := accounts_feed u
    cases h : feed u with
    | refuse => exact absurd h hfeed
    | char c =>
      rw [h] at haccounts
      exact ⟨c, haccounts ▸ List.prefix_rfl⟩
    | more p =>
      rw [h] at haccounts
      cases p with
      | none =>
        obtain rfl : u = [] := haccounts
        exact ⟨'a', List.nil_prefix⟩
      | inside left low high bits => exact Opened.begins haccounts

theorem not_begins_iff : ¬ Begins u ↔ feed u = .refuse := by
  rw [begins_iff, not_not]

end feed

end ScriptLauncher.Utf8
