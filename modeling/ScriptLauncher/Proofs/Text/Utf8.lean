import ScriptLauncher.Text.Utf8
import Mathlib.Tactic.SplitIfs

/-! Bytes of encoded text: a byte below 128 stands for the character of its number, and for
no part of another character. -/

namespace ScriptLauncher.Utf8

theorem toNat_lt (c : Char) : c.toNat < 0x110000 := by
  have h := c.valid
  simp only [UInt32.isValidChar, Nat.isValidChar] at h
  change c.val.toNat < 0x110000
  omega

theorem le_toNat_of_mem_encodeChar {c : Char} (h : 0x80 ≤ c.toNat) :
    ∀ b ∈ encodeChar c, 0x80 ≤ b.toNat := by
  have hmax := toNat_lt c
  unfold encodeChar
  dsimp only
  split_ifs <;>
    simp only [List.forall_mem_cons, List.not_mem_nil, UInt8.toNat_ofNat', false_imp_iff,
      implies_true, and_true] <;>
    omega

theorem toNat_eq_of_mem_encodeChar {c : Char} {b : UInt8} (h : b ∈ encodeChar c)
    (hb : b.toNat < 0x80) : c.toNat = b.toNat := by
  have hc : c.toNat < 0x80 := Nat.lt_of_not_le fun hc =>
    Nat.not_le_of_lt hb (le_toNat_of_mem_encodeChar hc b h)
  rw [encodeChar_ascii hc, List.mem_singleton] at h
  rw [h, UInt8.toNat_ofNat', Nat.mod_eq_of_lt (by omega)]

theorem newline_mem_encode {s : String} : Bytes.newline ∈ encode s ↔ '\n' ∈ s.toList := by
  simp only [encode, encodeChars, List.mem_flatMap]
  constructor
  · rintro ⟨c, hc, hb⟩
    have hn : c.toNat = '\n'.toNat := toNat_eq_of_mem_encodeChar hb (by decide)
    rwa [← Char.toNat_inj.1 hn]
  · intro h
    exact ⟨'\n', h, by decide⟩

end ScriptLauncher.Utf8
