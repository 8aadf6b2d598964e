import ScriptLauncher.Text.Quoted
import ScriptLauncher.Text.Utf8

/-! Words that are no texts. A word of the system is bytes, and of these some may belong to no
character. A text holds each of them by a character that stands for it, and then has no encoding. -/

namespace ScriptLauncher.Text

/-- The characters that stand for bytes, which may be any beyond ASCII. -/
structure Escapes where
  byte? : Char → Option UInt8
  beyond : ∀ c b, byte? c = some b → 0x80 ≤ c.toNat ∧ 0x80 ≤ b.toNat

/-- Bytes where an encoding has none: the first, its place in the text, and how many there are in
a row. -/
structure EncodeError where
  byte : UInt8
  place : Nat
  count : Nat
  deriving DecidableEq, Repr

def EncodeError.message (e : EncodeError) : String :=
  let what :=
    if e.count = 1 then
      "character '\\udc" ++ String.ofList (hex 2 e.byte.toNat) ++ "' in position " ++ toString e.place
    else
      "characters in position " ++ toString e.place ++ "-" ++ toString (e.place + e.count - 1)
  "'utf-8' codec can't encode " ++ what ++ ": surrogates not allowed"

namespace Escapes

/-- All texts are what they say. -/
def empty : Escapes where
  byte? _ := .none
  beyond := nofun

/-- The last characters of all stand for the bytes from 128 on, in order. -/
def last : Escapes where
  byte? c := if 0x10FF80 ≤ c.toNat then some (UInt8.ofNat c.toNat) else .none
  beyond c b h := by
    split at h
    · next hc =>
      cases h
      have hvalid : c.toNat < 0xD800 ∨ 0xDFFF < c.toNat ∧ c.toNat < 0x110000 := c.valid
      simp only [UInt8.toNat_ofNat']
      omega
    · cases h

variable (e : Escapes) {s t : String} {b : Bytes}

/-- A text that holds no byte. -/
def Clean (s : String) : Prop := ∀ c ∈ s.toList, e.byte? c = .none

instance (s : String) : Decidable (e.Clean s) := List.decidableBAll _ s.toList

/-- The first bytes in a row among some characters, the first of which has the given place. -/
def firstBytes? (place : Nat) : List Char → Option EncodeError
  | [] => .none
  | c :: s => match e.byte? c with
    | some b => some ⟨b, place, (s.takeWhile fun c => (e.byte? c).isSome).length + 1⟩
    | .none => firstBytes? (place + 1) s

/-- The encoding of a text, or the first bytes that it holds. -/
def encode (s : String) : Except EncodeError Bytes :=
  match e.firstBytes? 0 s.toList with
  | .none => .ok (Utf8.encode s)
  | some f => .error f

variable {e}

theorem clean_empty (s : String) : empty.Clean s := fun _ _ => rfl

/-- ASCII is never in the way. -/
theorem clean_of_ascii (h : s.toList.all (·.toNat < 0x80)) : e.Clean s := by
  intro c hc
  cases hbyte : e.byte? c with
  | none => rfl
  | some b =>
    have hascii : c.toNat < 0x80 := by simpa using List.all_eq_true.1 h c hc
    have hbeyond := (e.beyond c b hbyte).1
    omega

theorem clean_append : e.Clean (s ++ t) ↔ e.Clean s ∧ e.Clean t := by
  simp only [Clean, String.toList_append, List.mem_append]
  exact ⟨fun h => ⟨fun c hc => h c (.inl hc), fun c hc => h c (.inr hc)⟩,
    fun h c hc => hc.elim (h.1 c) (h.2 c)⟩

theorem firstBytes?_eq_none_iff (place : Nat) {s : List Char} :
    e.firstBytes? place s = .none ↔ ∀ c ∈ s, e.byte? c = .none := by
  induction s generalizing place with
  | nil => simp [firstBytes?]
  | cons c s ih => cases hbyte : e.byte? c <;> simp [firstBytes?, hbyte, ih]

theorem encode_eq_ok_iff : e.encode s = .ok b ↔ e.Clean s ∧ b = Utf8.encode s := by
  rw [Clean, ← firstBytes?_eq_none_iff 0, encode]
  cases e.firstBytes? 0 s.toList <;> simp [eq_comm]

theorem encode_of_clean (h : e.Clean s) : e.encode s = .ok (Utf8.encode s) :=
  encode_eq_ok_iff.2 ⟨h, rfl⟩

theorem exists_encode_eq_error (h : ¬ e.Clean s) : ∃ f, e.encode s = .error f := by
  cases hencode : e.encode s with
  | error f => exact ⟨f, rfl⟩
  | ok b => exact absurd (encode_eq_ok_iff.1 hencode).1 h

end Escapes

end ScriptLauncher.Text
