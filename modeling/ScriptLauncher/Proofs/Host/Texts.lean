import ScriptLauncher.Proofs.Host.Session

/-! What steps write. A session writes only texts of a kind if each of its steps does. -/

namespace ScriptLauncher.Host.Session

variable {ε δ α β : Type} {kind : String → Prop}

/-- A step that only adds texts of some kind to those that were written. -/
def Says (kind : String → Prop) (x : Session ε α) : Prop :=
  ∀ w, ∃ said, (x w).2.texts = w.texts ++ said ∧ ∀ e ∈ said, kind e.2

theorem says_of_silent {x : Session ε α} (h : ∀ w, (x w).2.texts = w.texts) : Says kind x :=
  fun w => ⟨[], (h w).trans (List.append_nil _).symm, nofun⟩

theorem says_of_noted {x : Session ε α} (h : ∀ w, (x w).2.Noted w) : Says kind x := by
  refine says_of_silent fun w => ?_
  obtain ⟨records, hw⟩ := h w
  rw [hw]

theorem says_pure (a : α) : Says kind (pure a : Session ε α) := says_of_silent fun _ => rfl

theorem says_throw (e : ε) : Says kind (throw e : Session ε α) := says_of_silent fun _ => rfl

theorem says_note {level : Level} {component : Component} {message : String}
    {details : List (String × String)} :
    Says kind (liftM (note level component message details) : Session ε Unit) :=
  says_of_noted fun w => note_noted level component message details w

theorem says_say {c : Channel} {s : String} (h : kind s) :
    Says kind (liftM (say c s) : Session ε Unit) := by
  refine fun w => ⟨[(c, s)], rfl, fun e he => ?_⟩
  rw [List.mem_singleton.1 he]
  exact h

theorem says_start (s : Start) : Says kind (start s) := by
  refine says_of_silent fun w => ?_
  obtain ⟨tree, children, hw, -⟩ := start_eq s w
  rw [hw]

theorem Says.bind {x : Session ε α} {f : α → Session ε β} (hx : Says kind x)
    (hf : ∀ a, Says kind (f a)) : Says kind (x >>= f) := by
  intro w
  obtain ⟨said, htexts, hsaid⟩ := hx w
  rw [bind_apply]
  cases h : x w with
  | mk result v =>
    rw [h] at htexts
    cases result with
    | error e => exact ⟨said, htexts, hsaid⟩
    | ok a =>
      obtain ⟨said', htexts', hsaid'⟩ := hf a v
      refine ⟨said ++ said', ?_, fun e he => ?_⟩
      · rw [htexts', htexts, List.append_assoc]
      · exact (List.mem_append.1 he).elim (hsaid e) (hsaid' e)

theorem Says.attempt {x : Session ε α} (h : Says kind x) :
    Says kind (Session.attempt x : Session δ (Except ε α)) := h

theorem Says.mapError {x : Session ε α} (f : ε → δ) (h : Says kind x) :
    Says kind (Session.mapError f x) := h

theorem Says.ensuring {x : Session ε α} {last : Session ε Unit} (hx : Says kind x)
    (hlast : Says kind last) : Says kind (Session.ensuring x last) := by
  intro w
  obtain ⟨said, htexts, hsaid⟩ := hx w
  obtain ⟨said', htexts', hsaid'⟩ := hlast (x w).2
  refine ⟨said ++ said', ?_, fun e he => ?_⟩
  · rw [ensuring_snd, htexts', htexts, List.append_assoc]
  · exact (List.mem_append.1 he).elim (hsaid e) (hsaid' e)

end ScriptLauncher.Host.Session
