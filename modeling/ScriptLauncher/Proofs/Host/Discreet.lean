import ScriptLauncher.Proofs.Host.Session

/-! Steps that look neither at what was recorded and written before, nor at the faults that wait
for removals: in worlds that differ in these only, they do and say the same. -/

namespace ScriptLauncher.Host

namespace World

variable {w : World}

/-- The world with other faults of removals, records and texts. -/
def veil (w : World) (unlink : List (String × Fault)) (records : List Record)
    (texts : List (Channel × String)) : World :=
  { w with faults := { w.faults with unlink }, records, texts }

@[simp] theorem veil_self (w : World) : w.veil w.faults.unlink w.records w.texts = w := rfl

section

variable (unlink : List (String × Fault)) (records : List Record) (texts : List (Channel × String))

theorem leave_veil (path : String) (product : Product) :
    (w.veil unlink records texts).leave path product =
      (w.leave path product).veil unlink records texts := by
  unfold leave
  cases product with
  | file =>
    simp only [show (w.veil unlink records texts).find = w.find from rfl]
    split <;> rfl
  | directory =>
    simp only [show (w.veil unlink records texts).find = w.find from rfl]
    split <;> rfl

theorem drop_veil (w : World) (path : String) :
    (w.veil unlink records texts).drop path = (w.drop path).veil unlink records texts := by
  unfold drop
  simp only [show (w.veil unlink records texts).find = w.find from rfl]
  split <;> rfl

theorem foldl_drop_veil (w : World) (paths : List String) :
    paths.foldl drop (w.veil unlink records texts) =
      (paths.foldl drop w).veil unlink records texts := by
  induction paths generalizing w with
  | nil => rfl
  | cons path paths ih => rw [List.foldl_cons, drop_veil, ih, List.foldl_cons]

theorem run_veil (w : World) (c : Child) (command : List String) :
    (w.veil unlink records texts).run c command =
      (w.run c command).veil unlink records texts := by
  unfold run
  cases c.product with
  | none => exact foldl_drop_veil unlink records texts w _
  | some product =>
    cases command[3]? with
    | none => exact foldl_drop_veil unlink records texts w _
    | some path =>
      dsimp only
      rw [leave_veil, foldl_drop_veil]

end

end World

namespace Session

variable {ε δ α β : Type} {v w : World}

/-- A step that ends the same, changes the same and says the same, whatever faults wait for
removals and whatever was recorded and written before. -/
def Discreet (x : Session ε α) : Prop :=
  ∀ w, ∃ said, ∀ unlink records texts, ∃ records',
    x (w.veil unlink records texts) =
      ((x w).1, (x w).2.veil unlink records' (texts ++ said))

theorem Discreet.texts {x : Session ε α} (h : Discreet x) (w : World) :
    ∃ said, (x w).2.texts = w.texts ++ said ∧ (x w).2.faults.unlink = w.faults.unlink := by
  obtain ⟨said, h⟩ := h w
  obtain ⟨records, h⟩ := h w.faults.unlink w.records w.texts
  have hworld := congrArg Prod.snd h
  rw [World.veil_self] at hworld
  rw [hworld]
  exact ⟨said, rfl, rfl⟩

/-- A step that writes nothing. -/
theorem discreet_of_silent {x : Session ε α}
    (h : ∀ w unlink records texts, ∃ records',
      x (w.veil unlink records texts) = ((x w).1, (x w).2.veil unlink records' texts)) :
    Discreet x := by
  refine fun w => ⟨[], fun unlink records texts => ?_⟩
  rw [List.append_nil]
  exact h w unlink records texts

theorem discreet_pure (a : α) : Discreet (pure a : Session ε α) :=
  discreet_of_silent fun _ _ records _ => ⟨records, rfl⟩

theorem discreet_throw (e : ε) : Discreet (throw e : Session ε α) :=
  discreet_of_silent fun _ _ records _ => ⟨records, rfl⟩

theorem discreet_ask {question : World → Except Fault α}
    (h : ∀ w unlink records texts, question (w.veil unlink records texts) = question w) :
    Discreet (ask question) :=
  discreet_of_silent fun w unlink records texts =>
    ⟨records, congrArg (·, w.veil unlink records texts) (h w unlink records texts)⟩

theorem discreet_note {level : Level} {component : Component} {message : String}
    {details : List (String × String)} :
    Discreet (liftM (note level component message details) : Session ε Unit) := by
  refine discreet_of_silent fun w unlink records texts => ?_
  simp only [lift_apply]
  show ∃ records', (Except.ok (), if level.passes w.threshold then _ else _) =
    (_, (if level.passes w.threshold then _ else _ : World).veil _ _ _)
  split <;> exact ⟨_, rfl⟩

theorem discreet_say {c : Channel} {s : String} :
    Discreet (liftM (say c s) : Session ε Unit) :=
  fun _ => ⟨[(c, s)], fun _ records _ => ⟨records, rfl⟩⟩

theorem discreet_drawToken : Discreet (liftM drawToken : Session ε String) := by
  refine discreet_of_silent fun w unlink records texts => ⟨records, ?_⟩
  simp only [lift_apply, drawToken, show (w.veil unlink records texts).tokens = w.tokens from rfl]
  split <;> rfl

theorem Discreet.bind {x : Session ε α} {f : α → Session ε β} (hx : Discreet x)
    (hf : ∀ a, Discreet (f a)) : Discreet (x >>= f) := by
  intro w
  obtain ⟨said, hx⟩ := hx w
  rw [bind_apply]
  cases h : x w with
  | mk result v =>
    rw [h] at hx
    cases result with
    | error e =>
      refine ⟨said, fun unlink records texts => ?_⟩
      obtain ⟨records', hx⟩ := hx unlink records texts
      exact ⟨records', bind_of_error hx⟩
    | ok a =>
      obtain ⟨said', hf⟩ := hf a v
      refine ⟨said ++ said', fun unlink records texts => ?_⟩
      obtain ⟨records', hx⟩ := hx unlink records texts
      obtain ⟨records'', hf⟩ := hf unlink records' (texts ++ said)
      exact ⟨records'', by rw [bind_of_ok hx, hf, List.append_assoc]⟩

theorem Discreet.attempt {x : Session ε α} (h : Discreet x) :
    Discreet (Session.attempt x : Session δ (Except ε α)) := by
  intro w
  obtain ⟨said, h⟩ := h w
  refine ⟨said, fun unlink records texts => ?_⟩
  obtain ⟨records', h⟩ := h unlink records texts
  exact ⟨records', by rw [attempt_apply, attempt_apply, h]⟩

theorem Discreet.mapError {x : Session ε α} (f : ε → δ) (h : Discreet x) :
    Discreet (Session.mapError f x) := by
  intro w
  obtain ⟨said, h⟩ := h w
  refine ⟨said, fun unlink records texts => ?_⟩
  obtain ⟨records', h⟩ := h unlink records texts
  exact ⟨records', by rw [mapError_apply, mapError_apply, h]⟩

/-- A step that looks at the world through something that shows none of this. -/
theorem discreet_get_bind {f : World → Session ε α} (hf : ∀ w, Discreet (f w))
    (h : ∀ w unlink records texts, f (w.veil unlink records texts) = f w) :
    Discreet (get >>= f) := by
  intro w
  obtain ⟨said, hf⟩ := hf w w
  refine ⟨said, fun unlink records texts => ?_⟩
  rw [bind_apply, bind_apply, get_apply, get_apply]
  dsimp only
  rw [h]
  exact hf unlink records texts

theorem discreet_modify_withTree (f : FileTree → FileTree) :
    Discreet (modify fun w => w.withTree (f w.tree) : Session ε Unit) :=
  discreet_of_silent fun _ _ records _ => ⟨records, rfl⟩

theorem discreet_create (p : Path) : Discreet (create p) :=
  (discreet_ask fun _ _ _ _ => rfl).bind fun l =>
    (discreet_modify_withTree fun t => t.put l (.file [])).bind fun _ => discreet_pure l

theorem discreet_fill (p : Path) (l : Location) (content : Bytes) : Discreet (fill p l content) :=
  (discreet_ask fun _ _ _ _ => rfl).bind fun _ =>
    discreet_modify_withTree fun t => t.put l (.file content)

theorem discreet_start (s : Start) : Discreet (start s) := by
  refine discreet_of_silent fun w unlink records texts => ⟨records, ?_⟩
  unfold start
  dsimp only
  split
  · rfl
  · let v := { w with starts := w.starts ++ [s], children := w.children.tail }
    have hrun := World.run_veil unlink records texts v (w.children.headD .idle) s.command
    rw [show (w.veil unlink records texts).children = w.children from rfl]
    split
    · rfl
    · exact congrArg (Prod.mk _) hrun

theorem discreet_write (s : String) (sink : Sink) : Discreet (sink.write s) := by
  cases sink with
  | channel c => exact discreet_say
  | failing f => exact discreet_throw f

end Session

end ScriptLauncher.Host
