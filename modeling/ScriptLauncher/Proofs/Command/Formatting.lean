import ScriptLauncher.Proofs.Command.Reports
import ScriptLauncher.Proofs.Template

/-! Command lines that are filled in for a shell. A line that cannot be filled in fails before
anything is done, and a session goes on behind it as if it had not been asked for. -/

namespace ScriptLauncher.Command

open Host Session Template

variable {r : Runner} {q : Request} {command : Value} {args : List Value} {e : FormatError}

theorem Shell.withLine_of_error {α : Type} (h : render command args = .error e)
    (next : String → Session Fault α) (w : World) :
    withLine command args next w = (.error (.template e), w) := by
  rw [withLine, h]
  rfl

theorem Shell.run_of_error (sh : Shell) (h : render command args = .error e) (w : World) :
    sh.run command args w = (.error (.template e), w) :=
  withLine_of_error h _ w

theorem Shell.runWithOutput_of_error (sh : Shell) (h : render command args = .error e) (w : World) :
    sh.runWithOutput command args w = (.error (.template e), w) :=
  withLine_of_error h _ w

theorem Shell.eval_of_error (sh : Shell) (h : render command args = .error e) (w : World) :
    sh.eval command args w = (.error (.template e), w) := by
  rw [eval, bind_of_error (sh.runWithOutput_of_error h w)]

namespace Request

theorem perform_of_error (r : Runner) (h : q.command = .error e) (w : World) :
    q.perform r w = (.error (.template e), w) := by
  have hrender {line : Value} {args : List Value} {shell : String}
      (h : (fun line => [shell, "-c", line]) <$> render line args = .error e) :
      render line args = .error e := by
    cases hline : render line args with
    | error e' =>
      rw [hline] at h
      cases h
      rfl
    | ok text =>
      rw [hline] at h
      cases h
  cases q with
  | exec | execWithOutput | execWithBoth | eval => cases h
  | shellRun shell line args =>
    rw [perform, map_eq_pure_bind, bind_of_error (Shell.run_of_error _ (hrender h) w)]
  | shellRunWithOutput shell line args =>
    rw [perform, map_eq_pure_bind, bind_of_error (Shell.runWithOutput_of_error _ (hrender h) w)]
  | shellEval shell line args =>
    rw [perform, map_eq_pure_bind, bind_of_error (Shell.eval_of_error _ (hrender h) w)]

/-- A session in two parts: the second goes on where the first has ended. -/
theorem performAll_append (r : Runner) (qs qs' : List Request) (w : World) :
    performAll r (qs ++ qs') w =
      ((performAll r qs w).1 ++ (performAll r qs' (performAll r qs w).2).1,
        (performAll r qs' (performAll r qs w).2).2) := by
  induction qs generalizing w with
  | nil => rfl
  | cons q qs ih =>
    rw [List.cons_append, performAll, performAll]
    cases q.perform r w with
    | mk reply v => simp only [ih, List.cons_append]

theorem performAll_cons_of_error (r : Runner) (h : q.command = .error e) (qs : List Request)
    (w : World) : performAll r (q :: qs) w =
      (.error (.template e) :: (performAll r qs w).1, (performAll r qs w).2) := by
  rw [performAll, perform_of_error r h]

end Request

/-- Slots are filled with the displays of as many values, of whatever kind, and a line without
values is left as it is. Too few values or too many are an error, and a line that fails, by that or
otherwise, fails before anything is started or said: the world is the one before, and the other
requests of a session have the replies and the end that they have without it. -/
theorem shell_format :
    (∀ (first : String) (rest : List String) (args : List Value), args ≠ [] →
      render (.text (slotted first rest)) args =
        if args.length < rest.length then .error .missingArgument
        else if rest.length < args.length then .error .unusedArgument
        else .ok (interleaved first rest args)) ∧
    (FormatError.kind .missingArgument = .type ∧ FormatError.kind .unusedArgument = .type ∧
      FormatError.message .missingArgument = "not enough arguments for format string" ∧
      FormatError.message .unusedArgument =
        "not all arguments converted during string formatting") ∧
    (∀ v, render v [] = .ok v.display) ∧
    (∀ (sh : Shell) (command : Value) (args : List Value) (e : FormatError) (w : World),
      render command args = .error e →
      sh.run command args w = (.error (.template e), w) ∧
      sh.runWithOutput command args w = (.error (.template e), w) ∧
      sh.eval command args w = (.error (.template e), w)) ∧
    ∀ (r : Runner) (q : Request) (e : FormatError) (qs qs' : List Request) (w : World),
      q.command = .error e →
      let before := Request.performAll r qs w
      let after := Request.performAll r qs' before.2
      Request.performAll r (qs ++ qs') w = (before.1 ++ after.1, after.2) ∧
      Request.performAll r (qs ++ q :: qs') w =
        (before.1 ++ .error (.template e) :: after.1, after.2) := by
  refine ⟨?_, ⟨rfl, rfl, rfl, rfl⟩, fun v => rfl, ?_, ?_⟩
  · intro first rest args hargs
    rw [render_of_ne_nil hargs, Value.display, format_slotted]
  · intro sh command args e w h
    exact ⟨sh.run_of_error h w, sh.runWithOutput_of_error h w, sh.eval_of_error h w⟩
  · intro r q e qs qs' w h before after
    refine ⟨Request.performAll_append r qs qs' w, ?_⟩
    rw [Request.performAll_append, Request.performAll_cons_of_error r h]

/-- A list takes a slot like any other value, a percent sign stands beside it, and a slot more is
too many. -/
theorem shell_format_list :
    render (.text "100%%: %s%%!") [.list [.int 1, .text "%"]] = .ok "100%: [1, '%']%!" ∧
      Shell.eval ⟨⟨true, .reports⟩, "bash"⟩ (.text "%s%s") [.none]
          (World.initial [] (.ofText "/tmp") .warning) =
        (.error (.template .missingArgument), World.initial [] (.ofText "/tmp") .warning) := by
  obtain ⟨hslots, -, -, hrefused, -⟩ := shell_format
  refine ⟨(hslots "100%: " ["%!"] [.list [.int 1, .text "%"]] (by simp)).trans ?_, ?_⟩
  · decide
  · exact (hrefused _ _ _ _ _ (hslots "" ["", ""] [.none] (by simp))).2.2

end ScriptLauncher.Command
