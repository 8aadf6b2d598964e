import ScriptLauncher.Proofs.Host.FileTree

/-! Walks put together. Where a walk does not run out of links it ends the same way with more of
them, so that a path to a link ends as the names do along which the link leads. -/

namespace ScriptLauncher.Host.FileTree

variable {t : FileTree} {follow : Bool} {j k k' : Nat} {here m l : Location}
  {name target : String} {init rest names : List String} {p : Place} {n : Node} {c : Cause}
  {r : Except Cause Place}

theorem Leads.mono (h : Leads t follow k here names p) (hk : k ≤ k') :
    Leads t follow k' here names p := by
  induction h generalizing k' with
  | stop hn => exact .stop hn
  | stay hdot hdir _ ih => exact .stay hdot hdir (ih hk)
  | up hup hdir _ ih => exact .up hup hdir (ih hk)
  | vacant hin hn => exact .vacant hin hn
  | leaf hin hn hleaf => exact .leaf hin hn hleaf
  | link hin hn hfollow => exact .link hin hn hfollow
  | jump hin hn hgo _ ih =>
    cases k' with
    | zero => exact absurd hk (Nat.not_succ_le_zero _)
    | succ k' => exact .jump hin hn hgo (ih (Nat.le_of_succ_le_succ hk))
  | into hin hn _ ih => exact .into hin hn (ih hk)

theorem Strays.mono (h : Strays t follow k here names c) (hc : c ≠ .tooManyLinks) (hk : k ≤ k') :
    Strays t follow k' here names c := by
  induction h generalizing k' with
  | nowhere hn => exact .nowhere hn
  | blocked h => exact .blocked h
  | tooLong h hdot hup hlong => exact .tooLong h hdot hup hlong
  | absent hin hn hrest => exact .absent hin hn hrest
  | exhausted => exact absurd rfl hc
  | stay hdot h _ ih => exact .stay hdot h (ih hc hk)
  | up hup h _ ih => exact .up hup h (ih hc hk)
  | jump hin hn hgo _ ih =>
    cases k' with
    | zero => exact absurd hk (Nat.not_succ_le_zero _)
    | succ k' => exact .jump hin hn hgo (ih hc (Nat.le_of_succ_le_succ hk))
  | into hin hn hlink _ ih => exact .into hin hn hlink (ih hc hk)

/-- With more links a walk ends where it did, unless it had run out of them. -/
theorem walk_mono (h : t.walk follow k here names = r) (hr : r ≠ .error .tooManyLinks)
    (hk : k ≤ k') : t.walk follow k' here names = r := by
  cases r with
  | ok p => exact ((walk_eq_ok_iff.1 h).mono hk).walk
  | error c => exact ((walk_eq_error_iff.1 h).mono (fun hc => hr (congrArg _ hc)) hk).walk

/-- With any number of links a walk ends where it does with some other number, or runs out. -/
theorem walk_cut (h : t.walk follow k' here names = r) (hr : r ≠ .error .tooManyLinks) (k : Nat) :
    t.walk follow k here names = r ∨
      k < k' ∧ t.walk follow k here names = .error .tooManyLinks := by
  rcases Nat.lt_or_ge k k' with hlt | hge
  · by_cases hend : t.walk follow k here names = .error .tooManyLinks
    · exact .inr ⟨hlt, hend⟩
    · exact .inl ((walk_mono rfl hend (Nat.le_of_lt hlt)).symm.trans h)
  · exact .inl (walk_mono h hr hge)

/-- Behind the names that lead to a location, further names lead on from there. -/
theorem Leads.walk_append (h : Leads t true j here init (.taken m n))
    (h' : t.walk true k m rest = r) (hr : r ≠ .error .tooManyLinks) :
    t.walk true (j + k) here (init ++ rest) = r := by
  generalize hp : Place.taken m n = p at h
  induction h with
  | stop hn =>
    cases hp
    exact walk_mono h' hr (Nat.le_add_left ..)
  | stay hdot hdir _ ih => exact (walk_stay hdot hdir).trans (ih hp)
  | up hup hdir _ ih => exact (walk_up hup hdir).trans (ih hp)
  | vacant => cases hp
  | leaf hin hn hleaf =>
    cases hp
    exact (walk_into hin hn (not_link_of_leaf hleaf)).trans (walk_mono h' hr (Nat.le_add_left ..))
  | link _ _ hfollow => cases hfollow
  | jump hin hn _ _ ih =>
    rw [List.append_assoc] at ih
    rw [Nat.add_right_comm]
    exact (walk_jump hin hn fun _ => rfl).trans (ih hp)
  | into hin hn _ ih => exact (walk_into hin hn nofun).trans (ih hp)

/-- Nothing is found below what is no directory. -/
theorem Leads.walk_below (h : Leads t true j here init (.taken m n)) (hn : n ≠ .directory)
    (hrest : rest ≠ []) : t.walk true j here (init ++ rest) = .error .notDirectory := by
  cases rest with
  | nil => exact absurd rfl hrest
  | cons name rest =>
    have hdir : t.node? m ≠ some .directory := by
      rw [show t.node? m = some n from h.node?_location]
      exact fun hdir => hn (Option.some.inj hdir)
    exact h.walk_append (k := 0) (walk_blocked hdir) nofun

/-- A path to a link in a directory ends as the names do that the link leads along. -/
theorem Leads.walk_link (h : Leads t true j here init (.taken m .directory))
    (hin : Enters t m name) (hn : t.node? (m ++ [name]) = some (.link target))
    (h' : t.walk true k (if isRooted target then [] else m) (linkNames target) = r)
    (hr : r ≠ .error .tooManyLinks) : t.walk true (j + k + 1) here (init ++ [name]) = r := by
  refine h.walk_append (k := k + 1) ((walk_jump hin hn fun _ => rfl).trans ?_) hr
  rw [List.append_nil]
  exact h'

end ScriptLauncher.Host.FileTree
