import ScriptLauncher.Host.FileTree

/-! Walks through a file tree as derivations, of the place to which names lead or of the cause for
which they lead to none. A walk that leads somewhere passes through directories and links only,
so a change of the tree that keeps those keeps the walk. -/

namespace ScriptLauncher.Host

def Node.isPassage : Node → Bool
  | .directory | .link _ => true
  | .file _ | .stream _ => false

namespace FileTree

def Place.location : Place → Location
  | .taken l _ | .free l => l

def Place.node? : Place → Option Node
  | .taken _ n => some n
  | .free _ => none

structure Enters (t : FileTree) (here : Location) (name : String) : Prop where
  directory : t.node? here = some .directory
  not_here : name ≠ "."
  not_up : name ≠ ".."
  short : ¬ longestName < (Utf8.encode name).length

/-- The names lead from a location to a place, through at most `k` links. -/
inductive Leads (t : FileTree) (follow : Bool) : Nat → Location → List String → Place → Prop
  | stop : t.node? here = some n → Leads t follow k here [] (.taken here n)
  | stay : name = "." → t.node? here = some .directory → Leads t follow k here rest p →
      Leads t follow k here (name :: rest) p
  | up : name = ".." → t.node? here = some .directory → Leads t follow k here.dropLast rest p →
      Leads t follow k here (name :: rest) p
  | vacant : Enters t here name → t.node? (here ++ [name]) = none →
      Leads t follow k here [name] (.free (here ++ [name]))
  | leaf : Enters t here name → t.node? (here ++ [name]) = some n → n.isPassage = false →
      Leads t follow k here [name] (.taken (here ++ [name]) n)
  | link : Enters t here name → t.node? (here ++ [name]) = some (.link target) → follow = false →
      Leads t follow k here [name] (.taken (here ++ [name]) (.link target))
  | jump : Enters t here name → t.node? (here ++ [name]) = some (.link target) →
      (rest = [] → follow = true) →
      Leads t follow k (if isRooted target then [] else here) (linkNames target ++ rest) p →
      Leads t follow (k + 1) here (name :: rest) p
  | into : Enters t here name → t.node? (here ++ [name]) = some .directory →
      Leads t follow k (here ++ [name]) rest p → Leads t follow k here (name :: rest) p

/-- The names lead from a location to no place, where at most `k` links are followed. -/
inductive Strays (t : FileTree) (follow : Bool) : Nat → Location → List String → Cause → Prop
  | nowhere : t.node? here = none → Strays t follow k here [] .missing
  | blocked : t.node? here ≠ some .directory →
      Strays t follow k here (name :: rest) .notDirectory
  | tooLong : t.node? here = some .directory → name ≠ "." → name ≠ ".." →
      longestName < (Utf8.encode name).length →
      Strays t follow k here (name :: rest) .nameTooLong
  | absent : Enters t here name → t.node? (here ++ [name]) = none → rest ≠ [] →
      Strays t follow k here (name :: rest) .missing
  | exhausted : Enters t here name → t.node? (here ++ [name]) = some (.link target) →
      (rest = [] → follow = true) → Strays t follow 0 here (name :: rest) .tooManyLinks
  | stay : name = "." → t.node? here = some .directory → Strays t follow k here rest c →
      Strays t follow k here (name :: rest) c
  | up : name = ".." → t.node? here = some .directory →
      Strays t follow k here.dropLast rest c → Strays t follow k here (name :: rest) c
  | jump : Enters t here name → t.node? (here ++ [name]) = some (.link target) →
      (rest = [] → follow = true) →
      Strays t follow k (if isRooted target then [] else here) (linkNames target ++ rest) c →
      Strays t follow (k + 1) here (name :: rest) c
  | into : Enters t here name → t.node? (here ++ [name]) = some n → (∀ s, n ≠ .link s) →
      Strays t follow k (here ++ [name]) rest c → Strays t follow k here (name :: rest) c

/-- How a walk ends, and why it does. -/
def Ends (t : FileTree) (follow : Bool) (k : Nat) (here : Location) (names : List String) :
    Except Cause Place → Prop
  | .ok p => Leads t follow k here names p
  | .error c => Strays t follow k here names c

variable {t u : FileTree} {follow : Bool} {j k : Nat} {here there l : Location} {name : String}
  {rest names names' : List String} {p : Place} {n : Node} {c : Cause} {r : Except Cause Place}

def jumps (t : FileTree) (follow : Bool) : Nat → Location → List String → Except Cause Place
  | 0 => fun _ _ => .error .tooManyLinks
  | k + 1 => t.walk follow k

theorem walk_eq (t : FileTree) (follow : Bool) (k : Nat) :
    t.walk follow k = walkFrom t follow (jumps t follow k) := by
  cases k <;> rfl

theorem walkFrom_enter {name : String} (hin : Enters t here name) (rest : List String)
    (jump : Location → List String → Except Cause Place) :
    walkFrom t follow jump here (name :: rest) =
      match t.node? (here ++ [name]) with
      | none => if rest.isEmpty then .ok (.free (here ++ [name])) else .error .missing
      | some (.link target) =>
        if rest.isEmpty && !follow then .ok (.taken (here ++ [name]) (.link target))
        else jump (if isRooted target then [] else here) (linkNames target ++ rest)
      | some _ => walkFrom t follow jump (here ++ [name]) rest :=
  (if_neg (Decidable.not_not.2 hin.directory)).trans <| (if_neg hin.not_here).trans <|
    (if_neg hin.not_up).trans (if_neg hin.short)

theorem walk_stop (hn : t.node? here = some n) : t.walk follow k here [] = .ok (.taken here n) := by
  simp only [walk_eq, walkFrom, hn]

theorem walk_nowhere (hn : t.node? here = none) : t.walk follow k here [] = .error .missing := by
  simp only [walk_eq, walkFrom, hn]

theorem walk_blocked (h : t.node? here ≠ some .directory) :
    t.walk follow k here (name :: rest) = .error .notDirectory := by
  rw [walk_eq, walkFrom, if_pos h]

theorem walk_stay (hdot : name = ".") (h : t.node? here = some .directory) :
    t.walk follow k here (name :: rest) = t.walk follow k here rest := by
  rw [walk_eq, walkFrom, if_neg (Decidable.not_not.2 h), if_pos hdot]

theorem walk_up (hup : name = "..") (h : t.node? here = some .directory) :
    t.walk follow k here (name :: rest) = t.walk follow k here.dropLast rest := by
  subst hup
  rw [walk_eq, walkFrom, if_neg (Decidable.not_not.2 h), if_neg (by decide), if_pos rfl]

theorem walk_tooLong (h : t.node? here = some .directory) (hdot : name ≠ ".") (hup : name ≠ "..")
    (hlong : longestName < (Utf8.encode name).length) :
    t.walk follow k here (name :: rest) = .error .nameTooLong := by
  rw [walk_eq, walkFrom, if_neg (Decidable.not_not.2 h), if_neg hdot, if_neg hup, if_pos hlong]

theorem walk_absent (hin : Enters t here name) (hn : t.node? (here ++ [name]) = none) :
    t.walk follow k here (name :: rest) =
      if rest.isEmpty then .ok (.free (here ++ [name])) else .error .missing := by
  rw [walk_eq, walkFrom_enter hin, hn]

theorem walk_link {target : String} (hin : Enters t here name)
    (hn : t.node? (here ++ [name]) = some (.link target)) :
    t.walk follow k here (name :: rest) =
      if rest.isEmpty && !follow then .ok (.taken (here ++ [name]) (.link target))
      else jumps t follow k (if isRooted target then [] else here) (linkNames target ++ rest) := by
  rw [walk_eq, walkFrom_enter hin, hn]

theorem walk_into (hin : Enters t here name) (hn : t.node? (here ++ [name]) = some n)
    (hlink : ∀ s, n ≠ .link s) :
    t.walk follow k here (name :: rest) = t.walk follow k (here ++ [name]) rest := by
  rw [walk_eq, walkFrom_enter hin, hn]
  cases n with
  | link s => exact absurd rfl (hlink s)
  | file | directory | stream => rfl

theorem not_link_of_leaf (h : n.isPassage = false) : ∀ s, n ≠ .link s := by
  rintro s rfl
  cases h

theorem Ends.of_step (hleads : ∀ p, Leads t follow j there names' p → Leads t follow k here names p)
    (hstrays : ∀ c, Strays t follow j there names' c → Strays t follow k here names c)
    (h : Ends t follow j there names' r) : Ends t follow k here names r := by
  cases r with
  | ok p => exact hleads p h
  | error c => exact hstrays c h

/-- A thing that is no passage is found where no names are left, and blocks those that are. -/
theorem ends_leaf (hin : Enters t here name) (hn : t.node? (here ++ [name]) = some n)
    (hleaf : n.isPassage = false) :
    Ends t follow k here (name :: rest) (t.walk follow k here (name :: rest)) := by
  have hlink := not_link_of_leaf hleaf
  rw [walk_into hin hn hlink]
  cases rest with
  | nil =>
    rw [walk_stop hn]
    exact Leads.leaf hin hn hleaf
  | cons next rest =>
    have hdir : t.node? (here ++ [name]) ≠ some .directory := by
      rw [hn]
      rintro ⟨⟩
      cases hleaf
    rw [walk_blocked hdir]
    exact Strays.into hin hn hlink (.blocked hdir)

/-- Every walk ends as it is derived. -/
theorem ends_walk (t : FileTree) (follow : Bool) (k : Nat) (here : Location) (names : List String) :
    Ends t follow k here names (t.walk follow k here names) := by
  -- by the links that are left, and below that by the names
  induction k using Nat.strongRecOn generalizing here names with
  | ind k ihk =>
    induction names generalizing here with
    | nil =>
      cases hn : t.node? here with
      | none =>
        rw [walk_nowhere hn]
        exact Strays.nowhere hn
      | some n =>
        rw [walk_stop hn]
        exact Leads.stop hn
    | cons name rest ih =>
      by_cases hdir : t.node? here = some .directory
      · by_cases hdot : name = "."
        · rw [walk_stay hdot hdir]
          exact (ih here).of_step (fun _ => .stay hdot hdir) fun _ => .stay hdot hdir
        by_cases hup : name = ".."
        · rw [walk_up hup hdir]
          exact (ih here.dropLast).of_step (fun _ => .up hup hdir) fun _ => .up hup hdir
        by_cases hlong : longestName < (Utf8.encode name).length
        · rw [walk_tooLong hdir hdot hup hlong]
          exact Strays.tooLong hdir hdot hup hlong
        have hin : Enters t here name := ⟨hdir, hdot, hup, hlong⟩
        cases hn : t.node? (here ++ [name]) with
        | none =>
          rw [walk_absent hin hn]
          cases rest with
          | nil => exact Leads.vacant hin hn
          | cons next rest => exact Strays.absent hin hn (by simp)
        | some n =>
          cases n with
          | directory =>
            rw [walk_into hin hn nofun]
            exact (ih _).of_step (fun _ => .into hin hn) fun _ => .into hin hn nofun
          | file content => exact ends_leaf hin hn rfl
          | stream => exact ends_leaf hin hn rfl
          | link target =>
            rw [walk_link hin hn]
            split
            · next hlast =>
              simp only [Bool.and_eq_true, List.isEmpty_iff, Bool.not_eq_true'] at hlast
              obtain ⟨rfl, hfollow⟩ := hlast
              exact Leads.link hin hn hfollow
            · next hlast =>
              have hgo : rest = [] → follow = true := by
                rintro rfl
                simpa using hlast
              cases k with
              | zero => exact Strays.exhausted hin hn hgo
              | succ k =>
                exact (ihk k (Nat.lt_succ_self k) _ _).of_step (fun _ => .jump hin hn hgo)
                  fun _ => .jump hin hn hgo
      · rw [walk_blocked hdir]
        exact Strays.blocked hdir

theorem leads_of_walk (h : t.walk follow k here names = .ok p) : Leads t follow k here names p := by
  have hends := ends_walk t follow k here names
  rwa [h] at hends

theorem strays_of_walk (h : t.walk follow k here names = .error c) :
    Strays t follow k here names c := by
  have hends := ends_walk t follow k here names
  rwa [h] at hends

theorem walk_jump {target : String} (hin : Enters t here name)
    (hn : t.node? (here ++ [name]) = some (.link target)) (hgo : rest = [] → follow = true) :
    t.walk follow k here (name :: rest) =
      jumps t follow k (if isRooted target then [] else here) (linkNames target ++ rest) := by
  rw [walk_link hin hn, if_neg]
  cases rest with
  | nil => simp [hgo rfl]
  | cons => simp

theorem Leads.walk (h : Leads t follow k here names p) : t.walk follow k here names = .ok p := by
  induction h with
  | stop hn => exact walk_stop hn
  | stay hdot hdir _ ih => rw [walk_stay hdot hdir, ih]
  | up hup hdir _ ih => rw [walk_up hup hdir, ih]
  | vacant hin hn => exact walk_absent hin hn
  | leaf hin hn hleaf => rw [walk_into hin hn (not_link_of_leaf hleaf), walk_stop hn]
  | link hin hn hfollow => rw [walk_link hin hn, hfollow]; rfl
  | jump hin hn hgo _ ih => exact (walk_jump hin hn hgo).trans ih
  | into hin hn _ ih => rw [walk_into hin hn nofun, ih]

theorem Strays.walk (h : Strays t follow k here names c) :
    t.walk follow k here names = .error c := by
  induction h with
  | nowhere hn => exact walk_nowhere hn
  | blocked h => exact walk_blocked h
  | tooLong h hdot hup hlong => exact walk_tooLong h hdot hup hlong
  | absent hin hn hrest => rw [walk_absent hin hn, if_neg (by simpa using hrest)]
  | exhausted hin hn hgo => exact walk_jump hin hn hgo
  | stay hdot h _ ih => rw [walk_stay hdot h, ih]
  | up hup h _ ih => rw [walk_up hup h, ih]
  | jump hin hn hgo _ ih => exact (walk_jump hin hn hgo).trans ih
  | into hin hn hlink _ ih => rw [walk_into hin hn hlink, ih]

theorem walk_eq_ok_iff : t.walk follow k here names = .ok p ↔ Leads t follow k here names p :=
  ⟨leads_of_walk, Leads.walk⟩

theorem walk_eq_error_iff :
    t.walk follow k here names = .error c ↔ Strays t follow k here names c :=
  ⟨strays_of_walk, Strays.walk⟩

theorem Leads.node?_location (h : Leads t follow k here names p) :
    t.node? p.location = p.node? := by
  induction h with
  | stop hn => exact hn
  | vacant _ hn => exact hn
  | leaf _ hn _ => exact hn
  | link _ hn _ => exact hn
  | stay _ _ _ ih | up _ _ _ ih | jump _ _ _ _ ih | into _ _ _ ih => exact ih

/-- Where all passages stay as they are, a walk leads to the same location still, and finds
there what is there now. -/
theorem Leads.taken_of_passages (h : Leads t follow k here names p)
    (hkeep : ∀ m n, t.node? m = some n → n.isPassage = true → u.node? m = some n)
    (hn : u.node? p.location = some n) (hleaf : n.isPassage = true → p.node? = some n) :
    Leads u follow k here names (.taken p.location n) := by
  have henter {here : Location} {name : String} (hin : Enters t here name) : Enters u here name :=
    { hin with directory := hkeep _ _ hin.directory rfl }
  induction h with
  | stop _ => exact .stop hn
  | stay hdot hdir _ ih => exact .stay hdot (hkeep _ _ hdir rfl) (ih hn hleaf)
  | up hup hdir _ ih => exact .up hup (hkeep _ _ hdir rfl) (ih hn hleaf)
  | vacant hin _ =>
    refine .leaf (henter hin) hn (Bool.eq_false_iff.2 fun hp => ?_)
    cases hleaf hp
  | leaf hin _ hold =>
    refine .leaf (henter hin) hn (Bool.eq_false_iff.2 fun hp => ?_)
    cases hleaf hp
    cases hp.symm.trans hold
  | link hin htarget hfollow =>
    have hsame := hkeep _ _ htarget rfl
    obtain rfl := Option.some.inj (hn.symm.trans hsame)
    exact .link (henter hin) hsame hfollow
  | jump hin htarget hgo _ ih =>
    exact .jump (henter hin) (hkeep _ _ htarget rfl) hgo (ih hn hleaf)
  | into hin hdir _ ih => exact .into (henter hin) (hkeep _ _ hdir rfl) (ih hn hleaf)

theorem eq_of_kept {m : Location} {n n' : Node} (h : u.node? m = some n ∨ u.node? m = none)
    (hn : u.node? m = some n') : n' = n := by
  rcases h with h | h
  · exact Option.some.inj (hn.symm.trans h)
  · cases hn.symm.trans h

/-- Where passages may go but none is changed, a walk to something that is no passage leads
to the same location or fails. -/
theorem Leads.location_unique (h : Leads t follow k here names p)
    (hkeep : ∀ m n, t.node? m = some n → n.isPassage = true →
      u.node? m = some n ∨ u.node? m = none)
    (hleaf : ∃ n, p.node? = some n ∧ n.isPassage = false)
    (hu : ∀ n, u.node? p.location = some n → n.isPassage = false)
    {j : Nat} {q : Place} (h' : Leads u follow j here names q) (hq : q.node? ≠ none) :
    q.location = p.location := by
  -- the second walk takes the step of the first, or meets a passage that is gone
  induction h generalizing j with
  | stop _ =>
    cases h' with
    | stop _ => rfl
  | stay hdot _ _ ih =>
    cases h' with
    | stay _ _ h' => exact ih hleaf hu h'
    | up hup => exact absurd (hdot.symm.trans hup) (by decide)
    | vacant hin | leaf hin | link hin | jump hin | into hin => exact absurd hdot hin.not_here
  | up hup _ _ ih =>
    cases h' with
    | stay hdot => exact absurd (hdot.symm.trans hup) (by decide)
    | up _ _ h' => exact ih hleaf hu h'
    | vacant hin | leaf hin | link hin | jump hin | into hin => exact absurd hup hin.not_up
  | vacant _ _ =>
    obtain ⟨n, hn, -⟩ := hleaf
    cases hn
  | leaf hin hn _ =>
    cases h' with
    | stay hdot => exact absurd hdot hin.not_here
    | up hup => exact absurd hup hin.not_up
    | vacant => exact absurd rfl hq
    | leaf | link => rfl
    | jump _ hn' => cases hu _ hn'
    | into _ hn' => cases hu _ hn'
  | link hin hn hfollow =>
    obtain ⟨n, ⟨⟩, hn⟩ := hleaf
    cases hn
  | jump hin hn hgo _ ih =>
    have hsame := hkeep _ _ hn rfl
    cases h' with
    | stay hdot => exact absurd hdot hin.not_here
    | up hup => exact absurd hup hin.not_up
    | vacant => exact absurd rfl hq
    | leaf _ hn' hleaf' =>
      cases eq_of_kept hsame hn'
      cases hleaf'
    | link _ _ hfollow => exact absurd (hgo rfl) (by simp [hfollow])
    | jump _ hn' _ h' =>
      cases eq_of_kept hsame hn'
      exact ih hleaf hu h'
    | into _ hn' => cases eq_of_kept hsame hn'
  | into hin hn _ ih =>
    have hsame := hkeep _ _ hn rfl
    cases h' with
    | stay hdot => exact absurd hdot hin.not_here
    | up hup => exact absurd hup hin.not_up
    | vacant => exact absurd rfl hq
    | leaf _ hn' hleaf' =>
      cases eq_of_kept hsame hn'
      cases hleaf'
    | link _ hn' | jump _ hn' => cases eq_of_kept hsame hn'
    | into _ _ h' => exact ih hleaf hu h'

/-- A walk that does not end at a link ends there also where links are followed at the end. -/
theorem Leads.followed (h : Leads t follow k here names p)
    (hp : ∀ target, p.node? ≠ some (.link target)) : Leads t true k here names p := by
  induction h with
  | stop hn => exact .stop hn
  | stay hdot hdir _ ih => exact .stay hdot hdir (ih hp)
  | up hup hdir _ ih => exact .up hup hdir (ih hp)
  | vacant hin hn => exact .vacant hin hn
  | leaf hin hn hleaf => exact .leaf hin hn hleaf
  | @link here name target => exact absurd rfl (hp target)
  | jump hin hn _ _ ih => exact .jump hin hn (fun _ => rfl) (ih hp)
  | into hin hn _ ih => exact .into hin hn (ih hp)

/-- A walk that stays at a link at its end finds its last name in the directory to which the
names before that one lead. -/
theorem Leads.parent {init : List String} {last : String}
    (h : Leads t false k here (init ++ [last]) p) (hdot : last ≠ ".") (hup : last ≠ "..") :
    ∃ m, Leads t true k here init (.taken m .directory) ∧ p.location = m ++ [last] := by
  generalize hnames : init ++ [last] = names at h
  induction h generalizing init with
  | stop => simp at hnames
  | stay hname hdir _ ih =>
    cases init with
    | nil =>
      cases hnames
      contradiction
    | cons first init =>
      cases hnames
      obtain ⟨m, hm, hlocation⟩ := ih rfl
      exact ⟨m, .stay hname hdir hm, hlocation⟩
  | up hname hdir _ ih =>
    cases init with
    | nil =>
      cases hnames
      contradiction
    | cons first init =>
      cases hnames
      obtain ⟨m, hm, hlocation⟩ := ih rfl
      exact ⟨m, .up hname hdir hm, hlocation⟩
  | @vacant here name k hin | @leaf here name n k hin | @link here name target k hin =>
    obtain ⟨rfl, rfl⟩ : init = [] ∧ last = name := by
      cases init with
      | nil => exact ⟨rfl, (List.cons.inj hnames).1⟩
      | cons first init => simp at hnames
    exact ⟨here, .stop hin.directory, rfl⟩
  | @jump here name target rest k p hin hn hgo _ ih =>
    cases init with
    | nil =>
      cases hnames
      cases hgo rfl
    | cons first init =>
      cases hnames
      obtain ⟨m, hm, hlocation⟩ := ih (List.append_assoc _ _ _)
      exact ⟨m, .jump hin hn (fun _ => rfl) hm, hlocation⟩
  | @into here name k rest p hin hn h' ih =>
    cases init with
    | nil =>
      cases hnames
      cases h'
      exact ⟨here, .stop hin.directory, rfl⟩
    | cons first init =>
      cases hnames
      obtain ⟨m, hm, hlocation⟩ := ih rfl
      exact ⟨m, .into hin hn hm, hlocation⟩

theorem Leads.getLast?_location (h : Leads t follow k here names p) (hfollow : follow = false)
    {last : String} (hlast : names.getLast? = some last) (hdot : last ≠ ".") (hup : last ≠ "..") :
    p.location.getLast? = some last := by
  subst hfollow
  obtain ⟨init, rfl⟩ := List.getLast?_eq_some_iff.1 hlast
  obtain ⟨m, -, hlocation⟩ := h.parent hdot hup
  rw [hlocation, List.getLast?_concat]

theorem Strays.ne_exists (h : Strays t follow k here names c) : c ≠ .exists := by
  induction h with
  | nowhere | blocked | tooLong | absent | exhausted => nofun
  | stay _ _ _ ih | up _ _ _ ih | jump _ _ _ _ ih | into _ _ _ _ ih => exact ih

/-- That something stands in the way is for whoever looks to say, and never for the walk. -/
theorem find_ne_exists {p : Path} : t.find follow here p ≠ .error .exists := by
  unfold find
  split
  · nofun
  · exact fun h => (strays_of_walk h).ne_exists rfl

/-- A walk that finds something also finds something where the link at its end, if there is one,
is not followed. -/
theorem Leads.unfollowed {init : List String} {last : String}
    (h : Leads t true k here (init ++ [last]) p) (hp : p.node? ≠ none) (hdot : last ≠ ".")
    (hup : last ≠ "..") : ∃ q, Leads t false k here (init ++ [last]) q ∧ q.node? ≠ none := by
  generalize hnames : init ++ [last] = names at h
  induction h generalizing init with
  | stop => simp at hnames
  | stay hname hdir _ ih =>
    cases init with
    | nil =>
      cases hnames
      contradiction
    | cons first init =>
      cases hnames
      obtain ⟨q, hq, htaken⟩ := ih hp rfl
      exact ⟨q, .stay hname hdir hq, htaken⟩
  | up hname hdir _ ih =>
    cases init with
    | nil =>
      cases hnames
      contradiction
    | cons first init =>
      cases hnames
      obtain ⟨q, hq, htaken⟩ := ih hp rfl
      exact ⟨q, .up hname hdir hq, htaken⟩
  | vacant => exact absurd rfl hp
  | leaf hin hn hleaf => exact ⟨_, .leaf hin hn hleaf, nofun⟩
  | link _ _ hfollow => cases hfollow
  | @jump here name target rest k p hin hn hgo _ ih =>
    cases init with
    | nil =>
      cases hnames
      exact ⟨_, .link hin hn rfl, nofun⟩
    | cons first init =>
      cases hnames
      obtain ⟨q, hq, htaken⟩ := ih hp (List.append_assoc _ _ _)
      exact ⟨q, .jump hin hn (by simp) (by simpa using hq), htaken⟩
  | @into here name k rest p hin hn h' ih =>
    cases init with
    | nil =>
      cases hnames
      exact ⟨_, .into hin hn (.stop hn), nofun⟩
    | cons first init =>
      cases hnames
      obtain ⟨q, hq, htaken⟩ := ih hp rfl
      exact ⟨q, .into hin hn hq, htaken⟩

end FileTree

end ScriptLauncher.Host
