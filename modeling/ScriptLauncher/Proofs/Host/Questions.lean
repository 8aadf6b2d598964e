import ScriptLauncher.Proofs.Host.World
import ScriptLauncher.Proofs.Host.Walk

/-! The three questions about a path: whether it exists, is a directory, is a file. All of them
follow the path to its end, so they fail together or agree on what is there. -/

namespace ScriptLauncher.Host

/-- The two faults that say that nothing is there. -/
def Fault.saysAbsent (f : Fault) : Bool := f.hasCause .missing || f.hasCause .notDirectory

namespace World

open FileTree (Leads Strays Enters Place longestChain longestPath isRooted linkNames)

/-- Where a path is read. -/
def start (w : World) (p : Path) : Location := if p.isAbsolute then [] else w.home

/-- A path that the system goes along name by name. -/
structure Unhindered (w : World) (p : Path) : Prop where
  unfaulted : w.faults.stat.lookup p.text = none
  plain : holdsNull p.text = false
  short : ¬ longestPath < (Utf8.encode p.text).length

/-- What there is where a path leads, or why it leads nowhere. -/
inductive Follows (w : World) (p : Path) : Except Fault Node → Prop
  | ready : w.faults.stat.lookup p.text = some f → Follows w p (.error (f.withPath p.text))
  | null : w.faults.stat.lookup p.text = none → holdsNull p.text = true →
      Follows w p (.error .embeddedNull)
  | tooLong : w.faults.stat.lookup p.text = none → holdsNull p.text = false →
      longestPath < (Utf8.encode p.text).length →
      Follows w p (.error (.ofCause .nameTooLong p.text))
  | taken : w.Unhindered p → Leads w.tree true longestChain (w.start p) p.parts (.taken l n) →
      Follows w p (.ok n)
  | free : w.Unhindered p → Leads w.tree true longestChain (w.start p) p.parts (.free l) →
      Follows w p (.error (.ofCause .missing p.text))
  | strays : w.Unhindered p → Strays w.tree true longestChain (w.start p) p.parts c →
      Follows w p (.error (.ofCause c p.text))

/-- Some of the names lead to a thing that is no directory, and there are more behind them. -/
def GoesBelow (w : World) (p : Path) : Prop :=
  ∃ init rest l n, p.parts = init ++ rest ∧ rest ≠ [] ∧
    Leads w.tree true longestChain (w.start p) init (.taken l n) ∧ n ≠ .directory

/-- The last name is that of a link in a directory, which is reached through at most `j` links. -/
def EndsAtLink (w : World) (p : Path) (j : Nat) (m : Location) (target : String) : Prop :=
  ∃ init name, p.parts = init ++ [name] ∧
    Leads w.tree true j (w.start p) init (.taken m .directory) ∧ Enters w.tree m name ∧
    w.tree.node? (m ++ [name]) = some (.link target)

/-- A link in a directory leads to something or to nothing, through at most `k` further links. -/
inductive Points (w : World) (m : Location) (target : String) (k : Nat) : Option Node → Prop
  | taken : Leads w.tree true k (if isRooted target then [] else m) (linkNames target)
      (.taken l n) → Points w m target k (some n)
  | free : Leads w.tree true k (if isRooted target then [] else m) (linkNames target)
      (.free l) → Points w m target k none
  | missing : Strays w.tree true k (if isRooted target then [] else m) (linkNames target)
      .missing → Points w m target k none
  | notDirectory : Strays w.tree true k (if isRooted target then [] else m) (linkNames target)
      .notDirectory → Points w m target k none

variable {w : World} {p : Path} {f : Fault} {n : Node} {n? : Option Node} {r : Except Fault Node}

theorem Unhindered.stat_eq (h : w.Unhindered p) :
    w.stat p = match w.tree.walk true longestChain (w.start p) p.parts with
      | .ok (.taken _ n) => .ok n
      | .ok (.free _) => .error (.ofCause .missing p.text)
      | .error c => .error (.ofCause c p.text) := by
  rw [stat, guarded, h.unfaulted]
  dsimp only
  rw [h.plain, find, FileTree.find, if_neg h.short, start]
  cases w.tree.walk true longestChain (if p.isAbsolute then [] else w.home) p.parts with
  | error c => rfl
  | ok place => cases place <;> rfl

theorem Follows.stat_eq (h : w.Follows p r) : w.stat p = r := by
  cases h with
  | ready hf => rw [stat, guarded, hf]
  | null hf hnull =>
    rw [stat, guarded_of_null hnull, hf]
    rfl
  | tooLong hf hplain hlong =>
    rw [stat, guarded, hf]
    dsimp only
    rw [hplain, find, FileTree.find, if_pos hlong]
    rfl
  | taken hu h => rw [hu.stat_eq, h.walk]
  | free hu h => rw [hu.stat_eq, h.walk]
  | strays hu h => rw [hu.stat_eq, h.walk]

theorem follows_stat (w : World) (p : Path) : w.Follows p (w.stat p) := by
  cases hf : w.faults.stat.lookup p.text with
  | some f =>
    rw [(Follows.ready hf).stat_eq]
    exact .ready hf
  | none =>
    cases hnull : holdsNull p.text with
    | true =>
      rw [(Follows.null hf hnull).stat_eq]
      exact .null hf hnull
    | false =>
      by_cases hlong : longestPath < (Utf8.encode p.text).length
      · rw [(Follows.tooLong hf hnull hlong).stat_eq]
        exact .tooLong hf hnull hlong
      · have hu : w.Unhindered p := ⟨hf, hnull, hlong⟩
        rw [hu.stat_eq]
        cases hwalk : w.tree.walk true longestChain (w.start p) p.parts with
        | error c => exact .strays hu (FileTree.strays_of_walk hwalk)
        | ok place =>
          cases place with
          | taken l n => exact .taken hu (FileTree.leads_of_walk hwalk)
          | free l => exact .free hu (FileTree.leads_of_walk hwalk)

theorem stat_eq_iff : w.stat p = r ↔ w.Follows p r :=
  ⟨fun h => h ▸ follows_stat w p, Follows.stat_eq⟩

/-- All three questions fail, with one fault. -/
structure Raises (w : World) (p : Path) (f : Fault) : Prop where
  pathExists : w.pathExists p = .error f
  isDirectory : w.isDirectory p = .error f
  isFile : w.isFile p = .error f

/-- All three questions are answered by what is there, if anything is. -/
structure Answers (w : World) (p : Path) (n? : Option Node) : Prop where
  pathExists : w.pathExists p = .ok n?.isSome
  isDirectory : w.isDirectory p = .ok (n? == some .directory)
  isFile : w.isFile p = .ok (n?.any (· != .directory))

theorem answers_of_lookup (h : w.lookup? p = .ok n?) : w.Answers p n? :=
  ⟨by rw [pathExists, h]; rfl, by rw [isDirectory, h]; rfl, by rw [isFile, h]; rfl⟩

theorem raises_of_lookup (h : w.lookup? p = .error f) : w.Raises p f :=
  ⟨by rw [pathExists, h]; rfl, by rw [isDirectory, h]; rfl, by rw [isFile, h]; rfl⟩

theorem answers_of_found (h : w.Follows p (.ok n)) : w.Answers p (some n) :=
  answers_of_lookup (by rw [lookup?, h.stat_eq])

theorem answers_of_absent (h : w.Follows p (.error f)) (hf : f.saysAbsent = true) :
    w.Answers p none :=
  answers_of_lookup (by rw [lookup?, h.stat_eq]; exact if_pos hf)

theorem raises_of_fault (h : w.Follows p (.error f)) (hf : f.saysAbsent = false) :
    w.Raises p f :=
  raises_of_lookup (by rw [lookup?, h.stat_eq]; exact if_neg (Bool.eq_false_iff.1 hf))

theorem raises_iff : w.Raises p f ↔ w.Follows p (.error f) ∧ f.saysAbsent = false := by
  constructor
  · rintro ⟨h, -, -⟩
    obtain ⟨hstat, hmissing, hdirectory⟩ := pathExists_eq_error_iff.1 h
    exact ⟨stat_eq_iff.1 hstat, by rw [Fault.saysAbsent, hmissing, hdirectory]; rfl⟩
  · rintro ⟨h, hf⟩
    exact raises_of_fault h hf

theorem Answers.count_eq_one (h : w.Answers p n?) :
    ∃ e d g, w.pathExists p = .ok e ∧ w.isDirectory p = .ok d ∧ w.isFile p = .ok g ∧
      [!e, d, g].count true = 1 := by
  refine ⟨_, _, _, h.pathExists, h.isDirectory, h.isFile, ?_⟩
  cases n? with
  | none => rfl
  | some n => cases n <;> rfl

theorem raises_or_answers (w : World) (p : Path) :
    (∃ f, w.Raises p f) ∨ ∃ n?, w.Answers p n? := by
  cases h : w.lookup? p with
  | error f => exact .inl ⟨f, raises_of_lookup h⟩
  | ok n? => exact .inr ⟨n?, answers_of_lookup h⟩

theorem answers_of_goesBelow (hu : w.Unhindered p) (h : w.GoesBelow p) : w.Answers p none := by
  obtain ⟨init, rest, l, n, hparts, hrest, hinit, hn⟩ := h
  have hwalk := hinit.walk_below hn hrest
  rw [← hparts] at hwalk
  exact answers_of_absent (.strays hu (FileTree.strays_of_walk hwalk)) rfl

/-- Whatever the target of a link leads to, a path to the link leads to as well, or it runs out of
links before. -/
theorem EndsAtLink.walk {j k : Nat} {m : Location} {target : String} {r : Except Cause Place}
    (h : w.EndsAtLink p j m target) (hu : w.Unhindered p)
    (hr : w.tree.walk true k (if isRooted target then [] else m) (linkNames target) = r)
    (hne : r ≠ .error .tooManyLinks) :
    w.tree.walk true longestChain (w.start p) p.parts = r ∨
      longestChain ≤ j + k ∧ w.Raises p (.ofCause .tooManyLinks p.text) := by
  obtain ⟨init, name, hparts, hinit, hin, hn⟩ := h
  have hwalk := hinit.walk_link hin hn hr hne
  rw [← hparts] at hwalk
  rcases FileTree.walk_cut hwalk hne longestChain with hcut | ⟨hlt, hcut⟩
  · exact .inl hcut
  · have hfollows : w.Follows p (.error (.ofCause .tooManyLinks p.text)) :=
      .strays hu (FileTree.strays_of_walk hcut)
    exact .inr ⟨Nat.le_of_lt_succ hlt, raises_of_fault hfollows rfl⟩

theorem answers_of_endsAtLink {j k : Nat} {m : Location} {target : String}
    (hu : w.Unhindered p) (h : w.EndsAtLink p j m target) (hpoints : w.Points m target k n?) :
    w.Answers p n? ∨ longestChain ≤ j + k ∧ w.Raises p (.ofCause .tooManyLinks p.text) := by
  cases hpoints with
  | taken hleads =>
    exact (h.walk hu hleads.walk nofun).imp_left fun hwalk =>
      answers_of_found (.taken hu (FileTree.leads_of_walk hwalk))
  | free hleads =>
    exact (h.walk hu hleads.walk nofun).imp_left fun hwalk =>
      answers_of_absent (.free hu (FileTree.leads_of_walk hwalk)) rfl
  | missing hstrays =>
    exact (h.walk hu hstrays.walk nofun).imp_left fun hwalk =>
      answers_of_absent (.strays hu (FileTree.strays_of_walk hwalk)) rfl
  | notDirectory hstrays =>
    exact (h.walk hu hstrays.walk nofun).imp_left fun hwalk =>
      answers_of_absent (.strays hu (FileTree.strays_of_walk hwalk)) rfl

/-- The three questions about a path fail together, just where following it fails otherwise than
by finding nothing. Else exactly one holds of "does not exist", "is a directory" and "is a file":
below a thing that is no directory the first, and at a link what holds at its end, the first
where it leads nowhere. -/
theorem questions_partition (w : World) (p : Path) :
    (∀ f, w.Raises p f ↔ w.Follows p (.error f) ∧ f.saysAbsent = false) ∧
      ((∃ f, w.Raises p f) ∨
        ∃ e d g, w.pathExists p = .ok e ∧ w.isDirectory p = .ok d ∧ w.isFile p = .ok g ∧
          [!e, d, g].count true = 1) ∧
      (∀ n, w.Follows p (.ok n) → w.Answers p (some n)) ∧
      (w.Unhindered p → w.GoesBelow p → w.Answers p none) ∧
      (∀ j k m target n?, w.Unhindered p → w.EndsAtLink p j m target →
        w.Points m target k n? →
        w.Answers p n? ∨ longestChain ≤ j + k ∧ w.Raises p (.ofCause .tooManyLinks p.text)) := by
  refine ⟨fun f => raises_iff, ?_, fun n => answers_of_found, answers_of_goesBelow,
    fun j k m target n? => answers_of_endsAtLink⟩
  rcases raises_or_answers w p with h | ⟨n?, h⟩
  · exact .inl h
  · exact .inr h.count_eq_one

/-- A link to a link to a file, a link that leads nowhere, and a path below the file. -/
def linkedWorld : World :=
  { initial ["work"] (.ofText "tmp") .warning with
    tree := ⟨[(["work"], .directory), (["work", "f"], .file []), (["work", "a"], .link "b"),
      (["work", "b"], .link "f"), (["work", "d"], .link "nowhere")]⟩ }

theorem questions_partition_linkedWorld :
    (linkedWorld.EndsAtLink (.ofText "a") 0 ["work"] "b" ∧
      linkedWorld.Points ["work"] "b" 1 (some (.file [])) ∧
      linkedWorld.Answers (.ofText "a") (some (.file []))) ∧
    (linkedWorld.EndsAtLink (.ofText "d") 0 ["work"] "nowhere" ∧
      linkedWorld.Points ["work"] "nowhere" 0 none ∧ linkedWorld.Answers (.ofText "d") none) ∧
    (linkedWorld.GoesBelow (.ofText "f/x") ∧ linkedWorld.Answers (.ofText "f/x") none) := by
  have hin (name : String) (hdot : name ≠ ".") (hup : name ≠ "..")
      (hshort : ¬ FileTree.longestName < (Utf8.encode name).length) :
      Enters linkedWorld.tree ["work"] name := ⟨by decide, hdot, hup, hshort⟩
  have hchained : linkedWorld.EndsAtLink (.ofText "a") 0 ["work"] "b" :=
    ⟨[], "a", by decide, .stop (by decide), hin "a" (by decide) (by decide) (by decide), by decide⟩
  have hfile : linkedWorld.Points ["work"] "b" 1 (some (.file [])) :=
    .taken (l := ["work", "f"]) (FileTree.leads_of_walk rfl)
  have hdangling : linkedWorld.EndsAtLink (.ofText "d") 0 ["work"] "nowhere" :=
    ⟨[], "d", by decide, .stop (by decide), hin "d" (by decide) (by decide) (by decide), by decide⟩
  have hnothing : linkedWorld.Points ["work"] "nowhere" 0 none :=
    .free (l := ["work", "nowhere"]) (FileTree.leads_of_walk rfl)
  have hbelow : linkedWorld.GoesBelow (.ofText "f/x") :=
    ⟨["f"], ["x"], ["work", "f"], .file [], by decide, by decide,
      FileTree.leads_of_walk rfl, by decide⟩
  have hu (text : String) (hplain : holdsNull (Path.ofText text).text = false)
      (hshort : ¬ longestPath < (Utf8.encode (Path.ofText text).text).length) :
      linkedWorld.Unhindered (.ofText text) := ⟨rfl, hplain, hshort⟩
  refine ⟨⟨hchained, hfile, ?_⟩, ⟨hdangling, hnothing, ?_⟩, hbelow, ?_⟩
  · have h := (questions_partition linkedWorld (.ofText "a")).2.2.2.2
    exact (h _ _ _ _ _ (hu "a" (by decide) (by decide)) hchained hfile).resolve_right
      fun h => absurd h.1 (by decide)
  · have h := (questions_partition linkedWorld (.ofText "d")).2.2.2.2
    exact (h _ _ _ _ _ (hu "d" (by decide) (by decide)) hdangling hnothing).resolve_right
      fun h => absurd h.1 (by decide)
  · have h := (questions_partition linkedWorld (.ofText "f/x")).2.2.2.1
    exact h (hu "f/x" (by decide) (by decide)) hbelow

end World

end ScriptLauncher.Host
