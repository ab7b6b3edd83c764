import CnPropertyAgent.Git.Porcelain

/-!
How `scripts/run-claude-task.sh` discards changes to protected paths before it commits.

The loop of `.github/workflows/claude-task.yml` differs only in how it finds out whether git
knows a path.
-/

namespace CnPropertyAgent.RunClaudeTask

open Git

/-- `sed -E 's/^.. //'`. -/
def stripCode : Bytes → Bytes
  | x :: y :: z :: rest => if z = space then rest else x :: y :: z :: rest
  | line => line

def arrow : Bytes := ascii " -> "

/-- What follows the last arrow. -/
def afterArrow? : Bytes → Option Bytes
  | [] => none
  | b :: rest => match afterArrow? rest with
    | some after => some after
    | none => if arrow <+: b :: rest then some ((b :: rest).drop arrow.length) else none

/-- `sed -E 's/^.* -> //'`. -/
def stripOld (line : Bytes) : Bytes := (afterArrow? line).getD line

/-- The path the loop reads from a line of the listing. -/
def readPath (line : Bytes) : Bytes := stripOld (stripCode line)

def protectedFiles : List PathName :=
  [ascii "AGENTS.md", ascii "CLAUDE.md", ascii "CLAUDE.local.md", ascii ".gitmodules", ascii ".mcp.json",
    ascii ".vscode/tasks.json", ascii "scripts/run-claude-task.sh"]

def protectedDirectories : List PathName :=
  [ascii ".claude/", ascii ".github/workflows/", ascii ".github/actions/"]

/-- The patterns of the `case`; a `*` matches any text. -/
def Protected (path : Bytes) : Prop := path ∈ protectedFiles ∨ ∃ d ∈ protectedDirectories, d <+: path

instance (path : Bytes) : Decidable (Protected path) := inferInstanceAs (Decidable (_ ∨ _))

def uvLock : PathName := ascii "uv.lock"

section

variable {α : Type}

/-- A pass over what is read at the place `i` of the listing. -/
def discard (git : Git α) (known : Bytes → Bool) (worktree : FileTree α) (path : Bytes) (i : Nat) : FileTree α :=
  if path = [] then worktree
  else if Protected path then
    if known path then worktree.changeAll (git.restore i path) else rmRf worktree path
  else worktree

def discardAll (git : Git α) (known : Bytes → Bool) (paths : List Bytes) (worktree : FileTree α) : FileTree α :=
  paths.zipIdx.foldl (fun worktree x => discard git known worktree x.1 x.2) worktree

/-- What the loop reads. The listing is complete before the first pass. -/
def readPaths (git : Git α) (head worktree : FileTree α) : List Bytes :=
  (git.status head worktree).map fun entry => readPath (statusLine entry)

def protectedPathLoop (git : Git α) (base worktree : FileTree α) : FileTree α :=
  discardAll git (git.lsFiles base) (readPaths git base worktree) worktree

/-- A lockfile that is not tracked is removed. -/
def removeLock (git : Git α) (base worktree : FileTree α) : FileTree α :=
  if git.lsFiles base uvLock then worktree else worktree.filter fun p => p ≠ uvLock

/-- What `git add -A` stages at a path. -/
def stagedAfter (git : Git α) (base worktree : FileTree α) (p : PathName) : Option α :=
  staged git base (removeLock git base (protectedPathLoop git base worktree)).get? p

end

/-! ### How a listed name is read -/

theorem afterArrow?_eq_none_iff {s : Bytes} : afterArrow? s = none ↔ ¬ arrow <:+: s := by
  induction s with
  | nil => simp [afterArrow?, arrow, ascii]
  | cons b rest ih =>
      rw [List.infix_cons_iff, afterArrow?]
      cases after : afterArrow? rest with
      | none =>
          have later : ¬ arrow <:+: rest := ih.mp after
          by_cases here : arrow <+: b :: rest <;> simp [here, later]
      | some tail =>
          have later : arrow <:+: rest := by
            by_contra absent
            cases after.symm.trans (ih.mpr absent)
          simp [later]

theorem stripOld_of_no_arrow {s : Bytes} (h : ¬ arrow <:+: s) : stripOld s = s := by
  rw [stripOld, afterArrow?_eq_none_iff.mpr h]
  rfl

/-- What the loop makes of the name of an entry. -/
def readName (name : PathName) : Bytes := stripOld (quotePath name)

theorem readPath_statusLine {code name : Bytes} (h : code.length = 2) :
    readPath (statusLine (code, name)) = readName name := by
  obtain ⟨x, y, rfl⟩ := List.length_eq_two.mp h
  rfl

/-- A name that needs no quotes is read as it is. -/
theorem readName_of_plain {name : PathName} (plain : Plain name) : readName name = name := by
  rw [readName, quotePath, if_pos plain]
  apply stripOld_of_no_arrow
  intro arrowed
  have spaced : space ∈ name := arrowed.subset (by decide)
  exact (plain space spaced).2 rfl

/-- No protected path starts with a quote. -/
theorem Protected.head? {path : Bytes} (h : Protected path) : path.head? ≠ some quote := by
  have starts : ∀ s ∈ protectedFiles ++ protectedDirectories, ∃ b ∈ s.head?, b ≠ quote := by decide
  have found : ∃ s ∈ protectedFiles ++ protectedDirectories, s <+: path := by
    rcases h with file | ⟨d, mem, inside⟩
    · exact ⟨path, List.mem_append_left _ file, List.prefix_rfl⟩
    · exact ⟨d, List.mem_append_right _ mem, inside⟩
  obtain ⟨s, mem, tail, rfl⟩ := found
  obtain ⟨b, head, other⟩ := starts s mem
  rw [List.head?_append, Option.mem_def.mp head]
  simpa using other

/-- Without an arrow in its name, no entry in quotes is taken for a protected path. -/
theorem not_protected_of_quoted {name : PathName} (quoted : ¬ Plain name)
    (unarrowed : ¬ arrow <:+: quotePath name) : ¬ Protected (readName name) := by
  rw [readName, stripOld_of_no_arrow unarrowed, quotePath, if_neg quoted]
  exact fun protect => protect.head? rfl

/-- An entry without an arrow in its name is taken for a protected path exactly when it is one and
needs no quotes. -/
theorem protected_readPath_iff {code name : Bytes} (letters : code.length = 2)
    (unarrowed : ¬ arrow <:+: quotePath name) :
    Protected (readPath (statusLine (code, name))) ↔ Plain name ∧ Protected name := by
  rw [readPath_statusLine letters]
  by_cases plain : Plain name
  · rw [readName_of_plain plain, and_iff_right plain]
  · exact iff_of_false (not_protected_of_quoted plain unarrowed) fun h => plain h.1

theorem ne_nil_of_protected {path : Bytes} (protect : Protected path) : path ≠ [] := by
  rintro rfl
  exact absurd protect (by decide)

/-! ### What the loop does to one path -/

section

variable {α : Type} {git : Git α} {known : Bytes → Bool} {worktree : FileTree α} {p : PathName}

/-- What a pass leaves at a path, if it does something there. -/
def passLeaves (git : Git α) (known : Bytes → Bool) (p : PathName) (path : Bytes) (i : Nat) : Option (Option α) :=
  if Protected path then
    if known path then lastSet (fun c => c.leaves p) (git.restore i path)
    else if Under path p then some none else none
  else none

theorem get?_discard (path : Bytes) (i : Nat) :
    (discard git known worktree path i).get? p = (passLeaves git known p path i).getD (worktree.get? p) := by
  unfold discard passLeaves
  by_cases protect : Protected path
  · rw [if_neg (ne_nil_of_protected protect), if_pos protect, if_pos protect]
    by_cases tracked : known path = true
    · rw [if_pos tracked, if_pos tracked, FileTree.get?_changeAll]
    · rw [if_neg tracked, if_neg tracked, get?_rmRf]
      by_cases under : Under path p <;> simp [under]
  · rw [if_neg protect, ite_self, if_neg protect, Option.getD_none]

/-- What the last pass that does something at a path leaves there. -/
def lastLeft (git : Git α) (known : Bytes → Bool) (paths : List Bytes) (p : PathName) : Option (Option α) :=
  lastSet (fun x => passLeaves git known p x.1 x.2) paths.zipIdx

theorem get?_discardAll (paths : List Bytes) :
    (discardAll git known paths worktree).get? p =
      (lastLeft git known paths p).getD (worktree.get? p) :=
  read_foldl (fun t => t.get? p) (fun _ x => get?_discard x.1 x.2) paths.zipIdx worktree

theorem discardAll_of_unprotected {paths : List Bytes} (unprotected : ∀ path ∈ paths, ¬ Protected path) :
    discardAll git known paths worktree = worktree := by
  unfold discardAll
  generalize 0 = i
  induction paths generalizing i with
  | nil => rfl
  | cons path paths ih =>
      have idle : discard git known worktree path i = worktree := by
        rw [discard, if_neg (unprotected path List.mem_cons_self), ite_self]
      rw [List.zipIdx_cons, List.foldl_cons, idle]
      exact ih (fun path mem => unprotected path (List.mem_cons_of_mem _ mem)) (i + 1)

end

end CnPropertyAgent.RunClaudeTask
