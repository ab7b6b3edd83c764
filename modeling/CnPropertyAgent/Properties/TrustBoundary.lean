import CnPropertyAgent.Scripts.RunClaudeTask
import Mathlib.Data.List.Dedup

/-!
What an automated task can commit at protected paths.

The loop sees the change set through a listing that names a new directory as a whole and
puts some names in quotes, it hands what it reads back to git as a pathspec, and it goes on
where a restore fails. The protected paths stay as they were exactly when what it reads catches
each change, under the ignore files and attributes that are left.
-/

namespace CnPropertyAgent

open Git RunClaudeTask

namespace RunClaudeTask

variable {α : Type} {git : Git α} {base worktree : FileTree α} {last : PathName → Option (Option α)}
  {left : PathName → Option α}

/-- Each change at a protected path is caught, where the last pass that does something at a path
leaves `last`, and all passes together `left`. -/
structure Catches (git : Git α) (base worktree : FileTree α) (last : PathName → Option (Option α))
    (left : PathName → Option α) : Prop where
  /-- A tracked file that no pass touches is recorded as it was. -/
  untouched : ∀ p ∈ base.paths, Protected p → last p = none →
    (worktree.get? p).map (git.checkIn left p) = base.get? p
  /-- So is what the last pass that touches one leaves of it. -/
  restored : ∀ p ∈ base.paths, Protected p → ∀ file, last p = some file →
    file.map (git.checkIn left p) = base.get? p
  /-- A new file is deleted, or ignored by the ignore files that are left. -/
  cleared : ∀ p ∈ worktree.paths, Protected p → p ∉ base.paths → last p = some none ∨ git.ignored left p = true
  /-- So is a new file that a restore writes. -/
  unwritten : ∀ p, Protected p → p ∉ base.paths → ∀ a, last p = some (some a) → git.ignored left p = true

/-- At a new path nothing is staged when what is left there is nothing, or ignored. -/
theorem staged_eq_iff_of_new {p : PathName} (new : p ∉ base.paths) :
    staged git base left p = base.get? p ↔ git.ignored left p = true ∨ left p = none := by
  rw [FileTree.get?_eq_none_iff.mpr new, staged]
  by_cases hidden : git.ignored left p = true <;> simp [new, hidden]

theorem catches_of_kept (passes : ∀ p, Protected p → left p = (last p).getD (worktree.get? p))
    (kept : ∀ p, Protected p → staged git base left p = base.get? p) : Catches git base worktree last left where
  untouched p tracked protect none_ := by
    rw [← kept p protect, staged_of_tracked tracked, passes p protect, none_, Option.getD_none]
  restored p tracked protect file some_ := by
    rw [← kept p protect, staged_of_tracked tracked, passes p protect, some_, Option.getD_some]
  cleared p mem protect new := by
    rcases (staged_eq_iff_of_new new).mp (kept p protect) with hidden | gone
    · exact Or.inr hidden
    · rw [passes p protect] at gone
      cases h : last p with
      | none =>
          rw [h, Option.getD_none, FileTree.get?_eq_none_iff] at gone
          exact absurd mem gone
      | some file =>
          rw [h, Option.getD_some] at gone
          exact Or.inl (congrArg some gone)
  unwritten p protect new a some_ := by
    refine ((staged_eq_iff_of_new new).mp (kept p protect)).resolve_right ?_
    rw [passes p protect, some_]
    exact Option.some_ne_none a

theorem Catches.kept (catches : Catches git base worktree last left)
    (passes : ∀ p, Protected p → left p = (last p).getD (worktree.get? p)) {p : PathName}
    (protect : Protected p) : staged git base left p = base.get? p := by
  by_cases tracked : p ∈ base.paths
  · rw [staged_of_tracked tracked, passes p protect]
    cases h : last p with
    | none => exact catches.untouched p tracked protect h
    | some file => exact catches.restored p tracked protect file h
  · rw [staged_eq_iff_of_new tracked, passes p protect]
    cases h : last p with
    | none =>
        by_cases mem : p ∈ worktree.paths
        · rcases catches.cleared p mem protect tracked with gone | hidden
          · cases h.symm.trans gone
          · exact Or.inl hidden
        · exact Or.inr (FileTree.get?_eq_none_iff.mpr mem)
    | some file =>
        cases file with
        | none => exact Or.inr rfl
        | some a => exact Or.inl (catches.unwritten p protect tracked a h)

/-- What is staged at the protected paths is the base commit exactly when each change is caught. -/
theorem catches_iff (passes : ∀ p, Protected p → left p = (last p).getD (worktree.get? p)) :
    (∀ p, Protected p → staged git base left p = base.get? p) ↔ Catches git base worktree last left :=
  ⟨catches_of_kept passes, fun catches _ protect => catches.kept passes protect⟩

/-! ### The loop of the script -/

/-- What the last pass that does something at a path leaves there. -/
def lastPass (git : Git α) (base worktree : FileTree α) : PathName → Option (Option α) :=
  lastLeft git (git.lsFiles base) (readPaths git base worktree)

/-- The working tree from which the commit is made. -/
def settled (git : Git α) (base worktree : FileTree α) (p : PathName) : Option α :=
  if p = uvLock ∧ git.lsFiles base uvLock = false then none
  else (lastPass git base worktree p).getD (worktree.get? p)

theorem get?_removeLock :
    (removeLock git base (protectedPathLoop git base worktree)).get? = settled git base worktree := by
  funext p
  have loop : (protectedPathLoop git base worktree).get? p =
      (lastPass git base worktree p).getD (worktree.get? p) := get?_discardAll _
  unfold removeLock settled
  by_cases locked : git.lsFiles base uvLock = true
  · rw [if_pos locked, loop, if_neg]
    rintro ⟨-, unlocked⟩
    cases locked.symm.trans unlocked
  · rw [if_neg locked, FileTree.get?_filter, loop]
    by_cases lock : p = uvLock <;> simp [lock, locked]

theorem not_protected_uvLock : ¬ Protected uvLock := by decide

theorem settled_of_protected {p : PathName} (protect : Protected p) :
    settled git base worktree p = (lastPass git base worktree p).getD (worktree.get? p) := by
  apply if_neg
  rintro ⟨rfl, -⟩
  exact not_protected_uvLock protect

/-- Where every protected name in the listing is in quotes, the loop discards nothing. -/
theorem protectedPathLoop_of_quoted (letters : ∀ entry ∈ git.status base worktree, entry.1.length = 2)
    (unarrowed : ∀ entry ∈ git.status base worktree, ¬ arrow <:+: quotePath entry.2)
    (quoted : ∀ entry ∈ git.status base worktree, Protected entry.2 → ¬ Plain entry.2) :
    protectedPathLoop git base worktree = worktree := by
  apply discardAll_of_unprotected
  intro path mem protect
  obtain ⟨entry, listed, rfl⟩ := List.mem_map.mp mem
  obtain ⟨plain, itself⟩ := (protected_readPath_iff (letters entry listed) (unarrowed entry listed)).mp protect
  exact quoted entry listed itself plain

/-- What the script's loop reads catches each change at a protected path. -/
def Guarded (git : Git α) (base worktree : FileTree α) : Prop :=
  Catches git base worktree (lastPass git base worktree) (settled git base worktree)

/-! ### Where nothing fails -/

/-- What a pass does to a tracked file is to bring it back, it writes no new one, and git records the
protected files as they are. -/
structure Works (git : Git α) (base worktree : FileTree α) : Prop where
  brings_back : ∀ p ∈ base.paths, ∀ file, lastPass git base worktree p = some file → file = base.get? p
  writes_none : ∀ p ∉ base.paths, ∀ a, lastPass git base worktree p ≠ some (some a)
  records : ∀ p, Protected p → ∀ a, git.checkIn (settled git base worktree) p a = a

/-- Where nothing fails, a change is caught exactly when a pass touches the tracked file, or deletes the
new one unless it is ignored. -/
theorem guarded_iff_of_works (works : Works git base worktree) : Guarded git base worktree ↔
    (∀ p ∈ base.paths, Protected p → worktree.get? p ≠ base.get? p → lastPass git base worktree p ≠ none) ∧
      ∀ p ∈ worktree.paths, Protected p → p ∉ base.paths →
        lastPass git base worktree p = some none ∨ git.ignored (settled git base worktree) p = true := by
  have recorded {p : PathName} (protect : Protected p) (file : Option α) :
      file.map (git.checkIn (settled git base worktree) p) = file := by
    rw [funext (works.records p protect)]
    exact Option.map_id'
  constructor
  · intro guarded
    refine ⟨?_, guarded.cleared⟩
    intro p tracked protect differs untouched
    have same := guarded.untouched p tracked protect untouched
    rw [recorded protect] at same
    exact differs same
  · rintro ⟨touched, cleared⟩
    refine ⟨?_, ?_, cleared, ?_⟩
    · intro p tracked protect untouched
      rw [recorded protect]
      by_contra differs
      exact touched p tracked protect differs untouched
    · intro p tracked protect file left
      rw [recorded protect]
      exact works.brings_back p tracked file left
    · intro p _ new a left
      exact absurd left (works.writes_none p new a)

end RunClaudeTask

namespace RunClaudeTask

/-! ### git on plain trees -/

/-- The directories above a path, outermost first, each with its slash. -/
def directories (p : PathName) : List PathName := p.inits.filter fun d => d.getLast? = some slash

/-- What an untracked file is listed under: the outermost directory above it that has no
tracked file, or itself. -/
def collapse (head : FileTree Bytes) (p : PathName) : PathName :=
  ((directories p).find? fun d => head.paths.all fun q => ¬ d <+: q).getD p

/-- Ignore files that hold one name each, and hide the files of that name. -/
def ignoredBy (look : PathName → Option Bytes) (p : PathName) : Bool :=
  ([] :: directories p).any fun d =>
    look (d ++ ascii ".gitignore") = some (p.reverse.takeWhile (· ≠ slash)).reverse

/-- Tracked files that are gone or changed, and new ones. A directory in the place of a tracked file
is not listed. -/
def plainStatus (head worktree : FileTree Bytes) : List (Bytes × PathName) :=
  let changed := head.paths.filter fun p => worktree.get? p ≠ head.get? p
  let new := worktree.paths.filter fun p =>
    p ∉ head.paths ∧ (∀ q ∈ head.paths, ¬ Inside p q) ∧ ignoredBy worktree.get? p = false
  changed.map (fun p => (if worktree.get? p = none then ascii " D" else ascii " M", p)) ++
    (new.map (collapse head)).dedup.map fun p => (ascii "??", p)

/-- Matching of names with `*` and no other wildcard. -/
def globMatch : Bytes → Bytes → Bool
  | [], name => name = []
  | b :: pattern, name =>
      if b = 0x2A then name.tails.any (globMatch pattern)
      else match name with
      | [] => false
      | b' :: name => b = b' && globMatch pattern name

def pathspec (r : Bytes) (p : PathName) : Bool := Under r p || globMatch r p

/-- git where there are no attributes and no command fails. -/
def plainGit (source : FileTree Bytes) : Git Bytes where
  status := plainStatus
  lsFiles head r := head.paths.any (pathspec r)
  catFile commit r := commit.paths.any fun p => Under r p
  restore _ r := (source.rows.filter fun file => pathspec r file.1).map fun file => (file.1, some file.2)
  ignored := ignoredBy
  checkIn _ _ a := a

/-- What a pass leaves at a path over plain trees is nothing, or the file of the commit. -/
theorem passLeaves_plainGit {base : FileTree Bytes} {p path : Bytes} {i : Nat} {file : Option Bytes}
    (left : passLeaves (plainGit base) ((plainGit base).lsFiles base) p path i = some file) :
    file = base.get? p ∨ file = none ∧ p ∉ base.paths := by
  unfold passLeaves at left
  split_ifs at left with protect known under
  · obtain ⟨c, mem, leaves⟩ := exists_of_lastSet left
    obtain ⟨⟨q, b⟩, inside, rfl⟩ := List.mem_map.mp mem
    have stored : base.get? q = some b := FileTree.get?_eq_some_iff.mpr (List.mem_of_mem_filter inside)
    unfold FileTree.Change.leaves at leaves
    split_ifs at leaves with here clash
    · obtain rfl := Option.some.inj leaves
      rw [here]
      exact Or.inl stored.symm
    · obtain rfl := Option.some.inj leaves
      refine Or.inr ⟨rfl, fun tracked => ?_⟩
      -- No two tracked files clash.
      have other := FileTree.mem_paths_iff.mpr ⟨b, stored⟩
      exact clash.2.elim (base.apart p tracked q other) (base.apart q other p tracked)
  · obtain rfl := Option.some.inj left
    refine Or.inr ⟨rfl, fun tracked => known ?_⟩
    exact List.any_eq_true.mpr ⟨p, tracked, by simp [pathspec, under]⟩

theorem works_plainGit (base worktree : FileTree Bytes) : Works (plainGit base) base worktree where
  brings_back p tracked file left := by
    obtain ⟨x, -, step⟩ := exists_of_lastSet left
    exact (passLeaves_plainGit step).resolve_right fun h => h.2 tracked
  writes_none p new a left := by
    obtain ⟨x, -, step⟩ := exists_of_lastSet left
    rcases passLeaves_plainGit step with same | ⟨none_, -⟩
    · exact new (FileTree.mem_paths_iff.mpr ⟨a, same.symm⟩)
    · cases none_
  records _ _ _ := rfl

/-- Changes that are missed, each with the protected path, the base commit and the working
tree. -/
def crossings : List (PathName × List (PathName × Bytes) × List (PathName × Bytes)) :=
  let old := ascii "old"
  let new := ascii "new"
  [ -- New directories that are listed as a whole.
    (ascii ".vscode/tasks.json", [], [(ascii ".vscode/tasks.json", new)]),
    (ascii ".github/workflows/task.yml", [], [(ascii ".github/workflows/task.yml", new)]),
    -- Names in quotes, changed and new.
    (ascii ".claude/my rules.md", [(ascii ".claude/my rules.md", old)], [(ascii ".claude/my rules.md", new)]),
    (ascii ".claude/my hook.sh", [(ascii ".claude/rules.md", old)],
      [(ascii ".claude/rules.md", old), (ascii ".claude/my hook.sh", new)]),
    -- A name that matches a tracked file.
    (ascii ".claude/*", [(ascii ".claude/rules.md", old)],
      [(ascii ".claude/rules.md", old), (ascii ".claude/*", new)]),
    -- A file that its ignore file hides until the loop deletes that one.
    (ascii ".github/workflows/task.yml", [(ascii ".github/workflows/ci.yml", old)],
      [(ascii ".github/workflows/ci.yml", old), (ascii ".github/workflows/.gitignore", ascii "task.yml"),
        (ascii ".github/workflows/task.yml", new)])]

end RunClaudeTask

end CnPropertyAgent
