import CnPropertyAgent.Scripts.RunClaudeTask

/-!
One attempt of the workflow `.github/workflows/claude-task.yml`, which runs
`scripts/run-claude-task.sh` and saves what it leaves behind.

The attempts of one workflow run push to one branch, and an attempt starts from what the
branch holds. What the task does to the working tree, what git does, where the script stops and
which pushes get through are open. A stop between `git add -A` and `git commit` is not
modelled.
-/

namespace CnPropertyAgent.ClaudeTask

open Git RunClaudeTask

/-- `retry_cmd max_attempts`, and the loop over `1 2 3 4`: the tries in their order. -/
def retryFrom (succeeds : Nat → Bool) : Nat → Nat → Bool
  | 0, _ => false
  | more + 1, attempt => succeeds attempt || retryFrom succeeds more (attempt + 1)

def retryCmd (maxAttempts : Nat) (succeeds : Nat → Bool) : Bool := retryFrom succeeds maxAttempts 1

/-- How far the script gets. -/
inductive Fate (α : Type) where
  /-- The job ends, as by its time limit, before anything is pushed. -/
  | lost
  /-- The script fails before it stages anything, in its loop over the protected paths at the latest. -/
  | stopped (worktree : FileTree α)
  /-- The script gets to its loop; what it does after that with `gh` succeeds, or not. -/
  | finished (worktree : FileTree α) (reported : Bool)

structure Attempt (α : Type) where
  fate : Fate α
  /-- git while the script runs. -/
  scriptGit : Git α
  /-- And in what the workflow does after a failure. -/
  checkpointGit : Git α
  /-- Which of the script's pushes get through. -/
  scriptPush : Nat → Bool
  /-- Which of the workflow's. -/
  checkpointPush : Nat → Bool

/-- The checkout on the runner. The index is the commit that is checked out. -/
structure Checkout (α : Type) where
  head : FileTree α
  worktree : FileTree α
  /-- The branch follows `origin`. -/
  upstream : Bool

section

variable {α : Type}

/-! ### The script, from its loop on -/

/-- The checkout that is left, what the branch holds, and whether the script exits with 0. -/
def runScript (git : Git α) (start : FileTree α) (remote : Option (FileTree α)) (worktree : FileTree α)
    (reported : Bool) (push : Nat → Bool) : Checkout α × Option (FileTree α) × Bool :=
  let worktree := removeLock git start (protectedPathLoop git start worktree)
  if git.status start worktree = [] then (⟨start, worktree, false⟩, remote, reported)
  else
    let commit := commitTree git start worktree
    if retryCmd 4 push then (⟨commit, worktree, true⟩, some commit, reported)
    else (⟨commit, worktree, false⟩, remote, false)

/-! ### What the workflow does after a failure -/

def checkpointLoop (git : Git α) (start head worktree : FileTree α) : FileTree α :=
  discardAll git (git.catFile start) (readPaths git head worktree) worktree

/-- A lockfile that the start does not list is removed. -/
def removeNewLock (start worktree : FileTree α) : FileTree α :=
  if uvLock ∈ start.paths then worktree else worktree.filter fun p => p ≠ uvLock

/-- The working tree that is left to be committed. -/
def stripped (git : Git α) (start : FileTree α) (checkout : Checkout α) : FileTree α :=
  removeNewLock start (checkpointLoop git start checkout.head checkout.worktree)

/-- What the branch holds after the workflow has saved what the script left. -/
def checkpoint (git : Git α) (start : FileTree α) (remote : Option (FileTree α)) (checkout : Checkout α)
    (push : Nat → Bool) : Option (FileTree α) :=
  if checkout.upstream then remote
  else if git.status checkout.head (stripped git start checkout) = [] then remote
  else if retryCmd 4 push then some (commitTree git checkout.head (stripped git start checkout))
  else remote

/-! ### Attempts -/

/-- The restored checkpoint, or the commit of the workflow. -/
def startOf (base : FileTree α) (remote : Option (FileTree α)) : FileTree α := remote.getD base

/-- What the branch holds after an attempt. -/
def attempt (base : FileTree α) (remote : Option (FileTree α)) (a : Attempt α) : Option (FileTree α) :=
  let start := startOf base remote
  match a.fate with
  | .lost => remote
  | .stopped worktree => checkpoint a.checkpointGit start remote ⟨start, worktree, false⟩ a.checkpointPush
  | .finished worktree reported =>
      match runScript a.scriptGit start remote worktree reported a.scriptPush with
      | (_, remote, true) => remote
      | (checkout, remote, false) => checkpoint a.checkpointGit start remote checkout a.checkpointPush

/-- What the branch holds after the attempts of a run. -/
def branchAfter (base : FileTree α) (attempts : List (Attempt α)) : Option (FileTree α) :=
  attempts.foldl (attempt base) none

/-- What the next attempt starts from. -/
def startAfter (base : FileTree α) (attempts : List (Attempt α)) : FileTree α :=
  startOf base (branchAfter base attempts)

end

/-! ### The pushes -/

theorem retryFrom_iff {succeeds : Nat → Bool} {tries attempt : Nat} :
    retryFrom succeeds tries attempt = true ↔ ∃ i, attempt ≤ i ∧ i < attempt + tries ∧ succeeds i = true := by
  induction tries generalizing attempt with
  | zero =>
      rw [retryFrom]
      constructor
      · intro h
        cases h
      · rintro ⟨i, le, lt, -⟩
        omega
  | succ more ih =>
      rw [retryFrom, Bool.or_eq_true, ih]
      constructor
      · rintro (now | ⟨i, le, lt, later⟩)
        · exact ⟨attempt, le_rfl, by omega, now⟩
        · exact ⟨i, by omega, by omega, later⟩
      · rintro ⟨i, le, lt, succeeded⟩
        rcases Nat.eq_or_lt_of_le le with rfl | later
        · exact Or.inl succeeded
        · exact Or.inr ⟨i, later, by omega, succeeded⟩

/-- A command that is retried succeeds when one of the tries does. -/
theorem retryCmd_iff {succeeds : Nat → Bool} {tries : Nat} :
    retryCmd tries succeeds = true ↔ ∃ i, 1 ≤ i ∧ i ≤ tries ∧ succeeds i = true := by
  rw [retryCmd, retryFrom_iff]
  simp only [Nat.lt_one_add_iff]

end CnPropertyAgent.ClaudeTask
