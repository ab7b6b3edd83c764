import CnPropertyAgent.Git.Tree
import Mathlib.Data.List.Infix

/-!
The commands by which a script looks at a working tree and changes it.

git itself is open: what it lists, which names it knows, what a restore does, what its ignore
files exclude and what it records of a file are those of one stretch of a run, whatever they
are. Nothing is staged while a script runs, so the index is the commit that is checked out. A
symbolic link is a file like any other, and so is a directory with a repository of its own.
-/

namespace Git

def space : UInt8 := 0x20

def quote : UInt8 := 0x22

def backslash : UInt8 := 0x5C

/-- The name is that of the file or of a directory above it. -/
def Under (r p : Bytes) : Prop := p = r ∨ (if r.getLast? = some slash then r else r ++ [slash]) <+: p

instance (r p : Bytes) : Decidable (Under r p) := inferInstanceAs (Decidable (_ ∨ _))

/-! ### Names in a listing -/

/-- The byte is shown as an escape sequence. -/
def needsEscape (b : UInt8) : Bool := b < 0x20 || b == quote || b == backslash || 0x7F ≤ b

def escapeLetters : List (UInt8 × Bytes) :=
  [(7, ascii "a"), (8, ascii "b"), (9, ascii "t"), (10, ascii "n"), (11, ascii "v"), (12, ascii "f"),
    (13, ascii "r"), (quote, [quote]), (backslash, [backslash])]

/-- `\n` and its like, or three octal digits. -/
def escape (b : UInt8) : Bytes :=
  backslash :: (escapeLetters.lookup b).getD [b / 64 + 0x30, b / 8 % 8 + 0x30, b % 8 + 0x30]

/-- A name that is shown as it is. -/
def Plain (p : PathName) : Prop := ∀ b ∈ p, needsEscape b = false ∧ b ≠ space

instance (p : PathName) : Decidable (Plain p) := inferInstanceAs (Decidable (∀ _ ∈ _, _))

/-- A name as a listing shows it. -/
def quotePath (p : PathName) : Bytes :=
  if Plain p then p
  else quote :: (p.flatMap fun b => if needsEscape b then escape b else [b]) ++ [quote]

/-- A line of `git status --porcelain=v1`: two letters and a name. -/
def statusLine (entry : Bytes × PathName) : Bytes := entry.1 ++ space :: quotePath entry.2

end Git

/-- git over one stretch of a run. -/
structure Git (α : Type) where
  /-- The entries of `git status --porcelain=v1`, by the commit and the working tree. -/
  status : Git.FileTree α → Git.FileTree α → List (Git.Bytes × Git.PathName)
  /-- `git ls-files --error-unmatch` succeeds. -/
  lsFiles : Git.FileTree α → Git.Bytes → Bool
  /-- `git cat-file -e` succeeds for the name in the commit. -/
  catFile : Git.FileTree α → Git.Bytes → Bool
  /-- What the `git restore` of one pass of a loop writes and removes. It may fail, and then do
  nothing or only a part. -/
  restore : Nat → Git.Bytes → List (Git.FileTree.Change α)
  /-- What the ignore files of a working tree exclude. -/
  ignored : (Git.PathName → Option α) → Git.PathName → Bool
  /-- What `git add` records of a file, by the attributes in the working tree. -/
  checkIn : (Git.PathName → Option α) → Git.PathName → α → α

namespace Git

variable {α : Type}

/-- `rm -rf -- r`. -/
def rmRf (worktree : FileTree α) (r : Bytes) : FileTree α := worktree.filter fun p => ¬ Under r p

theorem get?_rmRf (worktree : FileTree α) (r : Bytes) (p : PathName) :
    (rmRf worktree r).get? p = if Under r p then none else worktree.get? p := by
  rw [rmRf, FileTree.get?_filter]
  by_cases under : Under r p <;> simp [under]

/-- What is staged at a path after `git add -A`. -/
def staged (git : Git α) (head : FileTree α) (worktree : PathName → Option α) (p : PathName) : Option α :=
  if p ∉ head.paths ∧ git.ignored worktree p then none else (worktree p).map (git.checkIn worktree p)

theorem staged_of_tracked {git : Git α} {head : FileTree α} {worktree : PathName → Option α} {p : PathName}
    (tracked : p ∈ head.paths) :
    staged git head worktree p = (worktree p).map (git.checkIn worktree p) := if_neg fun h => h.1 tracked

/-- What `git add -A` and `git commit` record. -/
def commitTree (git : Git α) (head worktree : FileTree α) : FileTree α :=
  (worktree.filter fun p => p ∈ head.paths ∨ git.ignored worktree.get? p = false).mapFiles
    (git.checkIn worktree.get?)

theorem get?_commitTree (git : Git α) (head worktree : FileTree α) (p : PathName) :
    (commitTree git head worktree).get? p = staged git head worktree.get? p := by
  rw [commitTree, FileTree.get?_mapFiles, FileTree.get?_filter, staged]
  by_cases tracked : p ∈ head.paths
  · simp [tracked]
  · cases git.ignored worktree.get? p <;> simp [tracked]

end Git
