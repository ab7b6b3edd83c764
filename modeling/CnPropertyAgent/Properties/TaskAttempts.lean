import CnPropertyAgent.Properties.TrustBoundary
import CnPropertyAgent.Scripts.ClaudeTask

/-!
The attempts of a task, over a whole workflow run.

What one attempt pushes is what the next one starts from, so a change at a protected path
that is missed once stays. The protected paths stay as they are as long as every attempt that
pushes catches its own changes. A commit that the script makes and cannot push is never pushed
by the workflow, which finds nothing changed since.
-/

namespace CnPropertyAgent

open Git RunClaudeTask

namespace ClaudeTask

variable {α : Type} {git : Git α} {start worktree : FileTree α} {p : PathName} {a : Attempt α}

/-! ### The loop of the workflow -/

/-- What the last pass that does something at a path leaves there. -/
def lastCheckpointPass (git : Git α) (start worktree : FileTree α) : PathName → Option (Option α) :=
  lastLeft git (git.catFile start) (readPaths git start worktree)

/-- The working tree from which the checkpoint is made. -/
def saved (git : Git α) (start worktree : FileTree α) (p : PathName) : Option α :=
  if p = uvLock ∧ uvLock ∉ start.paths then none
  else (lastCheckpointPass git start worktree p).getD (worktree.get? p)

theorem get?_removeNewLock : (removeNewLock start worktree).get? p =
    if p = uvLock ∧ uvLock ∉ start.paths then none else worktree.get? p := by
  unfold removeNewLock
  by_cases locked : uvLock ∈ start.paths
  · rw [if_pos locked, if_neg fun h => h.2 locked]
  · rw [if_neg locked, FileTree.get?_filter]
    by_cases lock : p = uvLock <;> simp [lock, locked]

theorem get?_stripped (git : Git α) (start worktree : FileTree α) :
    (stripped git start ⟨start, worktree, false⟩).get? = saved git start worktree := by
  funext p
  rw [stripped, get?_removeNewLock, saved, checkpointLoop, get?_discardAll]
  rfl

theorem saved_of_protected (protect : Protected p) :
    saved git start worktree p = (lastCheckpointPass git start worktree p).getD (worktree.get? p) := by
  apply if_neg
  rintro ⟨rfl, -⟩
  exact not_protected_uvLock protect

/-! ### What an attempt pushes -/

/-- What an attempt pushes when a push gets through: the script's commit, or the checkpoint of what
the script left where it stopped. -/
inductive Publishes (start : FileTree α) (a : Attempt α) : FileTree α → Prop where
  | commit {worktree : FileTree α} {reported : Bool} (fate : a.fate = .finished worktree reported)
      (pushed : retryCmd 4 a.scriptPush = true) :
      Publishes start a (commitTree a.scriptGit start
        (removeLock a.scriptGit start (protectedPathLoop a.scriptGit start worktree)))
  | checkpoint {worktree : FileTree α} (fate : a.fate = .stopped worktree)
      (pushed : retryCmd 4 a.checkpointPush = true) :
      Publishes start a (commitTree a.checkpointGit start
        (stripped a.checkpointGit start ⟨start, worktree, false⟩))

/-- The attempt pushes if it has anything to push. -/
def Pushes (a : Attempt α) : Prop :=
  match a.fate with
  | .lost => False
  | .stopped _ => retryCmd 4 a.checkpointPush = true
  | .finished _ _ => retryCmd 4 a.scriptPush = true

theorem exists_publishes_iff : (∃ tree, Publishes start a tree) ↔ Pushes a := by
  constructor
  · rintro ⟨tree, ⟨fate, pushed⟩ | ⟨fate, pushed⟩⟩
    · rw [Pushes, fate]
      exact pushed
    · rw [Pushes, fate]
      exact pushed
  · intro pushes
    unfold Pushes at pushes
    split at pushes
    · exact pushes.elim
    · exact ⟨_, .checkpoint (by assumption) pushes⟩
    · exact ⟨_, .commit (by assumption) pushes⟩

/-- Each change at a protected path is caught. -/
def Caught (start : FileTree α) (a : Attempt α) : Prop :=
  match a.fate with
  | .lost => True
  | .finished worktree _ => Guarded a.scriptGit start worktree
  | .stopped worktree => Catches a.checkpointGit start worktree
      (lastCheckpointPass a.checkpointGit start worktree) (saved a.checkpointGit start worktree)

/-- What is pushed has the protected paths of the start exactly when the changes are caught. -/
theorem Publishes.kept_iff {tree : FileTree α} (publishes : Publishes start a tree) :
    (∀ p, Protected p → tree.get? p = start.get? p) ↔ Caught start a := by
  cases publishes with
  | @commit worktree reported fate pushed =>
      rw [Caught, fate]
      simp only [get?_commitTree, get?_removeLock]
      exact catches_iff fun p protect => settled_of_protected protect
  | @checkpoint worktree fate pushed =>
      rw [Caught, fate]
      simp only [get?_commitTree, get?_stripped]
      exact catches_iff fun p protect => saved_of_protected protect

/-! ### What an attempt leaves on the branch -/

/-- In an attempt from the start, git lists whatever there is to record, in the script and in the
workflow, and nothing right after everything is recorded. What it tracks as `uv.lock` is a file. -/
structure Lists (start : FileTree α) (a : Attempt α) : Prop where
  script : ∀ worktree, a.scriptGit.status start worktree = [] →
    ∀ p, staged a.scriptGit start worktree.get? p = start.get? p
  checkpoint : ∀ worktree, a.checkpointGit.status start worktree = [] →
    ∀ p, staged a.checkpointGit start worktree.get? p = start.get? p
  still : ∀ worktree, a.scriptGit.status start worktree = [] → a.checkpointGit.status start worktree = []
  recorded : ∀ worktree, a.checkpointGit.status (commitTree a.scriptGit start worktree) worktree = []
  lock : a.scriptGit.lsFiles start uvLock = true → uvLock ∈ start.paths

theorem Lists.removeNewLock_removeLock (lists : Lists start a) (worktree : FileTree α) :
    removeNewLock start (removeLock a.scriptGit start worktree) = removeLock a.scriptGit start worktree := by
  unfold removeNewLock
  split_ifs with known
  · rfl
  · rw [removeLock, if_neg fun locked => known (lists.lock locked), FileTree.filter_filter_self]

/-- Where nothing is listed, the workflow finds nothing to save. -/
theorem checkpoint_of_clean {head : FileTree α} {remote : Option (FileTree α)} (lists : Lists start a)
    (clean : a.checkpointGit.status head (removeLock a.scriptGit start worktree) = []) (push : Nat → Bool) :
    checkpoint a.checkpointGit start remote ⟨head, removeLock a.scriptGit start worktree, false⟩ push = remote := by
  have unread : readPaths a.checkpointGit head (removeLock a.scriptGit start worktree) = [] := by
    rw [readPaths, clean, List.map_nil]
  have left : stripped a.checkpointGit start ⟨head, removeLock a.scriptGit start worktree, false⟩ =
      removeLock a.scriptGit start worktree := by
    rw [stripped, checkpointLoop, unread]
    exact lists.removeNewLock_removeLock worktree
  rw [checkpoint, if_neg Bool.false_ne_true, left, if_pos clean]

variable {base : FileTree α} {remote : Option (FileTree α)}

/-- A commit that the script cannot push stays on the runner. -/
theorem attempt_unpushed {reported : Bool} (lists : Lists (startOf base remote) a)
    (fate : a.fate = .finished worktree reported) (failed : retryCmd 4 a.scriptPush = false) :
    attempt base remote a = remote := by
  rw [attempt, fate]
  dsimp only
  rw [runScript]
  split_ifs with clean
  · cases reported with
    | true => rfl
    | false => exact checkpoint_of_clean lists (lists.still _ clean) _
  · rename_i pushed
    cases pushed.symm.trans failed
  · exact checkpoint_of_clean lists (lists.recorded _) _

/-- What an attempt publishes is what the next one starts from. -/
theorem start_attempt (lists : Lists (startOf base remote) a) {tree : FileTree α}
    (publishes : Publishes (startOf base remote) a tree) :
    (startOf base (attempt base remote a)).get? = tree.get? := by
  funext p
  cases publishes with
  | @commit worktree reported fate pushed =>
      rw [attempt, fate]
      dsimp only
      rw [runScript]
      by_cases clean : a.scriptGit.status (startOf base remote) (removeLock a.scriptGit (startOf base remote)
          (protectedPathLoop a.scriptGit (startOf base remote) worktree)) = []
      · have same := lists.script _ clean p
        rw [if_pos clean, get?_commitTree, same]
        cases reported with
        | true => rfl
        | false =>
            exact congrArg (fun branch => (startOf base branch).get? p)
              (checkpoint_of_clean lists (lists.still _ clean) a.checkpointPush)
      · rw [if_neg clean, if_pos pushed]
        cases reported with
        | true => rfl
        | false => rfl
  | @checkpoint worktree fate pushed =>
      rw [attempt, fate]
      dsimp only
      rw [checkpoint, if_neg Bool.false_ne_true]
      split_ifs with clean
      · have same := lists.checkpoint _ clean p
        rw [get?_commitTree]
        exact same.symm
      · rfl

/-- An attempt that pushes nothing leaves the branch. -/
theorem attempt_eq_of_not_pushes (lists : Lists (startOf base remote) a) (idle : ¬ Pushes a) :
    attempt base remote a = remote := by
  cases fate : a.fate with
  | lost => rw [attempt, fate]
  | stopped worktree =>
      rw [Pushes, fate] at idle
      rw [attempt, fate]
      dsimp only
      rw [checkpoint, if_neg Bool.false_ne_true, if_neg idle, ite_self]
  | finished worktree reported =>
      rw [Pushes, fate] at idle
      exact attempt_unpushed lists fate (Bool.eq_false_iff.mpr idle)

/-! ### Runs -/

theorem startAfter_append (base : FileTree α) (done : List (Attempt α)) (a : Attempt α) :
    startAfter base (done ++ [a]) = startOf base (attempt base (branchAfter base done) a) := by
  rw [startAfter, branchAfter, List.foldl_append]
  rfl

/-- The protected paths are those of the base commit. -/
def Intact (base tree : FileTree α) : Prop := ∀ p, Protected p → tree.get? p = base.get? p

/-- From an intact start, an attempt leaves an intact one unless it pushes what it did not catch. -/
theorem intact_append_iff {done : List (Attempt α)} (lists : Lists (startAfter base done) a)
    (intact : Intact base (startAfter base done)) :
    Intact base (startAfter base (done ++ [a])) ↔ (Pushes a → Caught (startAfter base done) a) := by
  rw [startAfter_append]
  by_cases pushes : Pushes a
  · obtain ⟨tree, publishes⟩ : ∃ tree, Publishes (startAfter base done) a tree :=
      exists_publishes_iff.mpr pushes
    have kept := publishes.kept_iff
    have next := start_attempt lists publishes
    refine Iff.trans ?_ (kept.trans ⟨fun caught _ => caught, fun caught => caught pushes⟩)
    unfold Intact
    rw [next]
    exact forall₂_congr fun p protect => by rw [intact p protect]
  · rw [attempt_eq_of_not_pushes lists pushes]
    exact ⟨fun _ pushed => absurd pushed pushes, fun _ => intact⟩

end ClaudeTask

open ClaudeTask

/-- **Attempts.** Where git lists whatever there is to record, and nothing right after it is recorded,
every attempt of a run starts from the base commit's protected paths exactly when every attempt
that pushes has caught its changes there; and a commit of the script, all four of whose pushes
fail, is lost. -/
theorem task_attempts {α : Type} (base : FileTree α) (attempts : List (Attempt α))
    (lists : ∀ done a rest, attempts = done ++ a :: rest → Lists (startAfter base done) a) :
    ((∀ done, done <+: attempts → Intact base (startAfter base done)) ↔
      ∀ done a rest, attempts = done ++ a :: rest → Pushes a → Caught (startAfter base done) a) ∧
    ∀ done a rest worktree reported, attempts = done ++ a :: rest → a.fate = .finished worktree reported →
      (∀ i, 1 ≤ i → i ≤ 4 → a.scriptPush i = false) →
      branchAfter base (done ++ [a]) = branchAfter base done := by
  refine ⟨⟨?_, ?_⟩, ?_⟩
  · rintro intact done a rest rfl pushes
    have next : done ++ [a] <+: done ++ a :: rest := ⟨rest, by rw [List.append_assoc, List.singleton_append]⟩
    have before : done <+: done ++ a :: rest := List.prefix_append _ _
    exact (intact_append_iff (lists done a rest rfl) (intact done before)).mp (intact _ next) pushes
  · intro caught done initial
    induction done using List.reverseRecOn with
    | nil => exact fun p _ => rfl
    | append_singleton done a ih =>
        obtain ⟨rest, rfl⟩ := initial
        have split : done ++ [a] ++ rest = done ++ a :: rest := by
          rw [List.append_assoc, List.singleton_append]
        have before : done <+: done ++ [a] ++ rest := split ▸ List.prefix_append _ _
        exact (intact_append_iff (lists done a rest split) (ih before)).mpr (caught done a rest split)
  · intro done a rest worktree reported split fate failed
    rw [branchAfter, List.foldl_append]
    refine attempt_unpushed (lists done a rest split) fate ?_
    rw [Bool.eq_false_iff, Ne, retryCmd_iff]
    rintro ⟨i, le, le', pushed⟩
    cases pushed.symm.trans (failed i le le')

namespace ClaudeTask

/-! ### Attempts over plain trees -/

variable {source head worktree : FileTree Bytes}

theorem plainStatus_eq_nil_iff : plainStatus head worktree = [] ↔
    (∀ p ∈ head.paths, worktree.get? p = head.get? p) ∧
      ∀ p ∈ worktree.paths, p ∉ head.paths → (∀ q ∈ head.paths, ¬ Inside p q) →
        ignoredBy worktree.get? p = true := by
  simp only [plainStatus, List.append_eq_nil_iff, List.map_eq_nil_iff, List.dedup_eq_nil, List.filter_eq_nil_iff]
  simp

/-- Where nothing is listed, everything is recorded as it was. -/
theorem staged_of_plainStatus (clean : plainStatus head worktree = []) (p : PathName) :
    staged (plainGit source) head worktree.get? p = head.get? p := by
  obtain ⟨same, seen⟩ := plainStatus_eq_nil_iff.mp clean
  by_cases tracked : p ∈ head.paths
  · rw [staged_of_tracked tracked, same p tracked]
    exact Option.map_id'
  · rw [FileTree.get?_eq_none_iff.mpr tracked, staged]
    by_cases mem : p ∈ worktree.paths
    · -- A directory above it would stand in the place of a tracked file, which would be listed.
      have apart : ∀ q ∈ head.paths, ¬ Inside p q := by
        intro q hq inside
        have there : q ∈ worktree.paths := by
          rw [FileTree.mem_paths_iff, same q hq]
          exact FileTree.mem_paths_iff.mp hq
        exact worktree.apart p mem q there inside
      exact if_pos ⟨tracked, seen p mem tracked apart⟩
    · rw [FileTree.get?_eq_none_iff.mpr mem, Option.map_none, ite_self]

/-- Right after everything is recorded, nothing is listed. -/
theorem plainStatus_commitTree (source head worktree : FileTree Bytes) :
    plainStatus (commitTree (plainGit source) head worktree) worktree = [] := by
  rw [plainStatus_eq_nil_iff]
  constructor
  · intro p recorded
    obtain ⟨a, found⟩ := FileTree.mem_paths_iff.mp recorded
    rw [found]
    rw [get?_commitTree, staged] at found
    split_ifs at found
    exact Option.map_id'.symm.trans found
  · intro p mem unrecorded _
    obtain ⟨a, found⟩ := FileTree.mem_paths_iff.mp mem
    rw [← FileTree.get?_eq_none_iff, get?_commitTree, staged] at unrecorded
    split_ifs at unrecorded with hidden
    · exact hidden.2
    · rw [found] at unrecorded
      cases unrecorded

theorem lists_of_plain {start : FileTree Bytes} {a : Attempt Bytes} {source' : FileTree Bytes}
    (script : a.scriptGit = plainGit source) (checkpoint : a.checkpointGit = plainGit source')
    (lock : a.scriptGit.lsFiles start uvLock = true → uvLock ∈ start.paths) : Lists start a where
  script worktree clean := by
    rw [script] at clean ⊢
    exact staged_of_plainStatus clean
  checkpoint worktree clean := by
    rw [checkpoint] at clean ⊢
    exact staged_of_plainStatus clean
  still worktree clean := by
    rw [script] at clean
    rwa [checkpoint]
  recorded worktree := by
    rw [script, checkpoint]
    exact plainStatus_commitTree source start worktree
  lock := lock

theorem intact_of_paths {base tree : FileTree Bytes}
    (same : ∀ p ∈ base.paths ++ tree.paths, Protected p → tree.get? p = base.get? p) : Intact base tree := by
  intro p protect
  by_cases mem : p ∈ base.paths ++ tree.paths
  · exact same p mem protect
  · obtain ⟨new, absent⟩ := not_or.mp (mt List.mem_append.mpr mem)
    rw [FileTree.get?_eq_none_iff.mpr new, FileTree.get?_eq_none_iff.mpr absent]

def sampleBase : FileTree Bytes :=
  FileTree.empty.writeAll [(ascii "AGENTS.md", ascii "rules"), (ascii "src/a.py", ascii "old")]

/-- Stops with a change at a protected path, and is saved at the second try. -/
def savedAttempt : Attempt Bytes where
  fate := .stopped (FileTree.empty.writeAll [(ascii "AGENTS.md", ascii "none"), (ascii "src/a.py", ascii "new")])
  scriptGit := plainGit sampleBase
  checkpointGit := plainGit sampleBase
  scriptPush _ := false
  checkpointPush i := i = 2

/-- Finishes, and cannot push. -/
def unpushedAttempt : Attempt Bytes where
  fate := .finished (FileTree.empty.writeAll [(ascii "AGENTS.md", ascii "rules"), (ascii "src/b.py", ascii "new")])
    true
  scriptGit := plainGit sampleBase
  checkpointGit := plainGit sampleBase
  scriptPush i := i = 5
  checkpointPush _ := true

theorem sampleAttempts_split {done rest : List (Attempt Bytes)} {a : Attempt Bytes}
    (split : [savedAttempt, unpushedAttempt] = done ++ a :: rest) :
    done = [] ∧ a = savedAttempt ∨ done = [savedAttempt] ∧ a = unpushedAttempt := by
  match done with
  | [] =>
      obtain ⟨rfl, -⟩ := List.cons.inj split
      exact Or.inl ⟨rfl, rfl⟩
  | [x] =>
      obtain ⟨rfl, tail⟩ := List.cons.inj split
      obtain ⟨rfl, -⟩ := List.cons.inj tail
      exact Or.inr ⟨rfl, rfl⟩
  | x :: y :: more =>
      have length := congrArg List.length split
      simp at length

theorem sampleAttempts_list {done rest : List (Attempt Bytes)} {a : Attempt Bytes}
    (split : [savedAttempt, unpushedAttempt] = done ++ a :: rest) : Lists (startAfter sampleBase done) a := by
  rcases sampleAttempts_split split with ⟨rfl, rfl⟩ | ⟨rfl, rfl⟩
  · exact lists_of_plain rfl rfl (by decide +kernel)
  · exact lists_of_plain rfl rfl (by decide +kernel)

theorem caught_savedAttempt : Caught sampleBase savedAttempt := by
  have publishes : Publishes sampleBase savedAttempt _ := .checkpoint rfl (by decide)
  exact publishes.kept_iff.mp (intact_of_paths (by decide +kernel))

end ClaudeTask

theorem task_attempts_saved : Intact sampleBase (startAfter sampleBase [savedAttempt]) ∧
    branchAfter sampleBase [savedAttempt, unpushedAttempt] = branchAfter sampleBase [savedAttempt] := by
  obtain ⟨runs, lost⟩ := task_attempts sampleBase [savedAttempt, unpushedAttempt]
    fun done a rest split => sampleAttempts_list split
  constructor
  · refine runs.mpr ?_ [savedAttempt] ⟨[unpushedAttempt], rfl⟩
    intro done a rest split pushes
    rcases sampleAttempts_split split with ⟨rfl, rfl⟩ | ⟨rfl, rfl⟩
    · exact caught_savedAttempt
    · cases (show retryCmd 4 unpushedAttempt.scriptPush = true from pushes)
  · refine lost [savedAttempt] unpushedAttempt [] _ _ rfl rfl ?_
    intro i _ le
    exact decide_eq_false (by omega)

end CnPropertyAgent
