import Mathlib.Tactic.Common

/-!
Checks in a fixed order, the first of which to fail decides.

`Decides` says of a computation that it takes the branch of the first failing gate, and
the last branch where none fails. It is proved gate by gate along the code, and read
in closed form: `AllHold` for the last branch and `FirstFailing` for the others.
-/

namespace Decision

variable {ρ : Type}

/-- The conditions in the order they are checked, each with what its failure means. -/
abbrev Gates (ρ : Type) := List (ρ × Prop)

def AllHold (gates : Gates ρ) : Prop := ∀ gate ∈ gates, gate.2

/-- The gate is the first that fails. -/
def FirstFailing : Gates ρ → ρ → Prop
  | [], _ => False
  | (reason, holds) :: rest, failed => (¬ holds ∧ reason = failed) ∨ (holds ∧ FirstFailing rest failed)

/-- The computation fails at the first gate that fails, and passes where none does. -/
def Decides (passes : Prop) (fails : ρ → Prop) : Gates ρ → Prop
  | [] => passes
  | (reason, holds) :: rest => (¬ holds ∧ fails reason) ∨ (holds ∧ Decides passes fails rest)

section

variable {gates gates' : Gates ρ} {passes passes' : Prop} {fails fails' : ρ → Prop} {reason : ρ}

@[simp] theorem allHold_nil : AllHold ([] : Gates ρ) := by simp [AllHold]

@[simp] theorem allHold_cons {holds : Prop} :
    AllHold ((reason, holds) :: gates) ↔ holds ∧ AllHold gates := by
  simp [AllHold]

/-- The first failing gate stands behind gates that all hold. -/
theorem firstFailing_iff : FirstFailing gates reason ↔
    ∃ before holds after, gates = before ++ (reason, holds) :: after ∧ AllHold before ∧ ¬ holds := by
  induction gates with
  | nil => simp [FirstFailing]
  | cons gate rest ih =>
      obtain ⟨first, holds⟩ := gate
      rw [FirstFailing, ih]
      constructor
      · rintro (⟨refused, rfl⟩ | ⟨passed, before, later, after, rfl, all, refused⟩)
        · exact ⟨[], holds, rest, rfl, allHold_nil, refused⟩
        · exact ⟨(first, holds) :: before, later, after, rfl, allHold_cons.mpr ⟨passed, all⟩, refused⟩
      · rintro ⟨before, later, after, split, all, refused⟩
        cases before with
        | nil =>
            cases split
            exact Or.inl ⟨refused, rfl⟩
        | cons gate before =>
            cases split
            obtain ⟨passed, all⟩ := allHold_cons.mp all
            exact Or.inr ⟨passed, before, later, after, rfl, all, refused⟩

theorem not_allHold_of_firstFailing (h : FirstFailing gates reason) : ¬ AllHold gates := by
  obtain ⟨before, holds, after, rfl, -, refused⟩ := firstFailing_iff.mp h
  intro all
  exact refused (all (reason, holds) (by simp))

/-- **The verdict.** All gates hold and the computation passes, or it fails at the first
that does not. -/
theorem Decides.cases (h : Decides passes fails gates) :
    (AllHold gates ∧ passes) ∨ ∃ reason, FirstFailing gates reason ∧ fails reason := by
  induction gates with
  | nil => exact Or.inl ⟨allHold_nil, h⟩
  | cons gate rest ih =>
      rcases h with ⟨refused, failed⟩ | ⟨passed, h⟩
      · exact Or.inr ⟨gate.1, Or.inl ⟨refused, rfl⟩, failed⟩
      · rcases ih h with ⟨all, done⟩ | ⟨reason, first, failed⟩
        · exact Or.inl ⟨allHold_cons.mpr ⟨passed, all⟩, done⟩
        · exact Or.inr ⟨reason, Or.inr ⟨passed, first⟩, failed⟩

/-- **Composition.** Where the first gates pass on to a computation that the further gates
decide, all of them decide. -/
theorem Decides.append (h : Decides passes fails gates) (weaker : ∀ reason, fails reason → fails' reason)
    (next : passes → Decides passes' fails' gates') : Decides passes' fails' (gates ++ gates') := by
  induction gates with
  | nil => exact next h
  | cons gate rest ih =>
      rcases h with ⟨refused, failed⟩ | ⟨passed, h⟩
      · exact Or.inl ⟨refused, weaker gate.1 failed⟩
      · exact Or.inr ⟨passed, ih h⟩

/-- Two lists of gates are one when each gate means the same behind those ahead of it. -/
def Equivalent : Gates ρ → Gates ρ → Prop
  | [], [] => True
  | (reason, holds) :: rest, (reason', holds') :: rest' =>
      reason = reason' ∧ (holds ↔ holds') ∧ (holds → Equivalent rest rest')
  | _, _ => False

/-- Gates that mean the same decide the same. -/
theorem Decides.congr (h : Decides passes fails gates) (same : Equivalent gates gates') :
    Decides passes fails gates' := by
  induction gates generalizing gates' with
  | nil =>
      cases gates' with
      | nil => exact h
      | cons gate' rest' => cases same
  | cons gate rest ih =>
      cases gates' with
      | nil => cases same
      | cons gate' rest' =>
          obtain ⟨reason, holds, later⟩ := same
          rcases h with ⟨refused, failed⟩ | ⟨passed, h⟩
          · exact Or.inl ⟨fun passed' => refused (holds.mpr passed'), reason ▸ failed⟩
          · exact Or.inr ⟨holds.mp passed, ih h (later passed)⟩

end

end Decision
