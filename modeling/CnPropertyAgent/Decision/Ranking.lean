import CnPropertyAgent.Relational.Query
import Mathlib.Algebra.Order.Group.Defs
import Mathlib.Algebra.Order.Group.Unbundled.Basic

/-!
Candidates ranked by a score, ties broken by an identifier.

A rule that compares only the first two of a ranking decides against all: whoever leads
the second leads everyone by as much. Candidates with distinct identifiers are ranked
alike in whatever order they are given.
-/

namespace Decision

open Relational

variable {α σ ι : Type} [AddCommGroup σ] [LinearOrder σ] [LinearOrder ι]
  {score : α → σ} {id : α → ι} {xs : List α}

/-- The sort key: the greatest score first, then the least identifier. -/
def rankOrder (score : α → σ) (id : α → ι) (x : α) : σ ×ₗ ι := toLex (-score x, id x)

def ranked (score : α → σ) (id : α → ι) (xs : List α) : List α := orderBy (rankOrder score id) xs

@[simp] theorem mem_ranked {x : α} : x ∈ ranked score id xs ↔ x ∈ xs := mem_orderBy

theorem perm_ranked (score : α → σ) (id : α → ι) (xs : List α) : (ranked score id xs).Perm xs :=
  perm_orderBy _ xs

variable (score) in
/-- The ranking forgets the order of its argument. -/
theorem ranked_congr {ys : List α} (perm : xs.Perm ys) (nodup : (xs.map id).Nodup) :
    ranked score id xs = ranked score id ys := by
  have keys {zs : List α} (distinct : (zs.map id).Nodup) : (zs.map (rankOrder score id)).Nodup := by
    apply List.Nodup.of_map fun key => (ofLex key).2
    rwa [List.map_map]
  apply orderBy_congr (keys nodup) (keys ((perm.map id).nodup_iff.mp nodup))
  intro x
  exact perm.mem_iff

variable [IsOrderedAddMonoid σ]

/-- Scores fall along the ranking. -/
theorem pairwise_ranked (score : α → σ) (id : α → ι) (xs : List α) :
    (ranked score id xs).Pairwise fun a b => score b ≤ score a := by
  apply (pairwise_orderBy (rankOrder score id) xs).imp
  intro a b le
  rw [rankOrder, rankOrder, Prod.Lex.toLex_le_toLex] at le
  rcases le with lt | ⟨same, -⟩
  · exact (neg_lt_neg_iff.mp lt).le
  · exact (neg_injective same).ge

/-- Who leads everyone is ranked first. -/
theorem ranked_eq_cons_of_leads (id : α → ι) {x : α} (mem : x ∈ xs)
    (leads : ∀ y ∈ xs, y ≠ x → score y < score x) :
    ∃ rest, ranked score id xs = x :: rest := by
  cases h : ranked score id xs with
  | nil =>
      have listed : x ∈ ranked score id xs := mem_ranked.mpr mem
      rw [h] at listed
      cases listed
  | cons best rest =>
      have sorted := pairwise_ranked score id xs
      have listed : x ∈ ranked score id xs := mem_ranked.mpr mem
      rw [h] at sorted listed
      have first : best ∈ ranked score id xs := h ▸ List.mem_cons_self
      have ranks : best ∈ xs := mem_ranked.mp first
      rcases List.mem_cons.mp listed with rfl | behind
      · exact ⟨rest, rfl⟩
      · by_cases same : best = x
        · exact ⟨rest, by rw [same]⟩
        · exact absurd ((List.pairwise_cons.mp sorted).1 x behind) (not_le.mpr (leads best ranks same))

/-- No one behind the first has a greater score than the second. -/
theorem score_le_second {best second : α} {rest : List α}
    (h : ranked score id xs = best :: second :: rest) {x : α} (mem : x ∈ xs) (other : x ≠ best) :
    score x ≤ score second := by
  have sorted := pairwise_ranked score id xs
  have listed : x ∈ ranked score id xs := mem_ranked.mpr mem
  rw [h] at sorted listed
  rcases List.mem_cons.mp listed with rfl | behind
  · exact absurd rfl other
  rcases List.mem_cons.mp behind with rfl | last
  · exact le_rfl
  · exact List.rel_of_pairwise_cons (List.pairwise_cons.mp sorted).2 last

/-- **The lead.** Who leads the second by a margin leads everyone by it. -/
theorem leads_all {best second : α} {rest : List α} {margin : σ}
    (h : ranked score id xs = best :: second :: rest) (lead : margin ≤ score best - score second) {x : α}
    (mem : x ∈ xs) (other : x ≠ best) : margin ≤ score best - score x :=
  lead.trans (sub_le_sub_left (score_le_second h mem other) _)

end Decision
