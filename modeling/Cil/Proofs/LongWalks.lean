import Mathlib.Data.List.Perm.Subperm
import Mathlib.Logic.Relation

/-!
# Long walks

A walk that takes more steps than there are places to step from comes back to where it was.
-/

namespace Cil

open Relation

variable {α : Type} {edge : α → α → Prop}

/-- A walk along the edges takes a number of steps. -/
def Walks (edge : α → α → Prop) : (steps : Nat) → α → Prop
  | 0, _ => True
  | steps + 1, start => ∃ next, edge start next ∧ Walks edge steps next

/-- The places that a walk steps from, each reached from the ones before. -/
theorem Walks.sources {steps : Nat} {start : α} (walks : Walks edge steps start) :
    ∃ sources : List α, sources.length = steps ∧ sources.Pairwise (TransGen edge) ∧
      ∀ source ∈ sources, ReflTransGen edge start source ∧ ∃ next, edge source next := by
  induction steps generalizing start with
  | zero => exact ⟨[], rfl, .nil, by simp⟩
  | succ steps ih =>
      obtain ⟨next, first, rest⟩ := walks
      obtain ⟨sources, count, ordered, reached⟩ := ih rest
      refine ⟨start :: sources, by simp [count], List.pairwise_cons.mpr ⟨?_, ordered⟩, ?_⟩
      · exact fun source member => .head' first (reached source member).1
      · refine List.forall_mem_cons.mpr ⟨⟨.refl, next, first⟩, fun source member => ?_⟩
        exact ⟨.head first (reached source member).1, (reached source member).2⟩

/-- What leads to a cycle leads on for ever. -/
theorem walks_of_cycle {value : α} (cycle : TransGen edge value value) (steps : Nat) {start : α}
    (leads : TransGen edge start value) : Walks edge steps start := by
  induction steps generalizing start with
  | zero => trivial
  | succ steps ih =>
      obtain ⟨next, first, rest⟩ := TransGen.head'_iff.mp leads
      rcases reflTransGen_iff_eq_or_transGen.mp rest with rfl | further
      · exact ⟨_, first, ih cycle⟩
      · exact ⟨next, first, ih further⟩

section Places

variable {place : α → Nat} {bound : Nat} {start : α}
  (inside : ∀ source next, edge source next → place source < bound)
  (apart : ∀ source next other after, edge source next → edge other after →
    place source = place other → source = other)

include inside apart

/-- A walk that is longer than the number of places comes to a cycle. -/
theorem cycle_of_walks (walks : Walks edge (bound + 1) start) :
    ∃ value, ReflTransGen edge start value ∧ TransGen edge value value := by
  obtain ⟨sources, count, ordered, reached⟩ := walks.sources
  refine Classical.byContradiction fun acyclic => ?_
  have distinct : (sources.map place).Nodup := by
    refine List.pairwise_map.mpr
      (ordered.imp_of_mem fun {source other} here there later same => ?_)
    obtain ⟨next, first⟩ := (reached source here).2
    obtain ⟨after, second⟩ := (reached other there).2
    obtain rfl := apart source next other after first second same
    exact acyclic ⟨source, (reached source here).1, later⟩
  have within : sources.map place ⊆ List.range bound := by
    intro index member
    obtain ⟨source, here, rfl⟩ := List.mem_map.mp member
    obtain ⟨next, first⟩ := (reached source here).2
    exact List.mem_range.mpr (inside source next first)
  have few := (List.subperm_of_subset distinct within).length_le
  rw [List.length_map, List.length_range, count] at few
  omega

/-- A walk that is longer than the number of places can go on for ever. -/
theorem endless_of_walks (walks : Walks edge (bound + 1) start) (steps : Nat) :
    Walks edge steps start := by
  obtain ⟨value, reached, cycle⟩ := cycle_of_walks inside apart walks
  exact walks_of_cycle cycle steps (.trans_right reached cycle)

end Places

end Cil
