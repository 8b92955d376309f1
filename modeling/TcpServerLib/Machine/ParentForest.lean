import Mathlib.Logic.Function.Basic
import Mathlib.Logic.Relation
import Mathlib.Tactic.Common

/-! # Forests given by parents

Nodes that know their parents form a forest if there is a depth that grows by one from a parent to its child.
A node may be hung below another one that is not below it already: all that is below the node moves along.
-/

namespace TcpServerLib.Machine

variable {ι : Type*} {parent : ι → Option ι} {depth : ι → ℕ} {p q node : ι}

/-- From `p` one gets to `q` by going from a node to its parent. -/
def Climbs (parent : ι → Option ι) : ι → ι → Prop :=
  Relation.ReflTransGen fun p q => parent p = some q

/-- The depth of a child is one more than that of its parent. -/
def Measures (parent : ι → Option ι) (depth : ι → ℕ) : Prop :=
  ∀ {p q}, parent p = some q → depth p = depth q + 1

def IsForest (parent : ι → Option ι) : Prop :=
  ∃ depth, Measures parent depth

theorem Climbs.depth_le (climbs : Climbs parent p q) (measures : Measures parent depth) :
    depth q ≤ depth p := by
  induction climbs with
  | refl => apply Nat.le_refl
  | tail _ step ih =>
    have above := measures step
    omega

/-- Any way up begins at the parent. -/
theorem climbs_iff_of_ne (child : parent p = some q) (other : p ≠ node) : Climbs parent p node ↔
    Climbs parent q node := by
  constructor
  · intro climbs
    rcases Relation.ReflTransGen.cases_head climbs with same | ⟨middle, first, rest⟩
    · exact absurd same other
    · rw [child] at first
      cases first
      exact rest
  · intro climbs
    exact .head child climbs

/-- What no node has for a parent is met on no way up but its own. -/
theorem not_climbs_of_childless (childless : ∀ p, parent p ≠ some node) (other : p ≠ node) :
    ¬ Climbs parent p node := by
  intro climbs
  rcases Relation.ReflTransGen.cases_tail climbs with same | ⟨middle, _, last⟩
  · exact other same.symm
  · exact childless middle last

open scoped Classical in
theorem IsForest.hang [DecidableEq ι] (forest : IsForest parent) (apart : ¬ Climbs parent p node) :
    IsForest (Function.update parent node (some p)) := by
  obtain ⟨depth, measures⟩ := forest
  refine ⟨fun x => if Climbs parent x node then depth x - depth node + (depth p + 1) else depth x, ?_⟩
  intro x y child
  dsimp only
  by_cases moved : x = node
  · subst moved
    rw [Function.update_self] at child
    cases child
    rw [if_pos .refl, if_neg apart]
    omega
  · rw [Function.update_of_ne moved] at child
    have same := climbs_iff_of_ne child moved
    have step := measures child
    by_cases below : Climbs parent x node
    · have deep := (same.mp below).depth_le measures
      rw [if_pos below, if_pos (same.mp below)]
      omega
    · rw [if_neg below, if_neg (mt same.mpr below)]
      exact step

end TcpServerLib.Machine
