import Mathlib.Logic.Relator
import Mathlib.Order.Filter.AtTopBot.Basic

/-! # Computations that are given enough steps

A computation with a number of steps it may take ends like one without, if their results are related for
every number that is large enough. Where this relation leaves no choice on the left, such computations can
be put one behind the other, although each needs steps of its own.
-/

namespace TcpServerLib.Machine

open Filter

variable {α α' β β' : Type*} {R : α → β → Prop} {R' : α' → β' → Prop} {f : ℕ → Option α}
  {o : Option β} {a : α} {b : β}

def EndsLike (R : α → β → Prop) (f : ℕ → Option α) (o : Option β) : Prop :=
  ∀ᶠ steps in atTop, Option.Rel R (f steps) o

namespace EndsLike

theorem some (related : R a b) : EndsLike R (fun _ => .some a) (.some b) :=
  Eventually.of_forall fun _ => .some related

theorem none : EndsLike R (fun _ => .none) .none :=
  Eventually.of_forall fun _ => .none

/-- What the computation comes to, from some number of steps on. -/
theorem exists_some (unique : Relator.LeftUnique R) (like : EndsLike R f (.some b)) :
    ∃ a, R a b ∧ ∀ᶠ steps in atTop, f steps = .some a := by
  obtain ⟨steps, rel⟩ := like.exists
  obtain ⟨a, related⟩ : ∃ a, R a b := by
    generalize f steps = result at rel
    cases rel with
    | some related => exact ⟨_, related⟩
  refine ⟨a, related, like.mono fun steps rel => ?_⟩
  generalize f steps = result at rel
  cases rel with
  | some related' => rw [unique related' related]

theorem eventually_none (like : EndsLike R f .none) : ∀ᶠ steps in atTop, f steps = .none := by
  refine like.mono fun steps rel => ?_
  generalize f steps = result at rel
  cases rel with
  | none => rfl

/-- A result of the computation is one of the other. -/
theorem of_eventually (like : EndsLike R f o) (ends : ∀ᶠ steps in atTop, f steps = .some a) :
    ∃ b, o = .some b ∧ R a b := by
  obtain ⟨steps, rel, same⟩ := (like.and ends).exists
  rw [same] at rel
  cases rel with
  | some related => exact ⟨_, rfl, related⟩

theorem bind {g : ℕ → α → Option α'} {k : β → Option β'} (unique : Relator.LeftUnique R)
    (like : EndsLike R f o)
    (next : ∀ a b, o = .some b → R a b → EndsLike R' (fun steps => g steps a) (k b)) :
    EndsLike R' (fun steps => (f steps).bind (g steps)) (o.bind k) := by
  cases o with
  | none =>
    refine like.eventually_none.mono fun steps same => ?_
    dsimp only
    rw [same]
    exact .none
  | some b =>
    obtain ⟨a, related, ends⟩ := like.exists_some unique
    filter_upwards [ends, next a b rfl related] with steps same rel
    rw [same]
    exact rel

theorem map {g : α → α'} {k : β → β'} (like : EndsLike R f o) (next : ∀ a b, R a b → R' (g a) (k b)) :
    EndsLike R' (fun steps => (f steps).map g) (o.map k) := by
  refine like.mono fun steps rel => ?_
  dsimp only
  generalize f steps = result at rel
  cases rel with
  | some related => exact .some (next _ _ related)
  | none => exact .none

end EndsLike

end TcpServerLib.Machine
