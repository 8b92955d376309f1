import TcpServerLib.Machine.Path

/-! # Components that share a process

A component is isolated when the steps of the others leave its view of the process alone and its
own steps are steps of a private system. Then a run of the process is, seen by the component, a run
of the private system over its own labels; where that system is deterministic, nothing the others
do shows in the view.
-/

namespace TcpServerLib.Machine

variable {σ ε ν η : Type*}

/-- `own` tells the labels of the component from those of the others. -/
structure Isolates (step : σ → ε → σ → Prop) (own : ε → Option η) (view : σ → ν)
    (alone : ν → η → ν → Prop) :
    Prop where
  byItself : ∀ {s t e label}, step s e t → own e = some label → alone (view s) label (view t)
  byOthers : ∀ {s t e}, step s e t → own e = none → view t = view s

/-- A system whose labels determine its steps. -/
def Deterministic (step : σ → ε → σ → Prop) : Prop :=
  ∀ ⦃s e t t'⦄, step s e t → step s e t' → t = t'

namespace Path

variable {step : σ → ε → σ → Prop} {s s' t t' : σ} {es es' : List ε}

theorem deterministic (steps : Deterministic step) (left : Path step s es t)
    (right : Path step s es t') : t = t' := by
  induction left with
  | nil =>
    cases right
    rfl
  | cons head _ ih =>
    cases right with
    | cons head' rest =>
      have same := steps head head'
      subst same
      exact ih rest

variable {own : ε → Option η} {view : σ → ν} {alone : ν → η → ν → Prop}

/-- The run the component sees. -/
theorem isolated (isolates : Isolates step own view alone) (path : Path step s es t) :
    Path alone (view s) (es.filterMap own) (view t) := by
  induction path with
  | nil => exact .nil _
  | @cons s middle t e es head _ ih =>
    cases mine : own e with
    | none =>
      rw [List.filterMap_cons_none mine, ← isolates.byOthers head mine]
      exact ih
    | some label =>
      rw [List.filterMap_cons_some mine]
      exact .cons (isolates.byItself head mine) ih

/-- Two runs that look the same to the component at first, and have the same steps of it, look the
same to it at the end. -/
theorem noninterference (isolates : Isolates step own view alone) (steps : Deterministic alone)
    (left : Path step s es t) (right : Path step s' es' t') (start : view s = view s')
    (same : es.filterMap own = es'.filterMap own) : view t = view t' := by
  have seen := right.isolated isolates
  rw [← start, ← same] at seen
  exact (left.isolated isolates).deterministic steps seen

end Path

end TcpServerLib.Machine
