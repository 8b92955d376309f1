import Mathlib.Logic.Function.Basic
import TcpServerLib.Machine.Program

/-! # The actions of a run

A program that runs to its end has performed a list of actions. Among them are those that create
threads and those that cancel and join them: followed one by one they tell which threads there
are, unless one creates a thread that is there or joins one that is not.
-/

namespace TcpServerLib.Machine

namespace Prog

variable {σ ε κ α β : Type}

/-- What the program performs, up to its end or to the point where it fails. -/
def actions : Prog σ ε κ α → σ → List κ
  | .ret _, _ => []
  | .fail _, _ => []
  | .step f next, state => (next state).actions (f state)
  | .sync action next, state => action :: next.actions state

theorem actions_bind (program : Prog σ ε κ α) (continued : α → Prog σ ε κ β) (state : σ) :
    (program >>= continued).actions state =
      program.actions state ++
        match program.exec state with
        | .ok (a, middle) => (continued a).actions middle
        | .error _ => [] := by
  change (program.bind continued).actions state = _
  induction program generalizing state with
  | ret a => rfl
  | fail error => rfl
  | step f next ih => exact ih state (f state)
  | sync action next ih => exact congrArg (action :: ·) (ih state)

end Prog

inductive ThreadAct (τ : Type) where
  | create (t : τ)
  | join (t : τ)

variable {κ τ : Type} [DecidableEq τ]

/-- The threads there are after the actions, if each of them finds what it needs. -/
def follow (threadAct : κ → Option (ThreadAct τ)) (alive : τ → Bool) : List κ → Option (τ → Bool)
  | [] => some alive
  | action :: rest =>
    match threadAct action with
    | some (.create t) => if alive t then none else follow threadAct (Function.update alive t true) rest
    | some (.join t) => if alive t then follow threadAct (Function.update alive t false) rest else none
    | none => follow threadAct alive rest

theorem follow_append (threadAct : κ → Option (ThreadAct τ)) (alive : τ → Bool) (first second : List κ) :
    follow threadAct alive (first ++ second) =
      (follow threadAct alive first).bind fun alive => follow threadAct alive second := by
  induction first generalizing alive with
  | nil => rfl
  | cons action first ih =>
    rw [List.cons_append, follow, follow]
    cases threadAct action with
    | none => exact ih alive
    | some act =>
      cases act with
      | create t =>
        rcases Decidable.em (alive t = true) with there | absent
        · simp only [if_pos there, Option.bind_none]
        · simp only [if_neg absent]
          exact ih (Function.update alive t true)
      | join t =>
        rcases Decidable.em (alive t = true) with there | absent
        · simp only [if_pos there]
          exact ih (Function.update alive t false)
        · simp only [if_neg absent, Option.bind_none]

end TcpServerLib.Machine
