import Mathlib.Data.Nat.Notation

/-! # Programs over a shared state

A `Prog` is the text of what one thread executes: atomic steps on a shared state, failures, and
actions on the other threads, such as taking a lock, that have no effect on the state. One text
has two meanings. `exec` runs it to its end as a single step and skips the actions; a machine of
interleaved threads executes it instruction by instruction and gives the actions theirs.
-/

namespace TcpServerLib.Machine

/-- A step updates the state by `f` and goes on as the state before tells. -/
inductive Prog (σ ε κ α : Type) where
  | ret (a : α)
  | fail (error : ε)
  | step (f : σ → σ) (next : σ → Prog σ ε κ α)
  | sync (action : κ) (next : Prog σ ε κ α)

namespace Prog

variable {σ ε κ α β : Type}

def bind : Prog σ ε κ α → (α → Prog σ ε κ β) → Prog σ ε κ β
  | .ret a, continued => continued a
  | .fail error, _ => .fail error
  | .step f next, continued => .step f fun state => (next state).bind continued
  | .sync action next, continued => .sync action (next.bind continued)

instance : Monad (Prog σ ε κ) where
  pure := .ret
  bind := .bind

def exec : Prog σ ε κ α → σ → Except ε (α × σ)
  | .ret a, state => .ok (a, state)
  | .fail error, _ => .error error
  | .step f next, state => (next state).exec (f state)
  | .sync _ next, state => next.exec state

/-- The program returns, having failed nowhere. -/
def Runs (program : Prog σ ε κ α) (state : σ) (a : α) (final : σ) : Prop :=
  program.exec state = .ok (a, final)

/-- An `if` without an `else`. -/
def when (condition : Prop) [Decidable condition] (program : Prog σ ε κ Unit) : Prog σ ε κ Unit :=
  if condition then program else .ret ()

variable {state final : σ} {a b : α}

@[simp] theorem runs_pure : Runs (pure a : Prog σ ε κ α) state b final ↔ a = b ∧ state = final := by
  constructor
  · intro ran
    cases ran
    exact ⟨rfl, rfl⟩
  · rintro ⟨rfl, rfl⟩
    rfl

@[simp] theorem runs_fail {error : ε} : ¬ Runs (.fail error : Prog σ ε κ α) state a final := by
  intro ran
  cases ran

theorem exec_bind (program : Prog σ ε κ α) (continued : α → Prog σ ε κ β) (state : σ) :
    (program >>= continued).exec state =
      (program.exec state).bind fun result => (continued result.1).exec result.2 := by
  change (program.bind continued).exec state = _
  induction program generalizing state with
  | ret a => rfl
  | fail error => rfl
  | step f next ih => exact ih state (f state)
  | sync action next ih => exact ih state

@[simp] theorem runs_bind {program : Prog σ ε κ α} {continued : α → Prog σ ε κ β} {b : β} :
    Runs (program >>= continued) state b final ↔
      ∃ a middle, Runs program state a middle ∧ Runs (continued a) middle b final := by
  rw [Runs, exec_bind]
  constructor
  · intro ran
    cases first : program.exec state with
    | error e => rw [first] at ran; cases ran
    | ok result =>
      rw [first] at ran
      exact ⟨result.1, result.2, first, ran⟩
  · rintro ⟨a, middle, first, second⟩
    rw [Runs] at first
    rw [first]
    exact second

theorem bind_assoc {γ : Type} (program : Prog σ ε κ α) (first : α → Prog σ ε κ β)
    (second : β → Prog σ ε κ γ) :
    (program >>= first) >>= second = program >>= fun a => first a >>= second := by
  change (program.bind first).bind second = program.bind fun a => (first a).bind second
  induction program with
  | ret a => rfl
  | fail error => rfl
  | step f next ih => exact congrArg (Prog.step f) (funext ih)
  | sync action next ih => exact congrArg (Prog.sync action) ih

/-- The instructions, as programs of their own. -/
def read : Prog σ ε κ σ := .step id .ret

def update (f : σ → σ) : Prog σ ε κ Unit := .step f fun _ => .ret ()

/-- An update that returns the state it found. -/
def exchange (f : σ → σ) : Prog σ ε κ σ := .step f .ret

def perform (action : κ) : Prog σ ε κ Unit := .sync action (.ret ())

@[simp] theorem runs_read {result : σ} :
    Runs (read : Prog σ ε κ σ) state result final ↔ state = result ∧ state = final :=
  @runs_pure σ ε κ σ _ _ _ _

@[simp] theorem runs_exchange {f : σ → σ} {result : σ} :
    Runs (exchange f : Prog σ ε κ σ) state result final ↔ state = result ∧ f state = final :=
  @runs_pure σ ε κ σ _ _ _ _

@[simp] theorem runs_update {f : σ → σ} {u : Unit} :
    Runs (update f : Prog σ ε κ Unit) state u final ↔ f state = final := by
  constructor
  · intro ran
    cases ran
    rfl
  · rintro rfl
    rfl

@[simp] theorem runs_perform {action : κ} {u : Unit} :
    Runs (perform action : Prog σ ε κ Unit) state u final ↔ state = final := by
  constructor
  · intro ran
    cases ran
    rfl
  · rintro rfl
    rfl

@[simp] theorem runs_ite {condition : Prop} [Decidable condition] {yes no : Prog σ ε κ α} :
    Runs (if condition then yes else no) state a final ↔
      if condition then Runs yes state a final else Runs no state a final := by
  split <;> rfl

@[simp] theorem runs_when {condition : Prop} [Decidable condition] {program : Prog σ ε κ Unit} {u : Unit} :
    Runs (when condition program) state u final ↔
      if condition then Runs program state u final else state = final := by
  rw [when, runs_ite]
  split
  · exact Iff.rfl
  · exact runs_pure.trans (and_iff_right rfl)

end Prog

end TcpServerLib.Machine
