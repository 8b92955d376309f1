import TcpServerLib.Machine.Program

/-! # Programs beside a second state

A program over one state is also one over a pair, of which it leaves the second component alone. A
program over the pair shadows one over the first component if it does there what that one does.
-/

namespace TcpServerLib.Machine

namespace Prog

variable {σ ρ ε κ α β : Type}

def onFirst : Prog σ ε κ α → Prog (σ × ρ) ε κ α
  | .ret a => .ret a
  | .fail error => .fail error
  | .step f next => .step (Prod.map f id) fun pair => (next pair.1).onFirst
  | .sync action next => .sync action next.onFirst

theorem exec_onFirst (program : Prog σ ε κ α) (state : σ) (beside : ρ) :
    program.onFirst.exec (state, beside) = (program.exec state).map fun result =>
      (result.1, result.2, beside) := by
  induction program generalizing state with
  | ret a => rfl
  | fail error => rfl
  | step f next ih => exact ih state (f state)
  | sync action next ih => exact ih state

@[simp] theorem runs_onFirst {program : Prog σ ε κ α} {state : σ} {beside : ρ} {a : α} {final : σ × ρ} :
    Runs program.onFirst (state, beside) a final ↔ ∃ t, Runs program state a t ∧ final = (t, beside) := by
  rw [Runs, exec_onFirst]
  constructor
  · intro ran
    cases first : program.exec state with
    | error e =>
      rw [first] at ran
      cases ran
    | ok result =>
      rw [first] at ran
      cases ran
      exact ⟨_, first, rfl⟩
  · rintro ⟨t, ran, rfl⟩
    rw [Runs] at ran
    rw [ran]
    rfl

/-- Whatever the first program returns, the second one returns as well. -/
def Shadows (program : Prog (σ × ρ) ε κ α) (plain : Prog σ ε κ α) : Prop :=
  ∀ {pair a final}, Runs program pair a final → Runs plain pair.1 a final.1

variable {program : Prog (σ × ρ) ε κ α} {plain : Prog σ ε κ α}

theorem shadows_onFirst : Shadows (onFirst plain : Prog (σ × ρ) ε κ α) plain := by
  rintro ⟨state, beside⟩ a final ran
  obtain ⟨t, ran', rfl⟩ := runs_onFirst.mp ran
  exact ran'

theorem shadows_pure {a : α} : Shadows (pure a : Prog (σ × ρ) ε κ α) (pure a) := by
  intro pair b final ran
  obtain ⟨rfl, rfl⟩ := runs_pure.mp ran
  exact runs_pure.mpr ⟨rfl, rfl⟩

theorem shadows_bind {continued : α → Prog (σ × ρ) ε κ β} {plainly : α → Prog σ ε κ β}
    (first : Shadows program plain) (rest : ∀ a, Shadows (continued a) (plainly a)) :
    Shadows (program >>= continued) (plain >>= plainly) := by
  intro pair b final ran
  obtain ⟨a, middle, ran, ran'⟩ := runs_bind.mp ran
  exact runs_bind.mpr ⟨a, middle.1, first ran, rest a ran'⟩

/-- A program that leaves the first component alone is not seen in front of another. -/
theorem shadows_after {continued : β → Prog (σ × ρ) ε κ α} {aside : Prog (σ × ρ) ε κ β}
    (still : ∀ {pair b final}, Runs aside pair b final → final.1 = pair.1)
    (rest : ∀ b, Shadows (continued b) plain) :
    Shadows (aside >>= continued) plain := by
  intro pair a final ran
  obtain ⟨b, middle, ran, ran'⟩ := runs_bind.mp ran
  rw [← still ran]
  exact rest b ran'

/-- Nor is it seen behind one. -/
theorem shadows_before {program : Prog (σ × ρ) ε κ Unit} {plain : Prog σ ε κ Unit}
    {aside : Prog (σ × ρ) ε κ Unit}
    (first : Shadows program plain) (still : ∀ {pair u final}, Runs aside pair u final → final.1 = pair.1) :
    Shadows (program >>= fun _ => aside) plain := by
  intro pair u final ran
  obtain ⟨v, middle, ran, ran'⟩ := runs_bind.mp ran
  rw [still ran']
  exact first ran

theorem shadows_ite {condition : Prop} [Decidable condition] {yes no : Prog (σ × ρ) ε κ α}
    {yes' no' : Prog σ ε κ α} (first : Shadows yes yes') (second : Shadows no no') :
    Shadows (if condition then yes else no) (if condition then yes' else no') := by
  split
  · exact first
  · exact second

theorem shadows_when {condition : Prop} [Decidable condition] {program : Prog (σ × ρ) ε κ Unit}
    {plain : Prog σ ε κ Unit}
    (inside : Shadows program plain) : Shadows (when condition program) (when condition plain) := by
  rw [when, when]
  split
  · exact inside
  · intro pair a final ran
    cases ran
    rfl

end Prog

end TcpServerLib.Machine
