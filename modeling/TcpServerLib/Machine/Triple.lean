import TcpServerLib.Machine.Program

/-! # Pre- and postconditions

`Yields` says how a program ends from one state: in a failure that is allowed, or in a result that
satisfies the postcondition. A `Triple` says it of every state under a precondition. What is known
of the results of a run can be added to the postcondition.
-/

namespace TcpServerLib.Machine

namespace Prog

variable {σ ε κ α β : Type}

def Yields (allowed : ε → Prop) (program : Prog σ ε κ α) (state : σ) (after : α → σ → Prop) :
    Prop :=
  match program.exec state with
  | .ok (a, final) => after a final
  | .error error => allowed error

def Triple (allowed : ε → Prop) (before : σ → Prop) (program : Prog σ ε κ α)
    (after : α → σ → Prop) :
    Prop :=
  ∀ state, before state → program.Yields allowed state after

variable {allowed : ε → Prop} {program : Prog σ ε κ α} {continued : α → Prog σ ε κ β} {state : σ}
  {after narrower : α → σ → Prop} {last : β → σ → Prop}

theorem yields_pure {a : α} (holds : after a state) : (pure a : Prog σ ε κ α).Yields allowed state after :=
  holds

theorem yields_fail {error : ε} (permitted : allowed error) :
    (.fail error : Prog σ ε κ α).Yields allowed state after :=
  permitted

theorem yields_bind (first : program.Yields allowed state fun a middle =>
      (continued a).Yields allowed middle last) :
    (program >>= continued).Yields allowed state last := by
  rw [Yields, exec_bind]
  rw [Yields] at first
  cases ran : program.exec state with
  | error error => rwa [ran] at first
  | ok result => rwa [ran] at first

theorem Yields.mono (yields : program.Yields allowed state narrower)
    (wider : ∀ {a final}, narrower a final → after a final) : program.Yields allowed state after := by
  rw [Yields] at yields ⊢
  cases ran : program.exec state with
  | error error => rwa [ran] at yields
  | ok result =>
    rw [ran] at yields
    exact wider yields

/-- The result is one of a run. -/
theorem Yields.runs (yields : program.Yields allowed state after) :
    program.Yields allowed state fun a final => Runs program state a final ∧ after a final := by
  rw [Yields] at yields ⊢
  cases ran : program.exec state with
  | error error => rwa [ran] at yields
  | ok result =>
    rw [ran] at yields
    exact ⟨ran, yields⟩

theorem Yields.of_runs {a : α} {final : σ} (yields : program.Yields allowed state after)
    (ran : Runs program state a final) : after a final := by
  rw [Runs] at ran
  rwa [Yields, ran] at yields

theorem Yields.not_error {error : ε} (yields : program.Yields allowed state after)
    (forbidden : ¬ allowed error) :
    program.exec state ≠ .error error := by
  intro failed
  rw [Yields, failed] at yields
  exact forbidden yields

theorem yields_read {after : σ → σ → Prop} (holds : after state state) :
    (read : Prog σ ε κ σ).Yields allowed state after :=
  holds

theorem yields_update {f : σ → σ} {after : Unit → σ → Prop} (holds : after () (f state)) :
    (update f : Prog σ ε κ Unit).Yields allowed state after :=
  holds

theorem yields_exchange {f : σ → σ} {after : σ → σ → Prop} (holds : after state (f state)) :
    (exchange f : Prog σ ε κ σ).Yields allowed state after :=
  holds

theorem yields_perform {action : κ} {after : Unit → σ → Prop} (holds : after () state) :
    (perform action : Prog σ ε κ Unit).Yields allowed state after :=
  holds

theorem yields_when {condition : Prop} [Decidable condition] {program : Prog σ ε κ Unit}
    {after : Unit → σ → Prop}
    (yes : condition → program.Yields allowed state after) (no : ¬ condition → after () state) :
    (when condition program).Yields allowed state after := by
  rw [when]
  split
  · next holds => exact yes holds
  · next fails => exact yields_pure (no fails)

variable {before : σ → Prop} {result : α → Prop} {final : β → Prop}

/-- The program keeps an invariant, and its results satisfy `result`. -/
def Keeps (allowed : ε → Prop) (inv : σ → Prop) (program : Prog σ ε κ α) (result : α → Prop) :
    Prop :=
  Triple allowed inv program fun a state => inv state ∧ result a

namespace Keeps

theorem pure {a : α} (holds : result a) : Keeps allowed before (Pure.pure a : Prog σ ε κ α) result :=
  fun _ inv => yields_pure ⟨inv, holds⟩

theorem fail {error : ε} (permitted : allowed error) : Keeps allowed before
    (.fail error : Prog σ ε κ α) result :=
  fun _ _ => yields_fail permitted

theorem bind (first : Keeps allowed before program result)
    (rest : ∀ a, result a → Keeps allowed before (continued a) final) :
    Keeps allowed before (program >>= continued) final :=
  fun state inv => yields_bind ((first state inv).mono fun held => rest _ held.2 _ held.1)

theorem mono (keeps : Keeps allowed before program result) {wider : α → Prop}
    (weaker : ∀ a, result a → wider a) :
    Keeps allowed before program wider :=
  fun state inv => (keeps state inv).mono fun held => ⟨held.1, weaker _ held.2⟩

theorem read : Keeps (κ := κ) allowed before Prog.read before :=
  fun _ inv => yields_read ⟨inv, inv⟩

theorem update {f : σ → σ} (kept : ∀ s, before s → before (f s)) :
    Keeps (κ := κ) allowed before (Prog.update f) fun _ => True :=
  fun s inv => yields_update ⟨kept s inv, trivial⟩

theorem exchange {f : σ → σ} (kept : ∀ s, before s → before (f s)) :
    Keeps (κ := κ) allowed before (Prog.exchange f) before :=
  fun s inv => yields_exchange ⟨kept s inv, inv⟩

theorem perform {action : κ} : Keeps allowed before (Prog.perform action : Prog σ ε κ Unit) fun _ => True :=
  fun _ inv => yields_perform ⟨inv, trivial⟩

theorem when {condition : Prop} [Decidable condition] {program : Prog σ ε κ Unit}
    (yes : condition → Keeps allowed before program fun _ => True) :
    Keeps allowed before (Prog.when condition program) fun _ => True :=
  fun s inv => yields_when (fun holds => yes holds s inv) fun _ => ⟨inv, trivial⟩

theorem ite {condition : Prop} [Decidable condition] {yes no : Prog σ ε κ α}
    (first : condition → Keeps allowed before yes result)
    (second : ¬ condition → Keeps allowed before no result) :
    Keeps allowed before (if condition then yes else no) result := by
  split
  · next holds => exact first holds
  · next fails => exact second fails

end Keeps

end Prog

end TcpServerLib.Machine
