import TcpServerLib.Machine.Actions

/-! # Monitors

A monitor watches what a program performs. It advances with each action or objects to it. A program
obeys a monitor if it meets no objection, whatever states it finds on its way.
-/

namespace TcpServerLib.Machine

namespace Prog

variable {σ ε κ μ α β : Type}

/-- `after` is what the monitor is expected to have come to where the program returns. -/
def Obeys (advance : μ → κ → Option μ) : Prog σ ε κ α → μ → (μ → Prop) → Prop
  | .ret _, m, after => after m
  | .fail _, _, _ => True
  | .step _ next, m, after => ∀ state, (next state).Obeys advance m after
  | .sync action next, m, after => ∃ m', advance m action = some m' ∧ next.Obeys advance m' after

variable {advance : μ → κ → Option μ} {program : Prog σ ε κ α} {continued : α →
  Prog σ ε κ β} {m : μ} {after : μ → Prop}

theorem Obeys.mono {wider : μ → Prop} (obeys : program.Obeys advance m after)
    (weaker : ∀ m, after m → wider m) :
    program.Obeys advance m wider := by
  induction program generalizing m with
  | ret a => exact weaker m obeys
  | fail error => trivial
  | step f next ih => exact fun state => ih state (obeys state)
  | sync action next ih =>
    obtain ⟨m', advanced, rest⟩ := obeys
    exact ⟨m', advanced, ih rest⟩

theorem obeys_bind (first : program.Obeys advance m fun m' => ∀ a, (continued a).Obeys advance m' after) :
    (program >>= continued).Obeys advance m after := by
  change (program.bind continued).Obeys advance m after
  induction program generalizing m with
  | ret a => exact first a
  | fail error => trivial
  | step f next ih => exact fun state => ih state (first state)
  | sync action next ih =>
    obtain ⟨m', advanced, rest⟩ := first
    exact ⟨m', advanced, ih rest⟩

/-- A program that leaves the monitor where it was, and what comes after it. -/
theorem Obeys.andThen (first : program.Obeys advance m (· = m))
    (rest : ∀ a, (continued a).Obeys advance m after) :
    (program >>= continued).Obeys advance m after := by
  apply obeys_bind
  apply first.mono
  rintro _ rfl
  exact rest

theorem obeys_perform {action : κ} {m' : μ} (advanced : advance m action = some m') (holds : after m') :
    (perform action : Prog σ ε κ Unit).Obeys advance m after :=
  ⟨m', advanced, holds⟩

theorem obeys_when {condition : Prop} [Decidable condition] {program : Prog σ ε κ Unit}
    (yes : condition → program.Obeys advance m after) (no : ¬ condition → after m) :
    (when condition program).Obeys advance m after := by
  rw [when]
  split
  · next holds => exact yes holds
  · next fails => exact no fails

theorem obeys_ite {condition : Prop} [Decidable condition] {yes no : Prog σ ε κ α}
    (first : condition → yes.Obeys advance m after) (second : ¬ condition → no.Obeys advance m after) :
    (if condition then yes else no).Obeys advance m after := by
  split
  · next holds => exact first holds
  · next fails => exact second fails

/-- A monitor with nothing to remember. -/
def forbid (forbidden : κ → Prop) [DecidablePred forbidden] (_ : Unit) (action : κ) : Option Unit :=
  if forbidden action then none else some ()

/-- The program performs nothing that is forbidden. -/
abbrev Avoids (forbidden : κ → Prop) [DecidablePred forbidden] (program : Prog σ ε κ α) : Prop :=
  program.Obeys (forbid forbidden) () fun _ => True

variable {forbidden : κ → Prop} [DecidablePred forbidden]

theorem avoids_sync {action : κ} {next : Prog σ ε κ α} :
    (Prog.sync action next).Avoids forbidden ↔ ¬ forbidden action ∧ next.Avoids forbidden := by
  constructor
  · rintro ⟨m', advanced, rest⟩
    rw [forbid] at advanced
    split at advanced
    · cases advanced
    · next permitted => exact ⟨permitted, rest⟩
  · rintro ⟨permitted, rest⟩
    exact ⟨(), if_neg permitted, rest⟩

theorem avoids_bind (first : program.Avoids forbidden) (rest : ∀ a, (continued a).Avoids forbidden) :
    (program >>= continued).Avoids forbidden :=
  Obeys.andThen (first.mono fun _ _ => rfl) rest

theorem Obeys.actions {state : σ} (avoids : program.Avoids forbidden) :
    ∀ action ∈ program.actions state, ¬ forbidden action := by
  induction program generalizing state with
  | ret a => exact fun _ member => absurd member List.not_mem_nil
  | fail error => exact fun _ member => absurd member List.not_mem_nil
  | step f next ih => exact ih state (avoids state)
  | sync action next ih =>
    obtain ⟨permitted, rest⟩ := avoids_sync.mp avoids
    intro other member
    rcases List.mem_cons.mp member with rfl | later
    · exact permitted
    · exact ih rest other later

abbrev Silent (program : Prog σ ε κ α) : Prop :=
  program.Avoids fun _ => True

theorem Silent.obeys (silent : program.Silent) : program.Obeys advance m (· = m) := by
  induction program with
  | ret a => exact rfl
  | fail error => trivial
  | step f next ih => exact fun state => ih state (silent state)
  | sync action next ih => exact absurd trivial (avoids_sync.mp silent).1

theorem Silent.actions {state : σ} (silent : program.Silent) : program.actions state = [] :=
  List.eq_nil_iff_forall_not_mem.mpr fun _ member => Obeys.actions silent _ member trivial

/-- What is performed after a silent program that returns. -/
theorem Silent.actions_bind {state final : σ} {a : α} (silent : program.Silent)
    (ran : program.Runs state a final) :
    (program >>= continued).actions state = (continued a).actions final := by
  rw [Runs] at ran
  rw [Prog.actions_bind, silent.actions, ran, List.nil_append]

end Prog

end TcpServerLib.Machine
