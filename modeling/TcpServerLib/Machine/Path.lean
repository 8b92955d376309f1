import Mathlib.Logic.Basic

/-! # Paths of a transition system

A path is a run of labelled steps. What every step of a path keeps, holds at its end; a condition
on the label and the state before each step restricts the runs such a conclusion is drawn for.
-/

namespace TcpServerLib.Machine

variable {σ ε : Type*}

/-- A transition system: `step s e t` takes `s` to `t` under the label `e`. -/
inductive Path (step : σ → ε → σ → Prop) : σ → List ε → σ → Prop
  | nil (s : σ) : Path step s [] s
  | cons {s middle t : σ} {e : ε} {es : List ε} : step s e middle → Path step middle es t →
      Path step s (e :: es) t

/-- The steps whose label meets a condition on the state before them. -/
def Guarded (step : σ → ε → σ → Prop) (guard : σ → ε → Prop) (s : σ) (e : ε) (t : σ) : Prop :=
  guard s e ∧ step s e t

namespace Path

variable {step : σ → ε → σ → Prop} {s t middle : σ} {first second : List ε}

theorem append (left : Path step s first middle) (right : Path step middle second t) :
    Path step s (first ++ second) t := by
  induction left with
  | nil => exact right
  | cons head _ ih => exact .cons head (ih right)

theorem mono {wider : σ → ε → σ → Prop} (path : Path step s first t)
    (widens : ∀ {s e t}, step s e t → wider s e t) : Path wider s first t := by
  induction path with
  | nil => exact .nil _
  | cons head _ ih => exact .cons (widens head) ih

/-- A run on given inputs, step by step. -/
theorem exists_cons {e : ε} {Q : σ → Prop} (head : step s e middle)
    (rest : ∃ t, Path step middle first t ∧ Q t) :
    ∃ t, Path step s (e :: first) t ∧ Q t := by
  obtain ⟨t, tail, holds⟩ := rest
  exact ⟨t, .cons head tail, holds⟩

/-- The rule of invariants. -/
theorem invariant {motive : σ → Prop} (path : Path step s first t)
    (preserved : ∀ {s e t}, step s e t → motive s → motive t) (initially : motive s) : motive t := by
  induction path with
  | nil => exact initially
  | cons head _ ih => exact ih (preserved head initially)

/-- The rule of simulations. -/
theorem simulate {τ : Type*} {step' : τ → ε → τ → Prop} {R : σ → τ → Prop} {u : τ}
    (path : Path step s first t)
    (simulates : ∀ {s e t u}, step s e t → R s u → ∃ v, step' u e v ∧ R t v) (related : R s u) :
    ∃ v, Path step' u first v ∧ R t v := by
  induction path generalizing u with
  | nil => exact ⟨u, .nil u, related⟩
  | cons head _ ih =>
    obtain ⟨middle, head', related'⟩ := simulates head related
    obtain ⟨v, rest, related''⟩ := ih related'
    exact ⟨v, .cons head' rest, related''⟩

end Path

section

variable (step : σ → ε → Option σ) (guard : σ → ε → Prop) [∀ s e, Decidable (guard s e)]

def replay (s : σ) (es : List ε) : Option σ := es.foldlM (fun s e => if guard s e then step s e else none) s

/-- Where the labels lead, if they are a run. -/
def replayed (s : σ) (es : List ε) : σ := (replay step guard s es).getD s

variable {step guard} {s t : σ} {es : List ε}

theorem path_of_replay (ran : replay step guard s es = some t) :
    Path (Guarded (fun s e t => step s e = some t) guard) s es t := by
  induction es generalizing s with
  | nil =>
    obtain rfl := Option.some.inj ran
    exact .nil s
  | cons e es ih =>
    obtain ⟨middle, head, rest⟩ := Option.bind_eq_some_iff.mp ran
    exact .cons (Option.ite_none_right_eq_some.mp head) (ih rest)

theorem replayed_path (ran : (replay step guard s es).isSome = true) :
    Path (Guarded (fun s e t => step s e = some t) guard) s es (replayed step guard s es) := by
  obtain ⟨t, ran⟩ := Option.isSome_iff_exists.mp ran
  rw [replayed, ran]
  exact path_of_replay ran

theorem replayed_step {e : ε} (ran : (replay step guard s [e]).isSome = true) :
    Guarded (fun s e t => step s e = some t) guard s e (replayed step guard s [e]) := by
  obtain ⟨t, ran⟩ := Option.isSome_iff_exists.mp ran
  rw [replayed, ran]
  cases path_of_replay ran with
  | cons head rest =>
    cases rest
    exact head

end

/-- A loop that visits the first entry of a list and goes on with what `rest` leaves of the others. -/
inductive Drains {α : Type*} (visits : α → σ → σ → Prop) (rest : α → List α → List α) :
    List α → σ → σ → Prop
  | nil (s : σ) : Drains visits rest [] s s
  | cons {a : α} {list : List α} {s middle t : σ} :
      visits a s middle → Drains visits rest (rest a list) middle t → Drains visits rest (a :: list) s t

/-- The rule of the loop: `motive` speaks of the entries still to come as well. -/
theorem Drains.invariant {α : Type*} {visits : α → σ → σ → Prop} {rest : α → List α → List α}
    {list : List α} {s t : σ} {motive : List α → σ → Prop} (drains : Drains visits rest list s t)
    (preserved : ∀ {a list s t}, visits a s t → motive (a :: list) s → motive (rest a list) t)
    (initially : motive list s) : motive [] t := by
  induction drains with
  | nil => exact initially
  | cons visited _ ih => exact ih (preserved visited initially)

end TcpServerLib.Machine
