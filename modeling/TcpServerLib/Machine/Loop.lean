import Mathlib.Data.Nat.Notation

/-! # Loops that may stop early or run on

`whileLoop` executes a C `while` whose condition and body can fail, and collects what each
iteration hands out. Fuel bounds the number of iterations that are followed: running out of it is
a result of its own, so that a loop without an end shows as `running` for every amount of fuel.
-/

namespace TcpServerLib.Machine

variable {σ ο ε : Type*}

/-- Why a run has no final state. -/
inductive Cut (ε : Type*) where
  | stopped (error : ε)
  | running
deriving DecidableEq, Repr

def Cut.lift {α : Type*} : Except ε α → Except (Cut ε) α
  | .ok a => .ok a
  | .error e => .error (.stopped e)

def whileLoop (condition : σ → Except ε Bool) (body : σ → Except ε (ο × σ)) :
    ℕ → σ → Except (Cut ε) (List ο × σ)
  | 0, _ => .error .running
  | fuel + 1, state =>
    match condition state with
    | .error e => .error (.stopped e)
    | .ok false => .ok ([], state)
    | .ok true =>
      match body state with
      | .error e => .error (.stopped e)
      | .ok (out, next) => (whileLoop condition body fuel next).map fun (outs, last) => (out :: outs, last)

section

variable {condition : σ → Except ε Bool} {body : σ → Except ε (ο × σ)} {state : σ}

theorem whileLoop_exit (ended : condition state = .ok false) (fuel : ℕ) :
    whileLoop condition body (fuel + 1) state = .ok ([], state) := by
  simp only [whileLoop, ended]

theorem whileLoop_step {out : ο} {next : σ} (entered : condition state = .ok true)
    (ran : body state = .ok (out, next)) (fuel : ℕ) :
    whileLoop condition body (fuel + 1) state =
      (whileLoop condition body fuel next).map fun (outs, last) => (out :: outs, last) := by
  simp only [whileLoop, entered, ran]

theorem whileLoop_stopped {error : ε} (entered : condition state = .ok true)
    (failed : body state = .error error) (fuel : ℕ) :
    whileLoop condition body (fuel + 1) state = .error (.stopped error) := by
  simp only [whileLoop, entered, failed]

/-- A loop whose iterations lead from one state of a class to another of it never ends. -/
theorem whileLoop_running (stuck : σ → Prop) (entered : ∀ s, stuck s → condition s = .ok true)
    (ran : ∀ s, stuck s → ∃ out next, body s = .ok (out, next) ∧ stuck next) (fuel : ℕ) (start : σ)
    (inside : stuck start) : whileLoop condition body fuel start = .error .running := by
  induction fuel generalizing start with
  | zero => rfl
  | succ fuel ih =>
    obtain ⟨out, next, step, again⟩ := ran start inside
    rw [whileLoop_step (entered start inside) step, ih next again]
    rfl

end

/-- A run bounded by fuel is stable when more fuel changes nothing but a run that asks for it. -/
def Stable {α : Type _} (run : ℕ → Except (Cut ε) α) : Prop :=
  ∀ fuel more, run fuel = .error .running ∨ run (fuel + more) = run fuel

section

variable {α β : Type _}

theorem stable_const (result : Except (Cut ε) α) : Stable fun _ => result :=
  fun _ _ => .inr rfl

theorem Stable.bind {run : ℕ → Except (Cut ε) α} {next : ℕ → α → Except (Cut ε) β}
    (stable : Stable run)
    (continued : ∀ a, Stable fun fuel => next fuel a) : Stable fun fuel => run fuel >>= next fuel := by
  intro fuel more
  dsimp only
  rcases stable fuel more with asks | same
  · left
    rw [asks]
    rfl
  · cases result : run fuel with
    | error e =>
      right
      rw [same, result]
      rfl
    | ok a =>
      rw [same, result]
      exact continued a fuel more

/-- However much fuel it takes, the result is one. -/
theorem Stable.unique {run : ℕ → Except (Cut ε) α} {fuel fuel' : ℕ} {a b : α} (stable : Stable run)
    (first : run fuel = .ok a) (second : run fuel' = .ok b) : a = b := by
  rcases stable fuel fuel' with asks | same
  · cases first.symm.trans asks
  · rcases stable fuel' fuel with asks | same'
    · cases second.symm.trans asks
    · rw [Nat.add_comm, same, first, second] at same'
      cases same'
      rfl

theorem whileLoop_stable (condition : σ → Except ε Bool) (body : σ → Except ε (ο × σ)) (state : σ) :
    Stable fun fuel => whileLoop condition body fuel state := by
  intro fuel more
  dsimp only
  induction fuel generalizing state with
  | zero => exact .inl rfl
  | succ fuel ih =>
    rw [Nat.add_right_comm]
    cases entered : condition state with
    | error e => right; simp only [whileLoop, entered]
    | ok inside =>
      cases inside with
      | false => right; rw [whileLoop_exit entered, whileLoop_exit entered]
      | true =>
        cases ran : body state with
        | error e => right; rw [whileLoop_stopped entered ran, whileLoop_stopped entered ran]
        | ok result =>
          obtain ⟨out, next⟩ := result
          rw [whileLoop_step entered ran, whileLoop_step entered ran]
          rcases ih next with asks | same
          · left
            rw [asks]
            rfl
          · right
            rw [same]

end

end TcpServerLib.Machine
