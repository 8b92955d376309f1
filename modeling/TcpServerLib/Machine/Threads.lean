import TcpServerLib.Machine.Monitor
import TcpServerLib.Machine.Path

/-! # Threads that lock, cancel and join

A process is a set of threads that execute programs on one shared state, an instruction at a time.
Threads are numbered as they are created, and each has a role, which tells what it may execute.
Cancellation is deferred: a thread that has been cancelled goes on to where it waits, and ends
there. A thread that asks for a lock is not at such a place.
-/

namespace TcpServerLib.Machine

/-- What an action does to locks and threads. -/
inductive SyncKind (τ ℓ : Type) where
  | lock (l : ℓ)
  | unlock (l : ℓ)
  | create (t : τ)
  | cancelJoin (t : τ)
  | wait
  | exit

/-- A thread that is away waits between two of its programs. -/
inductive Doing (σ ε κ : Type) where
  | gone
  | away
  | busy (rest : Prog σ ε κ Unit)
  | joining (other : ℕ) (rest : Prog σ ε κ Unit)

structure Process (σ ε κ τ ℓ : Type) where
  shared : σ
  role : ℕ → τ
  doing : ℕ → Doing σ ε κ
  cancelled : ℕ → Bool
  /-- The locks of a thread, the last one first. -/
  held : ℕ → List ℓ
  owner : ℓ → Option ℕ
  /-- The thread of a role that was created last. -/
  designated : τ → Option ℕ
  created : ℕ

/-- The texts that the threads of each role execute, and what their actions mean. -/
structure Texts (σ ε κ τ ℓ η : Type) where
  kind : κ → SyncKind τ ℓ
  text : η → Prog σ ε κ Unit
  performs : τ → η → Prop

inductive Turn (η : Type) where
  | start (id : ℕ) (e : η)
  | go (id : ℕ)
  | die (id : ℕ)

variable {σ ε κ τ ℓ η : Type} [DecidableEq τ] [DecidableEq ℓ]

namespace Process

def set (p : Process σ ε κ τ ℓ) (id : ℕ) (doing : Doing σ ε κ) : Process σ ε κ τ ℓ :=
  { p with doing := Function.update p.doing id doing }

def cancel (p : Process σ ε κ τ ℓ) (id : ℕ) : Process σ ε κ τ ℓ :=
  { p with cancelled := Function.update p.cancelled id true }

def take (p : Process σ ε κ τ ℓ) (id : ℕ) (l : ℓ) : Process σ ε κ τ ℓ :=
  { p with
    held := Function.update p.held id (l :: p.held id)
    owner := Function.update p.owner l (some id) }

def leave (p : Process σ ε κ τ ℓ) (id : ℕ) (l : ℓ) : Process σ ε κ τ ℓ :=
  { p with
    held := Function.update p.held id ((p.held id).erase l)
    owner := Function.update p.owner l none }

/-- A new thread. -/
def spawn (p : Process σ ε κ τ ℓ) (t : τ) : Process σ ε κ τ ℓ :=
  { p with
    role := Function.update p.role p.created t
    doing := Function.update p.doing p.created .away
    designated := Function.update p.designated t (some p.created)
    created := p.created + 1 }

inductive Step (x : Texts σ ε κ τ ℓ η) (p : Process σ ε κ τ ℓ) : Turn η →
    Process σ ε κ τ ℓ → Prop
  | start {id : ℕ} {e : η} (away : p.doing id = .away) (spared : p.cancelled id = false)
      (performs : x.performs (p.role id) e) : Step x p (.start id e) (p.set id (.busy (x.text e)))
  | finish {id : ℕ} {u : Unit} (busy : p.doing id = .busy (.ret u)) : Step x p (.go id) (p.set id .away)
  | run {id : ℕ} {f : σ → σ} {next : σ → Prog σ ε κ Unit} (busy : p.doing id = .busy (.step f next)) :
      Step x p (.go id) { p.set id (.busy (next p.shared)) with shared := f p.shared }
  | lock {id : ℕ} {action : κ} {next : Prog σ ε κ Unit} {l : ℓ}
      (busy : p.doing id = .busy (.sync action next))
      (kind : x.kind action = .lock l) (free : p.owner l = none) :
      Step x p (.go id) ((p.take id l).set id (.busy next))
  | unlock {id : ℕ} {action : κ} {next : Prog σ ε κ Unit} {l : ℓ}
      (busy : p.doing id = .busy (.sync action next))
      (kind : x.kind action = .unlock l) : Step x p (.go id) ((p.leave id l).set id (.busy next))
  | create {id : ℕ} {action : κ} {next : Prog σ ε κ Unit} {t : τ}
      (busy : p.doing id = .busy (.sync action next))
      (kind : x.kind action = .create t) : Step x p (.go id) ((p.spawn t).set id (.busy next))
  | cancel {id other : ℕ} {action : κ} {next : Prog σ ε κ Unit} {t : τ}
      (busy : p.doing id = .busy (.sync action next))
      (kind : x.kind action = .cancelJoin t) (names : p.designated t = some other) :
      Step x p (.go id) ((p.cancel other).set id (.joining other next))
  | joined {id other : ℕ} {next : Prog σ ε κ Unit} (joining : p.doing id = .joining other next)
      (gone : p.doing other = .gone) : Step x p (.go id) (p.set id (.busy next))
  | woken {id : ℕ} {action : κ} {next : Prog σ ε κ Unit} (busy : p.doing id = .busy (.sync action next))
      (kind : x.kind action = .wait) : Step x p (.go id) (p.set id (.busy next))
  | exited {id : ℕ} {action : κ} {next : Prog σ ε κ Unit} (busy : p.doing id = .busy (.sync action next))
      (kind : x.kind action = .exit) : Step x p (.go id) (p.set id .gone)
  | diedAway {id : ℕ} (away : p.doing id = .away) (cancelled : p.cancelled id = true) :
      Step x p (.die id) (p.set id .gone)
  | diedWaiting {id : ℕ} {action : κ} {next : Prog σ ε κ Unit}
      (busy : p.doing id = .busy (.sync action next))
      (kind : x.kind action = .wait) (cancelled : p.cancelled id = true) : Step x p (.die id) (p.set id .gone)

def act (x : Texts σ ε κ τ ℓ η) (p : Process σ ε κ τ ℓ) (id : ℕ) (action : κ)
    (next : Prog σ ε κ Unit) :
    Option (Process σ ε κ τ ℓ) :=
  match x.kind action with
  | .lock l => if (p.owner l).isNone then some ((p.take id l).set id (.busy next)) else none
  | .unlock l => some ((p.leave id l).set id (.busy next))
  | .create t => some ((p.spawn t).set id (.busy next))
  | .cancelJoin t => (p.designated t).map fun other => (p.cancel other).set id (.joining other next)
  | .wait => some (p.set id (.busy next))
  | .exit => some (p.set id .gone)

/-- The only step a thread can take by itself. -/
def goOn (x : Texts σ ε κ τ ℓ η) (p : Process σ ε κ τ ℓ) (id : ℕ) :
    Option (Process σ ε κ τ ℓ) :=
  match p.doing id with
  | .busy (.ret _) => some (p.set id .away)
  | .busy (.step f next) => some { p.set id (.busy (next p.shared)) with shared := f p.shared }
  | .busy (.sync action next) => p.act x id action next
  | .joining other next =>
    match p.doing other with
    | .gone => some (p.set id (.busy next))
    | _ => none
  | _ => none

theorem goOn_step {x : Texts σ ε κ τ ℓ η} {p q : Process σ ε κ τ ℓ} {id : ℕ}
    (went : p.goOn x id = some q) :
    Step x p (.go id) q := by
  rw [goOn] at went
  split at went
  · next busy =>
    cases went
    exact .finish busy
  · next busy =>
    cases went
    exact .run busy
  · next busy =>
    rw [act] at went
    split at went
    · next kind =>
      split at went
      · next free =>
        cases went
        exact .lock busy kind (Option.isNone_iff_eq_none.mp free)
      · cases went
    · next kind =>
      cases went
      exact .unlock busy kind
    · next kind =>
      cases went
      exact .create busy kind
    · next kind =>
      obtain ⟨other, names, rfl⟩ := Option.map_eq_some_iff.mp went
      exact .cancel busy kind names
    · next kind =>
      cases went
      exact .woken busy kind
    · next kind =>
      cases went
      exact .exited busy kind
  · next joining =>
    split at went
    · next gone =>
      cases went
      exact .joined joining gone
    · cases went
  · cases went

/-- A thread that has been cancelled ends where it waits. -/
def dieAt (x : Texts σ ε κ τ ℓ η) (p : Process σ ε κ τ ℓ) (id : ℕ) :
    Option (Process σ ε κ τ ℓ) :=
  match p.doing id with
  | .away => if p.cancelled id = true then some (p.set id .gone) else none
  | .busy (.sync action _) =>
    match x.kind action with
    | .wait => if p.cancelled id = true then some (p.set id .gone) else none
    | _ => none
  | _ => none

theorem dieAt_step {x : Texts σ ε κ τ ℓ η} {p q : Process σ ε κ τ ℓ} {id : ℕ}
    (died : p.dieAt x id = some q) :
    Step x p (.die id) q := by
  rw [dieAt] at died
  split at died
  · next away =>
    split at died
    · next cancelled =>
      cases died
      exact .diedAway away cancelled
    · cases died
  · next busy =>
    split at died
    · next kind =>
      split at died
      · next cancelled =>
        cases died
        exact .diedWaiting busy kind cancelled
      · cases died
    · cases died
  · cases died

def takeTurn (x : Texts σ ε κ τ ℓ η) [∀ t e, Decidable (x.performs t e)] (p : Process σ ε κ τ ℓ) :
    Turn η → Option (Process σ ε κ τ ℓ)
  | .start id e =>
    match p.doing id with
    | .away => if p.cancelled id = false ∧
        x.performs (p.role id) e then some (p.set id (.busy (x.text e))) else none
    | _ => none
  | .go id => p.goOn x id
  | .die id => p.dieAt x id

theorem takeTurn_step {x : Texts σ ε κ τ ℓ η} [∀ t e, Decidable (x.performs t e)]
    {p q : Process σ ε κ τ ℓ}
    {turn : Turn η} (took : p.takeTurn x turn = some q) : Step x p turn q := by
  cases turn with
  | start id e =>
    rw [takeTurn] at took
    split at took
    · next away =>
      split at took
      · next free =>
        cases took
        exact .start away free.1 free.2
      · cases took
    · cases took
  | go id => exact goOn_step took
  | die id => exact dieAt_step took

def takeTurns (x : Texts σ ε κ τ ℓ η) [∀ t e, Decidable (x.performs t e)] :
    List (Turn η) → Process σ ε κ τ ℓ → Option (Process σ ε κ τ ℓ)
  | [], p => some p
  | turn :: turns, p => (p.takeTurn x turn).bind (takeTurns x turns)

theorem takeTurns_path {x : Texts σ ε κ τ ℓ η} [∀ t e, Decidable (x.performs t e)]
    {p q : Process σ ε κ τ ℓ}
    {turns : List (Turn η)} (took : takeTurns x turns p = some q) : Path (Step x) p turns q := by
  induction turns generalizing p with
  | nil =>
    cases took
    exact .nil _
  | cons turn turns ih =>
    obtain ⟨middle, first, rest⟩ := Option.bind_eq_some_iff.mp took
    exact .cons (takeTurn_step first) (ih rest)

end Process

end TcpServerLib.Machine
