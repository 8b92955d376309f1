import Mathlib.Data.List.Nodup
import Mathlib.Logic.Relation
import TcpServerLib.Machine.Threads

/-! # Lock order

The locks are ranked, and a thread takes a lock only above those it holds. Some roles control the
others: only they join threads, and only threads of the others. Then no threads wait for one another
in a circle, provided that a thread that holds a lock never joins one that still has a lock to ask for.
-/

namespace TcpServerLib.Machine

open Prog

variable {σ ε κ τ ℓ η : Type}

structure Discipline (κ τ ℓ : Type) where
  kind : κ → SyncKind τ ℓ
  rank : ℓ → ℕ
  controls : τ → Bool

namespace Discipline

variable (d : Discipline κ τ ℓ)

/-- The actions a thread may be held up by. -/
def Asks (action : κ) : Prop :=
  match d.kind action with
  | .lock _ => True
  | .cancelJoin _ => True
  | _ => False

instance : DecidablePred d.Asks := fun action => by
  unfold Asks
  cases d.kind action <;> infer_instance

/-- What is left of a thread's program asks for nothing. -/
def Unblocked : Doing σ ε κ → Prop
  | .gone => True
  | .away => True
  | .busy rest => rest.Avoids d.Asks
  | .joining .. => False

variable [DecidableEq ℓ]

/-- Watches the locks a thread holds. A thread waits and ends without locks. -/
def advance (role : τ) (held : List ℓ) (action : κ) : Option (List ℓ) :=
  match d.kind action with
  | .lock l => if ∀ h ∈ held, d.rank h < d.rank l then some (l :: held) else none
  | .unlock l => if l ∈ held then some (held.erase l) else none
  | .create _ => some held
  | .cancelJoin t => if d.controls role = true ∧ d.controls t = false then some held else none
  | .wait => if held = [] then some held else none
  | .exit => if held = [] then some held else none

/-- The thread keeps to the order. -/
def Fits (role : τ) (held : List ℓ) : Doing σ ε κ → Prop
  | .gone => held = []
  | .away => held = []
  | .busy rest => rest.Obeys (d.advance role) held (· = [])
  | .joining _ rest => d.controls role = true ∧ rest.Obeys (d.advance role) held (· = [])

/-- A thread that holds a lock joins only a thread that asks for nothing any more. -/
def Patient (p : Process σ ε κ τ ℓ) : Turn η → Prop
  | .go id => ∀ action next t other, p.doing id = .busy (.sync action next) →
      d.kind action = .cancelJoin t →
    p.designated t = some other → p.held id = [] ∨ d.Unblocked (p.doing other)
  | _ => True

/-- One thread waits for another, which owns a lock or is being joined. -/
def Waits (p : Process σ ε κ τ ℓ) (id other : ℕ) : Prop :=
  (∃ action next l, p.doing id = .busy (.sync action next) ∧ d.kind action = .lock l ∧
    p.owner l = some other) ∨ ∃ next, p.doing id = .joining other next ∧ p.doing other ≠ .gone

/-- Threads wait for one another in a circle. -/
def Deadlocked (p : Process σ ε κ τ ℓ) : Prop :=
  ∃ id, Relation.TransGen (d.Waits p) id id

structure Ordered (p : Process σ ε κ τ ℓ) : Prop where
  owner : ∀ {l id}, p.owner l = some id ↔ l ∈ p.held id
  nodup : ∀ id, (p.held id).Nodup
  fits : ∀ id, d.Fits (p.role id) (p.held id) (p.doing id)
  fresh : ∀ {id}, p.created ≤ id → p.doing id = .gone
  names : ∀ {t id}, p.designated t = some id → id < p.created ∧ p.role id = t
  joins : ∀ {id other rest}, p.doing id = .joining other rest →
    other < p.created ∧ d.controls (p.role other) = false ∧ p.cancelled other = true ∧
      (p.held id = [] ∨ d.Unblocked (p.doing other))

end Discipline

variable {d : Discipline κ τ ℓ} {p : Process σ ε κ τ ℓ} {id other a b c z : ℕ}

theorem unblocked_sync {action : κ} {next : Prog σ ε κ Unit}
    (unblocked : d.Unblocked (.busy (.sync action next))) :
    ¬ d.Asks action ∧ d.Unblocked (.busy next) :=
  avoids_sync.mp unblocked

theorem asks_lock {action : κ} {l : ℓ} (kind : d.kind action = .lock l) : d.Asks action := by
  rw [Discipline.Asks, kind]
  trivial

theorem asks_cancelJoin {action : κ} {t : τ} (kind : d.kind action = .cancelJoin t) : d.Asks action := by
  rw [Discipline.Asks, kind]
  trivial

/-- The rank of the lock a thread asks for. -/
def Discipline.asked (d : Discipline κ τ ℓ) : Doing σ ε κ → ℕ
  | .busy (.sync action _) =>
    match d.kind action with
    | .lock l => d.rank l
    | _ => 0
  | _ => 0

theorem asked_lock {action : κ} {next : Prog σ ε κ Unit} {l : ℓ}
    (busy : p.doing a = .busy (.sync action next))
    (kind : d.kind action = .lock l) : d.asked (p.doing a) = d.rank l := by
  rw [busy, Discipline.asked, kind]

theorem not_unblocked (waits : d.Waits p a b) : ¬ d.Unblocked (p.doing a) := by
  intro unblocked
  rcases waits with ⟨action, next, l, busy, kind, _⟩ | ⟨next, joining, _⟩
  · rw [busy] at unblocked
    exact (unblocked_sync unblocked).1 (asks_lock kind)
  · rw [joining] at unblocked
    exact unblocked

variable [DecidableEq ℓ]

namespace Discipline.Ordered

/-- A thread goes on with something else, and perhaps with other locks. -/
theorem move {doing : Doing σ ε κ} {held : List ℓ} {owner : ℓ → Option ℕ} (shared : σ)
    (ordered : d.Ordered p)
    (there : p.doing id ≠ .gone) (owns : ∀ {l x}, owner l = some x ↔ l ∈ Function.update p.held id held x)
    (nodup : held.Nodup) (fits : d.Fits (p.role id) held doing)
    (calm : p.cancelled id = true → d.Unblocked (p.doing id) → d.Unblocked doing)
    (joins : ∀ {other rest}, doing = .joining other rest → other < p.created ∧
      d.controls (p.role other) = false ∧
      p.cancelled other = true ∧ (held = [] ∨ d.Unblocked (p.doing other))) :
    d.Ordered { p with
      shared, owner, doing := Function.update p.doing id doing, held := Function.update p.held id held } where
  owner := owns
  nodup x := by
    dsimp only
    rcases eq_or_ne x id with rfl | different
    · rwa [Function.update_self]
    · rw [Function.update_of_ne different]
      exact ordered.nodup x
  fits x := by
    rcases eq_or_ne x id with rfl | different
    · simp only [Function.update_self]
      exact fits
    · simp only [Function.update_of_ne different]
      exact ordered.fits x
  fresh {x} unborn := by
    have absent := ordered.fresh unborn
    rcases eq_or_ne x id with rfl | different
    · exact absurd absent there
    · exact (Function.update_of_ne different doing p.doing).trans absent
  names := ordered.names
  joins {x other rest} joining := by
    dsimp only at joining ⊢
    rcases eq_or_ne x id with rfl | different
    · rw [Function.update_self] at joining
      obtain ⟨born, worker, cancelled, free⟩ := joins joining
      refine ⟨born, worker, cancelled, ?_⟩
      rw [Function.update_self]
      rcases eq_or_ne other x with rfl | else'
      · -- a thread that joins controls, and what it joins does not
        subst joining
        exact absurd (fits.1.symm.trans worker) (by simp)
      · rwa [Function.update_of_ne else']
    · rw [Function.update_of_ne different] at joining ⊢
      obtain ⟨born, worker, cancelled, free⟩ := ordered.joins joining
      refine ⟨born, worker, cancelled, free.imp_right fun unblocked => ?_⟩
      rcases eq_or_ne other id with rfl | else'
      · rw [Function.update_self]
        exact calm cancelled unblocked
      · rwa [Function.update_of_ne else']

/-- A thread goes on with the locks it has. -/
theorem goOn {doing : Doing σ ε κ} {shared : σ} (ordered : d.Ordered p) (there : p.doing id ≠ .gone)
    (fits : d.Fits (p.role id) (p.held id) doing)
    (calm : p.cancelled id = true → d.Unblocked (p.doing id) → d.Unblocked doing)
    (joins : ∀ {other rest}, doing = .joining other rest → other < p.created ∧
      d.controls (p.role other) = false ∧
      p.cancelled other = true ∧ (p.held id = [] ∨ d.Unblocked (p.doing other))) :
    d.Ordered { p.set id doing with shared } := by
  have same : Function.update p.held id (p.held id) = p.held := Function.update_eq_self id p.held
  have moved := ordered.move shared there (by rw [same]; exact ordered.owner) (ordered.nodup id) fits calm joins
  rwa [same] at moved

theorem cancel (ordered : d.Ordered p) (id : ℕ) : d.Ordered (p.cancel id) where
  owner := ordered.owner
  nodup := ordered.nodup
  fits := ordered.fits
  fresh := ordered.fresh
  names := ordered.names
  joins joining := by
    obtain ⟨born, worker, cancelled, free⟩ := ordered.joins joining
    refine ⟨born, worker, ?_, free⟩
    rw [Process.cancel]
    dsimp only
    rw [Function.update_apply]
    split_ifs
    · rfl
    · exact cancelled

/-- What a thread that is about to perform an action has before it. -/
theorem advanced {action : κ} {next : Prog σ ε κ Unit} (ordered : d.Ordered p)
    (busy : p.doing id = .busy (.sync action next)) :
    ∃ held, d.advance (p.role id) (p.held id) action = some held ∧ d.Fits (p.role id) held (.busy next) := by
  have fits := ordered.fits id
  rw [busy] at fits
  exact fits

omit [DecidableEq ℓ] in
theorem calm_sync {action : κ} {next : Prog σ ε κ Unit} (busy : p.doing id = .busy (.sync action next)) :
    p.cancelled id = true → d.Unblocked (p.doing id) → d.Unblocked (.busy next) := by
  intro _ unblocked
  rw [busy] at unblocked
  exact (unblocked_sync unblocked).2

theorem take {action : κ} {next : Prog σ ε κ Unit} {l : ℓ} (ordered : d.Ordered p)
    (busy : p.doing id = .busy (.sync action next)) (kind : d.kind action = .lock l) (free : p.owner l = none) :
    d.Ordered ((p.take id l).set id (.busy next)) := by
  obtain ⟨held, advanced, fits⟩ := ordered.advanced busy
  rw [advance, kind] at advanced
  dsimp only at advanced
  split_ifs at advanced with above
  cases advanced
  have absent : ∀ x, l ∉ p.held x := fun x member => by
    have owned := ordered.owner.mpr member
    rw [free] at owned
    cases owned
  refine ordered.move p.shared
    (by rw [busy]; simp) (fun {l' x} => ?_) (List.nodup_cons.mpr ⟨absent id, ordered.nodup id⟩) fits
    (calm_sync busy) (by simp)
  change Function.update p.owner l (some id) l' = some x ↔ _
  rcases eq_or_ne l' l with rfl | otherLock
  · rw [Function.update_self, Option.some.injEq, Function.update_apply]
    split_ifs with same
    · exact iff_of_true same.symm List.mem_cons_self
    · exact iff_of_false (fun here => same here.symm) (absent x)
  · rw [Function.update_of_ne otherLock, ordered.owner, Function.update_apply]
    split_ifs with same
    · rw [same, List.mem_cons, or_iff_right otherLock]
    · exact Iff.rfl

theorem leave {action : κ} {next : Prog σ ε κ Unit} {l : ℓ} (ordered : d.Ordered p)
    (busy : p.doing id = .busy (.sync action next)) (kind : d.kind action = .unlock l) :
    d.Ordered ((p.leave id l).set id (.busy next)) := by
  obtain ⟨held, advanced, fits⟩ := ordered.advanced busy
  rw [advance, kind] at advanced
  dsimp only at advanced
  split_ifs at advanced with mine
  cases advanced
  have owned := ordered.owner.mpr mine
  refine ordered.move p.shared
    (by rw [busy]; simp) (fun {l' x} => ?_) ((ordered.nodup id).erase l) fits (calm_sync busy) (by simp)
  change Function.update p.owner l none l' = some x ↔ _
  rw [Function.update_apply, Function.update_apply]
  split_ifs with here itself itself
  · subst here itself
    exact iff_of_false (by simp) (ordered.nodup x).not_mem_erase
  · subst here
    refine iff_of_false (by simp) fun member => itself ?_
    exact Option.some.inj ((ordered.owner.mpr member).symm.trans owned)
  · subst itself
    rw [ordered.owner, List.mem_erase_of_ne here]
  · exact ordered.owner

variable [DecidableEq τ]

theorem spawn (ordered : d.Ordered p) (t : τ) : d.Ordered (p.spawn t) where
  owner := ordered.owner
  nodup := ordered.nodup
  fits x := by
    rw [Process.spawn]
    dsimp only
    rcases eq_or_ne x p.created with rfl | different
    · have fits := ordered.fits p.created
      rw [ordered.fresh (Nat.le_refl _)] at fits
      rw [Function.update_self, Function.update_self]
      exact fits
    · rw [Function.update_of_ne different, Function.update_of_ne different]
      exact ordered.fits x
  fresh {x} unborn := by
    rw [Process.spawn] at unborn ⊢
    dsimp only at unborn ⊢
    rw [Function.update_of_ne (by omega)]
    exact ordered.fresh (Nat.le_of_succ_le unborn)
  names {t' x} named := by
    rw [Process.spawn] at named ⊢
    dsimp only at named ⊢
    rw [Function.update_apply] at named
    split_ifs at named with same
    · cases named
      exact ⟨Nat.lt_succ_self _, same ▸ Function.update_self ..⟩
    · obtain ⟨born, role⟩ := ordered.names named
      exact ⟨Nat.lt_succ_of_lt born, by rwa [Function.update_of_ne (Nat.ne_of_lt born)]⟩
  joins {x other rest} joining := by
    rw [Process.spawn] at joining ⊢
    dsimp only at joining ⊢
    rw [Function.update_apply] at joining
    split_ifs at joining
    obtain ⟨born, worker, cancelled, free⟩ := ordered.joins joining
    rw [Function.update_of_ne (Nat.ne_of_lt born), Function.update_of_ne (Nat.ne_of_lt born)]
    exact ⟨Nat.lt_succ_of_lt born, worker, cancelled, free⟩

/-- A step of a patient process keeps to the order. -/
theorem step {x : Texts σ ε κ τ ℓ η} {q : Process σ ε κ τ ℓ} {turn : Turn η}
    (same : x.kind = d.kind)
    (texts : ∀ {t e}, x.performs t e → (x.text e).Obeys (d.advance t) [] (· = []))
    (patient : d.Patient p turn)
    (stepped : p.Step x turn q) (ordered : d.Ordered p) : d.Ordered q := by
  cases stepped with
  | @start id e away spared performs =>
    have fits := ordered.fits id
    rw [away] at fits
    refine ordered.goOn (by rw [away]; simp) ?_
      (fun cancelled => absurd (spared.symm.trans cancelled) (by simp)) (by simp)
    rw [(fits : p.held id = [])]
    exact texts performs
  | @finish id u busy =>
    have fits := ordered.fits id
    rw [busy] at fits
    exact ordered.goOn (by rw [busy]; simp) fits (fun _ _ => trivial) (by simp)
  | @run id f next busy =>
    have fits := ordered.fits id
    rw [busy] at fits
    refine ordered.goOn (by rw [busy]; simp) (fits p.shared) (fun _ unblocked => ?_) (by simp)
    rw [busy] at unblocked
    exact unblocked p.shared
  | lock busy kind free => exact ordered.take busy (same ▸ kind) free
  | unlock busy kind => exact ordered.leave busy (same ▸ kind)
  | @create id action next t busy kind =>
    obtain ⟨held, advanced, fits⟩ := ordered.advanced busy
    rw [advance, ← same, kind] at advanced
    cases advanced
    have born : id ≠ p.created := fun unborn => by
      have absent := ordered.fresh (Nat.le_of_eq unborn.symm)
      rw [busy] at absent
      cases absent
    have still : (p.spawn t).doing id = .busy (.sync action next) := (Function.update_of_ne born ..).trans busy
    have role : (p.spawn t).role id = p.role id := Function.update_of_ne born ..
    exact (ordered.spawn t).goOn (by rw [still]; simp) (role ▸ fits) (calm_sync still) (by simp)
  | @cancel id other action next t busy kind names =>
    obtain ⟨held, advanced, fits⟩ := ordered.advanced busy
    rw [advance, ← same, kind] at advanced
    dsimp only at advanced
    split_ifs at advanced with roles
    cases advanced
    obtain ⟨born, role⟩ := ordered.names names
    refine (ordered.cancel other).goOn (by exact fun gone => nomatch busy.symm.trans gone) ⟨roles.1, fits⟩
      (fun _ unblocked => ?_) fun joining => ?_
    · have unblocked : d.Unblocked (.busy (.sync action next)) := busy ▸ unblocked
      exact absurd (asks_cancelJoin (same ▸ kind)) (unblocked_sync unblocked).1
    · cases joining
      exact ⟨born, role ▸ roles.2, Function.update_self .., patient action next t other busy
        (same ▸ kind) names⟩
  | @joined id other next joining gone =>
    have fits := ordered.fits id
    rw [joining] at fits
    refine ordered.goOn (by rw [joining]; simp) fits.2 (fun _ unblocked => ?_) (by simp)
    rw [joining] at unblocked
    exact unblocked.elim
  | @woken id action next busy kind =>
    obtain ⟨held, advanced, fits⟩ := ordered.advanced busy
    rw [advance, ← same, kind] at advanced
    dsimp only at advanced
    split_ifs at advanced
    cases advanced
    exact ordered.goOn (by rw [busy]; simp) fits (calm_sync busy) (by simp)
  | @exited id action next busy kind =>
    obtain ⟨held, advanced, fits⟩ := ordered.advanced busy
    rw [advance, ← same, kind] at advanced
    dsimp only at advanced
    split_ifs at advanced with free
    exact ordered.goOn (by rw [busy]; simp) free (fun _ _ => trivial) (by simp)
  | @diedAway id away =>
    have fits := ordered.fits id
    rw [away] at fits
    exact ordered.goOn (by rw [away]; simp) fits (fun _ _ => trivial) (by simp)
  | @diedWaiting id action next busy kind =>
    obtain ⟨held, advanced, fits⟩ := ordered.advanced busy
    rw [advance, ← same, kind] at advanced
    dsimp only at advanced
    split_ifs at advanced with free
    exact ordered.goOn (by rw [busy]; simp) free (fun _ _ => trivial) (by simp)

end Discipline.Ordered

namespace Discipline.Ordered

/-- Whoever waits between two others that wait asks for a lock. -/
theorem waits_lock (ordered : d.Ordered p) (before : d.Waits p z a) (waits : d.Waits p a b)
    (blocked : d.Waits p b c) :
    ∃ action next l, p.doing a = .busy (.sync action next) ∧ d.kind action = .lock l ∧
    p.owner l = some b := by
  rcases waits with lock | ⟨next, joining, _⟩
  · exact lock
  · exfalso
    obtain ⟨_, _, _, free⟩ := ordered.joins joining
    have free := free.resolve_right (not_unblocked blocked)
    have fits := ordered.fits a
    rw [joining] at fits
    rcases before with ⟨_, _, l, _, _, owned⟩ | ⟨_, joins, _⟩
    · have mine := ordered.owner.mp owned
      rw [free] at mine
      exact absurd mine List.not_mem_nil
    · exact absurd (fits.1.symm.trans (ordered.joins joins).2.1) (by simp)

/-- The lock that is asked for ranks above the one that is waited for. -/
theorem waits_rank {e : ℕ} (ordered : d.Ordered p) (before : d.Waits p z a) (waits : d.Waits p a b)
    (after : d.Waits p b c)
    (blocked : d.Waits p c e) : d.asked (p.doing a) < d.asked (p.doing b) := by
  obtain ⟨_, _, l, busy, kind, owned⟩ := ordered.waits_lock before waits after
  obtain ⟨_, _, l', busy', kind', _⟩ := ordered.waits_lock waits after blocked
  obtain ⟨held, advanced, _⟩ := ordered.advanced busy'
  rw [advance, kind'] at advanced
  dsimp only at advanced
  split_ifs at advanced with above
  rw [asked_lock busy kind, asked_lock busy' kind']
  exact above l (ordered.owner.mp owned)

/-- The edges of a circle lead to higher and higher locks. -/
theorem circle_rank (ordered : d.Ordered p) (back : Relation.TransGen (d.Waits p) b a) (waits : d.Waits p a b) :
    d.asked (p.doing a) < d.asked (p.doing b) := by
  obtain ⟨z, _, before⟩ := Relation.TransGen.tail'_iff.mp back
  obtain ⟨c, after, rest⟩ := Relation.TransGen.head'_iff.mp back
  obtain ⟨e, blocked, _⟩ := Relation.TransGen.head'_iff.mp (Relation.TransGen.tail' rest waits)
  exact ordered.waits_rank before waits after blocked

theorem chain_rank (ordered : d.Ordered p) (chain : Relation.TransGen (d.Waits p) a b)
    (back : Relation.TransGen (d.Waits p) b a) : d.asked (p.doing a) < d.asked (p.doing b) := by
  induction chain with
  | single waits => exact ordered.circle_rank back waits
  | tail chain waits ih =>
    exact Nat.lt_trans (ih (.head waits back)) (ordered.circle_rank (back.trans chain) waits)

theorem not_deadlocked (ordered : d.Ordered p) : ¬ d.Deadlocked p := by
  rintro ⟨a, circle⟩
  exact Nat.lt_irrefl _ (ordered.chain_rank circle circle)

end Discipline.Ordered

/-- The rule for runs: patient threads that keep to the order do not get stuck on one another. -/
theorem Discipline.not_deadlocked_of_path [DecidableEq τ] {x : Texts σ ε κ τ ℓ η}
    {q : Process σ ε κ τ ℓ} {turns : List (Turn η)} (same : x.kind = d.kind)
    (texts : ∀ {t e}, x.performs t e → (x.text e).Obeys (d.advance t) [] (· = []))
    (path : Path (Guarded (Process.Step x) d.Patient) p turns q) (ordered : d.Ordered p) : ¬ d.Deadlocked q :=
  (path.invariant (fun step ordered => ordered.step same texts step.1 step.2) ordered).not_deadlocked

end TcpServerLib.Machine
