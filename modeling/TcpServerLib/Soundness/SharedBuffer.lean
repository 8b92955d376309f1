import TcpServerLib.Machine.Isolation
import TcpServerLib.Model.ServiceLoops
import TcpServerLib.Refinement.ClientOperations

/-! # The buffer the service loops share

A loop with a buffer of its own delivers what it received. The loops of a process are such loops as
long as none receives into the buffer while another has bytes in it that it has yet to deliver.
-/

namespace TcpServerLib.Soundness

open Machine Model Prog Refinement

structure PrivateLoop where
  server : TcpServerController
  inHand : Option (ClientRef × Recv)
  received : List (ClientRef × Recv)
  delivered : List (ClientRef × Recv)

inductive PrivateLoop.Step : PrivateLoop → LoopEvent → PrivateLoop → Prop
  | recvfrom {loop : PrivateLoop} {r : Recv} {c : ClientRef} {server : TcpServerController} :
      loop.inHand = none → TcpClientServiceManager.nextReady.Runs loop.server (some c) server →
      Step loop (.recvfrom r) { loop with server, inHand := some (c, r), received := loop.received ++ [(c, r)] }
  | skip {loop : PrivateLoop} {server : TcpServerController} :
      loop.inHand = none → TcpClientServiceManager.nextReady.Runs loop.server none server →
      Step loop .skip { loop with server }
  | deliver {loop : PrivateLoop} {c : ClientRef} {r : Recv} {server : TcpServerController} :
      loop.inHand = some (c, r) → (TcpClientServiceManager.receive c r).Runs loop.server () server →
      Step loop .deliver { loop with server, inHand := none, delivered := loop.delivered ++ [(c, r)] }
  | other {loop : PrivateLoop} {e : Event} {server : TcpServerController} :
      TcpServerController.Step loop.server e server → Step loop (.other e) { loop with server }

/-- What has been received and not been delivered is in hand. -/
def PrivateLoop.Exact (loop : PrivateLoop) : Prop :=
  loop.received = loop.delivered ++ loop.inHand.toList

theorem PrivateLoop.step_exact {loop next : PrivateLoop} {e : LoopEvent} (step : loop.Step e next)
    (exact : loop.Exact) : next.Exact := by
  rw [Exact] at exact ⊢
  cases step with
  | recvfrom idle _ =>
    rw [idle, Option.toList_none, List.append_nil] at exact
    rw [exact]
    rfl
  | skip _ _ => exact exact
  | deliver held _ =>
    rw [held] at exact
    rw [exact, Option.toList_none, List.append_nil]
    rfl
  | other _ => exact exact

theorem Prog.runs_unique {α : Type} {program : Op α} {s t t' : TcpServerController} {a a' : α}
    (left : program.Runs s a t) (right : program.Runs s a' t') : a = a' ∧ t = t' := by
  rw [Runs] at left right
  rw [left] at right
  cases right
  exact ⟨rfl, rfl⟩

theorem PrivateLoop.step_deterministic : Deterministic PrivateLoop.Step := by
  intro loop e next next' left right
  cases left with
  | recvfrom _ found =>
    cases right with
    | recvfrom _ found' =>
      obtain ⟨same, rfl⟩ := Prog.runs_unique found found'
      cases same
      rfl
  | skip _ found =>
    cases right with
    | skip _ found' =>
      obtain ⟨_, rfl⟩ := Prog.runs_unique found found'
      rfl
  | deliver held ran =>
    cases right with
    | deliver held' ran' =>
      rw [held] at held'
      cases held'
      obtain ⟨_, rfl⟩ := Prog.runs_unique ran ran'
      rfl
  | other step =>
    cases right with
    | other step' =>
      obtain ⟨_, rfl⟩ := Prog.runs_unique step.2 step'.2
      rfl

variable {ι : Type}

theorem started_size (servers : ι → TcpServerController) :
    (Process.started servers).commonRecvBuffer.length = 1024 :=
  List.length_replicate

variable [DecidableEq ι]

/-- A loop of a process with its part of the buffer. -/
def seen (i : ι) (p : Process ι) : PrivateLoop where
  server := (p.loops i).server
  inHand := (p.loops i).inHand.map fun held => (held.1, .load held.2 p.commonRecvBuffer)
  received := (p.loops i).received
  delivered := (p.loops i).delivered

/-- The steps of one loop. -/
def ownSteps (i : ι) (e : ι × LoopEvent) : Option LoopEvent :=
  if e.1 = i then some e.2 else none

/-- A receive leaves the bytes alone that the other loops have in hand. -/
def SparesOthers (p : Process ι) (e : ι × LoopEvent) : Prop :=
  ∀ r, e.2 = .recvfrom r → ∀ j, j ≠ e.1 → ∀ c rcvBytes, (p.loops j).inHand = some (c, rcvBytes) →
    Recv.load rcvBytes (r.store p.commonRecvBuffer) = .load rcvBytes p.commonRecvBuffer

/-- No receive changes the size of the buffer. -/
theorem store_size {r : Recv} {buffer : Bytes} (fits : r.chunk.length ≤ buffer.length) :
    (r.store buffer).length = buffer.length := by
  rw [Recv.store, List.length_append, List.length_drop]
  omega

theorem load_store (r : Recv) (buffer : Bytes) : Recv.load r.rcvBytes (r.store buffer) = r := by
  cases r with
  | failed => rfl
  | bytes chunk =>
    rw [Recv.load, Recv.store, Recv.rcvBytes, Recv.chunk, if_neg (by omega), Int.toNat_natCast, List.take_left]

theorem seen_byItself {i : ι} {p q : Process ι} {e : ι × LoopEvent} {own : LoopEvent} (step : p.Step e q)
    (mine : ownSteps i e = some own) : (seen i p).Step own (seen i q) := by
  rw [ownSteps] at mine
  split at mine
  · next here =>
    cases mine
    subst here
    obtain ⟨buffer, loop, step, rfl⟩ := step
    have now : seen e.1 ⟨buffer, Function.update p.loops e.1 loop⟩ =
        ⟨loop.server, loop.inHand.map fun held => (held.1, .load held.2 buffer), loop.received,
          loop.delivered⟩ := by
      simp only [seen, Function.update_self]
    rw [now]
    obtain ⟨j, e⟩ := e
    cases step with
    | @recvfrom r c server idle _ _ found =>
      have stored : (some (c, r.rcvBytes)).map
          (fun held => (held.1, Recv.load held.2 (r.store p.commonRecvBuffer))) =
          some (c, r) := by
        rw [Option.map_some, load_store]
      rw [stored]
      exact .recvfrom (by rw [seen, idle, Option.map_none]) found
    | skip idle _ found => exact .skip (by rw [seen, idle, Option.map_none]) found
    | deliver held ran => exact .deliver (by rw [seen, held, Option.map_some]) ran
    | other _ step => exact .other step
  · cases mine

theorem seen_byOthers {i : ι} {p q : Process ι} {e : ι × LoopEvent} (step : p.Step e q)
    (spares : SparesOthers p e) (others : ownSteps i e = none) : seen i q = seen i p := by
  have elsewhere : i ≠ e.1 := by
    rintro rfl
    rw [ownSteps, if_pos rfl] at others
    cases others
  obtain ⟨buffer, loop, step, rfl⟩ := step
  have kept : ∀ held, (p.loops i).inHand = some held →
      Recv.load held.2 buffer = .load held.2 p.commonRecvBuffer := by
    intro held found
    obtain ⟨j, e⟩ := e
    cases step with
    | recvfrom _ _ _ _ => exact spares _ rfl i elsewhere _ _ found
    | skip _ _ _ => rfl
    | deliver _ _ => rfl
    | other _ _ => rfl
  simp only [seen, Function.update_of_ne elsewhere]
  cases found : (p.loops i).inHand with
  | none => rfl
  | some held => rw [Option.map_some, Option.map_some, kept held found]

theorem seen_isolates (i : ι) :
    Isolates (Guarded Process.Step SparesOthers) (ownSteps i) (seen i) PrivateLoop.Step where
  byItself step mine := seen_byItself step.2 mine
  byOthers step others := seen_byOthers step.2 step.1 others

/-- What each loop delivers it has received, and a loop ends in the same state in all runs of the
process in which it and its server make the same steps. -/
structure DataSeparate (guard : Process ι → ι × LoopEvent → Prop) : Prop where
  exact : ∀ {servers es q}, Path (Guarded Process.Step guard) (.started servers) es q →
    ∀ i, (seen i q).Exact
  noMixing : ∀ {servers servers' es es' q q'} (i : ι), Path (Guarded Process.Step guard)
    (.started servers) es q →
    Path (Guarded Process.Step guard) (.started servers') es' q' → servers i = servers' i →
    es.filterMap (ownSteps i) = es'.filterMap (ownSteps i) →
    (q.loops i).delivered = (q'.loops i).delivered ∧ (q.loops i).server = (q'.loops i).server

/-- No loop receives over the bytes another has in hand: then the servers are separate. -/
theorem serviceLoops_separate : DataSeparate (SparesOthers (ι := ι)) where
  exact path i :=
    (path.isolated (seen_isolates i)).invariant PrivateLoop.step_exact rfl
  noMixing {servers servers' _ _ q q'} i left right start same := by
    have begins : seen i (.started servers) = seen i (.started servers') := by
      simp only [seen, Process.started, start]
    have ends := left.noninterference (seen_isolates i) PrivateLoop.step_deterministic right begins same
    exact ⟨congrArg PrivateLoop.delivered ends, congrArg PrivateLoop.server ends⟩

/-- A server whose service loop is about to visit its one client. -/
def visiting : TcpServerController :=
  TcpServerController.stateAfter (fun _ _ => True) (.started 1 1) [.accept 5 6, .processFront none, .select [0]]

theorem started_receives {servers : Bool → TcpServerController} {b : UInt8} :
    (Recv.bytes [b]).chunk.length ≤ (Process.started servers).commonRecvBuffer.length := by
  rw [started_size]
  exact Nat.le_of_ble_eq_true rfl

theorem separate_turns_path : ∃ q : Process Bool, Path (Guarded Process.Step SparesOthers)
    (.started fun _ => visiting)
    [(false, .recvfrom (.bytes [1])), (false, .deliver), (true, .recvfrom (.bytes [2])),
      (true, .deliver)] q ∧ True := by
  refine Path.exists_cons ⟨?_, _, _, .recvfrom rfl ?_ ?_ rfl, rfl⟩ ?_
  · intro _ _ j _ _ _ held
    cases held
  · exact started_receives
  · decide
  refine Path.exists_cons ⟨?_, _, _, .deliver rfl rfl, rfl⟩ ?_
  · intro _ none
    cases none
  refine Path.exists_cons ⟨?_, _, _, .recvfrom rfl ?_ ?_ rfl, rfl⟩ ?_
  · intro _ _ j _ _ _ held
    cases j with
    | false => cases held
    | true => cases held
  · exact (store_size (started_receives)).symm ▸ started_receives
  · decide
  refine Path.exists_cons ⟨?_, _, _, .deliver rfl rfl, rfl⟩ ⟨_, .nil _, trivial⟩
  intro _ none
  cases none

theorem serviceLoops_separate_turns :
    ∃ q : Process Bool, Path (Guarded Process.Step SparesOthers) (.started fun _ => visiting)
      [(false, .recvfrom (.bytes [1])), (false, .deliver), (true, .recvfrom (.bytes [2])), (true, .deliver)] q ∧
      (seen false q).Exact ∧ (seen true q).Exact := by
  obtain ⟨q, path, _⟩ := separate_turns_path
  exact ⟨q, path, serviceLoops_separate.exact path false, serviceLoops_separate.exact path true⟩

/-- One loop receives a byte, the other receives another, and the first delivers that. -/
theorem serviceLoops_not_separate : ¬ DataSeparate (ι := Bool) fun _ _ => True := by
  intro separate
  have mixed : ∃ q : Process Bool, Path (Guarded Process.Step fun _ _ => True) (.started fun _ => visiting)
      [(false, .recvfrom (.bytes [1])), (true, .recvfrom (.bytes [2])), (false, .deliver)] q ∧
      (q.loops false).received = [(0, .bytes [1])] ∧ (q.loops false).delivered = [(0, .bytes [2])] ∧
      (q.loops false).inHand = none := by
    refine Path.exists_cons ⟨trivial, _, _, .recvfrom rfl ?_ ?_ rfl, rfl⟩ ?_
    · exact started_receives
    · decide
    refine Path.exists_cons ⟨trivial, _, _, .recvfrom rfl ?_ ?_ rfl, rfl⟩ ?_
    · exact (store_size (started_receives)).symm ▸ started_receives
    · decide
    exact Path.exists_cons ⟨trivial, _, _, .deliver rfl rfl, rfl⟩ ⟨_, .nil _, rfl, rfl, rfl⟩
  obtain ⟨q, path, received, delivered, inHand⟩ := mixed
  have exact := separate.exact path false
  rw [PrivateLoop.Exact] at exact
  simp only [seen, received, delivered, inHand, Option.map_none, Option.toList_none, List.append_nil] at exact
  revert exact
  decide

end TcpServerLib.Soundness
