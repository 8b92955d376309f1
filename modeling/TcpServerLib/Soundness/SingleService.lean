import TcpServerLib.Model.ListenCalls
import TcpServerLib.Model.Run
import TcpServerLib.Refinement.ServiceOperations
import TcpServerLib.Refinement.SilentOperations

/-! # One service thread

Nothing keeps two calls of the service manager apart. Two of them that both stand between their
stop and their start end in two service threads, of which `client_svc_mgr_thread` names the later
one. As long as no call stops the thread while another has it stopped, there is at most one.
-/

namespace TcpServerLib.Soundness

open Machine Model Prog Refinement Server

/-- At most one service thread runs, and it is the one that `client_svc_mgr_thread` designates. -/
structure OneService (r : ListenRun) : Prop where
  atMostOne : r.threads.running.length ≤ 1
  designated : ∀ thread ∈ r.threads.running, r.threads.designated = some thread
  pointer : r.server.tcpClientSvcMgr.any (·.thread) = r.threads.designated.isSome

/-- The call of a thread is between its stop and its start. -/
def Inside (r : ListenRun) (t : ThreadId) : Prop :=
  ∃ call before, r.calls t = some (call, before) ∧ before ≠ .stopThread

/-- While the server listens to its clients, a call stops the service thread only when no other
call is between its stop and its start. -/
def Exclusive (r : ListenRun) : ListenEvent → Prop
  | .step t =>
    r.server.notListeningClients = false → (∃ call, r.calls t = some (call, .stopThread)) →
      ∀ other, ¬ Inside r other
  | .call .. => True

/-- The actions on the service thread. -/
def ServiceAct (action : Sync) : Prop :=
  action = .create .svcMgr ∨ action = .cancelJoin .svcMgr

instance : DecidablePred ServiceAct :=
  fun _ => inferInstanceAs (Decidable (_ ∨ _))

section

variable {s s' : TcpServerController} {m : TcpClientServiceManager} {u : Unit} {threads : ServiceThreads}
  {call : ListenCall}

theorem act_other {action : Sync} (other : ¬ ServiceAct action) : threads.act action = threads := by
  cases action with
  | create t =>
    cases t with
    | svcMgr => exact absurd (Or.inl rfl) other
    | _ => rfl
  | cancelJoin t =>
    cases t with
    | svcMgr => exact absurd (Or.inr rfl) other
    | _ => rfl
  | _ => rfl

theorem acts_others {actions : List Sync} (others : ∀ action ∈ actions, ¬ ServiceAct action) :
    actions.foldl .act threads = threads := by
  induction actions with
  | nil => rfl
  | cons action rest ih =>
    rw [List.foldl_cons, act_other (others action List.mem_cons_self)]
    exact ih fun other member => others other (List.mem_cons_of_mem _ member)

theorem act_cancelJoin (running : threads.running = threads.designated.toList) :
    threads.act (.cancelJoin .svcMgr) = { threads with running := [], designated := none } := by
  rw [ServiceThreads.act, running]
  congr 1
  cases threads.designated with
  | none => rfl
  | some thread => exact List.filter_eq_nil_iff.mpr fun _ member => by simpa using member

theorem stop_actions (present : s.tcpClientSvcMgr = some m) :
    ListenStep.stop.actions s =
      if s.notListeningClients = false ∧ m.thread = true then [.cancelJoin .svcMgr] else [] := by
  have derefs := runs_derefSvcMgr.mpr ⟨present, rfl⟩
  rw [ListenStep.stop, silent_derefSvcMgr.actions_bind derefs, silent_read.actions_bind
    (runs_read.mpr ⟨rfl, rfl⟩), when, TcpClientServiceManager.stopTcpClientServiceManagerThread]
  cases s.notListeningClients with
  | true => rfl
  | false =>
    rw [if_pos Bool.false_ne_true, silent_derefSvcMgr.actions_bind derefs, when]
    cases m.thread <;> rfl

theorem stop_runs (ran : ListenStep.stop.Runs s u s') : ∃ m, s.tcpClientSvcMgr = some m ∧
    s' = if s.notListeningClients then s else { s with tcpClientSvcMgr := some { m with thread := false } } := by
  simp only [ListenStep.stop, runs_bind, runs_derefSvcMgr, runs_read, runs_when] at ran
  obtain ⟨m, _, ⟨present, rfl⟩, _, _, ⟨rfl, rfl⟩, ran⟩ := ran
  refine ⟨m, present, ?_⟩
  split_ifs at ran ⊢ with deaf
  · exact ran.symm
  · obtain ⟨m', present', rfl⟩ := stopTcpClientServiceManagerThread_runs ran
    obtain rfl := Option.some.inj (present.symm.trans present')
    rfl

theorem edit_runs (ran : (ListenStep.edit call).Runs s u s') :
    s'.notListeningClients = s.notListeningClients ∧
      s'.tcpClientSvcMgr.any (·.thread) = s.tcpClientSvcMgr.any (·.thread) := by
  have kept (f : TcpClientServiceManager → TcpClientServiceManager) (same : ∀ m, (f m).thread = m.thread) :
      (s.tcpClientSvcMgr.map f).any (·.thread) = s.tcpClientSvcMgr.any (·.thread) := by
    cases s.tcpClientSvcMgr with
    | none => rfl
    | some m => exact same m
  cases call with
  | start c =>
    simp only [ListenStep.edit, TcpClientServiceManager.addClientToDB, runs_bind, runs_deref, runs_derefSvcMgr,
      runs_assertThat, runs_update, runs_modifyClient] at ran
    obtain ⟨_, _, ⟨_, rfl⟩, _, _, ⟨_, rfl⟩, _, _, searched, _, _, ⟨_, rfl⟩, _, _,
        ⟨_, _, ⟨_, rfl⟩, _, _, rfl,
      referenced⟩, _, rfl⟩ := ran
    obtain rfl := (lookUpClientDB_runs searched).1
    obtain ⟨_, rfl⟩ := reference_runs referenced
    exact ⟨rfl, kept _ fun _ => rfl⟩
  | stop c =>
    simp only [ListenStep.edit, TcpClientServiceManager.removeClientFromDB, runs_bind, runs_deref,
      runs_derefSvcMgr, runs_assertThat, runs_update, runs_modifyClient, runs_pure] at ran
    obtain ⟨_, _, ⟨_, rfl⟩, _, _, ⟨_, rfl⟩, _, _, searched, _, _, ⟨_, rfl⟩, _, _,
        ⟨_, _, ⟨_, rfl⟩, _, _, rfl,
      _, _, released, _, rfl⟩, _, rfl⟩ := ran
    obtain rfl := (lookUpClientDB_runs searched).1
    obtain ⟨_, _, rfl, _⟩ := dereference_runs released
    exact ⟨rfl, kept _ fun _ => rfl⟩

theorem silent_edit : (ListenStep.edit call).Silent := by
  cases call with
  | start c =>
    refine avoids_bind silent_deref fun _ => avoids_bind silent_derefSvcMgr fun _ => ?_
    refine avoids_bind silent_lookUpClientDB fun _ => avoids_bind silent_assertThat fun _ => ?_
    exact avoids_bind silent_svcAddClientToDB fun _ => silent_modifyClient
  | stop c =>
    refine avoids_bind silent_deref fun _ => avoids_bind silent_derefSvcMgr fun _ => ?_
    refine avoids_bind silent_lookUpClientDB fun _ => avoids_bind silent_assertThat fun _ => ?_
    exact avoids_bind silent_svcRemoveClientFromDB fun _ => silent_modifyClient

/-- What the new thread does before its creator goes on. -/
theorem avoids_startInternal :
    TcpClientServiceManager.startTcpClientServiceManagerThreadInternalSimple.Avoids ServiceAct := by
  have other {l : Lock} : (perform (.lock l) : Op Unit).Avoids ServiceAct ∧
      (perform (.unlock l) : Op Unit).Avoids ServiceAct := by
    constructor <;> exact avoids_sync.mpr ⟨(by rintro (same | same) <;> cases same), trivial⟩
  have silently {α : Type} {program : Op α} (silent : program.Silent) : program.Avoids ServiceAct :=
    silent.obeys.mono fun _ _ => trivial
  refine avoids_bind (silently silent_read) fun s =>
    avoids_bind (obeys_when (fun _ => ?_) fun _ => trivial) fun _ => ?_
  · refine avoids_bind other.1 fun _ => avoids_bind (silently silent_read) fun _ => ?_
    exact avoids_bind (silently silent_copyClientsTolist) fun _ => other.2
  · refine avoids_bind (silently silent_derefSvcMgr) fun _ => avoids_bind (silently silent_update) fun _ => ?_
    exact avoids_bind (silently silent_copyClientFDtoFDSet) fun _ => silently silent_update

theorem start_runs (threads : ServiceThreads) (ran : ListenStep.start.Runs s u s') :
    if s.notListeningClients then s' = s ∧ ListenStep.start.actions s = []
    else s'.notListeningClients = false ∧ s'.tcpClientSvcMgr.any (·.thread) = true ∧
      (ListenStep.start.actions s).foldl .act threads = threads.act (.create .svcMgr) := by
  simp only [ListenStep.start, runs_bind, runs_read, runs_when] at ran
  obtain ⟨_, _, ⟨rfl, rfl⟩, ran⟩ := ran
  rw [ListenStep.start, silent_read.actions_bind (runs_read.mpr ⟨rfl, rfl⟩), when]
  cases deaf : s.notListeningClients with
  | true =>
    rw [deaf, if_neg (not_not_intro rfl)] at ran
    exact ⟨ran.symm, rfl⟩
  | false =>
    rw [deaf, if_pos Bool.false_ne_true] at ran
    rw [if_pos Bool.false_ne_true]
    obtain ⟨m, present, rfl⟩ := startTcpClientServiceManagerThread_runs ran
    refine ⟨deaf, rfl, ?_⟩
    have derefs := runs_derefSvcMgr.mpr ⟨present, rfl⟩
    rw [TcpClientServiceManager.startTcpClientServiceManagerThread, silent_derefSvcMgr.actions_bind derefs]
    exact acts_others (Obeys.actions avoids_startInternal)

end

/-- While the server listens, the thread is there unless a call has it stopped, and then no other
call is past its stop. -/
structure Serving (r : ListenRun) : Prop where
  pointer : r.server.tcpClientSvcMgr.any (·.thread) = r.threads.designated.isSome
  running : r.threads.running = r.threads.designated.toList
  stopped : r.server.notListeningClients = false → ∀ {t}, Inside r t → r.threads.designated = none
  alone : r.server.notListeningClients = false → ∀ {t other}, Inside r t → Inside r other → other = t

section

variable {r r' : ListenRun} {t other : ThreadId} {call : ListenCall} {before : ListenStep}
  {server : TcpServerController} {threads : ServiceThreads}

theorem Serving.single (serving : Serving r) : OneService r := by
  refine ⟨?_, ?_, serving.pointer⟩
  · rw [serving.running]
    exact Option.length_toList_le
  · intro thread member
    rw [serving.running, Option.mem_toList] at member
    exact member

theorem serving_started (s : TcpServerController) : Serving (.started s) := by
  refine ⟨?_, ?_, ?_, ?_⟩
  · rw [ListenRun.started]
    cases s.tcpClientSvcMgr.any (·.thread) <;> rfl
  · rw [ListenRun.started]
    cases s.tcpClientSvcMgr.any (·.thread) <;> rfl
  · rintro _ _ ⟨_, _, ⟨⟩, _⟩
  · rintro _ _ _ ⟨_, _, ⟨⟩, _⟩

/-- The step of one call moves the others nowhere. -/
theorem inside_other {next : Option (ListenCall × ListenStep)} (different : other ≠ t) :
    Inside ⟨server, threads, Function.update r.calls t next⟩ other ↔ Inside r other := by
  rw [Inside, Inside]
  simp only [Function.update_of_ne different]

theorem inside_self {next : Option (ListenCall × ListenStep)} :
    Inside ⟨server, threads, Function.update r.calls t next⟩ t ↔ ∃ call before, next =
      some (call, before) ∧ before ≠ .stopThread := by
  rw [Inside]
  simp only [Function.update_self]

theorem serving_called (serving : Serving r) (idle : r.calls t = none) :
    Serving { r with calls := Function.update r.calls t (some (call, .stopThread)) } := by
  have kept {other : ThreadId}
      (inside : Inside { r with calls := Function.update r.calls t (some (call, .stopThread)) } other) :
      Inside r other := by
    rcases eq_or_ne other t with rfl | different
    · obtain ⟨_, _, next, past⟩ := inside_self.mp inside
      cases next
      exact absurd rfl past
    · exact (inside_other different).mp inside
  exact ⟨serving.pointer, serving.running, fun listens _ inside => serving.stopped listens (kept inside),
    fun listens _ _ first second => serving.alone listens (kept first) (kept second)⟩

theorem serving_stops (serving : Serving r) (exclusive : Exclusive r (.step t))
    (inside : r.calls t = some (call, .stopThread))
    (ran : ListenStep.stop.Runs r.server () server) :
    Serving ⟨server, (ListenStep.stop.actions r.server).foldl .act r.threads,
      Function.update r.calls t (some (call, .editList))⟩ := by
  obtain ⟨m, present, stopped⟩ := stop_runs ran
  have pointer := serving.pointer
  rw [stop_actions present]
  rw [present] at pointer
  split_ifs at stopped with deaf
  · obtain rfl := stopped
    have nothing : ¬ (r.server.notListeningClients = false ∧ m.thread = true) := fun both =>
      absurd (deaf.symm.trans both.1) (by simp)
    rw [if_neg nothing]
    refine ⟨serving.pointer, serving.running, fun listens => ?_, fun listens => ?_⟩
    · exact absurd (deaf.symm.trans listens) (by simp)
    · exact absurd (deaf.symm.trans listens) (by simp)
  · have listens := Bool.eq_false_iff.mpr deaf
    have gone : (if r.server.notListeningClients = false ∧ m.thread = true then [Sync.cancelJoin .svcMgr]
        else []).foldl .act r.threads = { r.threads with running := [], designated := none } := by
      cases there : m.thread with
      | true =>
        rw [if_pos ⟨listens, rfl⟩]
        exact act_cancelJoin serving.running
      | false =>
        rw [Option.any_some, there] at pointer
        have none := Option.not_isSome_iff_eq_none.mp (Bool.eq_false_iff.mp pointer.symm)
        have empty := serving.running
        rw [none] at empty
        have nothing : ¬ (r.server.notListeningClients = false ∧ false = true) :=
          fun both => absurd both.2 (by simp)
        rw [if_neg nothing, List.foldl_nil]
        exact congr (congrArg (ServiceThreads.mk · · r.threads.created) empty) none
    have only {other : ThreadId} (within : Inside ⟨server, { r.threads with running := [], designated := none },
        Function.update r.calls t (some (call, .editList))⟩ other) : other = t := by
      by_contra different
      exact exclusive listens ⟨call, inside⟩ other ((inside_other different).mp within)
    rw [gone, stopped]
    refine ⟨rfl, rfl, fun _ _ _ => rfl, fun _ _ _ first second => ?_⟩
    rw [stopped] at only
    rw [only first, only second]

theorem serving_edits (serving : Serving r) (inside : r.calls t = some (call, .editList))
    (ran : (ListenStep.edit call).Runs r.server () server) :
    Serving ⟨server, ((ListenStep.edit call).actions r.server).foldl .act r.threads,
      Function.update r.calls t (some (call, .startThread))⟩ := by
  obtain ⟨mode, thread⟩ := edit_runs ran
  rw [silent_edit.actions, List.foldl_nil]
  have here : Inside r t := ⟨call, .editList, inside, by simp⟩
  have kept {other : ThreadId}
      (within : Inside ⟨server, r.threads, Function.update r.calls t (some (call, .startThread))⟩ other) :
      Inside r other := by
    rcases eq_or_ne other t with rfl | different
    · exact here
    · exact (inside_other different).mp within
  exact ⟨thread.trans serving.pointer, serving.running, fun listens _ within =>
    serving.stopped (mode ▸ listens) (kept within),
    fun listens _ _ first second => serving.alone (mode ▸ listens) (kept first) (kept second)⟩

theorem serving_starts (serving : Serving r) (inside : r.calls t = some (call, .startThread))
    (ran : ListenStep.start.Runs r.server () server) :
    Serving ⟨server, (ListenStep.start.actions r.server).foldl .act r.threads,
      Function.update r.calls t none⟩ := by
  have started := start_runs r.threads ran
  split_ifs at started with deaf
  · obtain ⟨rfl, silent⟩ := started
    rw [silent, List.foldl_nil]
    refine ⟨serving.pointer, serving.running, fun listens => ?_, fun listens => ?_⟩
    · exact absurd (deaf.symm.trans listens) (by simp)
    · exact absurd (deaf.symm.trans listens) (by simp)
  · obtain ⟨_, pointer, created⟩ := started
    have listens := Bool.eq_false_iff.mpr deaf
    have here : Inside r t := ⟨call, .startThread, inside, by simp⟩
    have empty := serving.running
    rw [serving.stopped listens here] at empty
    -- whoever else is past its stop would be this very call
    have nobody {other : ThreadId} (within : Inside ⟨server, r.threads.act (.create .svcMgr),
        Function.update r.calls t none⟩ other) : False := by
      rcases eq_or_ne other t with rfl | different
      · obtain ⟨_, _, ⟨⟩, _⟩ := inside_self.mp within
      · exact different (serving.alone listens here ((inside_other different).mp within))
    rw [created]
    refine ⟨pointer, ?_, fun _ _ within => (nobody within).elim, fun _ _ _ within => (nobody within).elim⟩
    rw [ServiceThreads.act, empty]
    rfl

theorem serving_step {e : ListenEvent} (step : Guarded ListenRun.Step Exclusive r e r')
    (serving : Serving r) : Serving r' := by
  obtain ⟨exclusive, step⟩ := step
  cases step with
  | call idle call => exact serving_called serving idle
  | @step t call before server inside ran =>
    cases before with
    | stopThread => exact serving_stops serving exclusive inside ran
    | editList => exact serving_edits serving inside ran
    | startThread => exact serving_starts serving inside ran

/-- In every run of calls that do not overlap in this way, at most one service thread runs. -/
theorem oneService {s : TcpServerController} {es : List ListenEvent}
    (path : Path (Guarded ListenRun.Step Exclusive) (.started s) es r) : OneService r :=
  (path.invariant serving_step (serving_started s)).single

/-- Two calls that both have the thread stopped start two threads. -/
theorem overlap_starts_two {first second : ListenRun} {call' : ListenCall}
    (listens : r.server.notListeningClients = false)
    (different : other ≠ t) (here : r.calls t = some (call, .startThread))
    (there : r.calls other = some (call', .startThread))
    (one : ListenRun.Step r (.step t) first) (two : ListenRun.Step first (.step other) second) :
    ¬ OneService second := by
  obtain _ | ⟨inside, ran⟩ := one
  cases here.symm.trans inside
  have started := start_runs r.threads ran
  rw [if_neg (Bool.eq_false_iff.mp listens)] at started
  obtain ⟨listens', _, created⟩ := started
  obtain _ | ⟨inside', ran'⟩ := two
  dsimp only at inside'
  rw [Function.update_of_ne different] at inside'
  cases there.symm.trans inside'
  have started' := start_runs (r.threads.act (.create .svcMgr)) ran'
  rw [if_neg (Bool.eq_false_iff.mp listens')] at started'
  obtain ⟨_, _, created'⟩ := started'
  rintro ⟨atMostOne, _⟩
  have both : ((ListenStep.start.actions _).foldl .act
      ((ListenStep.start.actions _).foldl .act r.threads)).running.length ≤ 1 :=
    atMostOne
  rw [created, created'] at both
  exact absurd (Nat.le_of_succ_le_succ both) (Nat.not_succ_le_zero _)

end

/-- One peer is multiplexed, another has just been accepted. -/
def busyServer : TcpServerController :=
  TcpServerController.stateAfter (fun _ _ => True) (.started 1 1) [.accept 8 8, .processFront none, .accept 9 9]

theorem oneService_apart : ∃ r, Path (Guarded ListenRun.Step Exclusive) (.started busyServer)
    [.call .msgQ (.start 1), .call .application (.stop 0), .step .msgQ, .step .msgQ, .step .msgQ] r ∧
    OneService r := by
  have path : ∃ r, Path (Guarded ListenRun.Step Exclusive) (.started busyServer)
      [.call .msgQ (.start 1), .call .application (.stop 0), .step .msgQ, .step .msgQ, .step .msgQ] r ∧
      True := by
    refine Path.exists_cons ⟨trivial, .call rfl _⟩ (Path.exists_cons ⟨trivial, .call rfl _⟩ ?_)
    refine Path.exists_cons ⟨?_, .step rfl rfl⟩ ?_
    · rintro _ _ other ⟨call, before, found, past⟩
      change Function.update (Function.update (fun _ => none) _ _) _ _ other = _ at found
      rw [Function.update_apply, Function.update_apply] at found
      split_ifs at found <;> cases found <;> exact past rfl
    refine Path.exists_cons ⟨?_, .step rfl rfl⟩
      (Path.exists_cons ⟨?_, .step rfl rfl⟩ ⟨_, .nil _, trivial⟩)
    · rintro _ ⟨_, found⟩
      cases found
    · rintro _ ⟨_, found⟩
      cases found
  obtain ⟨r, path, _⟩ := path
  exact ⟨r, path, oneService path⟩

theorem overlappingCalls_twoServices :
    ¬ ∀ s es r, Path ListenRun.Step (.started s) es r → OneService r := by
  intro always
  have path : ∃ r, Path ListenRun.Step (.started busyServer)
      [.call .msgQ (.start 1), .call .application (.stop 0), .step .msgQ, .step .application, .step .msgQ,
        .step .application, .step .msgQ, .step .application] r ∧ r.threads.running = [2, 1] := by
    refine Path.exists_cons (.call rfl _) (Path.exists_cons (.call rfl _) ?_)
    refine Path.exists_cons (.step rfl rfl) (Path.exists_cons (.step rfl rfl) ?_)
    refine Path.exists_cons (.step rfl rfl) (Path.exists_cons (.step rfl rfl) ?_)
    exact Path.exists_cons (.step rfl rfl) (Path.exists_cons (.step rfl rfl) ⟨_, .nil _, rfl⟩)
  obtain ⟨r, path, running⟩ := path
  have atMostOne := (always _ _ _ path).atMostOne
  rw [running] at atMostOne
  exact absurd atMostOne (by decide)

end TcpServerLib.Soundness
