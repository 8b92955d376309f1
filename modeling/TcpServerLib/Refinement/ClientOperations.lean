import Mathlib.Data.List.Count
import TcpServerLib.Model.TcpServerController

/-! # What the operations on one client amount to

Every operation that returns is an equation between the state after it and the state before it.
The equations of this module are those of the reference count, of the threads of a client and of
the client database; what is proved about runs is proved from equations like these.
-/

namespace TcpServerLib.Refinement

open Machine Model Prog

namespace Server

/-- The client goes when its last reference does. -/
def drop (client : TcpClient) : Option TcpClient :=
  if client.refCount ≤ 1 then none else some { client with refCount := client.refCount - 1 }

/-- One reference to the client is given up. -/
def release (c : ClientRef) (s : TcpServerController) : TcpServerController :=
  { s with heap := Function.update s.heap c ((s.heap c).bind drop) }

/-- One more reference for every occurrence in a list. -/
def addRefs (list : List ClientRef) (s : TcpServerController) : TcpServerController :=
  { s with heap := fun d =>
      (s.heap d).map fun client => { client with refCount := client.refCount + list.count d } }

/-- The client runs its own service thread. -/
def threadStarted (client : TcpClient) : TcpClient :=
  { client with clientThread := .receiving, threaded := true, refCount := client.refCount + 1 }

/-- The thread of the client is gone. -/
def threadStopped (client : TcpClient) : TcpClient :=
  { client with clientThread := .null, threaded := false }

/-- The test of `LookUpClientDB`. -/
def keyed (ipAddr : UInt32) (portNo : UInt16) (s : TcpServerController) (c : ClientRef) : Bool :=
  (s.heap c).any fun client => client.ipAddr = ipAddr ∧ client.portNo = portNo

/-- The first client of the database under a key. -/
def keyFound (ipAddr : UInt32) (portNo : UInt16) (s : TcpServerController) : Option ClientRef :=
  s.tcpClientDb.find? (keyed ipAddr portNo s)

end Server

open Server

section

variable {s t : TcpServerController} {c d : ClientRef} {client : TcpClient} {u : Unit}

@[simp] theorem heap_mapClient (f : TcpClient → TcpClient) :
    (s.mapClient c f).heap d = if d = c then (s.heap c).map f else s.heap d :=
  Function.update_apply ..

@[simp] theorem heap_freeClient : (s.freeClient c).heap d = if d = c then none else s.heap d :=
  Function.update_apply ..

@[simp] theorem heap_release : (release c s).heap d = if d = c then (s.heap c).bind drop else s.heap d :=
  Function.update_apply ..

@[simp] theorem heap_mapSvcMgr (f : TcpClientServiceManager → TcpClientServiceManager) :
    (s.mapSvcMgr f).heap = s.heap :=
  rfl

/-- A client outlives a dereference when another reference is left. -/
theorem drop_eq_some {left : TcpClient} (kept : drop client = some left) :
    2 ≤ client.refCount ∧ left = { client with refCount := client.refCount - 1 } := by
  rw [drop] at kept
  split_ifs at kept with last
  cases kept
  exact ⟨by omega, rfl⟩

/-- An assertion returns only where it holds. -/
@[simp] theorem runs_assertThat {condition : Prop} [Decidable condition] :
    (assertThat condition).Runs s u t ↔ condition ∧ s = t := by
  rw [assertThat, runs_ite]
  split_ifs with holds
  · simp only [runs_pure, holds, true_and]
  · simp only [runs_fail, holds, false_and]

/-- A pointer is followed only to an allocated client. -/
@[simp] theorem runs_deref : (deref c).Runs s client t ↔ s.heap c = some client ∧ s = t := by
  simp only [deref, runs_bind, runs_read]
  constructor
  · rintro ⟨_, _, ⟨rfl, rfl⟩, ran⟩
    cases found : s.heap c with
    | none => rw [found] at ran; cases ran
    | some other =>
      rw [found] at ran
      obtain ⟨rfl, rfl⟩ := runs_pure.mp ran
      exact ⟨rfl, rfl⟩
  · rintro ⟨found, rfl⟩
    refine ⟨s, s, ⟨rfl, rfl⟩, ?_⟩
    rw [found]
    exact runs_pure.mpr ⟨rfl, rfl⟩

@[simp] theorem runs_modifyClient {f : TcpClient → TcpClient} :
    (modifyClient c f).Runs s u t ↔ (∃ client, s.heap c = some client) ∧ s.mapClient c f = t := by
  simp only [modifyClient, runs_bind, runs_deref, runs_update]
  constructor
  · rintro ⟨client, _, ⟨found, rfl⟩, rfl⟩
    exact ⟨⟨client, found⟩, rfl⟩
  · rintro ⟨⟨client, found⟩, rfl⟩
    exact ⟨client, s, ⟨found, rfl⟩, rfl⟩

@[simp] theorem runs_newClient :
    (newClient client).Runs s c t ↔ c = s.nextClient ∧
      { s with heap := Function.update s.heap s.nextClient (some client), nextClient := s.nextClient + 1 } =
        t := by
  simp only [newClient, runs_bind, runs_exchange, runs_pure]
  constructor
  · rintro ⟨_, _, ⟨rfl, rfl⟩, rfl, rfl⟩
    exact ⟨rfl, rfl⟩
  · rintro ⟨rfl, rfl⟩
    exact ⟨s, _, ⟨rfl, rfl⟩, rfl, rfl⟩

@[simp] theorem runs_derefSvcMgr {m : TcpClientServiceManager} :
    derefSvcMgr.Runs s m t ↔ s.tcpClientSvcMgr = some m ∧ s = t := by
  simp only [derefSvcMgr, runs_bind, runs_read]
  constructor
  · rintro ⟨_, _, ⟨rfl, rfl⟩, ran⟩
    cases found : s.tcpClientSvcMgr with
    | none => rw [found] at ran; cases ran
    | some other =>
      rw [found] at ran
      obtain ⟨rfl, rfl⟩ := runs_pure.mp ran
      exact ⟨rfl, rfl⟩
  · rintro ⟨found, rfl⟩
    refine ⟨s, s, ⟨rfl, rfl⟩, ?_⟩
    rw [found]
    exact runs_pure.mpr ⟨rfl, rfl⟩

@[simp] theorem runs_notify {call : Call} :
    (notify call).Runs s u t ↔ { s with calls := s.calls ++ [call] } = t :=
  runs_update

/-- The queue after `EnqueMsg`. -/
def enqueued (caller : ThreadId) (code : List CtrlrAction) (data : ClientRef) (blockMe : Bool)
    (msgQ : List TcpServerMsg) : List TcpServerMsg :=
  if blockMe then ⟨code, data, some caller⟩ :: msgQ else msgQ ++ [⟨code, data, none⟩]

@[simp] theorem runs_enqueMsg {caller : ThreadId} {code : List CtrlrAction} {blockMe : Bool} :
    (enqueMsg caller code d blockMe).Runs s u t ↔
      { s with msgQ := enqueued caller code d blockMe s.msgQ } = t := by
  cases blockMe <;>
    simp only [enqueMsg, enqueued, runs_bind, runs_perform, runs_when, runs_update, if_true,
      Bool.false_eq_true, if_false, exists_const, exists_eq_left', ite_self]

/-- A client is freed only without threads. -/
theorem abort_runs (ran : (TcpClient.abort c).Runs s u t) :
    ∃ client, s.heap c = some client ∧ client.clientThread = .null ∧ client.activeConnectThread = .null ∧
      t = s.freeClient c := by
  simp only [TcpClient.abort, runs_bind, runs_deref, runs_assertThat, runs_update] at ran
  obtain ⟨client, _, ⟨found, rfl⟩, _, _, ⟨thread, rfl⟩, _, _, ⟨connector, rfl⟩, _, _,
      ⟨_, rfl⟩, rfl⟩ :=
    ran
  exact ⟨client, found, thread, connector, rfl⟩

/-- Taking a reference counts one up. -/
theorem reference_runs (ran : (TcpClient.reference c).Runs s u t) :
    (∃ client, s.heap c = some client) ∧ t = addRefs [c] s := by
  obtain ⟨alive, rfl⟩ := runs_modifyClient.mp ran
  refine ⟨alive, ?_⟩
  rw [TcpServerController.mapClient, addRefs]
  congr 1
  funext d
  rw [Function.update_apply]
  split_ifs with same
  · rw [same, List.count_singleton_self]
  · have other : [c].count d = 0 := List.count_eq_zero.mpr (by simpa using same)
    simp only [other, Nat.add_zero, Option.map_id']

/-- Giving a reference up counts one down, and frees the client with the last. -/
theorem dereference_runs {left : Bool} (ran : (TcpClient.dereference c).Runs s left t) :
    ∃ client, s.heap c = some client ∧ t = release c s ∧ (left = true ↔ 2 ≤ client.refCount) ∧
      (client.refCount ≤ 1 → client.clientThread = .null ∧ client.activeConnectThread = .null) := by
  simp only [TcpClient.dereference, runs_bind, runs_deref] at ran
  obtain ⟨client, _, ⟨found, rfl⟩, ran⟩ := ran
  refine ⟨client, found, ?_⟩
  rw [runs_ite] at ran
  split_ifs at ran with zero
  · simp only [runs_bind, runs_pure] at ran
    obtain ⟨_, _, aborted, rfl, rfl⟩ := ran
    obtain ⟨other, found', thread, connector, rfl⟩ := abort_runs aborted
    obtain rfl := Option.some.inj (found.symm.trans found')
    refine ⟨?_, by simp [zero], fun _ => ⟨thread, connector⟩⟩
    rw [release, TcpServerController.freeClient, found, Option.bind_some, drop, if_pos (by omega)]
  · simp only [runs_bind, runs_modifyClient, runs_deref] at ran
    obtain ⟨_, _, ⟨_, rfl⟩, after, _, ⟨found', rfl⟩, ran⟩ := ran
    rw [heap_mapClient, if_pos rfl, found, Option.map_some, Option.some.injEq] at found'
    subst found'
    rw [runs_ite] at ran
    split_ifs at ran with more
    · obtain ⟨rfl, rfl⟩ := runs_pure.mp ran
      have several : 2 ≤ client.refCount := by dsimp only at more; omega
      refine ⟨?_, by simp [several], fun last => by omega⟩
      rw [release, TcpServerController.mapClient, found, Option.bind_some, drop, if_neg (by omega),
        Option.map_some]
    · simp only [runs_bind, runs_pure] at ran
      obtain ⟨_, _, aborted, rfl, rfl⟩ := ran
      obtain ⟨other, found', thread, connector, rfl⟩ := abort_runs aborted
      rw [heap_mapClient, if_pos rfl, found, Option.map_some, Option.some.injEq] at found'
      subst found'
      have last : client.refCount ≤ 1 := by dsimp only at more; omega
      refine ⟨?_, ⟨by simp, fun several => by omega⟩, fun _ => ⟨thread, connector⟩⟩
      rw [release, TcpServerController.freeClient, TcpServerController.mapClient, found, Option.bind_some, drop,
        if_pos last]
      simp only [Function.update_idem]

/-- A client without threads and without references can be freed. -/
theorem abort_returns (found : s.heap c = some client)
    (idle : client.clientThread = .null ∧ client.activeConnectThread = .null) (unheld : client.refCount = 0) :
    (TcpClient.abort c).Runs s () (s.freeClient c) := by
  simp only [TcpClient.abort, runs_bind, runs_deref, runs_assertThat, runs_update]
  exact ⟨client, s, ⟨found, rfl⟩, (), s, ⟨idle.1, rfl⟩, (), s, ⟨idle.2, rfl⟩, (), s,
    ⟨unheld, rfl⟩, rfl⟩

/-- `Dereference` fails if it destroys a client that still has a thread. -/
theorem dereference_returns (found : s.heap c = some client)
    (idle : client.refCount ≤ 1 → client.clientThread = .null ∧ client.activeConnectThread = .null) :
    ∃ left, (TcpClient.dereference c).Runs s left (release c s) := by
  simp only [TcpClient.dereference, runs_bind, runs_deref]
  by_cases zero : client.refCount = 0
  · refine ⟨false, client, s, ⟨found, rfl⟩, ?_⟩
    have freed : release c s = s.freeClient c := by
      rw [release, TcpServerController.freeClient, found, Option.bind_some, drop, if_pos (by omega)]
    rw [runs_ite, if_pos zero, freed]
    simp only [runs_bind, runs_pure]
    exact ⟨(), _, abort_returns found (idle (by omega)) zero, trivial, rfl⟩
  · have less : (s.mapClient c fun client => { client with refCount := client.refCount - 1 }).heap c =
        some { client with refCount := client.refCount - 1 } := by
      rw [heap_mapClient, if_pos rfl, found, Option.map_some]
    by_cases last : client.refCount ≤ 1
    · refine ⟨false, client, s, ⟨found, rfl⟩, ?_⟩
      have freed : release c s =
          (s.mapClient c fun client => { client with refCount := client.refCount - 1 }).freeClient c := by
        rw [release, TcpServerController.freeClient, TcpServerController.mapClient, found, Option.bind_some, drop,
          if_pos last]
        simp only [Function.update_idem]
      rw [runs_ite, if_neg zero, freed]
      simp only [runs_bind, runs_modifyClient, runs_deref]
      refine ⟨(), _, ⟨⟨client, found⟩, rfl⟩, _, _, ⟨less, rfl⟩, ?_⟩
      rw [runs_ite, if_neg (by dsimp only; omega)]
      simp only [runs_bind, runs_pure]
      exact ⟨(), _, abort_returns less (idle last) (by dsimp only; omega), trivial, rfl⟩
    · refine ⟨true, client, s, ⟨found, rfl⟩, ?_⟩
      have kept : release c s = s.mapClient c fun client => { client with refCount := client.refCount - 1 } := by
        rw [release, TcpServerController.mapClient, found, Option.bind_some, drop, if_neg last, Option.map_some]
      rw [runs_ite, if_neg zero, kept]
      simp only [runs_bind, runs_modifyClient, runs_deref]
      refine ⟨(), _, ⟨⟨client, found⟩, rfl⟩, _, _, ⟨less, rfl⟩, ?_⟩
      rw [runs_ite, if_pos (by dsimp only; omega), runs_pure]
      exact ⟨rfl, rfl⟩

theorem mapClient_mapClient (f g : TcpClient → TcpClient) :
    (s.mapClient c f).mapClient c g = s.mapClient c (g ∘ f) := by
  simp only [TcpServerController.mapClient, Function.update_self, Function.update_idem, Option.map_map]

theorem addRefs_cons (list : List ClientRef) : addRefs (c :: list) s = addRefs list (addRefs [c] s) := by
  simp only [addRefs, Option.map_map]
  congr 1
  funext d
  congr 1
  funext client
  simp only [Function.comp_apply, List.count_cons, List.count_nil, Nat.zero_add, Nat.add_assoc,
    Nat.add_comm (List.count d list)]

/-- References may be counted before or after a change of the other fields. -/
theorem addRefs_mapClient (list : List ClientRef) {f : TcpClient → TcpClient}
    (blind : ∀ client n, f { client with refCount := client.refCount + n } =
      { f client with refCount := (f client).refCount + n }) :
    addRefs list (s.mapClient c f) = (addRefs list s).mapClient c f := by
  simp only [addRefs, TcpServerController.mapClient]
  congr 1
  funext d
  simp only [Function.update_apply]
  split_ifs with same
  · subst same
    simp only [Option.map_map, Function.comp_def, blind]
  · rfl

/-- A write that the count does not see goes past a release. -/
theorem release_mapClient {f : TcpClient → TcpClient}
    (blind : ∀ client, drop (f client) = (drop client).map f) :
    (release c s).mapClient c f = release c (s.mapClient c f) := by
  simp only [release, TcpServerController.mapClient, Function.update_self, Function.update_idem]
  congr 2
  cases s.heap c with
  | none => rfl
  | some client => exact (blind client).symm

theorem addRefs_nil : addRefs [] s = s := by
  simp only [addRefs, List.count_nil, Nat.add_zero, Option.map_id']

/-- A thread is started for a client that has none. -/
theorem startThread_runs (ran : (TcpClient.startThread c).Runs s u t) :
    ∃ client, s.heap c = some client ∧ client.clientThread = .null ∧ t = s.mapClient c threadStarted := by
  simp only [TcpClient.startThread, TcpClient.reference, runs_bind, runs_deref, runs_assertThat,
    runs_modifyClient, runs_perform] at ran
  obtain ⟨client, _, ⟨found, rfl⟩, _, _, ⟨idle, rfl⟩, _, _, ⟨_, rfl⟩, _, _, ⟨_, rfl⟩, _, _,
      rfl, _, rfl⟩ :=
    ran
  refine ⟨client, found, idle, ?_⟩
  rw [mapClient_mapClient, mapClient_mapClient]
  rfl

theorem createMultiThreadedClient_runs (ran : (TcpServerController.createMultiThreadedClient c).Runs s u t) :
    ∃ client, s.heap c = some client ∧ client.clientThread = .null ∧ t = s.mapClient c threadStarted := by
  simp only [TcpServerController.createMultiThreadedClient, runs_bind, runs_deref, runs_assertThat] at ran
  obtain ⟨_, _, ⟨_, rfl⟩, _, _, ⟨_, rfl⟩, ran⟩ := ran
  exact startThread_runs ran

/-- Stopping the thread gives its reference up. -/
theorem stopThread_runs (ran : (TcpClient.stopThread c).Runs s u t) :
    ∃ client, s.heap c = some client ∧ client.clientThread ≠ .null ∧
      t = release c (s.mapClient c threadStopped) ∧
      (client.refCount ≤ 1 → client.activeConnectThread = .null) := by
  simp only [TcpClient.stopThread, runs_bind, runs_deref, runs_assertThat, runs_modifyClient, runs_perform,
    runs_pure] at ran
  obtain ⟨client, _, ⟨found, rfl⟩, _, _, ⟨running, rfl⟩, _, _, rfl, _, _, ⟨_, rfl⟩, _, _,
      ⟨_, rfl⟩, _, _,
    released, _, rfl⟩ := ran
  obtain ⟨left, found', rfl, _, idle⟩ := dereference_runs released
  rw [mapClient_mapClient, heap_mapClient, if_pos rfl, found, Option.map_some, Option.some.injEq] at found'
  subst found'
  refine ⟨client, found, running, ?_, fun last => (idle last).2⟩
  rw [mapClient_mapClient]
  rfl

/-- What a search in a list finds. -/
theorem lookUpClientDB_runs {ipAddr : UInt32} {portNo : UInt16} {list : List ClientRef}
    {found : Option ClientRef} (ran : (lookUpClientDB ipAddr portNo list).Runs s found t) :
    t = s ∧ found = list.find? (keyed ipAddr portNo s) := by
  induction list generalizing s with
  | nil =>
    obtain ⟨rfl, rfl⟩ := runs_pure.mp ran
    exact ⟨rfl, rfl⟩
  | cons d rest ih =>
    simp only [lookUpClientDB, runs_bind, runs_deref] at ran
    obtain ⟨client, _, ⟨alive, rfl⟩, ran⟩ := ran
    rw [runs_ite] at ran
    rw [List.find?_cons, keyed, alive, Option.any_some]
    split_ifs at ran with same
    · obtain ⟨rfl, rfl⟩ := runs_pure.mp ran
      rw [decide_eq_true same]
      exact ⟨rfl, rfl⟩
    · obtain ⟨rfl, rfl⟩ := ih ran
      rw [decide_eq_false same]
      exact ⟨rfl, rfl⟩

/-- A client whose key is not found in a list is not in the list. -/
theorem lookUpClientDB_absent {list : List ClientRef}
    (ran : (lookUpClientDB client.ipAddr client.portNo list).Runs s none t) (found : s.heap c = some client) :
    c ∉ list := by
  intro member
  have absent := List.find?_eq_none.mp (lookUpClientDB_runs ran).2.symm c member
  rw [keyed, found, Option.any_some, decide_eq_true ⟨rfl, rfl⟩] at absent
  exact absent rfl

/-- A client is added to the database once, with a reference. -/
theorem addClientToDB_runs (ran : (TcpClientDbManager.addClientToDB c).Runs s u t) :
    (∃ client, s.heap c = some client) ∧ c ∉ s.tcpClientDb ∧
      t = addRefs [c] { s with tcpClientDb := s.tcpClientDb ++ [c] } := by
  simp only [TcpClientDbManager.addClientToDB, runs_bind, runs_deref, runs_read, runs_assertThat, runs_update,
    runs_perform] at ran
  obtain ⟨_, _, rfl, client, _, ⟨found, rfl⟩, _, _, ⟨rfl, rfl⟩, _, _, searched, _, _, ⟨rfl, rfl⟩, _,
      _, rfl, _, _,
    referenced, rfl⟩ := ran
  have absent := lookUpClientDB_absent searched found
  obtain ⟨rfl, _⟩ := lookUpClientDB_runs searched
  exact ⟨⟨client, found⟩, absent, (reference_runs referenced).2⟩

/-- A client removed from the database loses that reference. -/
theorem removeClientFromDB_runs (ran : (TcpClientDbManager.removeClientFromDB c).Runs s u t) :
    ∃ client, s.heap c = some client ∧ t = release c { s with tcpClientDb := remove c s.tcpClientDb } ∧
      (client.refCount ≤ 1 → client.clientThread = .null ∧ client.activeConnectThread = .null) := by
  simp only [TcpClientDbManager.removeClientFromDB, runs_bind, runs_update, runs_perform] at ran
  obtain ⟨_, _, rfl, _, _, rfl, _, _, released, rfl⟩ := ran
  obtain ⟨client, found, rfl, _, idle⟩ := dereference_runs released
  exact ⟨client, found, rfl, idle⟩

/-- Removing by key removes the first client under it, if there is one. -/
theorem removeKeyFromDB_runs {ipAddr : UInt32} {portNo : UInt16} {left : Option ClientRef}
    (ran : (TcpClientDbManager.removeKeyFromDB ipAddr portNo).Runs s left t) :
    (left = none ∧ t = s) ∨
      ∃ c client, keyFound ipAddr portNo s = some c ∧ s.heap c = some client ∧
        t = release c { s with tcpClientDb := remove c s.tcpClientDb } ∧
        (left = if 2 ≤ client.refCount then some c else none) ∧
        (client.refCount ≤ 1 → client.clientThread = .null ∧ client.activeConnectThread = .null) := by
  simp only [TcpClientDbManager.removeKeyFromDB, runs_bind, runs_read, runs_perform] at ran
  obtain ⟨_, _, rfl, _, _, ⟨rfl, rfl⟩, found, _, searched, ran⟩ := ran
  obtain ⟨rfl, first⟩ := lookUpClientDB_runs searched
  cases found with
  | none =>
    simp only [runs_bind, runs_perform, runs_pure] at ran
    obtain ⟨_, _, rfl, rfl, rfl⟩ := ran
    exact .inl ⟨rfl, rfl⟩
  | some c =>
    simp only [runs_bind, runs_perform, runs_update, runs_pure] at ran
    obtain ⟨_, _, rfl, kept, _, released, _, _, rfl, rfl, rfl⟩ := ran
    obtain ⟨client, found, rfl, kept_iff, idle⟩ := dereference_runs released
    refine .inr ⟨c, client, first.symm, found, rfl, ?_, idle⟩
    by_cases several : 2 ≤ client.refCount
    · rw [if_pos several, if_pos (kept_iff.mpr several)]
    · rw [if_neg several, if_neg fun true_ => several (kept_iff.mp true_)]

/-- Looking a client up changes nothing. -/
theorem lookUpClientDB_ThreadSafe_runs {ipAddr : UInt32} {portNo : UInt16} {found : Option ClientRef}
    (ran : (TcpClientDbManager.lookUpClientDB_ThreadSafe ipAddr portNo).Runs s found t) :
    t = s ∧ found = keyFound ipAddr portNo s := by
  simp only [TcpClientDbManager.lookUpClientDB_ThreadSafe, runs_bind, runs_read, runs_perform, runs_pure] at ran
  obtain ⟨_, _, rfl, _, _, ⟨rfl, rfl⟩, _, _, searched, _, _, rfl, rfl, rfl⟩ := ran
  exact lookUpClientDB_runs searched

end

end TcpServerLib.Refinement
