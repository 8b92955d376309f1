import TcpServerLib.Machine.LockOrder
import TcpServerLib.Model.ServerThreads
import TcpServerLib.Refinement.SilentOperations

/-! # The locks of the operations

`EnqueMsg` takes `msgq_mutex`, and everything else takes only the locks of the client database and
of the connections, never one inside the other. Each operation gives back what it takes.
-/

namespace TcpServerLib.Refinement

open Machine Model Prog

/-- The order of the locks of a server, and the threads that may join others. -/
def serverOrder : Discipline Sync ThreadId Lock where
  kind := Sync.kind
  rank := Lock.rank
  controls := ThreadId.controls

/-- Under locks of lower rank, the program keeps to the order and leaves with the locks it came with. -/
def Balanced {α : Type} (t : ThreadId) (bound : ℕ) (program : Op α) : Prop :=
  ∀ held, (∀ h ∈ held, Lock.rank h < bound) → program.Obeys (serverOrder.advance t) held (· = held)

section

variable {α β : Type} {t : ThreadId} {bound : ℕ} {program : Op α} {continued : α → Op β}
  {held : List Lock} {after : List Lock → Prop} {c : ClientRef}

/-- A program without actions touches no lock. -/
theorem unlocked (silent : program.Silent) : Balanced t bound program :=
  fun _ _ => silent.obeys

/-- Programs that leave with the locks they came with can be put one behind the other. -/
theorem balanced_bind (first : Balanced t bound program) (rest : ∀ a, Balanced t bound (continued a)) :
    Balanced t bound (program >>= continued) :=
  fun held below => (first held below).andThen fun a => rest a held below

/-- A condition is no matter of locks. -/
theorem balanced_when {condition : Prop} [Decidable condition] {program : Op Unit}
    (yes : condition → Balanced t bound program) : Balanced t bound (when condition program) :=
  fun held below => obeys_when (fun holds => yes holds held below) fun _ => rfl

theorem balanced_ite {condition : Prop} [Decidable condition] {yes no : Op α}
    (first : condition → Balanced t bound yes) (second : ¬ condition → Balanced t bound no) :
    Balanced t bound (if condition then yes else no) :=
  fun held below => obeys_ite (fun holds => first holds held below) fun fails => second fails held below

theorem balanced_fail {fault : Fault} : Balanced t bound (.fail fault : Op α) :=
  fun _ _ => trivial

theorem balanced_pure {a : α} : Balanced t bound (pure a : Op α) :=
  fun _ _ => rfl

/-- A lock is taken if it ranks above those the thread holds. -/
theorem obeys_lock {l : Lock} {continued : Unit → Op α} (below : ∀ h ∈ held, h.rank < l.rank)
    (rest : (continued ()).Obeys (serverOrder.advance t) (l :: held) after) :
    (perform (.lock l) >>= continued).Obeys (serverOrder.advance t) held after :=
  ⟨l :: held, if_pos below, rest⟩

/-- The lock that was taken last is given back. -/
theorem advance_unlock {l : Lock} : serverOrder.advance t (l :: held) (.unlock l) = some held := by
  change (if l ∈ l :: held then some ((l :: held).erase l) else none) = _
  rw [if_pos List.mem_cons_self, List.erase_cons_head]

/-- What follows an unlock runs with the other locks. -/
theorem obeys_unlock {l : Lock} {continued : Unit → Op α}
    (rest : (continued ()).Obeys (serverOrder.advance t) held after) :
    (perform (.unlock l) >>= continued).Obeys (serverOrder.advance t) (l :: held) after :=
  ⟨held, advance_unlock, rest⟩

theorem obeys_unlock_last {l : Lock} :
    (perform (.unlock l) : Op Unit).Obeys (serverOrder.advance t) (l :: held) (· = held) :=
  obeys_perform advance_unlock rfl

/-- What happens under a lock that is given back at the end. -/
theorem Balanced.inside {l : Lock} {body : Op α} {continued : α → Op β}
    (body' : Balanced t (l.rank + 1) body) (below : ∀ h ∈ held, h.rank < l.rank)
    (rest : ∀ a, (continued a).Obeys (serverOrder.advance t) (l :: held) after) :
    (body >>= continued).Obeys (serverOrder.advance t) (l :: held) after := by
  refine (body' (l :: held) fun h member => ?_).andThen rest
  rcases List.mem_cons.mp member with rfl | lower
  · exact Nat.lt_succ_self _
  · exact Nat.lt_succ_of_lt (below h lower)

/-- A new thread comes without locks. -/
theorem balanced_create {other : ThreadId} : Balanced t bound (perform (.create other)) :=
  fun held _ => ⟨held, rfl, rfl⟩

/-- Only the message queue thread and the application join others. -/
theorem balanced_cancelJoin {other : ThreadId} (controls : t.controls = true) (worker : other.controls = false) :
    Balanced t bound (perform (.cancelJoin other)) :=
  fun held _ => ⟨held, if_pos ⟨controls, worker⟩, rfl⟩

/-- A message is posted under the mutex of the queue, which is free then. -/
theorem balanced_enqueMsg {caller : ThreadId} {code : List CtrlrAction} {blockMe : Bool} :
    Balanced t 0 (enqueMsg caller code c blockMe) := by
  intro held below
  have none : held = [] := List.eq_nil_iff_forall_not_mem.mpr fun h member =>
      absurd (below h member) (Nat.not_lt_zero _)
  subst none
  refine obeys_lock (fun h member => absurd member List.not_mem_nil)
    (silent_update.obeys.andThen fun _ => obeys_unlock ?_)
  exact obeys_when (fun _ => ⟨[], rfl, rfl⟩) fun _ => rfl

theorem balanced_acceptClient {ipAddr : UInt32} {portNo : UInt16} :
    Balanced t 0 (TcpServerController.acceptClient ipAddr portNo) := by
  refine balanced_bind (unlocked silent_read) fun s => balanced_bind (unlocked silent_newClient) fun c => ?_
  refine balanced_bind (balanced_when fun _ => (unlocked silent_notify)) fun _ => ?_
  refine balanced_bind (unlocked silent_read) fun s => ?_
  exact balanced_ite (fun _ => balanced_enqueMsg) fun _ => balanced_enqueMsg

theorem balanced_receive {r : Recv} : Balanced t 0 (TcpClientServiceManager.receive c r) := by
  refine balanced_bind (unlocked silent_deref) fun client => balanced_bind (unlocked silent_read) fun s => ?_
  refine balanced_ite (fun _ => balanced_ite (fun _ => ?_) fun _ => balanced_fail) fun _ => ?_
  · refine balanced_bind (unlocked silent_notify) fun _ => balanced_bind (unlocked silent_update) fun _ => ?_
    exact balanced_enqueMsg
  · refine balanced_bind (unlocked silent_modifyClient) fun _ => ?_
    split
    · exact unlocked silent_processMsg
    · exact balanced_when fun _ => unlocked silent_notify

theorem balanced_visit {r : Recv} : Balanced t 0 (TcpClientServiceManager.visit r) := by
  refine balanced_bind (unlocked silent_derefSvcMgr) fun m => ?_
  split
  · exact balanced_pure
  · refine balanced_bind (unlocked silent_update) fun _ => balanced_bind (unlocked silent_deref) fun _ => ?_
    exact balanced_when fun _ => balanced_receive

/-- The thread of a client takes no lock but that of the queue. -/
theorem balanced_clientThreadFunction {r : Recv} : Balanced t 0 (TcpClient.clientThreadFunction c r) := by
  refine balanced_bind (unlocked silent_deref) fun client => balanced_bind (unlocked silent_read) fun s => ?_
  refine balanced_ite (fun _ => ?_) fun _ => ?_
  · refine balanced_bind (balanced_when fun _ => (unlocked silent_notify)) fun _ => ?_
    refine balanced_bind (unlocked silent_modifyClient) fun _ => ?_
    exact balanced_ite (fun _ => balanced_enqueMsg) fun _ => balanced_enqueMsg
  · split
    · exact balanced_bind (unlocked silent_modifyClient) fun _ => unlocked silent_processMsg
    · refine balanced_when fun _ => balanced_bind (unlocked silent_modifyClient) fun _ => ?_
      exact unlocked silent_notify

/-- The retry thread ends without locks. -/
theorem connectRetryFn_obeys {portNo : UInt16} :
    (TcpClient.connectRetryFn c portNo).Obeys (serverOrder.advance t) [] (· = []) := by
  have none : ∀ h ∈ ([] : List Lock), h.rank < 0 := fun h member => absurd member List.not_mem_nil
  have posts : Balanced t 0 (TcpClient.connectRetryPost c portNo) := by
    refine balanced_bind (unlocked silent_connectSucceeded) fun _ => balanced_bind balanced_enqueMsg fun _ => ?_
    exact unlocked silent_modifyClient
  refine (posts [] none).andThen fun _ => silent_modifyClient.obeys.andThen fun _ => ?_
  exact silent_dereference.obeys.andThen fun _ => ⟨[], rfl, rfl⟩

end

section

variable {t : ThreadId} {bound : ℕ} {c : ClientRef} (controls : t.controls = true)

/-- To start the thread of a client takes no lock. -/
theorem balanced_startThread : Balanced t bound (TcpClient.startThread c) := by
  refine balanced_bind (unlocked silent_deref) fun client =>
    balanced_bind (unlocked silent_assertThat) fun _ => ?_
  refine balanced_bind (unlocked silent_modifyClient) fun _ =>
    balanced_bind (unlocked silent_modifyClient) fun _ => ?_
  exact balanced_bind balanced_create fun _ => unlocked silent_reference

include controls in
/-- To stop it takes none either, and joins a worker. -/
theorem balanced_stopThread : Balanced t bound (TcpClient.stopThread c) := by
  refine balanced_bind (unlocked silent_deref) fun client =>
    balanced_bind (unlocked silent_assertThat) fun _ => ?_
  refine balanced_bind (balanced_cancelJoin controls rfl) fun _ => ?_
  refine balanced_bind (unlocked silent_modifyClient) fun _ =>
    balanced_bind (unlocked silent_modifyClient) fun _ => ?_
  exact balanced_bind (unlocked silent_dereference) fun _ => balanced_pure

include controls in
theorem balanced_stopConnectorThread : Balanced t bound (TcpClient.stopConnectorThread c) := by
  refine balanced_bind (unlocked silent_deref) fun client =>
    balanced_bind (unlocked silent_assertThat) fun _ => ?_
  refine balanced_bind (balanced_cancelJoin controls rfl) fun _ => ?_
  refine balanced_bind (unlocked silent_modifyClient) fun _ =>
    balanced_bind (unlocked silent_modifyClient) fun _ => ?_
  exact balanced_bind (unlocked silent_dereference) fun _ => balanced_pure

theorem balanced_tryClientConnect {tryAgain : Bool} {connect : ConnectResult} :
    Balanced t bound (TcpClient.tryClientConnect c tryAgain connect) := by
  refine balanced_bind (unlocked silent_deref) fun client => ?_
  iterate 5 refine balanced_bind (unlocked silent_assertThat) fun _ => ?_
  refine balanced_bind (unlocked silent_modifyClient) fun _ => ?_
  split
  · exact balanced_bind (unlocked silent_connectSucceeded) fun _ => balanced_pure
  · refine balanced_ite (fun _ => ?_) fun _ => balanced_pure
    refine balanced_bind (unlocked silent_modifyClient) fun _ =>
      balanced_bind (unlocked silent_reference) fun _ => ?_
    exact balanced_bind balanced_create fun _ => balanced_pure

theorem balanced_createMultiThreadedClient :
    Balanced t bound (TcpServerController.createMultiThreadedClient c) := by
  refine balanced_bind (unlocked silent_deref) fun client =>
    balanced_bind (unlocked silent_assertThat) fun _ => ?_
  exact balanced_startThread

/-- The lookup is made under the lock of the database. -/
theorem balanced_lookUpClientDB_ThreadSafe {ipAddr : UInt32} {portNo : UInt16} :
    Balanced t 1 (TcpClientDbManager.lookUpClientDB_ThreadSafe ipAddr portNo) := by
  intro held below
  refine obeys_lock below (silent_read.obeys.andThen fun s => silent_lookUpClientDB.obeys.andThen fun found => ?_)
  exact obeys_unlock rfl

/-- An addition is made under the lock of the database. -/
theorem balanced_addClientToDB : Balanced t 1 (TcpClientDbManager.addClientToDB c) := by
  intro held below
  refine obeys_lock below (silent_deref.obeys.andThen fun client => silent_read.obeys.andThen fun s => ?_)
  refine silent_lookUpClientDB.obeys.andThen fun found => silent_assertThat.obeys.andThen fun _ => ?_
  exact silent_update.obeys.andThen fun _ => silent_reference.obeys.andThen fun _ => obeys_unlock_last

/-- A removal is made under the lock of the database. -/
theorem balanced_removeClientFromDB : Balanced t 1 (TcpClientDbManager.removeClientFromDB c) := by
  intro held below
  refine obeys_lock below (silent_update.obeys.andThen fun _ => silent_dereference.obeys.andThen fun _ => ?_)
  exact obeys_unlock_last

theorem balanced_removeKeyFromDB {ipAddr : UInt32} {portNo : UInt16} :
    Balanced t 1 (TcpClientDbManager.removeKeyFromDB ipAddr portNo) := by
  intro held below
  refine obeys_lock below (silent_read.obeys.andThen fun s => silent_lookUpClientDB.obeys.andThen fun found => ?_)
  split
  · exact obeys_unlock rfl
  · exact silent_update.obeys.andThen fun _ => silent_dereference.obeys.andThen fun _ => obeys_unlock rfl

/-- The database is locked while its clients are copied. -/
theorem balanced_copyAllClientsTolist : Balanced t 1 TcpClientDbManager.copyAllClientsTolist := by
  intro held below
  refine obeys_lock below (silent_read.obeys.andThen fun s => silent_copyClientsTolist.obeys.andThen fun _ => ?_)
  exact obeys_unlock_last

include controls in
theorem balanced_dbPurgeFrom {fuel : ℕ} {list : List ClientRef} :
    Balanced t bound (TcpClientDbManager.purgeFrom fuel list) := by
  induction fuel generalizing list with
  | zero => exact balanced_pure
  | succ fuel ih =>
    cases list with
    | nil => exact balanced_pure
    | cons c rest =>
      refine balanced_bind (unlocked silent_deref) fun client => ?_
      refine balanced_bind (balanced_when fun _ => balanced_stopThread controls) fun _ => ?_
      refine balanced_bind (unlocked silent_update) fun _ =>
        balanced_bind (unlocked silent_dereference) fun _ => ?_
      exact balanced_ite (fun _ => balanced_fail) fun _ => ih

include controls in
/-- `Purge` locks the database once for all clients. -/
theorem balanced_dbPurge : Balanced t 1 TcpClientDbManager.purge := by
  intro held below
  refine obeys_lock below (silent_read.obeys.andThen fun s => ?_)
  exact (balanced_dbPurgeFrom controls).inside below fun _ => obeys_unlock_last

/-- The new service thread copies the database, and takes its lock for that. -/
theorem balanced_startSvcThread : Balanced t 1 TcpClientServiceManager.startTcpClientServiceManagerThread := by
  refine balanced_bind (unlocked silent_derefSvcMgr) fun m => balanced_bind (unlocked silent_update) fun _ => ?_
  refine balanced_bind balanced_create fun _ => balanced_bind (unlocked silent_read) fun s => ?_
  refine balanced_bind (balanced_when fun _ => balanced_copyAllClientsTolist) fun _ => ?_
  refine balanced_bind (unlocked silent_derefSvcMgr) fun m => balanced_bind (unlocked silent_update) fun _ => ?_
  exact balanced_bind (unlocked silent_copyClientFDtoFDSet) fun _ => unlocked silent_update

include controls in
/-- The service thread is joined without a lock of its own being asked for. -/
theorem balanced_stopSvcThread : Balanced t bound TcpClientServiceManager.stopTcpClientServiceManagerThread := by
  refine balanced_bind (unlocked silent_derefSvcMgr) fun m => balanced_when fun _ => ?_
  exact balanced_bind (balanced_cancelJoin controls rfl) fun _ => unlocked silent_update

include controls in
/-- The service thread is stopped, and started again. -/
theorem balanced_clientFDStartListenSimple :
    Balanced t 1 (TcpClientServiceManager.clientFDStartListenSimple c) := by
  refine balanced_bind (unlocked silent_derefSvcMgr) fun m => balanced_bind (unlocked silent_read) fun s => ?_
  refine balanced_bind (balanced_when fun _ => balanced_stopSvcThread controls) fun _ => ?_
  refine balanced_bind (unlocked silent_deref) fun client =>
    balanced_bind (unlocked silent_derefSvcMgr) fun m => ?_
  refine balanced_bind (unlocked silent_lookUpClientDB) fun found =>
    balanced_bind (unlocked silent_assertThat) fun _ => ?_
  refine balanced_bind (unlocked silent_svcAddClientToDB) fun _ =>
    balanced_bind (unlocked silent_modifyClient) fun _ => ?_
  exact balanced_bind (unlocked silent_read) fun s => balanced_when fun _ => balanced_startSvcThread

include controls in
theorem balanced_clientFDStopListenSimple :
    Balanced t 1 (TcpClientServiceManager.clientFDStopListenSimple c) := by
  refine balanced_bind (unlocked silent_derefSvcMgr) fun m => balanced_bind (unlocked silent_read) fun s => ?_
  refine balanced_bind (balanced_when fun _ => balanced_stopSvcThread controls) fun _ => ?_
  refine balanced_bind (unlocked silent_deref) fun client =>
    balanced_bind (unlocked silent_derefSvcMgr) fun m => ?_
  refine balanced_bind (unlocked silent_lookUpClientDB) fun found =>
    balanced_bind (unlocked silent_assertThat) fun _ => ?_
  refine balanced_bind (unlocked silent_svcRemoveClientFromDB) fun _ =>
    balanced_bind (unlocked silent_modifyClient) fun _ => ?_
  exact balanced_bind (unlocked silent_read) fun s => balanced_when fun _ => balanced_startSvcThread

include controls in
theorem balanced_svcStop : Balanced t bound TcpClientServiceManager.stop := by
  refine balanced_bind (balanced_stopSvcThread controls) fun _ => balanced_bind ?_ fun _ => ?_
  · refine balanced_bind (unlocked silent_derefSvcMgr) fun m =>
      balanced_bind (unlocked silent_assertThat) fun _ => ?_
    exact unlocked silent_svcPurgeFrom
  · exact balanced_bind (unlocked silent_derefSvcMgr) fun m => unlocked silent_assertThat

include controls in
/-- Either way of serving a client takes at most the lock of the database. -/
theorem balanced_serveInCreationMode : Balanced t 1 (TcpServerController.serveInCreationMode c) := by
  refine balanced_bind (unlocked silent_read) fun s => balanced_ite (fun _ => ?_) fun _ => ?_
  · exact balanced_createMultiThreadedClient
  · exact balanced_clientFDStartListenSimple controls

theorem balanced_moveToEstablished : Balanced t 1 (TcpServerController.moveToEstablished c) := by
  intro held below
  refine obeys_lock below (silent_update.obeys.andThen fun _ => silent_update.obeys.andThen fun _ => ?_)
  exact obeys_unlock_last

include controls in
/-- The deletion by a key takes the lock of the database, and gives it back. -/
theorem balanced_processKeyDelete {ipAddr : UInt32} {portNo : UInt16} :
    Balanced t 1 (TcpServerController.processKeyDelete ipAddr portNo) := by
  refine balanced_bind balanced_removeKeyFromDB fun found => ?_
  split
  · exact balanced_pure
  · refine balanced_bind (unlocked silent_deref) fun client => ?_
    exact balanced_when fun _ => balanced_clientFDStopListenSimple controls

theorem silent_removeActiveOpened {connected : Bool} :
    (TcpServerController.removeActiveOpened c connected).Silent := by
  refine obeys_ite (fun _ => ?_) fun _ => ?_ <;>
    exact avoids_bind silent_update fun _ => avoids_bind silent_dereference fun _ => trivial

include controls in
/-- A deletion takes one lock after the other. -/
theorem balanced_processClientDelete : Balanced t 1 (TcpServerController.processClientDelete c) := by
  refine balanced_bind (unlocked silent_reference) fun _ => balanced_bind (unlocked silent_deref) fun client => ?_
  refine balanced_bind (balanced_when fun _ => balanced_removeClientFromDB) fun _ => ?_
  refine balanced_bind (unlocked silent_deref) fun client => ?_
  refine balanced_bind (balanced_when fun _ => balanced_clientFDStopListenSimple controls) fun _ => ?_
  refine balanced_bind (unlocked silent_deref) fun client => ?_
  refine balanced_bind (balanced_when fun _ => balanced_stopThread controls) fun _ => ?_
  refine balanced_bind (unlocked silent_deref) fun client => balanced_bind (balanced_when fun _ => ?_) fun _ => ?_
  · intro held below
    refine obeys_lock below (silent_deref.obeys.andThen fun client =>
      silent_removeActiveOpened.obeys.andThen fun _ => ?_)
    exact obeys_unlock_last
  · exact balanced_bind (unlocked silent_dereference) fun _ => balanced_pure

include controls in
theorem balanced_processClientMigrationToMultiThreaded {ipAddr : UInt32} {portNo : UInt16} :
    Balanced t 1 (TcpServerController.processClientMigrationToMultiThreaded ipAddr portNo) := by
  refine balanced_bind balanced_lookUpClientDB_ThreadSafe fun found => ?_
  split
  · exact balanced_pure
  · refine balanced_bind (unlocked silent_deref) fun client => balanced_when fun _ => ?_
    exact balanced_bind (balanced_clientFDStopListenSimple controls) fun _ => balanced_createMultiThreadedClient

include controls in
theorem balanced_processClientMigrationToMultiplex {ipAddr : UInt32} {portNo : UInt16} :
    Balanced t 1 (TcpServerController.processClientMigrationToMultiplex ipAddr portNo) := by
  refine balanced_bind balanced_lookUpClientDB_ThreadSafe fun found => ?_
  split
  · exact balanced_pure
  · refine balanced_bind (unlocked silent_deref) fun client => balanced_when fun _ => ?_
    exact balanced_bind (balanced_stopThread controls) fun _ => balanced_clientFDStartListenSimple controls

include controls in
/-- A connection that is made at once is served like any other. -/
theorem balanced_createActiveClient {serverIpAddr : UInt32} {serverPortNo : UInt16} {connect : ConnectResult} :
    Balanced t 1 (TcpServerController.createActiveClient serverIpAddr serverPortNo connect) := by
  refine balanced_bind (unlocked silent_read) fun s => balanced_bind (unlocked silent_newClient) fun c => ?_
  have served : Balanced t 1 (do
      TcpClient.reference c
      let rc ← TcpClient.tryClientConnect c true connect
      when (rc = 0) do
        TcpServerController.moveToEstablished c
        TcpServerController.serveInCreationMode c) := by
    refine balanced_bind (unlocked silent_reference) fun _ => balanced_bind balanced_tryClientConnect fun rc => ?_
    refine balanced_when fun _ => balanced_bind balanced_moveToEstablished fun _ => ?_
    exact balanced_serveInCreationMode controls
  intro held below
  exact obeys_lock below (silent_update.obeys.andThen fun _ => obeys_unlock (served held below))

include controls in
theorem balanced_processThreadedAndSuccess {code : List CtrlrAction} :
    Balanced t 1 (TcpServerController.processThreadedAndSuccess code c) := by
  refine balanced_bind (balanced_when fun _ => ?_) fun _ => balanced_when fun _ => ?_
  · refine balanced_bind (unlocked silent_deref) fun client =>
      balanced_bind (unlocked silent_assertThat) fun _ => ?_
    exact balanced_createMultiThreadedClient
  · refine balanced_bind (unlocked silent_deref) fun client => ?_
    iterate 6 refine balanced_bind (unlocked silent_assertThat) fun _ => ?_
    exact balanced_bind balanced_moveToEstablished fun _ => balanced_serveInCreationMode controls

include controls in
theorem balanced_processToMultiplex {code : List CtrlrAction} :
    Balanced t 1 (TcpServerController.processToMultiplex code c) := by
  refine balanced_ite (fun _ => ?_) fun _ => balanced_processThreadedAndSuccess controls
  refine balanced_bind (unlocked silent_deref) fun client => balanced_when fun _ => ?_
  refine balanced_bind (balanced_when fun _ => balanced_stopThread controls) fun _ => ?_
  refine balanced_bind (balanced_clientFDStartListenSimple controls) fun _ => ?_
  exact balanced_processThreadedAndSuccess controls

include controls in
theorem balanced_processToMultithreaded {code : List CtrlrAction} :
    Balanced t 1 (TcpServerController.processToMultithreaded code c) := by
  refine balanced_ite (fun _ => ?_) fun _ => balanced_processToMultiplex controls
  refine balanced_bind (unlocked silent_deref) fun client => balanced_when fun _ => ?_
  refine balanced_bind (balanced_when fun _ => balanced_clientFDStopListenSimple controls) fun _ => ?_
  exact balanced_bind balanced_createMultiThreadedClient fun _ => balanced_processToMultiplex controls

include controls in
/-- Whatever the message asks for, no lock is left behind. -/
theorem balanced_processMsgQMsg {msg : TcpServerMsg} {connect : ConnectResult} :
    Balanced t 1 (TcpServerController.processMsgQMsg msg connect) := by
  refine balanced_ite (fun _ => balanced_processClientDelete controls) fun _ => ?_
  refine balanced_bind (balanced_when fun _ => ?_) fun _ => ?_
  · refine balanced_bind (unlocked silent_deref) fun client => ?_
    refine balanced_bind (balanced_processClientDelete controls) fun _ => ?_
    exact balanced_createActiveClient controls
  refine balanced_bind (balanced_when fun _ => balanced_addClientToDB) fun _ => ?_
  refine balanced_bind (balanced_when fun _ => ?_) fun _ => balanced_processToMultithreaded controls
  refine balanced_bind (unlocked silent_deref) fun client =>
    balanced_bind (unlocked silent_assertThat) fun _ => ?_
  exact balanced_clientFDStartListenSimple controls

theorem silent_postZeroSema {msg : TcpServerMsg} : (TcpServerController.postZeroSema msg).Silent := by
  rw [TcpServerController.postZeroSema]
  split
  · exact avoids_bind silent_read fun s => silent_assertThat
  · trivial

include controls in
theorem balanced_processFront {connect : ConnectResult} :
    Balanced t 1 (TcpServerController.processFront connect) := by
  refine balanced_bind (unlocked fun _ => trivial) fun s => ?_
  split
  · exact balanced_pure
  · exact balanced_bind (balanced_processMsgQMsg controls) fun _ => unlocked silent_postZeroSema

include controls in
/-- The messages of one turn. -/
theorem balanced_processMessages {connects : List ConnectResult} :
    Balanced t 1 (TcpServerController.processMessages connects) := by
  induction connects with
  | nil => exact balanced_pure
  | cons connect rest ih => exact balanced_bind (balanced_processFront controls) fun _ => ih

include controls in
/-- The message queue thread takes the mutex first, and the other locks under it. -/
theorem msgQProcessingThreadFn_obeys {connects : List ConnectResult} :
    (TcpServerController.msgQProcessingThreadFn connects).Obeys (serverOrder.advance t) [] (· = []) := by
  have none : ∀ h ∈ ([] : List Lock), h.rank < Lock.msgqMutex.rank :=
    fun h member => absurd member List.not_mem_nil
  exact obeys_lock none ((balanced_processMessages controls).inside none fun _ => obeys_unlock_last)

include controls in
theorem balanced_stopConnectionsAcceptorSvc :
    Balanced t bound TcpServerController.stopConnectionsAcceptorSvc := by
  refine balanced_bind (unlocked silent_read) fun s => balanced_when fun _ =>
    balanced_bind (unlocked silent_update) fun _ => ?_
  refine balanced_ite (fun _ => ?_) fun _ => balanced_fail
  exact balanced_bind (balanced_cancelJoin controls rfl) fun _ => unlocked silent_update

theorem balanced_startConnectionsAcceptorSvc :
    Balanced t bound TcpServerController.startConnectionsAcceptorSvc := by
  refine balanced_bind (unlocked silent_read) fun s => balanced_when fun _ =>
    balanced_bind (unlocked silent_update) fun _ => ?_
  exact balanced_bind (unlocked silent_update) fun _ => balanced_create

include controls in
/-- The application stops the service thread without holding a lock. -/
theorem balanced_stopClientSvcMgr : Balanced t bound TcpServerController.stopClientSvcMgr := by
  refine balanced_bind (unlocked silent_read) fun s => balanced_when fun _ => ?_
  refine balanced_bind (balanced_svcStop controls) fun _ => balanced_bind (unlocked silent_update) fun _ => ?_
  exact unlocked silent_update

/-- It starts the service thread, which locks the database to copy it. -/
theorem balanced_startClientSvcMgr : Balanced t 1 TcpServerController.startClientSvcMgr := by
  refine balanced_bind (unlocked silent_read) fun s => balanced_when fun _ =>
    balanced_bind (unlocked silent_update) fun _ => ?_
  exact balanced_bind balanced_startSvcThread fun _ => unlocked silent_update

include controls in
theorem balanced_stopPending {fuel : ℕ} : Balanced t bound (TcpServerController.stopPending fuel) := by
  induction fuel with
  | zero => exact balanced_pure
  | succ fuel ih =>
    refine balanced_bind (unlocked silent_read) fun s => ?_
    split
    · exact balanced_pure
    · refine balanced_bind (unlocked silent_deref) fun client =>
        balanced_bind (unlocked silent_assertThat) fun _ => ?_
      refine balanced_bind (balanced_stopConnectorThread controls) fun _ =>
        balanced_bind (unlocked silent_update) fun _ => ?_
      exact balanced_bind (unlocked silent_dereference) fun _ => ih

include controls in
theorem balanced_stopEstablished {fuel : ℕ} : Balanced t bound (TcpServerController.stopEstablished fuel) := by
  induction fuel with
  | zero => exact balanced_pure
  | succ fuel ih =>
    refine balanced_bind (unlocked silent_read) fun s => ?_
    split
    · exact balanced_pure
    · refine balanced_bind (unlocked silent_deref) fun client =>
        balanced_bind (unlocked silent_assertThat) fun _ => ?_
      refine balanced_bind (balanced_when fun _ => balanced_stopThread controls) fun _ => ?_
      refine balanced_bind (unlocked silent_update) fun _ =>
        balanced_bind (unlocked silent_dereference) fun _ => ?_
      exact ih

include controls in
/-- The two lists of active clients are emptied under their lock. -/
theorem balanced_closeDown : Balanced t 1 TcpServerController.closeDown := by
  refine balanced_bind (unlocked silent_read) fun s => balanced_bind (balanced_when fun _ => ?_) fun _ => ?_
  · refine balanced_bind (balanced_cancelJoin controls rfl) fun _ =>
      balanced_bind (unlocked silent_update) fun _ => ?_
    exact unlocked silent_update
  refine balanced_bind (unlocked silent_read) fun s => balanced_bind (balanced_when fun _ => ?_) fun _ => ?_
  · refine balanced_bind (balanced_svcStop controls) fun _ => balanced_bind (unlocked silent_update) fun _ => ?_
    exact unlocked silent_update
  refine balanced_bind (balanced_dbPurge controls) fun _ => balanced_bind (unlocked silent_read) fun s => ?_
  refine balanced_bind (unlocked silent_assertThat) fun _ => ?_
  intro held below
  refine obeys_lock below (silent_read.obeys.andThen fun s => ?_)
  refine (balanced_stopPending controls).inside below fun _ => silent_read.obeys.andThen fun s => ?_
  exact (balanced_stopEstablished controls).inside below fun _ => obeys_unlock_last

include controls in
theorem balanced_stop : Balanced t 1 TcpServerController.stop :=
  balanced_bind (balanced_closeDown controls) fun _ => unlocked silent_update

end

/-- Every text a thread may execute keeps to the order. -/
theorem texts_obey {t : ThreadId} {text : ThreadText} (performs : t.Performs text) :
    text.op.Obeys (serverOrder.advance t) [] (· = []) := by
  have none {n : ℕ} : ∀ h ∈ ([] : List Lock), h.rank < n := fun h member => absurd member List.not_mem_nil
  cases text with
  | messages connects =>
    cases t with
    | msgQ => exact msgQProcessingThreadFn_obeys rfl
    | _ => exact performs.elim
  | connectRetry c portNo =>
    cases t with
    | connector d => exact connectRetryFn_obeys
    | _ => exact performs.elim
  | event e =>
    have controls (called : e.Called) : t = .application := by
      cases t with
      | application => rfl
      | _ => cases e <;> first | exact performs.elim | exact called.elim
    cases e with
    | accept => exact balanced_acceptClient [] none
    | processFront =>
      cases t <;> exact performs.elim
    | connectRetryPost =>
      cases t <;> exact performs.elim
    | connectRetryExit =>
      cases t <;> exact performs.elim
    | select => exact silent_update.obeys
    | visit => exact balanced_visit [] none
    | clientThread => exact balanced_clientThreadFunction [] none
    | requestMigration => exact balanced_enqueMsg [] none
    | setClientCreationMode => exact silent_update.obeys
    | createActiveClient => exact balanced_createActiveClient (controls trivial ▸ rfl) [] none
    | migrateToMultiThreaded =>
      exact balanced_processClientMigrationToMultiThreaded (controls trivial ▸ rfl) [] none
    | migrateToMultiplex => exact balanced_processClientMigrationToMultiplex (controls trivial ▸ rfl) [] none
    | deleteKey => exact balanced_processKeyDelete (controls trivial ▸ rfl) [] none
    | deleteClient => exact balanced_processClientDelete (controls trivial ▸ rfl) [] none
    | startListen => exact balanced_clientFDStartListenSimple (controls trivial ▸ rfl) [] none
    | stopListen => exact balanced_clientFDStopListenSimple (controls trivial ▸ rfl) [] none
    | stopClientSvcMgr => exact balanced_stopClientSvcMgr (controls trivial ▸ rfl) [] (none (n := 1))
    | startClientSvcMgr => exact balanced_startClientSvcMgr [] none
    | stopConnectionsAcceptorSvc =>
      exact balanced_stopConnectionsAcceptorSvc (controls trivial ▸ rfl) [] (none (n := 1))
    | startConnectionsAcceptorSvc => exact balanced_startConnectionsAcceptorSvc [] (none (n := 1))
    | stop => exact balanced_stop (controls trivial ▸ rfl) [] none

end TcpServerLib.Refinement
