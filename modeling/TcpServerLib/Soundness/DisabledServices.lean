import TcpServerLib.Machine.Triple
import TcpServerLib.Refinement.Listing

/-! # Services that are switched off

While the service manager is gone, nothing that needs it may be asked for. The acceptor is only
ever stopped while it is there.
-/

namespace TcpServerLib.Soundness

open Machine Model Prog Refinement Server

/-- What the proof knows of the state: whether the service manager is there, whether no client is
flagged as multiplexed, and whether new clients get threads. -/
structure Known where
  present : Bool
  unflagged : Bool
  threads : Bool

structure Sane (k : Known) (s : TcpServerController) : Prop where
  msgRecvd : s.clientMsgRecvd = true
  disconnected : s.clientDisconnected = true
  accepting : s.notAcceptingNewConnections = !s.tcpNewConnAcc
  listening : s.notListeningClients = false → s.tcpClientSvcMgr.isSome = true
  present : k.present = true → s.tcpClientSvcMgr.isSome = true
  unflagged : k.unflagged = true → ∀ {c client}, s.heap c = some client → client.multiplexListen = false
  threads : k.threads = true → s.createMultiThreaded = true

/-- The fields all this depends on. -/
def servicesOf (s : TcpServerController) :=
  (s.clientMsgRecvd, s.clientDisconnected, s.notAcceptingNewConnections, s.tcpNewConnAcc, s.notListeningClients,
    s.tcpClientSvcMgr.isSome, s.heap, s.createMultiThreaded)

/-- The program follows no null pointer. -/
abbrev Safe {α : Type} (k : Known) (program : Op α) (result : α → Prop) : Prop :=
  Keeps (· ≠ .nullDereference) (Sane k) program result

section

variable {k : Known} {s t : TcpServerController} {c : ClientRef}

theorem Sane.of_services (sane : Sane k s) (same : servicesOf t = servicesOf s) : Sane k t := by
  simp only [servicesOf, Prod.mk.injEq] at same
  obtain ⟨msgRecvd, disconnected, accepting, acceptor, listening, svcMgr, heap, threads⟩ := same
  refine ⟨msgRecvd.trans sane.msgRecvd, disconnected.trans sane.disconnected, ?_, ?_, ?_, ?_, ?_⟩
  · rw [accepting, acceptor]
    exact sane.accepting
  · rw [listening, svcMgr]
    exact sane.listening
  · rw [svcMgr]
    exact sane.present
  · rw [heap]
    exact sane.unflagged
  · rw [threads]
    exact sane.threads

theorem sane_mapClient (sane : Sane k s) {f : TcpClient → TcpClient}
    (kept : k.unflagged = true → ∀ client, client.multiplexListen = false →
      (f client).multiplexListen = false) :
    Sane k (s.mapClient c f) := by
  refine ⟨sane.msgRecvd, sane.disconnected, sane.accepting, sane.listening, sane.present,
    fun unflagged {d client} found => ?_, sane.threads⟩
  rw [heap_mapClient] at found
  split_ifs at found with same
  · obtain ⟨before, found', rfl⟩ := Option.map_eq_some_iff.mp found
    exact kept unflagged before (sane.unflagged unflagged (same ▸ found'))
  · exact sane.unflagged unflagged found

theorem sane_svcMgr (sane : Sane k s) (f : TcpClientServiceManager → TcpClientServiceManager) :
    Sane k (s.mapSvcMgr f) :=
  sane.of_services (by simp only [servicesOf, TcpServerController.mapSvcMgr, Option.isSome_map])

theorem safe_assertThat {condition : Prop} [Decidable condition] : Safe k (assertThat condition) fun _ => True :=
  .ite (fun _ => .pure trivial) fun _ => .fail (by simp)

theorem safe_deref : Safe k (deref c) fun client => k.unflagged = true → client.multiplexListen = false := by
  apply Keeps.bind .read
  intro s sane
  cases found : s.heap c with
  | none => exact .fail (by simp)
  | some client => exact .pure fun unflagged => sane.unflagged unflagged found

/-- A dereference whose client is not looked at. -/
theorem safe_touch : Safe k (deref c) fun _ => True :=
  safe_deref.mono fun _ _ => trivial

theorem safe_modifyClient {f : TcpClient → TcpClient}
    (kept : k.unflagged = true → ∀ client, client.multiplexListen = false →
      (f client).multiplexListen = false) :
    Safe k (modifyClient c f) fun _ => True := by
  refine .bind safe_touch fun _ _ => ?_
  exact .update fun s sane => sane_mapClient sane kept

theorem safe_newClient {client : TcpClient} (deaf : client.multiplexListen = false) :
    Safe k (newClient client) fun _ => True := by
  apply Keeps.bind (.exchange ?_)
  · intro _ _
    exact .pure trivial
  · intro s sane
    refine ⟨sane.msgRecvd, sane.disconnected, sane.accepting, sane.listening, sane.present,
      fun unflagged {d left} found => ?_, sane.threads⟩
    change Function.update s.heap s.nextClient (some client) d = some left at found
    rw [Function.update_apply] at found
    split_ifs at found
    · cases found
      exact deaf
    · exact sane.unflagged unflagged found

theorem safe_notify (call : Call) : Safe k (notify call) fun _ => True :=
  .update fun _ sane => sane.of_services rfl

theorem safe_enqueMsg {caller : ThreadId} {code : List CtrlrAction} {data : ClientRef} {blockMe : Bool} :
    Safe k (enqueMsg caller code data blockMe) fun _ => True := by
  refine .bind .perform fun _ _ => ?_
  apply Keeps.bind (.update fun _ sane => sane.of_services rfl)
  intro _ _
  refine .bind .perform fun _ _ => ?_
  exact .when fun _ => .perform

theorem safe_abort : Safe k (TcpClient.abort c) fun _ => True := by
  refine .bind safe_touch fun client _ => ?_
  refine .bind safe_assertThat fun _ _ => ?_
  refine .bind safe_assertThat fun _ _ => ?_
  refine .bind safe_assertThat fun _ _ => ?_
  apply Keeps.update
  intro s sane
  refine ⟨sane.msgRecvd, sane.disconnected, sane.accepting, sane.listening, sane.present,
    fun unflagged {d client} found => ?_, sane.threads⟩
  rw [heap_freeClient] at found
  split_ifs at found
  exact sane.unflagged unflagged found

theorem safe_reference : Safe k (TcpClient.reference c) fun _ => True :=
  safe_modifyClient fun _ _ => id

theorem safe_dereference : Safe k (TcpClient.dereference c) fun _ => True := by
  refine .bind safe_touch fun client _ => ?_
  apply Keeps.ite
  · intro _
    exact .bind safe_abort fun _ _ => .pure trivial
  · intro _
    refine .bind (safe_modifyClient fun _ _ => id) fun _ _ => ?_
    refine .bind safe_touch fun left _ => ?_
    exact .ite (fun _ => .pure trivial) fun _ => .bind safe_abort fun _ _ => .pure trivial

theorem safe_startThread : Safe k (TcpClient.startThread c) fun _ => True := by
  refine .bind safe_touch fun client _ => ?_
  refine .bind safe_assertThat fun _ _ => ?_
  refine .bind (safe_modifyClient fun _ _ => id) fun _ _ => ?_
  refine .bind (safe_modifyClient fun _ _ => id) fun _ _ => ?_
  exact .bind .perform fun _ _ => safe_reference

theorem safe_stopThread : Safe k (TcpClient.stopThread c) fun _ => True := by
  refine .bind safe_touch fun client _ => ?_
  refine .bind safe_assertThat fun _ _ => ?_
  refine .bind .perform fun _ _ => ?_
  refine .bind (safe_modifyClient fun _ _ => id) fun _ _ => ?_
  refine .bind (safe_modifyClient fun _ _ => id) fun _ _ => ?_
  exact .bind safe_dereference fun _ _ => .pure trivial

theorem safe_stopConnectorThread : Safe k (TcpClient.stopConnectorThread c) fun _ => True := by
  refine .bind safe_touch fun client _ => ?_
  refine .bind safe_assertThat fun _ _ => ?_
  refine .bind .perform fun _ _ => ?_
  refine .bind (safe_modifyClient fun _ _ => id) fun _ _ => ?_
  refine .bind (safe_modifyClient fun _ _ => id) fun _ _ => ?_
  exact .bind safe_dereference fun _ _ => .pure trivial

theorem safe_processMsg {msgd : Msgd} {chunk : Bytes} :
    Safe k (TcpClient.processMsg c msgd chunk) fun _ => True := by
  refine .bind (safe_notify _) fun _ _ => ?_
  cases msgd.demarcar.processMsg msgd.ops processMsgFuel chunk (UInt16.ofNat chunk.length) with
  | error cut => exact .fail (by simp)
  | ok left =>
    refine .bind .read fun s sane => .ite (fun unregistered => ?_) fun _ => ?_
    · exact absurd sane.msgRecvd unregistered.2
    · refine .bind (.update fun _ sane => sane.of_services rfl) fun _ _ => ?_
      exact safe_modifyClient fun _ _ => id

theorem safe_clientThreadFunction {r : Recv} : Safe k (TcpClient.clientThreadFunction c r) fun _ => True := by
  refine .bind safe_touch fun client _ => .bind .read fun s _ => .ite (fun _ => ?_) fun _ => ?_
  · refine .bind (.when fun _ => safe_notify _) fun _ _ => ?_
    refine .bind (safe_modifyClient fun _ _ => id) fun _ _ => ?_
    exact .ite (fun _ => safe_enqueMsg) fun _ => safe_enqueMsg
  · cases client.msgd with
    | some msgd => exact .bind (safe_modifyClient fun _ _ => id) fun _ _ => safe_processMsg
    | none =>
      refine .when fun _ => ?_
      exact .bind (safe_modifyClient fun _ _ => id) fun _ _ => safe_notify _

theorem safe_connectSucceeded {portNo : UInt16} : Safe k (TcpClient.connectSucceeded c portNo) fun _ => True := by
  refine .bind (safe_modifyClient fun _ _ => id) fun _ _ => ?_
  refine .bind (safe_modifyClient fun _ _ => id) fun _ _ => ?_
  refine .bind (safe_modifyClient fun _ _ => id) fun _ _ => ?_
  exact .bind .read fun s _ => .when fun _ => safe_notify _

theorem safe_connectRetryPost {portNo : UInt16} : Safe k (TcpClient.connectRetryPost c portNo) fun _ => True := by
  refine .bind safe_connectSucceeded fun _ _ => .bind safe_enqueMsg fun _ _ => ?_
  exact safe_modifyClient fun _ _ => id

theorem safe_connectRetryExit : Safe k (TcpClient.connectRetryExit c) fun _ => True := by
  refine .bind (safe_modifyClient fun _ _ => id) fun _ _ => ?_
  exact .bind safe_dereference fun _ _ => .perform

theorem safe_tryClientConnect {tryAgain : Bool} {connect : ConnectResult} :
    Safe k (TcpClient.tryClientConnect c tryAgain connect) fun rc => rc = 0 → connect.isSome = true := by
  refine .bind safe_touch fun client _ => ?_
  refine .bind safe_assertThat fun _ _ => .bind safe_assertThat fun _ _ => .bind safe_assertThat fun _ _ => ?_
  refine .bind safe_assertThat fun _ _ => .bind safe_assertThat fun _ _ => ?_
  refine .bind (safe_modifyClient fun _ _ => id) fun _ _ => ?_
  cases connect with
  | some portNo => exact .bind safe_connectSucceeded fun _ _ => .pure fun _ => rfl
  | none =>
    refine .ite (fun _ => ?_) fun _ => .pure fun failed => absurd failed (by decide)
    refine .bind (safe_modifyClient fun _ _ => id) fun _ _ => .bind safe_reference fun _ _ => ?_
    exact .bind .perform fun _ _ => .pure fun failed => absurd failed (by decide)

theorem safe_lookUpClientDB {ipAddr : UInt32} {portNo : UInt16} {list : List ClientRef} :
    Safe k (lookUpClientDB ipAddr portNo list) fun _ => True := by
  induction list with
  | nil => exact .pure trivial
  | cons d rest ih => exact .bind safe_touch fun client _ => .ite (fun _ => .pure trivial) fun _ => ih

theorem safe_lookUpClientDB_ThreadSafe {ipAddr : UInt32} {portNo : UInt16} :
    Safe k (TcpClientDbManager.lookUpClientDB_ThreadSafe ipAddr portNo) fun _ => True := by
  refine .bind .perform fun _ _ => .bind .read fun s _ => .bind safe_lookUpClientDB fun _ _ => ?_
  exact .bind .perform fun _ _ => .pure trivial

theorem safe_addClientToDB : Safe k (TcpClientDbManager.addClientToDB c) fun _ => True := by
  refine .bind .perform fun _ _ => .bind safe_touch fun client _ => .bind .read fun s _ => ?_
  refine .bind safe_lookUpClientDB fun _ _ => .bind safe_assertThat fun _ _ => ?_
  refine .bind (.update fun _ sane => sane.of_services rfl) fun _ _ => ?_
  exact .bind safe_reference fun _ _ => .perform

theorem safe_removeClientFromDB : Safe k (TcpClientDbManager.removeClientFromDB c) fun _ => True := by
  refine .bind .perform fun _ _ => .bind (.update fun _ sane => sane.of_services rfl) fun _ _ => ?_
  exact .bind safe_dereference fun _ _ => .perform

theorem safe_removeKeyFromDB {ipAddr : UInt32} {portNo : UInt16} :
    Safe k (TcpClientDbManager.removeKeyFromDB ipAddr portNo) fun _ => True := by
  refine .bind .perform fun _ _ => .bind .read fun s _ => .bind safe_lookUpClientDB fun found _ => ?_
  cases found with
  | none => exact .bind .perform fun _ _ => .pure trivial
  | some d =>
    refine .bind (.update fun _ sane => sane.of_services rfl) fun _ _ => ?_
    exact .bind safe_dereference fun _ _ => .bind .perform fun _ _ => .pure trivial

theorem safe_copyClientsTolist {list : List ClientRef} :
    Safe k (TcpClientDbManager.copyClientsTolist list) fun _ => True := by
  induction list with
  | nil => exact .pure trivial
  | cons d rest ih =>
    refine .bind (.update fun _ sane => sane_svcMgr sane _) fun _ _ => ?_
    exact .bind safe_reference fun _ _ => ih

theorem safe_copyAllClientsTolist : Safe k TcpClientDbManager.copyAllClientsTolist fun _ => True := by
  refine .bind .perform fun _ _ => .bind .read fun s _ => ?_
  exact .bind safe_copyClientsTolist fun _ _ => .perform

theorem safe_dbPurgeFrom {fuel : ℕ} {list : List ClientRef} :
    Safe k (TcpClientDbManager.purgeFrom fuel list) fun _ => True := by
  induction fuel generalizing list with
  | zero => exact .pure trivial
  | succ fuel ih =>
    cases list with
    | nil => exact .pure trivial
    | cons d rest =>
      refine .bind safe_touch fun client _ => .bind (.when fun _ => safe_stopThread) fun _ _ => ?_
      refine .bind (.update fun _ sane => sane.of_services rfl) fun _ _ => ?_
      exact .bind safe_dereference fun _ _ => .ite (fun _ => .fail (by simp)) fun _ => ih

theorem safe_dbPurge : Safe k TcpClientDbManager.purge fun _ => True := by
  refine .bind .perform fun _ _ => .bind .read fun s _ => ?_
  exact .bind safe_dbPurgeFrom fun _ _ => .perform

theorem safe_derefSvcMgr (present : k.present = true) : Safe k derefSvcMgr fun _ => True := by
  refine .bind .read fun s sane => ?_
  have there := sane.present present
  cases found : s.tcpClientSvcMgr with
  | some m => exact .pure trivial
  | none =>
    rw [found] at there
    cases there

theorem safe_copyClientFDtoFDSet {list : List ClientRef} :
    Safe k (TcpClientServiceManager.copyClientFDtoFDSet list) fun _ => True := by
  induction list with
  | nil => exact .pure trivial
  | cons d rest ih =>
    refine .bind safe_touch fun client _ => ?_
    exact .bind (.update fun _ sane => sane_svcMgr sane _) fun _ _ => ih

theorem safe_startSvcThread (present : k.present = true) :
    Safe k TcpClientServiceManager.startTcpClientServiceManagerThread fun _ => True := by
  refine .bind (safe_derefSvcMgr present) fun _ _ => .bind (.update fun _ sane => sane_svcMgr sane _)
    fun _ _ => ?_
  refine .bind .perform fun _ _ => .bind .read fun s _ =>
    .bind (.when fun _ => safe_copyAllClientsTolist) fun _ _ => ?_
  refine .bind (safe_derefSvcMgr present) fun _ _ => .bind (.update fun _ sane => sane_svcMgr sane _)
    fun _ _ => ?_
  refine .bind safe_copyClientFDtoFDSet fun _ _ => ?_
  exact .update fun _ sane => sane_svcMgr sane _

theorem safe_stopSvcThread (present : k.present = true) :
    Safe k TcpClientServiceManager.stopTcpClientServiceManagerThread fun _ => True := by
  refine .bind (safe_derefSvcMgr present) fun _ _ => .when fun _ => ?_
  exact .bind .perform fun _ _ => .update fun _ sane => sane_svcMgr sane _

theorem safe_clientFDStartListenSimple (present : k.present = true) (flags : k.unflagged = false) :
    Safe k (TcpClientServiceManager.clientFDStartListenSimple c) fun _ => True := by
  refine .bind (safe_derefSvcMgr present) fun _ _ => .bind .read fun s _ => ?_
  refine .bind (.when fun _ => safe_stopSvcThread present) fun _ _ => .bind safe_touch fun client _ => ?_
  refine .bind (safe_derefSvcMgr present) fun m _ => .bind safe_lookUpClientDB fun _ _ => ?_
  refine .bind safe_assertThat fun _ _ => ?_
  have adds : Safe k (TcpClientServiceManager.addClientToDB c) fun _ => True := by
    refine .bind (safe_derefSvcMgr present) fun _ _ => ?_
    exact .bind (.update fun _ sane => sane_svcMgr sane _) fun _ _ => safe_reference
  refine .bind adds fun _ _ => .bind (safe_modifyClient fun unflagged => ?_) fun _ _ => ?_
  · exact absurd (flags.symm.trans unflagged) (by simp)
  · exact .bind .read fun s _ => .when fun _ => safe_startSvcThread present

theorem safe_clientFDStopListenSimple (present : k.present = true) :
    Safe k (TcpClientServiceManager.clientFDStopListenSimple c) fun _ => True := by
  refine .bind (safe_derefSvcMgr present) fun _ _ => .bind .read fun s _ => ?_
  refine .bind (.when fun _ => safe_stopSvcThread present) fun _ _ => .bind safe_touch fun client _ => ?_
  refine .bind (safe_derefSvcMgr present) fun m _ => .bind safe_lookUpClientDB fun _ _ => ?_
  refine .bind safe_assertThat fun _ _ => ?_
  have removes : Safe k (TcpClientServiceManager.removeClientFromDB c) fun _ => True := by
    refine .bind (safe_derefSvcMgr present) fun _ _ => ?_
    refine .bind (.update fun _ sane => sane_svcMgr sane _) fun _ _ => ?_
    exact .bind safe_dereference fun _ _ => .pure trivial
  refine .bind removes fun _ _ => .bind (safe_modifyClient fun _ _ _ => rfl) fun _ _ => ?_
  exact .bind .read fun s _ => .when fun _ => safe_startSvcThread present

theorem safe_svcPurgeFrom {fuel : ℕ} {list : List ClientRef} :
    Safe k (TcpClientServiceManager.purgeFrom fuel list) fun _ => True := by
  induction fuel generalizing list with
  | zero => exact .pure trivial
  | succ fuel ih =>
    cases list with
    | nil => exact .pure trivial
    | cons d rest =>
      refine .bind (.update fun _ sane => sane_svcMgr sane _) fun _ _ => ?_
      refine .bind (safe_modifyClient fun _ _ _ => rfl) fun _ _ => ?_
      exact .bind safe_dereference fun _ _ => .ite (fun _ => .fail (by simp)) fun _ => ih

theorem safe_svcStop (present : k.present = true) : Safe k TcpClientServiceManager.stop fun _ => True := by
  refine .bind (safe_stopSvcThread present) fun _ _ => ?_
  have purges : Safe k TcpClientServiceManager.purge fun _ => True := by
    refine .bind (safe_derefSvcMgr present) fun _ _ => .bind safe_assertThat fun _ _ => ?_
    exact safe_svcPurgeFrom
  refine .bind purges fun _ _ => .bind (safe_derefSvcMgr present) fun _ _ => ?_
  exact safe_assertThat

theorem safe_receive {r : Recv} : Safe k (TcpClientServiceManager.receive c r) fun _ => True := by
  refine .bind safe_touch fun client _ => .bind .read fun s sane => .ite (fun _ => ?_) fun _ => ?_
  · refine .ite (fun _ => ?_) fun unregistered => absurd sane.disconnected unregistered
    refine .bind (safe_notify _) fun _ _ => .bind (.update fun _ sane => sane_svcMgr sane _) fun _ _ => ?_
    exact safe_enqueMsg
  · refine .bind (safe_modifyClient fun _ _ => id) fun _ _ => ?_
    cases client.msgd with
    | some msgd => exact safe_processMsg
    | none => exact .when fun _ => safe_notify _

theorem safe_visit {r : Recv} (present : k.present = true) :
    Safe k (TcpClientServiceManager.visit r) fun _ => True := by
  refine .bind (safe_derefSvcMgr present) fun m _ => ?_
  cases m.scan with
  | nil => exact .pure trivial
  | cons d rest =>
    refine .bind (.update fun _ sane => sane_svcMgr sane _) fun _ _ => .bind safe_touch fun client _ => ?_
    exact .when fun _ => safe_receive

theorem safe_createMultiThreadedClient : Safe k (TcpServerController.createMultiThreadedClient c)
    fun _ => True := by
  refine .bind safe_touch fun client _ => .bind safe_assertThat fun _ _ => ?_
  exact safe_startThread

/-- What is known lets a connected client be served. -/
def Known.Serves (k : Known) : Prop :=
  k.present = true ∧ k.unflagged = false ∨ k.threads = true

theorem safe_serveInCreationMode (serves : k.Serves) :
    Safe k (TcpServerController.serveInCreationMode c) fun _ => True := by
  refine .bind .read fun s sane => .ite (fun _ => safe_createMultiThreadedClient) fun multiplexed => ?_
  rcases serves with ⟨present, flags⟩ | threads
  · exact safe_clientFDStartListenSimple present flags
  · exact absurd (sane.threads threads) multiplexed

theorem safe_moveToEstablished : Safe k (TcpServerController.moveToEstablished c) fun _ => True := by
  refine .bind .perform fun _ _ => .bind (.update fun _ sane => sane.of_services rfl) fun _ _ => ?_
  exact .bind (.update fun _ sane => sane.of_services rfl) fun _ _ => .perform

theorem safe_createActiveClient {serverIpAddr : UInt32} {serverPortNo : UInt16} {connect : ConnectResult}
    (serves : connect.isSome = true → k.Serves) :
    Safe k (TcpServerController.createActiveClient serverIpAddr serverPortNo connect) fun _ => True := by
  refine .bind .read fun s _ => .bind (safe_newClient rfl) fun d _ => .bind .perform fun _ _ => ?_
  refine .bind (.update fun _ sane => sane.of_services rfl) fun _ _ => .bind .perform fun _ _ => ?_
  refine .bind safe_reference fun _ _ => .bind safe_tryClientConnect fun rc connected => .when fun done => ?_
  exact .bind safe_moveToEstablished fun _ _ => safe_serveInCreationMode (serves (connected done))

theorem safe_removeActiveOpened {connected : Bool} :
    Safe k (TcpServerController.removeActiveOpened c connected) fun _ => True := by
  refine .ite (fun _ => ?_) fun _ => ?_
  · refine .bind (.update fun _ sane => sane.of_services rfl) fun _ _ => ?_
    exact .bind safe_dereference fun _ _ => .pure trivial
  · refine .bind (.update fun _ sane => sane.of_services rfl) fun _ _ => ?_
    exact .bind safe_dereference fun _ _ => .pure trivial

theorem safe_processClientDelete (served : k.present = true ∨ k.unflagged = true) :
    Safe k (TcpServerController.processClientDelete c) fun _ => True := by
  refine .bind safe_reference fun _ _ => .bind safe_touch fun client _ => ?_
  refine .bind (.when fun _ => safe_removeClientFromDB) fun _ _ => .bind safe_deref fun client deaf => ?_
  refine .bind (.when fun listens => ?_) fun _ _ => .bind safe_touch fun client _ => ?_
  · rcases served with present | unflagged
    · exact safe_clientFDStopListenSimple present
    · exact absurd (listens.symm.trans (deaf unflagged)) (by simp)
  · refine .bind (.when fun _ => safe_stopThread) fun _ _ => .bind safe_touch fun client _ => ?_
    refine .bind (.when fun _ => ?_) fun _ _ => .bind safe_dereference fun _ _ => .pure trivial
    refine .bind .perform fun _ _ => .bind safe_touch fun client _ => .bind safe_removeActiveOpened fun _ _ => ?_
    exact .perform

theorem safe_processConnectSuccess (serves : k.Serves) :
    Safe k (TcpServerController.processConnectSuccess c) fun _ => True := by
  refine .bind safe_touch fun client _ => ?_
  refine .bind safe_assertThat fun _ _ => .bind safe_assertThat fun _ _ => .bind safe_assertThat fun _ _ => ?_
  refine .bind safe_assertThat fun _ _ => .bind safe_assertThat fun _ _ => .bind safe_assertThat fun _ _ => ?_
  exact .bind safe_moveToEstablished fun _ _ => safe_serveInCreationMode serves

theorem safe_processThreadedAndSuccess {code : List CtrlrAction}
    (serves : .activeConnectSuccess ∈ code → k.Serves) :
    Safe k (TcpServerController.processThreadedAndSuccess code c) fun _ => True := by
  refine .bind (.when fun _ => ?_) fun _ _ => .when fun asked => safe_processConnectSuccess (serves asked)
  exact .bind safe_touch fun client _ => .bind safe_assertThat fun _ _ => safe_createMultiThreadedClient

theorem safe_processToMultiplex {code : List CtrlrAction} (serves : .activeConnectSuccess ∈ code → k.Serves)
    (listens : .multithreadedToMx ∈ code → k.present = true ∧ k.unflagged = false) :
    Safe k (TcpServerController.processToMultiplex code c) fun _ => True := by
  refine .ite (fun asked => ?_) fun _ => safe_processThreadedAndSuccess serves
  refine .bind safe_touch fun client _ => .when fun _ => .bind (.when fun _ => safe_stopThread) fun _ _ => ?_
  refine .bind (safe_clientFDStartListenSimple (listens asked).1 (listens asked).2) fun _ _ => ?_
  exact safe_processThreadedAndSuccess serves

theorem safe_processToMultithreaded {code : List CtrlrAction}
    (serves : .activeConnectSuccess ∈ code → k.Serves)
    (listens : .multithreadedToMx ∈ code → k.present = true ∧ k.unflagged = false)
    (served : k.present = true ∨ k.unflagged = true) :
    Safe k (TcpServerController.processToMultithreaded code c) fun _ => True := by
  refine .ite (fun _ => ?_) fun _ => safe_processToMultiplex serves listens
  refine .bind safe_deref fun client deaf => .when fun _ => .bind (.when fun flagged => ?_) fun _ _ => ?_
  · rcases served with present | unflagged
    · exact safe_clientFDStopListenSimple present
    · exact absurd (flagged.symm.trans (deaf unflagged)) (by simp)
  · exact .bind safe_createMultiThreadedClient fun _ _ => safe_processToMultiplex serves listens

/-- What a message needs of the service manager. -/
theorem safe_processMsgQMsg {msg : TcpServerMsg} {connect : ConnectResult}
    (served : k.present = true ∨ k.unflagged = true)
    (reconnects : .reconnect ∈ msg.code → connect.isSome = true → k.Serves)
    (succeeds : .activeConnectSuccess ∈ msg.code → k.Serves)
    (listens : .multiplexListen ∈ msg.code ∨ .multithreadedToMx ∈ msg.code → k.present = true ∧
      k.unflagged = false) :
    Safe k (TcpServerController.processMsgQMsg msg connect) fun _ => True := by
  refine .ite (fun _ => safe_processClientDelete served) fun _ => .bind (.when fun asked => ?_) fun _ _ => ?_
  · refine .bind safe_touch fun client _ => .bind (safe_processClientDelete served) fun _ _ => ?_
    exact safe_createActiveClient (reconnects asked)
  · refine .bind (.when fun _ => safe_addClientToDB) fun _ _ => .bind (.when fun asked => ?_) fun _ _ => ?_
    · refine .bind safe_touch fun client _ => .bind safe_assertThat fun _ _ => ?_
      exact safe_clientFDStartListenSimple (listens (.inl asked)).1 (listens (.inl asked)).2
    · exact safe_processToMultithreaded succeeds (fun asked => listens (.inr asked)) served

theorem safe_postZeroSema {msg : TcpServerMsg} : Safe k (TcpServerController.postZeroSema msg) fun _ => True := by
  rw [TcpServerController.postZeroSema]
  split
  · exact .bind .read fun s _ => safe_assertThat
  · exact .pure trivial

def Known.served : Known := ⟨true, false, false⟩

def Known.unserved (threads : Bool) : Known := ⟨false, true, threads⟩

def Known.nothing : Known := ⟨false, false, false⟩

/-- Nothing is known but what holds of every server. -/
theorem sane_nothing (msgRecvd : s.clientMsgRecvd = true) (disconnected : s.clientDisconnected = true)
    (accepting : s.notAcceptingNewConnections = !s.tcpNewConnAcc)
    (listening : s.notListeningClients = false → s.tcpClientSvcMgr.isSome = true) : Sane .nothing s := by
  constructor
  · exact msgRecvd
  · exact disconnected
  · exact accepting
  · exact listening
  · exact fun known => absurd known Bool.false_ne_true
  · exact fun known => absurd known Bool.false_ne_true
  · exact fun known => absurd known Bool.false_ne_true

theorem Sane.forget (sane : Sane k s) : Sane .nothing s :=
  sane_nothing sane.msgRecvd sane.disconnected sane.accepting sane.listening

theorem Sane.served (sane : Sane k s) (present : s.tcpClientSvcMgr.isSome = true) : Sane .served s :=
  ⟨sane.msgRecvd, sane.disconnected, sane.accepting, sane.listening, fun _ => present, nofun, nofun⟩

theorem Sane.unserved (sane : Sane k s)
    (unflagged : ∀ {c client}, s.heap c = some client → client.multiplexListen = false) :
    Sane (.unserved s.createMultiThreaded) s :=
  ⟨sane.msgRecvd, sane.disconnected, sane.accepting, sane.listening, nofun, fun _ => unflagged, id⟩

theorem safe_acceptClient {ipAddr : UInt32} {portNo : UInt16} :
    Safe k (TcpServerController.acceptClient ipAddr portNo) fun _ => True := by
  refine .bind .read fun s _ => .bind (safe_newClient rfl) fun d _ =>
    .bind (.when fun _ => safe_notify _) fun _ _ => ?_
  exact .bind .read fun s _ => .ite (fun _ => safe_enqueMsg) fun _ => safe_enqueMsg

theorem safe_processFront {connect : ConnectResult}
    (processes : ∀ msg, Safe k (TcpServerController.processMsgQMsg msg connect) fun _ => True) :
    Safe k (TcpServerController.processFront connect) fun _ => True := by
  refine .bind (.exchange fun _ sane => sane.of_services rfl) fun s _ => ?_
  cases s.msgQ with
  | nil => exact .pure trivial
  | cons msg rest => exact .bind (processes msg) fun _ _ => safe_postZeroSema

theorem safe_processKeyDelete {ipAddr : UInt32} {portNo : UInt16} (present : k.present = true) :
    Safe k (TcpServerController.processKeyDelete ipAddr portNo) fun _ => True := by
  refine .bind safe_removeKeyFromDB fun found _ => ?_
  cases found with
  | none => exact .pure trivial
  | some d => exact .bind safe_touch fun client _ => .when fun _ => safe_clientFDStopListenSimple present

theorem safe_toMultiThreaded {ipAddr : UInt32} {portNo : UInt16} (present : k.present = true) :
    Safe k (TcpServerController.processClientMigrationToMultiThreaded ipAddr portNo) fun _ => True := by
  refine .bind safe_lookUpClientDB_ThreadSafe fun found _ => ?_
  cases found with
  | none => exact .pure trivial
  | some d =>
    refine .bind safe_touch fun client _ => .when fun _ => ?_
    exact .bind (safe_clientFDStopListenSimple present) fun _ _ => safe_createMultiThreadedClient

theorem safe_toMultiplex {ipAddr : UInt32} {portNo : UInt16} (present : k.present = true)
    (flags : k.unflagged = false) :
    Safe k (TcpServerController.processClientMigrationToMultiplex ipAddr portNo) fun _ => True := by
  refine .bind safe_lookUpClientDB_ThreadSafe fun found _ => ?_
  cases found with
  | none => exact .pure trivial
  | some d =>
    refine .bind safe_touch fun client _ => .when fun _ => ?_
    exact .bind safe_stopThread fun _ _ => safe_clientFDStartListenSimple present flags

/-- The events that change no service. -/
def Event.Ordinary : Event → Prop
  | .setClientCreationMode _ | .stopClientSvcMgr | .startClientSvcMgr | .stopConnectionsAcceptorSvc
  | .startConnectionsAcceptorSvc | .stop => False
  | _ => True

theorem safe_served {e : Event} (ordinary : Event.Ordinary e) : Safe .served e.op fun _ => True := by
  have serves : Known.served.Serves := .inl ⟨rfl, rfl⟩
  cases e with
  | accept => exact safe_acceptClient
  | processFront =>
    exact safe_processFront fun msg => safe_processMsgQMsg (.inl rfl) (fun _ _ => serves)
      (fun _ => serves) fun _ => ⟨rfl, rfl⟩
  | connectRetryPost => exact safe_connectRetryPost
  | connectRetryExit => exact safe_connectRetryExit
  | select => exact .update fun _ sane => sane_svcMgr sane _
  | visit => exact safe_visit rfl
  | clientThread => exact safe_clientThreadFunction
  | createActiveClient => exact safe_createActiveClient fun _ => serves
  | migrateToMultiThreaded => exact safe_toMultiThreaded rfl
  | migrateToMultiplex => exact safe_toMultiplex rfl rfl
  | requestMigration => exact safe_enqueMsg
  | deleteKey => exact safe_processKeyDelete rfl
  | deleteClient => exact safe_processClientDelete (.inl rfl)
  | startListen => exact safe_clientFDStartListenSimple rfl rfl
  | stopListen => exact safe_clientFDStopListenSimple rfl
  | _ => exact absurd ordinary id

/-- The act calls a method of the service manager. -/
def NeedsSvcMgr (s : TcpServerController) (c : ClientRef) : Act → Prop
  | .processNew threaded => threaded = false
  | .delete => False
  | .reconnect connect => connect.isSome ∧ s.createMultiThreaded = false
  | .toMultithreaded => False
  | .toMultiplex => True
  | .connectSuccess => s.createMultiThreaded = false
  | .deleteKey => ∃ client ∈ s.heap c, client.clientThread = .null ∧ 2 ≤ client.refCount
  | .migrateToMultiThreaded => ∃ client ∈ s.heap c, client.clientThread = .null
  | .migrateToMultiplex => ∃ client ∈ s.heap c, client.clientThread ≠ .null
  | .startListen => True
  | .stopListen => True

/-- While there is no service manager, nothing is done that needs it. -/
def Serviced (s : TcpServerController) (e : Event) : Prop :=
  s.tcpClientSvcMgr = none → (∀ performs ∈ performed s e, ¬ NeedsSvcMgr s performs.2 performs.1) ∧
    match e with
    | .createActiveClient _ _ connect => ¬ (connect.isSome ∧ s.createMultiThreaded = false)
    | _ => True

theorem code_asks (request : Request) :
    (.reconnect ∈ request.code → request = .reconnect) ∧
    (.activeConnectSuccess ∈ request.code → request = .connectSuccess) ∧
      (.multiplexListen ∈ request.code → request = .processNew false) ∧
      (.multithreadedToMx ∈ request.code → request = .toMultiplex) := by
  rcases request with (_ | _) | _ | _ | _ | _ | _ <;> decide

/-- A client is looked up by its key, and looked at. -/
theorem yields_lookUp {ipAddr : UInt32} {portNo : UInt16} {continued : Option ClientRef → Op Unit}
    (sane : Sane k s)
    (absent : (continued none).Yields (· ≠ .nullDereference) s fun _ t => Sane .nothing t)
    (found : ∀ c, keyFound ipAddr portNo s = some c →
      (continued (some c)).Yields (· ≠ .nullDereference) s fun _ t => Sane .nothing t) :
    (TcpClientDbManager.lookUpClientDB_ThreadSafe ipAddr portNo >>= continued).Yields (· ≠ .nullDereference) s
      fun _ t => Sane .nothing t := by
  refine yields_bind ((safe_lookUpClientDB_ThreadSafe s sane).runs.mono fun {a t} ran => ?_)
  obtain ⟨rfl, first⟩ := lookUpClientDB_ThreadSafe_runs ran.1
  cases a with
  | none => exact absent
  | some c => exact found c first.symm

/-- The client is spared what its thread decides on. -/
theorem yields_spared {condition : TcpClient → Prop} [∀ client, Decidable (condition client)]
    {program : Op Unit} (sane : Sane k s) (spared : ∀ client ∈ s.heap c, ¬ condition client) :
    (deref c >>= fun client => when (condition client) program).Yields (· ≠ .nullDereference) s fun _ t =>
      Sane .nothing t := by
  refine yields_bind ((safe_touch s sane).runs.mono fun {client t} ran => ?_)
  obtain ⟨there, rfl⟩ := runs_deref.mp ran.1
  exact yields_when (fun holds => absurd holds (spared client there)) fun _ => sane.forget

theorem yields_unserved {e : Event} (sane : Sane (.unserved s.createMultiThreaded) s) (requests : Requests s)
    (absent : s.tcpClientSvcMgr = none) (serviced : Serviced s e) (enabled : e.Enabled s)
    (ordinary : Event.Ordinary e) :
    e.op.Yields (· ≠ .nullDereference) s fun _ t => Sane .nothing t := by
  have forget {e : Event} (safe : Safe (.unserved s.createMultiThreaded) e.op fun _ => True) :
      e.op.Yields (· ≠ .nullDereference) s fun _ t => Sane .nothing t :=
    (safe s sane).mono fun held => held.1.forget
  obtain ⟨unneeded, connects⟩ := serviced absent
  cases e with
  | accept => exact forget safe_acceptClient
  | processFront connect =>
    refine yields_bind (yields_exchange ?_)
    have popped (msgQ : List TcpServerMsg) : Sane (.unserved s.createMultiThreaded) { s with msgQ } :=
      sane.of_services rfl
    cases queued : s.msgQ with
    | nil => exact yields_pure (popped _).forget
    | cons msg rest =>
      obtain ⟨request, posted⟩ := requests msg (by rw [queued]; exact List.mem_cons_self)
      have unneeded : ¬ NeedsSvcMgr s msg.data (request.act connect) := by
        apply unneeded (request.act connect, msg.data)
        rw [performed, queued, List.head?_cons, Option.bind_some, posted, Request.ofCode_code]
        rfl
      have threads (spared : ¬ s.createMultiThreaded = false) : (Known.unserved s.createMultiThreaded).Serves :=
        .inr (eq_true_of_ne_false spared)
      obtain ⟨reconnects, succeeds, listens, toMultiplex⟩ := code_asks request
      have safe : Safe (.unserved s.createMultiThreaded) (TcpServerController.processMsgQMsg msg connect)
          fun _ => True := by
        apply safe_processMsgQMsg (.inr rfl)
        · intro asked connected
          rw [reconnects (posted ▸ asked)] at unneeded
          exact threads fun multiplexed => unneeded ⟨connected, multiplexed⟩
        · intro asked
          rw [succeeds (posted ▸ asked)] at unneeded
          exact threads unneeded
        · rintro (asked | asked)
          · rw [listens (posted ▸ asked)] at unneeded
            exact absurd rfl unneeded
          · rw [toMultiplex (posted ▸ asked)] at unneeded
            exact absurd trivial unneeded
      exact ((Keeps.bind safe fun _ _ => safe_postZeroSema) _ (popped rest)).mono fun held => held.1.forget
  | connectRetryPost => exact forget safe_connectRetryPost
  | connectRetryExit => exact forget safe_connectRetryExit
  | select ready => exact forget (e := .select ready) (.update fun _ sane => sane_svcMgr sane _)
  | visit =>
    have running := enabled.2
    rw [absent] at running
    cases running
  | clientThread => exact forget safe_clientThreadFunction
  | createActiveClient serverIpAddr serverPortNo connect =>
    refine forget (safe_createActiveClient fun connected => ?_)
    exact .inr (eq_true_of_ne_false fun multiplexed => connects ⟨connected, multiplexed⟩)
  | migrateToMultiThreaded ipAddr portNo =>
    refine yields_lookUp sane (yields_pure sane.forget) fun c first => ?_
    refine yields_spared sane fun client there idle => ?_
    exact unneeded (.migrateToMultiThreaded, c) (by rw [performed, first]; rfl) ⟨client, there, idle⟩
  | migrateToMultiplex ipAddr portNo =>
    refine yields_lookUp sane (yields_pure sane.forget) fun c first => ?_
    refine yields_spared sane fun client there running => ?_
    exact unneeded (.migrateToMultiplex, c) (by rw [performed, first]; rfl) ⟨client, there, running⟩
  | requestMigration => exact forget safe_enqueMsg
  | deleteKey ipAddr portNo =>
    refine yields_bind ((safe_removeKeyFromDB s sane).runs.mono fun {left t} ran => ?_)
    obtain ⟨ran, removed, _⟩ := ran
    rcases removeKeyFromDB_runs ran with ⟨rfl, rfl⟩ | ⟨c, client, first, there, rfl, rfl, _⟩
    · exact yields_pure removed.forget
    · have spared := unneeded (.deleteKey, c) (by rw [performed, first]; rfl)
      split_ifs with several
      · refine yields_spared removed fun left kept idle => ?_
        rw [Option.mem_def, heap_release, if_pos rfl, there, Option.bind_some, drop,
          if_neg (Nat.not_le.mpr several)] at kept
        cases kept
        exact spared ⟨client, there, idle, several⟩
      · exact yields_pure removed.forget
  | deleteClient => exact forget (safe_processClientDelete (.inr rfl))
  | startListen c => exact absurd trivial (unneeded _ rfl)
  | stopListen c => exact absurd trivial (unneeded _ rfl)
  | _ => exact absurd ordinary id

theorem yields_stopConnectionsAcceptorSvc (sane : Sane .nothing s) :
    TcpServerController.stopConnectionsAcceptorSvc.Yields (· ≠ .nullDereference) s fun _ t =>
      Sane .nothing t := by
  refine yields_bind (yields_read (yields_when (fun open' => ?_) fun _ => sane))
  refine yields_bind (yields_update ?_)
  have there : s.tcpNewConnAcc = true := by
    have accepting := sane.accepting
    rw [Bool.eq_false_iff.mpr open'] at accepting
    exact (Bool.not_eq_eq_eq_not.mp accepting.symm)
  rw [if_pos there]
  refine yields_bind (yields_perform (yields_update ?_))
  exact sane_nothing sane.msgRecvd sane.disconnected rfl sane.listening

theorem yields_startConnectionsAcceptorSvc (sane : Sane .nothing s) :
    TcpServerController.startConnectionsAcceptorSvc.Yields (· ≠ .nullDereference) s fun _ t =>
      Sane .nothing t := by
  refine yields_bind (yields_read (yields_when (fun _ => ?_) fun _ => sane))
  refine yields_bind (yields_update (yields_bind (yields_update (yields_perform ?_))))
  exact sane_nothing sane.msgRecvd sane.disconnected rfl sane.listening

theorem yields_stopClientSvcMgr (sane : Sane .nothing s) :
    TcpServerController.stopClientSvcMgr.Yields (· ≠ .nullDereference) s fun _ t => Sane .nothing t := by
  refine yields_bind (yields_read (yields_when (fun listening => ?_) fun _ => sane))
  have served := sane.served (sane.listening (Bool.eq_false_iff.mpr listening))
  refine yields_bind ((safe_svcStop rfl s served).mono fun held => ?_)
  refine yields_bind (yields_update (yields_update ?_))
  exact sane_nothing held.1.msgRecvd held.1.disconnected held.1.accepting
    (fun listens => absurd listens (by simp))

theorem yields_startClientSvcMgr (sane : Sane .nothing s) :
    TcpServerController.startClientSvcMgr.Yields (· ≠ .nullDereference) s fun _ t => Sane .nothing t := by
  refine yields_bind (yields_read (yields_when (fun _ => ?_) fun _ => sane))
  refine yields_bind (yields_update ?_)
  have served : Sane .served { s with tcpClientSvcMgr := some {} } :=
    ⟨sane.msgRecvd, sane.disconnected, sane.accepting, fun _ => rfl, fun _ => rfl, nofun, nofun⟩
  refine yields_bind ((safe_startSvcThread rfl _ served).mono fun held => yields_update ?_)
  exact sane_nothing held.1.msgRecvd held.1.disconnected held.1.accepting (fun _ => held.1.present rfl)

theorem safe_stopPending {fuel : ℕ} : Safe k (TcpServerController.stopPending fuel) fun _ => True := by
  induction fuel with
  | zero => exact .pure trivial
  | succ fuel ih =>
    refine .bind .read fun s _ => ?_
    cases s.connectpendingClients with
    | nil => exact .pure trivial
    | cons d rest =>
      refine .bind safe_touch fun client _ => .bind safe_assertThat fun _ _ =>
        .bind safe_stopConnectorThread fun _ _ => ?_
      refine .bind (.update fun _ sane => sane.of_services rfl) fun _ _ => ?_
      exact .bind safe_dereference fun _ _ => ih

theorem safe_stopEstablished {fuel : ℕ} : Safe k (TcpServerController.stopEstablished fuel) fun _ => True := by
  induction fuel with
  | zero => exact .pure trivial
  | succ fuel ih =>
    refine .bind .read fun s _ => ?_
    cases s.establishedClient with
    | nil => exact .pure trivial
    | cons d rest =>
      refine .bind safe_touch fun client _ => .bind safe_assertThat fun _ _ => ?_
      refine .bind (.when fun _ => safe_stopThread) fun _ _ => ?_
      refine .bind (.update fun _ sane => sane.of_services rfl) fun _ _ => ?_
      exact .bind safe_dereference fun _ _ => ih

/-- The acceptor and the service manager are stopped if they are there, and nothing after them
needs either. -/
theorem yields_stop (sane : Sane .nothing s) :
    TcpServerController.stop.Yields (· ≠ .nullDereference) s fun _ t => Sane .nothing t := by
  simp only [TcpServerController.stop, TcpServerController.closeDown, bind_assoc]
  refine yields_bind (yields_read (yields_bind ?_))
  have acceptor : (when (s.tcpNewConnAcc = true) do
      perform (.cancelJoin .acceptor)
      update fun s => { s with tcpNewConnAcc := false }
      update fun s => { s with notAcceptingNewConnections := true } : Op Unit).Yields (· ≠ .nullDereference) s
      fun _ t => Sane .nothing t := by
    refine yields_when (fun _ => ?_) fun _ => sane
    refine yields_bind (yields_perform (yields_bind (yields_update (yields_update ?_))))
    exact sane_nothing sane.msgRecvd sane.disconnected rfl sane.listening
  refine acceptor.mono fun {_ s} sane => yields_bind (yields_read (yields_bind ?_))
  have svcMgr : (when (s.tcpClientSvcMgr.isSome = true) do
      TcpClientServiceManager.stop
      update fun s => { s with tcpClientSvcMgr := none }
      update fun s => { s with notListeningClients := true } : Op Unit).Yields (· ≠ .nullDereference) s
      fun _ t => Sane .nothing t := by
    refine yields_when (fun there => ?_) fun _ => sane
    refine yields_bind ((safe_svcStop rfl s (sane.served there)).mono fun held => ?_)
    refine yields_bind (yields_update (yields_update ?_))
    exact sane_nothing held.1.msgRecvd held.1.disconnected held.1.accepting
      (fun listens => absurd listens (by simp))
  refine svcMgr.mono fun {_ s} sane => ?_
  have rest : Safe .nothing (do
      TcpClientDbManager.purge
      let s ← read
      assertThat (s.tcpClientDb = [])
      perform (.lock .connectDbRwlock)
      let s ← read
      TcpServerController.stopPending s.connectpendingClients.length
      let s ← read
      TcpServerController.stopEstablished s.establishedClient.length
      perform (.unlock .connectDbRwlock)
      update fun s => { s with deleted := true, msgQ := [] }) fun _ => True := by
    refine .bind safe_dbPurge fun _ _ => .bind .read fun s _ => .bind safe_assertThat fun _ _ => ?_
    refine .bind .perform fun _ _ => .bind .read fun s _ => .bind safe_stopPending fun _ _ => ?_
    refine .bind .read fun s _ => .bind safe_stopEstablished fun _ _ => .bind .perform fun _ _ => ?_
    exact .update fun _ sane => sane.of_services rfl
  exact (rest s sane).mono And.left

theorem yields_event {e : Event} (sane : Sane .nothing s) (requests : Requests s)
    (listed : ∀ {c client}, s.heap c = some client → client.multiplexListen = true → c ∈ svcList s)
    (serviced : Serviced s e) (enabled : e.Enabled s) :
    e.op.Yields (· ≠ .nullDereference) s fun _ t => Sane .nothing t := by
  have ordinary (ordinary : Event.Ordinary e) : e.op.Yields (· ≠ .nullDereference) s fun _ t =>
      Sane .nothing t := by
    cases absent : s.tcpClientSvcMgr with
    | some m => exact (safe_served ordinary s (sane.served (by rw [absent]; rfl))).mono fun held => held.1.forget
    | none =>
      have unflagged {c : ClientRef} {client : TcpClient} (found : s.heap c = some client) :
          client.multiplexListen = false := by
        apply Bool.eq_false_iff.mpr
        intro flagged
        have member := listed found flagged
        rw [svcList, absent] at member
        exact absurd member List.not_mem_nil
      exact yields_unserved (sane.unserved unflagged) requests absent serviced enabled ordinary
  cases e with
  | setClientCreationMode status =>
    exact yields_update (sane_nothing sane.msgRecvd sane.disconnected sane.accepting sane.listening)
  | stopClientSvcMgr => exact yields_stopClientSvcMgr sane
  | startClientSvcMgr => exact yields_startClientSvcMgr sane
  | stopConnectionsAcceptorSvc => exact yields_stopConnectionsAcceptorSvc sane
  | startConnectionsAcceptorSvc => exact yields_startConnectionsAcceptorSvc sane
  | stop => exact yields_stop sane
  | _ => exact ordinary trivial

/-- What every run leaves behind. -/
theorem run_sane {ipAddr : UInt32} {portNo : UInt16} {es : List Event}
    (path : Path (Guarded TcpServerController.Step Serviced) (.started ipAddr portNo) es s) :
    Sound s ∧ Listing s ∧ Sane .nothing s := by
  refine path.invariant (motive := fun s => Sound s ∧ Listing s ∧ Sane .nothing s) ?_ ?_
  · rintro s e t ⟨serviced, enabled, ran⟩ ⟨sound, listing, sane⟩
    have effect := step_effect sound.requests ⟨enabled, ran⟩
    exact ⟨effect_sound sound effect, listing_effect sound effect listing,
      (yields_event sane sound.requests listing.listed serviced enabled).of_runs ran⟩
  · exact ⟨started_sound ipAddr portNo, ⟨nofun⟩, sane_nothing rfl rfl rfl (fun _ => rfl)⟩

/-- As long as nothing is asked of the service manager while it is gone, no step of a run follows a
null pointer. -/
theorem neverNull {ipAddr : UInt32} {portNo : UInt16} {es : List Event} {e : Event}
    (path : Path (Guarded TcpServerController.Step Serviced) (.started ipAddr portNo) es s)
    (enabled : e.Enabled s) (serviced : Serviced s e) : e.op.exec s ≠ .error .nullDereference := by
  obtain ⟨sound, listing, sane⟩ := run_sane path
  exact (yields_event sane sound.requests listing.listed serviced enabled).not_error fun permitted =>
    permitted rfl

end

instance (s : TcpServerController) (c : ClientRef) (act : Act) : Decidable (NeedsSvcMgr s c act) := by
  apply @Act.casesOn (fun act => Decidable (NeedsSvcMgr s c act)) act <;> intros <;>
    unfold NeedsSvcMgr <;> infer_instance

instance (s : TcpServerController) (e : Event) : Decidable (Serviced s e) := by
  apply @Event.casesOn (fun e => Decidable (Serviced s e)) e <;> intros <;> unfold Serviced <;> infer_instance

/-- A peer is accepted while clients are not listened to, and gets a thread of its own. -/
def servicedEvents : List Event :=
  [.stopClientSvcMgr, .stopConnectionsAcceptorSvc, .startConnectionsAcceptorSvc,
    .setClientCreationMode true, .accept 9 9]

theorem neverNull_servicedEvents :
    (Event.processFront none).op.exec (TcpServerController.stateAfter Serviced (.started 1 1) servicedEvents) ≠
      .error .nullDereference :=
  neverNull (TcpServerController.stateAfter_path rfl) (by decide) (by decide)

/-- A peer that is to be multiplexed arrives while clients are not listened to. -/
theorem acceptedUnserved_null :
    ¬ ∀ es s (e : Event), Path TcpServerController.Step (.started 1 1) es s → e.Enabled s →
      e.op.exec s ≠ .error .nullDereference := by
  intro always
  have safe := always [.stopClientSvcMgr, .accept 9 9] _ (.processFront none)
    (TcpServerController.stateAfter_unguarded rfl) (by decide)
  exact safe rfl

end TcpServerLib.Soundness
