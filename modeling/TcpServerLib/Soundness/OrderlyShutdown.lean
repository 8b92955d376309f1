import TcpServerLib.Refinement.Agreement
import TcpServerLib.Soundness.ReferenceCounts

/-! # Orderly shutdown

`Stop` goes through the lists of the server one after another and trusts the flags and threads of
the clients it finds there. A connector that has just connected and a message that is still queued
are what it does not wait for.
-/

namespace TcpServerLib.Soundness

open Machine Model Prog Refinement Server

/-- The steps that the threads of a server take of themselves. -/
def OfThread : Event → Prop
  | .accept .. => True
  | .processFront _ => True
  | .connectRetryPost .. => True
  | .connectRetryExit _ => True
  | .select _ => True
  | .visit _ => True
  | .clientThread .. => True
  | _ => False

/-- `Stop` fails nowhere, and before the controller is deleted the lists are empty, every client
has been destroyed and no thread has a step left to take. The message queue thread, which `Stop`
does not end, is one of these threads. -/
def StopsOrderly (s : TcpServerController) : Prop :=
  ∃ t, TcpServerController.closeDown.Runs s () t ∧
    (svcList t = [] ∧ t.tcpClientDb = [] ∧ t.connectpendingClients = [] ∧ t.establishedClient = []) ∧
    (∀ c, t.heap c = none) ∧ ∀ e, OfThread e → ¬ e.Enabled t

/-- No message waits, and the clients with a thread are where `Stop` looks for it. -/
structure Quiescent (s : TcpServerController) : Prop where
  msgQ : s.msgQ = []
  receivers : ∀ {c client}, s.heap c = some client → client.clientThread ≠ .null →
    c ∈ s.tcpClientDb ∨ c ∈ s.establishedClient
  connectors : ∀ {c client}, s.heap c = some client → client.activeConnectThread ≠ .null →
    c ∈ s.connectpendingClients

/-- What holds between two visits of a shutdown. -/
structure Winding (s : TcpServerController) : Prop extends Quiescent s where
  ledger : Ledger [] s
  agreement : Agreement [] s
  served : (svcList s).Nodup
  acceptor : s.tcpNewConnAcc = false

section

variable {s t : TcpServerController} {c d : ClientRef} {client : TcpClient} {m : TcpClientServiceManager}
  {credit : List ClientRef}

theorem threads_eq_zero (idle : threads (some client) = 0) :
    client.clientThread = .null ∧ client.activeConnectThread = .null := by
  rw [threads, Nat.add_eq_zero_iff] at idle
  constructor
  · by_contra running
    exact absurd (ofClientThread_running running ▸ idle.1) Nat.one_ne_zero
  · by_contra running
    exact absurd (ofConnectThread_running running ▸ idle.2) Nat.one_ne_zero

theorem mapClient_alive (found : s.heap c = some client) (f : TcpClient → TcpClient) :
    ∃ left, (s.mapClient c f).heap c = some left :=
  ⟨f client, by rw [heap_mapClient, if_pos rfl, found, Option.map_some]⟩

/-- A reference in hand can always be given back. -/
theorem Ledger.returns (ledger : Ledger (c :: credit) s) :
    ∃ left, (TcpClient.dereference c).Runs s left (release c s) := by
  have balance := ledger c
  rw [counts, List.count_cons_self] at balance
  cases found : s.heap c with
  | none =>
    rw [found, Option.map_none, Option.getD_none] at balance
    omega
  | some client =>
    rw [found, Option.map_some, Option.getD_some, holders, found] at balance
    exact dereference_returns found fun last => threads_eq_zero (by omega)

theorem stopThread_returns (ledger : Ledger credit s) (found : s.heap c = some client)
    (running : client.clientThread ≠ .null) :
    (TcpClient.stopThread c).Runs s () (release c (s.mapClient c threadStopped)) := by
  obtain ⟨left, released⟩ := (ledger_threadJoined ledger found running).returns
  have both : (s.mapClient c fun client => { client with clientThread := .null }).mapClient c
      (fun client => { client with threaded := false }) = s.mapClient c threadStopped :=
    mapClient_mapClient _ _
  simp only [TcpClient.stopThread, runs_bind, runs_deref, runs_assertThat, runs_modifyClient,
    runs_perform, runs_pure]
  refine ⟨client, s, ⟨found, rfl⟩, (), s, ⟨running, rfl⟩, (), s, rfl, (), _,
    ⟨⟨client, found⟩, rfl⟩, (), _, ⟨mapClient_alive found _, rfl⟩, left, _, ?_, trivial, rfl⟩
  rw [both]
  exact released

theorem stopConnectorThread_returns (ledger : Ledger credit s) (found : s.heap c = some client)
    (running : client.activeConnectThread ≠ .null) :
    (TcpClient.stopConnectorThread c).Runs s () (release c (s.mapClient c connectorJoined)) := by
  obtain ⟨left, released⟩ := (ledger_connectorJoined ledger found running).returns
  have both : (s.mapClient c fun client => { client with activeConnectThread := .null }).mapClient c
      (fun client => { client with connectInProgress := false }) = s.mapClient c connectorJoined :=
    mapClient_mapClient _ _
  simp only [TcpClient.stopConnectorThread, runs_bind, runs_deref, runs_assertThat, runs_modifyClient,
    runs_perform, runs_pure]
  refine ⟨client, s, ⟨found, rfl⟩, (), s, ⟨running, rfl⟩, (), s, rfl, (), _,
    ⟨⟨client, found⟩, rfl⟩, (), _, ⟨mapClient_alive found _, rfl⟩, left, _, ?_, trivial, rfl⟩
  rw [both]
  exact released

/-- No thread starts. -/
def ThreadsEnd (s t : TcpServerController) : Prop :=
  ∀ c left, t.heap c = some left → ∃ before, s.heap c = some before ∧
    (left.clientThread ≠ .null → before.clientThread ≠ .null) ∧
    (left.activeConnectThread ≠ .null → before.activeConnectThread ≠ .null)

theorem ThreadsEnd.trans {middle : TcpServerController} (first : ThreadsEnd s middle)
    (second : ThreadsEnd middle t) :
    ThreadsEnd s t := by
  intro c left found
  obtain ⟨between, found', receiver', connector'⟩ := second _ _ found
  obtain ⟨before, found'', receiver, connector⟩ := first _ _ found'
  exact ⟨before, found'', receiver ∘ receiver', connector ∘ connector'⟩

theorem ThreadsEnd.of_heap (heap : t.heap = s.heap) : ThreadsEnd s t :=
  fun _ _ found => ⟨_, heap ▸ found, id, id⟩

theorem threadsEnd_mapClient {f : TcpClient → TcpClient}
    (receiver : ∀ client, (f client).clientThread ≠ .null → client.clientThread ≠ .null)
    (connector : ∀ client, (f client).activeConnectThread ≠ .null → client.activeConnectThread ≠ .null) :
    ThreadsEnd s (s.mapClient c f) := by
  intro d left found
  rw [heap_mapClient] at found
  split_ifs at found with same
  · obtain ⟨before, found', rfl⟩ := Option.map_eq_some_iff.mp found
    exact ⟨before, same ▸ found', receiver before, connector before⟩
  · exact ⟨left, found, id, id⟩

theorem threadsEnd_release : ThreadsEnd s (release c s) := by
  intro d left found
  rw [heap_release] at found
  split_ifs at found with same
  · obtain ⟨before, found', kept⟩ := Option.bind_eq_some_iff.mp found
    obtain ⟨_, rfl⟩ := drop_eq_some kept
    exact ⟨before, same ▸ found', id, id⟩
  · exact ⟨left, found, id, id⟩

theorem threadsEnd_threadStopped : ThreadsEnd s (s.mapClient c threadStopped) :=
  threadsEnd_mapClient (fun _ running => absurd rfl running) fun _ => id

theorem threadsEnd_connectorJoined : ThreadsEnd s (s.mapClient c connectorJoined) :=
  threadsEnd_mapClient (fun _ => id) fun _ running => absurd rfl running

/-- The thread of the client the shutdown is at has come to its end. -/
theorem ThreadsEnd.receiver_idle (ends : ThreadsEnd s t) (found : s.heap c = some client)
    (idle : client.clientThread = .null) {left : TcpClient} (found' : t.heap c = some left) :
    left.clientThread = .null := by
  obtain ⟨before, found'', receiver, _⟩ := ends _ _ found'
  obtain rfl := Option.some.inj (found.symm.trans found'')
  by_contra running
  exact receiver running idle

theorem ThreadsEnd.connector_idle (ends : ThreadsEnd s t) (found : s.heap c = some client)
    (idle : client.activeConnectThread = .null) {left : TcpClient} (found' : t.heap c = some left) :
    left.activeConnectThread = .null := by
  obtain ⟨before, found'', _, connector⟩ := ends _ _ found'
  obtain rfl := Option.some.inj (found.symm.trans found'')
  by_contra running
  exact connector running idle

theorem threadStopped_found (found : s.heap c = some client) :
    (s.mapClient c threadStopped).heap c = some (threadStopped client) := by
  rw [heap_mapClient, if_pos rfl, found, Option.map_some]

theorem connectorJoined_found (found : s.heap c = some client) :
    (s.mapClient c connectorJoined).heap c = some (connectorJoined client) := by
  rw [heap_mapClient, if_pos rfl, found, Option.map_some]

theorem mem_of_ne {list rest : List ClientRef} (listed : list = c :: rest) (member : d ∈ list)
    (other : d ≠ c) :
    d ∈ rest :=
  List.mem_of_ne_of_mem other (listed ▸ member)

/-- After a visit the threads that are left belong to clients that are still to be visited. -/
theorem Winding.visited (winding : Winding s) (ends : ThreadsEnd s t)
    (ledger : Ledger [] t) (agreement : Agreement [] t)
    (served : (svcList t).Nodup) (msgQ : t.msgQ = s.msgQ) (acceptor : t.tcpNewConnAcc = s.tcpNewConnAcc)
    (receivers : ∀ {d left}, t.heap d = some left → left.clientThread ≠ .null →
      d ∈ s.tcpClientDb ∨ d ∈ s.establishedClient → d ∈ t.tcpClientDb ∨ d ∈ t.establishedClient)
    (connectors : ∀ {d left}, t.heap d = some left → left.activeConnectThread ≠ .null →
      d ∈ s.connectpendingClients → d ∈ t.connectpendingClients) : Winding t where
  msgQ := msgQ.trans winding.msgQ
  receivers found running := by
    obtain ⟨before, found', receiver, _⟩ := ends _ _ found
    exact receivers found running (winding.receivers found' (receiver running))
  connectors found running := by
    obtain ⟨before, found', _, connector⟩ := ends _ _ found
    exact connectors found running (winding.connectors found' (connector running))
  ledger := ledger
  agreement := agreement
  served := served
  acceptor := acceptor.trans winding.acceptor

theorem winding_svcPurges {rest : List ClientRef} (winding : Winding s) (listed : svcList s = c :: rest) :
    Winding (svcPurged c s) ∧ svcList (svcPurged c s) = rest ∧ remove c rest = rest := by
  obtain ⟨once, unchanged, removed, nodup⟩ := nodup_remove (listed ▸ winding.served)
  have alive : ∃ client, s.heap c = some client := by
    apply winding.ledger.alive
    rw [holders, listed]
    omega
  have list : svcList (svcPurged c s) = rest := by rw [svcList_svcPurged, listed, removed]
  have ends : ThreadsEnd s (svcPurged c s) := by
    have flagged : ThreadsEnd s
        ((s.mapSvcMgr fun m => { m with tcpClientDb := remove c m.tcpClientDb }).mapClient c notListening) :=
      (ThreadsEnd.of_heap rfl).trans (threadsEnd_mapClient (fun _ => id) fun _ => id)
    exact flagged.trans threadsEnd_release
  have ledger := ledger_svcPurges winding.ledger (listed ▸ once) ⟨alive, rfl⟩
  have agreement := winding.agreement.retains (retains_svcPurges ⟨alive, rfl⟩)
  exact ⟨winding.visited ends ledger agreement (list ▸ nodup) rfl rfl (fun _ _ => id) fun _ _ =>
    id, list, unchanged⟩

theorem winding_dbPurges {rest : List ClientRef} (winding : Winding s) (listed : s.tcpClientDb = c :: rest)
    (purges : DbPurges c s t) : Winding t ∧ t.tcpClientDb = rest ∧ t.tcpClientSvcMgr = s.tcpClientSvcMgr ∧
      remove c rest = rest := by
  obtain ⟨once, unchanged, removed, _⟩ := nodup_remove (listed ▸ winding.agreement.tcpClientDb)
  obtain ⟨ledger, list⟩ := ledger_dbPurges winding.ledger (listed ▸ once) purges
  rw [listed, removed] at list
  obtain ⟨client, found, rfl⟩ := purges
  have unlisted {s : TcpServerController} : ThreadsEnd s (unkeyed c s) :=
    (ThreadsEnd.of_heap rfl).trans threadsEnd_release
  by_cases idle : client.clientThread = .null
  · rw [if_pos idle] at list ledger ⊢
    have agreement := winding.agreement.retains (retains_unkeyed (c := c))
    refine ⟨winding.visited unlisted ledger agreement winding.served rfl rfl (fun {d left} found' running => ?_)
      fun _ _ => id, list, rfl, unchanged⟩
    have other : d ≠ c := by
      rintro rfl
      exact running (unlisted.receiver_idle found idle found')
    exact Or.imp_left fun member => list ▸ mem_of_ne listed member other
  · rw [if_neg idle] at list ledger ⊢
    have stopped : ThreadsEnd (s.mapClient c threadStopped)
        (unkeyed c (release c (s.mapClient c threadStopped))) :=
      threadsEnd_release.trans unlisted
    have agreement := winding.agreement.retains
        ((retains_threadStopped (c := c)).trans (retains_unkeyed (c := c)))
    refine ⟨winding.visited (threadsEnd_threadStopped.trans stopped) ledger agreement winding.served rfl rfl
      (fun {d left} found' running => ?_) fun _ _ => id, list, rfl, unchanged⟩
    have other : d ≠ c := by
      rintro rfl
      exact running (stopped.receiver_idle (threadStopped_found found) rfl found')
    exact Or.imp_left fun member => list ▸ mem_of_ne listed member other

/-- The client leaves the pending list before its connector is joined, for what the flags say. -/
theorem agreement_pendingStops (agreement : Agreement [] s) (stops : PendingStops c s t) : Agreement [] t := by
  obtain ⟨client, rest, found, pending, _, rfl⟩ := stops
  have popped : Agreement [] { s with connectpendingClients := rest } :=
    agreement.retains
      ⟨fun found => ⟨_, found, .refl _⟩, Nat.le_refl _, id, pending ▸ List.sublist_cons_self c rest,
        List.Sublist.refl _⟩
  have absent : c ∉ rest := (List.nodup_cons.mp (pending ▸ agreement.connectpendingClients)).1
  have joined : Agreement []
      (({ s with connectpendingClients := rest } : TcpServerController).mapClient c connectorJoined) :=
    popped.mapClient found ⟨rfl, rfl⟩ (iff_of_false ConnectThread.noConfusion Bool.noConfusion) id
      (fun member _ => absurd member absent) rfl
  exact (joined.retains retains_release).retains retains_release

theorem winding_pendingStops {rest : List ClientRef} (winding : Winding s)
    (pending : s.connectpendingClients = c :: rest) (stops : PendingStops c s t) :
    Winding t ∧ t.connectpendingClients = rest ∧ t.tcpClientDb = s.tcpClientDb ∧
      t.tcpClientSvcMgr = s.tcpClientSvcMgr := by
  have ledger := ledger_pendingStops winding.ledger stops
  have agreement := agreement_pendingStops winding.agreement stops
  obtain ⟨client, rest', found, pending', _, rfl⟩ := stops
  obtain ⟨_, rfl⟩ := List.cons.inj (pending.symm.trans pending')
  have joined : ThreadsEnd (s.mapClient c connectorJoined)
      (release c { release c (s.mapClient c connectorJoined) with connectpendingClients := rest }) :=
    threadsEnd_release.trans ((ThreadsEnd.of_heap rfl).trans threadsEnd_release)
  refine ⟨winding.visited (threadsEnd_connectorJoined.trans joined) ledger agreement winding.served rfl rfl
    (fun _ _ => id) fun {d left} found' running member => ?_, rfl, rfl, rfl⟩
  have other : d ≠ c := by
    rintro rfl
    exact running (joined.connector_idle (connectorJoined_found found) rfl found')
  exact mem_of_ne pending member other

theorem winding_establishedStops {rest : List ClientRef} (winding : Winding s)
    (established : s.establishedClient = c :: rest) (stops : EstablishedStops c s t) :
    Winding t ∧ t.establishedClient = rest ∧ t.connectpendingClients = s.connectpendingClients ∧
      t.tcpClientDb = s.tcpClientDb ∧ t.tcpClientSvcMgr = s.tcpClientSvcMgr := by
  have ledger := ledger_establishedStops winding.ledger stops
  obtain ⟨client, rest', found, established', _, rfl⟩ := stops
  obtain ⟨_, rfl⟩ := List.cons.inj (established.symm.trans established')
  have popped {s : TcpServerController} (established : s.establishedClient = c :: rest) :
      Retains s (release c { s with establishedClient := rest }) := by
    have shorter : Retains s { s with establishedClient := rest } :=
      ⟨fun found => ⟨_, found, .refl _⟩, Nat.le_refl _, id, List.Sublist.refl _,
        established ▸ List.sublist_cons_self c rest⟩
    exact shorter.trans retains_release
  have leaves {s : TcpServerController} : ThreadsEnd s (release c { s with establishedClient := rest }) :=
    (ThreadsEnd.of_heap rfl).trans threadsEnd_release
  by_cases threaded : client.threaded = true
  · rw [if_pos threaded] at ledger ⊢
    have stopped : ThreadsEnd (s.mapClient c threadStopped)
        (release c { release c (s.mapClient c threadStopped) with establishedClient := rest }) :=
      threadsEnd_release.trans leaves
    have agreement := winding.agreement.retains ((retains_threadStopped (c := c)).trans (popped established))
    refine ⟨winding.visited (threadsEnd_threadStopped.trans stopped) ledger agreement winding.served rfl rfl
      (fun {d left} found' running => ?_) fun _ _ => id, rfl, rfl, rfl, rfl⟩
    have other : d ≠ c := by
      rintro rfl
      exact running (stopped.receiver_idle (threadStopped_found found) rfl found')
    exact Or.imp_right fun member => mem_of_ne established member other
  · rw [if_neg threaded] at ledger ⊢
    have idle : client.clientThread = .null := not_not.mp fun running =>
      threaded ((winding.agreement.threaded found).mp running)
    have agreement := winding.agreement.retains (popped established)
    refine ⟨winding.visited leaves ledger agreement winding.served rfl rfl (fun {d left} found' running => ?_)
      fun _ _ => id, rfl, rfl, rfl, rfl⟩
    have other : d ≠ c := by
      rintro rfl
      exact running (leaves.receiver_idle found idle found')
    exact Or.imp_right fun member => mem_of_ne established member other

theorem head_ne_of_remove {rest : List ClientRef} (unchanged : remove c rest = rest) : rest.head? ≠ some c := by
  intro first
  have member : c ∈ remove c rest := unchanged.symm ▸ List.mem_of_mem_head? first
  rw [← List.count_pos_iff, count_remove, if_pos rfl] at member
  exact Nat.lt_irrefl 0 member

theorem svcPurgeFrom_returns {fuel : ℕ} {list : List ClientRef} (winding : Winding s)
    (listed : svcList s = list)
    (enough : list.length ≤ fuel) : ∃ t, (TcpClientServiceManager.purgeFrom fuel list).Runs s () t ∧
    Winding t ∧
      svcList t = [] ∧ t.tcpClientSvcMgr.isSome = s.tcpClientSvcMgr.isSome := by
  induction fuel generalizing s list with
  | zero =>
    obtain rfl := List.length_eq_zero_iff.mp (Nat.le_zero.mp enough)
    exact ⟨s, runs_pure.mpr ⟨rfl, rfl⟩, winding, listed, rfl⟩
  | succ fuel ih =>
    cases list with
    | nil => exact ⟨s, runs_pure.mpr ⟨rfl, rfl⟩, winding, listed, rfl⟩
    | cons c rest =>
      obtain ⟨winding', listed', unchanged⟩ := winding_svcPurges winding listed
      obtain ⟨once, _⟩ := nodup_remove (listed ▸ winding.served)
      have alive : ∃ client, s.heap c = some client := by
        apply winding.ledger.alive
        rw [holders, listed]
        omega
      obtain ⟨left, released⟩ := (ledger_svcUnlisted winding.ledger (listed ▸ once)).returns
      obtain ⟨t, ran, winding'', empty, present⟩ := ih winding' listed' (Nat.le_of_succ_le_succ enough)
      refine ⟨t, ?_, winding'', empty, ?_⟩
      · simp only [TcpClientServiceManager.purgeFrom, runs_bind, runs_update, runs_modifyClient]
        refine ⟨(), _, rfl, (), _, ⟨alive, rfl⟩, left, _, released, ?_⟩
        rw [runs_ite, if_neg (head_ne_of_remove unchanged), unchanged]
        exact ran
      · rw [present]
        exact Option.isSome_map

theorem dbPurgeFrom_returns {fuel : ℕ} {list : List ClientRef} (winding : Winding s)
    (listed : s.tcpClientDb = list)
    (enough : list.length ≤ fuel) : ∃ t, (TcpClientDbManager.purgeFrom fuel list).Runs s () t ∧
    Winding t ∧
      t.tcpClientDb = [] ∧ t.tcpClientSvcMgr = s.tcpClientSvcMgr := by
  induction fuel generalizing s list with
  | zero =>
    obtain rfl := List.length_eq_zero_iff.mp (Nat.le_zero.mp enough)
    exact ⟨s, runs_pure.mpr ⟨rfl, rfl⟩, winding, listed, rfl⟩
  | succ fuel ih =>
    cases list with
    | nil => exact ⟨s, runs_pure.mpr ⟨rfl, rfl⟩, winding, listed, rfl⟩
    | cons c rest =>
      obtain ⟨client, found⟩ := winding.ledger.alive_db (listed ▸ List.mem_cons_self)
      obtain ⟨once, _⟩ := nodup_remove (listed ▸ winding.agreement.tcpClientDb)
      have joined : ∃ middle, (when (client.clientThread ≠ .null) (TcpClient.stopThread c)).Runs
          s () middle ∧
          middle = (if client.clientThread = .null then s else release c (s.mapClient c threadStopped)) ∧
          Ledger [] middle ∧ middle.tcpClientDb = s.tcpClientDb := by
        by_cases idle : client.clientThread = .null
        · exact ⟨s, by rw [runs_when, if_neg (not_not.mpr idle)], (if_pos idle).symm, winding.ledger, rfl⟩
        · have stopped := stopThread_returns winding.ledger found idle
          exact ⟨_, by rw [runs_when, if_pos idle]; exact stopped, (if_neg idle).symm,
            ledger_threadStopped winding.ledger found idle, rfl⟩
      obtain ⟨middle, stopping, equation, ledger, db⟩ := joined
      obtain ⟨left, released⟩ := (ledger_unlisted (c := c) ledger (by rw [db, listed]; exact once)).returns
      obtain ⟨winding', listed', kept, unchanged⟩ :=
        winding_dbPurges (t := unkeyed c middle) winding listed ⟨client, found, by rw [equation]⟩
      obtain ⟨t, ran, winding'', empty, kept'⟩ := ih winding' listed' (Nat.le_of_succ_le_succ enough)
      refine ⟨t, ?_, winding'', empty, kept'.trans kept⟩
      simp only [TcpClientDbManager.purgeFrom, runs_bind, runs_deref, runs_update]
      refine ⟨client, s, ⟨found, rfl⟩, (), middle, stopping, (), _, rfl, left, _, released, ?_⟩
      rw [runs_ite, if_neg (head_ne_of_remove unchanged), unchanged]
      exact ran

/-- With an empty queue every pending client is one whose connector still retries. -/
theorem Winding.retrying (winding : Winding s) (found : s.heap c = some client)
    (pending : c ∈ s.connectpendingClients) : client.connectInProgress = true ∧
    client.activeConnectThread ≠ .null := by
  have inProgress : client.connectInProgress = true := by
    apply (winding.agreement.connecting found pending).resolve_right
    rintro ⟨msg, queued, _⟩
    exact absurd queued List.not_mem_nil
  refine ⟨inProgress, ?_⟩
  rw [(winding.agreement.connectInProgress found).mpr inProgress]
  exact ConnectThread.noConfusion

theorem stopPending_returns {fuel : ℕ} (winding : Winding s)
    (enough : s.connectpendingClients.length ≤ fuel) :
    ∃ t, (TcpServerController.stopPending fuel).Runs s () t ∧ Winding t ∧ t.connectpendingClients = [] ∧
      t.tcpClientDb = s.tcpClientDb ∧ t.tcpClientSvcMgr = s.tcpClientSvcMgr := by
  induction fuel generalizing s with
  | zero =>
    exact ⟨s, runs_pure.mpr ⟨rfl, rfl⟩, winding, List.length_eq_zero_iff.mp (Nat.le_zero.mp enough),
      rfl, rfl⟩
  | succ fuel ih =>
    simp only [TcpServerController.stopPending, runs_bind, runs_read]
    cases pending : s.connectpendingClients with
    | nil =>
      refine ⟨s, ⟨s, s, ⟨rfl, rfl⟩, ?_⟩, winding, pending, rfl, rfl⟩
      rw [pending]
      exact runs_pure.mpr ⟨rfl, rfl⟩
    | cons c rest =>
      obtain ⟨client, found⟩ : ∃ client, s.heap c = some client := by
        apply winding.ledger.alive
        rw [holders, pending, List.count_cons_self]
        omega
      obtain ⟨inProgress, running⟩ := winding.retrying found (pending ▸ List.mem_cons_self)
      have joined := stopConnectorThread_returns winding.ledger found running
      have unpended : Ledger [c]
          { release c (s.mapClient c connectorJoined) with connectpendingClients := rest } :=
        ledger_unpended (ledger_release (ledger_connectorJoined winding.ledger found running)) pending
      obtain ⟨left, released⟩ := unpended.returns
      obtain ⟨winding', pending', db, svcMgr⟩ :=
        winding_pendingStops winding pending ⟨client, rest, found, pending, running, rfl⟩
      obtain ⟨t, ran, winding'', empty, db', svcMgr'⟩ := ih winding' (by
        rw [pending']
        rw [pending] at enough
        exact Nat.le_of_succ_le_succ enough)
      refine ⟨t, ⟨s, s, ⟨rfl, rfl⟩, ?_⟩, winding'', empty, db'.trans db, svcMgr'.trans svcMgr⟩
      rw [pending]
      simp only [runs_bind, runs_deref, runs_assertThat, runs_update]
      refine ⟨client, s, ⟨found, rfl⟩, (), s, ⟨inProgress, rfl⟩, (), _, joined, (), _, rfl,
        left, _, ?_, ran⟩
      have rest_eq : (release c (s.mapClient c connectorJoined)).connectpendingClients.tail = rest :=
        congrArg List.tail pending
      rw [rest_eq]
      exact released

theorem stopEstablished_returns {fuel : ℕ} (winding : Winding s)
    (enough : s.establishedClient.length ≤ fuel) :
    ∃ t, (TcpServerController.stopEstablished fuel).Runs s () t ∧ Winding t ∧ t.establishedClient = [] ∧
      t.connectpendingClients = s.connectpendingClients ∧ t.tcpClientDb = s.tcpClientDb ∧
      t.tcpClientSvcMgr = s.tcpClientSvcMgr := by
  induction fuel generalizing s with
  | zero =>
    exact ⟨s, runs_pure.mpr ⟨rfl, rfl⟩, winding, List.length_eq_zero_iff.mp (Nat.le_zero.mp enough),
      rfl, rfl, rfl⟩
  | succ fuel ih =>
    simp only [TcpServerController.stopEstablished, runs_bind, runs_read]
    cases established : s.establishedClient with
    | nil =>
      refine ⟨s, ⟨s, s, ⟨rfl, rfl⟩, ?_⟩, winding, established, rfl, rfl, rfl⟩
      rw [established]
      exact runs_pure.mpr ⟨rfl, rfl⟩
    | cons c rest =>
      obtain ⟨client, found⟩ : ∃ client, s.heap c = some client := by
        apply winding.ledger.alive
        rw [holders, established, List.count_cons_self]
        omega
      have connected := winding.agreement.connected found (established ▸ List.mem_cons_self)
      have running (threaded : client.threaded = true) : client.clientThread ≠ .null :=
        (winding.agreement.threaded found).mpr threaded
      have joined : ∃ middle, (when client.threaded (TcpClient.stopThread c)).Runs s () middle ∧
          middle = (if client.threaded then release c (s.mapClient c threadStopped) else s) ∧
          Ledger [] middle ∧ middle.establishedClient = c :: rest := by
        by_cases threaded : client.threaded = true
        · have stopped := stopThread_returns winding.ledger found (running threaded)
          exact ⟨_, by rw [runs_when, if_pos threaded]; exact stopped, (if_pos threaded).symm,
            ledger_threadStopped winding.ledger found (running threaded), established⟩
        · exact ⟨s, by rw [runs_when, if_neg threaded], (if_neg threaded).symm, winding.ledger, established⟩
      obtain ⟨middle, stopping, equation, ledger, list⟩ := joined
      obtain ⟨left, released⟩ := (ledger_unestablished ledger list).returns
      obtain ⟨winding', list', pending, db, svcMgr⟩ := winding_establishedStops
        (t := release c { middle with establishedClient := rest }) winding established
        ⟨client, rest, found, established, running, by rw [equation]⟩
      obtain ⟨t, ran, winding'', empty, pending', db', svcMgr'⟩ := ih winding' (by
        rw [list']
        rw [established] at enough
        exact Nat.le_of_succ_le_succ enough)
      refine ⟨t, ⟨s, s, ⟨rfl, rfl⟩, ?_⟩, winding'', empty, pending'.trans pending, db'.trans db,
        svcMgr'.trans svcMgr⟩
      rw [established]
      simp only [runs_bind, runs_deref, runs_assertThat, runs_update]
      refine ⟨client, s, ⟨found, rfl⟩, (), s, ⟨connected, rfl⟩, (), middle, stopping, (), _, rfl,
        left, _, ?_, ran⟩
      rw [list, List.tail_cons]
      exact released

theorem winding_of_heap (winding : Winding s) (heap : t.heap = s.heap) (nextClient : t.nextClient = s.nextClient)
    (db : t.tcpClientDb = s.tcpClientDb) (list : svcList t = svcList s)
    (pending : t.connectpendingClients = s.connectpendingClients)
    (established : t.establishedClient = s.establishedClient)
    (msgQ : t.msgQ = []) (acceptor : t.tcpNewConnAcc = false) : Winding t where
  msgQ := msgQ
  receivers found running := by
    rw [db, established]
    exact winding.receivers (heap ▸ found) running
  connectors found running := by
    rw [pending]
    exact winding.connectors (heap ▸ found) running
  ledger := winding.ledger.of_heap heap fun d => by rw [holders, holders, db, list, pending, established, heap]
  agreement := winding.agreement.retains (.of_heap heap nextClient db pending established)
  served := list ▸ winding.served
  acceptor := acceptor

theorem svcStop_returns (winding : Winding s) (present : s.tcpClientSvcMgr = some m) :
    ∃ t left, TcpClientServiceManager.stop.Runs s () t ∧ Winding t ∧ t.tcpClientSvcMgr = some left ∧
      svcList t = [] := by
  have stopped : TcpClientServiceManager.stopTcpClientServiceManagerThread.Runs s ()
      { s with tcpClientSvcMgr := some { m with thread := false } } := by
    simp only [TcpClientServiceManager.stopTcpClientServiceManagerThread, runs_bind, runs_derefSvcMgr]
    refine ⟨m, s, ⟨present, rfl⟩, ?_⟩
    rw [runs_when]
    split_ifs with running
    · simp only [runs_bind, runs_perform, runs_update]
      exact ⟨(), s, rfl, mapSvcMgr_some present _⟩
    · have idle : { m with thread := false } = m := by rw [← Bool.eq_false_iff.mpr running]
      rw [idle, ← present]
  have winding' : Winding { s with tcpClientSvcMgr := some { m with thread := false } } :=
    winding_of_heap winding rfl rfl rfl (svcList_some present).symm rfl rfl winding.msgQ winding.acceptor
  obtain ⟨t, purged, winding'', empty, some_left⟩ := svcPurgeFrom_returns winding' rfl (Nat.le_refl _)
  obtain ⟨left, kept⟩ := Option.isSome_iff_exists.mp (some_left.trans rfl)
  refine ⟨t, left, ?_, winding'', kept, empty⟩
  simp only [TcpClientServiceManager.stop, TcpClientServiceManager.purge, runs_bind, runs_derefSvcMgr,
    runs_assertThat]
  refine ⟨(), _, stopped, (), t,
    ⟨{ m with thread := false }, _, ⟨rfl, rfl⟩, (), _, ⟨rfl, rfl⟩, purged⟩,
    left, t, ⟨kept, rfl⟩, ?_, rfl⟩
  rw [← svcList_some kept]
  exact empty

/-- A client that nothing holds any more has gone. -/
theorem Winding.destroyed (winding : Winding s) (served : svcList s = []) (db : s.tcpClientDb = [])
    (pending : s.connectpendingClients = []) (established : s.establishedClient = []) (c : ClientRef) :
    s.heap c = none := by
  cases found : s.heap c with
  | none => rfl
  | some client =>
    have receiver : client.clientThread = .null := by
      by_contra running
      rcases winding.receivers found running with member | member
      · exact absurd (db ▸ member) List.not_mem_nil
      · exact absurd (established ▸ member) List.not_mem_nil
    have connector : client.activeConnectThread = .null := by
      by_contra running
      exact absurd (pending ▸ winding.connectors found running) List.not_mem_nil
    have unheld : client.refCount = 0 := by
      have balance := winding.ledger c
      rw [counts, found, Option.map_some, Option.getD_some, holders, served, db, pending,
        established, found, threads, receiver, connector] at balance
      exact balance
    obtain ⟨threaded, msg, queued, _⟩ := winding.agreement.unreferenced found unheld
    exact absurd queued List.not_mem_nil

/-- None of the threads of a server without clients, services and messages has a step to take. -/
theorem no_thread_steps (acceptor : s.tcpNewConnAcc = false) (served : s.tcpClientSvcMgr = none)
    (msgQ : s.msgQ = [])
    (destroyed : ∀ c, s.heap c = none) (e : Event) (thread : OfThread e) : ¬ e.Enabled s := by
  intro enabled
  cases e with
  | accept => exact absurd (acceptor.symm.trans enabled.2) Bool.noConfusion
  | processFront => exact enabled.2 msgQ
  | connectRetryPost c =>
    have retrying := enabled.2
    rw [destroyed c] at retrying
    cases retrying
  | connectRetryExit c =>
    have posted : (s.heap c).map (·.activeConnectThread) = some .posted := enabled
    rw [destroyed c] at posted
    cases posted
  | select =>
    have running := enabled.2
    rw [served] at running
    cases running
  | visit =>
    have running := enabled.2
    rw [served] at running
    cases running
  | clientThread c =>
    have receiving := enabled.2
    rw [destroyed c] at receiving
    cases receiving
  | _ => exact thread

theorem stopsOrderly_of_quiescent (agreement : Agreement s.msgQ s) (ledger : Ledger [] s)
    (served : (svcList s).Nodup) (quiescent : Quiescent s) : StopsOrderly s := by
  -- the acceptor
  obtain ⟨s₀, accepting, winding₀, svcMgr₀⟩ : ∃ s₀, (when s.tcpNewConnAcc do
      perform (.cancelJoin .acceptor)
      update fun s => { s with tcpNewConnAcc := false }
      update fun s => { s with notAcceptingNewConnections := true } : Op Unit).Runs s () s₀ ∧ Winding s₀ ∧
        s₀.tcpClientSvcMgr = s.tcpClientSvcMgr := by
    have agreement : Agreement [] s := quiescent.msgQ ▸ agreement
    have winding : Winding { s with tcpNewConnAcc := false } :=
      ⟨⟨quiescent.msgQ, quiescent.receivers, quiescent.connectors⟩, ledger.of_heap rfl fun _ => rfl,
        agreement.retains (.of_heap rfl rfl rfl rfl rfl), served, rfl⟩
    by_cases accepts : s.tcpNewConnAcc = true
    · refine ⟨{ s with tcpNewConnAcc := false, notAcceptingNewConnections := true }, ?_,
        winding_of_heap winding rfl rfl rfl rfl rfl rfl quiescent.msgQ rfl, rfl⟩
      rw [runs_when, if_pos accepts]
      simp only [runs_bind, runs_perform, runs_update]
      exact ⟨(), s, rfl, (), _, rfl, rfl⟩
    · refine ⟨s, by rw [runs_when, if_neg accepts], ?_, rfl⟩
      exact winding_of_heap winding rfl rfl rfl rfl rfl rfl quiescent.msgQ (Bool.eq_false_iff.mpr accepts)
  -- the service manager
  obtain ⟨s₁, serving, winding₁, svcMgr₁⟩ : ∃ s₁, (when s₀.tcpClientSvcMgr.isSome do
      TcpClientServiceManager.stop
      update fun s => { s with tcpClientSvcMgr := none }
      update fun s => { s with notListeningClients := true } : Op Unit).Runs s₀ () s₁ ∧ Winding s₁ ∧
        s₁.tcpClientSvcMgr = none := by
    cases present : s₀.tcpClientSvcMgr with
    | none => exact ⟨s₀, by rw [runs_when, if_neg Bool.noConfusion], winding₀, present⟩
    | some m =>
      obtain ⟨middle, left, stopped, winding, kept, empty⟩ := svcStop_returns winding₀ present
      refine ⟨{ middle with tcpClientSvcMgr := none, notListeningClients := true }, ?_,
        winding_of_heap winding rfl rfl rfl empty.symm rfl rfl winding.msgQ winding.acceptor, rfl⟩
      rw [runs_when, if_pos Option.isSome_some]
      simp only [runs_bind, runs_update]
      exact ⟨(), middle, stopped, (), _, rfl, rfl⟩
  -- the three lists of the controller
  obtain ⟨s₂, purging, winding₂, db₂, svcMgr₂⟩ := dbPurgeFrom_returns winding₁ rfl (Nat.le_refl _)
  obtain ⟨s₃, stopping, winding₃, pending₃, db₃, svcMgr₃⟩ :=
    stopPending_returns winding₂ (Nat.le_refl _)
  obtain ⟨s₄, ending, winding₄, established₄, pending₄, db₄, svcMgr₄⟩ :=
    stopEstablished_returns winding₃ (Nat.le_refl _)
  have absent : s₄.tcpClientSvcMgr = none := svcMgr₄.trans (svcMgr₃.trans (svcMgr₂.trans svcMgr₁))
  have served₄ : svcList s₄ = [] := by rw [svcList, absent]
  have db : s₄.tcpClientDb = [] := db₄.trans (db₃.trans db₂)
  have pending : s₄.connectpendingClients = [] := pending₄.trans pending₃
  have destroyed := winding₄.destroyed served₄ db pending established₄
  refine ⟨s₄, ?_, ⟨served₄, db, pending, established₄⟩, destroyed,
    no_thread_steps winding₄.acceptor absent winding₄.msgQ destroyed⟩
  simp only [TcpServerController.closeDown, TcpClientDbManager.purge, runs_bind, runs_read, runs_perform,
    runs_assertThat]
  exact ⟨s, s, ⟨rfl, rfl⟩, (), s₀, accepting, s₀, s₀, ⟨rfl, rfl⟩, (), s₁, serving, (), s₂,
    ⟨(), s₁, rfl, s₁, s₁, ⟨rfl, rfl⟩, (), s₂, purging, rfl⟩, s₂, s₂, ⟨rfl, rfl⟩, (),
    s₂, ⟨db₂, rfl⟩,
    (), s₂, rfl, s₂, s₂, ⟨rfl, rfl⟩, (), s₃, stopping, s₃, s₃, ⟨rfl, rfl⟩, (), s₄,
    ending, rfl⟩

/-- A property of clients that a thread of theirs gives them, whoever else gives them up. -/
structure HeldByThread (P : TcpClient → Prop) : Prop where
  counted : ∀ client n, P client → P { client with refCount := n }
  notListening : ∀ client, P client → P (notListening client)
  running : ∀ client, P client → 0 < threads (some client)

def Lingers (P : TcpClient → Prop) (c : ClientRef) (s : TcpServerController) : Prop :=
  ∃ client, s.heap c = some client ∧ P client

variable {P : TcpClient → Prop}

theorem Lingers.mapClient {f : TcpClient → TcpClient} (lingers : Lingers P c s)
    (kept : d = c → ∀ client, P client → P (f client)) : Lingers P c (s.mapClient d f) := by
  obtain ⟨client, found, holds⟩ := lingers
  rcases eq_or_ne c d with rfl | other
  · exact ⟨f client, by rw [heap_mapClient, if_pos rfl, found, Option.map_some], kept rfl client holds⟩
  · exact ⟨client, by rw [heap_mapClient, if_neg other, found], holds⟩

/-- A client with a thread does not go with the reference of somebody else. -/
theorem Lingers.release (lingers : Lingers P c s) (holds : HeldByThread P) (ledger : Ledger (d :: credit) s) :
    Lingers P c (release d s) := by
  obtain ⟨client, found, running⟩ := lingers
  rcases eq_or_ne c d with rfl | other
  · have balance := ledger c
    rw [counts, holders, found, Option.map_some, Option.getD_some, List.count_cons_self] at balance
    have several := holds.running client running
    refine ⟨{ client with refCount := client.refCount - 1 }, ?_, holds.counted client _ running⟩
    rw [heap_release, if_pos rfl, found, Option.bind_some, drop, if_neg (by omega)]
  · exact ⟨client, by rw [heap_release, if_neg other, found], running⟩

theorem lingers_svcEnds (holds : HeldByThread P) (ledger : Ledger [] s) (nodup : (svcList s).Nodup)
    (ends : SvcEnds s t) (lingers : Lingers P c s) :
    Lingers P c t ∧ t.connectpendingClients = s.connectpendingClients ∧ t.establishedClient =
      s.establishedClient := by
  obtain @⟨m, left, middle, present, purges, kept, empty⟩ := ends
  have listed : svcList s = m.tcpClientDb := svcList_some present
  have stopped : Ledger [] { s with tcpClientSvcMgr := some { m with thread := false } } :=
    ledger_svcMgr ledger m.tcpClientDb rfl fun d => by rw [listed]
  have purged : Ledger [] middle ∧ svcList middle = [] ∧ ([] : List ClientRef).Nodup ∧
      Lingers P c middle ∧
      middle.connectpendingClients = s.connectpendingClients ∧ middle.establishedClient =
        s.establishedClient := by
    refine purges.invariant (motive := fun rest s' => Ledger [] s' ∧ svcList s' = rest ∧ rest.Nodup ∧
      Lingers P c s' ∧
      s'.connectpendingClients = s.connectpendingClients ∧ s'.establishedClient = s.establishedClient) ?_
      ⟨stopped, rfl, listed ▸ nodup, lingers, rfl, rfl⟩
    rintro d rest s' t' purges ⟨ledger, list, nodup, lingers, pending, established⟩
    obtain ⟨once, unchanged, removed, nodup'⟩ := nodup_remove nodup
    have ledger' := ledger_svcPurges ledger (list ▸ once) purges
    obtain ⟨_, rfl⟩ := purges
    have unlisted : Lingers P c (s'.mapSvcMgr fun m => { m with tcpClientDb := remove d m.tcpClientDb }) :=
      lingers
    refine ⟨ledger', by rw [svcList_svcPurged, list, removed, unchanged], unchanged.symm ▸ nodup',
      ?_, pending, established⟩
    exact (unlisted.mapClient fun _ => holds.notListening).release holds
      (ledger_svcUnlisted ledger (list ▸ once))
  exact ⟨purged.2.2.2.1, purged.2.2.2.2⟩

theorem lingers_dbPurges (holds : HeldByThread P) (ledger : Ledger [] s) (once : s.tcpClientDb.count d = 1)
    (purges : DbPurges d s t) (lingers : Lingers P c s)
    (stops : d = c → ∀ client, P client → P (threadStopped client)) : Lingers P c t := by
  obtain ⟨client, found, rfl⟩ := purges
  have unkeyed {s : TcpServerController} (lingers : Lingers P c s) (ledger : Ledger [] s)
      (once : s.tcpClientDb.count d = 1) : Lingers P c (unkeyed d s) := by
    have unlisted : Lingers P c { s with tcpClientDb := remove d s.tcpClientDb } := lingers
    exact unlisted.release holds (ledger_unlisted ledger once)
  split_ifs with idle
  · exact unkeyed lingers ledger once
  · have joined := (lingers.mapClient stops).release holds (ledger_threadJoined ledger found idle)
    exact unkeyed joined (ledger_threadStopped ledger found idle) once

theorem lingers_pendingStops (holds : HeldByThread P) (ledger : Ledger [] s) (stops : PendingStops d s t)
    (lingers : Lingers P c s) (joins : d = c → ∀ client, P client → P (connectorJoined client)) :
    Lingers P c t := by
  obtain ⟨client, rest, found, pending, running, rfl⟩ := stops
  have ledger' := ledger_connectorJoined ledger found running
  have joined : Lingers P c { release d (s.mapClient d connectorJoined) with connectpendingClients := rest } :=
    (lingers.mapClient joins).release holds ledger'
  exact joined.release holds (ledger_unpended (ledger_release ledger') pending)

theorem lingers_establishedStops (holds : HeldByThread P) (ledger : Ledger [] s) (stops : EstablishedStops d s t)
    (lingers : Lingers P c s) (joins : d = c → ∀ client, P client → P (threadStopped client)) :
    Lingers P c t := by
  obtain ⟨client, rest, found, established, running, rfl⟩ := stops
  split_ifs with threaded
  · have joined : Lingers P c { release d (s.mapClient d threadStopped) with establishedClient := rest } :=
      (lingers.mapClient joins).release holds (ledger_threadJoined ledger found (running threaded))
    exact joined.release holds
      (ledger_unestablished (ledger_threadStopped ledger found (running threaded)) established)
  · have popped : Lingers P c { s with establishedClient := rest } := lingers
    exact popped.release holds (ledger_unestablished ledger established)

/-- A shutdown leaves a client behind that has a thread which none of its visits ends. -/
theorem lingers_closeDown (holds : HeldByThread P) (ledger : Ledger [] s)
    (nodup : (svcList s).Nodup ∧ s.tcpClientDb.Nodup) (ran : TcpServerController.closeDown.Runs s () t)
    (lingers : Lingers P c s)
    (db : c ∈ s.tcpClientDb → ∀ client, P client → P (threadStopped client))
    (pending : c ∈ s.connectpendingClients → ∀ client, P client → P (connectorJoined client))
    (established : c ∈ s.establishedClient → ∀ client, P client → P (threadStopped client)) :
    Lingers P c t := by
  obtain ⟨notAccepting, acceptor, s₁, s₂, s₃, svc, purging, _, stopping, ending⟩ := closeDown_runs ran
  have ledger₀ : Ledger [] (toggled notAccepting acceptor s.createMultiThreaded s) :=
    ledger.of_heap rfl fun _ => rfl
  have served : (Ledger [] s₁ ∧ s₁.tcpClientDb = s.tcpClientDb) ∧ Lingers P c s₁ ∧
      s₁.connectpendingClients = s.connectpendingClients ∧ s₁.establishedClient = s.establishedClient := by
    split_ifs at svc
    · have nodup₀ : (svcList (toggled notAccepting acceptor s.createMultiThreaded s)).Nodup := nodup.1
      obtain ⟨ledger₁, db₁⟩ := ledger_svcEnds ledger₀ nodup₀ svc
      obtain ⟨lingers₁, pending₁, established₁⟩ := lingers_svcEnds holds ledger₀ nodup₀ svc lingers
      exact ⟨⟨ledger₁, db₁⟩, lingers₁, pending₁, established₁⟩
    · rw [svc]
      exact ⟨⟨ledger₀, rfl⟩, lingers, rfl, rfl⟩
  obtain ⟨⟨ledger₁, db₁⟩, lingers₁, pending₁, established₁⟩ := served
  have purged := purging.invariant
    (motive := fun rest s' => Ledger [] s' ∧ s'.tcpClientDb = rest ∧ rest.Nodup ∧ rest ⊆ s.tcpClientDb ∧
      Lingers P c s' ∧ s'.connectpendingClients = s.connectpendingClients ∧
      s'.establishedClient = s.establishedClient) (by
    rintro d rest s' t' purges ⟨ledger, list, nodup, inside, lingers, pending', established'⟩
    obtain ⟨once, unchanged, removed, nodup'⟩ := nodup_remove nodup
    obtain ⟨ledger', list'⟩ := ledger_dbPurges ledger (list ▸ once) purges
    have lingers' := lingers_dbPurges holds ledger (list ▸ once) purges lingers
      fun same => db (same ▸ inside List.mem_cons_self)
    refine ⟨ledger', by rw [list', list, removed, unchanged], unchanged.symm ▸ nodup',
      unchanged.symm ▸ (List.cons_subset.mp inside).2, lingers', ?_⟩
    obtain ⟨client, _, rfl⟩ := purges
    split_ifs <;> exact ⟨pending', established'⟩)
    ⟨ledger₁, rfl, db₁ ▸ nodup.2, db₁ ▸ List.Subset.refl _, lingers₁, pending₁, established₁⟩
  obtain ⟨ledger₂, _, _, _, lingers₂, pending₂, established₂⟩ := purged
  have stopped := stopping.invariant
    (motive := fun rest s' => Ledger [] s' ∧ rest ⊆ s.connectpendingClients ∧ Lingers P c s' ∧
      s'.establishedClient = s.establishedClient) (by
    rintro d rest s' t' stops ⟨ledger, inside, lingers, established'⟩
    have lingers' := lingers_pendingStops holds ledger stops lingers
      fun same => pending (same ▸ inside List.mem_cons_self)
    refine ⟨ledger_pendingStops ledger stops, (List.cons_subset.mp inside).2, lingers', ?_⟩
    obtain ⟨client, rest', _, _, _, rfl⟩ := stops
    exact established')
    ⟨ledger₂, pending₂ ▸ List.Subset.refl _, lingers₂, established₂⟩
  obtain ⟨ledger₃, _, lingers₃, established₃⟩ := stopped
  have ended := ending.invariant
    (motive := fun rest s' => Ledger [] s' ∧ rest ⊆ s.establishedClient ∧ Lingers P c s') (by
    rintro d rest s' t' stops ⟨ledger, inside, lingers⟩
    have lingers' := lingers_establishedStops holds ledger stops lingers
      fun same => established (same ▸ inside List.mem_cons_self)
    exact ⟨ledger_establishedStops ledger stops, (List.cons_subset.mp inside).2, lingers'⟩)
    ⟨ledger₃, established₃ ▸ List.Subset.refl _, lingers₃⟩
  exact ended.2.2

/-- Neither the queue nor its thread is touched. -/
theorem closeDown_queue (ran : TcpServerController.closeDown.Runs s () t) :
    t.msgQ = s.msgQ ∧ t.deleted = s.deleted := by
  obtain ⟨notAccepting, acceptor, s₁, s₂, s₃, svc, purging, _, stopping, ending⟩ := closeDown_runs ran
  have served : s₁.msgQ = s.msgQ ∧ s₁.deleted = s.deleted := by
    split_ifs at svc
    · obtain @⟨m, left, middle, present, purges, kept, empty⟩ := svc
      refine purges.invariant (motive := fun _ s' => s'.msgQ = s.msgQ ∧ s'.deleted = s.deleted)
        ?_ ⟨rfl, rfl⟩
      rintro c rest s' t' ⟨_, rfl⟩ same
      exact same
    · rw [svc]
      exact ⟨rfl, rfl⟩
  have purged := purging.invariant (motive := fun _ s' => s'.msgQ = s.msgQ ∧ s'.deleted = s.deleted) (by
    rintro c rest s' t' ⟨client, _, rfl⟩ same
    split_ifs <;> exact same) served
  have stopped := stopping.invariant (motive := fun _ s' => s'.msgQ = s.msgQ ∧ s'.deleted = s.deleted) (by
    rintro c rest s' t' ⟨client, rest', _, _, _, rfl⟩ same
    exact same) purged
  exact ending.invariant (motive := fun _ s' => s'.msgQ = s.msgQ ∧ s'.deleted = s.deleted) (by
    rintro c rest s' t' ⟨client, rest', _, _, _, rfl⟩ same
    split_ifs <;> exact same) stopped

theorem holds_receiver : HeldByThread fun client => client.clientThread ≠ .null where
  counted _ _ := id
  notListening _ := id
  running client running := by
    rw [threads, ofClientThread_running running]
    omega

theorem holds_connector : HeldByThread fun client => client.activeConnectThread ≠ .null where
  counted _ _ := id
  notListening _ := id
  running client running := by
    rw [threads, ofConnectThread_running running]
    omega

theorem quiescent_of_stopsOrderly (ledger : Ledger [] s) (nodup : (svcList s).Nodup ∧ s.tcpClientDb.Nodup)
    (going : s.deleted = false) (orderly : StopsOrderly s) : Quiescent s := by
  obtain ⟨t, ran, _, destroyed, silent⟩ := orderly
  obtain ⟨msgQ, deleted⟩ := closeDown_queue ran
  have gone {P : TcpClient → Prop} {c : ClientRef} (lingers : Lingers P c t) : False := by
    obtain ⟨client, found, _⟩ := lingers
    exact absurd ((destroyed c).symm.trans found) (by simp)
  refine ⟨?_, fun {c client} found running => ?_, fun {c client} found running => ?_⟩
  · by_contra queued
    exact silent (.processFront none) trivial ⟨deleted.trans going, msgQ ▸ queued⟩
  · by_contra unlisted
    rw [not_or] at unlisted
    exact gone (lingers_closeDown holds_receiver ledger nodup ran ⟨client, found, running⟩
      (fun member => absurd member unlisted.1) (fun _ _ => id) fun member => absurd member unlisted.2)
  · by_contra unlisted
    exact gone (lingers_closeDown holds_connector ledger nodup ran ⟨client, found, running⟩ (fun _ _ => id)
      (fun member => absurd member unlisted) fun _ _ => id)

/-- Where the references are right, `Stop` ends well exactly if nothing is on its way between the
lists it goes through. -/
theorem orderlyShutdown {ipAddr : UInt32} {portNo : UInt16} {es : List Event}
    (path : Path TcpServerController.Step (.started ipAddr portNo) es s) (going : s.deleted = false)
    (accounted : Accounted s) (once : (svcList s).Nodup) : StopsOrderly s ↔ Quiescent s := by
  have ledger := accounted_iff.mp accounted
  have agreement := (run_agreement path).2 going
  exact ⟨quiescent_of_stopsOrderly ledger ⟨once, agreement.tcpClientDb⟩ going,
    stopsOrderly_of_quiescent agreement ledger once⟩

end

/-- A threaded peer, an active opener that retries and one that is connected. -/
def quiescentEvents : List Event :=
  [.setClientCreationMode true, .accept 9 9, .processFront none, .createActiveClient 7 7 none,
    .createActiveClient 8 8 (some 5)]

theorem orderlyShutdown_quiescentEvents :
    StopsOrderly (TcpServerController.stateAfter RemovesOnce (.started 1 1) quiescentEvents) := by
  have path : Path (Guarded TcpServerController.Step RemovesOnce) (.started 1 1) quiescentEvents
      (TcpServerController.stateAfter RemovesOnce (.started 1 1) quiescentEvents) :=
    TcpServerController.stateAfter_path rfl
  obtain ⟨sound, ledger⟩ := run_ledger path
  have few : ∀ c < (TcpServerController.stateAfter RemovesOnce (.started 1 1) quiescentEvents).nextClient,
      ∀ client ∈ (TcpServerController.stateAfter RemovesOnce (.started 1 1) quiescentEvents).heap c,
      (client.clientThread ≠ .null →
        c ∈ (TcpServerController.stateAfter RemovesOnce (.started 1 1) quiescentEvents).tcpClientDb ∨
        c ∈ (TcpServerController.stateAfter RemovesOnce (.started 1 1) quiescentEvents).establishedClient) ∧
      (client.activeConnectThread ≠ .null →
        c ∈ (TcpServerController.stateAfter RemovesOnce (.started 1 1)
          quiescentEvents).connectpendingClients) := by
    decide
  apply (orderlyShutdown (path.mono And.right) rfl (accounted_iff.mpr ledger) (by decide)).mpr
  exact ⟨rfl, fun found => (few _ (sound.allocated found) _ found).1,
    fun found => (few _ (sound.allocated found) _ found).2⟩

/-- A connector has connected, and the message about it is still queued. -/
theorem connectedConnector_asserts : ¬ ∀ es s, Path TcpServerController.Step (.started 1 1) es s →
    s.deleted = false → StopsOrderly s := by
  intro always
  obtain ⟨t, ran, _⟩ := always [.createActiveClient 7 7 none, .connectRetryPost 0 5] _
    (TcpServerController.stateAfter_unguarded rfl) rfl
  have failed : (TcpServerController.closeDown.exec
      (TcpServerController.stateAfter (fun _ _ => True) (.started 1 1)
      [.createActiveClient 7 7 none, .connectRetryPost 0 5])).isOk = false := by decide
  rw [Runs] at ran
  rw [ran] at failed
  cases failed

end TcpServerLib.Soundness
