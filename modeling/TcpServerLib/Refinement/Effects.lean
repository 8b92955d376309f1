import TcpServerLib.Refinement.Acts

/-! # What a step of a server amounts to

Every step of a run has one of the effects listed here, whichever thread takes it. Nothing that is
proved about runs looks into the programs again.
-/

namespace TcpServerLib.Refinement

open Machine Model Prog

namespace Server

/-- A client as the acceptor hands it to the message queue. -/
def newPassive (ipAddr : UInt32) (portNo : UInt16) (s : TcpServerController) : TcpClient :=
  { ipAddr, portNo, serverIpAddr := s.ipAddr, serverPortNo := s.portNo, connected := true, passiveOpener := true }

/-- The acceptor has allocated the client and called `client_connected`. -/
def admitted (ipAddr : UInt32) (portNo : UInt16) (s : TcpServerController) : TcpServerController :=
  { s with
    heap := Function.update s.heap s.nextClient (some (newPassive ipAddr portNo s))
    nextClient := s.nextClient + 1
    msgQ := s.msgQ ++ [⟨(Request.processNew s.createMultiThreaded).code, s.nextClient, none⟩] }

/-- It has posted the client to the message queue as well. -/
def accepted (ipAddr : UInt32) (portNo : UInt16) (s : TcpServerController) : TcpServerController :=
  connectNotified s.nextClient (admitted ipAddr portNo s)

/-- The connector thread has posted its success. -/
def connectPosted (client : TcpClient) : TcpClient :=
  { client with activeConnectThread := .posted }

/-- The retry of the client succeeded on the given port and was posted. -/
def retryPosted (c : ClientRef) (portNo : UInt16) (s : TcpServerController) : TcpServerController :=
  { (connectNotified c (s.mapClient c (connectedOn portNo))).mapClient c connectPosted with
    msgQ := s.msgQ ++ [⟨Request.connectSuccess.code, c, none⟩] }

/-- The connector thread is gone. -/
def connectorStopped (client : TcpClient) : TcpClient :=
  { client with activeConnectThread := .null }

/-- The client thread has ended by itself and is still to be joined. -/
def waiting (client : TcpClient) : TcpClient :=
  { client with clientThread := .waiting }

/-- The set that `select` returns, and the clients the loop is about to go through. -/
def selected (ready : List ClientRef) (m : TcpClientServiceManager) : TcpClientServiceManager :=
  { m with activeFdSet := m.backupFdSet.filter (· ∈ ready), scan := m.tcpClientDb }

def scanning (rest : List ClientRef) (m : TcpClientServiceManager) : TcpClientServiceManager :=
  { m with scan := rest }

/-- The calls that received bytes bring about. -/
def Call.IsReceipt (c : ClientRef) : Call → Prop
  | .processMsg d _ => d = c
  | .clientMsgRecvd d _ => d = c
  | _ => False

/-- The bytes read have been given to the demarcar. -/
def received (msgd : Option Msgd) (bytesRecvd : UInt32) (client : TcpClient) : TcpClient :=
  { client with msgd, bytesRecvd }

/-- The client has been read once, with the calls of its receipts. -/
inductive Heard (c : ClientRef) (s : TcpServerController) : TcpServerController → Prop
  | intro (msgd : Option Msgd) (bytesRecvd : UInt32) {calls : List Call}
      (receipts : ∀ call ∈ calls, Call.IsReceipt c call) :
      Heard c s { s.mapClient c (received msgd bytesRecvd) with calls := s.calls ++ calls }

/-- The end of a stream, found by the service loop. -/
def svcEnded (c : ClientRef) (s : TcpServerController) : TcpServerController :=
  { s.mapSvcMgr fun m => { m with backupFdSet := remove c m.backupFdSet } with
    calls := s.calls ++ [.clientDisconnected c]
    msgQ := s.msgQ ++ [⟨Request.reconnect.code, c, none⟩] }

/-- The end of a stream, found by the thread of the client. -/
def threadEnded (c : ClientRef) (client : TcpClient) (s : TcpServerController) : TcpServerController :=
  { s.mapClient c waiting with
    calls := if s.clientDisconnected then s.calls ++ [.clientDisconnected c] else s.calls
    msgQ := ⟨(if client.activeOpener then Request.reconnect else Request.delete).code, c,
      some (.client c)⟩ :: s.msgQ }

def DbPurges (c : ClientRef) (s t : TcpServerController) : Prop :=
  ∃ client, s.heap c = some client ∧
    t = unkeyed c (if client.clientThread = .null then s else release c (s.mapClient c threadStopped))

/-- The connector thread has been joined. -/
def connectorJoined (client : TcpClient) : TcpClient :=
  { client with activeConnectThread := .null, connectInProgress := false }

def PendingStops (c : ClientRef) (s t : TcpServerController) : Prop :=
  ∃ client rest, s.heap c = some client ∧ s.connectpendingClients = c :: rest ∧
    client.activeConnectThread ≠ .null ∧
    t = release c { release c (s.mapClient c connectorJoined) with connectpendingClients := rest }

def EstablishedStops (c : ClientRef) (s t : TcpServerController) : Prop :=
  ∃ client rest, s.heap c = some client ∧ s.establishedClient = c :: rest ∧
    (client.threaded = true → client.clientThread ≠ .null) ∧
    t = release c { (if client.threaded then release c (s.mapClient c threadStopped) else s) with
      establishedClient := rest }

/-- The end of the service manager, in `StopClientSvcMgr` and in `Stop`. -/
inductive SvcEnds (s : TcpServerController) : TcpServerController → Prop
  | intro {m left : TcpClientServiceManager} {middle : TcpServerController} (present : s.tcpClientSvcMgr = some m)
      (purges : Drains SvcPurges remove m.tcpClientDb
        { s with tcpClientSvcMgr := some { m with thread := false } } middle)
      (kept : middle.tcpClientSvcMgr = some left) (empty : left.tcpClientDb = []) :
      SvcEnds s { middle with notListeningClients := true, tcpClientSvcMgr := none }

/-- `Stop`, after the acceptor has gone. -/
inductive Stops (s : TcpServerController) : TcpServerController → Prop
  | intro {s₁ s₂ s₃ s₄ : TcpServerController}
      (svc : if s.tcpClientSvcMgr.isSome then SvcEnds s s₁ else s₁ = s)
      (db : Drains DbPurges remove s₁.tcpClientDb s₁ s₂) (emptied : s₂.tcpClientDb = [])
      (pending : Drains PendingStops (fun _ rest => rest) s₂.connectpendingClients s₂ s₃)
      (established : Drains EstablishedStops (fun _ rest => rest) s₃.establishedClient s₃ s₄) :
      Stops s { s₄ with deleted := true, msgQ := [] }

/-- A switch of the acceptor or of the creation mode. -/
def toggled (notAccepting acceptor threaded : Bool) (s : TcpServerController) : TcpServerController :=
  { s with
    notAcceptingNewConnections := notAccepting
    tcpNewConnAcc := acceptor
    createMultiThreaded := threaded }

/-- The state an act starts from: a message has left the queue before it is processed. -/
def dequeued (s : TcpServerController) : Event → TcpServerController
  | .processFront _ => { s with msgQ := s.msgQ.tail }
  | _ => s

/-- What an event leaves, by the kind of the event. -/
inductive Effect (s : TcpServerController) : Event → TcpServerController → Prop
  | acted {e : Event} {act : Act} {c : ClientRef} {t : TcpServerController}
      (performs : performed s e = some (act, c))
      (acted : Acted c (dequeued s e) act t) : Effect s e t
  | unchanged {e : Event} (other : ∀ connect, e ≠ .processFront connect) : Effect s e s
  | toggled {e : Event} (other : ∀ connect, e ≠ .processFront connect)
      (notAccepting acceptor threaded : Bool) :
      Effect s e (toggled notAccepting acceptor threaded s)
  | accepted (ipAddr : UInt32) (portNo : UInt16) : Effect s (.accept ipAddr portNo) (accepted ipAddr portNo s)
  | created {serverIpAddr : UInt32} {serverPortNo : UInt16} {connect : ConnectResult} {t : TcpServerController}
      (creates : Creates serverIpAddr serverPortNo s connect t) :
      Effect s (.createActiveClient serverIpAddr serverPortNo connect) t
  | retryPosted {c : ClientRef} {client : TcpClient} (found : s.heap c = some client)
      (retrying : client.activeConnectThread = .retrying) (portNo : UInt16) :
      Effect s (.connectRetryPost c portNo) (retryPosted c portNo s)
  | retryExited {c : ClientRef} {client : TcpClient} (found : s.heap c = some client)
      (posted : client.activeConnectThread = .posted)
      (idle : client.refCount ≤ 1 → client.clientThread = .null) :
      Effect s (.connectRetryExit c) (release c (s.mapClient c connectorStopped))
  | requested (toThreaded : Bool) {c : ClientRef} {client : TcpClient} (found : s.heap c = some client) :
      Effect s (.requestMigration toThreaded c)
        { s with
          msgQ := s.msgQ ++
            [⟨(if toThreaded then Request.toMultithreaded else .toMultiplex).code, c, none⟩] }
  | selected {m : TcpClientServiceManager} (present : s.tcpClientSvcMgr = some m) (running : m.thread = true)
      (ready : List ClientRef) : Effect s (.select ready) { s with tcpClientSvcMgr := some (selected ready m) }
  | skipped {m : TcpClientServiceManager} {c : ClientRef} {rest : List ClientRef}
      (present : s.tcpClientSvcMgr = some m)
      (running : m.thread = true) (scan : m.scan = c :: rest) (r : Recv) :
      Effect s (.visit r) { s with tcpClientSvcMgr := some (scanning rest m) }
  | svcHeard {m : TcpClientServiceManager} {c : ClientRef} {rest : List ClientRef} {r : Recv}
      {t : TcpServerController}
      (present : s.tcpClientSvcMgr = some m) (running : m.thread = true) (scan : m.scan = c :: rest)
      (active : c ∈ m.activeFdSet) (going : ¬ r.Ended)
      (heard : Heard c { s with tcpClientSvcMgr := some (scanning rest m) } t) : Effect s (.visit r) t
  | svcEnded {m : TcpClientServiceManager} {c : ClientRef} {rest : List ClientRef} {r : Recv} {client : TcpClient}
      (present : s.tcpClientSvcMgr = some m) (running : m.thread = true) (scan : m.scan = c :: rest)
      (active : c ∈ m.activeFdSet) (ended : r.Ended) (found : s.heap c = some client) :
      Effect s (.visit r) (svcEnded c { s with tcpClientSvcMgr := some (scanning rest m) })
  | threadHeard {c : ClientRef} {r : Recv} {client : TcpClient} {t : TcpServerController}
      (found : s.heap c = some client) (receiving : client.clientThread = .receiving) (going : ¬ r.Ended)
      (heard : Heard c s t) : Effect s (.clientThread c r) t
  | threadEnded {c : ClientRef} {r : Recv} {client : TcpClient} (found : s.heap c = some client)
      (receiving : client.clientThread = .receiving) (ended : r.Ended) :
      Effect s (.clientThread c r) (threadEnded c client s)
  | svcStopped {t : TcpServerController} (listening : s.notListeningClients = false) (ends : SvcEnds s t) :
      Effect s .stopClientSvcMgr t
  | svcStarted (deaf : s.notListeningClients = true) :
      Effect s .startClientSvcMgr { s with tcpClientSvcMgr := some (serving []), notListeningClients := false }
  | stopped {t : TcpServerController} (notAccepting acceptor : Bool)
      (stops : Stops (toggled notAccepting acceptor s.createMultiThreaded s) t) : Effect s .stop t

end Server

open Server

section

variable {s t : TcpServerController} {c : ClientRef} {u : Unit}

/-- The messages of the queue are ones that somebody posts. -/
def Requests (s : TcpServerController) : Prop :=
  ∀ msg ∈ s.msgQ, ∃ request : Request, msg.code = request.code

@[simp] theorem heap_accepted {ipAddr : UInt32} {portNo : UInt16} {d : ClientRef} :
    (accepted ipAddr portNo s).heap d =
      if d = s.nextClient then some (newPassive ipAddr portNo s) else s.heap d := by
  rw [accepted, heap_connectNotified]
  exact Function.update_apply ..

@[simp] theorem heap_retryPosted {portNo : UInt16} {d : ClientRef} :
    (retryPosted c portNo s).heap d =
      if d = c then (s.heap c).map (connectPosted ∘ connectedOn portNo) else s.heap d := by
  change ((connectNotified c (s.mapClient c (connectedOn portNo))).mapClient c connectPosted).heap d = _
  rw [heap_mapClient, heap_connectNotified, heap_mapClient, heap_mapClient, if_pos rfl, Option.map_map]
  split_ifs <;> rfl

@[simp] theorem tcpClientDb_retryPosted {portNo : UInt16} : (retryPosted c portNo s).tcpClientDb =
    s.tcpClientDb := by
  unfold retryPosted
  rfl

@[simp] theorem svcList_retryPosted {portNo : UInt16} : svcList (retryPosted c portNo s) = svcList s := by
  unfold retryPosted svcList
  rfl

@[simp] theorem nextClient_retryPosted {portNo : UInt16} : (retryPosted c portNo s).nextClient =
    s.nextClient := by
  unfold retryPosted
  rfl

@[simp] theorem createMultiThreaded_retryPosted {portNo : UInt16} :
    (retryPosted c portNo s).createMultiThreaded = s.createMultiThreaded := by
  unfold retryPosted
  rfl

@[simp] theorem heap_threadEnded {client : TcpClient} {d : ClientRef} :
    (threadEnded c client s).heap d = if d = c then (s.heap c).map waiting else s.heap d := by
  change (s.mapClient c waiting).heap d = _
  rw [heap_mapClient]

/-- Accepting a peer. -/
theorem acceptClient_runs {ipAddr : UInt32} {portNo : UInt16}
    (ran : (TcpServerController.acceptClient ipAddr portNo).Runs s u t) : t = accepted ipAddr portNo s := by
  simp only [TcpServerController.acceptClient, runs_bind, runs_read, runs_newClient, runs_when,
    runs_notify, runs_ite, runs_enqueMsg] at ran
  obtain ⟨_, _, ⟨rfl, rfl⟩, _, _, ⟨rfl, rfl⟩, _, middle, notifying, _, _, ⟨rfl, rfl⟩, ran⟩ := ran
  have posted : { middle with msgQ := middle.msgQ ++
      [⟨(Request.processNew middle.createMultiThreaded).code, s.nextClient, none⟩] } = t := by
    split_ifs at ran with threaded
    · rw [← ran, threaded]
      rfl
    · rw [← ran, Bool.eq_false_iff.mpr threaded]
      rfl
  rw [← posted, accepted, connectNotified, admitted]
  split_ifs at notifying ⊢
  · rw [← notifying]
    rfl
  · rw [← notifying]
    rfl

theorem mapClient_congr {client : TcpClient} {f g : TcpClient → TcpClient} (found : s.heap c = some client)
    (same : f client = g client) : s.mapClient c f = s.mapClient c g := by
  rw [TcpServerController.mapClient, TcpServerController.mapClient, found, Option.map_some, Option.map_some, same]

/-- The bytes are counted before the demarcar is given them. -/
theorem processMsg_runs {client : TcpClient} {f : TcpClient → TcpClient} {msgd : Msgd} {chunk : Bytes}
    (found : s.heap c = some client) (counts : ∃ bytesRecvd, f client = { client with bytesRecvd })
    (ran : (TcpClient.processMsg c msgd chunk).Runs (s.mapClient c f) u t) : Heard c s t := by
  obtain ⟨n, counts⟩ := counts
  simp only [TcpClient.processMsg, runs_bind, runs_notify] at ran
  obtain ⟨_, _, rfl, ran⟩ := ran
  split at ran
  · exact absurd ran runs_fail
  · next messages demarcar _ =>
    simp only [runs_bind, runs_read, runs_ite] at ran
    obtain ⟨_, _, ⟨rfl, rfl⟩, ran⟩ := ran
    split_ifs at ran with unregistered
    · exact absurd ran runs_fail
    · simp only [runs_update, runs_modifyClient] at ran
      obtain ⟨_, _, rfl, _, rfl⟩ := ran
      have receipts : ∀ call ∈ Call.processMsg c chunk :: messages.map (.clientMsgRecvd c),
          Call.IsReceipt c call := by
        rintro call member
        rcases List.mem_cons.mp member with rfl | later
        · exact rfl
        · obtain ⟨_, _, rfl⟩ := List.mem_map.mp later
          exact rfl
      have heard := Heard.intro (s := s) (some { msgd with demarcar }) n receipts
      have both : (s.mapClient c f).mapClient c
          (fun client => { client with msgd := some { msgd with demarcar } }) =
          s.mapClient c (received (some { msgd with demarcar }) n) := by
        rw [mapClient_mapClient]
        apply mapClient_congr found
        rw [Function.comp_apply, counts]
        rfl
      rw [← both, ← List.singleton_append, ← List.append_assoc] at heard
      exact heard

/-- What reaches the callback without a demarcar. -/
theorem Heard.whole {client : TcpClient} {f : TcpClient → TcpClient} (found : s.heap c = some client)
    (counts : ∃ bytesRecvd, f client = { client with bytesRecvd }) (chunk : Bytes) :
    Heard c s { s.mapClient c f with calls := s.calls ++ [.clientMsgRecvd c chunk] } := by
  obtain ⟨n, counts⟩ := counts
  rw [mapClient_congr (g := received client.msgd n) found counts]
  apply Heard.intro
  rintro call member
  obtain rfl := List.mem_singleton.mp member
  exact rfl

/-- A read that demarcates nothing calls nothing. -/
theorem Heard.silent {client : TcpClient} {f : TcpClient → TcpClient} (found : s.heap c = some client)
    (counts : ∃ bytesRecvd, f client = { client with bytesRecvd }) : Heard c s (s.mapClient c f) := by
  obtain ⟨n, counts⟩ := counts
  rw [mapClient_congr (g := received client.msgd n) found counts]
  have heard : Heard c s { s.mapClient c (received client.msgd n) with calls := s.calls ++ [] } :=
    Heard.intro client.msgd n (by simp)
  rwa [List.append_nil] at heard

/-- A receive loop finds the end of the stream or hears of bytes. -/
theorem receive_runs {r : Recv} (ran : (TcpClientServiceManager.receive c r).Runs s u t) :
    ∃ client, s.heap c = some client ∧ if r.Ended then t = svcEnded c s else Heard c s t := by
  simp only [TcpClientServiceManager.receive, runs_bind, runs_deref, runs_read] at ran
  obtain ⟨client, _, ⟨found, rfl⟩, _, _, ⟨rfl, rfl⟩, ran⟩ := ran
  refine ⟨client, found, ?_⟩
  simp only [runs_ite] at ran
  split_ifs at ran ⊢ with ended registered
  · simp only [runs_bind, runs_notify, runs_update, runs_enqueMsg] at ran
    obtain ⟨_, _, rfl, _, _, rfl, rfl⟩ := ran
    rfl
  · exact absurd ran runs_fail
  · simp only [runs_bind, runs_modifyClient] at ran
    obtain ⟨_, _, ⟨_, rfl⟩, ran⟩ := ran
    split at ran
    · exact processMsg_runs found ⟨_, rfl⟩ ran
    · rw [runs_when] at ran
      split_ifs at ran
      · rw [← runs_notify.mp ran]
        exact Heard.whole found ⟨_, rfl⟩ r.chunk
      · rw [← ran]
        exact Heard.silent found ⟨_, rfl⟩

/-- One turn of a client thread. -/
theorem clientThreadFunction_runs {r : Recv} (ran : (TcpClient.clientThreadFunction c r).Runs s u t) :
    ∃ client, s.heap c = some client ∧ if r.Ended then t = threadEnded c client s else Heard c s t := by
  simp only [TcpClient.clientThreadFunction, runs_bind, runs_deref, runs_read] at ran
  obtain ⟨client, _, ⟨found, rfl⟩, _, _, ⟨rfl, rfl⟩, ran⟩ := ran
  refine ⟨client, found, ?_⟩
  rw [runs_ite] at ran
  rcases Decidable.em r.Ended with ended | going
  · rw [if_pos ended] at ran ⊢
    simp only [runs_bind, runs_when, runs_notify, runs_modifyClient, runs_ite, runs_enqueMsg] at ran
    obtain ⟨_, middle, notifying, _, _, ⟨_, rfl⟩, ran⟩ := ran
    obtain rfl : middle =
        { s with calls := if s.clientDisconnected then s.calls ++ [.clientDisconnected c] else s.calls } := by
      split_ifs at notifying ⊢
      · exact notifying.symm
      · exact notifying.symm
    rw [threadEnded]
    split_ifs at ran ⊢
    all_goals
      rw [← ran]
      rfl
  · rw [if_neg going] at ran ⊢
    split at ran
    · simp only [runs_bind, runs_modifyClient] at ran
      obtain ⟨_, _, ⟨_, rfl⟩, ran⟩ := ran
      exact processMsg_runs found ⟨_, rfl⟩ ran
    · simp only [runs_when, runs_bind, runs_modifyClient, runs_notify] at ran
      split_ifs at ran
      · obtain ⟨_, _, ⟨_, rfl⟩, rfl⟩ := ran
        exact Heard.whole found ⟨_, rfl⟩ r.chunk
      · rw [← ran]
        have same : s.mapClient c id = s := by
          rw [TcpServerController.mapClient, Option.map_id, id, Function.update_eq_self]
        have heard := Heard.silent (f := id) found ⟨client.bytesRecvd, rfl⟩
        rwa [same] at heard

/-- An iteration of the service loop has nothing to visit, or passes a client by, or receives from it. -/
theorem visit_cases {r : Recv} {m : TcpClientServiceManager} (present : s.tcpClientSvcMgr = some m)
    (ran : (TcpClientServiceManager.visit r).Runs s u t) :
    t = s ∨ ∃ c rest, m.scan = c :: rest ∧
      if c ∈ m.activeFdSet then
        ∃ client, s.heap c = some client ∧
          if r.Ended then t = svcEnded c { s with tcpClientSvcMgr := some (scanning rest m) }
          else Heard c { s with tcpClientSvcMgr := some (scanning rest m) } t
      else t = { s with tcpClientSvcMgr := some (scanning rest m) } := by
  simp only [TcpClientServiceManager.visit, runs_bind, runs_derefSvcMgr] at ran
  obtain ⟨m', _, ⟨present', rfl⟩, ran⟩ := ran
  obtain rfl := Option.some.inj (present.symm.trans present')
  split at ran
  · exact .inl (runs_pure.mp ran).2.symm
  · next c rest scan =>
    refine .inr ⟨c, rest, scan, ?_⟩
    simp only [runs_bind, runs_update, runs_deref, runs_when] at ran
    obtain ⟨_, _, rfl, client, _, ⟨found, rfl⟩, ran⟩ := ran
    rw [mapSvcMgr_some present] at ran found
    by_cases active : c ∈ m.activeFdSet
    · rw [if_pos active] at ran ⊢
      exact receive_runs ran
    · rw [if_neg active] at ran ⊢
      exact ran.symm

/-- One turn of the multiplexer. -/
theorem visit_runs {r : Recv} {m : TcpClientServiceManager} (present : s.tcpClientSvcMgr = some m)
    (running : m.thread = true) (ran : (TcpClientServiceManager.visit r).Runs s u t) : Effect s (.visit r) t := by
  rcases visit_cases present ran with rfl | ⟨c, rest, scan, visited⟩
  · exact .unchanged (by simp)
  · split_ifs at visited with active ended
    · obtain ⟨client, found, rfl⟩ := visited
      exact .svcEnded present running scan active ended found
    · obtain ⟨client, found, heard⟩ := visited
      exact .svcHeard present running scan active ended heard
    · rw [visited]
      exact .skipped present running scan r

/-- A retry that succeeds. -/
theorem connectRetryPost_runs {portNo : UInt16} (ran : (TcpClient.connectRetryPost c portNo).Runs s u t) :
    t = retryPosted c portNo s := by
  simp only [TcpClient.connectRetryPost, runs_bind, runs_enqueMsg, runs_modifyClient] at ran
  obtain ⟨_, _, succeeded, _, _, rfl, _, rfl⟩ := ran
  obtain ⟨_, rfl⟩ := connectSucceeded_runs succeeded
  rfl

/-- A connector thread that ends. -/
theorem connectRetryExit_runs (ran : (TcpClient.connectRetryExit c).Runs s u t) :
    ∃ client, s.heap c = some client ∧ (client.refCount ≤ 1 → client.clientThread = .null) ∧
      t = release c (s.mapClient c connectorStopped) := by
  simp only [TcpClient.connectRetryExit, runs_bind, runs_modifyClient, runs_perform] at ran
  obtain ⟨_, _, ⟨⟨client, found⟩, rfl⟩, _, _, released, rfl⟩ := ran
  obtain ⟨stopped, found', rfl, _, idle⟩ := dereference_runs released
  rw [heap_mapClient, if_pos rfl, found, Option.map_some, Option.some.injEq] at found'
  subst found'
  exact ⟨client, found, fun last => (idle last).1, rfl⟩

/-- The purge of the database, client by client. -/
theorem dbPurgeFrom_runs {fuel : ℕ} {list : List ClientRef} (enough : list.length ≤ fuel)
    (ran : (TcpClientDbManager.purgeFrom fuel list).Runs s u t) : Drains DbPurges remove list s t := by
  induction fuel generalizing list s with
  | zero =>
    obtain ⟨_, rfl⟩ := runs_pure.mp ran
    rw [List.length_eq_zero_iff.mp (Nat.le_zero.mp enough)]
    exact .nil s
  | succ fuel ih =>
    cases list with
    | nil =>
      obtain ⟨_, rfl⟩ := runs_pure.mp ran
      exact .nil s
    | cons c rest =>
      simp only [TcpClientDbManager.purgeFrom, runs_bind, runs_deref, runs_when, runs_update] at ran
      obtain ⟨client, _, ⟨found, rfl⟩, _, middle, joining, _, _, rfl, _, _, released, ran⟩ := ran
      obtain ⟨_, _, rfl, _, _⟩ := dereference_runs released
      have joined : middle = if client.clientThread = .null then s else release c
          (s.mapClient c threadStopped) := by
        rcases eq_or_ne client.clientThread .null with idle | running
        · rw [if_neg (not_not.mpr idle)] at joining
          rw [if_pos idle]
          exact joining.symm
        · rw [if_pos running] at joining
          rw [if_neg running]
          obtain ⟨_, _, _, rfl, _⟩ := stopThread_runs joining
          rfl
      rw [runs_ite] at ran
      split_ifs at ran with twice
      · exact absurd ran runs_fail
      · have shorter : (remove c rest).length ≤ fuel :=
          Nat.le_trans (length_remove_le rest) (Nat.le_of_succ_le_succ enough)
        refine .cons ⟨client, found, ?_⟩ (ih shorter ran)
        rw [joined]
        rfl

/-- The pending openers are stopped from the front. -/
theorem stopPending_runs {fuel : ℕ} (enough : s.connectpendingClients.length ≤ fuel)
    (ran : (TcpServerController.stopPending fuel).Runs s u t) :
    Drains PendingStops (fun _ rest => rest) s.connectpendingClients s t := by
  induction fuel generalizing s with
  | zero =>
    obtain ⟨_, rfl⟩ := runs_pure.mp ran
    rw [List.length_eq_zero_iff.mp (Nat.le_zero.mp enough)]
    exact .nil s
  | succ fuel ih =>
    simp only [TcpServerController.stopPending, runs_bind, runs_read] at ran
    obtain ⟨_, _, ⟨rfl, rfl⟩, ran⟩ := ran
    cases pending : s.connectpendingClients with
    | nil =>
      rw [pending] at ran
      obtain ⟨_, rfl⟩ := runs_pure.mp ran
      exact .nil s
    | cons c rest =>
      rw [pending] at ran enough
      simp only [TcpClient.stopConnectorThread, runs_bind, runs_deref, runs_assertThat, runs_perform,
        runs_modifyClient, runs_update, runs_pure] at ran
      obtain ⟨client, _, ⟨found, rfl⟩, _, _, ⟨_, rfl⟩, _, _,
          ⟨other, _, ⟨found', rfl⟩, _, _, ⟨running, rfl⟩, _, _,
        rfl, _, _, ⟨_, rfl⟩, _, _, ⟨_, rfl⟩, _, _, joined, _, rfl⟩, _, _, rfl, _, _, released, ran⟩ :=
        ran
      obtain rfl := Option.some.inj (found.symm.trans found')
      obtain ⟨_, _, rfl, _, _⟩ := dereference_runs joined
      obtain ⟨_, _, rfl, _, _⟩ := dereference_runs released
      have rest_eq : s.connectpendingClients.tail = rest := by rw [pending, List.tail_cons]
      have visited : PendingStops c s (release c
          { release c (s.mapClient c connectorJoined) with connectpendingClients := rest }) :=
        ⟨client, rest, found, pending, running, rfl⟩
      rw [mapClient_mapClient] at ran
      have again := ih (s := release c
        { release c (s.mapClient c connectorJoined) with connectpendingClients := s.connectpendingClients.tail })
        (by rw [← rest_eq] at enough; exact Nat.le_of_succ_le_succ enough) ran
      rw [rest_eq] at again
      exact .cons visited again

/-- The established openers are stopped from the front. -/
theorem stopEstablished_runs {fuel : ℕ} (enough : s.establishedClient.length ≤ fuel)
    (ran : (TcpServerController.stopEstablished fuel).Runs s u t) :
    Drains EstablishedStops (fun _ rest => rest) s.establishedClient s t := by
  induction fuel generalizing s with
  | zero =>
    obtain ⟨_, rfl⟩ := runs_pure.mp ran
    rw [List.length_eq_zero_iff.mp (Nat.le_zero.mp enough)]
    exact .nil s
  | succ fuel ih =>
    simp only [TcpServerController.stopEstablished, runs_bind, runs_read] at ran
    obtain ⟨_, _, ⟨rfl, rfl⟩, ran⟩ := ran
    cases established : s.establishedClient with
    | nil =>
      rw [established] at ran
      obtain ⟨_, rfl⟩ := runs_pure.mp ran
      exact .nil s
    | cons c rest =>
      rw [established] at ran enough
      simp only [runs_bind, runs_deref, runs_assertThat, runs_when, runs_update] at ran
      obtain ⟨client, _, ⟨found, rfl⟩, _, _, ⟨_, rfl⟩, _, middle, joining, _, _, rfl, _, _,
          released, ran⟩ :=
        ran
      obtain ⟨_, _, rfl, _, _⟩ := dereference_runs released
      have joined : middle = (if client.threaded then release c (s.mapClient c threadStopped) else s) ∧
          (client.threaded = true → client.clientThread ≠ .null) := by
        split_ifs at joining ⊢ with threads
        · obtain ⟨_, found', running, rfl, _⟩ := stopThread_runs joining
          obtain rfl := Option.some.inj (found.symm.trans found')
          exact ⟨rfl, fun _ => running⟩
        · exact ⟨joining.symm, fun threads' => absurd threads' threads⟩
      obtain ⟨joined, running⟩ := joined
      have kept : middle.establishedClient = c :: rest := by
        rw [joined, ← established]
        split_ifs <;> rfl
      rw [kept, List.tail_cons] at ran
      have visited : EstablishedStops c s (release c { middle with establishedClient := rest }) :=
        ⟨client, rest, found, established, running, by rw [joined]⟩
      exact .cons visited (ih (Nat.le_of_succ_le_succ enough) ran)

theorem svcEnds (ran : TcpClientServiceManager.stop.Runs s u t) :
    SvcEnds s { t with notListeningClients := true, tcpClientSvcMgr := none } := by
  obtain ⟨m, left, present, kept, empty, purges⟩ := svcStop_runs ran
  exact .intro present purges kept empty

/-- The stages of `Stop`. -/
theorem closeDown_runs (ran : TcpServerController.closeDown.Runs s u t) :
    ∃ notAccepting acceptor s₁ s₂ s₃,
      (if s.tcpClientSvcMgr.isSome then SvcEnds (toggled notAccepting acceptor s.createMultiThreaded s) s₁
        else s₁ = toggled notAccepting acceptor s.createMultiThreaded s) ∧
      Drains DbPurges remove s₁.tcpClientDb s₁ s₂ ∧ s₂.tcpClientDb = [] ∧
      Drains PendingStops (fun _ rest => rest) s₂.connectpendingClients s₂ s₃ ∧
      Drains EstablishedStops (fun _ rest => rest) s₃.establishedClient s₃ t := by
  simp only [TcpServerController.closeDown, TcpClientDbManager.purge, runs_bind, runs_read,
    runs_when, runs_update, runs_perform, runs_assertThat] at ran
  obtain ⟨_, _, ⟨rfl, rfl⟩, _, s₀, accepting, _, _, ⟨rfl, rfl⟩, _, s₁, serving, _, s₂,
    ⟨_, _, rfl, _, _, ⟨rfl, rfl⟩, _, _, purging, rfl⟩, _, _, ⟨rfl, rfl⟩, _, _, ⟨emptied, rfl⟩, _,
    _, rfl, _, _, ⟨rfl, rfl⟩, _, s₃, stopping, _, _, ⟨rfl, rfl⟩, _, s₄, ending, rfl⟩ := ran
  have unaccepting : ∃ notAccepting acceptor, s₀ = toggled notAccepting acceptor s.createMultiThreaded s := by
    split_ifs at accepting
    · obtain ⟨_, _, rfl, _, _, rfl, rfl⟩ := accepting
      exact ⟨true, false, rfl⟩
    · exact ⟨s.notAcceptingNewConnections, s.tcpNewConnAcc, accepting.symm⟩
  obtain ⟨notAccepting, acceptor, rfl⟩ := unaccepting
  refine ⟨notAccepting, acceptor, s₁, _, s₃, ?_, dbPurgeFrom_runs (Nat.le_refl _) purging, emptied,
    stopPending_runs (Nat.le_refl _) stopping, stopEstablished_runs (Nat.le_refl _) ending⟩
  have same : (toggled notAccepting acceptor s.createMultiThreaded s).tcpClientSvcMgr = s.tcpClientSvcMgr := rfl
  rw [same] at serving
  split_ifs at serving ⊢
  · obtain ⟨_, _, ended, _, _, rfl, rfl⟩ := serving
    have ends := svcEnds ended
    exact ends
  · exact serving.symm

/-- Stopping the server. -/
theorem stop_runs (ran : TcpServerController.stop.Runs s u t) : Effect s .stop t := by
  rw [TcpServerController.stop] at ran
  simp only [runs_bind, runs_update] at ran
  obtain ⟨_, _, closing, rfl⟩ := ran
  obtain ⟨notAccepting, acceptor, _, _, _, svc, db, emptied, pending, established⟩ := closeDown_runs closing
  exact .stopped notAccepting acceptor (.intro svc db emptied pending established)

/-- Stopping the service manager, unless the server does not listen. -/
theorem stopClientSvcMgr_runs (ran : TcpServerController.stopClientSvcMgr.Runs s u t) :
    if s.notListeningClients then t = s else SvcEnds s t := by
  simp only [TcpServerController.stopClientSvcMgr, runs_bind, runs_read, runs_when, runs_update] at ran
  obtain ⟨_, _, ⟨rfl, rfl⟩, ran⟩ := ran
  cases deaf : s.notListeningClients with
  | true =>
    rw [if_neg (not_not.mpr deaf)] at ran
    exact ran.symm
  | false =>
    rw [if_pos (Bool.eq_false_iff.mp deaf)] at ran
    obtain ⟨_, _, ended, _, _, rfl, rfl⟩ := ran
    have ends := svcEnds ended
    exact ends

/-- The service thread starts before the flag is cleared, and copies nothing. -/
theorem startClientSvcMgr_runs (ran : TcpServerController.startClientSvcMgr.Runs s u t) :
    t = if s.notListeningClients then
      { s with tcpClientSvcMgr := some (serving []), notListeningClients := false }
      else s := by
  simp only [TcpServerController.startClientSvcMgr, runs_bind, runs_read, runs_when, runs_update] at ran
  obtain ⟨_, _, ⟨rfl, rfl⟩, ran⟩ := ran
  split_ifs at ran ⊢ with deaf
  · obtain ⟨_, _, rfl, _, _, starting, rfl⟩ := ran
    obtain ⟨m, present, rfl⟩ := startTcpClientServiceManagerThread_runs starting
    obtain rfl := Option.some.inj present
    have nothing : copied { s with tcpClientSvcMgr := some {} } = [] := if_pos deaf
    rw [svcStarted, nothing, addRefs_nil, List.append_nil]
  · exact ran.symm

/-- The message at the front is processed after it was taken out. -/
theorem processFront_runs {connect : ConnectResult} (nonempty : s.msgQ ≠ [])
    (ran : (TcpServerController.processFront connect).Runs s u t) :
    ∃ msg rest, s.msgQ = msg :: rest ∧ (TcpServerController.processMsgQMsg msg connect).Runs
    { s with msgQ := rest } () t := by
  simp only [TcpServerController.processFront, runs_bind, runs_exchange] at ran
  obtain ⟨_, _, ⟨rfl, rfl⟩, ran⟩ := ran
  split at ran
  · next empty => exact absurd empty nonempty
  · next msg rest front =>
    simp only [runs_bind] at ran
    obtain ⟨_, middle, processing, posting⟩ := ran
    have same : middle = t := by
      rw [TcpServerController.postZeroSema] at posting
      split at posting
      · simp only [runs_bind, runs_read, runs_assertThat] at posting
        obtain ⟨_, _, ⟨rfl, rfl⟩, _, rfl⟩ := posting
        rfl
      · exact (runs_pure.mp posting).2
    rw [front, List.tail_cons] at processing
    exact ⟨msg, rest, front, same ▸ processing⟩

/-- Every step has one of the effects. -/
theorem step_effect {e : Event} (requests : Requests s) (step : TcpServerController.Step s e t) :
    Effect s e t := by
  obtain ⟨enabled, ran⟩ := step
  cases e with
  | accept ipAddr portNo =>
    rw [acceptClient_runs ran]
    exact .accepted ipAddr portNo
  | processFront connect =>
    obtain ⟨msg, rest, front, processing⟩ := processFront_runs enabled.2 ran
    obtain ⟨request, posted⟩ := requests msg (by rw [front]; exact List.mem_cons_self)
    have popped : dequeued s (.processFront connect) =
        { s with msgQ := rest } := by rw [dequeued, front, List.tail_cons]
    refine Effect.acted ?_ (popped ▸ processMsgQMsg_runs posted processing)
    rw [performed, front, List.head?_cons, Option.bind_some, posted, Request.ofCode_code, Option.map_some]
  | connectRetryPost c portNo =>
    obtain ⟨client, found, retrying⟩ := Option.map_eq_some_iff.mp enabled.2
    rw [connectRetryPost_runs ran]
    exact .retryPosted found retrying portNo
  | connectRetryExit c =>
    obtain ⟨client, found, posted⟩ := Option.map_eq_some_iff.mp enabled
    obtain ⟨other, found', idle, rfl⟩ := connectRetryExit_runs ran
    obtain rfl := Option.some.inj (found.symm.trans found')
    exact .retryExited found posted idle
  | select ready =>
    obtain ⟨m, present, running⟩ := Option.map_eq_some_iff.mp enabled.2
    rw [← runs_update.mp ran, mapSvcMgr_some present]
    exact .selected present (Prod.mk.inj running).1 ready
  | visit r =>
    obtain ⟨m, present, running⟩ := Option.map_eq_some_iff.mp enabled.2
    exact visit_runs present running ran
  | clientThread c r =>
    obtain ⟨client, found, receiving⟩ := Option.map_eq_some_iff.mp enabled.2
    obtain ⟨other, found', received⟩ := clientThreadFunction_runs ran
    obtain rfl := Option.some.inj (found.symm.trans found')
    split_ifs at received with ended
    · rw [received]
      exact .threadEnded found receiving ended
    · exact .threadHeard found receiving ended received
  | createActiveClient serverIpAddr serverPortNo connect => exact .created (createActiveClient_runs ran)
  | migrateToMultiThreaded ipAddr portNo =>
    rcases first : keyFound ipAddr portNo s with _ | c
    · rcases processClientMigrationToMultiThreaded_runs ran with rfl | ⟨d, _, _, first', _⟩
      · exact .unchanged (by simp)
      · exact absurd (first.symm.trans first') (by simp)
    · have performs : performed s (.migrateToMultiThreaded ipAddr portNo) =
          some (.migrateToMultiThreaded, c) := by
        rw [performed, first, Option.map_some]
      exact .acted performs (event_acts performs (by simp) ran)
  | migrateToMultiplex ipAddr portNo =>
    rcases first : keyFound ipAddr portNo s with _ | c
    · rcases processClientMigrationToMultiplex_runs ran with rfl | ⟨d, _, _, first', _⟩
      · exact .unchanged (by simp)
      · exact absurd (first.symm.trans first') (by simp)
    · have performs : performed s (.migrateToMultiplex ipAddr portNo) = some (.migrateToMultiplex, c) := by
        rw [performed, first, Option.map_some]
      exact .acted performs (event_acts performs (by simp) ran)
  | requestMigration toThreaded c =>
    obtain ⟨client, found⟩ := Option.isSome_iff_exists.mp enabled.2
    have effect := Effect.requested toThreaded found
    rw [← runs_enqueMsg.mp ran]
    cases toThreaded <;> exact effect
  | deleteKey ipAddr portNo =>
    rcases first : keyFound ipAddr portNo s with _ | c
    · rcases processKeyDelete_runs ran with rfl | ⟨d, _, _, first', _⟩
      · exact .unchanged (by simp)
      · exact absurd (first.symm.trans first') (by simp)
    · have performs : performed s (.deleteKey ipAddr portNo) = some (.deleteKey, c) := by
        rw [performed, first, Option.map_some]
      exact .acted performs (event_acts performs (by simp) ran)
  | deleteClient c => exact .acted rfl (event_acts (e := .deleteClient c) rfl (by simp) ran)
  | startListen c => exact .acted rfl (event_acts (e := .startListen c) rfl (by simp) ran)
  | stopListen c => exact .acted rfl (event_acts (e := .stopListen c) rfl (by simp) ran)
  | setClientCreationMode status =>
    rw [← runs_update.mp ran]
    exact Effect.toggled (e := .setClientCreationMode status)
      (by simp) s.notAcceptingNewConnections s.tcpNewConnAcc status
  | stopClientSvcMgr =>
    have ended := stopClientSvcMgr_runs ran
    cases listening : s.notListeningClients with
    | true =>
      rw [if_pos listening] at ended
      rw [ended]
      exact .unchanged (by simp)
    | false =>
      rw [if_neg (Bool.eq_false_iff.mp listening)] at ended
      exact .svcStopped listening ended
  | startClientSvcMgr =>
    rw [startClientSvcMgr_runs ran]
    split_ifs with deaf
    · exact .svcStarted deaf
    · exact .unchanged (by simp)
  | stopConnectionsAcceptorSvc =>
    simp only [Event.op, TcpServerController.stopConnectionsAcceptorSvc, runs_bind, runs_read,
      runs_when, runs_update, runs_ite, runs_perform] at ran
    obtain ⟨_, _, ⟨rfl, rfl⟩, ran⟩ := ran
    split_ifs at ran
    · rw [← ran]
      exact .unchanged (by simp)
    · obtain ⟨_, _, rfl, _, _, rfl, rfl⟩ := ran
      exact Effect.toggled (e := .stopConnectionsAcceptorSvc) (by simp) true false s.createMultiThreaded
    · obtain ⟨_, _, rfl, ran⟩ := ran
      exact absurd ran runs_fail
  | startConnectionsAcceptorSvc =>
    simp only [Event.op, TcpServerController.startConnectionsAcceptorSvc, runs_bind, runs_read,
      runs_when, runs_update, runs_perform] at ran
    obtain ⟨_, _, ⟨rfl, rfl⟩, ran⟩ := ran
    split_ifs at ran
    · obtain ⟨_, _, rfl, _, _, rfl, rfl⟩ := ran
      exact Effect.toggled (e := .startConnectionsAcceptorSvc) (by simp) false true s.createMultiThreaded
    · rw [← ran]
      exact .unchanged (by simp)
  | stop => exact stop_runs ran

end

end TcpServerLib.Refinement
