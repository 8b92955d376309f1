import TcpServerLib.Refinement.ServiceOperations

/-! # What the operations of the controller amount to

The operations that go through several lists and threads are taken apart into the equations of
their stages, with the client as each stage finds it.
-/

namespace TcpServerLib.Refinement

open Machine Model Prog

namespace Server

/-- The client as an active opener leaves one list of the controller for good. -/
def forgotten (c : ClientRef) (connected : Bool) (s : TcpServerController) : TcpServerController :=
  { s with
    establishedClient := if connected then remove c s.establishedClient else s.establishedClient
    connectpendingClients := if connected then s.connectpendingClients else remove c s.connectpendingClients }

/-- The client goes from the list of pending openers to that of the established ones. -/
def movedToEstablished (c : ClientRef) (s : TcpServerController) : TcpServerController :=
  { s with
    connectpendingClients := remove c s.connectpendingClients
    establishedClient := s.establishedClient ++ [c] }

/-- A client that `connect` has given a local port, its retry timer gone. -/
def connectedOn (portNo : UInt16) (client : TcpClient) : TcpClient :=
  { client with connectInProgress := false, connected := true, portNo }

/-- `client_connected` has been called for the client. -/
def connectNotified (c : ClientRef) (s : TcpServerController) : TcpServerController :=
  { s with calls := if s.clientConnected then s.calls ++ [.clientConnected c] else s.calls }

/-- A client as `CreateActiveClient` puts it into `connectpendingClients`. -/
def newActive (serverIpAddr : UInt32) (serverPortNo : UInt16) (s : TcpServerController) : TcpClient :=
  { serverIpAddr, serverPortNo, ipAddr := s.ipAddr, activeOpener := true, refCount := 1 }

/-- A new client has been allocated. -/
def created (client : TcpClient) (s : TcpServerController) : TcpServerController :=
  { s with
    heap := Function.update s.heap s.nextClient (some client)
    nextClient := s.nextClient + 1
    connectpendingClients := s.connectpendingClients ++ [s.nextClient] }

/-- A client whose `connect` failed waits for its retry timer. -/
def retryStarted (client : TcpClient) : TcpClient :=
  { client with connectInProgress := true, activeConnectThread := .retrying, refCount := client.refCount + 1 }

/-- An active opener has been created, and is connected already. -/
def connectedActive (serverIpAddr : UInt32) (serverPortNo portNo : UInt16) (s : TcpServerController) :
    TcpServerController :=
  movedToEstablished s.nextClient (connectNotified s.nextClient
    ((created (newActive serverIpAddr serverPortNo s) s).mapClient s.nextClient (connectedOn portNo)))

/-- The service that a connected active opener gets. -/
def Served (c : ClientRef) (s t : TcpServerController) : Prop :=
  (s.createMultiThreaded = true ∧ ∃ client, s.heap c = some client ∧ client.clientThread = .null ∧
    t = s.mapClient c threadStarted) ∨
  (s.createMultiThreaded = false ∧ ∃ m, s.tcpClientSvcMgr = some m ∧
    (∃ client, s.heap c = some client) ∧ c ∉ m.tcpClientDb ∧ t = listened c m s)

/-- A connection to a peer: either a retry thread takes it from here, or the client is connected
and served. -/
inductive Creates (serverIpAddr : UInt32) (serverPortNo : UInt16) (s : TcpServerController) :
    ConnectResult → TcpServerController → Prop
  | retrying : Creates serverIpAddr serverPortNo s none
      ((created (newActive serverIpAddr serverPortNo s) s).mapClient s.nextClient retryStarted)
  | connected {portNo : UInt16} {t : TcpServerController}
      (served : Served s.nextClient (movedToEstablished s.nextClient (connectNotified s.nextClient
        ((created (newActive serverIpAddr serverPortNo s) s).mapClient s.nextClient (connectedOn portNo)))) t) :
      Creates serverIpAddr serverPortNo s (some portNo) t

/-- `CreateActiveClient` as far as its service, with the client if it is connected. -/
def connectActive (serverIpAddr : UInt32) (serverPortNo : UInt16) (connect : ConnectResult) :
    Op (Option ClientRef) := do
  let s ← read
  let c ← newClient { serverIpAddr, serverPortNo, ipAddr := s.ipAddr, activeOpener := true }
  perform (.lock .connectDbRwlock)
  update fun s => { s with connectpendingClients := s.connectpendingClients ++ [c] }
  perform (.unlock .connectDbRwlock)
  TcpClient.reference c
  let rc ← TcpClient.tryClientConnect c true connect
  if rc = 0 then do
    TcpServerController.moveToEstablished c
    return some c
  else return none

end Server

open Server

section

variable {s t : TcpServerController} {c d : ClientRef} {client : TcpClient} {u : Unit}

@[simp] theorem heap_addRefs (list : List ClientRef) :
    (addRefs list s).heap d =
      (s.heap d).map fun client => { client with refCount := client.refCount + list.count d } :=
  rfl

@[simp] theorem heap_unlistened {m : TcpClientServiceManager} :
    (unlistened c m s).heap d =
      (if d = c then ((s.heap c).map notListening).bind drop else s.heap d).map fun client =>
        { client with refCount := client.refCount + (copied s).count d } := by
  change Option.map _ ((release c (s.mapClient c notListening)).heap d) = _
  rw [heap_release]
  simp only [heap_mapClient, if_true]
  congr 1
  split_ifs with same
  · rfl
  · rfl

@[simp] theorem heap_listened {m : TcpClientServiceManager} :
    (listened c m s).heap d =
      (if d = c then (s.heap c).map listening else s.heap d).map fun client =>
        { client with refCount := client.refCount + (c :: copied s).count d } := by
  change Option.map _ ((s.mapClient c listening).heap d) = _
  rw [heap_mapClient]

theorem heap_unlistened_self {m : TcpClientServiceManager} (found : s.heap c = some client)
    (several : 2 ≤ client.refCount) :
    (unlistened c m s).heap c = some
      { client with refCount := client.refCount - 1 + (copied s).count c, multiplexListen := false } := by
  rw [heap_unlistened, if_pos rfl, found, Option.map_some, Option.bind_some, drop_notListening, drop,
    if_neg (by omega)]
  rfl

theorem heap_threadStopped_self (found : s.heap c = some client) (several : 2 ≤ client.refCount) :
    (release c (s.mapClient c threadStopped)).heap c = some
      { client with refCount := client.refCount - 1, clientThread := .null, threaded := false } := by
  have stopped : drop (threadStopped client) =
      some { threadStopped client with refCount := client.refCount - 1 } :=
    if_neg (Nat.not_le.mpr several)
  rw [heap_release, if_pos rfl, heap_mapClient, if_pos rfl, found, Option.map_some, Option.bind_some, stopped]
  rfl

@[simp] theorem heap_connectNotified : (connectNotified c s).heap = s.heap :=
  rfl

@[simp] theorem heap_created :
    (created client s).heap d = if d = s.nextClient then some client else s.heap d :=
  Function.update_apply ..

section

variable {serverIpAddr : UInt32} {serverPortNo portNo : UInt16}

/-- Only the new client changes in the heap. -/
@[simp] theorem heap_connectedActive :
    (connectedActive serverIpAddr serverPortNo portNo s).heap d =
      if d = s.nextClient then some (connectedOn portNo (newActive serverIpAddr serverPortNo s))
        else s.heap d := by
  change ((created (newActive serverIpAddr serverPortNo s) s).mapClient s.nextClient
    (connectedOn portNo)).heap d = _
  rw [heap_mapClient, heap_created, heap_created, if_pos rfl]
  split_ifs <;> rfl

@[simp] theorem tcpClientDb_connectedActive :
    (connectedActive serverIpAddr serverPortNo portNo s).tcpClientDb = s.tcpClientDb := by
  unfold connectedActive
  rfl

@[simp] theorem svcList_connectedActive : svcList (connectedActive serverIpAddr serverPortNo portNo s) =
    svcList s := by
  unfold connectedActive svcList
  rfl

@[simp] theorem nextClient_connectedActive :
    (connectedActive serverIpAddr serverPortNo portNo s).nextClient = s.nextClient + 1 := by
  unfold connectedActive
  rfl

@[simp] theorem createMultiThreaded_connectedActive :
    (connectedActive serverIpAddr serverPortNo portNo s).createMultiThreaded = s.createMultiThreaded := by
  unfold connectedActive
  rfl

end

/-- An active opener that leaves the controller’s lists loses one reference. -/
theorem removeActiveOpened_runs {connected : Bool}
    (ran : (TcpServerController.removeActiveOpened c connected).Runs s u t) :
    ∃ client, s.heap c = some client ∧ t = release c (forgotten c connected s) ∧
      (client.refCount ≤ 1 → client.clientThread = .null ∧ client.activeConnectThread = .null) := by
  cases connected with
  | true =>
    simp only [TcpServerController.removeActiveOpened, if_true, runs_bind, runs_update, runs_pure] at ran
    obtain ⟨_, _, rfl, _, _, released, _, rfl⟩ := ran
    obtain ⟨client, found, rfl, _, idle⟩ := dereference_runs released
    exact ⟨client, found, rfl, idle⟩
  | false =>
    simp only [TcpServerController.removeActiveOpened, Bool.false_eq_true, if_false, runs_bind, runs_update,
      runs_pure] at ran
    obtain ⟨_, _, rfl, _, _, released, _, rfl⟩ := ran
    obtain ⟨client, found, rfl, _, idle⟩ := dereference_runs released
    exact ⟨client, found, rfl, idle⟩

/-- The stages of a deletion. The reference taken first keeps the client until the last stage, so
that every stage finds it as the ones before have left it. -/
structure Deletes (c : ClientRef) (client : TcpClient) (s s₁ s₂ s₃ s₄ t : TcpServerController) :
    Prop where
  found : s.heap c = some client
  db : s₁ = if client.passiveOpener then
      release c { addRefs [c] s with tcpClientDb := remove c s.tcpClientDb } else addRefs [c] s
  dbLeft : ∃ n, s₁.heap c = some { client with refCount := n }
  svc : if client.multiplexListen then ∃ m, s₁.tcpClientSvcMgr = some m ∧
  s₂ = unlistened c m s₁ else s₂ = s₁
  svcLeft : ∃ n, s₂.heap c = some { client with refCount := n, multiplexListen := false }
  thread : s₃ = if client.clientThread = .null then s₂ else release c (s₂.mapClient c threadStopped)
  threadLeft : ∃ n, s₃.heap c = some
    { client with
      refCount := n, multiplexListen := false, clientThread := .null
      threaded := if client.clientThread = .null then client.threaded else false }
  active : s₄ = if client.activeOpener then release c (forgotten c client.connected s₃) else s₃
  activeLeft : ∃ n, s₄.heap c = some
    { client with
      refCount := n, multiplexListen := false, clientThread := .null
      threaded := if client.clientThread = .null then client.threaded else false }
  last : t = release c s₄
  idle : ∀ client, s₄.heap c = some client → client.refCount ≤ 1 →
    client.clientThread = .null ∧ client.activeConnectThread = .null

/-- What `release` leaves of a client that is still there. -/
theorem heap_release_left {left : TcpClient} (found : s.heap c = some client)
    (kept : (release c s).heap c = some left) : ∃ n, left = { client with refCount := n } := by
  rw [heap_release, if_pos rfl, found, Option.bind_some] at kept
  exact ⟨_, (drop_eq_some kept).2⟩

/-- Deleting a client goes through its four lists and its thread, in the order of the source. -/
theorem processClientDelete_runs (ran : (TcpServerController.processClientDelete c).Runs s u t) :
    ∃ client s₁ s₂ s₃ s₄, Deletes c client s s₁ s₂ s₃ s₄ t := by
  simp only [TcpServerController.processClientDelete, runs_bind, runs_deref, runs_pure] at ran
  obtain ⟨_, s₀, referenced, c₀, _, ⟨found₀, rfl⟩, _, s₁, removing, c₁, _,
      ⟨found₁, rfl⟩, _, s₂, stopping, c₂, _,
    ⟨found₂, rfl⟩, _, s₃, joining, c₃, _, ⟨found₃, rfl⟩, _, s₄, forgetting, _, _,
    released, _, rfl⟩ :=
    ran
  obtain ⟨⟨client, found⟩, rfl⟩ := reference_runs referenced
  have same₀ : c₀ = { client with refCount := client.refCount + 1 } := by
    rw [heap_addRefs, found, Option.map_some, List.count_singleton_self] at found₀
    exact (Option.some.inj found₀).symm
  have db : (s₁ = if client.passiveOpener then
      release c { addRefs [c] s with tcpClientDb := remove c s.tcpClientDb } else addRefs [c] s) ∧
      ∃ n, c₁ = { client with refCount := n } := by
    subst same₀
    rw [runs_when] at removing
    split_ifs at removing with passive
    · obtain ⟨_, _, rfl, _⟩ := removeClientFromDB_runs removing
      obtain ⟨n, rfl⟩ := heap_release_left found₀ found₁
      exact ⟨(if_pos passive).symm, n, rfl⟩
    · subst removing
      exact ⟨(if_neg passive).symm, _, Option.some.inj (found₁.symm.trans found₀)⟩
  obtain ⟨db, n₁, rfl⟩ := db
  have svc : (if client.multiplexListen then ∃ m, s₁.tcpClientSvcMgr = some m ∧
      s₂ = unlistened c m s₁ else s₂ = s₁) ∧
      ∃ n, c₂ = { client with refCount := n, multiplexListen := false } := by
    rw [runs_when] at stopping
    split_ifs at stopping with multiplexed
    · obtain ⟨m, other, present, found', several, rfl⟩ := clientFDStopListenSimple_runs stopping
      obtain rfl := Option.some.inj (found₁.symm.trans found')
      rw [heap_unlistened, if_pos rfl, found₁, Option.map_some, Option.bind_some, drop_notListening, drop,
        if_neg (by omega)] at found₂
      rw [if_pos multiplexed]
      exact ⟨⟨m, present, rfl⟩, _, (Option.some.inj found₂).symm⟩
    · subst stopping
      rw [if_neg multiplexed]
      refine ⟨rfl, n₁, ?_⟩
      rw [← Bool.eq_false_iff.mpr multiplexed]
      exact Option.some.inj (found₂.symm.trans found₁)
  obtain ⟨svc, n₂, rfl⟩ := svc
  have thread : (s₃ = if client.clientThread = .null then s₂ else release c
      (s₂.mapClient c threadStopped)) ∧ ∃ n, c₃ = { client with
        refCount := n, multiplexListen := false, clientThread := .null
        threaded := if client.clientThread = .null then client.threaded else false } := by
    rw [runs_when] at joining
    split_ifs at joining with running
    · obtain ⟨_, _, _, rfl, _⟩ := stopThread_runs joining
      rw [if_neg running, if_neg running]
      have stopped : (s₂.mapClient c threadStopped).heap c = some (threadStopped { client with
          refCount := n₂, multiplexListen := false }) := by
        rw [heap_mapClient, if_pos rfl, found₂, Option.map_some]
      obtain ⟨n, rfl⟩ := heap_release_left stopped found₃
      exact ⟨rfl, n, rfl⟩
    · subst joining
      have idle := not_not.mp running
      rw [if_pos idle, if_pos idle]
      refine ⟨rfl, n₂, ?_⟩
      rw [← idle]
      exact Option.some.inj (found₃.symm.trans found₂)
  obtain ⟨thread, n₃, rfl⟩ := thread
  obtain ⟨c₄, found₄, rfl, _, idle⟩ := dereference_runs released
  have active : (s₄ = if client.activeOpener then release c (forgotten c client.connected s₃) else s₃) ∧
      ∃ n, c₄ = { client with
        refCount := n, multiplexListen := false, clientThread := .null
        threaded := if client.clientThread = .null then client.threaded else false } := by
    rw [runs_when] at forgetting
    cases active : client.activeOpener with
    | true =>
      rw [if_pos active] at forgetting
      simp only [runs_bind, runs_perform, runs_deref] at forgetting
      obtain ⟨_, _, rfl, _, _, ⟨found', rfl⟩, _, _, forgetting, rfl⟩ := forgetting
      obtain rfl := Option.some.inj (found₃.symm.trans found')
      obtain ⟨_, _, rfl, _⟩ := removeActiveOpened_runs forgetting
      have here : (forgotten c client.connected s₃).heap c = s₃.heap c := rfl
      obtain ⟨n, rfl⟩ := heap_release_left (here.trans found₃) found₄
      exact ⟨rfl, n, by rw [← active]⟩
    | false =>
      rw [if_neg (Bool.eq_false_iff.mp active)] at forgetting
      subst forgetting
      exact ⟨rfl, n₃, (Option.some.inj (found₄.symm.trans found₃)).trans (by rw [← active])⟩
  obtain ⟨active, n₄, rfl⟩ := active
  refine ⟨client, s₁, s₂, s₃, s₄, found, db, ⟨n₁, found₁⟩, svc, ⟨n₂, found₂⟩, thread,
    ⟨n₃, found₃⟩, active, ⟨n₄, found₄⟩, rfl, fun other found' last => ?_⟩
  obtain rfl := Option.some.inj (found₄.symm.trans found')
  exact idle last

/-- A deletion by address takes the client out of the database, and out of the service manager only
if it has no thread. A thread it has goes on. -/
theorem processKeyDelete_runs {ipAddr : UInt32} {portNo : UInt16}
    (ran : (TcpServerController.processKeyDelete ipAddr portNo).Runs s u t) :
    t = s ∨ ∃ c client s₁, keyFound ipAddr portNo s = some c ∧ s.heap c = some client ∧
      s₁ = release c { s with tcpClientDb := remove c s.tcpClientDb } ∧
      ((client.refCount ≤ 1 ∧ client.clientThread = .null ∧ client.activeConnectThread = .null ∧
        t = s₁) ∨ (2 ≤ client.refCount ∧ client.clientThread ≠ .null ∧ t = s₁) ∨
        (3 ≤ client.refCount ∧ client.clientThread = .null ∧ ∃ m, s.tcpClientSvcMgr = some m ∧
          t = unlistened c m s₁)) := by
  simp only [TcpServerController.processKeyDelete, runs_bind] at ran
  obtain ⟨left, s₁, removing, ran⟩ := ran
  rcases removeKeyFromDB_runs removing with ⟨rfl, rfl⟩ | ⟨c, client, first, found, rfl, rfl, idle⟩
  · obtain ⟨_, rfl⟩ := runs_pure.mp ran
    exact .inl rfl
  refine .inr ⟨c, client, _, first, found, rfl, ?_⟩
  rcases Nat.lt_or_ge client.refCount 2 with last | several
  · rw [if_neg (Nat.not_le.mpr last)] at ran
    obtain ⟨_, rfl⟩ := runs_pure.mp ran
    obtain ⟨thread, connector⟩ := idle (Nat.le_of_lt_succ last)
    exact .inl ⟨Nat.le_of_lt_succ last, thread, connector, rfl⟩
  · rw [if_pos several] at ran
    simp only [runs_bind, runs_deref] at ran
    obtain ⟨left, _, ⟨found', rfl⟩, ran⟩ := ran
    rw [heap_release, if_pos rfl, found, Option.bind_some, drop, if_neg (by omega), Option.some.injEq] at found'
    subst found'
    rw [runs_when] at ran
    split_ifs at ran with thread
    · obtain ⟨m, other, present, found', more, rfl⟩ := clientFDStopListenSimple_runs ran
      rw [heap_release, if_pos rfl, found, Option.bind_some, drop, if_neg (by omega), Option.some.injEq] at found'
      subst found'
      dsimp only at more
      exact .inr (.inr ⟨by omega, thread, m, present, rfl⟩)
    · exact .inr (.inl ⟨several, thread, ran.symm⟩)

/-- A client is migrated when its key is found and it is multiplexed; otherwise nothing happens. -/
theorem processClientMigrationToMultiThreaded_runs {ipAddr : UInt32} {portNo : UInt16}
    (ran : (TcpServerController.processClientMigrationToMultiThreaded ipAddr portNo).Runs s u t) :
    t = s ∨ ∃ c client m, keyFound ipAddr portNo s = some c ∧ s.heap c = some client ∧
    client.clientThread = .null ∧
      2 ≤ client.refCount ∧ s.tcpClientSvcMgr = some m ∧
      t = (unlistened c m s).mapClient c threadStarted := by
  simp only [TcpServerController.processClientMigrationToMultiThreaded, runs_bind] at ran
  obtain ⟨found, _, searched, ran⟩ := ran
  obtain ⟨rfl, first⟩ := lookUpClientDB_ThreadSafe_runs searched
  cases found with
  | none =>
    obtain ⟨_, rfl⟩ := runs_pure.mp ran
    exact .inl rfl
  | some c =>
    simp only [runs_bind, runs_deref, runs_when] at ran
    obtain ⟨client, _, ⟨found, rfl⟩, ran⟩ := ran
    split_ifs at ran with idle
    · obtain ⟨_, _, stopping, starting⟩ := ran
      obtain ⟨m, other, present, found', several, rfl⟩ := clientFDStopListenSimple_runs stopping
      obtain rfl := Option.some.inj (found.symm.trans found')
      obtain ⟨_, _, _, rfl⟩ := createMultiThreadedClient_runs starting
      exact .inr ⟨c, client, m, first.symm, found, idle, several, present, rfl⟩
    · exact .inl ran.symm

/-- A client is migrated back when its key is found and it has a thread; otherwise nothing happens.
-/
theorem processClientMigrationToMultiplex_runs {ipAddr : UInt32} {portNo : UInt16}
    (ran : (TcpServerController.processClientMigrationToMultiplex ipAddr portNo).Runs s u t) :
    t = s ∨ ∃ c client m, keyFound ipAddr portNo s = some c ∧ s.heap c = some client ∧
    client.clientThread ≠ .null ∧
      2 ≤ client.refCount ∧ s.tcpClientSvcMgr = some m ∧ c ∉ m.tcpClientDb ∧
      t = listened c m (release c (s.mapClient c threadStopped)) := by
  simp only [TcpServerController.processClientMigrationToMultiplex, runs_bind] at ran
  obtain ⟨found, _, searched, ran⟩ := ran
  obtain ⟨rfl, first⟩ := lookUpClientDB_ThreadSafe_runs searched
  cases found with
  | none =>
    obtain ⟨_, rfl⟩ := runs_pure.mp ran
    exact .inl rfl
  | some c =>
    simp only [runs_bind, runs_deref, runs_when] at ran
    obtain ⟨client, _, ⟨found, rfl⟩, ran⟩ := ran
    split_ifs at ran with running
    · obtain ⟨_, _, stopping, starting⟩ := ran
      obtain ⟨other, found', _, rfl, _⟩ := stopThread_runs stopping
      obtain rfl := Option.some.inj (found.symm.trans found')
      obtain ⟨m, present, ⟨left, kept⟩, absent, rfl⟩ := clientFDStartListenSimple_runs starting
      rw [heap_release, if_pos rfl, heap_mapClient, if_pos rfl, found, Option.map_some, Option.bind_some] at kept
      exact .inr ⟨c, client, m, first.symm, found, running, (drop_eq_some kept).1, present, absent, rfl⟩
    · exact .inl ran.symm

/-- The two lists of active openers change together. -/
theorem moveToEstablished_runs (ran : (TcpServerController.moveToEstablished c).Runs s u t) :
    t = movedToEstablished c s := by
  simp only [TcpServerController.moveToEstablished, runs_bind, runs_perform, runs_update] at ran
  obtain ⟨_, _, rfl, _, _, rfl, _, _, rfl, rfl⟩ := ran
  rfl

/-- A client is served by a thread of its own or by the multiplexer, as the controller is told. -/
theorem serveInCreationMode_runs (ran : (TcpServerController.serveInCreationMode c).Runs s u t) :
    Served c s t := by
  simp only [TcpServerController.serveInCreationMode, runs_bind, runs_read, runs_ite] at ran
  obtain ⟨_, _, ⟨rfl, rfl⟩, ran⟩ := ran
  split_ifs at ran with mode
  · exact .inl ⟨mode, createMultiThreadedClient_runs ran⟩
  · exact .inr ⟨Bool.eq_false_iff.mpr mode, clientFDStartListenSimple_runs ran⟩

/-- A successful `connect` writes the port and calls the notification. -/
theorem connectSucceeded_runs {portNo : UInt16} (ran : (TcpClient.connectSucceeded c portNo).Runs s u t) :
    (∃ client, s.heap c = some client) ∧
      t = connectNotified c (s.mapClient c (connectedOn portNo)) := by
  simp only [TcpClient.connectSucceeded, runs_bind, runs_modifyClient, runs_read, runs_when, runs_notify] at ran
  obtain ⟨_, _, ⟨found, rfl⟩, _, _, ⟨_, rfl⟩, _, _, ⟨_, rfl⟩, _, _, ⟨rfl, rfl⟩, ran⟩ := ran
  have folded : ((s.mapClient c fun client => { client with connectInProgress := false }).mapClient c
      fun client => { client with connected := true }).mapClient c (fun client => { client with portNo }) =
      s.mapClient c (connectedOn portNo) := by
    rw [mapClient_mapClient, mapClient_mapClient]
    rfl
  rw [folded] at ran
  refine ⟨found, ?_⟩
  rw [connectNotified]
  split_ifs at ran ⊢
  · exact ran.symm
  · exact ran.symm

/-- Both outcomes of one `connect`. -/
theorem tryClientConnect_runs {connect : ConnectResult} {rc : ℤ}
    (ran : (TcpClient.tryClientConnect c true connect).Runs s rc t) :
    match connect with
    | none => rc = 1 ∧ t = s.mapClient c retryStarted
    | some portNo => rc = 0 ∧ t = connectNotified c (s.mapClient c (connectedOn portNo)) := by
  simp only [TcpClient.tryClientConnect, runs_bind, runs_deref, runs_assertThat, runs_modifyClient] at ran
  obtain ⟨_, _, ⟨_, rfl⟩, _, _, ⟨_, rfl⟩, _, _, ⟨_, rfl⟩, _, _, ⟨_, rfl⟩, _, _,
      ⟨_, rfl⟩, _, _, ⟨_, rfl⟩, _, _,
    ⟨_, rfl⟩, ran⟩ := ran
  cases connect with
  | none =>
    simp only [TcpClient.reference, if_true, runs_bind, runs_modifyClient, runs_perform, runs_pure] at ran
    obtain ⟨_, _, ⟨_, rfl⟩, _, _, ⟨_, rfl⟩, _, _, rfl, rfl, rfl⟩ := ran
    refine ⟨rfl, ?_⟩
    rw [mapClient_mapClient, mapClient_mapClient]
    rfl
  | some portNo =>
    simp only [runs_bind, runs_pure] at ran
    obtain ⟨_, _, succeeded, rfl, rfl⟩ := ran
    obtain ⟨_, rfl⟩ := connectSucceeded_runs succeeded
    refine ⟨rfl, ?_⟩
    rw [mapClient_mapClient]
    rfl

/-- Creating an active opener is connecting it and then serving it. -/
theorem createActiveClient_calls (serverIpAddr : UInt32) (serverPortNo : UInt16) (connect : ConnectResult) :
    TcpServerController.createActiveClient serverIpAddr serverPortNo connect = (do
      match ← connectActive serverIpAddr serverPortNo connect with
      | some c => TcpServerController.serveInCreationMode c
      | none => return ()) := by
  have served (c : ClientRef) (rc : ℤ) : (when (rc = 0) do
      TcpServerController.moveToEstablished c
      TcpServerController.serveInCreationMode c) = (do
      match ← (if rc = 0 then do
          TcpServerController.moveToEstablished c
          return some c
        else return none : Op (Option ClientRef)) with
      | some c => TcpServerController.serveInCreationMode c
      | none => return ()) := by
    rw [when]
    split_ifs with connected
    · rw [Prog.bind_assoc]
      rfl
    · rfl
  simp only [TcpServerController.createActiveClient, connectActive, Prog.bind_assoc, served]

/-- Either the new client waits for a retry or it is connected. -/
theorem connectActive_runs {serverIpAddr : UInt32} {serverPortNo : UInt16} {connect : ConnectResult}
    {connected : Option ClientRef} (ran : (connectActive serverIpAddr serverPortNo connect).Runs s connected t) :
    match connect with
    | none => connected = none ∧ t = (created (newActive serverIpAddr serverPortNo s) s).mapClient
        s.nextClient retryStarted
    | some portNo => connected = some s.nextClient ∧
        t = connectedActive serverIpAddr serverPortNo portNo s := by
  simp only [connectActive, runs_bind, runs_read, runs_newClient, runs_perform, runs_update] at ran
  obtain ⟨_, _, ⟨rfl, rfl⟩, _, _, ⟨rfl, rfl⟩, _, _, rfl, _, _, rfl, _, _, rfl, _, s₀,
      referenced, rc, s₁,
    connecting, ran⟩ := ran
  obtain ⟨_, rfl⟩ := reference_runs referenced
  have start : addRefs [s.nextClient]
      { s with
        heap := Function.update s.heap s.nextClient
          (some { newActive serverIpAddr serverPortNo s with refCount := 0 })
        nextClient := s.nextClient + 1
        connectpendingClients := s.connectpendingClients ++ [s.nextClient] } =
      created (newActive serverIpAddr serverPortNo s) s := by
    rw [addRefs, created]
    congr 1
    funext d
    simp only [Function.update_apply]
    split_ifs with same
    · rw [same, Option.map_some, List.count_singleton_self]
      rfl
    · have other : [s.nextClient].count d = 0 := List.count_eq_zero.mpr (by simpa using same)
      simp only [other, Nat.add_zero, Option.map_id']
  have succeeded := tryClientConnect_runs connecting
  cases connect with
  | none =>
    obtain ⟨rfl, rfl⟩ := succeeded
    rw [if_neg (by decide)] at ran
    obtain ⟨rfl, rfl⟩ := runs_pure.mp ran
    rw [← start]
    exact ⟨rfl, rfl⟩
  | some portNo =>
    obtain ⟨rfl, rfl⟩ := succeeded
    rw [if_pos rfl] at ran
    simp only [runs_bind, runs_pure] at ran
    obtain ⟨_, _, moving, rfl, rfl⟩ := ran
    obtain rfl := moveToEstablished_runs moving
    refine ⟨rfl, ?_⟩
    rw [connectedActive, ← start]
    rfl

/-- What creating an active opener leaves, by the outcome of `connect`. -/
theorem createActiveClient_runs {serverIpAddr : UInt32} {serverPortNo : UInt16} {connect : ConnectResult}
    (ran : (TcpServerController.createActiveClient serverIpAddr serverPortNo connect).Runs s u t) :
    Creates serverIpAddr serverPortNo s connect t := by
  rw [createActiveClient_calls, runs_bind] at ran
  obtain ⟨_, middle, connecting, ran⟩ := ran
  have connected := connectActive_runs connecting
  cases connect with
  | none =>
    obtain ⟨rfl, rfl⟩ := connected
    obtain ⟨_, rfl⟩ := runs_pure.mp ran
    exact .retrying
  | some portNo =>
    obtain ⟨rfl, rfl⟩ := connected
    exact .connected (serveInCreationMode_runs ran)

end

end TcpServerLib.Refinement
