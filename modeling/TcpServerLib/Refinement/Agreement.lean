import Mathlib.Data.List.Nodup
import TcpServerLib.Refinement.Frame

/-! # What the flags, the threads and the lists of a client say of each other

Between a connector that has connected and the message about it, the lists of the controller lag
behind the flags of the client. The message queue is what makes up for it: it names every pending
client that is connected, and every client that nobody refers to yet.
-/

namespace TcpServerLib.Refinement

open Machine Model Prog Server

/-- The connection of a client stays as it is, and its flag goes with its thread. -/
structure Evolves (before after : TcpClient) : Prop where
  connected : after.connected = before.connected
  connectInProgress : after.connectInProgress = before.connectInProgress
  activeConnectThread : after.activeConnectThread = before.activeConnectThread
  threaded : (before.clientThread ≠ .null ↔ before.threaded = true) →
    (after.clientThread ≠ .null ↔ after.threaded = true)
  refCount : after.refCount = 0 → before.refCount = 0

/-- Nothing connects: no list of the controller gets a client it did not have. -/
structure Retains (s t : TcpServerController) : Prop where
  clients : ∀ {c client}, t.heap c = some client → ∃ before, s.heap c = some before ∧
    Evolves before client
  nextClient : s.nextClient ≤ t.nextClient
  tcpClientDb : s.tcpClientDb.Nodup → t.tcpClientDb.Nodup
  connectpendingClients : t.connectpendingClients.Sublist s.connectpendingClients
  establishedClient : t.establishedClient.Sublist s.establishedClient

/-- A message that makes a request about a client. -/
def Announced (queue : List TcpServerMsg) (request : Request) (c : ClientRef) : Prop :=
  ∃ msg ∈ queue, msg.code = request.code ∧ msg.data = c

/-- The invariant, for a queue that may still have the message that is being processed. -/
structure Agreement (queue : List TcpServerMsg) (s : TcpServerController) : Prop where
  threaded : ∀ {c client}, s.heap c = some client → (client.clientThread ≠ .null ↔ client.threaded = true)
  connectInProgress : ∀ {c client}, s.heap c = some client →
    (client.activeConnectThread = .retrying ↔ client.connectInProgress = true)
  tcpClientDb : s.tcpClientDb.Nodup
  connectpendingClients : s.connectpendingClients.Nodup
  allocated : ∀ c ∈ s.connectpendingClients ++ s.establishedClient, c < s.nextClient
  connected : ∀ {c client}, s.heap c = some client → c ∈ s.establishedClient → client.connected = true
  connecting : ∀ {c client}, s.heap c = some client → c ∈ s.connectpendingClients →
    client.connectInProgress = true ∨ Announced queue .connectSuccess c
  unreferenced : ∀ {c client}, s.heap c = some client → client.refCount = 0 →
    ∃ threaded, Announced queue (.processNew threaded) c

section

variable {s t middle : TcpServerController} {c d : ClientRef} {client : TcpClient} {m : TcpClientServiceManager}
  {queue queue' : List TcpServerMsg} {u : Unit}

theorem Evolves.refl (client : TcpClient) : Evolves client client :=
  ⟨rfl, rfl, rfl, id, id⟩

/-- Evolving composes. -/
theorem Evolves.trans {before between after : TcpClient} (first : Evolves before between)
    (second : Evolves between after) : Evolves before after where
  connected := second.connected.trans first.connected
  connectInProgress := second.connectInProgress.trans first.connectInProgress
  activeConnectThread := second.activeConnectThread.trans first.activeConnectThread
  threaded := second.threaded ∘ first.threaded
  refCount := first.refCount ∘ second.refCount

theorem Retains.refl (s : TcpServerController) : Retains s s :=
  ⟨fun found => ⟨_, found, .refl _⟩, Nat.le_refl _, id, List.Sublist.refl _, List.Sublist.refl _⟩

/-- Retaining composes. -/
theorem Retains.trans (first : Retains s middle) (second : Retains middle t) : Retains s t where
  clients found := by
    obtain ⟨between, found', later⟩ := second.clients found
    obtain ⟨before, found, earlier⟩ := first.clients found'
    exact ⟨before, found, earlier.trans later⟩
  nextClient := Nat.le_trans first.nextClient second.nextClient
  tcpClientDb := second.tcpClientDb ∘ first.tcpClientDb
  connectpendingClients := second.connectpendingClients.trans first.connectpendingClients
  establishedClient := second.establishedClient.trans first.establishedClient

/-- A state with the same clients and the same lists. -/
theorem Retains.of_heap (heap : t.heap = s.heap) (nextClient : t.nextClient = s.nextClient)
    (tcpClientDb : t.tcpClientDb = s.tcpClientDb) (pending : t.connectpendingClients = s.connectpendingClients)
    (established : t.establishedClient = s.establishedClient) : Retains s t where
  clients found := ⟨_, heap ▸ found, .refl _⟩
  nextClient := Nat.le_of_eq nextClient.symm
  tcpClientDb := tcpClientDb ▸ id
  connectpendingClients := by rw [pending]
  establishedClient := by rw [established]

/-- A write retains what was agreed when the client evolves by it. -/
theorem retains_mapClient {f : TcpClient → TcpClient}
    (evolves : ∀ client, s.heap c = some client → Evolves client (f client)) :
    Retains s (s.mapClient c f) where
  clients {d client} found := by
    rw [heap_mapClient] at found
    split_ifs at found with same
    · obtain ⟨before, found', rfl⟩ := Option.map_eq_some_iff.mp found
      exact ⟨before, same ▸ found', evolves before found'⟩
    · exact ⟨client, found, .refl client⟩
  nextClient := Nat.le_refl _
  tcpClientDb := id
  connectpendingClients := List.Sublist.refl _
  establishedClient := List.Sublist.refl _

theorem retains_release : Retains s (release c s) where
  clients {d client} found := by
    rw [heap_release] at found
    split_ifs at found with same
    · obtain ⟨before, found', kept⟩ := Option.bind_eq_some_iff.mp found
      obtain ⟨several, rfl⟩ := drop_eq_some kept
      exact ⟨before, same ▸ found', rfl, rfl, rfl, id, fun unheld => by dsimp only at unheld; omega⟩
    · exact ⟨client, found, .refl client⟩
  nextClient := Nat.le_refl _
  tcpClientDb := id
  connectpendingClients := List.Sublist.refl _
  establishedClient := List.Sublist.refl _

theorem retains_addRefs (list : List ClientRef) : Retains s (addRefs list s) where
  clients found := by
    obtain ⟨before, found', rfl⟩ := Option.map_eq_some_iff.mp found
    exact ⟨before, found', rfl, rfl, rfl, id, Nat.eq_zero_of_add_eq_zero_right⟩
  nextClient := Nat.le_refl _
  tcpClientDb := id
  connectpendingClients := List.Sublist.refl _
  establishedClient := List.Sublist.refl _

theorem retains_threadStarted : Retains s (s.mapClient c threadStarted) :=
  retains_mapClient fun _ _ => ⟨rfl, rfl, rfl, fun _ => iff_of_true nofun rfl, nofun⟩

theorem retains_threadStopped : Retains s (release c (s.mapClient c threadStopped)) := by
  have stopped : Retains s (s.mapClient c threadStopped) :=
    retains_mapClient fun _ _ => ⟨rfl, rfl, rfl, fun _ => iff_of_false (not_not.mpr rfl) nofun, id⟩
  exact stopped.trans retains_release

theorem retains_listened : Retains s (listened c m s) := by
  have flagged : Retains s (s.mapClient c listening) := retains_mapClient fun _ _ => ⟨rfl, rfl, rfl, id, id⟩
  have listed : Retains (s.mapClient c listening)
      { s.mapClient c listening with tcpClientSvcMgr := some (relisted s (m.tcpClientDb ++ [c]) m) } :=
    .of_heap rfl rfl rfl rfl rfl
  exact flagged.trans (listed.trans (retains_addRefs _))

theorem retains_unlistened : Retains s (unlistened c m s) := by
  have flagged : Retains s (s.mapClient c notListening) :=
    retains_mapClient fun _ _ => ⟨rfl, rfl, rfl, id, id⟩
  have unlisted : Retains (release c (s.mapClient c notListening))
      { release c (s.mapClient c notListening) with
        tcpClientSvcMgr := some (relisted s (remove c m.tcpClientDb) m) } :=
    .of_heap rfl rfl rfl rfl rfl
  exact flagged.trans (retains_release.trans (unlisted.trans (retains_addRefs _)))

theorem retains_db {list : List ClientRef} (nodup : s.tcpClientDb.Nodup → list.Nodup) :
    Retains s { s with tcpClientDb := list } :=
  ⟨fun found => ⟨_, found, .refl _⟩, Nat.le_refl _, nodup, List.Sublist.refl _, List.Sublist.refl _⟩

theorem retains_added (absent : c ∉ s.tcpClientDb) : Retains s (added c s) := by
  have listed : Retains s { s with tcpClientDb := s.tcpClientDb ++ [c] } :=
    retains_db fun nodup => List.concat_eq_append ▸ nodup.concat absent
  exact listed.trans (retains_addRefs [c])

theorem retains_unkeyed : Retains s (unkeyed c s) := by
  have unlisted : Retains s { s with tcpClientDb := remove c s.tcpClientDb } :=
    retains_db fun nodup => nodup.filter _
  exact unlisted.trans retains_release

theorem retains_forgotten {connected : Bool} : Retains s (forgotten c connected s) where
  clients found := ⟨_, found, .refl _⟩
  nextClient := Nat.le_refl _
  tcpClientDb := id
  connectpendingClients := by
    rw [forgotten]
    cases connected with
    | true => exact List.Sublist.refl _
    | false => exact List.filter_sublist
  establishedClient := by
    rw [forgotten]
    cases connected with
    | true => exact List.filter_sublist
    | false => exact List.Sublist.refl _

/-- Serving a client retains it. -/
theorem retains_served (served : Served c s t) : Retains s t := by
  rcases served with ⟨_, _, _, _, rfl⟩ | ⟨_, m, _, _, _, rfl⟩
  · exact retains_threadStarted
  · exact retains_listened

/-- Deleting a client retains it for the others. -/
theorem retains_deletes {s₁ s₂ s₃ s₄ : TcpServerController}
    (deletes : Deletes c client s s₁ s₂ s₃ s₄ t) :
    Retains s t :=
  deletes.preserves (retains_addRefs [c]) (fun retains => retains.trans retains_unkeyed)
    (fun _ _ retains => retains.trans retains_unlistened) (fun retains => retains.trans retains_threadStopped)
    (fun retains => retains.trans retains_forgotten) fun retains => retains.trans retains_release

/-- Hearing a client retains it. -/
theorem retains_heard (heard : Heard c s t) : Retains s t := by
  obtain ⟨msgd, bytesRecvd, _⟩ := heard
  have received : Retains s (s.mapClient c (received msgd bytesRecvd)) :=
    retains_mapClient fun _ _ => ⟨rfl, rfl, rfl, id, id⟩
  exact received.trans (.of_heap rfl rfl rfl rfl rfl)

theorem retains_threadEnded (found : s.heap c = some client) (receiving : client.clientThread = .receiving) :
    Retains s (threadEnded c client s) := by
  have waits : Retains s (s.mapClient c waiting) := by
    refine retains_mapClient fun before found' => ⟨rfl, rfl, rfl, fun agrees => ?_, id⟩
    obtain rfl := Option.some.inj (found.symm.trans found')
    refine iff_of_true nofun (agrees.mp ?_)
    rw [receiving]
    exact ClientThread.noConfusion
  exact waits.trans (.of_heap rfl rfl rfl rfl rfl)

theorem retains_svcPurges (purges : SvcPurges c s t) : Retains s t := by
  obtain ⟨_, rfl⟩ := purges
  have unlisted : Retains s (s.mapSvcMgr fun m => { m with tcpClientDb := remove c m.tcpClientDb }) :=
    .of_heap rfl rfl rfl rfl rfl
  have flagged : Retains (s.mapSvcMgr fun m => { m with tcpClientDb := remove c m.tcpClientDb })
      ((s.mapSvcMgr fun m => { m with tcpClientDb := remove c m.tcpClientDb }).mapClient c notListening) :=
    retains_mapClient fun _ _ => ⟨rfl, rfl, rfl, id, id⟩
  exact unlisted.trans (flagged.trans retains_release)

/-- Ending the service manager retains it. -/
theorem retains_svcEnds (ends : SvcEnds s t) : Retains s t := by
  obtain @⟨m, _, middle, _, purges, _, _⟩ := ends
  have stopped : Retains s { s with tcpClientSvcMgr := some { m with thread := false } } :=
    .of_heap rfl rfl rfl rfl rfl
  have purged := purges.invariant (motive := fun _ => Retains s)
    (fun purges before => before.trans (retains_svcPurges purges)) stopped
  exact purged.trans (.of_heap rfl rfl rfl rfl rfl)

/-- Later messages take no announcement away. -/
theorem Announced.mono {request : Request} (announced : Announced queue request c) (subset : queue ⊆ queue') :
    Announced queue' request c := by
  obtain ⟨msg, queued, named⟩ := announced
  exact ⟨msg, subset queued, named⟩

/-- A message that a step posts. -/
theorem announced_append {request : Request} {waiter : Option ThreadId}
    (queued : ⟨request.code, c, waiter⟩ ∈ queue') :
    Announced (queue ++ queue') request c :=
  ⟨_, List.mem_append_right _ queued, rfl, rfl⟩

/-- Later messages break no agreement. -/
theorem Agreement.mono (agreement : Agreement queue s) (subset : queue ⊆ queue') : Agreement queue' s :=
  { agreement with
    connecting := fun found pending =>
      (agreement.connecting found pending).imp_right fun announced => announced.mono subset
    unreferenced := fun found unheld => by
      obtain ⟨threaded, announced⟩ := agreement.unreferenced found unheld
      exact ⟨threaded, announced.mono subset⟩ }

/-- The agreement goes on where it is retained. -/
theorem Agreement.retains (agreement : Agreement queue s) (retains : Retains s t) : Agreement queue t where
  threaded found := by
    obtain ⟨before, found', evolves⟩ := retains.clients found
    exact evolves.threaded (agreement.threaded found')
  connectInProgress found := by
    obtain ⟨before, found', evolves⟩ := retains.clients found
    rw [evolves.connectInProgress, evolves.activeConnectThread]
    exact agreement.connectInProgress found'
  tcpClientDb := retains.tcpClientDb agreement.tcpClientDb
  connectpendingClients := agreement.connectpendingClients.sublist retains.connectpendingClients
  allocated c member := by
    apply Nat.lt_of_lt_of_le (agreement.allocated c ?_) retains.nextClient
    exact (retains.connectpendingClients.append retains.establishedClient).subset member
  connected found member := by
    obtain ⟨before, found', evolves⟩ := retains.clients found
    rw [evolves.connected]
    exact agreement.connected found' (retains.establishedClient.subset member)
  connecting found member := by
    obtain ⟨before, found', evolves⟩ := retains.clients found
    rw [evolves.connectInProgress]
    exact agreement.connecting found' (retains.connectpendingClients.subset member)
  unreferenced found unheld := by
    obtain ⟨before, found', evolves⟩ := retains.clients found
    exact agreement.unreferenced found' (evolves.refCount unheld)

/-- A client is created, in one of the lists or in none. -/
theorem Agreement.born (agreement : Agreement queue s) (client : TcpClient)
    (heap : ∀ d, t.heap d = if d = s.nextClient then some client else s.heap d)
    (nextClient : t.nextClient = s.nextClient + 1) (db : t.tcpClientDb = s.tcpClientDb)
    (pending : t.connectpendingClients = s.connectpendingClients ∨
      t.connectpendingClients = s.connectpendingClients ++ [s.nextClient] ∧ client.connectInProgress = true)
    (established : t.establishedClient = s.establishedClient ∨
      t.establishedClient = s.establishedClient ++ [s.nextClient] ∧ client.connected = true)
    (threaded : client.clientThread ≠ .null ↔ client.threaded = true)
    (connectInProgress : client.activeConnectThread = .retrying ↔ client.connectInProgress = true)
    (unreferenced : client.refCount = 0 → ∃ threaded, Announced queue (.processNew threaded) s.nextClient) :
    Agreement queue t := by
  have fresh : s.nextClient ∉ s.connectpendingClients ++ s.establishedClient :=
    fun member => Nat.lt_irrefl _ (agreement.allocated _ member)
  rw [List.mem_append, not_or] at fresh
  have cases_heap {d : ClientRef} {left : TcpClient} (found : t.heap d = some left) :
      (d = s.nextClient ∧ client = left) ∨ (d ≠ s.nextClient ∧ s.heap d = some left) := by
    rw [heap] at found
    split_ifs at found with same
    · exact .inl ⟨same, Option.some.inj found⟩
    · exact .inr ⟨same, found⟩
  have pending_cases {d : ClientRef} (member : d ∈ t.connectpendingClients) :
      d ∈ s.connectpendingClients ∨ (d = s.nextClient ∧ client.connectInProgress = true) := by
    rcases pending with same | ⟨more, inProgress⟩
    · exact .inl (same ▸ member)
    · rw [more] at member
      exact (List.mem_append.mp member).imp_right fun last => ⟨List.mem_singleton.mp last, inProgress⟩
  have established_cases {d : ClientRef} (member : d ∈ t.establishedClient) :
      d ∈ s.establishedClient ∨ (d = s.nextClient ∧ client.connected = true) := by
    rcases established with same | ⟨more, connected⟩
    · exact .inl (same ▸ member)
    · rw [more] at member
      exact (List.mem_append.mp member).imp_right fun last => ⟨List.mem_singleton.mp last, connected⟩
  refine ⟨fun found => ?_, fun found => ?_, db ▸ agreement.tcpClientDb, ?_, fun d member => ?_,
    fun {d left} found member => ?_, fun {d left} found member => ?_, fun {d left} found unheld => ?_⟩
  · rcases cases_heap found with ⟨_, rfl⟩ | ⟨_, found⟩
    · exact threaded
    · exact agreement.threaded found
  · rcases cases_heap found with ⟨_, rfl⟩ | ⟨_, found⟩
    · exact connectInProgress
    · exact agreement.connectInProgress found
  · rcases pending with same | ⟨more, _⟩
    · exact same ▸ agreement.connectpendingClients
    · exact more ▸ List.concat_eq_append ▸ agreement.connectpendingClients.concat fresh.1
  · rw [nextClient, Nat.lt_succ_iff]
    rcases List.mem_append.mp member with pending | established
    · rcases pending_cases pending with old | ⟨rfl, _⟩
      · exact Nat.le_of_lt (agreement.allocated d (List.mem_append_left _ old))
      · exact Nat.le_refl _
    · rcases established_cases established with old | ⟨rfl, _⟩
      · exact Nat.le_of_lt (agreement.allocated d (List.mem_append_right _ old))
      · exact Nat.le_refl _
  · rcases cases_heap found with ⟨rfl, rfl⟩ | ⟨other, found⟩
    · exact ((established_cases member).resolve_left fresh.2).2
    · exact agreement.connected found ((established_cases member).resolve_right fun new => other new.1)
  · rcases cases_heap found with ⟨rfl, rfl⟩ | ⟨other, found⟩
    · exact .inl ((pending_cases member).resolve_left fresh.1).2
    · exact agreement.connecting found ((pending_cases member).resolve_right fun new => other new.1)
  · rcases cases_heap found with ⟨rfl, rfl⟩ | ⟨_, found⟩
    · exact unreferenced unheld
    · exact agreement.unreferenced found unheld

/-- A step of the connector of a client. -/
theorem Agreement.mapClient (agreement : Agreement queue s) (found : s.heap c = some client)
    {f : TcpClient → TcpClient}
    (threaded : (f client).clientThread = client.clientThread ∧ (f client).threaded = client.threaded)
    (connectInProgress : (f client).activeConnectThread = .retrying ↔ (f client).connectInProgress = true)
    (connected : client.connected = true → (f client).connected = true)
    (connecting : c ∈ s.connectpendingClients → client.connectInProgress = true →
      (f client).connectInProgress = true ∨ Announced queue .connectSuccess c)
    (refCount : (f client).refCount = client.refCount) : Agreement queue (s.mapClient c f) := by
  have cases_heap {d : ClientRef} {left : TcpClient} (found' : (s.mapClient c f).heap d = some left) :
      (d = c ∧ f client = left) ∨ (d ≠ c ∧ s.heap d = some left) := by
    rw [heap_mapClient] at found'
    split_ifs at found' with same
    · rw [found, Option.map_some] at found'
      exact .inl ⟨same, Option.some.inj found'⟩
    · exact .inr ⟨same, found'⟩
  refine ⟨fun found' => ?_, fun found' => ?_, agreement.tcpClientDb, agreement.connectpendingClients,
    agreement.allocated, fun found' member => ?_, fun found' member => ?_, fun found' unheld => ?_⟩
  · rcases cases_heap found' with ⟨_, rfl⟩ | ⟨_, found'⟩
    · rw [threaded.1, threaded.2]
      exact agreement.threaded found
    · exact agreement.threaded found'
  · rcases cases_heap found' with ⟨_, rfl⟩ | ⟨_, found'⟩
    · exact connectInProgress
    · exact agreement.connectInProgress found'
  · rcases cases_heap found' with ⟨rfl, rfl⟩ | ⟨_, found'⟩
    · exact connected (agreement.connected found member)
    · exact agreement.connected found' member
  · rcases cases_heap found' with ⟨rfl, rfl⟩ | ⟨_, found'⟩
    · rcases agreement.connecting found member with inProgress | announced
      · exact connecting member inProgress
      · exact .inr announced
    · exact agreement.connecting found' member
  · rcases cases_heap found' with ⟨rfl, rfl⟩ | ⟨_, found'⟩
    · exact agreement.unreferenced found (refCount ▸ unheld)
    · exact agreement.unreferenced found' unheld

theorem Agreement.movedToEstablished (agreement : Agreement queue s) (found : s.heap c = some client)
    (connected : client.connected = true) (old : c < s.nextClient) :
    Agreement queue (movedToEstablished c s) where
  threaded := agreement.threaded
  connectInProgress := agreement.connectInProgress
  tcpClientDb := agreement.tcpClientDb
  connectpendingClients := agreement.connectpendingClients.filter _
  allocated d member := by
    rcases List.mem_append.mp member with pending | established
    · exact agreement.allocated d (List.mem_append_left _ (List.mem_of_mem_filter pending))
    · rcases List.mem_append.mp established with established | last
      · exact agreement.allocated d (List.mem_append_right _ established)
      · exact List.mem_singleton.mp last ▸ old
  connected {d left} found' member := by
    rcases List.mem_append.mp member with established | last
    · exact agreement.connected found' established
    · obtain rfl := List.mem_singleton.mp last
      obtain rfl := Option.some.inj (found.symm.trans found')
      exact connected
  connecting found' member := agreement.connecting found' (List.mem_of_mem_filter member)
  unreferenced := agreement.unreferenced

/-- A new active opener is told of when it is connected. -/
theorem Agreement.creates {serverIpAddr : UInt32} {serverPortNo : UInt16} {connect : ConnectResult}
    (agreement : Agreement queue s) (creates : Creates serverIpAddr serverPortNo s connect t) :
    Agreement queue t := by
  have fresh : s.nextClient ∉ s.connectpendingClients :=
    fun member => Nat.lt_irrefl _ (agreement.allocated _ (List.mem_append_left _ member))
  cases creates with
  | retrying =>
    refine agreement.born (retryStarted (newActive serverIpAddr serverPortNo s)) (fun d => ?_) rfl rfl
      (.inr ⟨rfl, rfl⟩) (.inl rfl) (iff_of_false (not_not.mpr rfl) Bool.noConfusion) (iff_of_true rfl rfl)
      fun unheld => absurd unheld (Nat.succ_ne_zero _)
    rw [heap_mapClient, heap_created, heap_created, if_pos rfl, Option.map_some]
    split_ifs <;> rfl
  | @connected portNo _ served =>
    have born : Agreement queue (connectedActive serverIpAddr serverPortNo portNo s) := by
      refine agreement.born (connectedOn portNo (newActive serverIpAddr serverPortNo s))
        (fun d => heap_connectedActive)
        nextClient_connectedActive tcpClientDb_connectedActive (.inl ?_) (.inr ⟨rfl, rfl⟩)
        (iff_of_false (not_not.mpr rfl) Bool.noConfusion)
        (iff_of_false ConnectThread.noConfusion Bool.noConfusion)
        fun unheld => absurd unheld (Nat.succ_ne_zero _)
      change remove s.nextClient (s.connectpendingClients ++ [s.nextClient]) = s.connectpendingClients
      rw [remove, List.filter_append, List.filter_singleton, decide_eq_false (not_not.mpr rfl), cond_false,
        List.append_nil, List.filter_eq_self]
      rintro d member
      exact decide_eq_true fun same => fresh (same ▸ member)
    exact born.retains (retains_served served)

/-- Every action of a message keeps the agreement. -/
theorem Agreement.acted {act : Act} (agreement : Agreement queue s) (allocated : Allocated s)
    (acted : Acted c s act t) : Agreement queue t := by
  cases acted with
  | nothing => exact agreement
  | processNewThreaded _ absent => exact agreement.retains ((retains_added absent).trans retains_threadStarted)
  | processNewMultiplexed _ absent => exact agreement.retains ((retains_added absent).trans retains_listened)
  | deleted deletes => exact agreement.retains (retains_deletes deletes)
  | reconnected deletes creates => exact (agreement.retains (retains_deletes deletes)).creates creates
  | unlistenedThreaded => exact agreement.retains (retains_unlistened.trans retains_threadStarted)
  | threaded => exact agreement.retains retains_threadStarted
  | stoppedMultiplexed => exact agreement.retains (retains_threadStopped.trans retains_listened)
  | multiplexed => exact agreement.retains retains_listened
  | connectSucceeded found _ connected _ served =>
    exact (agreement.movedToEstablished found connected (allocated found)).retains (retains_served served)
  | keyDestroyed => exact agreement.retains retains_unkeyed
  | keyDeleted => exact agreement.retains retains_unkeyed
  | keyUnlistened => exact agreement.retains (retains_unkeyed.trans retains_unlistened)
  | migratedToMultiThreaded => exact agreement.retains (retains_unlistened.trans retains_threadStarted)
  | migratedToMultiplex => exact agreement.retains (retains_threadStopped.trans retains_listened)
  | startedListening => exact agreement.retains retains_listened
  | stoppedListening => exact agreement.retains retains_unlistened

/-- What a step other than `Stop` keeps, as long as the message it processes still counts. -/
theorem agreement_effect {e : Event} (sound : Sound s) (agreement : Agreement s.msgQ s) (effect : Effect s e t)
    (other : e ≠ .stop) : Agreement (s.msgQ ++ t.msgQ) t := by
  have before : Agreement (s.msgQ ++ t.msgQ) s := agreement.mono (List.subset_append_left _ _)
  cases effect with
  | acted performs acted =>
    have popped : Agreement (s.msgQ ++ t.msgQ) (dequeued s e) := by
      cases e <;> exact before.retains (.of_heap rfl rfl rfl rfl rfl)
    have allocated : Allocated (dequeued s e) := by
      cases e <;> exact sound.allocated
    exact popped.acted allocated acted
  | unchanged => exact before
  | toggled => exact before.retains (.of_heap rfl rfl rfl rfl rfl)
  | accepted ipAddr portNo =>
    refine before.born (newPassive ipAddr portNo s) (fun d => heap_accepted) rfl rfl (.inl rfl) (.inl rfl)
      (iff_of_false (not_not.mpr rfl) Bool.noConfusion) (iff_of_false ConnectThread.noConfusion Bool.noConfusion)
      fun _ => ⟨s.createMultiThreaded, ?_⟩
    exact announced_append (List.mem_append_right _ (List.mem_singleton_self _))
  | created creates => exact before.creates creates
  | @retryPosted c client found retrying portNo =>
    have posted : Announced (s.msgQ ++ (retryPosted c portNo s).msgQ) .connectSuccess c :=
      announced_append (List.mem_append_right _ (List.mem_singleton_self _))
    have connected := before.mapClient (f := connectPosted ∘ connectedOn portNo) found ⟨rfl, rfl⟩
      (iff_of_false ConnectThread.noConfusion Bool.noConfusion) (fun _ => rfl) (fun _ _ => .inr posted) rfl
    refine connected.retains (.of_heap (funext fun d => ?_) rfl rfl rfl rfl)
    rw [heap_retryPosted, heap_mapClient]
  | @retryExited c client found posted =>
    have still : client.connectInProgress ≠ true := by
      rw [Ne, ← agreement.connectInProgress found, posted]
      exact ConnectThread.noConfusion
    have exited := before.mapClient (f := connectorStopped) found ⟨rfl, rfl⟩
      (iff_of_false ConnectThread.noConfusion still) id (fun _ => .inl) rfl
    exact exited.retains retains_release
  | requested => exact before.retains (.of_heap rfl rfl rfl rfl rfl)
  | selected => exact before.retains (.of_heap rfl rfl rfl rfl rfl)
  | skipped => exact before.retains (.of_heap rfl rfl rfl rfl rfl)
  | @svcHeard m _ rest _ _ _ _ _ _ _ heard =>
    have scanned : Retains s { s with tcpClientSvcMgr := some (scanning rest m) } := .of_heap rfl rfl rfl rfl rfl
    exact before.retains (scanned.trans (retains_heard heard))
  | svcEnded => exact before.retains (.of_heap rfl rfl rfl rfl rfl)
  | threadHeard _ _ _ heard => exact before.retains (retains_heard heard)
  | threadEnded found receiving => exact before.retains (retains_threadEnded found receiving)
  | svcStopped _ ends => exact before.retains (retains_svcEnds ends)
  | svcStarted => exact before.retains (.of_heap rfl rfl rfl rfl rfl)
  | stopped => exact absurd rfl other

/-- Only the message queue thread takes messages from the queue. -/
theorem effect_queue {e : Event} (effect : Effect s e t) (other : e ≠ .stop)
    (called : ∀ connect, e ≠ .processFront connect) : s.msgQ ⊆ t.msgQ := by
  cases effect with
  | acted _ acted =>
    rw [(framed_acted acted).msgQ, dequeued_other called]
    exact List.Subset.refl _
  | created creates =>
    rw [(framed_creates creates).msgQ]
    exact List.Subset.refl _
  | accepted => exact List.subset_append_left _ _
  | retryPosted => exact List.subset_append_left _ _
  | requested => exact List.subset_append_left _ _
  | svcHeard _ _ _ _ _ heard =>
    rw [heard_msgQ heard]
    exact List.Subset.refl _
  | svcEnded => exact List.subset_append_left _ _
  | threadHeard _ _ _ heard =>
    rw [heard_msgQ heard]
    exact List.Subset.refl _
  | threadEnded => exact List.subset_cons_self _ _
  | svcStopped _ ends =>
    rw [(svcEnds_grows ends).2]
    exact List.Subset.refl _
  | stopped => exact absurd rfl other
  | _ => exact List.Subset.refl _

/-- The success of a connector takes its client off the pending list. -/
theorem connectSuccess_runs {msg : TcpServerMsg} {connect : ConnectResult}
    (posted : msg.code = Request.connectSuccess.code)
    (ran : (TcpServerController.processMsgQMsg msg connect).Runs s u t) :
    msg.data ∉ t.connectpendingClients := by
  have ran := migration_runs posted ⟨by simp, by simp, by simp⟩ ran
  have ran : (TcpServerController.processConnectSuccess msg.data).Runs s u t := by
    have success := processToMultithreaded_other .connectSuccess ⟨by simp, by simp⟩ ran
    simp only [TcpServerController.processThreadedAndSuccess, Request.code, List.mem_singleton,
      reduceCtorEq, runs_bind, runs_when, if_false, if_true] at success
    obtain ⟨_, _, rfl, success⟩ := success
    exact success
  simp only [TcpServerController.processConnectSuccess, runs_bind, runs_deref, runs_assertThat] at ran
  obtain ⟨_, _, ⟨_, rfl⟩, _, _, ⟨_, rfl⟩, _, _, ⟨_, rfl⟩, _, _, ⟨_, rfl⟩, _, _,
      ⟨_, rfl⟩, _, _, ⟨_, rfl⟩, _, _,
    ⟨_, rfl⟩, _, _, moving, serving⟩ := ran
  obtain rfl := moveToEstablished_runs moving
  have retains := retains_served (serveInCreationMode_runs serving)
  intro pending
  have kept : msg.data ∈ remove msg.data s.connectpendingClients := retains.connectpendingClients.subset pending
  rw [← List.count_pos_iff, count_remove, if_pos rfl] at kept
  exact Nat.lt_irrefl 0 kept

/-- A new client is referred to once it has been processed. -/
theorem processNew_referenced {msg : TcpServerMsg} {connect : ConnectResult} {threaded : Bool}
    (posted : msg.code = (Request.processNew threaded).code)
    (ran : (TcpServerController.processMsgQMsg msg connect).Runs s u t) {left : TcpClient}
    (found : t.heap msg.data = some left) : left.refCount ≠ 0 := by
  obtain ⟨client, found', absent, served⟩ := processNew_runs posted ran
  have retains : Retains (added msg.data s) t := by
    split_ifs at served
    · obtain ⟨_, _, rfl⟩ := served
      exact retains_threadStarted
    · obtain ⟨_, _, _, _, rfl⟩ := served
      exact retains_listened
  obtain ⟨before, found', evolves⟩ := retains.clients found
  intro unheld
  rw [heap_added_self ‹s.heap msg.data = some client›, Option.some.injEq] at found'
  subst found'
  exact absurd (evolves.refCount unheld) (Nat.succ_ne_zero _)

/-- A message that has been processed counts no more. -/
theorem Agreement.processed {msg : TcpServerMsg} (agreement : Agreement (msg :: queue) s)
    (success : msg.code = Request.connectSuccess.code → msg.data ∉ s.connectpendingClients)
    (new : ∀ threaded, msg.code = (Request.processNew threaded).code → ∀ client, s.heap msg.data =
      some client → client.refCount ≠ 0) : Agreement queue s :=
  { agreement with
    connecting := fun {d left} found pending => by
      rcases agreement.connecting found pending with inProgress | ⟨other, queued, code, data⟩
      · exact .inl inProgress
      · rcases List.mem_cons.mp queued with rfl | later
        · exact absurd pending (data ▸ success code)
        · exact .inr ⟨other, later, code, data⟩
    unreferenced := fun {d left} found unheld => by
      obtain ⟨threaded, other, queued, code, data⟩ := agreement.unreferenced found unheld
      rcases List.mem_cons.mp queued with rfl | later
      · exact absurd unheld (new threaded code left (data.symm ▸ found))
      · exact ⟨threaded, other, later, code, data⟩ }

/-- A stopped server is deleted. -/
theorem stop_deleted (ran : TcpServerController.stop.Runs s u t) : t.deleted = true := by
  rw [TcpServerController.stop] at ran
  simp only [runs_bind, runs_update] at ran
  obtain ⟨_, _, _, rfl⟩ := ran
  rfl

/-- Once the server is deleted, a connector may still exit. -/
theorem step_deleted {e : Event} (step : TcpServerController.Step s e t) (going : t.deleted = false) :
    s.deleted = false := by
  obtain ⟨enabled, ran⟩ := step
  cases e with
  | connectRetryExit c =>
    obtain ⟨_, _, _, rfl⟩ := connectRetryExit_runs ran
    exact going
  | accept | processFront | connectRetryPost | select | visit | clientThread | requestMigration => exact enabled.1
  | _ => exact enabled

/-- Every step of a server that goes on keeps the agreement with its queue. -/
theorem agreement_step {e : Event} (sound : Sound s) (agreement : Agreement s.msgQ s)
    (step : TcpServerController.Step s e t) (going : t.deleted = false) : Agreement t.msgQ t := by
  have other : e ≠ .stop := by
    rintro rfl
    exact absurd (going.symm.trans (stop_deleted step.2)) Bool.noConfusion
  have effect := step_effect sound.requests step
  have agrees := agreement_effect sound agreement effect other
  by_cases processes : ∃ connect, e = .processFront connect
  · obtain ⟨connect, rfl⟩ := processes
    obtain ⟨msg, rest, front, ran⟩ := processFront_runs step.1.2 step.2
    obtain ⟨request, posted⟩ := sound.requests msg (front ▸ List.mem_cons_self)
    have queue : t.msgQ = rest := (framed_acted (processMsgQMsg_runs posted ran)).msgQ
    have whole : Agreement (msg :: rest) t := by
      apply agrees.mono
      rw [front, queue]
      exact List.append_subset.mpr ⟨List.Subset.refl _, List.subset_cons_self _ _⟩
    rw [queue]
    exact whole.processed (fun success => connectSuccess_runs success ran)
      fun threaded new client found => processNew_referenced new ran found
  · have kept := effect_queue effect other fun connect same => processes ⟨connect, same⟩
    exact agrees.mono (List.append_subset.mpr ⟨kept, List.Subset.refl _⟩)

/-- In every state of a running server the flags, the threads, the lists and the queue agree. -/
theorem run_agreement {ipAddr : UInt32} {portNo : UInt16} {es : List Event}
    (path : Path TcpServerController.Step (.started ipAddr portNo) es t) :
    Sound t ∧ (t.deleted = false → Agreement t.msgQ t) := by
  refine path.invariant (motive := fun s => Sound s ∧ (s.deleted = false → Agreement s.msgQ s)) ?_
    ⟨started_sound ipAddr portNo, fun _ => ?_⟩
  · rintro s e t step ⟨sound, agrees⟩
    exact ⟨effect_sound sound (step_effect sound.requests step),
      fun going => agreement_step sound (agrees (step_deleted step going)) step going⟩
  · exact ⟨nofun, nofun, List.nodup_nil, List.nodup_nil, nofun, nofun, nofun, nofun⟩

end

end TcpServerLib.Refinement
