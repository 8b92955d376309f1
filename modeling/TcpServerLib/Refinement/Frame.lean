import TcpServerLib.Refinement.Effects

/-! # What the steps of a server leave alone

A step allocates pointers in order and revives no client. What is done about one client touches
neither the message queue nor the settings of the server.
-/

namespace TcpServerLib.Refinement

open Machine Model Server

/-- A client that is there was there before, or has been created since; one that has no reference
has not had any. -/
structure Grows (s t : TcpServerController) : Prop where
  nextClient : s.nextClient ≤ t.nextClient
  heap : ∀ {d client}, t.heap d = some client →
    (∃ before, s.heap d = some before ∧ (client.refCount = 0 → before.refCount = 0)) ∨
      (s.nextClient ≤ d ∧ d < t.nextClient)
  clientConnected : t.clientConnected = s.clientConnected
  clientDisconnected : t.clientDisconnected = s.clientDisconnected

/-- Memory grows, and messages, mode and flags are as they were. -/
structure Framed (s t : TcpServerController) : Prop extends Grows s t where
  msgQ : t.msgQ = s.msgQ
  notListeningClients : t.notListeningClients = s.notListeningClients
  createMultiThreaded : t.createMultiThreaded = s.createMultiThreaded
  svcMgr : s.tcpClientSvcMgr = none → t.tcpClientSvcMgr = none

/-- Pointers are handed out in order. -/
def Allocated (s : TcpServerController) : Prop :=
  ∀ {d client}, s.heap d = some client → d < s.nextClient

/-- The invariant that every other one rests on. -/
structure Sound (s : TcpServerController) : Prop where
  requests : Requests s
  svcMgr : s.notListeningClients = true → s.tcpClientSvcMgr = none
  allocated : Allocated s

section

variable {s t middle : TcpServerController} {c d : ClientRef} {client : TcpClient}

theorem Grows.refl (s : TcpServerController) : Grows s s :=
  ⟨Nat.le_refl _, fun found => .inl ⟨_, found, id⟩, rfl, rfl⟩

theorem Grows.trans (first : Grows s middle) (second : Grows middle t) : Grows s t where
  nextClient := Nat.le_trans first.nextClient second.nextClient
  heap found := by
    rcases second.heap found with ⟨before, found', unheld⟩ | ⟨new, old⟩
    · rcases first.heap found' with ⟨first, found, unheld'⟩ | ⟨new, old⟩
      · exact .inl ⟨first, found, unheld' ∘ unheld⟩
      · exact .inr ⟨new, Nat.lt_of_lt_of_le old second.nextClient⟩
    · exact .inr ⟨Nat.le_trans first.nextClient new, old⟩
  clientConnected := second.clientConnected.trans first.clientConnected
  clientDisconnected := second.clientDisconnected.trans first.clientDisconnected

/-- Whatever grows keeps its references allocated. -/
theorem Grows.allocated (grows : Grows s t) (allocated : Allocated s) : Allocated t := by
  intro d client found
  rcases grows.heap found with ⟨_, before, _⟩ | ⟨_, new⟩
  · exact Nat.lt_of_lt_of_le (allocated before) grows.nextClient
  · exact new

/-- The next reference is still free. -/
theorem Allocated.fresh (allocated : Allocated s) : s.heap s.nextClient = none := by
  cases found : s.heap s.nextClient with
  | none => rfl
  | some client => exact absurd (allocated found) (Nat.lt_irrefl _)

theorem Framed.refl (s : TcpServerController) : Framed s s :=
  ⟨Grows.refl s, rfl, rfl, rfl, id⟩

theorem Framed.trans (first : Framed s middle) (second : Framed middle t) : Framed s t :=
  ⟨first.toGrows.trans second.toGrows, second.msgQ.trans first.msgQ,
    second.notListeningClients.trans first.notListeningClients,
    second.createMultiThreaded.trans first.createMultiThreaded, second.svcMgr ∘ first.svcMgr⟩

/-- A state with the same heap and settings. -/
theorem Framed.of_heap (heap : t.heap = s.heap) (nextClient : t.nextClient = s.nextClient)
    (clientConnected : t.clientConnected = s.clientConnected)
    (clientDisconnected : t.clientDisconnected = s.clientDisconnected) (msgQ : t.msgQ = s.msgQ)
    (notListeningClients : t.notListeningClients = s.notListeningClients)
    (createMultiThreaded : t.createMultiThreaded = s.createMultiThreaded)
    (svcMgr : s.tcpClientSvcMgr = none → t.tcpClientSvcMgr = none) : Framed s t :=
  ⟨⟨Nat.le_of_eq nextClient.symm, fun found => .inl ⟨_, heap ▸ found, id⟩, clientConnected,
    clientDisconnected⟩, msgQ, notListeningClients, createMultiThreaded, svcMgr⟩

/-- A write to one client is framed unless it makes a held client unheld. -/
theorem framed_mapClient (f : TcpClient → TcpClient)
    (unheld : ∀ {client}, (f client).refCount = 0 → client.refCount = 0) : Framed s (s.mapClient c f) := by
  refine ⟨⟨Nat.le_refl _, fun {d client} found => ?_, rfl, rfl⟩, rfl, rfl, rfl, id⟩
  rw [heap_mapClient] at found
  split_ifs at found with same
  · obtain ⟨before, found', rfl⟩ := Option.map_eq_some_iff.mp found
    exact .inl ⟨before, same ▸ found', unheld⟩
  · exact .inl ⟨client, found, id⟩

/-- Giving a reference up is framed. -/
theorem framed_release : Framed s (release c s) := by
  refine ⟨⟨Nat.le_refl _, fun {d client} found => ?_, rfl, rfl⟩, rfl, rfl, rfl, id⟩
  rw [heap_release] at found
  split_ifs at found with same
  · obtain ⟨before, found', kept⟩ := Option.bind_eq_some_iff.mp found
    obtain ⟨several, rfl⟩ := drop_eq_some kept
    exact .inl ⟨before, same ▸ found', fun unheld => by dsimp only at unheld; omega⟩
  · exact .inl ⟨client, found, id⟩

theorem framed_addRefs (list : List ClientRef) : Framed s (addRefs list s) := by
  refine ⟨⟨Nat.le_refl _, fun {d client} found => ?_, rfl, rfl⟩, rfl, rfl, rfl, id⟩
  obtain ⟨before, found', rfl⟩ := Option.map_eq_some_iff.mp found
  exact .inl ⟨before, found', Nat.eq_zero_of_add_eq_zero_right⟩

theorem framed_threadStarted : Framed s (s.mapClient c threadStarted) :=
  framed_mapClient threadStarted nofun

theorem framed_listened {m : TcpClientServiceManager} (present : s.tcpClientSvcMgr = some m) :
    Framed s (listened c m s) := by
  have relisted : Framed (s.mapClient c listening)
      { s.mapClient c listening with tcpClientSvcMgr := some (relisted s (m.tcpClientDb ++ [c]) m) } :=
    .of_heap rfl rfl rfl rfl rfl rfl rfl fun absent => absurd (present.symm.trans absent) (by simp)
  exact (framed_mapClient listening id).trans (relisted.trans (framed_addRefs (c :: copied s)))

theorem framed_unlistened {m : TcpClientServiceManager} (present : s.tcpClientSvcMgr = some m) :
    Framed s (unlistened c m s) := by
  have relisted : Framed (release c (s.mapClient c notListening))
      { release c (s.mapClient c notListening) with
        tcpClientSvcMgr := some (relisted s (remove c m.tcpClientDb) m) } :=
    .of_heap rfl rfl rfl rfl rfl rfl rfl fun absent => absurd (present.symm.trans absent) (by simp)
  exact (framed_mapClient notListening id).trans
    (framed_release.trans (relisted.trans (framed_addRefs (copied s))))

theorem framed_db (list : List ClientRef) : Framed s { s with tcpClientDb := list } :=
  .of_heap rfl rfl rfl rfl rfl rfl rfl id

theorem framed_added : Framed s (added c s) :=
  (framed_db (s.tcpClientDb ++ [c])).trans (framed_addRefs [c])

theorem framed_unkeyed : Framed s (unkeyed c s) :=
  (framed_db (remove c s.tcpClientDb)).trans framed_release

theorem framed_movedToEstablished : Framed s (movedToEstablished c s) :=
  .of_heap rfl rfl rfl rfl rfl rfl rfl id

theorem framed_threadStopped : Framed s (release c (s.mapClient c threadStopped)) :=
  (framed_mapClient threadStopped id).trans framed_release

theorem framed_forgotten {connected : Bool} : Framed s (forgotten c connected s) :=
  .of_heap rfl rfl rfl rfl rfl rfl rfl id

theorem framed_connectNotified : Framed s (connectNotified c s) :=
  .of_heap rfl rfl rfl rfl rfl rfl rfl id

/-- Serving a client is framed. -/
theorem framed_served (served : Served c s t) : Framed s t := by
  rcases served with ⟨_, _, _, _, rfl⟩ | ⟨_, m, present, _, _, rfl⟩
  · exact framed_threadStarted
  · exact framed_listened present

/-- Deleting a client is framed. -/
theorem framed_deletes {s₁ s₂ s₃ s₄ : TcpServerController}
    (deletes : Deletes c client s s₁ s₂ s₃ s₄ t) :
    Framed s t :=
  deletes.preserves (framed_addRefs [c]) (fun framed => framed.trans framed_unkeyed)
    (fun _ present framed => framed.trans (framed_unlistened present))
    (fun framed => framed.trans framed_threadStopped)
    (fun framed => framed.trans framed_forgotten) fun framed => framed.trans framed_release

theorem framed_created : Framed s (created client s) := by
  refine ⟨⟨Nat.le_succ _, fun {d left} found => ?_, rfl, rfl⟩, rfl, rfl, rfl, id⟩
  rcases eq_or_ne d s.nextClient with rfl | other
  · exact .inr ⟨Nat.le_refl _, Nat.lt_succ_self _⟩
  · have kept : (created client s).heap d = s.heap d := Function.update_of_ne other ..
    exact .inl ⟨left, kept ▸ found, id⟩

/-- Creating an active opener is framed. -/
theorem framed_creates {serverIpAddr : UInt32} {serverPortNo : UInt16} {connect : ConnectResult}
    (creates : Creates serverIpAddr serverPortNo s connect t) : Framed s t := by
  cases creates with
  | retrying => exact framed_created.trans (framed_mapClient retryStarted nofun)
  | connected served =>
    exact framed_created.trans ((framed_mapClient (connectedOn _) id).trans
      (framed_connectNotified.trans (framed_movedToEstablished.trans (framed_served served))))

/-- Every action of a message is framed. -/
theorem framed_acted {act : Act} (acted : Acted c s act t) : Framed s t := by
  cases acted with
  | nothing => exact .refl s
  | processNewThreaded => exact framed_added.trans framed_threadStarted
  | processNewMultiplexed _ _ _ present => exact framed_added.trans (framed_listened present)
  | deleted deletes => exact framed_deletes deletes
  | reconnected deletes creates => exact (framed_deletes deletes).trans (framed_creates creates)
  | unlistenedThreaded _ _ _ _ _ present => exact (framed_unlistened present).trans framed_threadStarted
  | threaded => exact framed_threadStarted
  | stoppedMultiplexed _ _ _ _ _ present => exact framed_threadStopped.trans (framed_listened present)
  | multiplexed _ _ _ present => exact framed_listened present
  | connectSucceeded _ _ _ _ served => exact framed_movedToEstablished.trans (framed_served served)
  | keyDestroyed => exact framed_unkeyed
  | keyDeleted => exact framed_unkeyed
  | keyUnlistened _ _ _ present => exact framed_unkeyed.trans (framed_unlistened present)
  | migratedToMultiThreaded _ _ _ present => exact (framed_unlistened present).trans framed_threadStarted
  | migratedToMultiplex _ _ _ present => exact framed_threadStopped.trans (framed_listened present)
  | startedListening _ present => exact framed_listened present
  | stoppedListening _ _ present => exact framed_unlistened present

theorem framed_svcPurges (purges : SvcPurges c s t) : Framed s t := by
  obtain ⟨_, rfl⟩ := purges
  have unlisted : Framed s (s.mapSvcMgr fun m => { m with tcpClientDb := remove c m.tcpClientDb }) :=
    .of_heap rfl rfl rfl rfl rfl rfl rfl
      fun absent => by rw [TcpServerController.mapSvcMgr, absent, Option.map_none]
  exact unlisted.trans ((framed_mapClient notListening id).trans framed_release)

theorem framed_dbPurges (purges : DbPurges c s t) : Framed s t := by
  obtain ⟨client, _, rfl⟩ := purges
  split_ifs
  · exact framed_unkeyed
  · exact framed_threadStopped.trans framed_unkeyed

theorem framed_pendingStops (stops : PendingStops c s t) : Framed s t := by
  obtain ⟨_, rest, _, _, _, rfl⟩ := stops
  have popped {s : TcpServerController} : Framed s { s with connectpendingClients := rest } :=
    .of_heap rfl rfl rfl rfl rfl rfl rfl id
  exact (framed_mapClient connectorJoined id).trans (framed_release.trans (popped.trans framed_release))

theorem framed_establishedStops (stops : EstablishedStops c s t) : Framed s t := by
  obtain ⟨_, rest, _, _, _, rfl⟩ := stops
  have popped {s : TcpServerController} : Framed s { s with establishedClient := rest } :=
    .of_heap rfl rfl rfl rfl rfl rfl rfl id
  split_ifs
  · exact framed_threadStopped.trans (popped.trans framed_release)
  · exact popped.trans framed_release

/-- A loop over a list is framed when each of its turns is. -/
theorem framed_drains {visits : ClientRef → TcpServerController → TcpServerController → Prop}
    {rest : ClientRef → List ClientRef → List ClientRef} {list : List ClientRef}
    (drains : Drains visits rest list s t)
    (framed : ∀ {c s t}, visits c s t → Framed s t) : Framed s t :=
  drains.invariant (motive := fun _ middle => Framed s middle)
    (fun visited before => before.trans (framed visited)) (.refl s)

/-- The settings change at the end of the service. -/
theorem svcEnds_grows (ends : SvcEnds s t) : Grows s t ∧ t.msgQ = s.msgQ := by
  obtain ⟨_, purges, _, _⟩ := ends
  have purged := framed_drains purges framed_svcPurges
  exact ⟨⟨purged.nextClient, purged.heap, purged.clientConnected, purged.clientDisconnected⟩, purged.msgQ⟩

/-- Stopping the server grows the heap and ends the service manager. -/
theorem stops_grows (stops : Stops s t) : Grows s t ∧ t.tcpClientSvcMgr = none := by
  obtain @⟨s₁, s₂, s₃, s₄, svc, db, _, pending, established⟩ := stops
  have served : Grows s s₁ ∧ s₁.tcpClientSvcMgr = none := by
    split_ifs at svc with serving
    · refine ⟨(svcEnds_grows svc).1, ?_⟩
      cases svc
      rfl
    · rw [svc]
      exact ⟨.refl s, Option.not_isSome_iff_eq_none.mp serving⟩
  have stopped : Framed s₁ s₄ := (framed_drains db framed_dbPurges).trans
    ((framed_drains pending framed_pendingStops).trans (framed_drains established framed_establishedStops))
  have ended := served.1.trans stopped.toGrows
  exact ⟨⟨ended.nextClient, ended.heap, ended.clientConnected, ended.clientDisconnected⟩,
    stopped.svcMgr served.2⟩

theorem grows_of_heap (heap : t.heap = s.heap) (nextClient : t.nextClient = s.nextClient)
    (clientConnected : t.clientConnected = s.clientConnected)
    (clientDisconnected : t.clientDisconnected = s.clientDisconnected) : Grows s t :=
  ⟨Nat.le_of_eq nextClient.symm, fun found => .inl ⟨_, heap ▸ found, id⟩, clientConnected,
    clientDisconnected⟩

/-- Hearing a client grows the heap. -/
theorem heard_grows (heard : Heard c s t) : Grows s t := by
  obtain ⟨msgd, bytesRecvd, _⟩ := heard
  have received := framed_mapClient (s := s) (c := c) (received msgd bytesRecvd) id
  exact ⟨received.nextClient, received.heap, rfl, rfl⟩

theorem accepted_grows {ipAddr : UInt32} {portNo : UInt16} : Grows s (accepted ipAddr portNo s) := by
  have admits : Grows s (admitted ipAddr portNo s) := by
    refine ⟨Nat.le_succ _, fun {d left} found => ?_, rfl, rfl⟩
    rcases eq_or_ne d s.nextClient with rfl | other
    · exact .inr ⟨Nat.le_refl _, Nat.lt_succ_self _⟩
    · exact .inl ⟨left, (Function.update_of_ne other ..).symm.trans found, id⟩
  exact admits.trans framed_connectNotified.toGrows

theorem retryPosted_grows {portNo : UInt16} : Grows s (retryPosted c portNo s) := by
  have posted := ((framed_mapClient (connectedOn portNo) id).trans framed_connectNotified).trans
    (framed_mapClient (s := connectNotified c (s.mapClient c (connectedOn portNo))) (c := c) connectPosted id)
  exact ⟨posted.nextClient, posted.heap, posted.clientConnected, posted.clientDisconnected⟩

/-- What every step keeps. -/
theorem effect_grows {e : Event} (effect : Effect s e t) : Grows s t := by
  cases effect with
  | acted performs acted =>
    have popped : Grows s (dequeued s e) := by
      cases e <;> exact grows_of_heap rfl rfl rfl rfl
    exact popped.trans (framed_acted acted).toGrows
  | unchanged => exact .refl s
  | toggled => exact grows_of_heap rfl rfl rfl rfl
  | accepted => exact accepted_grows
  | created creates => exact (framed_creates creates).toGrows
  | retryPosted => exact retryPosted_grows
  | retryExited => exact ((framed_mapClient connectorStopped id).trans framed_release).toGrows
  | requested => exact grows_of_heap rfl rfl rfl rfl
  | selected => exact grows_of_heap rfl rfl rfl rfl
  | skipped => exact grows_of_heap rfl rfl rfl rfl
  | @svcHeard m _ rest _ _ _ _ _ _ _ heard =>
    have scanned : Grows s { s with tcpClientSvcMgr := some (scanning rest m) } := grows_of_heap rfl rfl rfl rfl
    exact scanned.trans (heard_grows heard)
  | svcEnded => exact grows_of_heap rfl rfl rfl rfl
  | threadHeard _ _ _ heard => exact heard_grows heard
  | @threadEnded c _ client =>
    have waits := (framed_mapClient (s := s) (c := c) waiting id).toGrows
    exact ⟨waits.nextClient, waits.heap, rfl, rfl⟩
  | svcStopped _ ends => exact (svcEnds_grows ends).1
  | svcStarted => exact grows_of_heap rfl rfl rfl rfl
  | stopped notAccepting acceptor stops =>
    have toggles : Grows s (toggled notAccepting acceptor s.createMultiThreaded s) :=
      grows_of_heap rfl rfl rfl rfl
    exact toggles.trans (stops_grows stops).1

/-- Only the message queue thread takes a message out. -/
theorem dequeued_other {e : Event} (other : ∀ connect, e ≠ .processFront connect) : dequeued s e = s := by
  cases e with
  | processFront connect => exact absurd rfl (other connect)
  | _ => rfl

/-- Hearing a client posts nothing by itself. -/
theorem heard_msgQ (heard : Heard c s t) : t.msgQ = s.msgQ := by
  cases heard
  rfl

/-- A message that has just been posted. -/
theorem mem_posted {request : Request} {waiter : Option ThreadId} {msg : TcpServerMsg} {msgQ : List TcpServerMsg}
    (alive : ∃ client, t.heap c = some client) (queued : msg ∈ msgQ ++ [⟨request.code, c, waiter⟩]) :
    msg ∈ msgQ ∨ ((∃ request : Request, msg.code = request.code) ∧ ∃ client, t.heap msg.data =
      some client) := by
  rcases List.mem_append.mp queued with before | posted
  · exact .inl before
  · obtain rfl := List.mem_singleton.mp posted
    exact .inr ⟨⟨request, rfl⟩, alive⟩

/-- Every message of the queue was there before, or is a request about a client that is there now. -/
theorem effect_messages {e : Event} (effect : Effect s e t) {msg : TcpServerMsg} (queued : msg ∈ t.msgQ) :
    msg ∈ (dequeued s e).msgQ ∨
      ((∃ request : Request, msg.code = request.code) ∧ ∃ client, t.heap msg.data = some client) := by
  cases effect with
  | acted performs acted =>
    rw [(framed_acted acted).msgQ] at queued
    exact .inl queued
  | unchanged other =>
    rw [dequeued_other other]
    exact .inl queued
  | toggled other =>
    rw [dequeued_other other]
    exact .inl queued
  | accepted ipAddr portNo =>
    rw [accepted, framed_connectNotified.msgQ] at queued
    exact mem_posted ⟨newPassive ipAddr portNo s, by rw [heap_accepted, if_pos rfl]⟩ queued
  | created creates =>
    rw [(framed_creates creates).msgQ] at queued
    exact .inl queued
  | retryPosted found =>
    exact mem_posted ⟨_, by rw [heap_retryPosted, if_pos rfl, found, Option.map_some]⟩ queued
  | retryExited => exact .inl queued
  | requested toThreaded found => exact mem_posted ⟨_, found⟩ queued
  | selected => exact .inl queued
  | skipped => exact .inl queued
  | svcHeard _ _ _ _ _ heard =>
    rw [heard_msgQ heard] at queued
    exact .inl queued
  | svcEnded _ _ _ _ _ found => exact mem_posted ⟨_, found⟩ queued
  | threadHeard _ _ _ heard =>
    rw [heard_msgQ heard] at queued
    exact .inl queued
  | threadEnded found =>
    rcases List.mem_cons.mp queued with rfl | before
    · exact .inr ⟨⟨_, rfl⟩, _, by rw [heap_threadEnded, if_pos rfl, found, Option.map_some]⟩
    · exact .inl before
  | svcStopped _ ends =>
    rw [(svcEnds_grows ends).2] at queued
    exact .inl queued
  | svcStarted => exact .inl queued
  | stopped _ _ stops =>
    cases stops
    exact absurd queued List.not_mem_nil

theorem svcMgr_of_eq (sound : Sound s) (deaf : t.notListeningClients = s.notListeningClients)
    (svcMgr : s.tcpClientSvcMgr = none → t.tcpClientSvcMgr = none) (still : t.notListeningClients = true) :
    t.tcpClientSvcMgr = none :=
  svcMgr (sound.svcMgr (deaf.symm.trans still))

/-- There is no service manager while the server does not listen. -/
theorem effect_svcMgr {e : Event} (sound : Sound s) (effect : Effect s e t)
    (deaf : t.notListeningClients = true) :
    t.tcpClientSvcMgr = none := by
  have nothing {m : TcpClientServiceManager} {other : TcpServerController} (present : s.tcpClientSvcMgr = some m)
      (absent : s.tcpClientSvcMgr = none) : other.tcpClientSvcMgr = none :=
    absurd (present.symm.trans absent) (by simp)
  cases effect with
  | acted performs acted =>
    have framed := framed_acted acted
    have popped : Sound (dequeued s e) := by
      cases e with
      | processFront =>
        exact ⟨fun msg queued => sound.requests msg (List.mem_of_mem_tail queued), sound.svcMgr,
          sound.allocated⟩
      | _ => exact sound
    exact svcMgr_of_eq popped framed.notListeningClients framed.svcMgr deaf
  | created creates =>
    have framed := framed_creates creates
    exact svcMgr_of_eq sound framed.notListeningClients framed.svcMgr deaf
  | selected present => exact svcMgr_of_eq sound rfl (nothing present) deaf
  | skipped present => exact svcMgr_of_eq sound rfl (nothing present) deaf
  | svcHeard present _ _ _ _ heard =>
    cases heard
    exact svcMgr_of_eq sound rfl (nothing present) deaf
  | svcEnded present => exact svcMgr_of_eq sound rfl (nothing present) deaf
  | threadHeard _ _ _ heard =>
    cases heard
    exact sound.svcMgr deaf
  | svcStopped _ ends =>
    cases ends
    rfl
  | svcStarted => exact absurd deaf (by simp)
  | stopped _ _ stops => exact (stops_grows stops).2
  | _ => exact sound.svcMgr deaf

/-- A server that was just started is sound. -/
theorem started_sound (ipAddr : UInt32) (portNo : UInt16) : Sound (.started ipAddr portNo) :=
  ⟨fun _ queued => absurd queued List.not_mem_nil, nofun, nofun⟩

/-- Every event keeps the server sound. -/
theorem effect_sound {e : Event} (sound : Sound s) (effect : Effect s e t) : Sound t where
  requests msg queued := by
    rcases effect_messages effect queued with before | ⟨request, _⟩
    · apply sound.requests
      cases e with
      | processFront => exact List.mem_of_mem_tail before
      | _ => exact before
    · exact request
  svcMgr := effect_svcMgr sound effect
  allocated := (effect_grows effect).allocated sound.allocated

/-- The rule for runs of a server. An invariant need only follow the effects. -/
theorem run_invariant {guard : TcpServerController → Event → Prop} {es : List Event} {ipAddr : UInt32}
    {portNo : UInt16} {Inv : TcpServerController → Prop}
    (path : Path (Guarded TcpServerController.Step guard) (.started ipAddr portNo) es t)
    (preserved : ∀ {s e t}, Sound s → guard s e → Effect s e t → Inv s → Inv t)
    (initially : Inv (.started ipAddr portNo)) : Sound t ∧ Inv t := by
  refine path.invariant (motive := fun s => Sound s ∧ Inv s) ?_ ⟨started_sound ipAddr portNo, initially⟩
  rintro s e t ⟨guarded, step⟩ ⟨sound, inv⟩
  have effect := step_effect sound.requests step
  exact ⟨effect_sound sound effect, preserved sound guarded effect inv⟩

end

end TcpServerLib.Refinement
