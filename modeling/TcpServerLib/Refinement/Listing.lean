import TcpServerLib.Refinement.Frame

/-! # The list of the service manager

A client that is flagged as multiplexed is in the list of the service manager, in every run. The
converse does not hold: a start of the service thread puts clients into the list and leaves their
flags alone.
-/

namespace TcpServerLib.Refinement

open Machine Model Server

/-- A client that is flagged is in the list of the service manager. -/
structure Listing (s : TcpServerController) : Prop where
  listed : ∀ {c client}, s.heap c = some client → client.multiplexListen = true → c ∈ svcList s

section

variable {s t : TcpServerController} {c : ClientRef} {client : TcpClient} {m : TcpClientServiceManager}

/-- No flag is set, and nothing leaves the list. -/
theorem Listing.of_clients (listing : Listing s) (list : svcList t = svcList s)
    (heap : ∀ {d client}, t.heap d = some client → client.multiplexListen = true →
      ∃ before, s.heap d = some before ∧ before.multiplexListen = true) : Listing t := by
  constructor
  intro d client found flagged
  obtain ⟨before, found', flagged'⟩ := heap found flagged
  rw [list]
  exact listing.listed found' flagged'

/-- Only the list and the clients matter. -/
theorem Listing.of_heap (listing : Listing s) (list : svcList t = svcList s) (heap : t.heap = s.heap) :
    Listing t :=
  listing.of_clients list fun found flagged => ⟨_, heap ▸ found, flagged⟩

/-- A client may lose the flag. -/
theorem listing_mapClient (listing : Listing s) {f : TcpClient → TcpClient}
    (kept : ∀ client, (f client).multiplexListen = true → client.multiplexListen = true) :
    Listing (s.mapClient c f) := by
  refine Listing.of_clients listing rfl fun {d client} found flagged => ?_
  rw [heap_mapClient] at found
  split_ifs at found with same
  · obtain ⟨before, found', rfl⟩ := Option.map_eq_some_iff.mp found
    exact ⟨before, same ▸ found', kept before flagged⟩
  · exact ⟨client, found, flagged⟩

/-- One that is destroyed is not flagged any more. -/
theorem listing_release (listing : Listing s) : Listing (release c s) := by
  refine Listing.of_clients listing rfl fun {d client} found flagged => ?_
  rw [heap_release] at found
  split_ifs at found with same
  · obtain ⟨before, found', kept⟩ := Option.bind_eq_some_iff.mp found
    obtain ⟨_, rfl⟩ := drop_eq_some kept
    exact ⟨before, same ▸ found', flagged⟩
  · exact ⟨client, found, flagged⟩

theorem listing_addRefs (listing : Listing s) (list : List ClientRef) : Listing (addRefs list s) := by
  refine Listing.of_clients listing rfl fun {d client} found flagged => ?_
  obtain ⟨before, found', rfl⟩ := Option.map_eq_some_iff.mp found
  exact ⟨before, found', flagged⟩

/-- The thread of a client is stopped. -/
theorem listing_threadStopped (listing : Listing s) : Listing (release c (s.mapClient c threadStopped)) :=
  listing_release (listing_mapClient listing fun _ => id)

theorem listing_unkeyed (listing : Listing s) : Listing (unkeyed c s) :=
  listing_release (Listing.of_heap listing rfl rfl)

/-- The database is another list. -/
theorem listing_db (listing : Listing s) (list : List ClientRef) : Listing { s with tcpClientDb := list } :=
  listing.of_heap rfl rfl

theorem listing_added (listing : Listing s) : Listing (added c s) :=
  listing_addRefs (listing_db listing (s.tcpClientDb ++ [c])) [c]

/-- The restart keeps the clients that are listed. -/
theorem mem_relisted_db (list : List ClientRef) {d : ClientRef} (member : d ∈ list) :
    d ∈ (relisted s list m).tcpClientDb := by
  rw [relisted_db]
  exact List.mem_append_left _ member

/-- A client is flagged when it is put into the list. -/
theorem listing_listened (listing : Listing s) (present : s.tcpClientSvcMgr = some m) :
    Listing (listened c m s) := by
  constructor
  intro d client found flagged
  apply mem_relisted_db
  rw [heap_listened] at found
  split_ifs at found with same
  · exact List.mem_append_right _ (List.mem_singleton.mpr same)
  · obtain ⟨before, found', rfl⟩ := Option.map_eq_some_iff.mp found
    have member := listing.listed found' flagged
    rw [svcList_some present] at member
    exact List.mem_append_left _ member

/-- A client that leaves the list has its flag cleared first. -/
theorem listing_unlisted (listing : Listing s) (list : ∀ {d}, d ∈ svcList s → d ≠ c → d ∈ svcList t)
    (heap : t.heap = (s.mapClient c notListening).heap) : Listing t := by
  constructor
  intro d client found flagged
  rw [heap, heap_mapClient] at found
  split_ifs at found with same
  · obtain ⟨_, _, rfl⟩ := Option.map_eq_some_iff.mp found
    cases flagged
  · exact list (listing.listed found flagged) same

/-- Only the client itself goes. -/
theorem mem_remove {list : List ClientRef} {d : ClientRef} (member : d ∈ list) (other : d ≠ c) :
    d ∈ remove c list :=
  List.mem_filter.mpr ⟨member, decide_eq_true other⟩

/-- A client loses the flag when it is taken out of the list. -/
theorem listing_unlistened (listing : Listing s) (present : s.tcpClientSvcMgr = some m) :
    Listing (unlistened c m s) := by
  have unlisted : Listing { s.mapClient c notListening with
      tcpClientSvcMgr := some (relisted s (remove c m.tcpClientDb) m) } := by
    refine listing_unlisted listing (fun {d} member other => ?_) rfl
    rw [svcList_some present] at member
    exact mem_relisted_db _ (mem_remove member other)
  exact listing_addRefs (listing_release unlisted) (copied s)

theorem listing_served (listing : Listing s) (served : Served c s t) : Listing t := by
  rcases served with ⟨_, _, _, _, rfl⟩ | ⟨_, m, present, _, _, rfl⟩
  · exact listing_mapClient listing fun _ => id
  · exact listing_listened listing present

/-- A deletion takes the client out of the list before it goes. -/
theorem listing_deletes {s₁ s₂ s₃ s₄ : TcpServerController} (listing : Listing s)
    (deletes : Deletes c client s s₁ s₂ s₃ s₄ t) : Listing t :=
  deletes.preserves (listing_addRefs listing [c]) listing_unkeyed
    (fun _ present unlisting => listing_unlistened unlisting present) listing_threadStopped
    (fun {_ _} forgetting => Listing.of_heap forgetting rfl rfl) listing_release

/-- A new client is not flagged. -/
theorem listing_created (listing : Listing s) (deaf : client.multiplexListen = false) :
    Listing (created client s) := by
  refine Listing.of_clients listing rfl fun {d left} found flagged => ?_
  rw [heap_created] at found
  split_ifs at found
  · cases found
    exact absurd (deaf.symm.trans flagged) Bool.false_ne_true
  · exact ⟨left, found, flagged⟩

/-- A client that is connected at once is served. -/
theorem listing_creates {serverIpAddr : UInt32} {serverPortNo : UInt16} {connect : ConnectResult}
    (listing : Listing s)
    (creates : Creates serverIpAddr serverPortNo s connect t) : Listing t := by
  have fresh : Listing (created (newActive serverIpAddr serverPortNo s) s) := listing_created listing rfl
  cases creates with
  | retrying => exact listing_mapClient (f := retryStarted) fresh fun _ => id
  | @connected portNo t served =>
    have connected := listing_mapClient (c := s.nextClient) (f := connectedOn portNo) fresh fun _ => id
    have moved : Listing (connectedActive serverIpAddr serverPortNo portNo s) := connected.of_heap rfl rfl
    exact listing_served moved served

theorem listing_acted {act : Act} (listing : Listing s) (acted : Acted c s act t) : Listing t := by
  cases acted with
  | nothing => exact listing
  | processNewThreaded => exact listing_mapClient (listing_added listing) fun _ => id
  | processNewMultiplexed _ _ _ present => exact listing_listened (listing_added listing) present
  | deleted deletes => exact listing_deletes listing deletes
  | reconnected deletes creates => exact listing_creates (listing_deletes listing deletes) creates
  | unlistenedThreaded _ _ _ _ _ present =>
    exact listing_mapClient (listing_unlistened listing present) fun _ => id
  | threaded => exact listing_mapClient listing fun _ => id
  | stoppedMultiplexed _ _ _ _ _ present => exact listing_listened (listing_threadStopped listing) present
  | multiplexed _ _ _ present => exact listing_listened listing present
  | connectSucceeded _ _ _ _ served =>
    exact listing_served (Listing.of_heap (t := movedToEstablished c s) listing rfl rfl) served
  | keyDestroyed => exact listing_unkeyed listing
  | keyDeleted => exact listing_unkeyed listing
  | keyUnlistened _ _ _ present => exact listing_unlistened (listing_unkeyed listing) present
  | migratedToMultiThreaded _ _ _ present =>
    exact listing_mapClient (listing_unlistened listing present) fun _ => id
  | migratedToMultiplex _ _ _ present => exact listing_listened (listing_threadStopped listing) present
  | startedListening _ present => exact listing_listened listing present
  | stoppedListening _ _ present => exact listing_unlistened listing present

/-- A loop keeps what each visit keeps. -/
theorem listing_drains {visits : ClientRef → TcpServerController → TcpServerController → Prop}
    {rest : ClientRef → List ClientRef → List ClientRef} {list : List ClientRef} (listing : Listing s)
    (drains : Drains visits rest list s t) (kept : ∀ {c s t}, visits c s t → Listing s → Listing t) :
    Listing t :=
  drains.invariant (motive := fun _ => Listing) kept listing

theorem listing_svcPurges (listing : Listing s) (purges : SvcPurges c s t) : Listing t := by
  obtain ⟨_, rfl⟩ := purges
  refine listing_release (listing_unlisted listing (fun {d} member other => ?_) rfl)
  cases present : s.tcpClientSvcMgr with
  | none =>
    rw [svcList, present] at member
    exact absurd member List.not_mem_nil
  | some m =>
    rw [svcList_some present] at member
    have left : ((s.mapSvcMgr fun m => { m with tcpClientDb := remove c m.tcpClientDb }).mapClient c
        notListening).tcpClientSvcMgr = some { m with tcpClientDb := remove c m.tcpClientDb } :=
      congrArg (Option.map _) present
    rw [svcList_some left]
    exact mem_remove member other

theorem listing_svcEnds (listing : Listing s) (ends : SvcEnds s t) : Listing t := by
  obtain @⟨m, _, _, present, purges, kept, empty⟩ := ends
  have stopped : Listing { s with tcpClientSvcMgr := some { m with thread := false } } :=
    listing.of_heap (svcList_some present).symm rfl
  refine (listing_drains stopped purges fun purges listing => listing_svcPurges listing purges).of_heap ?_ rfl
  rw [svcList_some kept, empty]
  rfl

/-- `Stop` empties the list. -/
theorem listing_stops (listing : Listing s) (stops : Stops s t) : Listing t := by
  obtain @⟨s₁, s₂, s₃, s₄, svc, db, _, pending, established⟩ := stops
  have served : Listing s₁ := by
    split_ifs at svc
    · exact listing_svcEnds listing svc
    · rw [svc]
      exact listing
  have purged : Listing s₂ := by
    refine listing_drains served db ?_
    rintro c s t ⟨client, _, rfl⟩ listing
    split_ifs
    · exact listing_unkeyed listing
    · exact listing_unkeyed (listing_threadStopped listing)
  have unconnected : Listing s₃ := by
    refine listing_drains purged pending ?_
    rintro c s t ⟨client, rest, _, _, _, rfl⟩ listing
    have joined : Listing { release c (s.mapClient c connectorJoined) with connectpendingClients := rest } :=
      (listing_release (listing_mapClient (f := connectorJoined) listing fun _ => id)).of_heap rfl rfl
    exact listing_release joined
  have disconnected : Listing s₄ := by
    refine listing_drains unconnected established ?_
    rintro c s t ⟨client, rest, _, _, _, rfl⟩ listing
    have joined : Listing (if client.threaded then release c (s.mapClient c threadStopped) else s) := by
      split_ifs
      · exact listing_threadStopped listing
      · exact listing
    have popped : Listing { (if client.threaded then release c (s.mapClient c threadStopped) else s) with
        establishedClient := rest } := joined.of_heap rfl rfl
    exact listing_release popped
  exact disconnected.of_heap rfl rfl

theorem listing_heard (listing : Listing s) (heard : Heard c s t) : Listing t := by
  obtain ⟨msgd, bytesRecvd, _⟩ := heard
  exact (listing_mapClient (f := received msgd bytesRecvd) listing fun _ => id).of_heap rfl rfl

/-- Whatever a step does. -/
theorem listing_effect {e : Event} (sound : Sound s) (effect : Effect s e t) (listing : Listing s) :
    Listing t := by
  cases effect with
  | acted performs acted =>
    have popped : Listing (dequeued s e) := by
      cases e <;> exact listing.of_heap rfl rfl
    exact listing_acted popped acted
  | unchanged => exact listing
  | toggled => exact listing.of_heap rfl rfl
  | accepted ipAddr portNo =>
    have fresh : Listing (created (newPassive ipAddr portNo s) s) := listing_created listing rfl
    exact fresh.of_heap rfl rfl
  | created creates => exact listing_creates listing creates
  | @retryPosted c _ _ _ portNo =>
    have connected := listing_mapClient (c := c) (f := connectedOn portNo) listing fun _ => id
    exact (listing_mapClient (f := connectPosted) connected fun _ => id).of_heap rfl rfl
  | retryExited => exact listing_release (listing_mapClient (f := connectorStopped) listing fun _ => id)
  | requested => exact listing.of_heap rfl rfl
  | selected present => exact listing.of_heap (svcList_some present).symm rfl
  | skipped present => exact listing.of_heap (svcList_some present).symm rfl
  | @svcHeard m _ rest _ _ present _ _ _ _ heard =>
    have scanned : Listing { s with tcpClientSvcMgr := some (scanning rest m) } :=
      listing.of_heap (svcList_some present).symm rfl
    exact listing_heard scanned heard
  | svcEnded present => exact listing.of_heap (svcList_some present).symm rfl
  | threadHeard _ _ _ heard => exact listing_heard listing heard
  | threadEnded => exact (listing_mapClient (f := waiting) listing fun _ => id).of_heap rfl rfl
  | svcStopped _ ends => exact listing_svcEnds listing ends
  | svcStarted deaf =>
    refine listing.of_heap ?_ rfl
    rw [svcList, svcList, sound.svcMgr deaf]
    rfl
  | stopped notAccepting acceptor stops =>
    exact listing_stops (s := toggled notAccepting acceptor s.createMultiThreaded s)
      (listing.of_heap rfl rfl) stops

/-- The flag never lies, whatever the run. -/
theorem run_listing {guard : TcpServerController → Event → Prop} {es : List Event} {ipAddr : UInt32}
    {portNo : UInt16}
    (path : Path (Guarded TcpServerController.Step guard) (.started ipAddr portNo) es t) : Sound t ∧
    Listing t :=
  run_invariant path (fun sound _ effect listing => listing_effect sound effect listing) ⟨nofun⟩

end

end TcpServerLib.Refinement
