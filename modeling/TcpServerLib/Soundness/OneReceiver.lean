import TcpServerLib.Refinement.Frame

/-! # One receiver for each client

The bytes of a client are received by the service loop or by a thread of its own. The operations
that move a client between the two keep it so, except that a start of the service thread copies
every client of the database into the list of the service manager, whatever mode it is in.
-/

namespace TcpServerLib.Soundness

open Machine Model Refinement Server

/-- What the flags of a client say is where its receiver is. -/
structure Receiver (list : List ClientRef) (c : ClientRef) (client : TcpClient) : Prop where
  listed : c ∈ list ↔ client.multiplexListen = true
  threaded : client.clientThread ≠ .null ↔ client.threaded = true
  single : ¬ (client.multiplexListen = true ∧ client.threaded = true)

structure OneReceiver (s : TcpServerController) : Prop where
  once : ∀ c, (svcList s).count c ≤ 1
  receiver : ∀ {c client}, s.heap c = some client → Receiver (svcList s) c client

/-- A start of the service thread copies nothing. -/
def Quiet (s : TcpServerController) (db : List ClientRef) : Prop :=
  s.notListeningClients = false → db = []

/-- The service thread is not started beside a client of the database, and no client is put into
one mode while it is in the other. -/
def ActsQuietly (s : TcpServerController) (c : ClientRef) (client : TcpClient) : Act → Prop
  | .processNew true => client.multiplexListen = false
  | .processNew false => client.threaded = false ∧ Quiet s (s.tcpClientDb ++ [c])
  | .delete => client.multiplexListen = true → Quiet s (dbWithout c client s)
  | .reconnect connect => client.multiplexListen = true ∨ (connect.isSome ∧ s.createMultiThreaded = false) →
    Quiet s (dbWithout c client s)
  | .toMultithreaded => client.threaded = false ∧ client.multiplexListen = true → Quiet s s.tcpClientDb
  | .toMultiplex => client.multiplexListen = false → Quiet s s.tcpClientDb
  | .connectSuccess => s.createMultiThreaded = false → Quiet s s.tcpClientDb
  | .deleteKey => client.clientThread = .null ∧ 2 ≤ client.refCount → Quiet s (remove c s.tcpClientDb)
  | .migrateToMultiThreaded => client.clientThread = .null → Quiet s s.tcpClientDb
  | .migrateToMultiplex => client.clientThread ≠ .null → Quiet s s.tcpClientDb
  | .startListen => client.threaded = false ∧ Quiet s s.tcpClientDb
  | .stopListen => Quiet s s.tcpClientDb

def StartsQuietly (s : TcpServerController) (e : Event) : Prop :=
  (∀ performs ∈ performed s e, ∀ client ∈ s.heap performs.2,
    ActsQuietly s performs.2 client performs.1) ∧
    match e with
    | .createActiveClient _ _ connect => connect.isSome ∧ s.createMultiThreaded = false →
        Quiet s s.tcpClientDb
    | _ => True

instance (s : TcpServerController) (db : List ClientRef) : Decidable (Quiet s db) :=
  inferInstanceAs (Decidable (_ → _))

instance (s : TcpServerController) (c : ClientRef) (client : TcpClient) (act : Act) :
    Decidable (ActsQuietly s c client act) := by
  rcases act with (_ | _) | _ | _ | _ | _ | _ | _ | _ | _ | _ | _ <;> unfold ActsQuietly <;> infer_instance

instance (s : TcpServerController) (e : Event) : Decidable (StartsQuietly s e) := by
  apply @Event.casesOn (fun e => Decidable (StartsQuietly s e)) e <;> intros <;> unfold StartsQuietly
    <;> infer_instance

/-- The invariant: no pointer of the list is one that is still to be handed out. -/
structure Modes (s : TcpServerController) : Prop extends OneReceiver s where
  allocated : ∀ c ∈ svcList s, c < s.nextClient

structure SameMode (before after : TcpClient) : Prop where
  multiplexListen : after.multiplexListen = before.multiplexListen
  threaded : after.threaded = before.threaded
  clientThread : after.clientThread = .null ↔ before.clientThread = .null

section

variable {s t : TcpServerController} {c : ClientRef} {client : TcpClient} {m : TcpClientServiceManager}

theorem copied_of_quiet (quiet : Quiet s s.tcpClientDb) : copied s = [] := by
  rw [copied]
  split_ifs with deaf
  · rfl
  · exact quiet (Bool.eq_false_iff.mpr deaf)

theorem relisted_of_quiet (quiet : Quiet s s.tcpClientDb) (list : List ClientRef) :
    (relisted s list m).tcpClientDb = list := by
  rw [relisted_db, copied_of_quiet quiet, List.append_nil]

theorem Receiver.same {list : List ClientRef} {before after : TcpClient} (receiver : Receiver list c before)
    (same : SameMode before after) : Receiver list c after where
  listed := by rw [same.multiplexListen]; exact receiver.listed
  threaded := by rw [same.threaded, Ne, same.clientThread]; exact receiver.threaded
  single := by rw [same.multiplexListen, same.threaded]; exact receiver.single

/-- The mode of one client changes, and its place in the list. -/
theorem Modes.change (modes : Modes s) (c : ClientRef) (grows : s.nextClient ≤ t.nextClient)
    (others : ∀ {d client}, d ≠ c → t.heap d = some client → ∃ before, s.heap d = some before ∧
      SameMode before client)
    (list : ∀ {d}, d ≠ c → (svcList t).count d = (svcList s).count d) (once : (svcList t).count c ≤ 1)
    (here : ∀ {client}, t.heap c = some client → Receiver (svcList t) c client)
    (allocated : c ∈ svcList t → c < t.nextClient) : Modes t where
  once d := by
    rcases eq_or_ne d c with rfl | other
    · exact once
    · rw [list other]
      exact modes.once d
  receiver {d client} found := by
    rcases eq_or_ne d c with rfl | other
    · exact here found
    · obtain ⟨before, found', same⟩ := others other found
      have receiver := (modes.receiver found').same same
      have members : d ∈ svcList t ↔ d ∈ svcList s := by
        rw [← List.count_pos_iff, ← List.count_pos_iff, list other]
      exact ⟨members.trans receiver.listed, receiver.threaded, receiver.single⟩
  allocated d member := by
    rcases eq_or_ne d c with rfl | other
    · exact allocated member
    · apply Nat.lt_of_lt_of_le (modes.allocated d ?_) grows
      rwa [← List.count_pos_iff, ← list other, List.count_pos_iff]

/-- No mode changes. -/
theorem Modes.same (modes : Modes s) (grows : s.nextClient ≤ t.nextClient) (list : svcList t = svcList s)
    (heap : ∀ {d client}, t.heap d = some client → ∃ before, s.heap d = some before ∧
      SameMode before client) :
    Modes t where
  once d := by rw [list]; exact modes.once d
  receiver found := by
    obtain ⟨before, found', same⟩ := heap found
    rw [list]
    exact (modes.receiver found').same same
  allocated d member := by
    rw [list] at member
    exact Nat.lt_of_lt_of_le (modes.allocated d member) grows

theorem SameMode.refl (client : TcpClient) : SameMode client client :=
  ⟨rfl, rfl, Iff.rfl⟩

theorem Modes.of_heap (modes : Modes s) (nextClient : t.nextClient = s.nextClient) (list : svcList t = svcList s)
    (heap : t.heap = s.heap) : Modes t :=
  modes.same (Nat.le_of_eq nextClient.symm) list fun found => ⟨_, heap ▸ found, .refl _⟩

theorem modes_mapClient (modes : Modes s) {f : TcpClient → TcpClient}
    (same : ∀ client, SameMode client (f client)) :
    Modes (s.mapClient c f) := by
  refine modes.same (Nat.le_refl _) rfl fun {d client} found => ?_
  rw [heap_mapClient] at found
  split_ifs at found with here
  · obtain ⟨before, found', rfl⟩ := Option.map_eq_some_iff.mp found
    exact ⟨before, here ▸ found', same before⟩
  · exact ⟨client, found, .refl client⟩

theorem modes_release (modes : Modes s) : Modes (release c s) := by
  refine modes.same (Nat.le_refl _) rfl fun {d client} found => ?_
  rw [heap_release] at found
  split_ifs at found with here
  · obtain ⟨before, found', kept⟩ := Option.bind_eq_some_iff.mp found
    obtain ⟨_, rfl⟩ := drop_eq_some kept
    exact ⟨before, here ▸ found', ⟨rfl, rfl, Iff.rfl⟩⟩
  · exact ⟨client, found, .refl client⟩

theorem modes_addRefs (modes : Modes s) (list : List ClientRef) : Modes (addRefs list s) := by
  refine modes.same (Nat.le_refl _) rfl fun {d client} found => ?_
  obtain ⟨before, found', rfl⟩ := Option.map_eq_some_iff.mp found
  exact ⟨before, found', ⟨rfl, rfl, Iff.rfl⟩⟩

theorem modes_listened (modes : Modes s) (present : s.tcpClientSvcMgr = some m) (found : s.heap c = some client)
    (new : c < s.nextClient) (unlisted : c ∉ m.tcpClientDb) (single : client.threaded = false)
    (quiet : Quiet s s.tcpClientDb) : Modes (listened c m s) := by
  have list : svcList (listened c m s) = svcList s ++ [c] := by
    rw [svcList_some present]
    exact relisted_of_quiet quiet _
  rw [← svcList_some present] at unlisted
  refine modes.change c (Nat.le_refl _) (fun {d left} other found' => ?_) (fun {d} other => ?_) ?_
    (fun {left} found' => ?_) fun _ => new
  · rw [heap_listened, if_neg other] at found'
    obtain ⟨before, kept, rfl⟩ := Option.map_eq_some_iff.mp found'
    exact ⟨before, kept, ⟨rfl, rfl, Iff.rfl⟩⟩
  · have absent : [c].count d = 0 := List.count_eq_zero.mpr (by simpa using other)
    rw [list, List.count_append, absent, Nat.add_zero]
  · have once : (svcList (listened c m s)).count c = 1 := by
      rw [list, List.count_append, List.count_eq_zero_of_not_mem unlisted, List.count_singleton_self]
    exact Nat.le_of_eq once
  · rw [heap_listened, if_pos rfl, found] at found'
    cases found'
    have receiver := modes.receiver found
    rw [list]
    refine ⟨?_, receiver.threaded, fun both => ?_⟩
    · exact iff_of_true (List.mem_append_right _ List.mem_cons_self) rfl
    · exact absurd (single.symm.trans both.2) (by simp)

/-- The client leaves the list. -/
theorem modes_unlisted (modes : Modes s) (list : svcList t = remove c (svcList s))
    (nextClient : t.nextClient = s.nextClient) (heap : t.heap = (s.mapClient c notListening).heap) : Modes t := by
  have gone : c ∉ remove c (svcList s) := by
    rw [← List.count_eq_zero, count_remove, if_pos rfl]
  refine modes.change c (Nat.le_of_eq nextClient.symm) (fun {d left} other found' => ?_) (fun {d} other => ?_) ?_
    (fun {left} found' => ?_) (fun member => absurd (list ▸ member) gone)
  · rw [heap, heap_mapClient, if_neg other] at found'
    exact ⟨left, found', .refl left⟩
  · rw [list, count_remove, if_neg other]
  · rw [list, List.count_eq_zero_of_not_mem gone]
    exact Nat.zero_le 1
  · rw [heap, heap_mapClient, if_pos rfl] at found'
    obtain ⟨before, found, rfl⟩ := Option.map_eq_some_iff.mp found'
    rw [list]
    exact ⟨iff_of_false gone nofun, (modes.receiver found).threaded, nofun⟩

theorem modes_unlistened (modes : Modes s) (present : s.tcpClientSvcMgr = some m)
    (quiet : Quiet s s.tcpClientDb) :
    Modes (unlistened c m s) := by
  have unlisted : Modes { s.mapClient c notListening with
      tcpClientSvcMgr := some (relisted s (remove c m.tcpClientDb) m) } := by
    refine modes_unlisted modes ?_ rfl rfl
    rw [svcList_some present]
    exact relisted_of_quiet quiet _
  exact modes_addRefs (modes_release unlisted) (copied s)

theorem modes_threadStarted (modes : Modes s)
    (deaf : ∀ client, s.heap c = some client → client.multiplexListen = false) :
    Modes (s.mapClient c threadStarted) := by
  refine modes.change c (Nat.le_refl _) (fun {d left} other found' => ?_) (fun _ => rfl) (modes.once c)
    (fun {left} found' => ?_) (modes.allocated c)
  · rw [heap_mapClient, if_neg other] at found'
    exact ⟨left, found', .refl left⟩
  · rw [heap_mapClient, if_pos rfl] at found'
    obtain ⟨before, found, rfl⟩ := Option.map_eq_some_iff.mp found'
    refine ⟨(modes.receiver found).listed, iff_of_true nofun rfl, fun both => ?_⟩
    exact absurd ((deaf before found).symm.trans both.1) (by simp)

theorem modes_threadStopped (modes : Modes s) : Modes (release c (s.mapClient c threadStopped)) := by
  apply modes_release
  refine modes.change c (Nat.le_refl _) (fun {d left} other found' => ?_) (fun _ => rfl) (modes.once c)
    (fun {left} found' => ?_) (modes.allocated c)
  · rw [heap_mapClient, if_neg other] at found'
    exact ⟨left, found', .refl left⟩
  · rw [heap_mapClient, if_pos rfl] at found'
    obtain ⟨before, found, rfl⟩ := Option.map_eq_some_iff.mp found'
    exact ⟨(modes.receiver found).listed, iff_of_false (not_not.mpr rfl) nofun, nofun⟩

theorem modes_db (modes : Modes s) (list : List ClientRef) : Modes { s with tcpClientDb := list } :=
  modes.of_heap rfl rfl rfl

theorem modes_unkeyed (modes : Modes s) : Modes (unkeyed c s) :=
  modes_release (modes_db modes (remove c s.tcpClientDb))

theorem modes_added (modes : Modes s) : Modes (added c s) :=
  modes_addRefs (modes_db modes (s.tcpClientDb ++ [c])) [c]

theorem modes_deletes {s₁ s₂ s₃ s₄ : TcpServerController} (modes : Modes s)
    (deletes : Deletes c client s s₁ s₂ s₃ s₄ t)
    (quiet : client.multiplexListen = true → Quiet s (dbWithout c client s)) :
    Modes t ∧ t.tcpClientDb = dbWithout c client s := by
  have referenced := modes_addRefs modes [c]
  have db : Modes s₁ ∧ s₁.tcpClientDb = dbWithout c client s ∧ s₁.notListeningClients =
      s.notListeningClients := by
    rw [deletes.db, dbWithout]
    split_ifs
    · exact ⟨modes_unkeyed referenced, rfl, rfl⟩
    · exact ⟨referenced, rfl, rfl⟩
  refine ⟨And.left (deletes.afterDb (P := fun t => Modes t ∧ t.tcpClientDb = dbWithout c client s ∧
    t.notListeningClients = s.notListeningClients) db ?_ ?_ ?_ ?_), deletes_db deletes⟩
  · rintro s' m listens present ⟨modes', db', deaf'⟩
    refine ⟨modes_unlistened modes' present ?_, db', deaf'⟩
    rw [Quiet, deaf', db']
    exact quiet listens
  · rintro s' ⟨modes', kept⟩
    exact ⟨modes_threadStopped modes', kept⟩
  · rintro s' connected ⟨modes', kept⟩
    exact ⟨modes'.of_heap rfl rfl rfl, kept⟩
  · rintro s' ⟨modes', kept⟩
    exact ⟨modes_release modes', kept⟩

theorem modes_served (modes : Modes s) (found : s.heap c = some client) (new : c < s.nextClient)
    (mode : client.multiplexListen = false ∧ client.threaded = false)
    (quiet : s.createMultiThreaded = false → Quiet s s.tcpClientDb) (served : Served c s t) : Modes t := by
  rcases served with ⟨_, _, _, _, rfl⟩ | ⟨multiplexed, m, present, _, unlisted, rfl⟩
  · apply modes_threadStarted modes
    rintro other found'
    obtain rfl := Option.some.inj (found.symm.trans found')
    exact mode.1
  · exact modes_listened modes present found new unlisted mode.2 (quiet multiplexed)

theorem modes_created (modes : Modes s) (mode : client.multiplexListen = false ∧ client.threaded = false)
    (idle : client.clientThread = .null) : Modes (created client s) := by
  have unlisted : s.nextClient ∉ svcList s := fun member => absurd (modes.allocated _ member) (Nat.lt_irrefl _)
  refine modes.change s.nextClient (Nat.le_succ _) (fun {d left} other found => ?_) (fun _ => rfl)
    (modes.once s.nextClient) (fun {left} found => ?_) fun _ => Nat.lt_succ_self _
  · rw [heap_created, if_neg other] at found
    exact ⟨left, found, .refl left⟩
  · rw [heap_created, if_pos rfl] at found
    cases found
    refine ⟨iff_of_false unlisted ?_, iff_of_false (not_not.mpr idle) ?_, fun both => ?_⟩
    · rw [mode.1]
      exact Bool.false_ne_true
    · rw [mode.2]
      exact Bool.false_ne_true
    · exact absurd (mode.1.symm.trans both.1) Bool.false_ne_true

theorem modes_creates {serverIpAddr : UInt32} {serverPortNo : UInt16} {connect : ConnectResult} (modes : Modes s)
    (quiet : connect.isSome ∧ s.createMultiThreaded = false → Quiet s s.tcpClientDb)
    (creates : Creates serverIpAddr serverPortNo s connect t) : Modes t := by
  have fresh : Modes (created (newActive serverIpAddr serverPortNo s) s) := modes_created modes ⟨rfl, rfl⟩ rfl
  cases creates with
  | retrying => exact modes_mapClient fresh fun _ => ⟨rfl, rfl, Iff.rfl⟩
  | @connected portNo t served =>
    have connected : Modes (connectedActive serverIpAddr serverPortNo portNo s) :=
      (modes_mapClient (f := connectedOn portNo) fresh fun _ => ⟨rfl, rfl, Iff.rfl⟩).of_heap rfl rfl rfl
    have found : (connectedActive serverIpAddr serverPortNo portNo s).heap s.nextClient =
        some (connectedOn portNo (newActive serverIpAddr serverPortNo s)) := by
      rw [heap_connectedActive, if_pos rfl]
    have nextClient : s.nextClient < (connectedActive serverIpAddr serverPortNo portNo s).nextClient := by
      rw [nextClient_connectedActive]
      exact Nat.lt_succ_self _
    refine modes_served connected found nextClient ⟨rfl, rfl⟩ (fun multiplexed => ?_) served
    rw [createMultiThreaded_connectedActive] at multiplexed
    rw [tcpClientDb_connectedActive]
    exact quiet ⟨rfl, multiplexed⟩

theorem modes_acted {act : Act} (modes : Modes s) (allocated : Allocated s)
    (quiet : ∀ client, s.heap c = some client → ActsQuietly s c client act) (acted : Acted c s act t) :
    Modes t := by
  cases acted with
  | nothing => exact modes
  | processNewThreaded found =>
    apply modes_threadStarted (modes_added modes)
    rintro other found'
    have deaf := quiet _ found
    rw [heap_added_self found] at found'
    cases found'
    exact deaf
  | processNewMultiplexed found _ _ present unlisted =>
    obtain ⟨single, alone⟩ := quiet _ found
    exact modes_listened (modes_added modes) present (heap_added_self found) (allocated found)
      unlisted single alone
  | deleted deletes => exact (modes_deletes modes deletes (quiet _ deletes.found)).1
  | reconnected deletes creates =>
    have quietly := quiet _ deletes.found
    have framed := framed_deletes deletes
    obtain ⟨modes', db⟩ := modes_deletes modes deletes fun listens => quietly (.inl listens)
    refine modes_creates modes' ?_ creates
    rw [Quiet, db, framed.notListeningClients, framed.createMultiThreaded]
    exact fun connected => quietly (.inr connected)
  | unlistenedThreaded found mode listens _ several present =>
    apply modes_threadStarted (modes_unlistened modes present (quiet _ found ⟨mode, listens⟩))
    rintro other found'
    rw [heap_unlistened_self found several] at found'
    cases found'
    rfl
  | threaded found _ deaf =>
    apply modes_threadStarted modes
    rintro other found'
    obtain rfl := Option.some.inj (found.symm.trans found')
    exact deaf
  | stoppedMultiplexed found mode _ _ several present unlisted =>
    exact modes_listened (modes_threadStopped modes) present (heap_threadStopped_self found several)
      (allocated found) unlisted rfl (quiet _ found mode)
  | multiplexed found mode single present unlisted =>
    exact modes_listened modes present found (allocated found) unlisted single (quiet _ found mode)
  | connectSucceeded found _ _ mode served =>
    have moved : Modes (movedToEstablished c s) := modes.of_heap rfl rfl rfl
    exact modes_served moved found (allocated found) mode (quiet _ found) served
  | keyDestroyed => exact modes_unkeyed modes
  | keyDeleted => exact modes_unkeyed modes
  | keyUnlistened found several idle present =>
    exact modes_unlistened (modes_unkeyed modes) present (quiet _ found ⟨idle, Nat.le_of_succ_le several⟩)
  | migratedToMultiThreaded found idle several present =>
    apply modes_threadStarted (modes_unlistened modes present (quiet _ found idle))
    rintro other found'
    rw [heap_unlistened_self found several] at found'
    cases found'
    rfl
  | migratedToMultiplex found running several present unlisted =>
    exact modes_listened (modes_threadStopped modes) present (heap_threadStopped_self found several)
      (allocated found) unlisted rfl (quiet _ found running)
  | startedListening found present unlisted =>
    exact modes_listened modes present found (allocated found) unlisted (quiet _ found).1 (quiet _ found).2
  | stoppedListening found several present => exact modes_unlistened modes present (quiet _ found)

theorem modes_svcPurges (modes : Modes s) (purges : SvcPurges c s t) : Modes t := by
  obtain ⟨_, rfl⟩ := purges
  refine modes_release (modes_unlisted modes ?_ rfl rfl)
  rw [svcList, svcList, TcpServerController.mapClient, TcpServerController.mapSvcMgr]
  cases s.tcpClientSvcMgr <;> rfl

theorem modes_drains {visits : ClientRef → TcpServerController → TcpServerController → Prop}
    {rest : ClientRef → List ClientRef → List ClientRef} {list : List ClientRef} (modes : Modes s)
    (drains : Drains visits rest list s t) (kept : ∀ {c s t}, visits c s t → Modes s → Modes t) : Modes t :=
  drains.invariant (motive := fun _ => Modes) kept modes

theorem modes_svcEnds (modes : Modes s) (ends : SvcEnds s t) : Modes t := by
  obtain @⟨m, _, _, present, purges, kept, empty⟩ := ends
  have stopped : Modes { s with tcpClientSvcMgr := some { m with thread := false } } :=
    modes.of_heap rfl (svcList_some present).symm rfl
  refine (modes_drains stopped purges fun purges modes => modes_svcPurges modes purges).of_heap rfl ?_ rfl
  rw [svcList_some kept, empty]
  rfl

theorem modes_stops (modes : Modes s) (stops : Stops s t) : Modes t := by
  obtain @⟨s₁, s₂, s₃, s₄, svc, db, _, pending, established⟩ := stops
  have served : Modes s₁ := by
    split_ifs at svc
    · exact modes_svcEnds modes svc
    · rw [svc]
      exact modes
  have purged : Modes s₂ := by
    refine modes_drains served db ?_
    rintro c s t ⟨client, _, rfl⟩ modes
    split_ifs
    · exact modes_unkeyed modes
    · exact modes_unkeyed (modes_threadStopped modes)
  have unconnected : Modes s₃ := by
    refine modes_drains purged pending ?_
    rintro c s t ⟨client, rest, _, _, _, rfl⟩ modes
    have joined : Modes { release c (s.mapClient c connectorJoined) with connectpendingClients := rest } :=
      (modes_release (modes_mapClient (f := connectorJoined) modes fun _ => ⟨rfl, rfl, Iff.rfl⟩)).of_heap
        rfl rfl rfl
    exact modes_release joined
  have disconnected : Modes s₄ := by
    refine modes_drains unconnected established ?_
    rintro c s t ⟨client, rest, _, _, _, rfl⟩ modes
    have joined : Modes (if client.threaded then release c (s.mapClient c threadStopped) else s) := by
      split_ifs
      · exact modes_threadStopped modes
      · exact modes
    have popped : Modes { (if client.threaded then release c (s.mapClient c threadStopped) else s) with
        establishedClient := rest } := joined.of_heap rfl rfl rfl
    exact modes_release popped
  exact disconnected.of_heap rfl rfl rfl

theorem modes_heard (modes : Modes s) (heard : Heard c s t) : Modes t := by
  obtain ⟨msgd, bytesRecvd, _⟩ := heard
  have received : Modes (s.mapClient c (received msgd bytesRecvd)) :=
    modes_mapClient modes fun _ => ⟨rfl, rfl, Iff.rfl⟩
  exact received.of_heap rfl rfl rfl

theorem modes_effect {e : Event} (sound : Sound s) (quiet : StartsQuietly s e) (effect : Effect s e t)
    (modes : Modes s) : Modes t := by
  cases effect with
  | @acted _ act c _ performs acted =>
    have popped : Modes (dequeued s e) := by
      cases e <;> exact modes.of_heap rfl rfl rfl
    have allocated : Allocated (dequeued s e) := by
      cases e <;> exact sound.allocated
    refine modes_acted popped allocated (fun client found => ?_) acted
    have acts := quiet.1 _ performs client
    cases e <;> exact acts found
  | unchanged => exact modes
  | toggled => exact modes.of_heap rfl rfl rfl
  | accepted ipAddr portNo =>
    have created : Modes (created (newPassive ipAddr portNo s) s) := modes_created modes ⟨rfl, rfl⟩ rfl
    exact created.of_heap rfl rfl rfl
  | created creates => exact modes_creates modes quiet.2 creates
  | @retryPosted c client _ _ portNo =>
    have connected : Modes (s.mapClient c (connectedOn portNo)) :=
      modes_mapClient modes fun _ => ⟨rfl, rfl, Iff.rfl⟩
    have posted : Modes ((s.mapClient c (connectedOn portNo)).mapClient c connectPosted) :=
      modes_mapClient connected fun _ => ⟨rfl, rfl, Iff.rfl⟩
    exact posted.of_heap rfl rfl rfl
  | retryExited => exact modes_release (modes_mapClient modes fun _ => ⟨rfl, rfl, Iff.rfl⟩)
  | requested => exact modes.of_heap rfl rfl rfl
  | selected present => exact modes.of_heap rfl (svcList_some present).symm rfl
  | skipped present => exact modes.of_heap rfl (svcList_some present).symm rfl
  | @svcHeard m _ rest _ _ present _ _ _ _ heard =>
    have scanned : Modes { s with tcpClientSvcMgr := some (scanning rest m) } :=
      modes.of_heap rfl (svcList_some present).symm rfl
    exact modes_heard scanned heard
  | @svcEnded m _ rest _ _ present =>
    exact modes.of_heap rfl (svcList_some present).symm rfl
  | threadHeard _ _ _ heard => exact modes_heard modes heard
  | @threadEnded c _ client found receiving =>
    have waits : Modes (s.mapClient c waiting) := by
      refine modes.change c (Nat.le_refl _) (fun {d left} other found' => ?_) (fun _ => rfl) (modes.once c)
        (fun {left} found' => ?_) (modes.allocated c)
      · rw [heap_mapClient, if_neg other] at found'
        exact ⟨left, found', .refl left⟩
      · rw [heap_mapClient, if_pos rfl, found] at found'
        cases found'
        have receiver := modes.receiver found
        refine ⟨receiver.listed, iff_of_true nofun (receiver.threaded.mp ?_), receiver.single⟩
        rw [receiving]
        simp
    exact waits.of_heap rfl rfl rfl
  | svcStopped _ ends => exact modes_svcEnds modes ends
  | svcStarted deaf =>
    refine modes.of_heap rfl ?_ rfl
    rw [svcList, svcList, sound.svcMgr deaf]
    rfl
  | stopped notAccepting acceptor stops =>
    have toggles : Modes (toggled notAccepting acceptor s.createMultiThreaded s) := modes.of_heap rfl rfl rfl
    exact modes_stops toggles stops

/-- As long as the service thread is only started over an empty database, every client has one
receiver. -/
theorem oneReceiver {ipAddr : UInt32} {portNo : UInt16} {es : List Event}
    (path : Path (Guarded TcpServerController.Step StartsQuietly) (.started ipAddr portNo) es t) :
    OneReceiver t := by
  have initially : Modes (.started ipAddr portNo) :=
    ⟨⟨fun _ => Nat.zero_le 1, nofun⟩, nofun⟩
  exact (run_invariant path (fun sound quiet effect modes => modes_effect sound quiet effect modes)
    initially).2.toOneReceiver

end

/-- A multiplexed active opener beside a threaded peer. -/
def quietEvents : List Event :=
  [.createActiveClient 7 7 (some 1), .setClientCreationMode true, .accept 9 9, .processFront none]

theorem oneReceiver_quietEvents :
    OneReceiver (TcpServerController.stateAfter StartsQuietly (.started 1 1) quietEvents) :=
  oneReceiver (TcpServerController.stateAfter_path rfl)

/-- The first peer of a server that multiplexes is listed twice. -/
theorem acceptedClient_twice : ¬ ∀ es t, Path TcpServerController.Step (.started 1 1) es t →
    OneReceiver t := by
  intro always
  have listed := always [.accept 9 9, .processFront none] _ (TcpServerController.stateAfter_unguarded rfl)
  have twice : (svcList (TcpServerController.stateAfter (fun _ _ => True) (.started 1 1)
      [.accept 9 9, .processFront none])).count 0 = 2 := by decide
  exact absurd (twice ▸ listed.once 0) (by decide)

end TcpServerLib.Soundness
