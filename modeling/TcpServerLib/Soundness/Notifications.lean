import TcpServerLib.Refinement.Frame

/-! # What the application is told about a client

The callbacks of a client are a connection, then messages, then at most one disconnection. This is
so as long as a receiver is only ever set up for a client whose connection has been told and whose
end has not, and as long as the receiver that finds the end is the only one.
-/

namespace TcpServerLib.Soundness

open Machine Model Refinement Server

inductive Note where
  | connected
  | msgRecvd
  | disconnected
deriving DecidableEq, Repr

/-- What a call tells about a client. The demarcar's own call is none of the application's. -/
def noteOf (c : ClientRef) : Call → Option Note
  | .clientConnected d => if d = c then some .connected else none
  | .clientMsgRecvd d _ => if d = c then some .msgRecvd else none
  | .clientDisconnected d => if d = c then some .disconnected else none
  | .processMsg _ _ => none

def word (c : ClientRef) (s : TcpServerController) : List Note :=
  s.calls.filterMap (noteOf c)

/-- The connection has been told, and messages since. -/
def Opened (notes : List Note) : Prop :=
  ∃ n, notes = .connected :: List.replicate n .msgRecvd

def Closed (notes : List Note) : Prop :=
  ∃ n, notes = .connected :: (List.replicate n .msgRecvd ++ [.disconnected])

/-- The law of the notifications, at any time of a run. -/
def WellNotified (s : TcpServerController) : Prop :=
  ∀ c, word c s = [] ∨ Opened (word c s) ∨ Closed (word c s)

/-- The clients an act sets a receiver up for: the fd set is filled from the list of the service
manager and from the database whenever the service thread starts. -/
def opens (s : TcpServerController) (c : ClientRef) (client : TcpClient) : Act → List ClientRef
  | .processNew true => [c]
  | .processNew false => c :: (svcList s ++ s.tcpClientDb)
  | .delete => if client.multiplexListen then remove c (svcList s) ++ dbWithout c client s else []
  | .reconnect connect =>
    if client.multiplexListen then remove c (svcList s) ++ dbWithout c client s
    else if connect.isSome ∧ s.createMultiThreaded = false then svcList s ++ dbWithout c client s else []
  | .toMultithreaded =>
    if client.threaded then []
    else c :: if client.multiplexListen then remove c (svcList s) ++ s.tcpClientDb else []
  | .toMultiplex => if client.multiplexListen then [] else c :: (svcList s ++ s.tcpClientDb)
  | .connectSuccess => c :: if s.createMultiThreaded then [] else svcList s ++ s.tcpClientDb
  | .deleteKey =>
    if client.clientThread = .null ∧ 2 ≤ client.refCount then remove c (svcList s) ++ remove c
      s.tcpClientDb else []
  | .migrateToMultiThreaded =>
    if client.clientThread = .null then c :: (remove c (svcList s) ++ s.tcpClientDb) else []
  | .migrateToMultiplex => if client.clientThread = .null then [] else c :: (svcList s ++ s.tcpClientDb)
  | .startListen => c :: (svcList s ++ s.tcpClientDb)
  | .stopListen => remove c (svcList s) ++ s.tcpClientDb

/-- The service thread has `recvfrom` still to call for the client. -/
def ServiceReceives (s : TcpServerController) (c : ClientRef) : Prop :=
  ∃ m ∈ s.tcpClientSvcMgr, c ∈ m.backupFdSet ∨ (c ∈ m.scan ∧ c ∈ m.activeFdSet)

def ThreadReceives (s : TcpServerController) (c : ClientRef) : Prop :=
  ∃ client ∈ s.heap c, client.clientThread = .receiving

/-- Receivers are set up for clients that are open, and whoever finds the end of a stream is the
only receiver of its client. -/
def ReceivesOpen (s : TcpServerController) (e : Event) : Prop :=
  (∀ performs ∈ performed s e, ∀ client ∈ s.heap performs.2,
    ∀ d ∈ opens s performs.2 client performs.1, Opened (word d s)) ∧
  match e with
  | .createActiveClient _ _ connect => connect.isSome ∧ s.createMultiThreaded = false →
    ∀ d ∈ svcList s ++ s.tcpClientDb, Opened (word d s)
  | .visit r => r.Ended → ∀ m ∈ s.tcpClientSvcMgr, ∀ c ∈ m.scan.head?, c ∈ m.activeFdSet →
    c ∉ m.scan.tail ∧ ¬ ThreadReceives s c
  | .clientThread c r => r.Ended → ¬ ServiceReceives s c
  | _ => True

instance (notes : List Note) : Decidable (Opened notes) :=
  decidable_of_iff (notes.head? = some .connected ∧ ∀ note ∈ notes.tail, note = .msgRecvd) <| by
    constructor
    · rintro ⟨first, rest⟩
      cases notes with
      | nil => cases first
      | cons note notes =>
        cases first
        exact ⟨notes.length, congrArg _ (List.eq_replicate_iff.mpr ⟨rfl, rest⟩)⟩
    · rintro ⟨n, rfl⟩
      exact ⟨rfl, fun note member => List.eq_of_mem_replicate member⟩

instance (s : TcpServerController) (c : ClientRef) : Decidable (ServiceReceives s c) :=
  inferInstanceAs (Decidable (∃ m ∈ s.tcpClientSvcMgr, _))

instance (s : TcpServerController) (c : ClientRef) : Decidable (ThreadReceives s c) :=
  inferInstanceAs (Decidable (∃ client ∈ s.heap c, _))

instance (s : TcpServerController) (e : Event) : Decidable (ReceivesOpen s e) := by
  apply @Event.casesOn (fun e => Decidable (ReceivesOpen s e)) e <;> intros <;> unfold ReceivesOpen
    <;> infer_instance

section

variable {s t : TcpServerController} {c d : ClientRef} {client : TcpClient} {m : TcpClientServiceManager}

theorem word_append {calls : List Call} (appended : t.calls = s.calls ++ calls) :
    word c t = word c s ++ calls.filterMap (noteOf c) := by
  rw [word, appended, List.filterMap_append]
  rfl

/-- A call is about one client. -/
theorem word_other {calls : List Call} (appended : t.calls = s.calls ++ calls)
    (others : ∀ call ∈ calls, noteOf d call = none) : word d t = word d s := by
  rw [word_append appended, List.filterMap_eq_nil_iff.mpr others, List.append_nil]

theorem opened_receipts {notes : List Note} {calls : List Call} (opened : Opened notes)
    (receipts : ∀ call ∈ calls, Call.IsReceipt c call) : Opened (notes ++ calls.filterMap (noteOf c)) := by
  obtain ⟨n, rfl⟩ := opened
  induction calls generalizing n with
  | nil => exact ⟨n, List.append_nil _⟩
  | cons call calls ih =>
    have rest := fun call member => receipts call (List.mem_cons_of_mem _ member)
    have first := receipts call List.mem_cons_self
    rw [List.filterMap_cons]
    cases call with
    | clientMsgRecvd d msg =>
      cases first
      have noted : noteOf c (.clientMsgRecvd c msg) = some .msgRecvd := if_pos rfl
      rw [noted]
      dsimp only
      have longer := ih rest (n + 1)
      rwa [List.replicate_succ', ← List.cons_append, List.append_assoc, List.singleton_append] at longer
    | processMsg d chunk => exact ih rest n
    | clientConnected d => exact absurd first id
    | clientDisconnected d => exact absurd first id

theorem noteOf_receipt_other {call : Call} (other : d ≠ c) (receipt : Call.IsReceipt c call) :
    noteOf d call = none := by
  cases call with
  | clientMsgRecvd e msg => exact if_neg fun same => other (same.symm.trans receipt)
  | processMsg e chunk => rfl
  | clientConnected e => exact absurd receipt id
  | clientDisconnected e => exact absurd receipt id

def Receives (s : TcpServerController) (c : ClientRef) : Prop :=
  ServiceReceives s c ∨ ThreadReceives s c

/-- A connection is being tried. -/
def Retries (s : TcpServerController) (c : ClientRef) : Prop :=
  ∃ client, s.heap c = some client ∧ client.activeConnectThread = .retrying

/-- Nothing is received or tried that was not before. -/
structure Calms (s t : TcpServerController) : Prop where
  receives : ∀ {d}, Receives t d → Receives s d
  retries : ∀ {d}, Retries t d → Retries s d
  calls : t.calls = s.calls

theorem Calms.trans {middle : TcpServerController} (first : Calms s middle) (second : Calms middle t) :
    Calms s t :=
  ⟨first.receives ∘ second.receives, first.retries ∘ second.retries, second.calls.trans first.calls⟩

/-- The heap and the service manager decide who receives. -/
theorem Calms.of_heap (heap : t.heap = s.heap) (svcMgr : t.tcpClientSvcMgr = s.tcpClientSvcMgr)
    (calls : t.calls = s.calls) : Calms s t where
  receives := by
    rintro d (⟨m, present, listed⟩ | ⟨client, found, receiving⟩)
    · exact .inl ⟨m, svcMgr ▸ present, listed⟩
    · exact .inr ⟨client, heap ▸ found, receiving⟩
  retries := by
    rintro d ⟨client, found, retrying⟩
    exact ⟨client, heap ▸ found, retrying⟩
  calls := calls

theorem Calms.of_threads (svcMgr : t.tcpClientSvcMgr = s.tcpClientSvcMgr) (calls : t.calls = s.calls)
    (threads : ∀ {d}, ThreadReceives t d → ThreadReceives s d)
    (retries : ∀ {d}, Retries t d → Retries s d) :
    Calms s t where
  receives := by
    rintro d (⟨m, present, listed⟩ | thread)
    · exact .inl ⟨m, svcMgr ▸ present, listed⟩
    · exact .inr (threads thread)
  retries := retries
  calls := calls

/-- The clients change, and none of their threads starts. -/
theorem Calms.of_clients (svcMgr : t.tcpClientSvcMgr = s.tcpClientSvcMgr) (calls : t.calls = s.calls)
    (heap : ∀ {d client}, t.heap d = some client → ∃ before, s.heap d = some before ∧
      (client.clientThread = .receiving → before.clientThread = .receiving) ∧
      (client.activeConnectThread = .retrying → before.activeConnectThread = .retrying)) : Calms s t := by
  apply Calms.of_threads svcMgr calls
  · rintro d ⟨client, found, receiving⟩
    obtain ⟨before, found', receiving', _⟩ := heap found
    exact ⟨before, found', receiving' receiving⟩
  · rintro d ⟨client, found, retrying⟩
    obtain ⟨before, found', _, retrying'⟩ := heap found
    exact ⟨before, found', retrying' retrying⟩

theorem retries_mapClient_other {f : TcpClient → TcpClient} (other : d ≠ c)
    (retries : Retries (s.mapClient c f) d) :
    Retries s d := by
  obtain ⟨client, found, retrying⟩ := retries
  rw [heap_mapClient, if_neg other] at found
  exact ⟨client, found, retrying⟩

theorem receives_mapClient {f : TcpClient → TcpClient}
    (receiving : ∀ client, (f client).clientThread = .receiving → client.clientThread = .receiving)
    (receives : Receives (s.mapClient c f) d) : Receives s d := by
  rcases receives with service | ⟨client, found, receives⟩
  · exact .inl service
  · rw [Option.mem_def, heap_mapClient] at found
    split_ifs at found with same
    · obtain ⟨before, found', rfl⟩ := Option.map_eq_some_iff.mp found
      exact .inr ⟨before, same ▸ found', receiving before receives⟩
    · exact .inr ⟨client, found, receives⟩

theorem calms_mapClient {f : TcpClient → TcpClient}
    (receiving : ∀ client, (f client).clientThread = .receiving → client.clientThread = .receiving)
    (retrying : ∀ client, (f client).activeConnectThread = .retrying → client.activeConnectThread =
      .retrying) :
    Calms s (s.mapClient c f) where
  receives := receives_mapClient receiving
  retries := by
    rintro d ⟨client, found, retries⟩
    rw [heap_mapClient] at found
    split_ifs at found with same
    · obtain ⟨before, found', rfl⟩ := Option.map_eq_some_iff.mp found
      exact ⟨before, same ▸ found', retrying before retries⟩
    · exact ⟨client, found, retries⟩
  calls := rfl

theorem calms_release : Calms s (release c s) := by
  refine .of_clients rfl rfl fun {d client} found => ?_
  rw [heap_release] at found
  split_ifs at found with same
  · obtain ⟨before, found', kept⟩ := Option.bind_eq_some_iff.mp found
    obtain ⟨_, rfl⟩ := drop_eq_some kept
    exact ⟨before, same ▸ found', id, id⟩
  · exact ⟨client, found, id, id⟩

theorem calms_addRefs (list : List ClientRef) : Calms s (addRefs list s) := by
  refine .of_clients rfl rfl fun {d client} found => ?_
  obtain ⟨before, found', rfl⟩ := Option.map_eq_some_iff.mp found
  exact ⟨before, found', id, id⟩

theorem calms_threadStopped : Calms s (release c (s.mapClient c threadStopped)) := by
  have stopped : Calms s (s.mapClient c threadStopped) := by
    apply calms_mapClient
    · intro client receiving
      cases receiving
    · exact fun _ => id
  exact stopped.trans calms_release

theorem calms_unkeyed : Calms s (unkeyed c s) :=
  calms_release.trans (.of_heap rfl rfl rfl)

theorem calms_added : Calms s (added c s) :=
  (calms_addRefs [c]).trans (.of_heap rfl rfl rfl)

theorem receives_threadStarted (receives : Receives (s.mapClient c threadStarted) d) :
    Receives s d ∨ d = c := by
  rcases receives with service | ⟨client, found, receiving⟩
  · exact .inl (.inl service)
  · rcases eq_or_ne d c with same | other
    · exact .inr same
    · rw [Option.mem_def, heap_mapClient, if_neg other] at found
      exact .inl (.inr ⟨client, found, receiving⟩)

theorem mem_relisted {list : List ClientRef} (member : d ∈ list ++ copied s) : d ∈ list ++ s.tcpClientDb := by
  rcases List.mem_append.mp member with inside | copied
  · exact List.mem_append_left _ inside
  · apply List.mem_append_right
    rw [Server.copied] at copied
    split_ifs at copied
    · exact absurd copied List.not_mem_nil
    · exact copied

/-- A start of the service thread sets it up for the whole list and the whole database. -/
theorem receives_relisted {list : List ClientRef} (present : s.tcpClientSvcMgr = some m)
    (receives : Receives { s with tcpClientSvcMgr := some (relisted s list m) } d) :
    Receives s d ∨ d ∈ list ++ s.tcpClientDb := by
  rcases receives with ⟨_, ⟨⟩, listed⟩ | thread
  · rcases Decidable.em (s.notListeningClients = true) with deaf | listening
    · rw [relisted, if_pos deaf] at listed
      exact .inl (.inl ⟨m, present, listed⟩)
    · rw [relisted, if_neg listening] at listed
      rcases listed with backup | scanned
      · exact .inr (mem_relisted backup)
      · exact absurd scanned.1 List.not_mem_nil
  · exact .inl (.inr thread)

theorem receives_listened (present : s.tcpClientSvcMgr = some m) (receives : Receives (listened c m s) d) :
    Receives s d ∨ d ∈ c :: (svcList s ++ s.tcpClientDb) := by
  have flagged : Calms s (s.mapClient c listening) := calms_mapClient (f := listening) (fun _ => id) fun _ => id
  have before := (calms_addRefs (c :: copied s)).receives receives
  rcases receives_relisted (s := s.mapClient c listening) present before with kept | new
  · exact .inl (flagged.receives kept)
  · right
    rw [svcList_some present]
    rcases List.mem_append.mp new with list | db
    · rcases List.mem_append.mp list with inside | same
      · exact List.mem_cons_of_mem _ (List.mem_append_left _ inside)
      · exact List.mem_singleton.mp same ▸ List.mem_cons_self
    · exact List.mem_cons_of_mem _ (List.mem_append_right _ db)

theorem receives_unlistened (present : s.tcpClientSvcMgr = some m) (receives : Receives (unlistened c m s) d) :
    Receives s d ∨ d ∈ remove c (svcList s) ++ s.tcpClientDb := by
  have released : Calms s (release c (s.mapClient c notListening)) :=
    (calms_mapClient (f := notListening) (fun _ => id) fun _ => id).trans calms_release
  have before := (calms_addRefs (copied s)).receives receives
  rcases receives_relisted (s := release c (s.mapClient c notListening)) present before with kept | new
  · exact .inl (released.receives kept)
  · rw [svcList_some present]
    exact .inr new

/-- What an operation on one client does not do. -/
structure Steady (s t : TcpServerController) : Prop where
  retries : ∀ {d}, Retries t d → Retries s d
  calls : t.calls = s.calls

theorem Calms.steady (calms : Calms s t) : Steady s t :=
  ⟨calms.retries, calms.calls⟩

theorem Steady.trans {middle : TcpServerController} (first : Steady s middle)
    (second : Steady middle t) : Steady s t :=
  ⟨first.retries ∘ second.retries, second.calls.trans first.calls⟩

theorem steady_of_heap (heap : t.heap = s.heap) (calls : t.calls = s.calls) : Steady s t where
  retries := by
    rintro d ⟨client, found, retrying⟩
    exact ⟨client, heap ▸ found, retrying⟩
  calls := calls

theorem steady_threadStarted : Steady s (s.mapClient c threadStarted) where
  retries := by
    rintro d ⟨client, found, retrying⟩
    rw [heap_mapClient] at found
    split_ifs at found with same
    · obtain ⟨before, found', rfl⟩ := Option.map_eq_some_iff.mp found
      exact ⟨before, same ▸ found', retrying⟩
    · exact ⟨client, found, retrying⟩
  calls := rfl

theorem steady_listened : Steady s (listened c m s) := by
  have flagged : Calms s (s.mapClient c listening) := calms_mapClient (f := listening) (fun _ => id) fun _ => id
  have relisted : Steady (s.mapClient c listening) { s.mapClient c listening with
      tcpClientSvcMgr := some (relisted s (m.tcpClientDb ++ [c]) m) } := steady_of_heap rfl rfl
  exact flagged.steady.trans (relisted.trans (calms_addRefs (c :: copied s)).steady)

theorem steady_unlistened : Steady s (unlistened c m s) := by
  have released : Calms s (release c (s.mapClient c notListening)) :=
    (calms_mapClient (f := notListening) (fun _ => id) fun _ => id).trans calms_release
  have relisted : Steady (release c (s.mapClient c notListening)) { release c (s.mapClient c notListening) with
      tcpClientSvcMgr := some (relisted s (remove c m.tcpClientDb) m) } := steady_of_heap rfl rfl
  exact released.steady.trans (relisted.trans (calms_addRefs (copied s)).steady)

theorem steady_served (served : Served c s t) : Steady s t := by
  rcases served with ⟨_, _, _, _, rfl⟩ | ⟨_, m, _, _, _, rfl⟩
  · exact steady_threadStarted
  · exact steady_listened

theorem receives_served (served : Served c s t) (receives : Receives t d) :
    Receives s d ∨ d ∈ c :: if s.createMultiThreaded then [] else svcList s ++ s.tcpClientDb := by
  rcases served with ⟨threaded, _, _, _, rfl⟩ | ⟨multiplexed, m, present, _, _, rfl⟩
  · exact (receives_threadStarted receives).imp_right fun same => by rw [same]; exact List.mem_cons_self
  · rw [multiplexed]
    exact receives_listened present receives

/-- A deletion in stages: what becomes of the lists, and of the receivers. -/
structure DeletesSteadily (c : ClientRef) (client : TcpClient) (s t : TcpServerController) :
    Prop extends Steady s t where
  db : t.tcpClientDb = dbWithout c client s
  svc : svcList t ⊆ if client.multiplexListen then remove c (svcList s) ++ dbWithout c client s else svcList s
  receives : ∀ {d}, Receives t d → Receives s d ∨ d ∈ opens s c client .delete

theorem deletes_steadily {s₁ s₂ s₃ s₄ : TcpServerController}
    (deletes : Deletes c client s s₁ s₂ s₃ s₄ t) :
    DeletesSteadily c client s t := by
  have db : Calms s s₁ ∧ s₁.tcpClientDb = dbWithout c client s ∧ svcList s₁ = svcList s := by
    rw [deletes.db, dbWithout]
    split_ifs
    · exact ⟨(calms_addRefs [c]).trans calms_unkeyed, rfl, rfl⟩
    · exact ⟨calms_addRefs [c], rfl, rfl⟩
  obtain ⟨calms₁, db₁, svc₁⟩ := db
  have svc : DeletesSteadily c client s s₂ := by
    have svc := deletes.svc
    rcases Decidable.em (client.multiplexListen = true) with listens | deaf
    · rw [if_pos listens] at svc
      obtain ⟨m, present, rfl⟩ := svc
      refine ⟨calms₁.steady.trans steady_unlistened, db₁, ?_, fun receives => ?_⟩
      · have list : svcList (unlistened c m s₁) = remove c m.tcpClientDb ++ copied s₁ := relisted_db _
        rw [if_pos listens, list, ← svcList_some present, svc₁, ← db₁]
        exact fun d member => mem_relisted member
      · rw [opens, if_pos listens, ← db₁, ← svc₁]
        exact (receives_unlistened present receives).imp_left calms₁.receives
    · rw [if_neg deaf] at svc
      rw [svc]
      refine ⟨calms₁.steady, db₁, ?_, fun receives => .inl (calms₁.receives receives)⟩
      rw [if_neg deaf, svc₁]
      exact List.Subset.refl _
  have after : Calms s₂ t :=
    deletes.afterSvc (P := Calms s₂) (.of_heap rfl rfl rfl) (fun calms => calms.trans calms_threadStopped)
    (fun calms => calms.trans (.of_heap rfl rfl rfl)) fun calms => calms.trans calms_release
  have list : svcList t = svcList s₂ := deletes.afterSvc (P := fun t => svcList t = svcList s₂) rfl id id id
  exact ⟨svc.toSteady.trans after.steady, deletes_db deletes, list ▸ svc.svc, svc.receives ∘
    after.receives⟩

/-- Whoever receives has been told of the connection and not of its end; a connection that is
still tried has not been told, and neither has one to come. -/
structure Notified (s : TcpServerController) : Prop where
  registered : s.clientConnected = true ∧ s.clientDisconnected = true
  words : WellNotified s
  receives : ∀ {c}, Receives s c → Opened (word c s)
  retries : ∀ {c}, Retries s c → word c s = []
  fresh : ∀ {c}, s.nextClient ≤ c → word c s = []

theorem Grows.registered (grows : Grows s t)
    (registered : s.clientConnected = true ∧ s.clientDisconnected = true) :
    t.clientConnected = true ∧ t.clientDisconnected = true := by
  rw [grows.clientConnected, grows.clientDisconnected]
  exact registered

theorem Notified.steady (notified : Notified s) (grows : Grows s t) (steady : Steady s t)
    (receives : ∀ {d}, Receives t d → Receives s d ∨ Opened (word d s)) : Notified t := by
  have same (d : ClientRef) : word d t = word d s := congrArg (List.filterMap (noteOf d)) steady.calls
  refine ⟨Grows.registered grows notified.registered, fun d => ?_, fun {d} found =>
    ?_, fun {d} found => ?_, fun {d} new => ?_⟩
  · rw [same]
    exact notified.words d
  · rw [same]
    exact (receives found).elim notified.receives id
  · rw [same]
    exact notified.retries (steady.retries found)
  · rw [same]
    exact notified.fresh (Nat.le_trans grows.nextClient new)

theorem Notified.calm (notified : Notified s) (grows : Grows s t) (calms : Calms s t) : Notified t :=
  notified.steady grows calms.steady fun found => .inl (calms.receives found)

/-- One client is told of something. -/
theorem Notified.tell (notified : Notified s) (grows : Grows s t) {calls : List Call}
    (appended : t.calls = s.calls ++ calls)
    (others : ∀ {d}, d ≠ c → ∀ call ∈ calls, noteOf d call = none)
    (receives : ∀ {d}, d ≠ c → Receives t d → Receives s d ∨ Opened (word d s))
    (retries : ∀ {d}, d ≠ c → Retries t d → Retries s d)
    (here : word c t = [] ∨ Opened (word c t) ∨ Closed (word c t))
    (receiver : Receives t c → Opened (word c t)) (retrier : Retries t c → word c t = [])
    (old : c < t.nextClient) : Notified t := by
  have same {d : ClientRef} (other : d ≠ c) : word d t = word d s := word_other appended (others other)
  refine ⟨Grows.registered grows notified.registered, fun d => ?_, fun {d} found =>
    ?_, fun {d} found => ?_, fun {d} new => ?_⟩
  · rcases eq_or_ne d c with rfl | other
    · exact here
    · rw [same other]
      exact notified.words d
  · rcases eq_or_ne d c with rfl | other
    · exact receiver found
    · rw [same other]
      exact (receives other found).elim notified.receives id
  · rcases eq_or_ne d c with rfl | other
    · exact retrier found
    · rw [same other]
      exact notified.retries (retries other found)
  · have other : d ≠ c := Nat.ne_of_gt (Nat.lt_of_lt_of_le old new)
    rw [same other]
    exact notified.fresh (Nat.le_trans grows.nextClient new)

theorem opened_connected (silent : word c s = []) (appended : t.calls = s.calls ++ [.clientConnected c]) :
    Opened (word c t) := by
  have noted : noteOf c (.clientConnected c) = some .connected := if_pos rfl
  rw [word_append appended, silent, List.filterMap_cons_some noted]
  exact ⟨0, rfl⟩

theorem Notified.connect (notified : Notified s) (silent : word c s = []) (grows : Grows s t)
    (appended : t.calls = s.calls ++ [.clientConnected c]) (receives : ∀ {d}, Receives t d → Receives s d)
    (retries : ∀ {d}, Retries t d → d ≠ c ∧ Retries s d) (old : c < t.nextClient) : Notified t := by
  have opened := opened_connected silent appended
  refine notified.tell (c := c) grows appended (fun {d} other call member => ?_)
    (fun _ found => .inl (receives found))
    (fun _ found => (retries found).2) (.inr (.inl opened)) (fun _ => opened)
    (fun found => absurd rfl (retries found).1) old
  obtain rfl := List.mem_singleton.mp member
  exact if_neg other.symm

theorem connectNotified_calls (registered : s.clientConnected = true) :
    (connectNotified c s).calls = s.calls ++ [.clientConnected c] :=
  if_pos registered

theorem notified_served (notified : Notified s) (served : Served c s t) (here : Opened (word c s))
    (others : s.createMultiThreaded = false → ∀ d ∈ svcList s ++ s.tcpClientDb, Opened (word d s)) :
    Notified t := by
  refine notified.steady (framed_served served).toGrows (steady_served served) fun found => ?_
  refine (receives_served served found).imp_right fun set => ?_
  rcases List.mem_cons.mp set with rfl | listed
  · exact here
  · split_ifs at listed with threaded
    · exact absurd listed List.not_mem_nil
    · exact others (Bool.eq_false_iff.mpr threaded) _ listed

theorem notified_created (notified : Notified s)
    (idle : client.clientThread = .null ∧ client.activeConnectThread = .null) :
    Notified (created client s) := by
  refine notified.calm framed_created.toGrows (.of_threads rfl rfl ?_ ?_)
  · rintro d ⟨left, found, receiving⟩
    rw [Option.mem_def, heap_created] at found
    split_ifs at found
    · cases found
      exact absurd (idle.1.symm.trans receiving) (by simp)
    · exact ⟨left, found, receiving⟩
  · rintro d ⟨left, found, retrying⟩
    rw [heap_created] at found
    split_ifs at found
    · cases found
      exact absurd (idle.2.symm.trans retrying) (by simp)
    · exact ⟨left, found, retrying⟩

theorem notified_creates {serverIpAddr : UInt32} {serverPortNo : UInt16} {connect : ConnectResult}
    (notified : Notified s)
    (others : connect.isSome ∧ s.createMultiThreaded = false → ∀ d ∈ svcList s ++ s.tcpClientDb,
      Opened (word d s))
    (creates : Creates serverIpAddr serverPortNo s connect t) : Notified t := by
  have fresh : Notified (created (newActive serverIpAddr serverPortNo s) s) :=
    notified_created notified ⟨rfl, rfl⟩
  have silent : word s.nextClient s = [] := notified.fresh (Nat.le_refl _)
  have silent' : word s.nextClient (created (newActive serverIpAddr serverPortNo s) s) = [] := silent
  cases creates with
  | retrying =>
    have grows := (framed_mapClient (s := created (newActive serverIpAddr serverPortNo s) s) (c := s.nextClient)
      retryStarted nofun).toGrows
    exact fresh.tell (c := s.nextClient) grows (List.append_nil _).symm (by simp)
      (fun _ found => .inl (receives_mapClient (f := retryStarted) (fun _ => id) found))
      retries_mapClient_other (.inl silent')
      (fun found => fresh.receives (receives_mapClient (f := retryStarted) (fun _ => id) found))
      (fun _ => silent') (Nat.lt_succ_self _)
  | @connected portNo t served =>
    have grows := (framed_mapClient (s := created (newActive serverIpAddr serverPortNo s) s) (c := s.nextClient)
      (connectedOn portNo) id).trans (framed_connectNotified (c := s.nextClient))
    have appended := connectNotified_calls (s := (created (newActive serverIpAddr serverPortNo s) s).mapClient
      s.nextClient (connectedOn portNo)) (c := s.nextClient) notified.registered.1
    have told := fresh.connect silent' grows.toGrows appended
      (fun found => receives_mapClient (f := connectedOn portNo) (fun _ => id) found) (fun {d} retries => by
        rcases eq_or_ne d s.nextClient with rfl | other
        · obtain ⟨client, found, retrying⟩ := retries
          rw [heap_connectNotified, heap_mapClient, if_pos rfl, heap_created, if_pos rfl] at found
          cases found
          exact absurd retrying nofun
        · exact ⟨other, retries_mapClient_other (f := connectedOn portNo) other retries⟩)
            (Nat.lt_succ_self _)
    have moved : Notified (connectedActive serverIpAddr serverPortNo portNo s) :=
      told.calm (framed_movedToEstablished (c := s.nextClient)).toGrows (.of_heap rfl rfl rfl)
    refine notified_served moved served (opened_connected silent' appended) fun multiplexed d listed => ?_
    rw [createMultiThreaded_connectedActive] at multiplexed
    rw [svcList_connectedActive, tcpClientDb_connectedActive] at listed
    rcases eq_or_ne d s.nextClient with rfl | other
    · exact opened_connected silent' appended
    · have same : word d (connectedActive serverIpAddr serverPortNo portNo s) = word d s :=
        word_other appended fun call member => by
          obtain rfl := List.mem_singleton.mp member
          exact if_neg other.symm
      rw [same]
      exact others ⟨rfl, multiplexed⟩ d listed

/-- A reconnection is a deletion and a new connection, and each may start the service loop. -/
theorem notified_reconnected {connect : ConnectResult} {s₁ s₂ s₃ s₄ middle : TcpServerController}
    (notified : Notified s) (deletes : Deletes c client s s₁ s₂ s₃ s₄ middle)
    (opened : ∀ d ∈ opens s c client (.reconnect connect), Opened (word d s))
    (creates : Creates client.serverIpAddr client.serverPortNo middle connect t) : Notified t := by
  have steadily := deletes_steadily deletes
  have framed := framed_deletes deletes
  have reopened : ∀ d ∈ (if client.multiplexListen then remove c (svcList s) ++ dbWithout c client s
      else if connect.isSome ∧ s.createMultiThreaded = false then svcList s ++ dbWithout c client s else []),
      Opened (word d s) := opened
  have deleted : Notified middle := by
    refine notified.steady framed.toGrows steadily.toSteady fun receives => ?_
    refine (steadily.receives receives).imp_right fun set => ?_
    rw [opens] at set
    split_ifs at set with listens
    · rw [if_pos listens] at reopened
      exact reopened _ set
    · exact absurd set List.not_mem_nil
  refine notified_creates deleted (fun connected d listed => ?_) creates
  have same : word d middle = word d s := congrArg (List.filterMap (noteOf d)) steadily.calls
  rw [framed.createMultiThreaded] at connected
  rw [if_pos connected] at reopened
  rw [same]
  have lists := steadily.svc
  rw [steadily.db] at listed
  split_ifs at lists reopened with listens
  · rcases List.mem_append.mp listed with inside | kept
    · exact reopened d (lists inside)
    · exact reopened d (List.mem_append_right _ kept)
  · rcases List.mem_append.mp listed with inside | kept
    · exact reopened d (List.mem_append_left _ (lists inside))
    · exact reopened d (List.mem_append_right _ kept)

theorem notified_acted {act : Act} (notified : Notified s)
    (opened : ∀ client, s.heap c = some client → ∀ d ∈ opens s c client act, Opened (word d s))
    (acted : Acted c s act t) : Notified t := by
  have grows := (framed_acted acted).toGrows
  cases acted with
  | nothing => exact notified
  | processNewThreaded found =>
    refine notified.steady grows (calms_added.steady.trans steady_threadStarted) fun receives => ?_
    rcases receives_threadStarted receives with before | rfl
    · exact .inl (calms_added.receives before)
    · exact .inr (opened _ found _ List.mem_cons_self)
  | processNewMultiplexed found _ _ present =>
    refine notified.steady grows (calms_added.steady.trans steady_listened) fun {d} receives => ?_
    rcases receives_listened (s := added c s) present receives with before | set
    · exact .inl (calms_added.receives before)
    · apply Or.inr (opened _ found _ _)
      change d ∈ c :: (svcList s ++ (s.tcpClientDb ++ [c])) at set
      simp only [List.mem_cons, List.mem_append, List.not_mem_nil, or_false, opens] at set ⊢
      tauto
  | deleted deletes =>
    have steadily := deletes_steadily deletes
    exact notified.steady grows steadily.toSteady fun receives =>
      (steadily.receives receives).imp_right (opened _ deletes.found _)
  | reconnected deletes creates => exact notified_reconnected notified deletes (opened _ deletes.found) creates
  | unlistenedThreaded found mode listens _ several present =>
    refine notified.steady grows (steady_unlistened.trans steady_threadStarted) fun receives => ?_
    have set := opened _ found
    simp only [opens, mode, listens, if_true, Bool.false_eq_true, if_false] at set
    rcases receives_threadStarted receives with before | rfl
    · exact (receives_unlistened present before).imp_right fun listed => set _ (List.mem_cons_of_mem _ listed)
    · exact .inr (set _ List.mem_cons_self)
  | threaded found mode =>
    refine notified.steady grows steady_threadStarted fun receives => ?_
    have set := opened _ found
    simp only [opens, mode, Bool.false_eq_true, if_false] at set
    rcases receives_threadStarted receives with before | rfl
    · exact .inl before
    · exact .inr (set _ List.mem_cons_self)
  | stoppedMultiplexed found mode _ _ several present =>
    refine notified.steady grows (calms_threadStopped.steady.trans steady_listened) fun receives => ?_
    have set := opened _ found
    simp only [opens, mode, Bool.false_eq_true, if_false] at set
    exact (receives_listened (s := release c (s.mapClient c threadStopped)) present receives).imp
      calms_threadStopped.receives (set _)
  | multiplexed found mode _ present =>
    refine notified.steady grows steady_listened fun receives => ?_
    have set := opened _ found
    simp only [opens, mode, Bool.false_eq_true, if_false] at set
    exact (receives_listened present receives).imp_right (set _)
  | connectSucceeded found _ _ mode served =>
    have moved := notified.calm (framed_movedToEstablished (c := c)).toGrows (.of_heap rfl rfl rfl)
    have set := opened _ found
    refine notified_served moved served (set c List.mem_cons_self) fun multiplexed d listed => set d ?_
    have multiplexed : s.createMultiThreaded = false := multiplexed
    rw [opens, multiplexed]
    exact List.mem_cons_of_mem _ listed
  | keyDestroyed => exact notified.calm grows calms_unkeyed
  | keyDeleted => exact notified.calm grows calms_unkeyed
  | keyUnlistened found several idle present =>
    refine notified.steady grows (calms_unkeyed.steady.trans steady_unlistened) fun receives => ?_
    have set := opened _ found
    rw [opens, if_pos ⟨idle, Nat.le_of_succ_le several⟩] at set
    exact (receives_unlistened (s := unkeyed c s) present receives).imp calms_unkeyed.receives (set _)
  | migratedToMultiThreaded found idle several present =>
    refine notified.steady grows (steady_unlistened.trans steady_threadStarted) fun receives => ?_
    have set := opened _ found
    rw [opens, if_pos idle] at set
    rcases receives_threadStarted receives with before | rfl
    · exact (receives_unlistened present before).imp_right fun listed => set _ (List.mem_cons_of_mem _ listed)
    · exact .inr (set _ List.mem_cons_self)
  | migratedToMultiplex found running several present =>
    refine notified.steady grows (calms_threadStopped.steady.trans steady_listened) fun receives => ?_
    have set := opened _ found
    rw [opens, if_neg running] at set
    exact (receives_listened (s := release c (s.mapClient c threadStopped)) present receives).imp
      calms_threadStopped.receives (set _)
  | startedListening found present =>
    refine notified.steady grows steady_listened fun receives => ?_
    exact (receives_listened present receives).imp_right (opened _ found _)
  | stoppedListening found _ present =>
    refine notified.steady grows steady_unlistened fun receives => ?_
    exact (receives_unlistened present receives).imp_right (opened _ found _)

theorem calms_svcPurges (purges : SvcPurges c s t) : Calms s t := by
  obtain ⟨_, rfl⟩ := purges
  have unlisted : Calms s (s.mapSvcMgr fun m => { m with tcpClientDb := remove c m.tcpClientDb }) := by
    refine ⟨?_, id, rfl⟩
    rintro d (⟨m, present, listed⟩ | thread)
    · obtain ⟨before, present', rfl⟩ := Option.map_eq_some_iff.mp present
      exact .inl ⟨before, present', listed⟩
    · exact .inr thread
  exact unlisted.trans ((calms_mapClient (f := notListening) (fun _ => id) fun _ => id).trans calms_release)

theorem calms_drains {visits : ClientRef → TcpServerController → TcpServerController → Prop}
    {rest : ClientRef → List ClientRef → List ClientRef} {list : List ClientRef}
    (drains : Drains visits rest list s t)
    (calms : ∀ {c s t}, visits c s t → Calms s t) : Calms s t :=
  drains.invariant (motive := fun _ middle => Calms s middle) (fun visited before => before.trans (calms visited))
    (.of_heap rfl rfl rfl)

theorem calms_svcEnds (ends : SvcEnds s t) : Calms s t := by
  obtain @⟨m, left, middle, present, purges, kept, empty⟩ := ends
  have stopped : Calms s { s with tcpClientSvcMgr := some { m with thread := false } } := by
    refine ⟨?_, id, rfl⟩
    rintro d (⟨_, ⟨⟩, listed⟩ | thread)
    · exact .inl ⟨m, present, listed⟩
    · exact .inr thread
  have gone : Calms middle { middle with notListeningClients := true, tcpClientSvcMgr := none } := by
    refine ⟨?_, id, rfl⟩
    rintro d (⟨_, absent, _⟩ | thread)
    · cases absent
    · exact .inr thread
  exact stopped.trans ((calms_drains purges calms_svcPurges).trans gone)

theorem calms_stops (stops : Stops s t) : Calms s t := by
  obtain @⟨s₁, s₂, s₃, s₄, svc, db, _, pending, established⟩ := stops
  have served : Calms s s₁ := by
    split_ifs at svc
    · exact calms_svcEnds svc
    · rw [svc]
      exact .of_heap rfl rfl rfl
  have purged : Calms s₁ s₂ := by
    apply calms_drains db
    rintro c s t ⟨client, _, rfl⟩
    split_ifs
    · exact calms_unkeyed
    · exact calms_threadStopped.trans calms_unkeyed
  have unconnected : Calms s₂ s₃ := by
    apply calms_drains pending
    rintro c s t ⟨client, rest, _, _, _, rfl⟩
    have joined : Calms s (release c (s.mapClient c connectorJoined)) := by
      refine (calms_mapClient (f := connectorJoined) (fun _ => id) ?_).trans calms_release
      intro client retrying
      cases retrying
    have popped : Calms s { release c (s.mapClient c connectorJoined) with connectpendingClients := rest } :=
      joined.trans (.of_heap rfl rfl rfl)
    exact popped.trans calms_release
  have disconnected : Calms s₃ s₄ := by
    apply calms_drains established
    rintro c s t ⟨client, rest, _, _, _, rfl⟩
    have joined : Calms s (if client.threaded then release c (s.mapClient c threadStopped) else s) := by
      split_ifs
      · exact calms_threadStopped
      · exact .of_heap rfl rfl rfl
    have popped : Calms s { (if client.threaded then release c (s.mapClient c threadStopped) else s) with
        establishedClient := rest } := joined.trans (.of_heap rfl rfl rfl)
    exact popped.trans calms_release
  exact (served.trans (purged.trans (unconnected.trans disconnected))).trans (.of_heap rfl rfl rfl)

theorem calms_scanning {rest : List ClientRef} (present : s.tcpClientSvcMgr = some m)
    (scan : m.scan = c :: rest) :
    Calms s { s with tcpClientSvcMgr := some (scanning rest m) } := by
  refine ⟨?_, id, rfl⟩
  rintro d (⟨_, ⟨⟩, backup | ⟨scanned, active⟩⟩ | thread)
  · exact .inl ⟨m, present, .inl backup⟩
  · exact .inl ⟨m, present, .inr ⟨scan ▸ List.mem_cons_of_mem c scanned, active⟩⟩
  · exact .inr thread

theorem opened_silent {notes : List Note} (opened : Opened notes) : notes ≠ [] := by
  obtain ⟨n, rfl⟩ := opened
  exact List.cons_ne_nil _ _

theorem Notified.allocated (notified : Notified s) (opened : Opened (word c s)) : c < s.nextClient := by
  rcases Nat.lt_or_ge c s.nextClient with old | new
  · exact old
  · exact absurd (notified.fresh new) (opened_silent opened)

theorem notified_heard (notified : Notified s) (heard : Heard c s t) (opened : Opened (word c s)) :
    Notified t := by
  have grows := heard_grows heard
  have old := Nat.lt_of_lt_of_le (notified.allocated opened) grows.nextClient
  obtain ⟨msgd, bytesRecvd, receipts⟩ := heard
  rename_i calls
  have calms : Calms s (s.mapClient c (received msgd bytesRecvd)) :=
    calms_mapClient (f := received msgd bytesRecvd) (fun _ => id) fun _ => id
  have still : Opened (word c { s.mapClient c (received msgd bytesRecvd) with calls := s.calls ++ calls }) := by
    rw [word_append (s := s) rfl]
    exact opened_receipts opened receipts
  refine notified.tell (c := c) grows rfl (fun other call member => ?_)
    (fun _ found => .inl (calms.receives found))
    (fun _ found => calms.retries found) (.inr (.inl still)) (fun _ => still) (fun found => ?_) old
  · exact noteOf_receipt_other other (receipts call member)
  · exact absurd (notified.retries (calms.retries found)) (opened_silent opened)

theorem closed_disconnected (opened : Opened (word c s))
    (appended : t.calls = s.calls ++ [.clientDisconnected c]) :
    Closed (word c t) := by
  have noted : noteOf c (.clientDisconnected c) = some .disconnected := if_pos rfl
  obtain ⟨n, notes⟩ := opened
  rw [word_append appended, notes, List.filterMap_cons_some noted]
  exact ⟨n, rfl⟩

/-- Nobody receives for the client any more. -/
theorem Notified.disconnect (notified : Notified s) (opened : Opened (word c s)) (grows : Grows s t)
    (appended : t.calls = s.calls ++ [.clientDisconnected c])
    (calms : ∀ {d}, Receives t d → d ≠ c ∧ Receives s d)
    (retries : ∀ {d}, Retries t d → Retries s d) : Notified t := by
  have old := Nat.lt_of_lt_of_le (notified.allocated opened) grows.nextClient
  refine notified.tell (c := c) grows appended (fun {d} other call member => ?_)
    (fun _ found => .inl (calms found).2)
    (fun _ found => retries found) (.inr (.inr (closed_disconnected opened appended)))
    (fun found => absurd rfl (calms found).1) (fun found => ?_) old
  · obtain rfl := List.mem_singleton.mp member
    exact if_neg other.symm
  · exact absurd (notified.retries (retries found)) (opened_silent opened)

theorem opens_dequeued {e : Event} {act : Act} : opens (dequeued s e) c client act = opens s c client act := by
  cases e <;> rfl

theorem notified_accepted {ipAddr : UInt32} {portNo : UInt16} (notified : Notified s) :
    Notified (accepted ipAddr portNo s) := by
  have appended := connectNotified_calls (s := admitted ipAddr portNo s) (c := s.nextClient) notified.registered.1
  refine notified.connect (notified.fresh (Nat.le_refl _)) accepted_grows appended ?_ ?_ (Nat.lt_succ_self _)
  · rintro d (service | ⟨client, found, receiving⟩)
    · exact .inl service
    · rw [Option.mem_def, heap_accepted] at found
      split_ifs at found
      · cases found
        exact absurd receiving nofun
      · exact .inr ⟨client, found, receiving⟩
  · rintro d ⟨client, found, retrying⟩
    rw [heap_accepted] at found
    split_ifs at found with same
    · cases found
      exact absurd retrying nofun
    · exact ⟨same, client, found, retrying⟩

theorem notified_retryPosted {portNo : UInt16} (sound : Sound s) (notified : Notified s)
    (found : s.heap c = some client)
    (retrying : client.activeConnectThread = .retrying) : Notified (retryPosted c portNo s) := by
  have silent := notified.retries ⟨client, found, retrying⟩
  have appended := connectNotified_calls (s := s.mapClient c (connectedOn portNo)) (c := c) notified.registered.1
  refine notified.connect silent retryPosted_grows appended ?_ ?_ (sound.allocated found)
  · rintro d (service | ⟨left, found', receiving⟩)
    · exact .inl service
    · rw [Option.mem_def, heap_retryPosted] at found'
      split_ifs at found' with same
      · obtain ⟨before, there, rfl⟩ := Option.map_eq_some_iff.mp found'
        exact .inr ⟨before, same ▸ there, receiving⟩
      · exact .inr ⟨left, found', receiving⟩
  · rintro d ⟨left, found', retrying⟩
    rw [heap_retryPosted] at found'
    split_ifs at found' with same
    · obtain ⟨before, _, rfl⟩ := Option.map_eq_some_iff.mp found'
      exact absurd retrying nofun
    · exact ⟨same, left, found', retrying⟩

theorem calms_selected (present : s.tcpClientSvcMgr = some m) (ready : List ClientRef) :
    Calms s { s with tcpClientSvcMgr := some (selected ready m) } := by
  refine ⟨?_, id, rfl⟩
  rintro d (⟨_, ⟨⟩, backup | ⟨_, active⟩⟩ | thread)
  · exact .inl ⟨m, present, .inl backup⟩
  · exact .inl ⟨m, present, .inl (List.mem_of_mem_filter active)⟩
  · exact .inr thread

theorem notified_effect {e : Event} (sound : Sound s) (opens' : ReceivesOpen s e) (effect : Effect s e t)
    (notified : Notified s) : Notified t := by
  have grows := effect_grows effect
  cases effect with
  | @acted _ act c _ performs acted =>
    have popped : Notified (dequeued s e) := by
      cases e <;> exact notified.calm (grows_of_heap rfl rfl rfl rfl) (.of_heap rfl rfl rfl)
    refine notified_acted popped (fun client found d set => ?_) acted
    rw [opens_dequeued] at set
    cases e <;> exact opens'.1 _ performs client found d set
  | unchanged => exact notified
  | toggled => exact notified.calm grows (.of_heap rfl rfl rfl)
  | accepted => exact notified_accepted notified
  | created creates => exact notified_creates notified opens'.2 creates
  | retryPosted found retrying => exact notified_retryPosted sound notified found retrying
  | @retryExited c =>
    have stopped : Calms s (s.mapClient c connectorStopped) := by
      apply calms_mapClient (f := connectorStopped) fun _ => id
      intro client retrying
      cases retrying
    exact notified.calm grows (stopped.trans calms_release)
  | requested => exact notified.calm grows (.of_heap rfl rfl rfl)
  | selected present _ ready => exact notified.calm grows (calms_selected present ready)
  | skipped present _ scan => exact notified.calm grows (calms_scanning present scan)
  | @svcHeard m c rest _ _ present _ scan active _ heard =>
    have scans : Grows s { s with tcpClientSvcMgr := some (scanning rest m) } := grows_of_heap rfl rfl rfl rfl
    have opened := notified.receives (.inl ⟨m, present, .inr ⟨scan ▸ List.mem_cons_self, active⟩⟩)
    exact notified_heard (notified.calm scans (calms_scanning present scan)) heard opened
  | @svcEnded m c rest _ client present _ scan active ended found =>
    have opened := notified.receives (.inl ⟨m, present, .inr ⟨scan ▸ List.mem_cons_self, active⟩⟩)
    obtain ⟨once, threadless⟩ := opens'.2 ended m present c (by rw [scan]; rfl) active
    rw [scan] at once
    refine notified.disconnect opened grows rfl ?_ id
    rintro d (⟨_, ⟨⟩, backup | ⟨scanned, active⟩⟩ | thread)
    · obtain ⟨kept, other⟩ := List.mem_filter.mp backup
      exact ⟨of_decide_eq_true other, .inl ⟨m, present, .inl kept⟩⟩
    · exact ⟨fun same => once (same ▸ scanned),
        .inl ⟨m, present, .inr ⟨scan ▸ List.mem_cons_of_mem c scanned, active⟩⟩⟩
    · exact ⟨fun same => threadless (same ▸ thread), .inr thread⟩
  | threadHeard found receiving _ heard =>
    exact notified_heard notified heard (notified.receives (.inr ⟨_, found, receiving⟩))
  | @threadEnded c _ client found receiving ended =>
    have opened := notified.receives (.inr ⟨_, found, receiving⟩)
    have unserved := opens'.2 ended
    have waits : Calms s (s.mapClient c waiting) := by
      apply calms_mapClient
      · intro client receiving
        cases receiving
      · exact fun _ => id
    refine notified.disconnect opened grows (if_pos notified.registered.2) ?_ waits.retries
    rintro d (service | ⟨left, found', receiving'⟩)
    · exact ⟨fun same => unserved (same ▸ service), .inl service⟩
    · rw [Option.mem_def, heap_threadEnded] at found'
      split_ifs at found' with same
      · obtain ⟨_, _, rfl⟩ := Option.map_eq_some_iff.mp found'
        cases receiving'
      · exact ⟨same, .inr ⟨left, found', receiving'⟩⟩
  | svcStopped _ ends => exact notified.calm grows (calms_svcEnds ends)
  | svcStarted =>
    refine notified.calm grows ⟨?_, id, rfl⟩
    rintro d (⟨_, ⟨⟩, backup | ⟨scanned, _⟩⟩ | thread)
    · exact absurd backup List.not_mem_nil
    · exact absurd scanned List.not_mem_nil
    · exact .inr thread
  | stopped notAccepting acceptor stops =>
    have toggles : Calms s (toggled notAccepting acceptor s.createMultiThreaded s) := .of_heap rfl rfl rfl
    exact notified.calm grows (toggles.trans (calms_stops stops))

/-- As long as receivers are set up for open clients only, and one receiver at most finds the end of
a stream, the application is told of every client in order. -/
theorem notifications {ipAddr : UInt32} {portNo : UInt16} {es : List Event}
    (path : Path (Guarded TcpServerController.Step ReceivesOpen) (.started ipAddr portNo) es t) :
    WellNotified t := by
  have initially : Notified (.started ipAddr portNo) := by
    refine ⟨⟨rfl, rfl⟩, fun c => .inl rfl, ?_, ?_, fun _ => rfl⟩
    · rintro c (⟨_, ⟨⟩, backup | ⟨scanned, _⟩⟩ | ⟨_, found, _⟩)
      · exact absurd backup List.not_mem_nil
      · exact absurd scanned List.not_mem_nil
      · cases found
    · rintro c ⟨_, found, _⟩
      cases found
  exact (run_invariant path (fun sound opens' effect notified =>
    notified_effect sound opens' effect notified) initially).2.words

end

/-- A multiplexed active opener hears from its server, loses it and reconnects. -/
def openEvents : List Event :=
  [.createActiveClient 7 7 (some 1), .select [0], .visit (.bytes [1]), .select [0], .visit (.bytes []),
    .processFront (some 2)]

theorem notifications_openEvents :
    WellNotified (TcpServerController.stateAfter ReceivesOpen (.started 1 1) openEvents) :=
  notifications (TcpServerController.stateAfter_path rfl)

/-- A peer that is listed twice is found to have left twice. -/
theorem departedClient_toldTwice :
    ¬ ∀ es t, Path TcpServerController.Step (.started 1 1) es t → WellNotified t := by
  intro always
  have notified := always [.accept 9 9, .processFront none, .select [0], .visit (.bytes []), .visit (.bytes [])] _
    (TcpServerController.stateAfter_unguarded rfl)
  have told : word 0 (TcpServerController.stateAfter (fun _ _ => True) (.started 1 1)
      [.accept 9 9, .processFront none, .select [0], .visit (.bytes []), .visit (.bytes [])]) =
      [.connected, .disconnected, .disconnected] := by decide
  have words := notified 0
  rw [told] at words
  rcases words with silent | opened | ⟨n, closed⟩
  · cases silent
  · exact absurd opened (by decide)
  · cases n with
    | zero => exact absurd closed (by decide)
    | succ n => exact absurd (congrArg (fun notes => notes.tail.head?) closed) nofun

end TcpServerLib.Soundness
