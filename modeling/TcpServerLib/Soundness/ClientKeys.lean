import TcpServerLib.Refinement.ClientKeys

/-! # The keys of the clients

The client database and the service manager tell their clients apart by address and port, and assert
that a client they take in is not there yet. The key of a passive opener is the remote end of its
connection and that of an active opener is the local end of its own, so that a connection of the server
to itself has two clients with one key. Otherwise the assertions hold as long as every connection is
made under a key that is free once the messages before it have been processed.
-/

namespace TcpServerLib.Soundness

open Machine Model Refinement Refinement.Server Prog

/-- What the peers, the network and the queue do while the application does no more than connect. -/
def Traffic : Event → Prop
  | .accept .. => True
  | .processFront _ => True
  | .connectRetryPost .. => True
  | .connectRetryExit _ => True
  | .select _ => True
  | .visit _ => True
  | .clientThread .. => True
  | .createActiveClient .. => True
  | _ => False

instance (e : Event) : Decidable (Traffic e) := by
  apply @Event.casesOn (fun e => Decidable (Traffic e)) e <;> intros <;> unfold Traffic <;> infer_instance

/-- A connection that is made finds its key free: at once if it is served by the thread that makes it,
else when the queue has been worked through. -/
def KeysFresh (s : TcpServerController) : Event → Prop
  | .accept ipAddr portNo => Free (keyOf s) (ipAddr, portNo) (settled (listed s) (pendings s))
  | .connectRetryPost c portNo => s.createMultiThreaded = false →
    ∀ client ∈ s.heap c, Free (keyOf s) (client.ipAddr, portNo) (settled (listed s) (pendings s))
  | .createActiveClient _ _ connect => s.createMultiThreaded = false →
    ∀ portNo ∈ connect, Free (keyOf s) (s.ipAddr, portNo) (listed s ++ joiners (pendings s))
  | .processFront connect => s.createMultiThreaded = false → ∀ msg ∈ s.msgQ.head?,
      .reconnect ∈ msg.code →
    ∀ portNo ∈ connect, Free (keyOf s) (s.ipAddr, portNo)
    (remove msg.data (listed s) ++ joiners (pendings s).tail)
  | _ => True

instance (key : ClientRef → Option ClientKey) (k : ClientKey) (list : List ClientRef) :
    Decidable (Free key k list) :=
  inferInstanceAs (Decidable (∀ c ∈ list, key c ≠ some k))

/-- By a look at the option, and not at all ports there are. -/
local instance decidableForallOption {α : Type} (o : Option α) (p : α → Prop) [DecidablePred p] :
  Decidable (∀ a ∈ o, p a) :=
  Option.decidableForallMem o

instance (s : TcpServerController) (e : Event) : Decidable (KeysFresh s e) := by
  apply @Event.casesOn (fun e => Decidable (KeysFresh s e)) e <;> intros <;> unfold KeysFresh <;> infer_instance

/-- A call that asserts something of the key of a client. -/
inductive KeyCall where
  | addClientToDB (c : ClientRef)
  | startListen (c : ClientRef)
  | stopListen (c : ClientRef)

/-- The assertion, as the search in the list decides it. -/
def KeyCall.AssertionHolds (s : TcpServerController) : KeyCall → Prop
  | .addClientToDB c => ∀ client found t, s.heap c = some client →
    (lookUpClientDB client.ipAddr client.portNo s.tcpClientDb).Runs s found t → found = none
  | .startListen c => ∀ client found t, s.heap c = some client →
    (lookUpClientDB client.ipAddr client.portNo (svcList s)).Runs s found t → found = none
  | .stopListen c => ∀ client found t, s.heap c = some client →
    (lookUpClientDB client.ipAddr client.portNo (svcList s)).Runs s found t → found ≠ none

/-- `ProcessClientDelete` as far as its call of `ClientFDStopListenSimple`. -/
def deleteBegin (c : ClientRef) : Op Unit := do
  TcpClient.reference c
  let client ← deref c
  when client.passiveOpener (TcpClientDbManager.removeClientFromDB c)

/-- The rest of `ProcessClientDelete`. -/
def deleteEnd (c : ClientRef) : Op Unit := do
  let client ← deref c
  when (client.clientThread ≠ .null) (TcpClient.stopThread c)
  let client ← deref c
  when client.activeOpener do
    perform (.lock .connectDbRwlock)
    let client ← deref c
    TcpServerController.removeActiveOpened c client.connected
    perform (.unlock .connectDbRwlock)
  let _ ← TcpClient.dereference c

theorem processClientDelete_calls (c : ClientRef) : TcpServerController.processClientDelete c = (do
    deleteBegin c
    let client ← deref c
    when client.multiplexListen (TcpClientServiceManager.clientFDStopListenSimple c)
    deleteEnd c) := by
  simp only [TcpServerController.processClientDelete, deleteBegin, deleteEnd, Prog.bind_assoc]

inductive DeleteCalls (c : ClientRef) (s : TcpServerController) : KeyCall → TcpServerController → Prop
  | stopListen {middle : TcpServerController} {client : TcpClient} (begun : (deleteBegin c).Runs s () middle)
      (found : middle.heap c = some client) (listens : client.multiplexListen = true) :
      DeleteCalls c s (.stopListen c) middle

inductive CreateCalls (serverIpAddr : UInt32) (serverPortNo : UInt16) (connect : ConnectResult)
    (s : TcpServerController) :
    KeyCall → TcpServerController → Prop
  | startListen {c : ClientRef} {middle : TcpServerController}
      (connected : (connectActive serverIpAddr serverPortNo connect).Runs s (some c) middle)
      (multiplexed : middle.createMultiThreaded = false) :
      CreateCalls serverIpAddr serverPortNo connect s (.startListen c) middle

/-- The calls of `ProcessMsgQMsg` for a message about a client. -/
inductive RequestCalls (c : ClientRef) (connect : ConnectResult) (s : TcpServerController) :
    Request → KeyCall → TcpServerController → Prop
  | addClientToDB (threaded : Bool) : RequestCalls c connect s (.processNew threaded) (.addClientToDB c) s
  | multiplexListen {middle : TcpServerController}
      (added : (TcpClientDbManager.addClientToDB c).Runs s () middle) :
      RequestCalls c connect s (.processNew false) (.startListen c) middle
  | delete {call : KeyCall} {middle : TcpServerController} (calls : DeleteCalls c s call middle) :
      RequestCalls c connect s .delete call middle
  | reconnect {call : KeyCall} {middle : TcpServerController} (calls : DeleteCalls c s call middle) :
      RequestCalls c connect s .reconnect call middle
  | connectAnew {call : KeyCall} {client : TcpClient} {deleted middle : TcpServerController}
      (found : s.heap c = some client)
      (deletes : (TcpServerController.processClientDelete c).Runs s () deleted)
      (calls : CreateCalls client.serverIpAddr client.serverPortNo connect deleted call middle) :
      RequestCalls c connect s .reconnect call middle
  | toMultithreaded {client : TcpClient} (found : s.heap c = some client) (mode : client.threaded = false)
      (listens : client.multiplexListen = true) : RequestCalls c connect s .toMultithreaded (.stopListen c) s
  | toMultiplex {client : TcpClient} {middle : TcpServerController} (found : s.heap c = some client)
      (mode : client.multiplexListen = false)
      (stopped : (when client.threaded (TcpClient.stopThread c)).Runs s () middle) :
      RequestCalls c connect s .toMultiplex (.startListen c) middle
  | connectSuccess {middle : TcpServerController}
      (moved : (TcpServerController.moveToEstablished c).Runs s () middle)
      (multiplexed : middle.createMultiThreaded = false) :
      RequestCalls c connect s .connectSuccess (.startListen c) middle

/-- The calls of a step, each in the state it is made in. No other step of the traffic makes one. -/
inductive KeyCalls (s : TcpServerController) : Event → KeyCall → TcpServerController → Prop
  | message {connect : ConnectResult} {msg : TcpServerMsg} {rest : List TcpServerMsg}
      {request : Request} {call : KeyCall}
      {middle : TcpServerController} (front : s.msgQ = msg :: rest) (posted : msg.code = request.code)
      (calls : RequestCalls msg.data connect { s with msgQ := rest } request call middle) :
      KeyCalls s (.processFront connect) call middle
  | created {serverIpAddr : UInt32} {serverPortNo : UInt16} {connect : ConnectResult} {call : KeyCall}
      {middle : TcpServerController} (calls : CreateCalls serverIpAddr serverPortNo connect s call middle) :
      KeyCalls s (.createActiveClient serverIpAddr serverPortNo connect) call middle

/-- No two clients of a list have one key. -/
def UniqueKeys (s : TcpServerController) (list : List ClientRef) : Prop :=
  ∀ c ∈ list, ∀ d ∈ list, ∀ key, keyOf s c = some key → keyOf s d = some key → c = d

/-- What a message of the traffic asks for. -/
def Ordinary (s : TcpServerController) (msg : TcpServerMsg) : Prop :=
  (msg.code = (Request.processNew s.createMultiThreaded).code ∧ msg.data < s.nextClient ∧
    ∀ client ∈ s.heap msg.data, client.passiveOpener = true) ∨
  msg.code = Request.delete.code ∨ msg.code = Request.reconnect.code ∨ msg.code = Request.connectSuccess.code

structure KeysKept (s : TcpServerController) : Prop where
  keys : ClientKeys (pendings s) s
  listing : Listing s
  ordinary : ∀ msg ∈ s.msgQ, Ordinary s msg

section

variable {s t : TcpServerController} {c : ClientRef} {client : TcpClient} {msg : TcpServerMsg}
  {rest : List TcpServerMsg} {connect : ConnectResult} {changes : List (Change ClientRef)}

theorem Ordinary.kept (ordinary : Ordinary s msg) (nextClient : s.nextClient ≤ t.nextClient)
    (mode : t.createMultiThreaded = s.createMultiThreaded) (openers : KeepsOpeners s t) : Ordinary t msg := by
  rcases ordinary with ⟨code, old, passive⟩ | others
  · left
    rw [mode]
    refine ⟨code, Nat.lt_of_lt_of_le old nextClient, fun client found => ?_⟩
    obtain ⟨before, found', same⟩ := openers _ old client found
    exact same.trans (passive before found')
  · exact .inr others

/-- What a step does to the lists, with the changes that are still to come. -/
structure KeepsKeys (changes : List (Change ClientRef)) (s t : TcpServerController) : Prop where
  keys : ClientKeys changes t
  openers : KeepsOpeners s t
  nextClient : s.nextClient ≤ t.nextClient
  mode : t.createMultiThreaded = s.createMultiThreaded

/-- The key of a connection that is made again is free among those that are left. -/
theorem free_deleted {s₁ s₂ s₃ s₄ : TcpServerController}
    (keys : ClientKeys (.leave msg.data :: changes) s)
    (deletes : Deletes msg.data client s s₁ s₂ s₃ s₄ t)
    (fresh : s.createMultiThreaded = false → .reconnect ∈ msg.code → ∀ portNo ∈ connect,
      Free (keyOf s) (s.ipAddr, portNo) (remove msg.data (listed s) ++ joiners changes))
    (code : msg.code = Request.reconnect.code) : t.createMultiThreaded = false → ∀ portNo ∈ connect,
      Free (keyOf t) (t.ipAddr, portNo) (listed t ++ joiners changes) := by
  intro multiplexed portNo connected
  have mode := (framed_deletes deletes).createMultiThreaded
  rw [deletes_ipAddr deletes]
  refine (fresh (mode.symm.trans multiplexed) (code ▸ List.mem_singleton_self _) portNo connected).narrow ?_
    fun d _ => keyOf_ages (ages_deletes deletes) d
  intro d member
  rcases List.mem_append.mp member with left | joins
  · obtain ⟨earlier, other⟩ := (listed_deletes keys deletes).2 d left
    exact List.mem_append_left _ (mem_remove earlier other)
  · exact List.mem_append_right _ joins

/-- One message of the traffic. -/
theorem keeps_message (keys : ClientKeys (pending s.createMultiThreaded msg :: changes) s) (listing : Listing s)
    (ordinary : Ordinary s msg)
    (fresh : s.createMultiThreaded = false → .reconnect ∈ msg.code → ∀ portNo ∈ connect,
      Free (keyOf s) (s.ipAddr, portNo) (remove msg.data (listed s) ++ joiners changes))
    (ran : (TcpServerController.processMsgQMsg msg connect).Runs s () t) : KeepsKeys changes s t ∧
    t.msgQ = s.msgQ := by
  rcases ordinary with ⟨code, _, passive⟩ | code | code | code
  · have joins : pending s.createMultiThreaded msg = .join msg.data := by
      rw [pending, code]
      cases s.createMultiThreaded <;> rfl
    have acted := processMsgQMsg_runs code ran
    have framed := framed_acted acted
    rw [joins] at keys
    exact ⟨⟨keys_processNew keys passive rfl acted, keepsOpeners_processNew acted, framed.nextClient,
      framed.createMultiThreaded⟩, framed.msgQ⟩
  · have leaves : pending s.createMultiThreaded msg = .leave msg.data := by
      rw [pending, code]
      rfl
    obtain ⟨client, s₁, s₂, s₃, s₄, deletes⟩ := delete_runs code ran
    have framed := framed_deletes deletes
    rw [leaves] at keys
    exact ⟨⟨keys_deletes keys listing deletes, (ages_deletes deletes).keepsOpeners, framed.nextClient,
      framed.createMultiThreaded⟩, framed.msgQ⟩
  · have leaves : pending s.createMultiThreaded msg = .leave msg.data := by
      rw [pending, code]
      rfl
    obtain ⟨client, s₁, s₂, s₃, s₄, middle, deletes, creates⟩ := reconnect_runs code ran
    have framed := framed_deletes deletes
    have framed' := framed_creates creates
    rw [leaves] at keys
    have left := keys_deletes keys listing deletes
    have free := free_deleted keys deletes fresh code
    exact ⟨⟨keys_creates left free creates, (ages_deletes deletes).keepsOpeners.trans
      (keepsOpeners_creates creates) framed.nextClient,
      Nat.le_trans framed.nextClient framed'.nextClient,
      framed'.createMultiThreaded.trans framed.createMultiThreaded⟩, framed'.msgQ.trans framed.msgQ⟩
  · have acted := processMsgQMsg_runs code ran
    have framed := framed_acted acted
    have same : pending s.createMultiThreaded msg = pending s.createMultiThreaded
        ⟨Request.connectSuccess.code, msg.data, none⟩ := by
      rw [pending, pending, code]
    rw [same] at keys
    exact ⟨⟨keys_connectSuccess keys acted, keepsOpeners_connectSuccess acted, framed.nextClient,
      framed.createMultiThreaded⟩, framed.msgQ⟩

theorem KeepsKeys.of_ages (keys : ClientKeys changes s) (db : t.tcpClientDb = s.tcpClientDb)
    (svc : svcList t = svcList s)
    (nextClient : t.nextClient = s.nextClient) (mode : t.createMultiThreaded = s.createMultiThreaded)
    (ages : Ages (fun _ => False) s t) : KeepsKeys changes s t :=
  ⟨keys.ages db svc (Nat.le_of_eq nextClient.symm) mode ages, ages.keepsOpeners,
    Nat.le_of_eq nextClient.symm, mode⟩

theorem keeps_heard (keys : ClientKeys changes s) (heard : Heard c s t) : KeepsKeys changes s t := by
  obtain ⟨msgd, bytesRecvd, _⟩ := heard
  have ages : Ages (fun _ => False) s (s.mapClient c (received msgd bytesRecvd)) :=
    ages_mapClient (fun _ => ⟨rfl, rfl, id⟩) fun _ => .inr rfl
  exact .of_ages keys rfl rfl rfl rfl (ages.trans (.of_heap rfl))

theorem keysKept_same (kept : KeysKept s) (keeps : KeepsKeys (pendings s) s t) (listing : Listing t)
    (queue : t.msgQ = s.msgQ) :
    KeysKept t where
  keys := by
    rw [pendings, queue, keeps.mode]
    exact keeps.keys
  listing := listing
  ordinary msg queued := by
    rw [queue] at queued
    exact (kept.ordinary msg queued).kept keeps.nextClient keeps.mode keeps.openers

theorem keysKept_posted (kept : KeysKept s) (keeps : KeepsKeys (pendings s) s t) (listing : Listing t)
    (queue : t.msgQ = s.msgQ ++ [msg])
    (enters : Enters (keyOf t) (settled (listed t) (pendings s)) (pending s.createMultiThreaded msg))
    (addressed : ∀ c ∈ (pending s.createMultiThreaded msg).joining, Addressed t c)
    (ordinary : Ordinary t msg) :
    KeysKept t where
  keys := by
    rw [pendings, queue, keeps.mode, List.map_append]
    exact keeps.keys.post enters addressed
  listing := listing
  ordinary other queued := by
    rw [queue] at queued
    rcases List.mem_append.mp queued with earlier | posted
    · exact (kept.ordinary other earlier).kept keeps.nextClient keeps.mode keeps.openers
    · exact List.mem_singleton.mp posted ▸ ordinary

/-- A thread that waits for its message puts it before all others. -/
theorem keysKept_postedFirst (kept : KeysKept s) (keeps : KeepsKeys (pendings s) s t) (listing : Listing t)
    (queue : t.msgQ = msg :: s.msgQ)
    (code : msg.code = Request.delete.code ∨ msg.code = Request.reconnect.code) :
    KeysKept t where
  keys := by
    have leaves : pending s.createMultiThreaded msg = .leave msg.data := by
      rcases code with code | code <;> rw [pending, code] <;> rfl
    rw [pendings, queue, keeps.mode, List.map_cons, leaves]
    exact keeps.keys.leaveFirst msg.data
  listing := listing
  ordinary other queued := by
    rw [queue] at queued
    rcases List.mem_cons.mp queued with rfl | earlier
    · exact .inr (code.imp_right .inl)
    · exact (kept.ordinary other earlier).kept keeps.nextClient keeps.mode keeps.openers

/-- Nothing that happens elsewhere gives a member the key. -/
theorem free_settled {key : ClientKey} (lists : listed t = listed s)
    (heap : ∀ d ∈ listed s ++ joiners changes, t.heap d = s.heap d)
    (fresh : Free (keyOf s) key (settled (listed s) changes)) :
    Free (keyOf t) key (settled (listed t) changes) := by
  rw [lists]
  refine fresh.narrow (List.Subset.refl _) fun d member => .inr ?_
  rw [keyOf, keyOf, heap d (settled_subset _ _ member)]

theorem keysKept_accept {ipAddr : UInt32} {portNo : UInt16} (kept : KeysKept s)
    (fresh : Free (keyOf s) (ipAddr, portNo) (settled (listed s) (pendings s)))
    (listing : Listing (accepted ipAddr portNo s)) :
    KeysKept (accepted ipAddr portNo s) := by
  have elsewhere : ∀ d ∈ listed s ++ joiners (pendings s), (accepted ipAddr portNo s).heap d = s.heap d := by
    intro d member
    rw [heap_accepted, if_neg (Nat.ne_of_lt (kept.keys.joined.addressed d member).1)]
  have own : (accepted ipAddr portNo s).heap s.nextClient = some (newPassive ipAddr portNo s) := by
    rw [heap_accepted, if_pos rfl]
  have joins : pending s.createMultiThreaded ⟨(Request.processNew s.createMultiThreaded).code,
      s.nextClient, none⟩ =
      .join s.nextClient := by
    cases mode : s.createMultiThreaded <;> rfl
  have keeps : KeepsKeys (pendings s) s (accepted ipAddr portNo s) := by
    refine ⟨kept.keys.elsewhere rfl rfl (Nat.le_succ _) rfl elsewhere, fun d old client found =>
      ?_, Nat.le_succ _, rfl⟩
    rw [heap_accepted, if_neg (Nat.ne_of_lt old)] at found
    exact ⟨client, found, rfl⟩
  refine keysKept_posted kept keeps listing rfl (joins ▸ ?_) (joins ▸ ?_)
    (.inl ⟨rfl, Nat.lt_succ_self _, ?_⟩)
  · rintro c ⟨⟩ key found
    rw [keyOf, own] at found
    cases found
    exact free_settled (s := s) rfl elsewhere fresh
  · rintro c ⟨⟩
    refine ⟨Nat.lt_succ_self _, fun client found => ?_⟩
    rw [own] at found
    cases found
    rintro ⟨⟩
  · rintro client found
    rw [own] at found
    cases found
    rfl

theorem keysKept_retryPosted {portNo : UInt16} (kept : KeysKept s) (found : s.heap c = some client)
    (retrying : client.activeConnectThread = .retrying) (old : c < s.nextClient)
    (fresh : s.createMultiThreaded = false → Free (keyOf s) (client.ipAddr, portNo)
      (settled (listed s) (pendings s)))
    (listing : Listing (retryPosted c portNo s)) : KeysKept (retryPosted c portNo s) := by
  have elsewhere : ∀ d ∈ listed s ++ joiners (pendings s), (retryPosted c portNo s).heap d = s.heap d := by
    intro d member
    rw [heap_retryPosted, if_neg]
    rintro rfl
    exact (kept.keys.joined.addressed d member).2 client found retrying
  have own : (retryPosted c portNo s).heap c = some (connectPosted (connectedOn portNo client)) := by
    rw [heap_retryPosted, if_pos rfl, found]
    rfl
  have keeps : KeepsKeys (pendings s) s (retryPosted c portNo s) := by
    have nextClient : s.nextClient ≤ (retryPosted c portNo s).nextClient :=
      Nat.le_of_eq nextClient_retryPosted.symm
    have keys : ClientKeys (pendings s) (retryPosted c portNo s) :=
      kept.keys.elsewhere tcpClientDb_retryPosted svcList_retryPosted nextClient
        createMultiThreaded_retryPosted elsewhere
    refine ⟨keys, fun d old left found' => ?_, nextClient, createMultiThreaded_retryPosted⟩
    rw [heap_retryPosted] at found'
    split_ifs at found' with same
    · obtain ⟨before, found'', rfl⟩ := Option.map_eq_some_iff.mp found'
      exact ⟨before, same ▸ found'', rfl⟩
    · exact ⟨left, found', rfl⟩
  refine keysKept_posted kept keeps listing rfl ?_ ?_ (.inr (.inr (.inr rfl)))
  · cases mode : s.createMultiThreaded with
    | true => rintro d ⟨⟩
    | false =>
      rintro d ⟨⟩ key found'
      rw [keyOf, own] at found'
      cases found'
      have lists : listed (retryPosted c portNo s) = listed s := by
        rw [listed, listed, tcpClientDb_retryPosted, svcList_retryPosted]
      exact free_settled lists elsewhere (fresh mode)
  · cases mode : s.createMultiThreaded with
    | true => rintro d ⟨⟩
    | false =>
      rintro d ⟨⟩
      refine ⟨Nat.lt_of_lt_of_le old keeps.nextClient, fun left found' => ?_⟩
      rw [own] at found'
      cases found'
      rintro ⟨⟩

/-- The message at the front, and what is left of the queue. -/
theorem KeysKept.front {connect : ConnectResult} (kept : KeysKept s) (fresh : KeysFresh s (.processFront connect))
    (front : s.msgQ = msg :: rest) :
    ClientKeys (pending s.createMultiThreaded msg :: rest.map (pending s.createMultiThreaded))
    { s with msgQ := rest } ∧
      Ordinary { s with msgQ := rest } msg ∧
      (s.createMultiThreaded = false → .reconnect ∈ msg.code → ∀ portNo ∈ connect,
        Free (keyOf s) (s.ipAddr, portNo)
        (remove msg.data (listed s) ++ joiners (rest.map (pending s.createMultiThreaded)))) := by
  refine ⟨?_, kept.ordinary msg (by rw [front]; exact List.mem_cons_self), ?_⟩
  · have keys := kept.keys
    rw [pendings, front, List.map_cons] at keys
    exact keys.elsewhere rfl rfl (Nat.le_refl _) rfl fun _ _ => rfl
  · intro multiplexed reconnects portNo connected
    have fresh := fresh multiplexed msg (by rw [front]; rfl) reconnects portNo connected
    rwa [pendings, front, List.map_cons, List.tail_cons] at fresh

theorem keysKept_front {connect : ConnectResult} (kept : KeysKept s) (fresh : KeysFresh s (.processFront connect))
    (front : s.msgQ = msg :: rest)
    (ran : (TcpServerController.processMsgQMsg msg connect).Runs { s with msgQ := rest } () t)
    (listing : Listing t) :
    KeysKept t := by
  obtain ⟨keys, ordinary, fresh⟩ := kept.front fresh front
  obtain ⟨keeps, queue⟩ :=
    keeps_message (s := { s with msgQ := rest }) keys (kept.listing.of_heap rfl rfl) ordinary fresh ran
  refine ⟨?_, listing, fun other queued => ?_⟩
  · rw [pendings, queue, keeps.mode]
    exact keeps.keys
  · rw [queue] at queued
    have earlier : Ordinary { s with msgQ := rest } other :=
      kept.ordinary other (by rw [front]; exact List.mem_cons_of_mem _ queued)
    exact earlier.kept keeps.nextClient keeps.mode keeps.openers

theorem keysKept_step {e : Event} (traffic : Traffic e) (fresh : KeysFresh s e)
    (step : TcpServerController.Step s e t) (sound : Sound s) (kept : KeysKept s) : KeysKept t := by
  have listing : Listing t := listing_effect sound (step_effect sound.requests step) kept.listing
  obtain ⟨enabled, ran⟩ := step
  cases e with
  | accept ipAddr portNo =>
    obtain rfl := acceptClient_runs ran
    exact keysKept_accept kept fresh listing
  | processFront connect =>
    obtain ⟨msg, rest, front, processing⟩ := processFront_runs enabled.2 ran
    exact keysKept_front kept fresh front processing listing
  | connectRetryPost c portNo =>
    obtain ⟨client, found, retrying⟩ := Option.map_eq_some_iff.mp enabled.2
    obtain rfl := connectRetryPost_runs ran
    exact keysKept_retryPosted kept found retrying (sound.allocated found)
      (fun mode => fresh mode client found) listing
  | connectRetryExit c =>
    obtain ⟨client, _, _, rfl⟩ := connectRetryExit_runs ran
    have stopped : Ages (fun _ => False) s (s.mapClient c connectorStopped) :=
      ages_mapClient (fun _ => ⟨rfl, rfl, nofun⟩) fun _ => .inr rfl
    exact keysKept_same kept (.of_ages kept.keys rfl rfl rfl rfl (stopped.trans ages_release)) listing rfl
  | select ready =>
    obtain ⟨m, present, _⟩ := Option.map_eq_some_iff.mp enabled.2
    obtain rfl := runs_update.mp ran
    rw [mapSvcMgr_some present] at listing ⊢
    exact keysKept_same kept (.of_ages kept.keys rfl (svcList_some present).symm rfl rfl (.of_heap rfl))
      listing rfl
  | visit r =>
    obtain ⟨m, present, _⟩ := Option.map_eq_some_iff.mp enabled.2
    rcases visit_cases present ran with rfl | ⟨c, rest, _, visited⟩
    · exact kept
    have scanned : KeysKept { s with tcpClientSvcMgr := some (scanning rest m) } :=
      keysKept_same kept (.of_ages kept.keys rfl (svcList_some present).symm rfl rfl (.of_heap rfl))
        (kept.listing.of_heap (svcList_some present).symm rfl) rfl
    split_ifs at visited with active ended
    · obtain ⟨client, found, rfl⟩ := visited
      exact keysKept_posted scanned (.of_ages scanned.keys rfl rfl rfl rfl (.of_heap rfl)) listing rfl nofun nofun
        (.inr (.inr (.inl rfl)))
    · obtain ⟨client, found, heard⟩ := visited
      exact keysKept_same scanned (keeps_heard scanned.keys heard) listing (heard_msgQ heard)
    · rw [visited]
      exact scanned
  | clientThread c r =>
    obtain ⟨client, found, received⟩ := clientThreadFunction_runs ran
    split_ifs at received with ended
    · subst received
      have waits : Ages (fun _ => False) s (s.mapClient c waiting) :=
        ages_mapClient (fun _ => ⟨rfl, rfl, id⟩) fun _ => .inr rfl
      refine keysKept_postedFirst kept (.of_ages kept.keys rfl rfl rfl rfl (waits.trans (.of_heap rfl)))
        listing rfl ?_
      cases client.activeOpener with
      | true => exact .inr rfl
      | false => exact .inl rfl
    · exact keysKept_same kept (keeps_heard kept.keys received) listing (heard_msgQ received)
  | createActiveClient serverIpAddr serverPortNo connect =>
    have creates := createActiveClient_runs ran
    have framed := framed_creates creates
    exact keysKept_same kept ⟨keys_creates kept.keys fresh creates, keepsOpeners_creates creates,
      framed.nextClient, framed.createMultiThreaded⟩ listing framed.msgQ
  | _ => exact traffic.elim

theorem keyed_iff {ipAddr : UInt32} {portNo : UInt16} : keyed ipAddr portNo s c = true ↔
    keyOf s c = some (ipAddr, portNo) := by
  rw [keyed, keyOf]
  cases s.heap c with
  | none => exact iff_of_false (by simp) (by simp)
  | some client =>
    rw [Option.any_some, Option.map_some, Option.some_inj, decide_eq_true_iff, clientKey, Prod.mk.injEq]

theorem found_none {list : List ClientRef} {found : Option ClientRef}
    (free : ∀ key ∈ keyOf s c, Free (keyOf s) key list)
    (alive : s.heap c = some client) (ran : (lookUpClientDB client.ipAddr client.portNo list).Runs s found t) :
    found = none := by
  rw [(lookUpClientDB_runs ran).2, List.find?_eq_none]
  intro d member here
  exact free (clientKey client) (congrArg (Option.map clientKey) alive) d member (keyed_iff.mp here)

theorem found_some {list : List ClientRef} {found : Option ClientRef} (member : c ∈ list)
    (alive : s.heap c = some client)
    (ran : (lookUpClientDB client.ipAddr client.portNo list).Runs s found t) : found ≠ none := by
  rw [(lookUpClientDB_runs ran).2, ne_eq, List.find?_eq_none]
  intro absent
  exact absent c member (keyed_iff.mpr (congrArg (Option.map clientKey) alive))

/-- A key that is free stays so while the clients get older. -/
theorem free_ages {touched : ClientRef → Prop} {list fewer : List ClientRef} (ages : Ages touched s t)
    (subset : fewer ⊆ list)
    (free : ∀ key ∈ keyOf s c, Free (keyOf s) key list) :
    ∀ key ∈ keyOf t c, Free (keyOf t) key fewer := by
  intro key found
  rcases keyOf_ages ages c with gone | same
  · exact absurd (gone.symm.trans found) (by simp)
  · exact (free key (same.symm.trans found)).narrow subset fun d _ => keyOf_ages ages d

theorem deleteCalls_hold {call : KeyCall} {middle : TcpServerController} (listing : Listing s)
    (calls : DeleteCalls c s call middle) : call.AssertionHolds middle := by
  obtain ⟨begun, found, listens⟩ := calls
  simp only [deleteBegin, runs_bind, runs_deref, runs_when] at begun
  obtain ⟨_, _, referenced, _, _, ⟨_, rfl⟩, removing⟩ := begun
  obtain ⟨_, rfl⟩ := reference_runs referenced
  have kept : Listing middle := by
    split_ifs at removing
    · obtain ⟨_, _, rfl, _⟩ := removeClientFromDB_runs removing
      exact listing_unkeyed (listing_addRefs listing [c])
    · rw [← removing]
      exact listing_addRefs listing [c]
  intro client found' t alive ran
  exact found_some (kept.listed found listens) alive ran

theorem createCalls_hold {serverIpAddr : UInt32} {serverPortNo : UInt16} {call : KeyCall}
    {middle : TcpServerController}
    (keys : ClientKeys changes s) (free : s.createMultiThreaded = false → ∀ portNo ∈ connect,
      Free (keyOf s) (s.ipAddr, portNo) (listed s ++ joiners changes))
    (calls : CreateCalls serverIpAddr serverPortNo connect s call middle) : call.AssertionHolds middle := by
  obtain @⟨c, _, connecting, multiplexed⟩ := calls
  have connected := connectActive_runs connecting
  cases connect with
  | none => exact absurd connected.1 (by simp)
  | some portNo =>
    obtain ⟨same, rfl⟩ := connected
    obtain rfl := Option.some.inj same
    intro client found t alive ran
    refine found_none (fun key own => ?_) alive ran
    rw [keyOf, heap_connectedActive, if_pos rfl] at own
    cases own
    rw [createMultiThreaded_connectedActive] at multiplexed
    refine (free multiplexed portNo rfl).narrow (fun d member => ?_) fun d member => .inr ?_
    · exact List.mem_append_left _ (List.mem_append_right _ member)
    · have old : d < s.nextClient :=
        (keys.joined.addressed d (List.mem_append_left _ (List.mem_append_right _ member))).1
      rw [keyOf, keyOf, heap_connectedActive, if_neg (Nat.ne_of_lt old)]

theorem requestCalls_hold {call : KeyCall} {middle : TcpServerController} {request : Request}
    (keys : ClientKeys (pending s.createMultiThreaded msg :: changes) s) (listing : Listing s)
    (ordinary : Ordinary s msg)
    (fresh : s.createMultiThreaded = false → .reconnect ∈ msg.code → ∀ portNo ∈ connect,
      Free (keyOf s) (s.ipAddr, portNo) (remove msg.data (listed s) ++ joiners changes))
    (posted : msg.code = request.code) (calls : RequestCalls msg.data connect s request call middle) :
    call.AssertionHolds middle := by
  have joins (change : pending s.createMultiThreaded msg = .join msg.data) :
      ∀ key ∈ keyOf s msg.data, Free (keyOf s) key (listed s) :=
    (change ▸ keys).joined.keyed.admits.1 msg.data rfl
  cases calls with
  | addClientToDB threaded =>
    have change : pending s.createMultiThreaded msg = .join msg.data := by
      rw [pending, posted]
      cases threaded <;> rfl
    intro client found t alive ran
    refine found_none (fun key own => ?_) alive ran
    exact (joins change key own).narrow (List.subset_append_left _ _) fun _ _ => .inr rfl
  | multiplexListen adding =>
    have change : pending s.createMultiThreaded msg = .join msg.data := by
      rw [pending, posted]
      rfl
    obtain ⟨_, _, rfl⟩ := addClientToDB_runs adding
    have ages : Ages (· = msg.data) s (added msg.data s) := ages_added
    intro client found t alive ran
    exact found_none (free_ages ages (List.subset_append_right s.tcpClientDb (svcList s))
      (joins change)) alive ran
  | delete calls => exact deleteCalls_hold listing calls
  | reconnect calls => exact deleteCalls_hold listing calls
  | connectAnew found deletes calls =>
    obtain ⟨client, s₁, s₂, s₃, s₄, deletes⟩ := processClientDelete_runs deletes
    obtain rfl := Option.some.inj (found.symm.trans deletes.found)
    have leaves : pending s.createMultiThreaded msg = .leave msg.data := by
      rw [pending, posted]
      rfl
    rw [leaves] at keys
    exact createCalls_hold (keys_deletes keys listing deletes) (free_deleted keys deletes fresh posted) calls
  | toMultithreaded =>
    rcases ordinary with ⟨code, _⟩ | code | code | code
    · cases mode : s.createMultiThreaded <;> rw [mode, posted] at code <;> exact absurd code nofun
    all_goals exact absurd (posted.symm.trans code) nofun
  | toMultiplex =>
    rcases ordinary with ⟨code, _⟩ | code | code | code
    · cases mode : s.createMultiThreaded <;> rw [mode, posted] at code <;> exact absurd code nofun
    all_goals exact absurd (posted.symm.trans code) nofun
  | connectSuccess moved multiplexed =>
    obtain rfl := moveToEstablished_runs moved
    have change : pending s.createMultiThreaded msg = .join msg.data := by
      have multiplexed : s.createMultiThreaded = false := multiplexed
      rw [pending, posted, multiplexed]
      rfl
    have ages : Ages (· = msg.data) s (movedToEstablished msg.data s) := .of_heap rfl
    intro client found t alive ran
    exact found_none (free_ages ages (List.subset_append_right s.tcpClientDb (svcList s))
      (joins change)) alive ran

theorem keyCalls_hold {e : Event} {call : KeyCall} {middle : TcpServerController} (kept : KeysKept s)
    (fresh : KeysFresh s e) (calls : KeyCalls s e call middle) : call.AssertionHolds middle := by
  cases calls with
  | @message _ _ rest _ _ _ front posted calls =>
    obtain ⟨keys, ordinary, fresh⟩ := kept.front fresh front
    exact requestCalls_hold (s := { s with msgQ := rest }) keys (kept.listing.of_heap rfl rfl)
      ordinary fresh posted calls
  | created calls => exact createCalls_hold kept.keys fresh calls

theorem keysKept_started (ipAddr : UInt32) (portNo : UInt16) (threaded : Bool) :
    KeysKept { TcpServerController.started ipAddr portNo with createMultiThreaded := threaded } where
  keys := by
    refine ⟨⟨⟨nofun, trivial⟩, nofun⟩, nofun, fun _ => nofun, fun _ => rfl⟩
  listing := ⟨nofun⟩
  ordinary := nofun

/-- As long as every connection is made under a key that is free, no two clients of a list have one key and
every search finds what is asserted. -/
theorem uniqueKeys {es : List Event} {ipAddr : UInt32} {portNo : UInt16} {threaded : Bool}
    (path : Path (Guarded TcpServerController.Step fun s e => Traffic e ∧ KeysFresh s e)
      { TcpServerController.started ipAddr portNo with createMultiThreaded := threaded } es t) :
    UniqueKeys t t.tcpClientDb ∧ UniqueKeys t (svcList t) ∧ ∀ e call middle, Traffic e → KeysFresh t e →
      KeyCalls t e call middle → call.AssertionHolds middle := by
  have kept : Sound t ∧ KeysKept t := by
    refine path.invariant (motive := fun s => Sound s ∧ KeysKept s) ?_
      ⟨⟨nofun, nofun, nofun⟩, keysKept_started ipAddr portNo threaded⟩
    rintro s e t ⟨⟨traffic, fresh⟩, step⟩ ⟨sound, kept⟩
    exact ⟨effect_sound sound (step_effect sound.requests step), keysKept_step traffic fresh step sound kept⟩
  have distinct := kept.2.keys.joined.keyed.distinct
  refine ⟨fun c inDb d inDb' => distinct c (List.mem_append_left _ inDb) d (List.mem_append_left _ inDb'),
    fun c inSvc d inSvc' => distinct c (List.mem_append_right _ inSvc) d (List.mem_append_right _ inSvc'),
    fun e call middle _ fresh calls => keyCalls_hold kept.2 fresh calls⟩

end

/-- A peer and a connection to another server, in turn. -/
def peerEvents : List Event :=
  [.accept 9 9, .processFront none, .createActiveClient 7 7 (some 5)]

def peered : TcpServerController :=
  TcpServerController.stateAfter (fun s e => Traffic e ∧ KeysFresh s e)
    { TcpServerController.started 1 1 with createMultiThreaded := false } peerEvents

theorem uniqueKeys_peerEvents : UniqueKeys peered peered.tcpClientDb ∧ UniqueKeys peered (svcList peered) ∧
    ∀ e call middle, Traffic e → KeysFresh peered e → KeyCalls peered e call middle →
    call.AssertionHolds middle :=
  uniqueKeys (TcpServerController.stateAfter_path (by decide +kernel))

/-- The remote ends of the connections that are accepted. -/
def acceptedKeys (es : List Event) : List ClientKey :=
  es.filterMap fun
    | .accept ipAddr portNo => some (ipAddr, portNo)
    | _ => none

/-- A connection of the server to itself, which it has also accepted. -/
def selfEvents : List Event :=
  [.createActiveClient 1 1 (some 5), .accept 1 5]

def selfConnected : TcpServerController :=
  TcpServerController.stateAfter (fun _ e => Traffic e) (.started 1 1) selfEvents

/-- A server that connects to itself has two clients with the key of the connection. -/
theorem selfConnection_clashes : ¬ ∀ es t, Path (Guarded TcpServerController.Step fun _ e => Traffic e)
    (.started 1 1) es t →
    (acceptedKeys es).Nodup → ∀ e call middle, Traffic e → KeyCalls t e call middle →
    call.AssertionHolds middle := by
  intro always
  have path : Path (Guarded TcpServerController.Step fun _ e => Traffic e) (.started 1 1) selfEvents
      selfConnected :=
    TcpServerController.stateAfter_path rfl
  obtain ⟨middle, added⟩ : ∃ middle,
      (TcpClientDbManager.addClientToDB 1).Runs { selfConnected with msgQ := [] } () middle := ⟨_, rfl⟩
  have calls : KeyCalls selfConnected (.processFront none) (.startListen 1) middle :=
    @KeyCalls.message _ none ⟨[.processNew, .multiplexListen], 1, none⟩ [] (.processNew false) _ _ rfl rfl
      (.multiplexListen added)
  have holds := always _ _ path (by decide) (.processFront none) _ _ trivial calls
  cases added
  cases holds _ (some 0) _ rfl rfl

end TcpServerLib.Soundness
