import TcpServerLib.Model.Run
import TcpServerLib.Refinement.ControllerOperations

/-! # What is done about one client

Most of what changes a client is asked for by a message or by the application. Both come down to
the same few acts, so that what an act does to the server is said here once, whoever asks for it.
-/

namespace TcpServerLib.Refinement

open Machine Model Prog

/-- The messages that are ever posted. -/
inductive Request where
  | processNew (threaded : Bool)
  | delete
  | reconnect
  | toMultithreaded
  | toMultiplex
  | connectSuccess
deriving DecidableEq

def Request.code : Request → List CtrlrAction
  | .processNew true => [.processNew, .createThreaded]
  | .processNew false => [.processNew, .multiplexListen]
  | .delete => [.delete]
  | .reconnect => [.reconnect]
  | .toMultithreaded => [.mxToMultithreaded]
  | .toMultiplex => [.multithreadedToMx]
  | .connectSuccess => [.activeConnectSuccess]

def Request.ofCode : List CtrlrAction → Option Request
  | [.processNew, .createThreaded] => some (.processNew true)
  | [.processNew, .multiplexListen] => some (.processNew false)
  | [.delete] => some .delete
  | [.reconnect] => some .reconnect
  | [.mxToMultithreaded] => some .toMultithreaded
  | [.multithreadedToMx] => some .toMultiplex
  | [.activeConnectSuccess] => some .connectSuccess
  | _ => none

theorem Request.ofCode_code (request : Request) : ofCode request.code = some request := by
  rcases request with (_ | _) | _ | _ | _ | _ | _ <;> rfl

inductive Act where
  | processNew (threaded : Bool)
  | delete
  | reconnect (connect : ConnectResult)
  | toMultithreaded
  | toMultiplex
  | connectSuccess
  | deleteKey
  | migrateToMultiThreaded
  | migrateToMultiplex
  | startListen
  | stopListen

def Request.act (connect : ConnectResult) : Request → Act
  | .processNew threaded => .processNew threaded
  | .delete => .delete
  | .reconnect => .reconnect connect
  | .toMultithreaded => .toMultithreaded
  | .toMultiplex => .toMultiplex
  | .connectSuccess => .connectSuccess

namespace Server

/-- The act an event asks for, and the client it is about. -/
def performed (s : TcpServerController) : Event → Option (Act × ClientRef)
  | .processFront connect => s.msgQ.head?.bind fun msg =>
    (Request.ofCode msg.code).map fun request => (request.act connect, msg.data)
  | .deleteClient c => some (.delete, c)
  | .deleteKey ipAddr portNo => (keyFound ipAddr portNo s).map fun c => (.deleteKey, c)
  | .migrateToMultiThreaded ipAddr portNo => (keyFound ipAddr portNo s).map fun c => (.migrateToMultiThreaded, c)
  | .migrateToMultiplex ipAddr portNo => (keyFound ipAddr portNo s).map fun c => (.migrateToMultiplex, c)
  | .startListen c => some (.startListen, c)
  | .stopListen c => some (.stopListen, c)
  | _ => none

def added (c : ClientRef) (s : TcpServerController) : TcpServerController :=
  addRefs [c] { s with tcpClientDb := s.tcpClientDb ++ [c] }

def unkeyed (c : ClientRef) (s : TcpServerController) : TcpServerController :=
  release c { s with tcpClientDb := remove c s.tcpClientDb }

/-- The database once a client has been deleted from it. -/
def dbWithout (c : ClientRef) (client : TcpClient) (s : TcpServerController) : List ClientRef :=
  if client.passiveOpener then remove c s.tcpClientDb else s.tcpClientDb

/-- What an act amounts to. -/
inductive Acted (c : ClientRef) (s : TcpServerController) : Act → TcpServerController → Prop
  | nothing (act : Act) : Acted c s act s
  | processNewThreaded {client : TcpClient} (found : s.heap c = some client) (absent : c ∉ s.tcpClientDb)
      (mode : client.threaded = false) (idle : client.clientThread = .null) :
      Acted c s (.processNew true) ((added c s).mapClient c threadStarted)
  | processNewMultiplexed {client : TcpClient} {m : TcpClientServiceManager} (found : s.heap c = some client)
      (absent : c ∉ s.tcpClientDb) (mode : client.multiplexListen = false)
      (present : s.tcpClientSvcMgr = some m)
      (unlisted : c ∉ m.tcpClientDb) : Acted c s (.processNew false) (listened c m (added c s))
  | deleted {client : TcpClient} {s₁ s₂ s₃ s₄ t : TcpServerController}
      (deletes : Deletes c client s s₁ s₂ s₃ s₄ t) :
      Acted c s .delete t
  | reconnected {client : TcpClient} {s₁ s₂ s₃ s₄ middle t : TcpServerController}
      {connect : ConnectResult} (deletes : Deletes c client s s₁ s₂ s₃ s₄ middle)
      (creates : Creates client.serverIpAddr client.serverPortNo middle connect t) :
      Acted c s (.reconnect connect) t
  | unlistenedThreaded {client : TcpClient} {m : TcpClientServiceManager} (found : s.heap c = some client)
      (mode : client.threaded = false) (listens : client.multiplexListen = true)
      (idle : client.clientThread = .null)
      (several : 2 ≤ client.refCount) (present : s.tcpClientSvcMgr = some m) :
      Acted c s .toMultithreaded ((unlistened c m s).mapClient c threadStarted)
  | threaded {client : TcpClient} (found : s.heap c = some client) (mode : client.threaded = false)
      (deaf : client.multiplexListen = false) (idle : client.clientThread = .null) :
      Acted c s .toMultithreaded (s.mapClient c threadStarted)
  | stoppedMultiplexed {client : TcpClient} {m : TcpClientServiceManager} (found : s.heap c = some client)
      (mode : client.multiplexListen = false) (threads : client.threaded = true)
      (running : client.clientThread ≠ .null) (several : 2 ≤ client.refCount)
      (present : s.tcpClientSvcMgr = some m)
      (unlisted : c ∉ m.tcpClientDb) :
      Acted c s .toMultiplex (listened c m (release c (s.mapClient c threadStopped)))
  | multiplexed {client : TcpClient} {m : TcpClientServiceManager} (found : s.heap c = some client)
      (mode : client.multiplexListen = false) (single : client.threaded = false)
      (present : s.tcpClientSvcMgr = some m)
      (unlisted : c ∉ m.tcpClientDb) : Acted c s .toMultiplex (listened c m s)
  | connectSucceeded {client : TcpClient} {t : TcpServerController} (found : s.heap c = some client)
      (active : client.passiveOpener = false ∧ client.activeOpener = true) (connected : client.connected = true)
      (mode : client.multiplexListen = false ∧ client.threaded = false)
      (served : Served c (movedToEstablished c s) t) : Acted c s .connectSuccess t
  | keyDestroyed {client : TcpClient} (found : s.heap c = some client) (last : client.refCount ≤ 1)
      (idle : client.clientThread = .null ∧ client.activeConnectThread = .null) :
      Acted c s .deleteKey (unkeyed c s)
  | keyDeleted {client : TcpClient} (found : s.heap c = some client) (several : 2 ≤ client.refCount)
      (running : client.clientThread ≠ .null) : Acted c s .deleteKey (unkeyed c s)
  | keyUnlistened {client : TcpClient} {m : TcpClientServiceManager} (found : s.heap c = some client)
      (several : 3 ≤ client.refCount) (idle : client.clientThread = .null)
      (present : s.tcpClientSvcMgr = some m) :
      Acted c s .deleteKey (unlistened c m (unkeyed c s))
  | migratedToMultiThreaded {client : TcpClient} {m : TcpClientServiceManager} (found : s.heap c = some client)
      (idle : client.clientThread = .null) (several : 2 ≤ client.refCount)
      (present : s.tcpClientSvcMgr = some m) :
      Acted c s .migrateToMultiThreaded ((unlistened c m s).mapClient c threadStarted)
  | migratedToMultiplex {client : TcpClient} {m : TcpClientServiceManager} (found : s.heap c = some client)
      (running : client.clientThread ≠ .null) (several : 2 ≤ client.refCount)
      (present : s.tcpClientSvcMgr = some m) (unlisted : c ∉ m.tcpClientDb) :
      Acted c s .migrateToMultiplex (listened c m (release c (s.mapClient c threadStopped)))
  | startedListening {client : TcpClient} {m : TcpClientServiceManager} (found : s.heap c = some client)
      (present : s.tcpClientSvcMgr = some m) (unlisted : c ∉ m.tcpClientDb) :
      Acted c s .startListen (listened c m s)
  | stoppedListening {client : TcpClient} {m : TcpClientServiceManager} (found : s.heap c = some client)
      (several : 2 ≤ client.refCount) (present : s.tcpClientSvcMgr = some m) :
      Acted c s .stopListen (unlistened c m s)

end Server

open Server

section

variable {s t : TcpServerController} {c : ClientRef} {u : Unit}

theorem heap_added_self {client : TcpClient} (found : s.heap c = some client) :
    (added c s).heap c = some { client with refCount := client.refCount + 1 } := by
  have referenced : (added c s).heap c = _ := heap_addRefs [c]
  rw [referenced, found, Option.map_some, List.count_singleton_self]

section

variable {client : TcpClient} {s₁ s₂ s₃ s₄ : TcpServerController} {P : TcpServerController → Prop}

/-- What holds after the second stage holds at the end, if the stages that follow keep it. -/
theorem Deletes.afterSvc (deletes : Deletes c client s s₁ s₂ s₃ s₄ t) (second : P s₂)
    (stops : ∀ {s}, P s → P (release c (s.mapClient c threadStopped)))
    (forgets : ∀ {s connected}, P s → P (forgotten c connected s))
    (releases : ∀ {s}, P s → P (release c s)) : P t := by
  have third : P s₃ := by
    rw [deletes.thread]
    split_ifs
    · exact second
    · exact stops second
  have fourth : P s₄ := by
    rw [deletes.active]
    split_ifs
    · exact releases (forgets third)
    · exact third
  rw [deletes.last]
  exact releases fourth

theorem Deletes.afterDb (deletes : Deletes c client s s₁ s₂ s₃ s₄ t) (first : P s₁)
    (unlistens : ∀ {s m}, client.multiplexListen = true → s.tcpClientSvcMgr = some m → P s →
      P (unlistened c m s))
    (stops : ∀ {s}, P s → P (release c (s.mapClient c threadStopped)))
    (forgets : ∀ {s connected}, P s → P (forgotten c connected s))
    (releases : ∀ {s}, P s → P (release c s)) : P t := by
  refine deletes.afterSvc ?_ stops forgets releases
  have svc := deletes.svc
  split_ifs at svc with listens
  · obtain ⟨m, present, rfl⟩ := svc
    exact unlistens listens present first
  · rw [svc]
    exact first

/-- A deletion by pointer keeps what each of its stages keeps. -/
theorem Deletes.preserves (deletes : Deletes c client s s₁ s₂ s₃ s₄ t) (referenced : P (addRefs [c] s))
    (unkeys : ∀ {s}, P s → P (unkeyed c s))
    (unlistens : ∀ {s m}, client.multiplexListen = true → s.tcpClientSvcMgr = some m → P s →
      P (unlistened c m s))
    (stops : ∀ {s}, P s → P (release c (s.mapClient c threadStopped)))
    (forgets : ∀ {s connected}, P s → P (forgotten c connected s))
    (releases : ∀ {s}, P s → P (release c s)) : P t := by
  refine deletes.afterDb ?_ unlistens stops forgets releases
  rw [deletes.db]
  split_ifs
  · exact unkeys referenced
  · exact referenced

/-- Only the first stage touches the database. -/
theorem deletes_db (deletes : Deletes c client s s₁ s₂ s₃ s₄ t) :
    t.tcpClientDb = dbWithout c client s := by
  refine deletes.afterDb (P := fun t => t.tcpClientDb = dbWithout c client s) ?_ (fun _ _ => id) id id id
  rw [deletes.db, dbWithout]
  split_ifs <;> rfl

theorem deletes_ipAddr (deletes : Deletes c client s s₁ s₂ s₃ s₄ t) : t.ipAddr = s.ipAddr :=
  deletes.preserves (P := fun t => t.ipAddr = s.ipAddr) rfl id (fun _ _ => id) id id id

/-- The second stage alone touches the list of the service manager. -/
theorem deletes_svc (deletes : Deletes c client s s₁ s₂ s₃ s₄ t) :
    (client.multiplexListen = true → svcList t ⊆ remove c (svcList s) ++ t.tcpClientDb) ∧
      (client.multiplexListen = false → svcList t = svcList s) := by
  have db := deletes_db deletes
  have first : svcList s₁ = svcList s ∧ s₁.tcpClientDb = dbWithout c client s := by
    rw [deletes.db, dbWithout]
    split_ifs <;> exact ⟨rfl, rfl⟩
  have last : svcList t = svcList s₂ := deletes.afterSvc (P := fun t => svcList t = svcList s₂) rfl id id id
  have svc := deletes.svc
  rw [last]
  constructor
  · intro listens d member
    rw [if_pos listens] at svc
    obtain ⟨m, present, rfl⟩ := svc
    have list : svcList (unlistened c m s₁) = remove c m.tcpClientDb ++ copied s₁ := relisted_db _
    rw [list, ← svcList_some present, first.1] at member
    rcases List.mem_append.mp member with earlier | copy
    · exact List.mem_append_left _ earlier
    · rw [copied] at copy
      split_ifs at copy
      · exact absurd copy List.not_mem_nil
      · rw [db, ← first.2]
        exact List.mem_append_right _ copy
  · intro deaf
    rw [if_neg (Bool.eq_false_iff.mp deaf)] at svc
    rw [svc, first.1]

end

/-- A list of codes is tested for the codes of one request. -/
private theorem mem_code (request : Request) :
    (.delete ∈ request.code ↔ request = .delete) ∧
    (.reconnect ∈ request.code ↔ request = .reconnect) ∧
      (.processNew ∈ request.code ↔ ∃ threaded, request = .processNew threaded) ∧
      (.multiplexListen ∈ request.code ↔ request = .processNew false) ∧
      (.mxToMultithreaded ∈ request.code ↔ request = .toMultithreaded) ∧
      (.multithreadedToMx ∈ request.code ↔ request = .toMultiplex) ∧
      (.createThreaded ∈ request.code ↔ request = .processNew true) ∧
      (.activeConnectSuccess ∈ request.code ↔ request = .connectSuccess) := by
  rcases request with (_ | _) | _ | _ | _ | _ | _ <;> simp [Request.code]

theorem processConnectSuccess_runs (ran : (TcpServerController.processConnectSuccess c).Runs s u t) :
    Acted c s .connectSuccess t := by
  simp only [TcpServerController.processConnectSuccess, runs_bind, runs_deref, runs_assertThat] at ran
  obtain ⟨client, _, ⟨found, rfl⟩, _, _, ⟨_, rfl⟩, _, _, ⟨connected, rfl⟩, _, _,
      ⟨passive, rfl⟩, _, _, ⟨active, rfl⟩,
    _, _, ⟨single, rfl⟩, _, _, ⟨deaf, rfl⟩, _, _, moving, serving⟩ := ran
  obtain rfl := moveToEstablished_runs moving
  exact .connectSucceeded found ⟨passive, active⟩ connected ⟨single, deaf⟩
    (serveInCreationMode_runs serving)

theorem processThreadedAndSuccess_runs (request : Request)
    (ran : (TcpServerController.processThreadedAndSuccess request.code c).Runs s u t) :
    match request with
    | .processNew true =>
      ∃ client, s.heap c = some client ∧ client.threaded = false ∧ client.clientThread = .null ∧
        t = s.mapClient c threadStarted
    | .connectSuccess => Acted c s .connectSuccess t
    | _ => t = s := by
  obtain ⟨_, _, _, _, _, _, threaded, success⟩ := mem_code request
  simp only [TcpServerController.processThreadedAndSuccess, runs_bind, runs_when, threaded, success, runs_deref,
    runs_assertThat] at ran
  obtain ⟨_, middle, creating, succeeding⟩ := ran
  rcases request with (_ | _) | _ | _ | _ | _ | _
  all_goals simp only [reduceCtorEq, if_false, if_true, Request.processNew.injEq,
    Bool.false_eq_true] at creating succeeding
  case processNew.true =>
    obtain ⟨client, _, ⟨found, rfl⟩, _, _, ⟨mode, rfl⟩, starting⟩ := creating
    obtain ⟨_, found', idle, rfl⟩ := createMultiThreadedClient_runs starting
    obtain rfl := Option.some.inj (found.symm.trans found')
    exact ⟨client, found, mode, idle, succeeding.symm⟩
  case connectSuccess =>
    subst creating
    exact processConnectSuccess_runs succeeding
  all_goals exact (creating.trans succeeding).symm

theorem processToMultiplex_runs (request : Request)
    (ran : (TcpServerController.processToMultiplex request.code c).Runs s u t) :
    if request = .toMultiplex then Acted c s .toMultiplex t
    else (TcpServerController.processThreadedAndSuccess request.code c).Runs s u t := by
  obtain ⟨_, _, _, _, _, toMultiplex, _⟩ := mem_code request
  simp only [TcpServerController.processToMultiplex, runs_ite, toMultiplex] at ran
  split_ifs at ran ⊢ with requested
  · subst requested
    simp only [runs_bind, runs_deref, runs_when, Bool.not_eq_true] at ran
    obtain ⟨client, _, ⟨found, rfl⟩, ran⟩ := ran
    split_ifs at ran with mode threads
    · obtain ⟨_, _, stopping, _, _, starting, rest⟩ := ran
      obtain ⟨other, found', running, rfl, _⟩ := stopThread_runs stopping
      obtain rfl := Option.some.inj (found.symm.trans found')
      obtain ⟨m, present, ⟨left, kept⟩, unlisted, rfl⟩ := clientFDStartListenSimple_runs starting
      rw [heap_release, if_pos rfl, heap_mapClient, if_pos rfl, found, Option.map_some, Option.bind_some] at kept
      rw [processThreadedAndSuccess_runs .toMultiplex rest]
      exact .stoppedMultiplexed found mode threads running (drop_eq_some kept).1 present unlisted
    · obtain ⟨_, _, rfl, _, _, starting, rest⟩ := ran
      obtain ⟨m, present, _, unlisted, rfl⟩ := clientFDStartListenSimple_runs starting
      rw [processThreadedAndSuccess_runs .toMultiplex rest]
      exact .multiplexed found mode (Bool.eq_false_iff.mpr threads) present unlisted
    · rw [← ran]
      exact .nothing _
  · exact ran

theorem processToMultithreaded_runs (request : Request)
    (ran : (TcpServerController.processToMultithreaded request.code c).Runs s u t) :
    if request = .toMultithreaded then Acted c s .toMultithreaded t
    else (TcpServerController.processToMultiplex request.code c).Runs s u t := by
  obtain ⟨_, _, _, _, toMultithreaded, _⟩ := mem_code request
  simp only [TcpServerController.processToMultithreaded, runs_ite, toMultithreaded] at ran
  split_ifs at ran ⊢ with requested
  · subst requested
    simp only [runs_bind, runs_deref, runs_when, Bool.not_eq_true] at ran
    obtain ⟨client, _, ⟨found, rfl⟩, ran⟩ := ran
    split_ifs at ran with mode listens
    · obtain ⟨_, _, stopping, _, _, starting, rest⟩ := ran
      have done := processThreadedAndSuccess_runs .toMultithreaded (processToMultiplex_runs .toMultithreaded rest)
      obtain ⟨m, other, present, found', several, rfl⟩ := clientFDStopListenSimple_runs stopping
      obtain rfl := Option.some.inj (found.symm.trans found')
      obtain ⟨left, kept, idle, rfl⟩ := createMultiThreadedClient_runs starting
      have same : left.clientThread = client.clientThread := by
        rw [heap_unlistened, if_pos rfl, found, Option.map_some, Option.bind_some, drop_notListening, drop,
          if_neg (by omega)] at kept
        exact (congrArg _ (Option.some.inj kept)).symm
      rw [done]
      exact .unlistenedThreaded found mode listens (same ▸ idle) several present
    · obtain ⟨_, _, rfl, _, _, starting, rest⟩ := ran
      have done := processThreadedAndSuccess_runs .toMultithreaded (processToMultiplex_runs .toMultithreaded rest)
      obtain ⟨other, found', idle, rfl⟩ := createMultiThreadedClient_runs starting
      obtain rfl := Option.some.inj (found.symm.trans found')
      rw [done]
      exact .threaded found mode (Bool.eq_false_iff.mpr listens) idle
    · rw [← ran]
      exact .nothing _
  · exact ran

/-- A RECONNECT deletes the client and connects anew, to the same server. -/
theorem reconnect_runs {msg : TcpServerMsg} {connect : ConnectResult} (posted : msg.code = Request.reconnect.code)
    (ran : (TcpServerController.processMsgQMsg msg connect).Runs s u t) :
    ∃ client s₁ s₂ s₃ s₄ middle, Deletes msg.data client s s₁ s₂ s₃ s₄ middle ∧
      Creates client.serverIpAddr client.serverPortNo middle connect t := by
  simp only [TcpServerController.processMsgQMsg, posted, Request.code, List.mem_singleton,
    reduceCtorEq, if_false, if_true, runs_bind, runs_when, runs_deref] at ran
  obtain ⟨_, _, ⟨client, _, ⟨found, rfl⟩, _, middle, deleting, creating⟩, _, _, rfl, _, _,
      rfl, ran⟩ :=
    ran
  have done := processThreadedAndSuccess_runs .reconnect
    (processToMultiplex_runs .reconnect (processToMultithreaded_runs .reconnect ran))
  obtain ⟨other, s₁, s₂, s₃, s₄, deletes⟩ := processClientDelete_runs deleting
  obtain rfl := Option.some.inj (found.symm.trans deletes.found)
  rw [done]
  exact ⟨client, s₁, s₂, s₃, s₄, middle, deletes, createActiveClient_runs creating⟩

theorem delete_runs {msg : TcpServerMsg} {connect : ConnectResult} (posted : msg.code = Request.delete.code)
    (ran : (TcpServerController.processMsgQMsg msg connect).Runs s u t) :
    ∃ client s₁ s₂ s₃ s₄, Deletes msg.data client s s₁ s₂ s₃ s₄ t := by
  rw [TcpServerController.processMsgQMsg, posted] at ran
  exact processClientDelete_runs ran

/-- The tests for the two migrations pass a message by that asks for neither. -/
theorem processToMultithreaded_other (request : Request)
    (other : request ≠ .toMultithreaded ∧ request ≠ .toMultiplex)
    (ran : (TcpServerController.processToMultithreaded request.code c).Runs s u t) :
    (TcpServerController.processThreadedAndSuccess request.code c).Runs s u t := by
  have notThreaded := processToMultithreaded_runs request ran
  rw [if_neg other.1] at notThreaded
  have notMultiplex := processToMultiplex_runs request notThreaded
  rwa [if_neg other.2] at notMultiplex

/-- A new client enters the database and is served in the mode the acceptor found. -/
theorem processNew_runs {msg : TcpServerMsg} {connect : ConnectResult} {threaded : Bool}
    (posted : msg.code = (Request.processNew threaded).code)
    (ran : (TcpServerController.processMsgQMsg msg connect).Runs s u t) :
    ∃ client, s.heap msg.data = some client ∧ msg.data ∉ s.tcpClientDb ∧
      if threaded then
        client.threaded = false ∧ client.clientThread = .null ∧
          t = (added msg.data s).mapClient msg.data threadStarted
      else
        client.multiplexListen = false ∧ ∃ m, s.tcpClientSvcMgr = some m ∧ msg.data ∉ m.tcpClientDb ∧
          t = listened msg.data m (added msg.data s) := by
  simp only [TcpServerController.processMsgQMsg, posted, runs_bind, runs_when, runs_deref, runs_assertThat,
    mem_code, reduceCtorEq, if_false, exists_eq', Request.processNew.injEq, if_true] at ran
  obtain ⟨_, _, rfl, _, _, adding, _, middle, serving, ran⟩ := ran
  have rest := processThreadedAndSuccess_runs _ (processToMultithreaded_other _ ⟨by simp, by simp⟩ ran)
  obtain ⟨⟨before, found'⟩, absent, rfl⟩ := addClientToDB_runs adding
  refine ⟨before, found', absent, ?_⟩
  cases threaded with
  | true =>
    rw [if_neg Bool.noConfusion] at serving
    subst serving
    obtain ⟨client, found, mode, idle, rfl⟩ := rest
    rw [heap_addRefs, found', Option.map_some, Option.some.injEq] at found
    subst found
    exact ⟨mode, idle, rfl⟩
  | false =>
    rw [if_pos rfl] at serving
    obtain ⟨client, _, ⟨found, rfl⟩, _, _, ⟨mode, rfl⟩, starting⟩ := serving
    obtain ⟨m, present, _, unlisted, rfl⟩ := clientFDStartListenSimple_runs starting
    rw [heap_addRefs, found', Option.map_some, Option.some.injEq] at found
    subst found
    exact ⟨mode, m, present, unlisted, rest⟩

/-- The messages that are about neither a deletion nor a new client. -/
theorem migration_runs {msg : TcpServerMsg} {connect : ConnectResult} {request : Request}
    (posted : msg.code = request.code)
    (other : request ≠ .delete ∧ request ≠ .reconnect ∧ ¬ ∃ threaded, request = .processNew threaded)
    (ran : (TcpServerController.processMsgQMsg msg connect).Runs s u t) :
    (TcpServerController.processToMultithreaded request.code msg.data).Runs s u t := by
  obtain ⟨deletes, reconnects, new⟩ := other
  have multiplexed : request ≠ .processNew false := fun same => new ⟨false, same⟩
  simp only [TcpServerController.processMsgQMsg, posted, mem_code, deletes, reconnects, new,
    multiplexed, if_false, runs_bind, runs_when] at ran
  obtain ⟨_, _, rfl, _, _, rfl, _, _, rfl, ran⟩ := ran
  exact ran

/-- A message is processed as the act it asks for. -/
theorem processMsgQMsg_runs {msg : TcpServerMsg} {connect : ConnectResult} {request : Request}
    (posted : msg.code = request.code) (ran : (TcpServerController.processMsgQMsg msg connect).Runs s u t) :
    Acted msg.data s (request.act connect) t := by
  by_cases deletes : request = .delete
  · subst deletes
    obtain ⟨client, s₁, s₂, s₃, s₄, deletes⟩ := delete_runs posted ran
    exact .deleted deletes
  by_cases reconnects : request = .reconnect
  · subst reconnects
    obtain ⟨client, s₁, s₂, s₃, s₄, middle, deletes, creates⟩ := reconnect_runs posted ran
    exact .reconnected deletes creates
  by_cases new : ∃ threaded, request = .processNew threaded
  · obtain ⟨threaded, rfl⟩ := new
    obtain ⟨client, found, absent, served⟩ := processNew_runs posted ran
    cases threaded with
    | true =>
      obtain ⟨mode, idle, rfl⟩ := served
      exact .processNewThreaded found absent mode idle
    | false =>
      obtain ⟨mode, m, present, unlisted, rfl⟩ := served
      exact .processNewMultiplexed found absent mode present unlisted
  have ran := migration_runs posted ⟨deletes, reconnects, new⟩ ran
  have threaded := processToMultithreaded_runs request ran
  split_ifs at threaded with toMultithreaded
  · subst toMultithreaded
    exact threaded
  have multiplex := processToMultiplex_runs request threaded
  split_ifs at multiplex with toMultiplex
  · subst toMultiplex
    exact multiplex
  have success := processThreadedAndSuccess_runs request multiplex
  cases request with
  | processNew mode => exact absurd ⟨mode, rfl⟩ new
  | delete => exact absurd rfl deletes
  | reconnect => exact absurd rfl reconnects
  | toMultithreaded => exact absurd rfl toMultithreaded
  | toMultiplex => exact absurd rfl toMultiplex
  | connectSuccess => exact success

/-- The calls of the application that are about one client. -/
theorem event_acts {e : Event} {act : Act} (performs : performed s e = some (act, c))
    (called : ∀ connect, e ≠ .processFront connect) (ran : e.op.Runs s u t) : Acted c s act t := by
  cases e with
  | processFront connect => exact absurd rfl (called connect)
  | deleteClient d =>
    cases performs
    obtain ⟨client, s₁, s₂, s₃, s₄, deletes⟩ := processClientDelete_runs ran
    exact .deleted deletes
  | deleteKey ipAddr portNo =>
    obtain ⟨d, first, same⟩ := Option.map_eq_some_iff.mp performs
    cases same
    rcases processKeyDelete_runs ran with rfl | ⟨d, client, _, first', found, rfl, left⟩
    · exact .nothing _
    obtain rfl := Option.some.inj (first.symm.trans first')
    rcases left with ⟨last, thread, connector, rfl⟩ | ⟨several, running, rfl⟩ | ⟨several, idle, m,
      present, rfl⟩
    · exact .keyDestroyed found last ⟨thread, connector⟩
    · exact .keyDeleted found several running
    · exact .keyUnlistened found several idle present
  | migrateToMultiThreaded ipAddr portNo =>
    obtain ⟨d, first, same⟩ := Option.map_eq_some_iff.mp performs
    cases same
    rcases processClientMigrationToMultiThreaded_runs ran with
      rfl | ⟨d, client, m, first', found, idle, several, present, rfl⟩
    · exact .nothing _
    obtain rfl := Option.some.inj (first.symm.trans first')
    exact .migratedToMultiThreaded found idle several present
  | migrateToMultiplex ipAddr portNo =>
    obtain ⟨d, first, same⟩ := Option.map_eq_some_iff.mp performs
    cases same
    rcases processClientMigrationToMultiplex_runs ran with
      rfl | ⟨d, client, m, first', found, running, several, present, unlisted, rfl⟩
    · exact .nothing _
    obtain rfl := Option.some.inj (first.symm.trans first')
    exact .migratedToMultiplex found running several present unlisted
  | startListen d =>
    cases performs
    obtain ⟨m, present, ⟨client, found⟩, unlisted, rfl⟩ := clientFDStartListenSimple_runs ran
    exact .startedListening found present unlisted
  | stopListen d =>
    cases performs
    obtain ⟨m, client, present, found, several, rfl⟩ := clientFDStopListenSimple_runs ran
    exact .stoppedListening found several present
  | _ => cases performs

end

end TcpServerLib.Refinement
