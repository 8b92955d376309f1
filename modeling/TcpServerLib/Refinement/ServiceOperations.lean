import TcpServerLib.Machine.Path
import TcpServerLib.Refinement.ClientOperations

/-! # What the operations of the service manager amount to

Starting the service thread appends the whole client database to the list of the service manager,
unless `TCP_SERVER_NOT_LISTENING_CLIENTS` is set. Every operation that takes a client into the
list or out of it starts the thread anew, and so does this as well.
-/

namespace TcpServerLib.Refinement

open Machine Model Prog

namespace Server

/-- The clients that the service manager listens to. -/
def svcList (s : TcpServerController) : List ClientRef :=
  match s.tcpClientSvcMgr with
  | some m => m.tcpClientDb
  | none => []

/-- The clients that a start of the service thread appends to its list. -/
def copied (s : TcpServerController) : List ClientRef :=
  if s.notListeningClients then [] else s.tcpClientDb

/-- A service thread before its first `select`. -/
def serving (list : List ClientRef) : TcpClientServiceManager :=
  ⟨list, true, list, [], []⟩

/-- The service manager after its list has become `list` between a stop and a start. -/
def relisted (s : TcpServerController) (list : List ClientRef) (m : TcpClientServiceManager) :
    TcpClientServiceManager :=
  if s.notListeningClients then { m with tcpClientDb := list } else serving (list ++ copied s)

/-- The service thread is started over a fresh copy of the list. -/
def svcStarted (m : TcpClientServiceManager) (s : TcpServerController) : TcpServerController :=
  addRefs (copied s) { s with tcpClientSvcMgr := some (serving (m.tcpClientDb ++ copied s)) }

def listening (client : TcpClient) : TcpClient :=
  { client with multiplexListen := true }

def notListening (client : TcpClient) : TcpClient :=
  { client with multiplexListen := false }

/-- The multiplexer has been restarted with the client in its list. -/
def listened (c : ClientRef) (m : TcpClientServiceManager) (s : TcpServerController) : TcpServerController :=
  addRefs (c :: copied s)
    { s.mapClient c listening with tcpClientSvcMgr := some (relisted s (m.tcpClientDb ++ [c]) m) }

/-- The multiplexer has been restarted without the client. -/
def unlistened (c : ClientRef) (m : TcpClientServiceManager) (s : TcpServerController) : TcpServerController :=
  addRefs (copied s)
    { release c (s.mapClient c notListening) with
      tcpClientSvcMgr := some (relisted s (remove c m.tcpClientDb) m) }

/-- One iteration of `Purge`. -/
def svcPurged (c : ClientRef) (s : TcpServerController) : TcpServerController :=
  release c
    ((s.mapSvcMgr fun m => { m with tcpClientDb := remove c m.tcpClientDb }).mapClient c notListening)

def SvcPurges (c : ClientRef) (s t : TcpServerController) : Prop :=
  (∃ client, s.heap c = some client) ∧ t = svcPurged c s

end Server

open Server

section

variable {s t : TcpServerController} {c d : ClientRef} {client : TcpClient}
  {m : TcpClientServiceManager} {u : Unit}

theorem svcList_some (present : s.tcpClientSvcMgr = some m) : svcList s = m.tcpClientDb := by
  rw [svcList, present]

theorem count_remove (list : List ClientRef) : (remove c list).count d = if d = c then 0 else list.count d := by
  split_ifs with same
  · rw [same, List.count_eq_zero]
    intro member
    exact of_decide_eq_true (List.mem_filter.mp member).2 rfl
  · exact List.count_filter (decide_eq_true same)

/-- The copy of the database stands behind the list. -/
theorem relisted_db (list : List ClientRef) : (relisted s list m).tcpClientDb = list ++ copied s := by
  rw [relisted, copied]
  split_ifs
  · exact (List.append_nil list).symm
  · rfl

theorem mapSvcMgr_some (present : s.tcpClientSvcMgr = some m)
    (f : TcpClientServiceManager → TcpClientServiceManager) :
    s.mapSvcMgr f = { s with tcpClientSvcMgr := some (f m) } := by
  rw [TcpServerController.mapSvcMgr, present, Option.map_some]

/-- Every copied client is referenced once more. -/
theorem copyClientsTolist_runs {list : List ClientRef} (present : s.tcpClientSvcMgr = some m)
    (ran : (TcpClientDbManager.copyClientsTolist list).Runs s u t) :
    t = addRefs list { s with tcpClientSvcMgr := some { m with tcpClientDb := m.tcpClientDb ++ list } } := by
  induction list generalizing s m with
  | nil =>
    obtain ⟨_, rfl⟩ := runs_pure.mp ran
    rw [addRefs_nil, List.append_nil, ← present]
  | cons c rest ih =>
    simp only [TcpClientDbManager.copyClientsTolist, runs_bind, runs_update] at ran
    obtain ⟨_, _, rfl, _, _, referenced, ran⟩ := ran
    obtain ⟨_, rfl⟩ := reference_runs referenced
    rw [mapSvcMgr_some present] at ran
    rw [ih rfl ran, addRefs_cons rest, List.append_cons _ c rest]
    rfl

/-- The whole database is copied behind the list. -/
theorem copyAllClientsTolist_runs (present : s.tcpClientSvcMgr = some m)
    (ran : TcpClientDbManager.copyAllClientsTolist.Runs s u t) :
    t = addRefs s.tcpClientDb
      { s with tcpClientSvcMgr := some { m with tcpClientDb := m.tcpClientDb ++ s.tcpClientDb } } := by
  simp only [TcpClientDbManager.copyAllClientsTolist, runs_bind, runs_read, runs_perform] at ran
  obtain ⟨_, _, rfl, _, _, ⟨rfl, rfl⟩, _, _, copied, rfl⟩ := ran
  exact copyClientsTolist_runs present copied

/-- The descriptors follow the list. -/
theorem copyClientFDtoFDSet_runs {list : List ClientRef} (present : s.tcpClientSvcMgr = some m)
    (ran : (TcpClientServiceManager.copyClientFDtoFDSet list).Runs s u t) :
    t = { s with tcpClientSvcMgr := some { m with backupFdSet := m.backupFdSet ++ list } } := by
  induction list generalizing s m with
  | nil =>
    obtain ⟨_, rfl⟩ := runs_pure.mp ran
    rw [List.append_nil, ← present]
  | cons c rest ih =>
    simp only [TcpClientServiceManager.copyClientFDtoFDSet, runs_bind, runs_deref, runs_update] at ran
    obtain ⟨_, _, ⟨_, rfl⟩, _, _, rfl, ran⟩ := ran
    rw [mapSvcMgr_some present] at ran
    rw [ih rfl ran, List.append_cons _ c rest]

/-- Starting the thread needs a service manager. -/
theorem startTcpClientServiceManagerThread_runs
    (ran : TcpClientServiceManager.startTcpClientServiceManagerThread.Runs s u t) :
    ∃ m, s.tcpClientSvcMgr = some m ∧ t = svcStarted m s := by
  simp only [TcpClientServiceManager.startTcpClientServiceManagerThread, runs_bind, runs_derefSvcMgr, runs_update,
    runs_perform, TcpClientServiceManager.startTcpClientServiceManagerThreadInternalSimple, runs_read] at ran
  obtain ⟨m, _, ⟨present, rfl⟩, _, _, rfl, _, _, rfl, _, _, ⟨rfl, rfl⟩, _, middle, copying, ran⟩ :=
    ran
  refine ⟨m, present, ?_⟩
  rw [mapSvcMgr_some present] at copying
  have copiedAll : middle = addRefs (copied s)
      { s with tcpClientSvcMgr := some { m with tcpClientDb := m.tcpClientDb ++ copied s, thread := true } } := by
    rw [runs_when] at copying
    split_ifs at copying with deaf
    · rw [← copying, copied, if_pos deaf, addRefs_nil, List.append_nil]
    · rw [copied, if_neg deaf]
      exact copyAllClientsTolist_runs rfl copying
  obtain ⟨m', _, ⟨present', rfl⟩, _, _, rfl, _, _, filled, rfl⟩ := ran
  subst copiedAll
  obtain rfl := Option.some.inj present'
  rw [mapSvcMgr_some rfl] at filled
  rw [copyClientFDtoFDSet_runs rfl filled, mapSvcMgr_some rfl]
  rfl

/-- Stopping the thread needs one as well. -/
theorem stopTcpClientServiceManagerThread_runs
    (ran : TcpClientServiceManager.stopTcpClientServiceManagerThread.Runs s u t) :
    ∃ m, s.tcpClientSvcMgr = some m ∧ t = { s with tcpClientSvcMgr := some { m with thread := false } } := by
  simp only [TcpClientServiceManager.stopTcpClientServiceManagerThread, runs_bind, runs_derefSvcMgr] at ran
  obtain ⟨m, _, ⟨present, rfl⟩, ran⟩ := ran
  refine ⟨m, present, ?_⟩
  rw [runs_when] at ran
  split_ifs at ran with running
  · simp only [runs_bind, runs_perform, runs_update] at ran
    obtain ⟨_, _, rfl, rfl⟩ := ran
    exact mapSvcMgr_some present _
  · subst ran
    have idle : { m with thread := false } = m := by rw [← Bool.eq_false_iff.mpr running]
    rw [idle, ← present]

/-- The service thread is stopped before the list is edited, except that there is none while the
server does not listen. -/
theorem stopUnlessNotListening_runs
    (ran : (when (¬ s.notListeningClients) TcpClientServiceManager.stopTcpClientServiceManagerThread).Runs s u t)
    (present : s.tcpClientSvcMgr = some m) :
    t = { s with tcpClientSvcMgr := some { m with thread := m.thread && s.notListeningClients } } := by
  rw [runs_when] at ran
  split_ifs at ran with deaf
  · have kept : (m.thread && s.notListeningClients) = m.thread := by rw [deaf, Bool.and_true]
    rw [kept, ← present, ← ran]
  · obtain ⟨m', present', rfl⟩ := stopTcpClientServiceManagerThread_runs ran
    obtain rfl := Option.some.inj (present.symm.trans present')
    have stopped : (m.thread && s.notListeningClients) =
        false := by rw [Bool.eq_false_iff.mpr deaf, Bool.and_false]
    rw [stopped]

/-- The thread is started again once the list has been edited. -/
theorem startUnlessNotListening_runs (m : TcpClientServiceManager) (list : List ClientRef)
    (ran : (when (¬ s.notListeningClients) TcpClientServiceManager.startTcpClientServiceManagerThread).Runs
      s u t)
    (present : s.tcpClientSvcMgr =
      some { m with tcpClientDb := list, thread := m.thread && s.notListeningClients }) :
    t = addRefs (copied s) { s with tcpClientSvcMgr := some (relisted s list m) } := by
  rw [runs_when] at ran
  split_ifs at ran with deaf
  · have kept : (m.thread && s.notListeningClients) = m.thread := by rw [deaf, Bool.and_true]
    rw [copied, if_pos deaf, addRefs_nil, relisted, if_pos deaf, ← ran, ← kept, ← present]
  · obtain ⟨m', present', rfl⟩ := startTcpClientServiceManagerThread_runs ran
    obtain rfl := Option.some.inj (present.symm.trans present')
    rw [svcStarted, relisted, if_neg deaf]

/-- Listening needs the client not to be in the list. -/
theorem clientFDStartListenSimple_runs (ran : (TcpClientServiceManager.clientFDStartListenSimple c).Runs s u t) :
    ∃ m, s.tcpClientSvcMgr = some m ∧ (∃ client, s.heap c = some client) ∧ c ∉ m.tcpClientDb ∧
      t = listened c m s := by
  simp only [TcpClientServiceManager.clientFDStartListenSimple, TcpClientServiceManager.addClientToDB, runs_bind,
    runs_derefSvcMgr, runs_read, runs_deref, runs_assertThat, runs_update, runs_modifyClient] at ran
  obtain ⟨m, _, ⟨present, rfl⟩, _, _, ⟨rfl, rfl⟩, _, stopped, stopping, client, _,
      ⟨found, rfl⟩, m', _,
    ⟨present', rfl⟩, _, _, searched, _, _, ⟨rfl, rfl⟩, _, _,
    ⟨_, _, ⟨_, rfl⟩, _, _, rfl, referenced⟩, _, _, ⟨_, rfl⟩, _, _, ⟨rfl, rfl⟩, starting⟩ := ran
  obtain rfl := stopUnlessNotListening_runs stopping present
  obtain rfl := Option.some.inj present'
  have absent : c ∉ m.tcpClientDb := lookUpClientDB_absent searched found
  obtain rfl := (lookUpClientDB_runs searched).1
  obtain ⟨_, rfl⟩ := reference_runs referenced
  refine ⟨m, present, ⟨client, found⟩, absent, ?_⟩
  obtain rfl := startUnlessNotListening_runs m (m.tcpClientDb ++ [c]) starting rfl
  rw [← addRefs_mapClient [c] fun _ _ => rfl, listened, addRefs_cons (copied s)]
  rfl

theorem drop_notListening (client : TcpClient) : drop (notListening client) = (drop client).map notListening := by
  rw [drop, drop, apply_ite (Option.map notListening)]
  rfl

/-- Giving up listening needs another reference. -/
theorem clientFDStopListenSimple_runs (ran : (TcpClientServiceManager.clientFDStopListenSimple c).Runs s u t) :
    ∃ m client, s.tcpClientSvcMgr = some m ∧ s.heap c = some client ∧ 2 ≤ client.refCount ∧
      t = unlistened c m s := by
  simp only [TcpClientServiceManager.clientFDStopListenSimple,
    TcpClientServiceManager.removeClientFromDB, runs_bind,
    runs_derefSvcMgr, runs_read, runs_deref, runs_assertThat, runs_update, runs_modifyClient, runs_pure] at ran
  obtain ⟨m, _, ⟨present, rfl⟩, _, _, ⟨rfl, rfl⟩, _, stopped, stopping, client, _,
      ⟨found, rfl⟩, m', _,
    ⟨present', rfl⟩, _, _, searched, _, _, ⟨_, rfl⟩, _, _,
    ⟨_, _, ⟨_, rfl⟩, _, _, rfl, _, _, released, _, rfl⟩,
    _, _, ⟨⟨left, kept⟩, rfl⟩, _, _, ⟨rfl, rfl⟩, starting⟩ := ran
  obtain rfl := stopUnlessNotListening_runs stopping present
  obtain rfl := Option.some.inj present'
  obtain rfl := (lookUpClientDB_runs searched).1
  obtain ⟨other, found', rfl, _, _⟩ := dereference_runs released
  obtain rfl := Option.some.inj (found.symm.trans found')
  have several : 2 ≤ client.refCount := by
    rw [heap_release, if_pos rfl, found', Option.bind_some] at kept
    exact (drop_eq_some kept).1
  refine ⟨m, client, present, found, several, ?_⟩
  obtain rfl := startUnlessNotListening_runs m (remove c m.tcpClientDb) starting rfl
  have named : (fun client : TcpClient => { client with multiplexListen := false }) = notListening := rfl
  rw [named, release_mapClient drop_notListening, unlistened]
  rfl

theorem length_remove_le (list : List ClientRef) : (remove c list).length ≤ list.length :=
  List.length_filter_le ..

/-- By induction on the fuel: the purge visits the clients in the order of the list. -/
theorem svcPurgeFrom_runs {fuel : ℕ} {list : List ClientRef} (enough : list.length ≤ fuel)
    (ran : (TcpClientServiceManager.purgeFrom fuel list).Runs s u t) : Drains SvcPurges remove list s t := by
  induction fuel generalizing list s with
  | zero =>
    obtain ⟨_, rfl⟩ := runs_pure.mp ran
    rw [List.length_eq_zero_iff.mp (Nat.le_zero.mp enough)]
    exact .nil s
  | succ fuel ih =>
    cases list with
    | nil =>
      obtain ⟨_, rfl⟩ := runs_pure.mp ran
      exact .nil s
    | cons c rest =>
      simp only [TcpClientServiceManager.purgeFrom, runs_bind, runs_update, runs_modifyClient] at ran
      obtain ⟨_, _, rfl, _, _, ⟨alive, rfl⟩, _, _, released, ran⟩ := ran
      obtain ⟨_, _, rfl, _, _⟩ := dereference_runs released
      rw [runs_ite] at ran
      split_ifs at ran with twice
      · exact absurd ran runs_fail
      · have shorter : (remove c rest).length ≤ fuel :=
          Nat.le_trans (length_remove_le rest) (Nat.le_of_succ_le_succ enough)
        exact .cons ⟨alive, rfl⟩ (ih shorter ran)

/-- `Stop` cancels the thread and empties the list. -/
theorem svcStop_runs (ran : TcpClientServiceManager.stop.Runs s u t) :
    ∃ m left, s.tcpClientSvcMgr = some m ∧ t.tcpClientSvcMgr = some left ∧ left.tcpClientDb = [] ∧
      Drains SvcPurges remove m.tcpClientDb { s with tcpClientSvcMgr := some { m with thread := false } } t := by
  simp only [TcpClientServiceManager.stop, TcpClientServiceManager.purge, runs_bind, runs_derefSvcMgr,
    runs_assertThat] at ran
  obtain ⟨_, _, stopping, _, _, ⟨m', _, ⟨present', rfl⟩, _, _, ⟨_, rfl⟩, purging⟩, left, _,
      ⟨kept, rfl⟩, empty,
    rfl⟩ := ran
  obtain ⟨m, present, rfl⟩ := stopTcpClientServiceManagerThread_runs stopping
  obtain rfl := Option.some.inj present'
  exact ⟨m, left, present, kept, empty, svcPurgeFrom_runs (Nat.le_refl _) purging⟩

end

end TcpServerLib.Refinement
