import TcpServerLib.Machine.References
import TcpServerLib.Refinement.Frame

/-! # The reference counts of the clients

A client is held by every list it occurs in, once for each occurrence, and by each of its threads.
`list::remove` takes all occurrences out while one reference is dropped, so that the counts are
right for as long as every removal finds exactly one.
-/

namespace TcpServerLib.Soundness

open Machine Model Refinement Server

def ofClientThread : ClientThread → ℕ
  | .null => 0
  | .receiving => 1
  | .waiting => 1

def ofConnectThread : ConnectThread → ℕ
  | .null => 0
  | .retrying => 1
  | .posted => 1

def threads : Option TcpClient → ℕ
  | none => 0
  | some client => ofClientThread client.clientThread + ofConnectThread client.activeConnectThread

def holders (s : TcpServerController) (c : ClientRef) : ℕ :=
  s.tcpClientDb.count c + (svcList s).count c + s.connectpendingClients.count c + s.establishedClient.count c +
    threads (s.heap c)

/-- Every count is the number of holders, and an aborted client has none. -/
def Accounted (s : TcpServerController) : Prop :=
  ∀ c, match s.heap c with
    | some client => client.refCount = holders s c
    | none => holders s c = 0

/-- A deletion finds the client once in each list it takes it from. -/
def DeletesOnce (s : TcpServerController) (c : ClientRef) (client : TcpClient) : Prop :=
  (client.passiveOpener = true → s.tcpClientDb.count c = 1) ∧
    (client.multiplexListen = true → (svcList s).count c = 1) ∧
    (client.activeOpener = true →
      if client.connected then s.establishedClient.count c = 1 else s.connectpendingClients.count c = 1)

def ActsOnce (s : TcpServerController) (c : ClientRef) (client : TcpClient) : Act → Prop
  | .delete => DeletesOnce s c client
  | .reconnect _ => DeletesOnce s c client
  | .toMultithreaded => client.threaded = false ∧ client.multiplexListen = true → (svcList s).count c = 1
  | .connectSuccess => s.connectpendingClients.count c = 1
  | .deleteKey => s.tcpClientDb.count c = 1 ∧
    (client.clientThread = .null ∧ 2 ≤ client.refCount → (svcList s).count c = 1)
  | .migrateToMultiThreaded => client.clientThread = .null → (svcList s).count c = 1
  | .stopListen => (svcList s).count c = 1
  | _ => True

/-- Every removal of the step finds exactly one occurrence. -/
def RemovesOnce (s : TcpServerController) (e : Event) : Prop :=
  (∀ performs ∈ performed s e, ∀ client ∈ s.heap performs.2, ActsOnce s performs.2 client performs.1) ∧
    match e with
    | .stopClientSvcMgr => (svcList s).Nodup
    | .stop => (svcList s).Nodup ∧ s.tcpClientDb.Nodup
    | _ => True

instance (s : TcpServerController) (c : ClientRef) (client : TcpClient) : Decidable (DeletesOnce s c client) :=
  inferInstanceAs (Decidable (_ ∧ _ ∧ _))

instance (s : TcpServerController) (c : ClientRef) (client : TcpClient) (act : Act) :
    Decidable (ActsOnce s c client act) := by
  apply @Act.casesOn (fun act => Decidable (ActsOnce s c client act)) act <;> intros <;>
    unfold ActsOnce <;> infer_instance

instance (s : TcpServerController) (e : Event) : Decidable (RemovesOnce s e) := by
  apply @Event.casesOn (fun e => Decidable (RemovesOnce s e)) e <;> intros <;> unfold RemovesOnce
    <;> infer_instance

def counts (s : TcpServerController) (c : ClientRef) : Option ℕ :=
  (s.heap c).map (·.refCount)

/-- The books of a server in the middle of an operation, which has the references of the credit in
hand. -/
def Ledger (credit : List ClientRef) (s : TcpServerController) : Prop :=
  Balanced (counts s) (holders s) credit

section

variable {s t : TcpServerController} {c : ClientRef} {client : TcpClient} {m : TcpClientServiceManager}
  {credit credit' : List ClientRef}

theorem ofClientThread_running {thread : ClientThread} (running : thread ≠ .null) :
    ofClientThread thread = 1 := by
  cases thread with
  | null => exact absurd rfl running
  | receiving => rfl
  | waiting => rfl

theorem ofConnectThread_running {thread : ConnectThread} (running : thread ≠ .null) :
    ofConnectThread thread = 1 := by
  cases thread with
  | null => exact absurd rfl running
  | retrying => rfl
  | posted => rfl

theorem accounted_iff : Accounted s ↔ Ledger [] s := by
  apply forall_congr'
  intro c
  rw [counts, List.count_nil, Nat.add_zero]
  cases s.heap c with
  | none => exact eq_comm
  | some client => exact Iff.rfl

theorem count_cons (c d : ClientRef) (list : List ClientRef) : (c :: list).count d = [c].count d + list.count d :=
  @List.count_append _ _ d [c] list

theorem count_remove_once {list : List ClientRef} (once : list.count c = 1) (d : ClientRef) :
    (remove c list).count d + [c].count d = list.count d := by
  rw [count_remove]
  split_ifs with same
  · rw [same, once, List.count_singleton_self]
  · have absent : [c].count d = 0 := List.count_eq_zero.mpr (by simpa using same)
    rw [absent, Nat.add_zero]

/-- The clients stay as they are for the books. -/
theorem Ledger.move (ledger : Ledger credit s) (counts : ∀ d, counts t d = counts s d)
    (moved : ∀ d, holders t d + credit'.count d = holders s d + credit.count d) : Ledger credit' t := by
  have same : Soundness.counts t = Soundness.counts s := funext counts
  rw [Ledger, same]
  exact ledger.transfer moved

theorem Ledger.of_heap (ledger : Ledger credit s) (heap : t.heap = s.heap)
    (moved : ∀ d, holders t d + credit'.count d = holders s d + credit.count d) : Ledger credit' t :=
  ledger.move (fun d => by rw [Soundness.counts, Soundness.counts, heap]) moved

theorem ledger_release (ledger : Ledger (c :: credit) s) : Ledger credit (release c s) := by
  have released : counts (release c s) = RefCount.release c (counts s) := by
    funext d
    rw [counts, heap_release, RefCount.release, Function.update_apply]
    split_ifs with same
    · rw [counts]
      cases s.heap c with
      | none => rfl
      | some client =>
        rw [Option.bind_some, drop, Option.map_some, Option.bind_some]
        split_ifs <;> rfl
    · rfl
  have held : holders (release c s) = holders s := by
    funext d
    have lists : threads ((release c s).heap d) = threads (s.heap d) := by
      rw [heap_release]
      split_ifs with same
      · subst same
        have balance := ledger d
        rw [counts] at balance
        cases found : s.heap d with
        | none => rfl
        | some client =>
          rw [found, Option.map_some, Option.getD_some, holders, found, List.count_cons_self] at balance
          rw [Option.bind_some, drop]
          split_ifs with last
          · have unheld : threads (some client) = 0 := by omega
            rw [unheld]
            rfl
          · rfl
      · rfl
    rw [holders, holders, lists]
    rfl
  rw [Ledger, released, held]
  exact Balanced.release ledger

theorem ledger_addRefs (ledger : Ledger credit s) {list : List ClientRef}
    (alive : ∀ d ∈ list, ∃ client, s.heap d = some client) : Ledger (list ++ credit) (addRefs list s) := by
  have acquired : counts (addRefs list s) = RefCount.acquire list (counts s) := by
    funext d
    rw [counts, heap_addRefs, RefCount.acquire, counts, Option.map_map, Option.map_map]
    rfl
  have held : holders (addRefs list s) = holders s := by
    funext d
    have lists : threads ((addRefs list s).heap d) = threads (s.heap d) := by
      rw [heap_addRefs]
      cases s.heap d <;> rfl
    rw [holders, holders, lists]
    rfl
  rw [Ledger, acquired, held]
  apply Balanced.acquire ledger
  rintro d member
  obtain ⟨client, found⟩ := alive d member
  exact ⟨client.refCount, by rw [counts, found, Option.map_some]⟩

/-- A holder keeps its client alive. -/
theorem Ledger.alive (ledger : Ledger credit s) {d : ClientRef} (held : 0 < holders s d) :
    ∃ client, s.heap d = some client := by
  obtain ⟨n, counted⟩ := Balanced.alive ledger held
  obtain ⟨client, found, _⟩ := Option.map_eq_some_iff.mp counted
  exact ⟨client, found⟩

theorem Ledger.alive_db (ledger : Ledger credit s) {d : ClientRef} (member : d ∈ s.tcpClientDb) :
    ∃ client, s.heap d = some client := by
  apply ledger.alive
  have counted := List.count_pos_iff.mpr member
  rw [holders]
  omega

/-- A change of a client that leaves its threads and its references alone. -/
theorem ledger_mapClient (ledger : Ledger credit s) {f : TcpClient → TcpClient}
    (refCount : ∀ client, (f client).refCount = client.refCount)
    (same : ∀ client, threads (some (f client)) = threads (some client)) : Ledger credit (s.mapClient c f) := by
  refine ledger.move (fun d => ?_) fun d => ?_
  · rw [counts, counts, heap_mapClient]
    split_ifs with here
    · subst here
      cases s.heap d with
      | none => rfl
      | some client => exact congrArg some (refCount client)
    · rfl
  · have lists : threads ((s.mapClient c f).heap d) = threads (s.heap d) := by
      rw [heap_mapClient]
      split_ifs with here
      · subst here
        cases s.heap d with
        | none => rfl
        | some client => exact same client
      · rfl
    rw [holders, holders, lists]
    rfl

/-- A thread of a client comes or goes, with its reference. -/
theorem ledger_thread (ledger : Ledger credit s) {f : TcpClient → TcpClient} (found : s.heap c = some client)
    (balance : (f client).refCount + threads (some client) + credit.count c =
      client.refCount + threads (some (f client)) + credit'.count c)
    (others : ∀ d ≠ c, credit'.count d = credit.count d) : Ledger credit' (s.mapClient c f) := by
  intro d
  have before := ledger d
  rw [counts, holders] at before ⊢
  rw [heap_mapClient]
  rcases eq_or_ne d c with rfl | other
  · rw [found, Option.map_some, Option.getD_some] at before
    rw [if_pos rfl, found, Option.map_some, Option.map_some, Option.getD_some]
    have lists : svcList (s.mapClient d f) = svcList s := rfl
    rw [lists]
    dsimp only [TcpServerController.mapClient]
    omega
  · rw [if_neg other, others d other]
    exact before

theorem ledger_threadStarted (ledger : Ledger credit s) (found : s.heap c = some client)
    (idle : client.clientThread = .null) : Ledger credit (s.mapClient c threadStarted) := by
  refine ledger_thread ledger found ?_ fun _ _ => rfl
  simp only [threads, threadStarted, idle, ofClientThread]
  omega

/-- A thread that has been joined leaves its reference to whoever joins it. -/
theorem ledger_threadJoined (ledger : Ledger credit s) (found : s.heap c = some client)
    (running : client.clientThread ≠ .null) : Ledger (c :: credit) (s.mapClient c threadStopped) := by
  refine ledger_thread ledger found ?_ fun d other => List.count_cons_of_ne other.symm
  have gone : threads (some (threadStopped client)) = 0 + ofConnectThread client.activeConnectThread := rfl
  have kept : (threadStopped client).refCount = client.refCount := rfl
  rw [gone, kept, threads, ofClientThread_running running, List.count_cons_self]
  omega

theorem ledger_threadStopped (ledger : Ledger credit s) (found : s.heap c = some client)
    (running : client.clientThread ≠ .null) : Ledger credit (release c (s.mapClient c threadStopped)) :=
  ledger_release (ledger_threadJoined ledger found running)

theorem ledger_connectorJoined (ledger : Ledger credit s) (found : s.heap c = some client)
    (running : client.activeConnectThread ≠ .null) : Ledger (c :: credit) (s.mapClient c connectorJoined) := by
  refine ledger_thread ledger found ?_ fun d other => List.count_cons_of_ne other.symm
  have gone : threads (some (connectorJoined client)) = ofClientThread client.clientThread + 0 := rfl
  have kept : (connectorJoined client).refCount = client.refCount := rfl
  rw [gone, kept, threads, ofConnectThread_running running, List.count_cons_self]
  omega

theorem ledger_db (ledger : Ledger credit s) {list : List ClientRef}
    (moved : ∀ d, list.count d + credit'.count d = s.tcpClientDb.count d + credit.count d) :
    Ledger credit' { s with tcpClientDb := list } := by
  refine ledger.of_heap rfl fun d => ?_
  have moved := moved d
  have same : svcList { s with tcpClientDb := list } = svcList s := rfl
  rw [holders, holders, same]
  dsimp only
  omega

theorem ledger_svcMgr (ledger : Ledger credit s) {svcMgr : Option TcpClientServiceManager} (list : List ClientRef)
    (listed : svcList { s with tcpClientSvcMgr := svcMgr } = list)
    (moved : ∀ d, list.count d + credit'.count d = (svcList s).count d + credit.count d) :
    Ledger credit' { s with tcpClientSvcMgr := svcMgr } := by
  refine ledger.of_heap rfl fun d => ?_
  have moved := moved d
  rw [holders, holders, listed]
  dsimp only
  omega

theorem ledger_connect (ledger : Ledger credit s) (pending established : List ClientRef)
    (moved : ∀ d, pending.count d + established.count d + credit'.count d =
      s.connectpendingClients.count d + s.establishedClient.count d + credit.count d) :
    Ledger credit' { s with connectpendingClients := pending, establishedClient := established } := by
  refine ledger.of_heap rfl fun d => ?_
  have moved := moved d
  have same : svcList { s with connectpendingClients := pending, establishedClient := established } =
      svcList s := rfl
  rw [holders, holders, same]
  dsimp only
  omega

theorem ledger_unlisted (ledger : Ledger credit s) (once : s.tcpClientDb.count c = 1) :
    Ledger (c :: credit) { s with tcpClientDb := remove c s.tcpClientDb } := by
  refine ledger_db ledger fun d => ?_
  have removed := count_remove_once once d
  rw [count_cons]
  omega

theorem ledger_unkeyed (ledger : Ledger credit s) (once : s.tcpClientDb.count c = 1) :
    Ledger credit (unkeyed c s) :=
  ledger_release (ledger_unlisted ledger once)

theorem ledger_unpended {rest : List ClientRef} (ledger : Ledger credit s)
    (pending : s.connectpendingClients = c :: rest) :
    Ledger (c :: credit) { s with connectpendingClients := rest } := by
  refine ledger_connect ledger rest s.establishedClient fun d => ?_
  rw [pending, count_cons c d rest, count_cons c d credit]
  omega

theorem ledger_unestablished {rest : List ClientRef} (ledger : Ledger credit s)
    (established : s.establishedClient = c :: rest) :
    Ledger (c :: credit) { s with establishedClient := rest } := by
  refine ledger_connect ledger s.connectpendingClients rest fun d => ?_
  rw [established, count_cons c d rest, count_cons c d credit]
  omega

theorem ledger_added (ledger : Ledger credit s) (alive : ∃ client, s.heap c = some client) :
    Ledger credit (added c s) := by
  have referenced : Ledger ([c] ++ credit) (addRefs [c] s) := by
    apply ledger_addRefs ledger
    rintro d member
    obtain rfl := List.mem_singleton.mp member
    exact alive
  have added : Ledger credit { addRefs [c] s with tcpClientDb := s.tcpClientDb ++ [c] } := by
    refine ledger_db referenced fun d => ?_
    rw [List.count_append, List.count_append]
    exact Nat.add_assoc ..
  exact added

theorem copied_subset {d : ClientRef} (member : d ∈ copied s) : d ∈ s.tcpClientDb := by
  rw [copied] at member
  split_ifs at member
  · exact absurd member List.not_mem_nil
  · exact member

theorem ledger_listened (ledger : Ledger credit s) (present : s.tcpClientSvcMgr = some m)
    (found : s.heap c = some client) : Ledger credit (listened c m s) := by
  have flagged : Ledger credit (s.mapClient c listening) := ledger_mapClient ledger (fun _ => rfl) fun _ => rfl
  have referenced : Ledger ((c :: copied s) ++ credit) (addRefs (c :: copied s) (s.mapClient c listening)) := by
    apply ledger_addRefs flagged
    rintro d member
    rcases List.mem_cons.mp member with rfl | copied
    · exact ⟨listening client, by rw [heap_mapClient, if_pos rfl, found, Option.map_some]⟩
    · exact flagged.alive_db (copied_subset copied)
  have listed : Ledger credit { addRefs (c :: copied s) (s.mapClient c listening) with
      tcpClientSvcMgr := some (relisted s (m.tcpClientDb ++ [c]) m) } := by
    refine ledger_svcMgr referenced _ (relisted_db _) fun d => ?_
    have before : svcList (addRefs (c :: copied s) (s.mapClient c listening)) = m.tcpClientDb :=
      svcList_some present
    rw [before, List.count_append, List.count_append, List.count_append, count_cons c d (copied s)]
    omega
  exact listed

theorem ledger_unlistened (ledger : Ledger credit s) (present : s.tcpClientSvcMgr = some m)
    (once : (svcList s).count c = 1) : Ledger credit (unlistened c m s) := by
  have before : svcList s = m.tcpClientDb := svcList_some present
  have flagged : Ledger credit (s.mapClient c notListening) := ledger_mapClient ledger (fun _ => rfl) fun _ => rfl
  have unlisted : Ledger (c :: credit) { s.mapClient c notListening with
      tcpClientSvcMgr := some { m with tcpClientDb := remove c m.tcpClientDb } } := by
    refine ledger_svcMgr flagged (remove c m.tcpClientDb) rfl fun d => ?_
    have removed := count_remove_once (before ▸ once) d
    have same : svcList (s.mapClient c notListening) = m.tcpClientDb := before
    rw [same, count_cons]
    omega
  have released := ledger_release unlisted
  have referenced := ledger_addRefs released fun d member => released.alive_db (copied_subset (s := s) member)
  have listed : Ledger credit { addRefs (copied s) (release c { s.mapClient c notListening with
        tcpClientSvcMgr := some { m with tcpClientDb := remove c m.tcpClientDb } }) with
      tcpClientSvcMgr := some (relisted s (remove c m.tcpClientDb) m) } := by
    refine ledger_svcMgr referenced _ (relisted_db _) fun d => ?_
    rw [List.count_append, List.count_append]
    exact Nat.add_assoc ..
  exact listed

theorem ledger_movedToEstablished (ledger : Ledger credit s) (once : s.connectpendingClients.count c = 1) :
    Ledger credit (movedToEstablished c s) := by
  refine ledger_connect ledger _ _ fun d => ?_
  have removed := count_remove_once once d
  rw [List.count_append]
  omega

theorem ledger_served (ledger : Ledger credit s) (served : Served c s t) : Ledger credit t := by
  rcases served with ⟨_, client, found, idle, rfl⟩ | ⟨_, m, present, ⟨client, found⟩, _, rfl⟩
  · exact ledger_threadStarted ledger found idle
  · exact ledger_listened ledger present found

theorem ledger_forgotten (ledger : Ledger credit s)
    (once : if client.connected then s.establishedClient.count c = 1 else s.connectpendingClients.count c = 1) :
    Ledger credit (release c (forgotten c client.connected s)) := by
  apply ledger_release
  refine ledger_connect ledger _ _ fun d => ?_
  rw [count_cons]
  split_ifs at once ⊢
  · have removed := count_remove_once once d
    omega
  · have removed := count_remove_once once d
    omega

/-- The reference that is taken first goes last. -/
theorem ledger_deletes {s₁ s₂ s₃ s₄ : TcpServerController} (ledger : Ledger [] s)
    (once : DeletesOnce s c client) (deletes : Deletes c client s s₁ s₂ s₃ s₄ t) : Ledger [] t := by
  obtain ⟨onceDb, onceSvc, onceActive⟩ := once
  have referenced : Ledger [c] (addRefs [c] s) := by
    apply ledger_addRefs ledger
    rintro d member
    obtain rfl := List.mem_singleton.mp member
    exact ⟨client, deletes.found⟩
  have db : Ledger [c] s₁ ∧ svcList s₁ = svcList s ∧ s₁.establishedClient = s.establishedClient ∧
      s₁.connectpendingClients = s.connectpendingClients := by
    rw [deletes.db]
    split_ifs with passive
    · exact ⟨ledger_unkeyed referenced (onceDb passive), rfl, rfl, rfl⟩
    · exact ⟨referenced, rfl, rfl, rfl⟩
  obtain ⟨ledger₁, svc₁, established₁, pending₁⟩ := db
  have svc : Ledger [c] s₂ ∧ s₂.establishedClient = s₁.establishedClient ∧
      s₂.connectpendingClients = s₁.connectpendingClients := by
    have svc := deletes.svc
    split_ifs at svc with listens
    · obtain ⟨m, present, rfl⟩ := svc
      exact ⟨ledger_unlistened ledger₁ present (svc₁ ▸ onceSvc listens), rfl, rfl⟩
    · rw [svc]
      exact ⟨ledger₁, rfl, rfl⟩
  obtain ⟨ledger₂, established₂, pending₂⟩ := svc
  have thread : Ledger [c] s₃ ∧ s₃.establishedClient = s₂.establishedClient ∧
      s₃.connectpendingClients = s₂.connectpendingClients := by
    obtain ⟨n, found⟩ := deletes.svcLeft
    rw [deletes.thread]
    split_ifs with idle
    · exact ⟨ledger₂, rfl, rfl⟩
    · exact ⟨ledger_threadStopped ledger₂ found idle, rfl, rfl⟩
  obtain ⟨ledger₃, established₃, pending₃⟩ := thread
  rw [deletes.last]
  apply ledger_release
  rw [deletes.active]
  split_ifs with active
  · apply ledger_forgotten ledger₃
    rw [established₃, established₂, established₁, pending₃, pending₂, pending₁]
    exact onceActive active
  · exact ledger₃

/-- The heap of a server with one more client. -/
def allocated (client : TcpClient) (s : TcpServerController) : TcpServerController :=
  { s with heap := Function.update s.heap s.nextClient (some client), nextClient := s.nextClient + 1 }

/-- A new client is in nobody's hands but its creator's. -/
theorem ledger_allocated (ledger : Ledger [] s) (fresh : s.heap s.nextClient = none)
    (idle : threads (some client) = 0) :
    Ledger (List.replicate client.refCount s.nextClient) (allocated client s) := by
  intro d
  have before := ledger d
  have lists : svcList (allocated client s) = svcList s := rfl
  rw [counts, holders] at before ⊢
  rw [lists, allocated]
  dsimp only
  rw [Function.update_apply]
  split_ifs with same
  · subst same
    rw [fresh, Option.map_none, Option.getD_none, threads, List.count_nil] at before
    rw [Option.map_some, Option.getD_some, idle, List.count_replicate_self]
    omega
  · have absent : (List.replicate client.refCount s.nextClient).count d = 0 :=
      List.count_eq_zero.mpr fun member => same (List.eq_of_mem_replicate member)
    rw [absent]
    exact before

theorem ledger_created (ledger : Ledger [] s) (fresh : s.heap s.nextClient = none)
    (idle : threads (some client) = 0) (held : client.refCount = 1) : Ledger [] (created client s) := by
  have new := ledger_allocated ledger fresh idle
  rw [held] at new
  have pending : Ledger [] { allocated client s with
      connectpendingClients := s.connectpendingClients ++ [s.nextClient]
      establishedClient := s.establishedClient } := by
    refine ledger_connect new _ _ fun d => ?_
    rw [List.count_append, List.count_nil]
    dsimp only [allocated, List.replicate]
    omega
  exact pending

theorem ledger_creates {serverIpAddr : UInt32} {serverPortNo : UInt16} {connect : ConnectResult}
    (ledger : Ledger [] s) (fresh : s.heap s.nextClient = none)
    (creates : Creates serverIpAddr serverPortNo s connect t) : Ledger [] t := by
  have created : Ledger [] (created (newActive serverIpAddr serverPortNo s) s) :=
    ledger_created ledger fresh rfl rfl
  have found : (Server.created (newActive serverIpAddr serverPortNo s) s).heap s.nextClient =
      some (newActive serverIpAddr serverPortNo s) := by
    rw [heap_created, if_pos rfl]
  have absent : s.connectpendingClients.count s.nextClient = 0 := by
    have unheld := (Balanced.freed ledger (k := s.nextClient) (by rw [counts, fresh, Option.map_none])).1
    rw [holders] at unheld
    omega
  cases creates with
  | retrying => exact ledger_thread created found rfl fun _ _ => rfl
  | @connected portNo _ served =>
    have connected : Ledger [] ((Server.created (newActive serverIpAddr serverPortNo s) s).mapClient s.nextClient
        (connectedOn portNo)) := ledger_mapClient created (fun _ => rfl) fun _ => rfl
    have notified : Ledger [] (connectNotified s.nextClient
        ((Server.created (newActive serverIpAddr serverPortNo s) s).mapClient s.nextClient
          (connectedOn portNo))) :=
      connected.of_heap rfl fun _ => rfl
    refine ledger_served (ledger_movedToEstablished notified ?_) served
    change (s.connectpendingClients ++ [s.nextClient]).count s.nextClient = 1
    rw [List.count_append, absent, List.count_singleton_self]

theorem ledger_acted {act : Act} (ledger : Ledger [] s) (allocated : Allocated s)
    (once : ∀ client, s.heap c = some client → ActsOnce s c client act) (acted : Acted c s act t) :
    Ledger [] t := by
  cases acted with
  | nothing => exact ledger
  | processNewThreaded found _ _ idle =>
    exact ledger_threadStarted (ledger_added ledger ⟨_, found⟩) (heap_added_self found) idle
  | processNewMultiplexed found _ _ present unlisted =>
    exact ledger_listened (ledger_added ledger ⟨_, found⟩) present (heap_added_self found)
  | deleted deletes => exact ledger_deletes ledger (once _ deletes.found) deletes
  | reconnected deletes creates =>
    have fresh := Allocated.fresh ((framed_deletes deletes).toGrows.allocated allocated)
    exact ledger_creates (ledger_deletes ledger (once _ deletes.found) deletes) fresh creates
  | unlistenedThreaded found mode listens idle several present =>
    exact ledger_threadStarted (ledger_unlistened ledger present (once _ found ⟨mode, listens⟩))
      (heap_unlistened_self found several) idle
  | threaded found _ _ idle => exact ledger_threadStarted ledger found idle
  | stoppedMultiplexed found _ _ running several present =>
    exact ledger_listened (ledger_threadStopped ledger found running) present
      (heap_threadStopped_self found several)
  | multiplexed found _ _ present => exact ledger_listened ledger present found
  | connectSucceeded found _ _ _ served =>
    exact ledger_served (ledger_movedToEstablished ledger (once _ found)) served
  | keyDestroyed found => exact ledger_unkeyed ledger (once _ found).1
  | keyDeleted found => exact ledger_unkeyed ledger (once _ found).1
  | keyUnlistened found several idle present =>
    have acts := once _ found
    exact ledger_unlistened (ledger_unkeyed ledger acts.1) present (acts.2 ⟨idle, Nat.le_of_succ_le several⟩)
  | migratedToMultiThreaded found idle several present =>
    exact ledger_threadStarted (ledger_unlistened ledger present (once _ found idle))
      (heap_unlistened_self found several) idle
  | migratedToMultiplex found running several present =>
    exact ledger_listened (ledger_threadStopped ledger found running) present
      (heap_threadStopped_self found several)
  | startedListening found present => exact ledger_listened ledger present found
  | stoppedListening found _ present => exact ledger_unlistened ledger present (once _ found)

theorem ledger_svcUnlisted (ledger : Ledger credit s) (once : (svcList s).count c = 1) :
    Ledger (c :: credit)
      ((s.mapSvcMgr fun m => { m with tcpClientDb := remove c m.tcpClientDb }).mapClient c notListening) := by
  refine ledger_mapClient ?_ (fun _ => rfl) fun _ => rfl
  refine ledger_svcMgr ledger (remove c (svcList s)) ?_ fun d => ?_
  · rw [svcList, svcList]
    cases s.tcpClientSvcMgr <;> rfl
  · have removed := count_remove_once once d
    rw [count_cons]
    omega

theorem ledger_svcPurges (ledger : Ledger credit s) (once : (svcList s).count c = 1) (purges : SvcPurges c s t) :
    Ledger credit t := by
  obtain ⟨_, rfl⟩ := purges
  exact ledger_release (ledger_svcUnlisted ledger once)

/-- A list without repetitions is emptied with one reference for each client. -/
theorem nodup_remove {list : List ClientRef} (nodup : (c :: list).Nodup) :
    (c :: list).count c = 1 ∧ remove c list = list ∧ remove c (c :: list) = list ∧ list.Nodup := by
  obtain ⟨absent, nodup⟩ := List.nodup_cons.mp nodup
  have kept : remove c list = list := by
    apply List.filter_eq_self.mpr
    rintro d member
    exact decide_eq_true fun same => absent (same ▸ member)
  refine ⟨?_, kept, ?_, nodup⟩
  · rw [List.count_cons_self, List.count_eq_zero_of_not_mem absent]
  · rw [remove, List.filter_cons_of_neg (by simp)]
    exact kept

theorem svcList_svcPurged : svcList (svcPurged c s) = remove c (svcList s) := by
  have unlisted : svcList (svcPurged c s) =
      svcList (s.mapSvcMgr fun m => { m with tcpClientDb := remove c m.tcpClientDb }) := rfl
  rw [unlisted, svcList, svcList, TcpServerController.mapSvcMgr]
  cases s.tcpClientSvcMgr <;> rfl

theorem ledger_svcEnds (ledger : Ledger [] s) (nodup : (svcList s).Nodup) (ends : SvcEnds s t) :
    Ledger [] t ∧ t.tcpClientDb = s.tcpClientDb := by
  obtain @⟨m, left, middle, present, purges, kept, empty⟩ := ends
  have listed : svcList s = m.tcpClientDb := svcList_some present
  have stopped : Ledger [] { s with tcpClientSvcMgr := some { m with thread := false } } :=
    ledger_svcMgr ledger m.tcpClientDb rfl fun d => by rw [listed]
  have purged : Ledger [] middle ∧ middle.tcpClientDb = s.tcpClientDb ∧ svcList middle = [] ∧
      ([] : List ClientRef).Nodup := by
    refine purges.invariant
      (motive := fun rest s' => Ledger [] s' ∧ s'.tcpClientDb = s.tcpClientDb ∧ svcList s' = rest ∧
        rest.Nodup) ?_
      ⟨stopped, rfl, rfl, listed ▸ nodup⟩
    rintro c rest s' t' purges ⟨ledger, db, list, nodup⟩
    obtain ⟨once, unchanged, removed, nodup'⟩ := nodup_remove nodup
    refine ⟨ledger_svcPurges ledger (list ▸ once) purges, ?_, ?_, unchanged.symm ▸ nodup'⟩
    · obtain ⟨_, rfl⟩ := purges
      exact db
    · obtain ⟨_, rfl⟩ := purges
      rw [svcList_svcPurged, list, removed, unchanged]
  refine ⟨?_, purged.2.1⟩
  have ended : Ledger [] { middle with tcpClientSvcMgr := none } :=
    ledger_svcMgr purged.1 [] rfl fun d => by rw [purged.2.2.1]
  exact ended.of_heap rfl fun _ => rfl

theorem ledger_dbPurges (ledger : Ledger [] s) (once : s.tcpClientDb.count c = 1) (purges : DbPurges c s t) :
    Ledger [] t ∧ t.tcpClientDb = remove c s.tcpClientDb := by
  obtain ⟨client, found, rfl⟩ := purges
  split_ifs with idle
  · exact ⟨ledger_unkeyed ledger once, rfl⟩
  · exact ⟨ledger_unkeyed (ledger_threadStopped ledger found idle) once, rfl⟩

theorem ledger_pendingStops (ledger : Ledger [] s) (stops : PendingStops c s t) : Ledger [] t := by
  obtain ⟨client, rest, found, pending, running, rfl⟩ := stops
  have joined : Ledger [] (release c (s.mapClient c connectorJoined)) :=
    ledger_release (ledger_connectorJoined ledger found running)
  exact ledger_release (ledger_unpended joined pending)

theorem ledger_establishedStops (ledger : Ledger [] s) (stops : EstablishedStops c s t) : Ledger [] t := by
  obtain ⟨client, rest, found, established, running, rfl⟩ := stops
  apply ledger_release
  split_ifs with threads
  · exact ledger_unestablished (ledger_threadStopped ledger found (running threads)) established
  · exact ledger_unestablished ledger established

theorem ledger_stops (ledger : Ledger [] s) (nodup : (svcList s).Nodup ∧ s.tcpClientDb.Nodup)
    (stops : Stops s t) :
    Ledger [] t := by
  obtain @⟨s₁, s₂, s₃, s₄, svc, db, _, pending, established⟩ := stops
  have served : Ledger [] s₁ ∧ s₁.tcpClientDb = s.tcpClientDb := by
    split_ifs at svc
    · exact ledger_svcEnds ledger nodup.1 svc
    · rw [svc]
      exact ⟨ledger, rfl⟩
  have purged : Ledger [] s₂ ∧ s₂.tcpClientDb = [] ∧ ([] : List ClientRef).Nodup := by
    refine db.invariant (motive := fun rest s' => Ledger [] s' ∧ s'.tcpClientDb = rest ∧ rest.Nodup) ?_
      ⟨served.1, rfl, served.2 ▸ nodup.2⟩
    rintro c rest s' t' purges ⟨ledger, list, nodup⟩
    obtain ⟨once, unchanged, removed, nodup'⟩ := nodup_remove nodup
    obtain ⟨ledger', list'⟩ := ledger_dbPurges ledger (list ▸ once) purges
    exact ⟨ledger', by rw [list', list, removed, unchanged], unchanged.symm ▸ nodup'⟩
  have unconnected : Ledger [] s₃ :=
    pending.invariant (motive := fun _ => Ledger [])
      (fun stops ledger => ledger_pendingStops ledger stops) purged.1
  have disconnected : Ledger [] s₄ :=
    established.invariant (motive := fun _ => Ledger [])
      (fun stops ledger => ledger_establishedStops ledger stops) unconnected
  exact disconnected.of_heap rfl fun _ => rfl

theorem ledger_effect {e : Event} (sound : Sound s) (once : RemovesOnce s e) (effect : Effect s e t)
    (ledger : Ledger [] s) : Ledger [] t := by
  have listed {svcMgr : Option TcpClientServiceManager}
      (same : svcList { s with tcpClientSvcMgr := svcMgr } = svcList s) :
      Ledger [] { s with tcpClientSvcMgr := svcMgr } :=
    ledger_svcMgr ledger (svcList s) same fun _ => rfl
  have heard {c : ClientRef} {s t : TcpServerController} (ledger : Ledger [] s) (heard : Heard c s t) :
      Ledger [] t := by
    obtain ⟨msgd, bytesRecvd, _⟩ := heard
    have received : Ledger [] (s.mapClient c (received msgd bytesRecvd)) :=
      ledger_mapClient ledger (fun _ => rfl) fun _ => rfl
    exact received.of_heap rfl fun _ => rfl
  cases effect with
  | acted performs acted =>
    have popped : Ledger [] (dequeued s e) := by
      cases e <;> exact ledger.of_heap rfl fun _ => rfl
    have allocated : Allocated (dequeued s e) := by
      cases e <;> exact sound.allocated
    refine ledger_acted popped allocated (fun client found => ?_) acted
    have acts := once.1 _ performs client
    cases e <;> exact acts found
  | unchanged => exact ledger
  | toggled => exact ledger.of_heap rfl fun _ => rfl
  | accepted ipAddr portNo =>
    have new : Ledger [] (allocated (newPassive ipAddr portNo s) s) :=
      ledger_allocated ledger (Allocated.fresh sound.allocated) rfl
    exact Ledger.of_heap new rfl fun _ => rfl
  | created creates => exact ledger_creates ledger (Allocated.fresh sound.allocated) creates
  | @retryPosted c client found retrying portNo =>
    have connected : Ledger [] (s.mapClient c (connectedOn portNo)) :=
      ledger_mapClient ledger (fun _ => rfl) fun _ => rfl
    have posted : Ledger [] ((s.mapClient c (connectedOn portNo)).mapClient c connectPosted) := by
      have found' : (s.mapClient c (connectedOn portNo)).heap c = some (connectedOn portNo client) := by
        rw [heap_mapClient, if_pos rfl, found, Option.map_some]
      refine ledger_thread connected found' ?_ fun _ _ => rfl
      simp only [threads, connectedOn, connectPosted, retrying, ofConnectThread]
    exact posted.of_heap rfl fun _ => rfl
  | @retryExited c client found posted =>
    apply ledger_release
    refine ledger_thread ledger found ?_ fun d other => List.count_cons_of_ne other.symm
    simp only [threads, connectorStopped, posted, ofConnectThread, List.count_cons_self]
    omega
  | requested => exact ledger.of_heap rfl fun _ => rfl
  | selected present => exact listed (svcList_some present).symm
  | skipped present => exact listed (svcList_some present).symm
  | @svcHeard m _ rest _ _ present _ _ _ _ hears =>
    have scanned : Ledger [] { s with tcpClientSvcMgr := some (scanning rest m) } :=
      listed (svcList_some present).symm
    exact heard scanned hears
  | @svcEnded m _ rest _ _ present =>
    have scanned : Ledger [] { s with tcpClientSvcMgr := some (scanning rest m) } :=
      listed (svcList_some present).symm
    exact scanned.of_heap rfl fun _ => rfl
  | threadHeard _ _ _ hears => exact heard ledger hears
  | @threadEnded c _ client found receiving =>
    have waits : Ledger [] (s.mapClient c waiting) := by
      refine ledger_thread ledger found ?_ fun _ _ => rfl
      simp only [threads, waiting, receiving, ofClientThread]
    exact waits.of_heap rfl fun _ => rfl
  | svcStopped _ ends => exact (ledger_svcEnds ledger once.2 ends).1
  | svcStarted deaf =>
    have absent : svcList s = [] := by rw [svcList, sound.svcMgr deaf]
    have served : Ledger [] { s with tcpClientSvcMgr := some (serving []) } := listed absent.symm
    exact served.of_heap rfl fun _ => rfl
  | stopped notAccepting acceptor stops =>
    have toggles : Ledger [] (toggled notAccepting acceptor s.createMultiThreaded s) :=
      ledger.of_heap rfl fun _ => rfl
    exact ledger_stops toggles once.2 stops

/-- The books of a run that removes every client once. -/
theorem run_ledger {ipAddr : UInt32} {portNo : UInt16} {es : List Event}
    (path : Path (Guarded TcpServerController.Step RemovesOnce) (.started ipAddr portNo) es s) :
    Sound s ∧ Ledger [] s :=
  run_invariant path (fun sound once effect ledger => ledger_effect sound once effect ledger) fun _ => rfl

/-- As long as every removal finds its client once, every count is the number of holders, a client
that has had a holder is aborted in the step in which it loses the last one, and it stays so. -/
theorem references_accounted {ipAddr : UInt32} {portNo : UInt16} {es : List Event}
    (path : Path (Guarded TcpServerController.Step RemovesOnce) (.started ipAddr portNo) es s) :
    Accounted s ∧ ∀ e t, Guarded TcpServerController.Step RemovesOnce s e t →
      (∀ c client, s.heap c = some client → 0 < holders s c → (t.heap c = none ↔ holders t c = 0)) ∧
      ∀ c < s.nextClient, s.heap c = none → t.heap c = none := by
  obtain ⟨sound, ledger⟩ := run_ledger path
  refine ⟨accounted_iff.mpr ledger, ?_⟩
  rintro e t ⟨once, step⟩
  have effect := step_effect sound.requests step
  have ledger' := ledger_effect sound once effect ledger
  have grows := effect_grows effect
  constructor
  · rintro c client found held
    have freed := Balanced.freed_iff (k := c) ledger' ?_
    · rw [← freed, counts, Option.map_eq_none_iff]
    · intro unheld
      obtain ⟨left, kept, zero⟩ := Option.map_eq_some_iff.mp unheld
      rcases grows.heap kept with ⟨before, found', unheld'⟩ | ⟨new, _⟩
      · have balance := ledger c
        rw [counts, found', Option.map_some, Option.getD_some, unheld' zero, List.count_nil] at balance
        omega
      · exact absurd (sound.allocated found) (Nat.not_lt.mpr new)
  · rintro c old gone
    cases kept : t.heap c with
    | none => rfl
    | some left =>
      rcases grows.heap kept with ⟨before, found, _⟩ | ⟨new, _⟩
      · exact absurd (gone.symm.trans found) (by simp)
      · exact absurd old (Nat.not_lt.mpr new)

end

/-- A threaded peer comes and goes while an active opener is still being connected. -/
def accountedEvents : List Event :=
  [.setClientCreationMode true, .accept 9 9, .processFront none, .createActiveClient 7 7 none,
    .clientThread 0 (.bytes []), .processFront none, .connectRetryPost 1 5, .processFront none,
    .connectRetryExit 1]

theorem references_accounted_accountedEvents :
    Accounted (TcpServerController.stateAfter RemovesOnce (.started 1 1) accountedEvents) :=
  (references_accounted (TcpServerController.stateAfter_path rfl)).1

/-- A multiplexed peer is listed twice, and keeps one of its references when it is deleted. -/
theorem deletedClient_kept : ¬ ∀ es t, Path TcpServerController.Step (.started 1 1) es t → Accounted t := by
  intro always
  have accounted := always [.accept 9 9, .processFront none, .deleteClient 0] _
    (TcpServerController.stateAfter_unguarded rfl) 0
  have kept : ((TcpServerController.stateAfter (fun _ _ => True) (.started 1 1)
      [.accept 9 9, .processFront none, .deleteClient 0]).heap 0).map (·.refCount) = some 1 := by decide
  have unheld : holders (TcpServerController.stateAfter (fun _ _ => True) (.started 1 1)
      [.accept 9 9, .processFront none, .deleteClient 0]) 0 = 0 := by decide
  obtain ⟨client, found, counted⟩ := Option.map_eq_some_iff.mp kept
  rw [found] at accounted
  exact absurd (counted.symm.trans (accounted.trans unheld)) (by decide)

end TcpServerLib.Soundness
