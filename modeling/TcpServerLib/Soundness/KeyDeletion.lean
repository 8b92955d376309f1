import TcpServerLib.Model.Run
import TcpServerLib.Refinement.Acts

/-! # Deleting a client by its address

`ProcessClientDelete` takes a pointer or an address. The first takes a reference of its own and
stops whatever serves the client. The second gives up the reference of the database, lets a thread
go on, and looks into a client that it may have destroyed itself.
-/

namespace TcpServerLib.Soundness

open Machine Model Refinement Refinement.Server Prog

/-- The client has been destroyed and is in no list, and the others are as they were. -/
structure Removed (c : ClientRef) (s t : TcpServerController) : Prop where
  destroyed : t.heap c = none
  db : c ∉ t.tcpClientDb
  svc : c ∉ svcList t
  established : c ∉ t.establishedClient
  pending : c ∉ t.connectpendingClients
  others : ∀ d, d ≠ c → (t.heap d).map (·.refCount) = (s.heap d).map (·.refCount) ∧
    (d ∈ t.tcpClientDb ↔ d ∈ s.tcpClientDb) ∧ (d ∈ svcList t ↔ d ∈ svcList s) ∧
    (d ∈ t.establishedClient ↔ d ∈ s.establishedClient) ∧
    (d ∈ t.connectpendingClients ↔ d ∈ s.connectpendingClients)

/-- A deletion by address removes the client, and does what a deletion by pointer does. -/
def DeletesByKey (s : TcpServerController) (c : ClientRef) (client : TcpClient) : Prop :=
  ∃ t, (TcpServerController.processKeyDelete client.ipAddr client.portNo).Runs s () t ∧ Removed c s t ∧
    (TcpServerController.processClientDelete c).Runs s () t

/-- The search finds the client, and the database holds the only reference to it. -/
structure OnlyInDb (s : TcpServerController) (c : ClientRef) (client : TcpClient) : Prop where
  found : (lookUpClientDB client.ipAddr client.portNo s.tcpClientDb).Runs s (some c) s
  last : client.refCount = 1
  thread : client.clientThread = .null
  connector : client.activeConnectThread = .null
  passive : client.passiveOpener = true
  active : client.activeOpener = false
  deaf : client.multiplexListen = false
  svc : c ∉ svcList s
  established : c ∉ s.establishedClient
  pending : c ∉ s.connectpendingClients

section

variable {s t : TcpServerController} {c d : ClientRef} {client : TcpClient} {u : Unit}

theorem reference_of_found (found : s.heap c = some client) :
    (TcpClient.reference c).Runs s () (addRefs [c] s) := by
  have ran := runs_modifyClient (u := ())
      (f := fun client => { client with refCount := client.refCount + 1 }) |>.mpr
    ⟨⟨client, found⟩, rfl⟩
  rwa [(reference_runs ran).2] at ran

theorem dereference_kept (found : s.heap c = some client) (several : 2 ≤ client.refCount) :
    (TcpClient.dereference c).Runs s true (release c s) := by
  have kept : s.mapClient c (fun client => { client with refCount := client.refCount - 1 }) = release c s := by
    rw [release, TcpServerController.mapClient, found, Option.bind_some, drop, if_neg (by omega), Option.map_some]
  have left : (release c s).heap c = some { client with refCount := client.refCount - 1 } := by
    rw [heap_release, if_pos rfl, found, Option.bind_some, drop, if_neg (by omega)]
  rw [TcpClient.dereference, runs_bind]
  refine ⟨client, s, runs_deref.mpr ⟨found, rfl⟩, ?_⟩
  rw [if_neg (by omega), runs_bind]
  refine ⟨(), _, runs_modifyClient.mpr ⟨⟨client, found⟩, kept⟩, ?_⟩
  rw [runs_bind]
  refine ⟨_, _, runs_deref.mpr ⟨left, rfl⟩, ?_⟩
  rw [if_pos (show client.refCount - 1 ≠ 0 by omega)]
  exact runs_pure.mpr ⟨rfl, rfl⟩

theorem dereference_last (found : s.heap c = some client) (last : client.refCount = 1)
    (thread : client.clientThread = .null)
    (connector : client.activeConnectThread = .null) : (TcpClient.dereference c).Runs s false (release c s) := by
  have left : (s.mapClient c (fun client => { client with refCount := client.refCount - 1 })).heap c =
      some { client with refCount := client.refCount - 1 } := by
    rw [heap_mapClient, if_pos rfl, found, Option.map_some]
  have freed : (s.mapClient c (fun client => { client with refCount := client.refCount - 1 })).freeClient c =
      release c s := by
    rw [release, TcpServerController.freeClient, TcpServerController.mapClient, found, Option.bind_some, drop,
      if_pos (by omega)]
    simp only [Function.update_idem]
  rw [TcpClient.dereference, runs_bind]
  refine ⟨client, s, runs_deref.mpr ⟨found, rfl⟩, ?_⟩
  rw [if_neg (by omega), runs_bind]
  refine ⟨(), _, runs_modifyClient.mpr ⟨⟨client, found⟩, rfl⟩, ?_⟩
  rw [runs_bind]
  refine ⟨_, _, runs_deref.mpr ⟨left, rfl⟩, ?_⟩
  rw [if_neg (show ¬ client.refCount - 1 ≠ 0 by omega), runs_bind]
  refine ⟨(), release c s, ?_, runs_pure.mpr ⟨rfl, rfl⟩⟩
  simp only [TcpClient.abort, runs_bind, runs_deref, runs_assertThat, runs_update]
  exact ⟨_, _, ⟨left, rfl⟩, (), _, ⟨thread, rfl⟩, (), _, ⟨connector, rfl⟩, (), _,
    ⟨by rw [last], rfl⟩, freed⟩

theorem removed_unkeyed (found : s.heap c = some client) (only : OnlyInDb s c client) :
    Removed c s (unkeyed c s) := by
  constructor
  · change (release c { s with tcpClientDb := remove c s.tcpClientDb }).heap c = none
    rw [heap_release, if_pos rfl, found, Option.bind_some, drop, if_pos (Nat.le_of_eq only.last)]
  · exact fun member => of_decide_eq_true (List.mem_filter.mp member).2 rfl
  · exact only.svc
  · exact only.established
  · exact only.pending
  · intro d other
    refine ⟨?_, ?_, Iff.rfl, Iff.rfl, Iff.rfl⟩
    · change ((release c { s with tcpClientDb := remove c s.tcpClientDb }).heap d).map _ = _
      rw [heap_release, if_neg other]
    · exact ⟨fun member => (List.mem_filter.mp member).1, fun member =>
        List.mem_filter.mpr ⟨member, decide_eq_true other⟩⟩

theorem processKeyDelete_only (found : s.heap c = some client) (only : OnlyInDb s c client) :
    (TcpServerController.processKeyDelete client.ipAddr client.portNo).Runs s () (unkeyed c s) := by
  simp only [TcpServerController.processKeyDelete, TcpClientDbManager.removeKeyFromDB, runs_bind,
    runs_perform, runs_read]
  refine ⟨none, unkeyed c s, ?_, runs_pure.mpr ⟨rfl, rfl⟩⟩
  refine ⟨(), s, rfl, s, s, ⟨rfl, rfl⟩, some c, s, only.found, ?_⟩
  simp only [runs_bind, runs_update, runs_perform, runs_pure]
  have here : ({ s with tcpClientDb := remove c s.tcpClientDb } : TcpServerController).heap c =
      some client := found
  exact ⟨(), _, rfl, false, _, dereference_last here only.last only.thread only.connector, (), _,
    rfl, rfl, rfl⟩

/-- The reference taken first is given back last. -/
theorem release_referenced (found : s.heap c = some client) (last : client.refCount = 1) :
    release c (release c { addRefs [c] s with tcpClientDb := remove c s.tcpClientDb }) = unkeyed c s := by
  simp only [unkeyed, release, addRefs, Function.update_self, Function.update_idem]
  congr 1
  funext d
  simp only [Function.update_apply]
  split_ifs with same
  · rw [found, Option.map_some, Option.bind_some, Option.bind_some, List.count_singleton_self]
    simp only [drop, last]
    rfl
  · have other : [c].count d = 0 := List.count_eq_zero.mpr (fun member => same (List.mem_singleton.mp member))
    simp only [other, Nat.add_zero, Option.map_id']

theorem processClientDelete_only (found : s.heap c = some client) (only : OnlyInDb s c client) :
    (TcpServerController.processClientDelete c).Runs s () (unkeyed c s) := by
  have twice : ({ addRefs [c] s with tcpClientDb := remove c s.tcpClientDb } : TcpServerController).heap c =
      some { client with refCount := 2 } := by
    change (addRefs [c] s).heap c = _
    rw [heap_addRefs, found, Option.map_some, List.count_singleton_self, only.last]
  have once : (release c { addRefs [c] s with tcpClientDb := remove c s.tcpClientDb }).heap c =
      some { client with refCount := 1 } := by
    rw [heap_release, if_pos rfl, twice, Option.bind_some]
    rfl
  have twice' : (addRefs [c] s).heap c = some { client with refCount := 2 } := twice
  rw [TcpServerController.processClientDelete, runs_bind]
  refine ⟨(), _, reference_of_found found, ?_⟩
  rw [runs_bind]
  refine ⟨_, _, runs_deref.mpr ⟨twice', rfl⟩, ?_⟩
  rw [runs_bind]
  refine ⟨(), release c { addRefs [c] s with tcpClientDb := remove c s.tcpClientDb }, ?_, ?_⟩
  · rw [runs_when, if_pos only.passive]
    simp only [TcpClientDbManager.removeClientFromDB, runs_bind, runs_update, runs_perform]
    exact ⟨(), _, rfl, (), _, rfl, true, _, dereference_kept twice (Nat.le_refl 2), rfl⟩
  rw [← release_referenced found only.last]
  generalize release c { addRefs [c] s with tcpClientDb := remove c s.tcpClientDb } = left at once
  have skips {condition : Prop} [Decidable condition] {program : Op Unit} (fails : ¬ condition) :
      (when condition program).Runs left () left := by
    rw [runs_when, if_neg fails]
  have here := runs_deref.mpr ⟨once, rfl⟩
  rw [runs_bind]
  refine ⟨_, left, here, ?_⟩
  rw [runs_bind]
  refine ⟨(), left, skips (Bool.eq_false_iff.mp only.deaf), ?_⟩
  rw [runs_bind]
  refine ⟨_, left, here, ?_⟩
  rw [runs_bind]
  refine ⟨(), left, skips (not_not.mpr only.thread), ?_⟩
  rw [runs_bind]
  refine ⟨_, left, here, ?_⟩
  rw [runs_bind]
  refine ⟨(), left, skips (Bool.eq_false_iff.mp only.active), ?_⟩
  rw [runs_bind]
  exact ⟨false, _, dereference_last once rfl only.thread only.connector, runs_pure.mpr ⟨rfl, rfl⟩⟩

/-- A run that destroys the client finds it by its key, and gives up the last reference. -/
theorem keyDelete_destroys (found : s.heap c = some client)
    (ran : (TcpServerController.processKeyDelete client.ipAddr client.portNo).Runs s u t)
    (destroyed : t.heap c = none) :
    keyFound client.ipAddr client.portNo s = some c ∧ client.refCount ≤ 1 ∧ client.clientThread = .null ∧
      client.activeConnectThread = .null ∧ t = unkeyed c s := by
  rcases processKeyDelete_runs ran with rfl | ⟨d, other, s₁, first, found', rfl, cases⟩
  · cases found.symm.trans destroyed
  have same : c = d := by
    by_contra different
    have kept : (release d { s with tcpClientDb := remove d s.tcpClientDb }).heap c = some client := by
      rw [heap_release, if_neg different]
      exact found
    rcases cases with ⟨_, _, _, rfl⟩ | ⟨_, _, rfl⟩ | ⟨_, _, m, _, rfl⟩
    · cases kept.symm.trans destroyed
    · cases kept.symm.trans destroyed
    · rw [heap_unlistened, if_neg different, kept] at destroyed
      cases destroyed
  subst same
  obtain rfl := Option.some.inj (found.symm.trans found')
  have left (several : 2 ≤ client.refCount) :
      (release c { s with tcpClientDb := remove c s.tcpClientDb }).heap c =
      some { client with refCount := client.refCount - 1 } := by
    rw [heap_release, if_pos rfl, found, Option.bind_some, drop, if_neg (by omega)]
  rcases cases with ⟨last, thread, connector, rfl⟩ | ⟨several, _, rfl⟩ | ⟨several, _, m, _, rfl⟩
  · exact ⟨first, last, thread, connector, rfl⟩
  · cases (left several).symm.trans destroyed
  · have stays := heap_unlistened_self (m := m) (left (by omega)) (show 2 ≤ client.refCount - 1 by omega)
    cases stays.symm.trans destroyed

theorem keyDelete_searches {ipAddr : UInt32} {portNo : UInt16}
    (ran : (TcpServerController.processKeyDelete ipAddr portNo).Runs s u t) :
    (lookUpClientDB ipAddr portNo s.tcpClientDb).Runs s (keyFound ipAddr portNo s) s := by
  simp only [TcpServerController.processKeyDelete, TcpClientDbManager.removeKeyFromDB, runs_bind, runs_perform,
    runs_read] at ran
  obtain ⟨_, _, ⟨_, _, rfl, _, _, ⟨rfl, rfl⟩, found, _, searched, _⟩, _⟩ := ran
  obtain ⟨rfl, rfl⟩ := lookUpClientDB_runs searched
  exact searched

/-- A client that a deletion by pointer is through with too early is missed by the next stage. -/
theorem deletes_only {s₁ s₂ s₃ s₄ : TcpServerController}
    (deletes : Deletes c client s s₁ s₂ s₃ s₄ t)
    (last : client.refCount ≤ 1) (thread : client.clientThread = .null) (member : c ∈ s.tcpClientDb)
    (left : c ∉ t.tcpClientDb) :
    client.refCount = 1 ∧ client.passiveOpener = true ∧ client.activeOpener = false ∧
    client.multiplexListen = false := by
  have passive : client.passiveOpener = true := by
    by_contra other
    rw [deletes_db deletes, dbWithout, if_neg other] at left
    exact left member
  have once : client.refCount = 1 ∧ s₁.heap c = some { client with refCount := 1 } := by
    obtain ⟨n, kept⟩ := deletes.dbLeft
    have referenced : (addRefs [c] s).heap c = some { client with refCount := client.refCount + 1 } := by
      rw [heap_addRefs, deletes.found, Option.map_some, List.count_singleton_self]
    have stage : s₁.heap c = drop { client with refCount := client.refCount + 1 } := by
      rw [deletes.db, if_pos passive, heap_release, if_pos rfl]
      change ((addRefs [c] s).heap c).bind drop = _
      rw [referenced, Option.bind_some]
    obtain ⟨several, _⟩ := drop_eq_some (stage.symm.trans kept)
    have one : client.refCount = 1 := Nat.le_antisymm last (Nat.le_of_succ_le_succ several)
    refine ⟨one, ?_⟩
    rw [stage, one]
    rfl
  have deaf : client.multiplexListen = false := by
    by_contra other
    have svc := deletes.svc
    rw [if_pos (eq_true_of_ne_false other)] at svc
    obtain ⟨m, _, rfl⟩ := svc
    obtain ⟨n, kept⟩ := deletes.svcLeft
    rw [heap_unlistened, if_pos rfl, once.2] at kept
    cases kept
  have svc := deletes.svc
  rw [if_neg (Bool.eq_false_iff.mp deaf)] at svc
  have idle := deletes.thread
  rw [if_pos thread, svc] at idle
  have active : client.activeOpener = false := by
    by_contra other
    have forgot := deletes.active
    rw [if_pos (eq_true_of_ne_false other), idle] at forgot
    obtain ⟨n, kept⟩ := deletes.activeLeft
    have gone : s₄.heap c = none := by
      rw [forgot, heap_release, if_pos rfl]
      change (s₁.heap c).bind drop = none
      rw [once.2]
      rfl
    cases gone.symm.trans kept
  exact ⟨once.1, passive, active, deaf⟩

/-- A deletion by address does what it should exactly for a client of which the database holds the
only reference. -/
theorem deletesByKey_iff (member : c ∈ s.tcpClientDb) (found : s.heap c = some client) :
    DeletesByKey s c client ↔ OnlyInDb s c client := by
  constructor
  · rintro ⟨t, ran, removed, deleted⟩
    obtain ⟨first, last, thread, connector, rfl⟩ := keyDelete_destroys found ran removed.destroyed
    obtain ⟨other, s₁, s₂, s₃, s₄, deletes⟩ := processClientDelete_runs deleted
    obtain rfl := Option.some.inj (found.symm.trans deletes.found)
    obtain ⟨one, passive, active, deaf⟩ := deletes_only deletes last thread member removed.db
    refine ⟨?_, one, thread, connector, passive, active, deaf, removed.svc, removed.established,
      removed.pending⟩
    have searched := keyDelete_searches ran
    rwa [first] at searched
  · intro only
    exact ⟨unkeyed c s, processKeyDelete_only found only, removed_unkeyed found only,
      processClientDelete_only found only⟩

end

/-- The message of a new peer is being processed: the peer is in the database, and not served yet. -/
def justAdded : TcpServerController :=
  match (TcpClientDbManager.addClientToDB 0).exec
    (TcpServerController.stateAfter (fun _ _ => True) (.started 1 1) [.accept 8 8]) with
  | .ok (_, s) => s
  | .error _ => .started 1 1

/-- Only the database knows the client. -/
theorem deletesByKey_justAdded : ∃ client, justAdded.heap 0 = some client ∧
    DeletesByKey justAdded 0 client := by
  refine ⟨_, rfl, (deletesByKey_iff (by decide) rfl).mpr ?_⟩
  exact ⟨rfl, rfl, rfl, rfl, rfl, rfl, rfl, by decide, by decide, by decide⟩

/-- A peer with a thread of its own. -/
theorem threadedClient_survives : ¬ ∀ es s, Path TcpServerController.Step (.started 1 1) es s → ∀ c client,
    c ∈ s.tcpClientDb → s.heap c = some client → DeletesByKey s c client := by
  intro always
  have path : Path TcpServerController.Step (.started 1 1) [.setClientCreationMode true, .accept 8 8,
      .processFront none] _ :=
    TcpServerController.stateAfter_unguarded rfl
  obtain ⟨t, ran, removed, _⟩ := always _ _ path 0 _ (by decide) rfl
  obtain ⟨_, last, _⟩ := keyDelete_destroys rfl ran removed.destroyed
  exact absurd last (by decide)

end TcpServerLib.Soundness
