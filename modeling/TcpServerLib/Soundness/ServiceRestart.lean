import TcpServerLib.Refinement.Frame

/-! # Clients that are not listened to for a while

The new service thread looks at the flag before the flag is cleared, so that it takes up nobody.
Nothing is lost only where there was nobody to take up.
-/

namespace TcpServerLib.Soundness

open Machine Model Prog Refinement Server

/-- A client is back where a multiplexed client belongs. -/
structure Recovers (before after : TcpServerController) (c : ClientRef) (client : TcpClient) : Prop where
  listed : (svcList after).count c = 1
  selected : ∃ m ∈ after.tcpClientSvcMgr, m.backupFdSet.count c = 1
  flagged : client.multiplexListen = true
  counted : ∃ old ∈ before.heap c, client.refCount = old.refCount

/-- No connected client of the database is left without a receiver. -/
def Recovered (before after : TcpServerController) : Prop :=
  ∀ c ∈ after.tcpClientDb, ∀ client ∈ after.heap c, client.connected = true →
    client.clientThread = .null → Recovers before after c client

/-- `StopClientSvcMgr` returns, and however the events `es` go after it, so does `StartClientSvcMgr`, and all are
recovered. -/
def RestartRecovers (s : TcpServerController) (es : List Event) : Prop :=
  ∃ t, TcpServerController.Step s .stopClientSvcMgr t ∧ ∀ u, Path TcpServerController.Step t es u →
    u.deleted = false → ∃ v, TcpServerController.Step u .startClientSvcMgr v ∧ Recovered s v

/-- `Purge` is on the next element of the list already when it removes all occurrences of a client:
this element must not be one of them. -/
inductive IteratorSafe : List ClientRef → Prop
  | nil : IteratorSafe []
  | cons {c : ClientRef} {rest : List ClientRef} (other : rest.head? ≠ some c)
      (later : IteratorSafe (remove c rest)) :
      IteratorSafe (c :: rest)

/-- `Dereference` wants a client that is there, and no thread of it if it is to be destroyed. -/
def Releasable (s : TcpServerController) (c : ClientRef) : Prop :=
  ∃ client ∈ s.heap c, client.refCount ≤ 1 → client.clientThread = .null ∧
    client.activeConnectThread = .null

/-- What `Purge` gets through. -/
def Purgeable (s : TcpServerController) (list : List ClientRef) : Prop :=
  IteratorSafe list ∧ ∀ c ∈ list, Releasable s c

/-- Every connected client of the database has a thread of its own. -/
def AllThreaded (s : TcpServerController) : Prop :=
  ∀ c ∈ s.tcpClientDb, ∀ client ∈ s.heap c, client.connected = true → client.clientThread ≠ .null

instance (s : TcpServerController) : Decidable (AllThreaded s) :=
  inferInstanceAs (Decidable (∀ c ∈ _, ∀ client ∈ s.heap c, _ → _))

section

variable {s t u v : TcpServerController} {c d : ClientRef} {list : List ClientRef}
  {m : TcpClientServiceManager} {e : Event}

theorem framed_deaf (framed : Framed s t) (deaf : s.notListeningClients = true) : t.notListeningClients = true :=
  framed.notListeningClients.trans deaf

theorem stops_deaf (stops : Stops s t) (deaf : s.notListeningClients = true) : t.notListeningClients = true := by
  obtain @⟨s₁, s₂, s₃, s₄, svc, db, _, pending, established⟩ := stops
  have served : s₁.notListeningClients = true := by
    split_ifs at svc
    · cases svc
      rfl
    · rw [svc]
      exact deaf
  have purged := framed_deaf (framed_drains db framed_dbPurges) served
  have unconnected := framed_deaf (framed_drains pending framed_pendingStops) purged
  have disconnected := framed_deaf (framed_drains established framed_establishedStops) unconnected
  exact disconnected

/-- Only `StartClientSvcMgr` has clients listened to again. -/
theorem effect_deaf (effect : Effect s e t) (other : e ≠ .startClientSvcMgr)
    (deaf : s.notListeningClients = true) :
    t.notListeningClients = true := by
  cases effect with
  | acted performs acted =>
    have popped : (dequeued s e).notListeningClients = true := by
      cases e <;> exact deaf
    exact framed_deaf (framed_acted acted) popped
  | created creates => exact framed_deaf (framed_creates creates) deaf
  | svcHeard _ _ _ _ _ heard =>
    cases heard
    exact deaf
  | threadHeard _ _ _ heard =>
    cases heard
    exact deaf
  | svcStopped _ ends =>
    cases ends
    rfl
  | svcStarted => exact absurd rfl other
  | stopped notAccepting acceptor stops =>
    exact stops_deaf (s := toggled notAccepting acceptor s.createMultiThreaded s) stops deaf
  | _ => exact deaf

theorem path_deaf {es : List Event} (path : Path TcpServerController.Step s es t) (sound : Sound s)
    (deaf : s.notListeningClients = true) (unstarted : .startClientSvcMgr ∉ es) :
    t.notListeningClients = true := by
  induction path with
  | nil => exact deaf
  | cons step _ ih =>
    have effect := step_effect sound.requests step
    have other := List.ne_of_not_mem_cons unstarted
    exact ih (effect_sound sound effect) (effect_deaf effect other.symm deaf)
      (List.not_mem_of_not_mem_cons unstarted)

theorem run_sound {ipAddr : UInt32} {portNo : UInt16} {es : List Event}
    (run : Path TcpServerController.Step (.started ipAddr portNo) es s) : Sound s :=
  run.invariant (fun step sound => effect_sound sound (step_effect sound.requests step))
    (started_sound ipAddr portNo)

/-- The new list is empty. -/
theorem restart_list (deaf : u.notListeningClients = true)
    (restarted : TcpServerController.Step u .startClientSvcMgr v) :
    svcList v = [] ∧ v.tcpClientDb = u.tcpClientDb ∧ v.heap = u.heap := by
  rw [startClientSvcMgr_runs restarted.2, if_pos deaf]
  exact ⟨rfl, rfl, rfl⟩

/-- The new thread has nothing to copy that could be missing. -/
theorem startClientSvcMgr_returns (deaf : u.notListeningClients = true) (running : u.deleted = false) :
    ∃ v, TcpServerController.Step u .startClientSvcMgr v := by
  cases u
  subst deaf
  exact ⟨_, running, rfl⟩

theorem mem_remove : d ∈ remove c list ↔ d ∈ list ∧ d ≠ c := by
  rw [remove, List.mem_filter, decide_eq_true_eq]

/-- What `Purge` does for one client is nothing to another one. -/
theorem releasable_svcPurged (other : d ≠ c) : Releasable (svcPurged c s) d ↔ Releasable s d := by
  have same : (svcPurged c s).heap d = s.heap d := by
    rw [svcPurged, heap_release, if_neg other, heap_mapClient, if_neg other, heap_mapSvcMgr]
  rw [Releasable, Releasable, same]

theorem purgeable_svcPurged (safe : IteratorSafe (remove c list)) :
    Purgeable (svcPurged c s) (remove c list) ↔ ∀ d ∈ remove c list, Releasable s d := by
  rw [Purgeable, and_iff_right safe]
  exact forall₂_congr fun d member => releasable_svcPurged (mem_remove.mp member).2

/-- By induction on the loop: an iteration takes out one client and leaves the others as they were. -/
theorem purgeFrom_returns_iff {fuel : ℕ} (enough : list.length ≤ fuel) :
    (∃ t, (TcpClientServiceManager.purgeFrom fuel list).Runs s () t) ↔ Purgeable s list := by
  induction fuel generalizing s list with
  | zero =>
    obtain rfl := List.length_eq_zero_iff.mp (Nat.le_zero.mp enough)
    exact iff_of_true ⟨s, runs_pure.mpr ⟨rfl, rfl⟩⟩ ⟨.nil, nofun⟩
  | succ fuel ih =>
    cases list with
    | nil => exact iff_of_true ⟨s, runs_pure.mpr ⟨rfl, rfl⟩⟩ ⟨.nil, nofun⟩
    | cons c rest =>
      have shorter : (remove c rest).length ≤ fuel :=
        Nat.le_trans (length_remove_le rest) (Nat.le_of_succ_le_succ enough)
      simp only [TcpClientServiceManager.purgeFrom, runs_bind, runs_update, runs_modifyClient]
      constructor
      · rintro ⟨t, _, _, rfl, _, _, ⟨⟨client, found⟩, rfl⟩, _, _, released, ran⟩
        obtain ⟨left, found', rfl, _, idle⟩ := dereference_runs released
        rw [runs_ite] at ran
        split_ifs at ran with twice
        · exact absurd ran runs_fail
        · obtain ⟨safe, others⟩ := (ih (s := svcPurged c s) shorter).mp ⟨t, ran⟩
          refine ⟨.cons twice safe, fun d member => ?_⟩
          by_cases same : d = c
          · subst same
            rw [heap_mapClient, if_pos rfl, found] at found'
            cases found'
            exact ⟨client, found, idle⟩
          · have later : d ∈ remove c rest :=
              mem_remove.mpr ⟨(List.mem_cons.mp member).resolve_left same, same⟩
            exact (releasable_svcPurged same).mp (others d later)
      · rintro ⟨safe, releasable⟩
        cases safe with
        | cons twice later =>
          obtain ⟨client, found, idle⟩ := releasable c List.mem_cons_self
          have flagged : ((s.mapSvcMgr fun m => { m with tcpClientDb := remove c m.tcpClientDb }).mapClient c
              notListening).heap c = some (notListening client) := by
            rw [heap_mapClient, if_pos rfl, heap_mapSvcMgr, found, Option.map_some]
          obtain ⟨left, released⟩ := dereference_returns flagged idle
          have rest' : Purgeable (svcPurged c s) (remove c rest) :=
            (purgeable_svcPurged later).mpr fun d member =>
            releasable d (List.mem_cons_of_mem _ (mem_remove.mp member).1)
          obtain ⟨t, ran⟩ := (ih shorter).mpr rest'
          refine ⟨t, (), _, rfl, (), _, ⟨⟨client, found⟩, rfl⟩, left, _, released, ?_⟩
          rw [runs_ite, if_neg twice]
          exact ran

/-- `Purge` empties the list it goes through. -/
theorem svcPurges_empty {rest : List ClientRef} (purges : Drains SvcPurges remove rest s t)
    (present : s.tcpClientSvcMgr = some m) (all : m.tcpClientDb = rest) :
    ∃ left, t.tcpClientSvcMgr = some left ∧ left.tcpClientDb = [] := by
  refine purges.invariant (motive := fun list s => ∃ m, s.tcpClientSvcMgr = some m ∧ m.tcpClientDb = list) ?_
    ⟨m, present, all⟩
  rintro c list s _ ⟨_, rfl⟩ ⟨m, present, all⟩
  refine ⟨{ m with tcpClientDb := remove c m.tcpClientDb }, ?_, ?_⟩
  · exact congrArg (Option.map fun m : TcpClientServiceManager =>
      { m with tcpClientDb := remove c m.tcpClientDb }) present
  · rw [all]
    simp [remove]

theorem stopTcpClientServiceManagerThread_returns (present : s.tcpClientSvcMgr = some m) :
    TcpClientServiceManager.stopTcpClientServiceManagerThread.Runs s ()
      { s with tcpClientSvcMgr := some { m with thread := false } } := by
  simp only [TcpClientServiceManager.stopTcpClientServiceManagerThread, runs_bind, runs_derefSvcMgr,
    runs_when, runs_perform, runs_update]
  refine ⟨m, s, ⟨present, rfl⟩, ?_⟩
  cases thread : m.thread with
  | true =>
    rw [if_pos rfl]
    refine ⟨(), s, rfl, ?_⟩
    rw [TcpServerController.mapSvcMgr, present]
    rfl
  | false =>
    rw [if_neg Bool.false_ne_true, ← thread]
    exact congrArg (fun svcMgr => { s with tcpClientSvcMgr := svcMgr }) present

/-- `StopClientSvcMgr` returns exactly if `Purge` does. -/
theorem stopClientSvcMgr_returns_iff (running : s.deleted = false) (present : s.tcpClientSvcMgr = some m)
    (listening : s.notListeningClients = false) :
    (∃ t, TcpServerController.Step s .stopClientSvcMgr t) ↔ Purgeable s m.tcpClientDb := by
  have listens : ¬ s.notListeningClients = true := Bool.eq_false_iff.mp listening
  have purged := purgeFrom_returns_iff (s := { s with tcpClientSvcMgr := some { m with thread := false } })
    (Nat.le_refl m.tcpClientDb.length)
  change _ ↔ Purgeable s m.tcpClientDb at purged
  rw [← purged]
  constructor
  · rintro ⟨t, _, ran⟩
    change TcpServerController.stopClientSvcMgr.Runs s () t at ran
    simp only [TcpServerController.stopClientSvcMgr, TcpClientServiceManager.stop,
      TcpClientServiceManager.purge, runs_bind, runs_read, runs_when, runs_derefSvcMgr,
      runs_assertThat] at ran
    obtain ⟨_, _, ⟨rfl, rfl⟩, ran⟩ := ran
    rw [if_pos listens] at ran
    obtain ⟨_, _, ⟨_, _, stopping, _, middle, ⟨m', _, ⟨present', rfl⟩, _, _, ⟨_, rfl⟩, purging⟩, _⟩,
      _⟩ := ran
    obtain ⟨m₀, present₀, rfl⟩ := stopTcpClientServiceManagerThread_runs stopping
    obtain rfl := Option.some.inj (present.symm.trans present₀)
    obtain rfl := Option.some.inj present'
    exact ⟨middle, purging⟩
  · rintro ⟨t, purging⟩
    obtain ⟨left, kept, empty⟩ := svcPurges_empty (svcPurgeFrom_runs (Nat.le_refl _) purging) rfl rfl
    refine ⟨{ t with notListeningClients := true, tcpClientSvcMgr := none }, running, ?_⟩
    change TcpServerController.stopClientSvcMgr.Runs s () _
    simp only [TcpServerController.stopClientSvcMgr, TcpClientServiceManager.stop,
      TcpClientServiceManager.purge, runs_bind,
      runs_read, runs_when, runs_derefSvcMgr, runs_assertThat, runs_update]
    refine ⟨s, s, ⟨rfl, rfl⟩, ?_⟩
    rw [if_pos listens]
    exact ⟨(), t, ⟨(), _, stopTcpClientServiceManagerThread_returns present, (), t,
      ⟨_, _, ⟨rfl, rfl⟩, (), _, ⟨rfl, rfl⟩,
      purging⟩, left, t, ⟨kept, rfl⟩, empty, rfl⟩, (), _, rfl, rfl⟩

/-- Nobody is listened to until `StartClientSvcMgr` is called. -/
theorem deaf_between {es : List Event} (sound : Sound s) (listening : s.notListeningClients = false)
    (disabled : TcpServerController.Step s .stopClientSvcMgr t) (between : Path TcpServerController.Step t es u)
    (unstarted : .startClientSvcMgr ∉ es) : u.notListeningClients = true := by
  have deaf : t.notListeningClients = true := by
    have ended := stopClientSvcMgr_runs disabled.2
    rw [if_neg (Bool.eq_false_iff.mp listening)] at ended
    cases ended
    rfl
  exact path_deaf between (effect_sound sound (step_effect sound.requests disabled)) deaf unstarted

/-- Those without a thread are lost. -/
theorem recovered_iff (deaf : u.notListeningClients = true)
    (enabled : TcpServerController.Step u .startClientSvcMgr v) :
    Recovered s v ↔ AllThreaded u := by
  obtain ⟨empty, db, heap⟩ := restart_list deaf enabled
  constructor
  · intro recovered c member client found connected idle
    rw [← db] at member
    rw [← heap] at found
    have listed := (recovered c member client found connected idle).listed
    rw [empty] at listed
    cases listed
  · intro threaded c member client found connected idle
    rw [db] at member
    rw [heap] at found
    exact absurd idle (threaded c member client found connected)

/-- Disabling and enabling the listening to clients recovers all of them if and only if the list can
be purged and, whenever the listening is enabled again, all connected clients have threads of their
own. -/
theorem svcRestart_recovers {ipAddr : UInt32} {portNo : UInt16} {es es' : List Event}
    (run : Path TcpServerController.Step (.started ipAddr portNo) es s) (running : s.deleted = false)
    (present : s.tcpClientSvcMgr = some m) (unstarted : .startClientSvcMgr ∉ es') :
    RestartRecovers s es' ↔ Purgeable s m.tcpClientDb ∧
      ∀ t u, TcpServerController.Step s .stopClientSvcMgr t → Path TcpServerController.Step t es' u →
      u.deleted = false →
        AllThreaded u := by
  have sound := run_sound run
  have listening : s.notListeningClients = false := by
    apply Bool.eq_false_iff.mpr
    intro deaf
    cases present.symm.trans (sound.svcMgr deaf)
  have restarts {t u v : TcpServerController} (disabled : TcpServerController.Step s .stopClientSvcMgr t)
      (between : Path TcpServerController.Step t es' u)
      (enabled : TcpServerController.Step u .startClientSvcMgr v) :
      Recovered s v ↔ AllThreaded u :=
    recovered_iff (deaf_between sound listening disabled between unstarted) enabled
  rw [← stopClientSvcMgr_returns_iff running present listening]
  constructor
  · rintro ⟨t, disabled, recovers⟩
    refine ⟨⟨t, disabled⟩, fun t' u disabled' between alive => ?_⟩
    cases disabled.2.symm.trans disabled'.2
    obtain ⟨v, enabled, recovered⟩ := recovers u between alive
    exact (restarts disabled between enabled).mp recovered
  · rintro ⟨⟨t, disabled⟩, threaded⟩
    refine ⟨t, disabled, fun u between alive => ?_⟩
    obtain ⟨v, enabled⟩ :=
      startClientSvcMgr_returns (deaf_between sound listening disabled between unstarted) alive
    exact ⟨v, enabled, (restarts disabled between enabled).mpr (threaded t u disabled between alive)⟩

end

/-- The state after events under no condition. -/
def after (s : TcpServerController) (es : List Event) : TcpServerController :=
  TcpServerController.stateAfter (fun _ _ => True) s es

def threadedServer : TcpServerController :=
  after (.started 1 1) [.setClientCreationMode true, .accept 9 9, .processFront none]

/-- An actively opened client is multiplexed, and the threaded peer is listed behind it. -/
def listeningServer : TcpServerController :=
  after threadedServer [.setClientCreationMode false, .createActiveClient 7 7 (some 5)]

/-- The threaded peer stays, and another one is accepted meanwhile. -/
theorem svcRestart_recovers_threaded : RestartRecovers listeningServer [.accept 8 8] := by
  have run : Path TcpServerController.Step (.started 1 1) [.setClientCreationMode true, .accept 9 9,
      .processFront none,
      .setClientCreationMode false, .createActiveClient 7 7 (some 5)] listeningServer :=
    TcpServerController.stateAfter_unguarded rfl
  have present : listeningServer.tcpClientSvcMgr = some (serving [1, 0]) := rfl
  have safe : IteratorSafe [1, 0] := .cons (by decide) (.cons (by decide) .nil)
  have releasable : ∀ c ∈ [1, 0], Releasable listeningServer c := by
    intro c member
    rcases List.mem_pair.mp member with rfl | rfl
    · exact ⟨_, rfl, by decide⟩
    · exact ⟨_, rfl, by decide⟩
  refine (svcRestart_recovers run rfl present (by decide)).mpr ⟨⟨safe, releasable⟩, ?_⟩
  intro t u disabled between _
  have stopped : TcpServerController.stopClientSvcMgr.exec listeningServer =
      .ok ((), after listeningServer [.stopClientSvcMgr]) := rfl
  cases stopped.symm.trans disabled.2
  cases between with
  | cons accepts rest =>
    cases rest
    have admitted : (TcpServerController.acceptClient 8 8).exec (after listeningServer [.stopClientSvcMgr]) =
        .ok ((), after listeningServer [.stopClientSvcMgr, .accept 8 8]) := rfl
    cases admitted.symm.trans accepts.2
    decide

/-- A multiplexed peer that was accepted after a threaded one. -/
def mixedServer : TcpServerController :=
  after threadedServer [.setClientCreationMode false, .accept 8 8, .processFront none]

/-- A multiplexed peer is lost. -/
theorem multiplexedPeer_lost :
    ¬ ∀ es s, Path TcpServerController.Step (.started 1 1) es s → s.deleted = false →
    s.tcpClientSvcMgr.isSome = true →
      RestartRecovers s [] := by
  intro always
  have run : Path TcpServerController.Step (.started 1 1) [.setClientCreationMode true, .accept 9 9,
      .processFront none,
      .setClientCreationMode false, .accept 8 8, .processFront none] mixedServer :=
      TcpServerController.stateAfter_unguarded rfl
  have stopped : TcpServerController.stopClientSvcMgr.exec mixedServer =
      .ok ((), after mixedServer [.stopClientSvcMgr]) := rfl
  have started : TcpServerController.startClientSvcMgr.exec (after mixedServer [.stopClientSvcMgr]) =
      .ok ((), after mixedServer [.stopClientSvcMgr, .startClientSvcMgr]) := rfl
  obtain ⟨t, disabled, recovers⟩ := always _ mixedServer run rfl rfl
  cases stopped.symm.trans disabled.2
  obtain ⟨v, enabled, recovered⟩ := recovers _ (.nil _) rfl
  cases started.symm.trans enabled.2
  have recovers := recovered 1 (by decide) _ rfl rfl rfl
  exact absurd recovers.listed (by decide)

end TcpServerLib.Soundness
