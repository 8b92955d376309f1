import TcpServerLib.Refinement.Frame

/-! # The messages in flight

A message carries the pointer of a client and no reference to it. It stays good as long as nothing
destroys a client that another message still names.
-/

namespace TcpServerLib.Soundness

open Machine Model Refinement Server

/-- Every message of the queue names a client that has not been destroyed. -/
def MessagesLive (s : TcpServerController) : Prop :=
  ∀ msg ∈ s.msgQ, ∃ client, s.heap msg.data = some client

/-- The references that `ProcessClientDelete` takes away from a client. -/
def givenUp (client : TcpClient) : ℕ :=
  (if client.passiveOpener then 1 else 0) + (if client.multiplexListen then 1 else 0) +
    (if client.clientThread = .null then 0 else 1) + (if client.activeOpener then 1 else 0)

/-- The act takes the last reference of the client. -/
def Frees (client : TcpClient) : Act → Prop
  | .delete => client.refCount ≤ givenUp client
  | .reconnect _ => client.refCount ≤ givenUp client
  | .deleteKey => client.refCount ≤ 1
  | _ => False

def Destroys (s : TcpServerController) (d : ClientRef) (client : TcpClient) (e : Event) : Prop :=
  (match performed s e with
    | some (act, c) => d = c ∧ Frees client act
    | none => False) ∨
  match e with
  | .connectRetryExit c => d = c ∧ client.refCount ≤ 1
  | .stopClientSvcMgr => d ∈ svcList s ∧ client.refCount ≤ 1
  | _ => False

/-- The step destroys no client that a message still names, the message that it processes apart. -/
def DestroysUnnamed (s : TcpServerController) (e : Event) : Prop :=
  ∀ msg ∈ (dequeued s e).msgQ, ∀ client ∈ s.heap msg.data, ¬ Destroys s msg.data client e

instance (client : TcpClient) (act : Act) : Decidable (Frees client act) := by
  apply @Act.casesOn (fun act => Decidable (Frees client act)) act <;> intros <;> unfold Frees <;> infer_instance

instance (s : TcpServerController) (d : ClientRef) (client : TcpClient) (e : Event) :
    Decidable (Destroys s d client e) := by
  unfold Destroys
  cases performed s e <;>
    apply @Event.casesOn (fun e => Decidable (_ ∨ match e with
      | .connectRetryExit c => d = c ∧ client.refCount ≤ 1
      | .stopClientSvcMgr => d ∈ svcList s ∧ client.refCount ≤ 1
      | _ => False)) e <;> intros <;> infer_instance

instance (s : TcpServerController) (e : Event) : Decidable (DestroysUnnamed s e) :=
  inferInstanceAs (Decidable (∀ msg ∈ (dequeued s e).msgQ, ∀ client ∈ s.heap msg.data, _))

def Alive (s : TcpServerController) (d : ClientRef) : Prop :=
  ∃ client, s.heap d = some client

section

variable {s t : TcpServerController} {c d : ClientRef} {client : TcpClient} {m : TcpClientServiceManager}

theorem alive_mapClient (alive : Alive s d) (f : TcpClient → TcpClient) : Alive (s.mapClient c f) d := by
  obtain ⟨client, found⟩ := alive
  rw [Alive, heap_mapClient]
  split_ifs with same
  · exact ⟨f client, by rw [← same, found, Option.map_some]⟩
  · exact ⟨client, found⟩

theorem alive_addRefs (alive : Alive s d) (list : List ClientRef) : Alive (addRefs list s) d := by
  obtain ⟨client, found⟩ := alive
  rw [Alive, heap_addRefs, found]
  exact ⟨_, rfl⟩

theorem alive_release (alive : Alive s d) (several : d = c → ∀ client, s.heap c = some client →
      2 ≤ client.refCount) :
    Alive (release c s) d := by
  obtain ⟨client, found⟩ := alive
  rw [Alive, heap_release]
  split_ifs with same
  · subst same
    rw [found, Option.bind_some, drop, if_neg (Nat.not_le.mpr (several rfl client found))]
    exact ⟨_, rfl⟩
  · exact ⟨client, found⟩

theorem alive_listened (alive : Alive s d) : Alive (listened c m s) d := by
  have kept := alive_addRefs (alive_mapClient (c := c) alive listening) (c :: copied s)
  exact kept

theorem alive_unlistened (alive : Alive s d) (several : d = c → ∀ client, s.heap c = some client →
      2 ≤ client.refCount) :
    Alive (unlistened c m s) d := by
  have released : Alive (release c (s.mapClient c notListening)) d := by
    apply alive_release (alive_mapClient alive notListening)
    rintro same client found
    rw [heap_mapClient, if_pos rfl] at found
    obtain ⟨before, found', rfl⟩ := Option.map_eq_some_iff.mp found
    exact several same before found'
  exact alive_addRefs released (copied s)

theorem alive_threadStopped (alive : Alive s d)
    (several : d = c → ∀ client, s.heap c = some client → 2 ≤ client.refCount) :
    Alive (release c (s.mapClient c threadStopped)) d := by
  apply alive_release (alive_mapClient alive threadStopped)
  rintro same client found
  rw [heap_mapClient, if_pos rfl] at found
  obtain ⟨before, found', rfl⟩ := Option.map_eq_some_iff.mp found
  exact several same before found'

theorem alive_served (alive : Alive s d) (served : Served c s t) : Alive t d := by
  rcases served with ⟨_, _, _, _, rfl⟩ | ⟨_, _, _, _, _, rfl⟩
  · exact alive_mapClient alive threadStarted
  · exact alive_listened alive

theorem alive_creates {serverIpAddr : UInt32} {serverPortNo : UInt16} {connect : ConnectResult}
    (alive : Alive s d) (creates : Creates serverIpAddr serverPortNo s connect t) : Alive t d := by
  have created : Alive (created (newActive serverIpAddr serverPortNo s) s) d := by
    rw [Alive, heap_created]
    split_ifs
    · exact ⟨_, rfl⟩
    · exact alive
  cases creates with
  | retrying => exact alive_mapClient created retryStarted
  | connected served =>
    apply alive_served _ served
    exact alive_mapClient created (connectedOn _)

/-- A count that `several` needs, at the client it is known for. -/
theorem several_of_found {n : ℕ} (found : s.heap c = some client) (several : n ≤ client.refCount) (_ : d = c)
    (other : TcpClient) (found' : s.heap c = some other) : n ≤ other.refCount := by
  obtain rfl := Option.some.inj (found.symm.trans found')
  exact several

/-- What a release leaves of a count that is not the last. -/
theorem refCount_release {left : TcpClient} (found : s.heap c = some client)
    (kept : (release c s).heap c = some left) : left.refCount + 1 = client.refCount := by
  rw [heap_release, if_pos rfl, found, Option.bind_some] at kept
  obtain ⟨several, rfl⟩ := drop_eq_some kept
  dsimp only
  omega

theorem alive_deletes_other {s₁ s₂ s₃ s₄ : TcpServerController}
    (deletes : Deletes c client s s₁ s₂ s₃ s₄ t)
    (other : d ≠ c) (alive : Alive s d) : Alive t d := by
  have released {s : TcpServerController} (kept : Alive s d) : Alive (release c s) d :=
    alive_release kept fun same => absurd same other
  exact deletes.preserves (P := fun t => Alive t d) (alive_addRefs alive [c]) released
    (fun _ _ kept => alive_unlistened kept fun same => absurd same other)
    (fun kept => released (alive_mapClient kept threadStopped)) id released

/-- A deletion destroys the client only if it takes its last reference. -/
theorem alive_deletes_self {s₁ s₂ s₃ s₄ : TcpServerController}
    (deletes : Deletes c client s s₁ s₂ s₃ s₄ t) :
    Alive t c ∨ client.refCount ≤ givenUp client := by
  obtain ⟨n₁, left₁⟩ := deletes.dbLeft
  obtain ⟨n₂, left₂⟩ := deletes.svcLeft
  obtain ⟨n₃, left₃⟩ := deletes.threadLeft
  obtain ⟨n₄, left₄⟩ := deletes.activeLeft
  have referenced : (addRefs [c] s).heap c = some { client with refCount := client.refCount + 1 } := by
    rw [heap_addRefs, deletes.found, Option.map_some, List.count_singleton_self]
  have db : n₁ + (if client.passiveOpener then 1 else 0) = client.refCount + 1 := by
    have db := deletes.db
    split_ifs at db ⊢
    · rw [db] at left₁
      exact refCount_release (s := { addRefs [c] s with tcpClientDb := remove c s.tcpClientDb })
        referenced left₁
    · rw [db, referenced] at left₁
      exact (congrArg TcpClient.refCount (Option.some.inj left₁)).symm
  have svc : n₁ ≤ n₂ + (if client.multiplexListen then 1 else 0) := by
    have svc := deletes.svc
    split_ifs at svc ⊢
    · obtain ⟨m, _, rfl⟩ := svc
      rcases Nat.lt_or_ge n₁ 2 with last | several
      · rw [heap_unlistened, if_pos rfl, left₁, Option.map_some, Option.bind_some, drop_notListening, drop,
          if_pos (Nat.le_of_lt_succ last)] at left₂
        exact absurd left₂ (by simp)
      · rw [heap_unlistened_self left₁ several] at left₂
        have counted := congrArg TcpClient.refCount (Option.some.inj left₂)
        dsimp only at counted
        omega
    · rw [svc, left₁] at left₂
      exact Nat.le_of_eq (congrArg TcpClient.refCount (Option.some.inj left₂))
  have thread : n₂ = n₃ + (if client.clientThread = .null then 0 else 1) := by
    have thread := deletes.thread
    split_ifs at thread ⊢
    · rw [thread, left₂] at left₃
      exact congrArg TcpClient.refCount (Option.some.inj left₃)
    · rw [thread] at left₃
      have stopped : (s₂.mapClient c threadStopped).heap c =
          some (threadStopped { client with refCount := n₂, multiplexListen := false }) := by
        rw [heap_mapClient, if_pos rfl, left₂, Option.map_some]
      exact (refCount_release stopped left₃).symm
  have active : n₃ = n₄ + (if client.activeOpener then 1 else 0) := by
    have active := deletes.active
    split_ifs at active ⊢
    · rw [active] at left₄
      exact (refCount_release (s := forgotten c client.connected s₃) left₃ left₄).symm
    · rw [active, left₃] at left₄
      exact congrArg TcpClient.refCount (Option.some.inj left₄)
  rcases Nat.lt_or_ge n₄ 2 with last | several
  · right
    rw [givenUp]
    omega
  · left
    rw [deletes.last]
    exact alive_release ⟨_, left₄⟩ (several_of_found left₄ several)

/-- An act destroys no client but the one it is about. -/
theorem alive_acted {act : Act} (acted : Acted c s act t) (alive : Alive s d) :
    Alive t d ∨ (d = c ∧ ∃ client, s.heap c = some client ∧ Frees client act) := by
  have deletes {client : TcpClient} {s₁ s₂ s₃ s₄ t : TcpServerController}
      (deletes : Deletes c client s s₁ s₂ s₃ s₄ t) : Alive t d ∨
      (d = c ∧ client.refCount ≤ givenUp client) := by
    rcases eq_or_ne d c with same | other
    · subst same
      exact (alive_deletes_self deletes).imp_right fun last => ⟨rfl, last⟩
    · exact .inl (alive_deletes_other deletes other alive)
  cases acted with
  | nothing => exact .inl alive
  | processNewThreaded => exact .inl (alive_mapClient (alive_addRefs alive [c]) threadStarted)
  | processNewMultiplexed =>
    have added : Alive (added c s) d := alive_addRefs alive [c]
    exact .inl (alive_listened added)
  | deleted deleted => exact (deletes deleted).imp_right fun last => ⟨last.1, _, deleted.found, last.2⟩
  | reconnected deleted creates =>
    rcases deletes deleted with kept | last
    · exact .inl (alive_creates kept creates)
    · exact .inr ⟨last.1, _, deleted.found, last.2⟩
  | unlistenedThreaded found _ _ _ several =>
    exact .inl (alive_mapClient (alive_unlistened alive (several_of_found found several)) threadStarted)
  | threaded => exact .inl (alive_mapClient alive threadStarted)
  | stoppedMultiplexed found _ _ _ several =>
    exact .inl (alive_listened (alive_threadStopped alive (several_of_found found several)))
  | multiplexed => exact .inl (alive_listened alive)
  | connectSucceeded _ _ _ _ served =>
    have moved : Alive (movedToEstablished c s) d := alive
    exact .inl (alive_served moved served)
  | keyDestroyed found last =>
    rcases eq_or_ne d c with same | other
    · exact .inr ⟨same, _, found, last⟩
    · exact .inl (alive_release (s := { s with tcpClientDb := remove c s.tcpClientDb }) alive fun same =>
        absurd same other)
  | keyDeleted found several =>
    exact .inl (alive_release (s := { s with tcpClientDb := remove c s.tcpClientDb }) alive
      (several_of_found found several))
  | keyUnlistened found several =>
    have unkeyed : Alive (unkeyed c s) d :=
      alive_release (s := { s with tcpClientDb := remove c s.tcpClientDb }) alive
        (several_of_found found (Nat.le_of_succ_le several))
    refine .inl (alive_unlistened unkeyed fun _ left kept => ?_)
    have counted := refCount_release (s := { s with tcpClientDb := remove c s.tcpClientDb }) found kept
    omega
  | migratedToMultiThreaded found _ several =>
    exact .inl (alive_mapClient (alive_unlistened alive (several_of_found found several)) threadStarted)
  | migratedToMultiplex found _ several =>
    exact .inl (alive_listened (alive_threadStopped alive (several_of_found found several)))
  | startedListening => exact .inl (alive_listened alive)
  | stoppedListening found several => exact .inl (alive_unlistened alive (several_of_found found several))

/-- The service manager lets go of each of its clients once. -/
theorem alive_svcEnds (ends : SvcEnds s t) (found : s.heap d = some client)
    (spared : d ∈ svcList s → 2 ≤ client.refCount) : Alive t d := by
  obtain @⟨m, left, middle, present, purges, kept, empty⟩ := ends
  rw [svcList_some present] at spared
  have purged : (∀ c ∈ ([] : List ClientRef), c ∈ m.tcpClientDb) ∧
      (d ∈ ([] : List ClientRef) → ∃ left, middle.heap d = some left ∧
        left.refCount = client.refCount) ∧
      Alive middle d := by
    refine purges.invariant (motive := fun rest s' => (∀ c ∈ rest, c ∈ m.tcpClientDb) ∧
      (d ∈ rest → ∃ left, s'.heap d = some left ∧ left.refCount = client.refCount) ∧ Alive s' d) ?_
      ⟨fun _ => id, fun _ => ⟨client, found, rfl⟩, ⟨client, found⟩⟩
    rintro c rest s' t' ⟨_, rfl⟩ ⟨listed, same, alive⟩
    refine ⟨fun e member => listed e (List.mem_cons_of_mem _ (List.mem_filter.mp member).1),
      fun later => ?_, ?_⟩
    · obtain ⟨member, other⟩ := List.mem_filter.mp later
      have other := of_decide_eq_true other
      obtain ⟨left, found', counted⟩ := same (List.mem_cons_of_mem _ member)
      refine ⟨left, ?_, counted⟩
      rw [svcPurged, heap_release, if_neg other, heap_mapClient, if_neg other]
      exact found'
    · refine alive_release (alive_mapClient (s := s'.mapSvcMgr _) alive notListening) fun here
        before found' => ?_
      subst here
      obtain ⟨left, found, counted⟩ := same List.mem_cons_self
      rw [heap_mapClient, if_pos rfl, heap_mapSvcMgr, found, Option.map_some] at found'
      cases found'
      have several := spared (listed d List.mem_cons_self)
      rw [← counted] at several
      exact several
  exact purged.2.2

/-- No step destroys a client but as `Destroys` says. -/
theorem alive_effect {e : Event} (effect : Effect s e t) (found : s.heap d = some client)
    (spared : ¬ Destroys s d client e) (running : e ≠ .stop) : Alive t d := by
  have alive : Alive s d := ⟨client, found⟩
  have heard {c : ClientRef} {s t : TcpServerController} (alive : Alive s d) (heard : Heard c s t) :
      Alive t d := by
    obtain ⟨msgd, bytesRecvd, _⟩ := heard
    exact alive_mapClient alive (received msgd bytesRecvd)
  cases effect with
  | @acted _ act c _ performs acted =>
    have popped : (dequeued s e).heap = s.heap := by
      cases e <;> rfl
    have alive' : Alive (dequeued s e) d := by
      rw [Alive, popped]
      exact alive
    rcases alive_acted acted alive' with kept | ⟨rfl, other, found', frees⟩
    · exact kept
    · rw [popped] at found'
      obtain rfl := Option.some.inj (found.symm.trans found')
      exact absurd (Or.inl (by rw [performs]; exact ⟨rfl, frees⟩)) spared
  | unchanged => exact alive
  | toggled => exact alive
  | accepted ipAddr portNo =>
    rw [Alive, heap_accepted]
    split_ifs
    · exact ⟨_, rfl⟩
    · exact alive
  | created creates => exact alive_creates alive creates
  | @retryPosted c _ _ _ portNo =>
    have posted := alive_mapClient (c := c) (alive_mapClient (c := c) alive (connectedOn portNo)) connectPosted
    exact posted
  | @retryExited c other found' =>
    apply alive_release (alive_mapClient alive connectorStopped)
    rintro rfl left kept
    obtain rfl := Option.some.inj (found.symm.trans found')
    rw [heap_mapClient, if_pos rfl, found, Option.map_some] at kept
    cases kept
    rcases Nat.lt_or_ge client.refCount 2 with last | several
    · exact absurd (Or.inr ⟨rfl, Nat.le_of_lt_succ last⟩) spared
    · exact several
  | requested => exact alive
  | selected => exact alive
  | skipped => exact alive
  | @svcHeard m _ rest _ _ _ _ _ _ _ hears =>
    have scanned : Alive { s with tcpClientSvcMgr := some (scanning rest m) } d := alive
    exact heard scanned hears
  | svcEnded => exact alive
  | threadHeard _ _ _ hears => exact heard alive hears
  | @threadEnded c => exact alive_mapClient (c := c) alive waiting
  | svcStopped _ ends =>
    apply alive_svcEnds ends found
    intro listed
    rcases Nat.lt_or_ge client.refCount 2 with last | several
    · exact absurd (Or.inr ⟨listed, Nat.le_of_lt_succ last⟩) spared
    · exact several
  | svcStarted => exact alive
  | stopped => exact absurd rfl running

theorem messagesLive_effect {e : Event} (unnamed : DestroysUnnamed s e) (effect : Effect s e t)
    (live : MessagesLive s) : MessagesLive t := by
  rintro msg queued
  rcases effect_messages effect queued with before | ⟨_, named⟩
  · rcases eq_or_ne e .stop with rfl | running
    · cases effect with
      | acted performs => cases performs
      | unchanged => exact live msg queued
      | toggled => exact live msg queued
      | stopped _ _ stops =>
        cases stops
        exact absurd queued List.not_mem_nil
    · obtain ⟨client, found⟩ := live msg (by
        cases e with
        | processFront => exact List.mem_of_mem_tail before
        | _ => exact before)
      exact alive_effect effect found (unnamed msg before client found) running
  · exact named

/-- As long as no step destroys a client that another message names, every message in flight names
a client that is there. -/
theorem messagesLive {ipAddr : UInt32} {portNo : UInt16} {es : List Event}
    (path : Path (Guarded TcpServerController.Step DestroysUnnamed) (.started ipAddr portNo) es t) :
    MessagesLive t := by
  have initially : MessagesLive (.started ipAddr portNo) := fun _ queued => absurd queued List.not_mem_nil
  exact (run_invariant path (fun _ unnamed effect live => messagesLive_effect unnamed effect live) initially).2

end

/-- A message about a new peer is queued while another peer is deleted. -/
def unnamedEvents : List Event :=
  [.setClientCreationMode true, .accept 9 9, .processFront none, .accept 8 8, .clientThread 0 (.bytes []),
    .processFront none]

theorem messagesLive_unnamedEvents :
    MessagesLive (TcpServerController.stateAfter DestroysUnnamed (.started 1 1) unnamedEvents) :=
  messagesLive (TcpServerController.stateAfter_path rfl)

/-- Every connection restarts the service thread, so that the end of one stream is reported twice
before the first report is processed. -/
def twiceReported : List Event :=
  [.createActiveClient 9 9 (some 1), .createActiveClient 9 9 (some 2), .select [0], .visit (.bytes []),
    .createActiveClient 9 9 (some 3), .select [0], .visit (.bytes []), .processFront none]

theorem reconnectedClient_named :
    ¬ ∀ es t, Path TcpServerController.Step (.started 1 1) es t → MessagesLive t := by
  intro always
  have live := always twiceReported _ (TcpServerController.stateAfter_unguarded rfl)
      ⟨[.reconnect], 0, none⟩ (by decide)
  obtain ⟨client, found⟩ := live
  have gone : ((TcpServerController.stateAfter (fun _ _ => True) (.started 1 1) twiceReported).heap
      0).isSome = false := by
    decide
  rw [found] at gone
  exact absurd gone (by simp)

end TcpServerLib.Soundness
