import TcpServerLib.Machine.KeyedMembers
import TcpServerLib.Refinement.Listing

/-! # Clients under their keys

The client database and the service manager search their lists by the address of a client. The
messages of the queue say who is going to be in one of the lists and who is not.
-/

namespace TcpServerLib.Refinement

open Machine Model Server

namespace Server

/-- The address and the port that a client is looked up by. -/
abbrev ClientKey := UInt32 × UInt16

def clientKey (client : TcpClient) : ClientKey := (client.ipAddr, client.portNo)

/-- The key of an allocated client. -/
def keyOf (s : TcpServerController) (c : ClientRef) : Option ClientKey := (s.heap c).map clientKey

/-- Both lists that are searched. -/
def listed (s : TcpServerController) : List ClientRef := s.tcpClientDb ++ svcList s

/-- What a message does to the lists. An active opener is in neither of them while it has a thread
of its own. -/
def pending (threaded : Bool) (msg : TcpServerMsg) : Change ClientRef :=
  if .delete ∈ msg.code ∨ .reconnect ∈ msg.code then .leave msg.data
  else if .processNew ∈ msg.code ∨
    (.activeConnectSuccess ∈ msg.code ∧ threaded = false) then .join msg.data
  else .other

/-- What the messages in the queue will change, in their order. -/
def pendings (s : TcpServerController) : List (Change ClientRef) := s.msgQ.map (pending s.createMultiThreaded)

end Server

/-- The client has an address of its own. -/
def Addressed (s : TcpServerController) (c : ClientRef) : Prop :=
  c < s.nextClient ∧ ∀ client ∈ s.heap c, client.activeConnectThread ≠ .retrying

/-- The members now and after the changes have different keys, and all of them are addressed. -/
structure Joined (s : TcpServerController) (members : List ClientRef)
    (changes : List (Change ClientRef)) : Prop where
  keyed : KeyedMembers (keyOf s) members changes
  addressed : ∀ c ∈ members ++ joiners changes, Addressed s c

/-- The keys of the lists are distinct and are going to be, and the flags of a client tell which
lists it is in. -/
structure ClientKeys (changes : List (Change ClientRef)) (s : TcpServerController) : Prop where
  joined : Joined s (listed s) changes
  passive : ∀ c ∈ s.tcpClientDb, ∀ client ∈ s.heap c, client.passiveOpener = true
  flagged : s.createMultiThreaded = false → ∀ c ∈ listed s, ∀ client ∈ s.heap c,
    client.multiplexListen = true
  alone : s.createMultiThreaded = true → svcList s = []

/-- What a client keeps while it gets older. -/
structure Older (before after : TcpClient) : Prop where
  key : clientKey after = clientKey before
  passiveOpener : after.passiveOpener = before.passiveOpener
  retrying : after.activeConnectThread = .retrying → before.activeConnectThread = .retrying

/-- No client comes or changes its key. -/
def Ages (touched : ClientRef → Prop) (s t : TcpServerController) : Prop :=
  ∀ d client, t.heap d = some client → ∃ before, s.heap d = some before ∧ Older before client ∧
    (¬ touched d → client.multiplexListen = before.multiplexListen)

/-- A client that was there keeps its part in the connection. -/
def KeepsOpeners (s t : TcpServerController) : Prop :=
  ∀ d < s.nextClient, ∀ client, t.heap d = some client →
    ∃ before, s.heap d = some before ∧ client.passiveOpener = before.passiveOpener

section

variable {s t middle : TcpServerController} {c d : ClientRef} {client : TcpClient} {m : TcpClientServiceManager}
  {members fewer : List ClientRef} {change : Change ClientRef} {changes : List (Change ClientRef)}
  {touched : ClientRef → Prop}

theorem Older.refl (client : TcpClient) : Older client client :=
  ⟨rfl, rfl, id⟩

/-- Growing older composes. -/
theorem Older.trans {first second third : TcpClient} (left : Older first second) (right : Older second third) :
    Older first third :=
  ⟨right.key.trans left.key, right.passiveOpener.trans left.passiveOpener, left.retrying ∘ right.retrying⟩

theorem Ages.of_heap (heap : t.heap = s.heap) : Ages touched s t :=
  fun _ _ found => ⟨_, heap ▸ found, .refl _, fun _ => rfl⟩

theorem Ages.trans (first : Ages touched s middle) (second : Ages touched middle t) : Ages touched s t := by
  intro d client found
  obtain ⟨between, found', older', flag'⟩ := second d client found
  obtain ⟨before, found'', older, flag⟩ := first d between found'
  exact ⟨before, found'', older.trans older', fun spared => (flag' spared).trans (flag spared)⟩

/-- A write that only ages one client ages them all. -/
theorem ages_mapClient {f : TcpClient → TcpClient} (older : ∀ client, Older client (f client))
    (flag : ∀ client, touched c ∨ (f client).multiplexListen = client.multiplexListen) :
    Ages touched s (s.mapClient c f) := by
  intro d client found
  rw [heap_mapClient] at found
  split_ifs at found with same
  · subst same
    obtain ⟨before, found', rfl⟩ := Option.map_eq_some_iff.mp found
    exact ⟨before, found', older before, fun spared => (flag before).resolve_left spared⟩
  · exact ⟨client, found, .refl client, fun _ => rfl⟩

theorem ages_release : Ages touched s (release c s) := by
  intro d client found
  rw [heap_release] at found
  split_ifs at found with same
  · subst same
    obtain ⟨before, found', kept⟩ := Option.bind_eq_some_iff.mp found
    obtain ⟨_, rfl⟩ := drop_eq_some kept
    exact ⟨before, found', ⟨rfl, rfl, id⟩, fun _ => rfl⟩
  · exact ⟨client, found, .refl client, fun _ => rfl⟩

theorem ages_addRefs (list : List ClientRef) : Ages touched s (addRefs list s) := by
  intro d client found
  obtain ⟨before, found', rfl⟩ := Option.map_eq_some_iff.mp found
  exact ⟨before, found', ⟨rfl, rfl, id⟩, fun _ => rfl⟩

theorem ages_threadStarted : Ages touched s (s.mapClient c threadStarted) :=
  ages_mapClient (fun _ => ⟨rfl, rfl, id⟩) fun _ => .inr rfl

theorem ages_listened : Ages (· = c) s (listened c m s) := by
  have flagged : Ages (· = c) s (s.mapClient c listening) :=
    ages_mapClient (fun _ => ⟨rfl, rfl, id⟩) fun _ => .inl rfl
  exact (flagged.trans (.of_heap rfl)).trans (ages_addRefs (c :: copied s))

theorem ages_unlistened : Ages (· = c) s (unlistened c m s) := by
  have cleared : Ages (· = c) s (s.mapClient c notListening) :=
    ages_mapClient (fun _ => ⟨rfl, rfl, id⟩) fun _ => .inl rfl
  exact ((cleared.trans ages_release).trans (.of_heap rfl)).trans (ages_addRefs (copied s))

/-- Deleting a client changes the key of none. -/
theorem ages_deletes {s₁ s₂ s₃ s₄ : TcpServerController}
    (deletes : Deletes c client s s₁ s₂ s₃ s₄ t) :
    Ages (· = c) s t := by
  refine deletes.preserves (P := Ages (· = c) s) (ages_addRefs [c]) ?_ ?_ ?_ ?_ ?_
  · intro s' ages
    exact (ages.trans (.of_heap rfl)).trans ages_release
  · intro s' m _ _ ages
    exact ages.trans ages_unlistened
  · intro s' ages
    have stopped : Ages (· = c) s' (s'.mapClient c threadStopped) :=
      ages_mapClient (fun _ => ⟨rfl, rfl, id⟩) fun _ => .inr rfl
    exact (ages.trans stopped).trans ages_release
  · intro s' connected ages
    exact ages.trans (.of_heap rfl)
  · intro s' ages
    exact ages.trans ages_release

/-- A client that is still there has its key. -/
theorem keyOf_ages (ages : Ages touched s t) (c : ClientRef) : keyOf t c = none ∨ keyOf t c = keyOf s c := by
  cases found : t.heap c with
  | none => exact .inl (congrArg (Option.map clientKey) found)
  | some client =>
    obtain ⟨before, found', older, _⟩ := ages c client found
    right
    rw [keyOf, keyOf, found, found', Option.map_some, Option.map_some, older.key]

/-- Fewer members are joined all the more. -/
theorem Joined.narrow (joined : Joined s members changes) (subset : fewer ⊆ members)
    (nextClient : s.nextClient ≤ t.nextClient) (ages : Ages touched s t) : Joined t fewer changes where
  keyed := joined.keyed.narrow subset fun c _ => keyOf_ages ages c
  addressed c member := by
    have earlier : c ∈ members ++ joiners changes := by
      rcases List.mem_append.mp member with inside | joins
      · exact List.mem_append_left _ (subset inside)
      · exact List.mem_append_right _ joins
    obtain ⟨known, unconnected⟩ := joined.addressed c earlier
    refine ⟨Nat.lt_of_lt_of_le known nextClient, fun client found retrying => ?_⟩
    obtain ⟨before, found', older, _⟩ := ages c client found
    exact unconnected before found' (older.retrying retrying)

/-- What happens to the other clients is of no account. -/
theorem Joined.elsewhere (joined : Joined s members changes) (nextClient : s.nextClient ≤ t.nextClient)
    (heap : ∀ c ∈ members ++ joiners changes, t.heap c = s.heap c) : Joined t members changes where
  keyed := joined.keyed.narrow (fun _ => id) fun c member => .inr (by rw [keyOf, keyOf, heap c member])
  addressed c member := by
    obtain ⟨known, unconnected⟩ := joined.addressed c member
    exact ⟨Nat.lt_of_lt_of_le known nextClient, fun client found =>
      unconnected client (heap c member ▸ found)⟩

/-- Taking the first change makes it part of the members. -/
theorem Joined.take (joined : Joined s members (change :: changes)) : Joined s (change.apply members) changes :=
  ⟨joined.keyed.take, fun c member => joined.addressed c (apply_subset_append change changes member)⟩

/-- That a client leaves can only help. -/
theorem Joined.leaveFirst (joined : Joined s members changes) (c : ClientRef) :
    Joined s members (.leave c :: changes) :=
  ⟨joined.keyed.leaveFirst c, joined.addressed⟩

/-- Those who join are counted change by change. -/
theorem joiners_append (first second : List (Change ClientRef)) :
    joiners (first ++ second) = joiners first ++ joiners second :=
  List.filterMap_append

/-- A change may be posted when its keys are free once the earlier ones are settled. -/
theorem Joined.post (joined : Joined s members changes)
    (enters : Enters (keyOf s) (settled members changes) change)
    (addressed : ∀ c ∈ change.joining, Addressed s c) : Joined s members (changes ++ [change]) where
  keyed := joined.keyed.post enters
  addressed c member := by
    rw [joiners_append, ← List.append_assoc] at member
    rcases List.mem_append.mp member with earlier | posted
    · exact joined.addressed c earlier
    · obtain ⟨change', here, joins⟩ := List.mem_filterMap.mp posted
      rw [List.mem_singleton.mp here] at joins
      exact addressed c joins

/-- A client may join at once when its key is free of members and joiners. -/
theorem Joined.joinNow (joined : Joined s members changes)
    (free : ∀ key ∈ keyOf s c, Free (keyOf s) key (members ++ joiners changes)) (addressed : Addressed s c) :
    Joined s (c :: members) changes where
  keyed := joined.keyed.joinNow free
  addressed d member := by
    rcases List.mem_cons.mp member with rfl | earlier
    · exact addressed
    · exact joined.addressed d earlier

/-- What has to be seen to when clients get older, join the lists or leave them. -/
theorem ClientKeys.moved {earlier : List (Change ClientRef)} (keys : ClientKeys earlier s)
    (joined : Joined s members changes)
    (lists : listed t ⊆ members) (nextClient : s.nextClient ≤ t.nextClient)
    (mode : t.createMultiThreaded = s.createMultiThreaded) (ages : Ages touched s t)
    (passive : ∀ d ∈ t.tcpClientDb, d ∈ s.tcpClientDb ∨ ∀ client ∈ t.heap d,
      client.passiveOpener = true)
    (flagged : s.createMultiThreaded = false → ∀ d ∈ listed t,
      (d ∈ listed s ∧ ¬ touched d) ∨ ∀ client ∈ t.heap d, client.multiplexListen = true)
    (alone : s.createMultiThreaded = true → svcList t = []) : ClientKeys changes t where
  joined := joined.narrow lists nextClient ages
  passive d member client found := by
    rcases passive d member with earlier | new
    · obtain ⟨before, found', older, _⟩ := ages d client found
      exact older.passiveOpener.trans (keys.passive d earlier before found')
    · exact new client found
  flagged multiplexed d member client found := by
    rw [mode] at multiplexed
    rcases flagged multiplexed d member with ⟨earlier, spared⟩ | new
    · obtain ⟨before, found', _, flag⟩ := ages d client found
      exact (flag spared).trans (keys.flagged multiplexed d earlier before found')
    · exact new client found
  alone threaded := alone (mode.symm.trans threaded)

/-- The clients get older. -/
theorem ClientKeys.ages (keys : ClientKeys changes s) (db : t.tcpClientDb = s.tcpClientDb)
    (svc : svcList t = svcList s)
    (nextClient : s.nextClient ≤ t.nextClient) (mode : t.createMultiThreaded = s.createMultiThreaded)
    (ages : Ages (fun _ => False) s t) : ClientKeys changes t := by
  have lists : listed t = listed s := by rw [listed, listed, db, svc]
  refine keys.moved keys.joined (lists ▸ List.Subset.refl _) nextClient mode ages
    (fun d member => .inl (db ▸ member))
    (fun _ d member => .inl ⟨lists ▸ member, id⟩) fun threaded => ?_
  rw [svc]
  exact keys.alone threaded

/-- Something happens to a client that is in no list and about to join none. -/
theorem ClientKeys.elsewhere (keys : ClientKeys changes s) (db : t.tcpClientDb = s.tcpClientDb)
    (svc : svcList t = svcList s) (nextClient : s.nextClient ≤ t.nextClient)
    (mode : t.createMultiThreaded = s.createMultiThreaded)
    (heap : ∀ d ∈ listed s ++ joiners changes, t.heap d = s.heap d) : ClientKeys changes t := by
  have lists : listed t = listed s := by rw [listed, listed, db, svc]
  have here {d : ClientRef} (member : d ∈ listed s) : t.heap d = s.heap d :=
    heap d (List.mem_append_left _ member)
  refine ⟨lists ▸ keys.joined.elsewhere nextClient heap, fun d member client found => ?_,
    fun multiplexed d member client found => ?_, fun threaded => ?_⟩
  · rw [db] at member
    exact keys.passive d member client (here (List.mem_append_left _ member) ▸ found)
  · rw [lists] at member
    exact keys.flagged (mode.symm.trans multiplexed) d member client (here member ▸ found)
  · rw [svc]
    exact keys.alone (mode.symm.trans threaded)

/-- A change may be posted to a server under the same condition. -/
theorem ClientKeys.post (keys : ClientKeys changes s)
    (enters : Enters (keyOf s) (settled (listed s) changes) change)
    (addressed : ∀ c ∈ change.joining, Addressed s c) : ClientKeys (changes ++ [change]) s :=
  { keys with joined := keys.joined.post enters addressed }

theorem ClientKeys.leaveFirst (keys : ClientKeys changes s) (c : ClientRef) :
    ClientKeys (.leave c :: changes) s :=
  { keys with joined := keys.joined.leaveFirst c }

/-- Whoever was about to join has not. -/
theorem ClientKeys.skipJoin (keys : ClientKeys (.join c :: changes) s) : ClientKeys changes s := by
  have same : Ages (fun _ => False) s s := .of_heap rfl
  exact { keys with joined := keys.joined.take.narrow (List.subset_cons_self c _) (Nat.le_refl _) same }

theorem ClientKeys.other (keys : ClientKeys (.other :: changes) s) : ClientKeys changes s :=
  { keys with joined := keys.joined.take }

/-- A client that is deleted has left the lists. -/
theorem listed_deletes {s₁ s₂ s₃ s₄ : TcpServerController} (keys : ClientKeys changes s)
    (deletes : Deletes c client s s₁ s₂ s₃ s₄ t) :
    (∀ d ∈ t.tcpClientDb, d ∈ s.tcpClientDb ∧ d ≠ c) ∧ ∀ d ∈ listed t, d ∈ listed s ∧
    d ≠ c := by
  obtain ⟨listens, deaf⟩ := deletes_svc deletes
  have db : ∀ d ∈ t.tcpClientDb, d ∈ s.tcpClientDb ∧ d ≠ c := by
    intro d member
    rw [deletes_db deletes, dbWithout] at member
    split_ifs at member with passive
    · obtain ⟨earlier, other⟩ := List.mem_filter.mp member
      exact ⟨earlier, of_decide_eq_true other⟩
    · refine ⟨member, ?_⟩
      rintro rfl
      exact passive (keys.passive d member client deletes.found)
  have svc : ∀ d ∈ svcList t, d ∈ listed s ∧ d ≠ c := by
    intro d member
    cases flag : client.multiplexListen with
    | true =>
      rcases List.mem_append.mp (listens flag member) with left | copy
      · obtain ⟨earlier, other⟩ := List.mem_filter.mp left
        exact ⟨List.mem_append_right _ earlier, of_decide_eq_true other⟩
      · obtain ⟨earlier, other⟩ := db d copy
        exact ⟨List.mem_append_left _ earlier, other⟩
    | false =>
      rw [deaf flag] at member
      refine ⟨List.mem_append_right _ member, ?_⟩
      rintro rfl
      cases mode : s.createMultiThreaded with
      | true =>
        rw [keys.alone mode] at member
        exact absurd member List.not_mem_nil
      | false =>
        have flagged := keys.flagged mode d (List.mem_append_right _ member) client deletes.found
        exact absurd (flag.symm.trans flagged) Bool.false_ne_true
  refine ⟨db, fun d member => ?_⟩
  rcases List.mem_append.mp member with inDb | inSvc
  · exact ⟨List.mem_append_left _ (db d inDb).1, (db d inDb).2⟩
  · exact svc d inSvc

/-- Deleting a client carries its leave out. -/
theorem keys_deletes {s₁ s₂ s₃ s₄ : TcpServerController} (keys : ClientKeys (.leave c :: changes) s)
    (listing : Listing s) (deletes : Deletes c client s s₁ s₂ s₃ s₄ t) : ClientKeys changes t := by
  have framed := framed_deletes deletes
  obtain ⟨db, lists⟩ := listed_deletes keys deletes
  refine keys.moved keys.joined.take (fun d member => ?_) framed.nextClient framed.createMultiThreaded
    (ages_deletes deletes) (fun d member => .inl (db d member).1)
    (fun _ d member => .inl (lists d member)) fun threaded => ?_
  · exact List.mem_filter.mpr ⟨(lists d member).1, decide_eq_true (lists d member).2⟩
  · cases flag : client.multiplexListen with
    | true =>
      have member := listing.listed deletes.found flag
      rw [keys.alone threaded] at member
      exact absurd member List.not_mem_nil
    | false =>
      rw [(deletes_svc deletes).2 flag]
      exact keys.alone threaded

theorem mem_listed_listened (present : s.tcpClientSvcMgr = some m) (member : d ∈ listed (listened c m s)) :
    d = c ∨ d ∈ listed s := by
  have list : svcList (listened c m s) = (m.tcpClientDb ++ [c]) ++ copied s := relisted_db _
  rw [listed, list, ← svcList_some present] at member
  rcases List.mem_append.mp member with inDb | inSvc
  · exact .inr (List.mem_append_left _ inDb)
  · rcases List.mem_append.mp inSvc with appended | copy
    · rcases List.mem_append.mp appended with earlier | new
      · exact .inr (List.mem_append_right _ earlier)
      · exact .inl (List.mem_singleton.mp new)
    · rw [copied] at copy
      split_ifs at copy
      · exact absurd copy List.not_mem_nil
      · exact .inr (List.mem_append_left _ copy)

theorem flag_listened (found : (listened c m s).heap c = some client) : client.multiplexListen = true := by
  rw [heap_listened, if_pos rfl, Option.map_map] at found
  obtain ⟨_, _, rfl⟩ := Option.map_eq_some_iff.mp found
  rfl

/-- Listening to a client carries its join out. -/
theorem keys_listened (keys : ClientKeys changes s) (joined : Joined s (c :: listed s) changes)
    (present : s.tcpClientSvcMgr = some m) (mode : s.createMultiThreaded = false) :
    ClientKeys changes (listened c m s) := by
  refine keys.moved joined (fun d member => ?_) (framed_listened present).nextClient rfl ages_listened
    (fun d member => .inl member) (fun _ d member => ?_) fun threaded =>
      absurd (mode.symm.trans threaded) Bool.false_ne_true
  · rcases mem_listed_listened present member with rfl | earlier
    · exact List.mem_cons_self
    · exact List.mem_cons_of_mem _ earlier
  · rcases eq_or_ne d c with rfl | other
    · exact .inr fun client found => flag_listened found
    · exact .inl ⟨(mem_listed_listened present member).resolve_left other, other⟩

/-- Serving a client keeps the keys, whichever mode serves it. -/
theorem keys_served (keys : ClientKeys changes s)
    (joined : s.createMultiThreaded = false → Joined s (c :: listed s) changes)
    (served : Served c s t) : ClientKeys changes t := by
  rcases served with ⟨_, _, _, _, rfl⟩ | ⟨multiplexed, m, present, _, _, rfl⟩
  · exact keys.ages rfl rfl (Nat.le_refl _) rfl ages_threadStarted
  · exact keys_listened keys (joined multiplexed) present multiplexed

theorem mem_added (member : d ∈ (added c s).tcpClientDb) : d = c ∨ d ∈ s.tcpClientDb :=
  (List.mem_append.mp member).symm.imp_left List.mem_singleton.mp

theorem ages_added : Ages touched s (added c s) := by
  have same : Ages touched s { s with tcpClientDb := s.tcpClientDb ++ [c] } := .of_heap rfl
  exact same.trans (ages_addRefs [c])

/-- A peer that has been accepted is served as the mode has it. -/
theorem keys_processNew {threaded : Bool} (keys : ClientKeys (.join c :: changes) s)
    (passive : ∀ client ∈ s.heap c, client.passiveOpener = true) (mode : threaded = s.createMultiThreaded)
    (acted : Acted c s (.processNew threaded) t) : ClientKeys changes t := by
  have opener {u : TcpServerController} (ages : Ages (· = c) s u) {d : ClientRef} (db : d = c ∨
      d ∈ s.tcpClientDb) :
      d ∈ s.tcpClientDb ∨ ∀ client ∈ u.heap d, client.passiveOpener = true := by
    rcases db with rfl | earlier
    · right
      intro client found
      obtain ⟨before, found', older, _⟩ := ages d client found
      exact older.passiveOpener.trans (passive before found')
    · exact .inl earlier
  cases acted with
  | nothing => exact keys.skipJoin
  | processNewThreaded =>
    have ages : Ages (· = c) s ((added c s).mapClient c threadStarted) := ages_added.trans ages_threadStarted
    refine keys.moved keys.joined.take (fun d member => ?_) (Nat.le_refl _) rfl ages
      (fun d member => opener ages (mem_added member))
      (fun multiplexed => absurd (mode.trans multiplexed) (by simp)) fun threaded => keys.alone threaded
    rcases List.mem_append.mp member with inDb | inSvc
    · exact List.mem_cons.mpr ((mem_added inDb).imp_right (List.mem_append_left _))
    · exact List.mem_cons_of_mem _ (List.mem_append_right _ inSvc)
  | @processNewMultiplexed client m _ _ _ present =>
    have ages : Ages (· = c) s (listened c m (added c s)) := ages_added.trans ages_listened
    have lists {d : ClientRef} (member : d ∈ listed (listened c m (added c s))) : d = c ∨ d ∈ listed s := by
      rcases mem_listed_listened (s := added c s) present member with rfl | earlier
      · exact .inl rfl
      · rcases List.mem_append.mp earlier with inDb | inSvc
        · exact (mem_added inDb).imp_right (List.mem_append_left _)
        · exact .inr (List.mem_append_right _ inSvc)
    refine keys.moved keys.joined.take (fun d member => List.mem_cons.mpr (lists member)) (Nat.le_refl _) rfl ages
      (fun d member => opener ages (mem_added member)) (fun _ d member => ?_)
      fun threaded => absurd (mode.trans threaded) Bool.false_ne_true
    rcases eq_or_ne d c with rfl | other
    · exact .inr fun client found => flag_listened found
    · exact .inl ⟨(lists member).resolve_left other, other⟩

/-- A successful retry keeps the keys. -/
theorem keys_connectSuccess
    (keys : ClientKeys (pending s.createMultiThreaded ⟨Request.connectSuccess.code, c, none⟩ :: changes) s)
    (acted : Acted c s .connectSuccess t) : ClientKeys changes t := by
  cases mode : s.createMultiThreaded with
  | true =>
    rw [mode] at keys
    have others : ClientKeys changes s := ClientKeys.other keys
    cases acted with
    | nothing => exact others
    | connectSucceeded _ _ _ _ served =>
      have moved : ClientKeys changes (movedToEstablished c s) :=
        others.ages rfl rfl (Nat.le_refl _) rfl (.of_heap rfl)
      exact keys_served moved (fun multiplexed => absurd (mode.symm.trans multiplexed) (by simp)) served
  | false =>
    rw [mode] at keys
    have joins : ClientKeys (.join c :: changes) s := keys
    cases acted with
    | nothing => exact joins.skipJoin
    | connectSucceeded _ _ _ _ served =>
      have moved : ClientKeys (.join c :: changes) (movedToEstablished c s) :=
        joins.ages rfl rfl (Nat.le_refl _) rfl (.of_heap rfl)
      exact keys_served moved.skipJoin (fun _ => moved.joined.take) served

/-- A client that has been created is in no list. -/
theorem keys_created (keys : ClientKeys changes s) : ClientKeys changes (created client s) := by
  refine keys.elsewhere rfl rfl (Nat.le_succ _) rfl fun d member => ?_
  rw [heap_created, if_neg]
  exact Nat.ne_of_lt (keys.joined.addressed d member).1

/-- A connected opener needs its key to be free. -/
theorem keys_creates {serverIpAddr : UInt32} {serverPortNo : UInt16} {connect : ConnectResult}
    (keys : ClientKeys changes s) (free : s.createMultiThreaded = false → ∀ portNo ∈ connect,
      Free (keyOf s) (s.ipAddr, portNo) (listed s ++ joiners changes))
    (creates : Creates serverIpAddr serverPortNo s connect t) : ClientKeys changes t := by
  have apart : ∀ d ∈ listed s ++ joiners changes, d ≠ s.nextClient := fun d member =>
    Nat.ne_of_lt (keys.joined.addressed d member).1
  have fresh : ClientKeys changes (created (newActive serverIpAddr serverPortNo s) s) := keys_created keys
  cases creates with
  | retrying =>
    refine fresh.elsewhere rfl rfl (Nat.le_refl _) rfl fun d member => ?_
    rw [heap_mapClient, if_neg (apart d member)]
  | @connected portNo t served =>
    have served : Served s.nextClient (connectedActive serverIpAddr serverPortNo portNo s) t := served
    have nextClient : s.nextClient < (connectedActive serverIpAddr serverPortNo portNo s).nextClient := by
      rw [nextClient_connectedActive]
      exact Nat.lt_succ_self _
    have moved : ClientKeys changes (connectedActive serverIpAddr serverPortNo portNo s) := by
      refine keys.elsewhere tcpClientDb_connectedActive svcList_connectedActive (Nat.le_of_lt nextClient)
        createMultiThreaded_connectedActive fun d member => ?_
      rw [heap_connectedActive, if_neg (apart d member)]
    refine keys_served moved (fun multiplexed => moved.joined.joinNow (fun key own => ?_)
      ⟨nextClient, ?_⟩) served
    · rw [keyOf, heap_connectedActive, if_pos rfl] at own
      cases own
      rw [createMultiThreaded_connectedActive] at multiplexed
      rw [listed, tcpClientDb_connectedActive, svcList_connectedActive]
      refine (free multiplexed portNo rfl).narrow (List.Subset.refl _) fun d member => .inr ?_
      rw [keyOf, keyOf, heap_connectedActive, if_neg (apart d member)]
    · intro client found
      rw [heap_connectedActive, if_pos rfl] at found
      cases found
      exact nofun

theorem Ages.keepsOpeners (ages : Ages touched s t) : KeepsOpeners s t := by
  intro d _ client found
  obtain ⟨before, found', older, _⟩ := ages d client found
  exact ⟨before, found', older.passiveOpener⟩

theorem KeepsOpeners.trans (first : KeepsOpeners s middle) (second : KeepsOpeners middle t)
    (nextClient : s.nextClient ≤ middle.nextClient) : KeepsOpeners s t := by
  intro d old client found
  obtain ⟨between, found', same⟩ := second d (Nat.lt_of_lt_of_le old nextClient) client found
  obtain ⟨before, found'', same'⟩ := first d old between found'
  exact ⟨before, found'', same.trans same'⟩

theorem keepsOpeners_mapClient {f : TcpClient → TcpClient}
    (same : ∀ client, (f client).passiveOpener = client.passiveOpener) :
    KeepsOpeners s (s.mapClient c f) := by
  intro d _ client found
  rw [heap_mapClient] at found
  split_ifs at found with here
  · subst here
    obtain ⟨before, found', rfl⟩ := Option.map_eq_some_iff.mp found
    exact ⟨before, found', same before⟩
  · exact ⟨client, found, rfl⟩

theorem keepsOpeners_created : KeepsOpeners s (created client s) := by
  intro d old left found
  rw [heap_created, if_neg (Nat.ne_of_lt old)] at found
  exact ⟨left, found, rfl⟩

theorem ages_served (served : Served c s t) : Ages (· = c) s t := by
  rcases served with ⟨_, _, _, _, rfl⟩ | ⟨_, m, _, _, _, rfl⟩
  · exact ages_threadStarted
  · exact ages_listened

/-- Creating an active opener makes no passive one. -/
theorem keepsOpeners_creates {serverIpAddr : UInt32} {serverPortNo : UInt16} {connect : ConnectResult}
    (creates : Creates serverIpAddr serverPortNo s connect t) : KeepsOpeners s t := by
  cases creates with
  | retrying =>
    exact keepsOpeners_created.trans (keepsOpeners_mapClient (f := retryStarted) fun _ => rfl) (Nat.le_succ _)
  | @connected portNo t served =>
    have connected : KeepsOpeners (created (newActive serverIpAddr serverPortNo s) s)
        (connectedActive serverIpAddr serverPortNo portNo s) :=
      keepsOpeners_mapClient (f := connectedOn portNo) fun _ => rfl
    exact (keepsOpeners_created.trans connected (Nat.le_succ _)).trans (ages_served served).keepsOpeners
      (Nat.le_succ _)

theorem KeepsOpeners.refl (s : TcpServerController) : KeepsOpeners s s :=
  fun _ _ client found => ⟨client, found, rfl⟩

theorem keepsOpeners_processNew {threaded : Bool} (acted : Acted c s (.processNew threaded) t) :
    KeepsOpeners s t := by
  have added : Ages (· = c) s (added c s) := ages_added
  cases acted with
  | nothing => exact .refl s
  | processNewThreaded => exact (added.trans ages_threadStarted).keepsOpeners
  | processNewMultiplexed => exact (added.trans ages_listened).keepsOpeners

theorem keepsOpeners_connectSuccess (acted : Acted c s .connectSuccess t) : KeepsOpeners s t := by
  have moved : Ages (· = c) s (movedToEstablished c s) := .of_heap rfl
  cases acted with
  | nothing => exact .refl s
  | connectSucceeded _ _ _ _ served => exact (moved.trans (ages_served served)).keepsOpeners

end

end TcpServerLib.Refinement
