import TcpServerLib.Refinement.Frame
import TcpServerLib.Soundness.DemarcarCapacity

/-! # The two receive paths

The service loop and the thread of a client make the same calls of the same bytes. They part at the
end of the stream: the service loop asks for a reconnection whoever opened the connection.
-/

namespace TcpServerLib.Soundness

open Machine Model Prog Refinement Server

/-- A receive loop over the results of `recvfrom`. -/
def eachRecv (body : Recv → Op Unit) : List Recv → Op Unit
  | [] => return ()
  | r :: rs => do
    body r
    eachRecv body rs

/-- The demarcar of a client after one result, if it gets through it. -/
def fed (msgd : Option Msgd) (r : Recv) : Except (Cut Trap) (Option Msgd) :=
  match msgd with
  | none => .ok none
  | some msgd => (msgd.demarcar.processMsg msgd.ops processMsgFuel r.chunk (UInt16.ofNat r.chunk.length)).map
    fun left => some { msgd with demarcar := left.2 }

def fedAll (msgd : Option Msgd) : List Recv → Except (Cut Trap) (Option Msgd)
  | [] => .ok msgd
  | r :: rs => (fed msgd r).bind fun msgd => fedAll msgd rs

/-- What `InstantiateTcpMsgDemarcar` makes for a client. -/
def madeMsgd (order : ByteOrder) (msgdType : TcpMsgDemarcarType) (fixedSize : UInt16) : Option Msgd :=
  (instantiateTcpMsgDemarcar order msgdType fixedSize).map fun made => { ops := made.1, demarcar := made.2 }

def bytesOf (rs : List Recv) : Bytes := rs.flatMap Recv.chunk

/-- The bytes do not stop the process in a demarcar of the given class. -/
def GetsThrough (order : ByteOrder) (msgdType : TcpMsgDemarcarType) (fixedSize : UInt16) (s : Bytes) : Prop :=
  match msgdType with
  | .none | .pattern => True
  | .fixedSize => s = [] ∨ 0 < fixedSize.toNat ∧
    (fixedSize.toNat ≤ maxClientBufferSize ∨ s.length < fixedSize.toNat ∧ s.length ≤ defaultCbcSize.toNat)
  | .variableSize => Passes (variableFraming order) s

/-- What becomes of a client whose stream has ended: only one that was actively opened is replaced,
by a connection to the same server. -/
def FollowedUp (client : TcpClient) (s t : TcpServerController) : Prop :=
  if client.activeOpener then
    t.nextClient = s.nextClient + 1 ∧ ∃ new, t.heap s.nextClient = some new ∧ new.activeOpener = true ∧
      new.serverIpAddr = client.serverIpAddr ∧ new.serverPortNo = client.serverPortNo
  else t.nextClient = s.nextClient

/-- The message is processed later, when the server and the client may have changed. -/
def Requested (c : ClientRef) (client : TcpClient) (msg : TcpServerMsg) (request : Request) : Prop :=
  msg.code = request.code ∧ msg.data = c ∧
    ∀ {later done : TcpServerController} {left : TcpClient} {connect : ConnectResult},
    later.heap c = some left →
      left.activeOpener = client.activeOpener → left.serverIpAddr = client.serverIpAddr →
      left.serverPortNo = client.serverPortNo →
      (TcpServerController.processMsgQMsg msg connect).Runs later () done → FollowedUp client later done

/-- The states in which the two loops leave the server agree. -/
structure EndsAgree (c : ClientRef) (client : TcpClient) (s t₁ t₂ : TcpServerController) : Prop where
  calls : t₁.calls = t₂.calls
  disconnected : ∃ receipts, t₁.calls = s.calls ++ receipts ++ [.clientDisconnected c] ∧
    ∀ call ∈ receipts, Call.IsReceipt c call
  bytesRecvd : (t₁.heap c).map (·.bytesRecvd) = (t₂.heap c).map (·.bytesRecvd)
  request : ∃ request msg₁ msg₂, t₁.msgQ = s.msgQ ++ [msg₁] ∧ t₂.msgQ = msg₂ :: s.msgQ ∧
    Requested c client msg₁ request ∧ Requested c client msg₂ request

/-- Both receive paths come to their end over the same results, and agree there. -/
def PathsAgree (c : ClientRef) (client : TcpClient) (rs : List Recv) (s : TcpServerController) : Prop :=
  ∃ t₁ t₂, (eachRecv (TcpClientServiceManager.receive c) rs).Runs s () t₁ ∧
    (eachRecv (TcpClient.clientThreadFunction c) rs).Runs s () t₂ ∧ EndsAgree c client s t₁ t₂

section

variable {s t : TcpServerController} {c : ClientRef} {client : TcpClient} {r : Recv} {rs : List Recv}

theorem exec_deref (found : s.heap c = some client) : (deref c).exec s = .ok (client, s) :=
  runs_deref.mpr ⟨found, rfl⟩

theorem exec_modifyClient (found : s.heap c = some client) (f : TcpClient → TcpClient) :
    (modifyClient c f).exec s = .ok ((), s.mapClient c f) :=
  runs_modifyClient.mpr ⟨⟨client, found⟩, rfl⟩

theorem exec_read {α : Type} (continued : TcpServerController → Op α) :
    (read >>= continued).exec s = (continued s).exec s :=
  rfl

/-- Up to the end of the stream both loops do the same. -/
theorem same_receive (found : s.heap c = some client) (registered : s.clientMsgRecvd = true)
    (going : ¬ r.Ended) :
    (TcpClient.clientThreadFunction c r).exec s = (TcpClientServiceManager.receive c r).exec s := by
  rw [TcpClient.clientThreadFunction, TcpClientServiceManager.receive, exec_bind, exec_bind, exec_deref found]
  simp only [Except.bind, exec_read, if_neg going]
  cases client.msgd with
  | some msgd => rfl
  | none =>
    rw [when, if_pos registered, exec_bind, exec_bind, exec_modifyClient found]
    simp only [Except.bind, when, if_pos registered]

theorem processMsg_fed (msgd : Msgd) (found : s.heap c = some client) (registered : s.clientMsgRecvd = true) :
    match fed (some msgd) r with
    | .error cut => (TcpClient.processMsg c msgd r.chunk).exec s = .error (.demarcar cut)
    | .ok msgd' => ∃ t, (TcpClient.processMsg c msgd r.chunk).Runs s () t ∧
      t.heap c = some { client with msgd := msgd' } ∧ t.clientMsgRecvd = true := by
  rw [fed]
  cases decoded : msgd.demarcar.processMsg msgd.ops processMsgFuel r.chunk (UInt16.ofNat r.chunk.length) with
  | error cut =>
    rw [TcpClient.processMsg, exec_bind, decoded]
    rfl
  | ok left =>
    obtain ⟨messages, demarcar⟩ := left
    have called : (TcpClient.processMsg c msgd r.chunk).Runs s ()
        { s.mapClient c (fun client => { client with msgd := some { msgd with demarcar } }) with
          calls := s.calls ++ [.processMsg c r.chunk] ++ messages.map (.clientMsgRecvd c) } := by
      simp only [TcpClient.processMsg, decoded, runs_bind, runs_notify, runs_read, runs_ite]
      refine ⟨(), _, rfl, _, _, ⟨rfl, rfl⟩, ?_⟩
      rw [if_neg fun unregistered => unregistered.2 registered]
      simp only [runs_update, runs_modifyClient]
      exact ⟨(), _, rfl, ⟨client, found⟩, rfl⟩
    refine ⟨_, called, ?_, registered⟩
    change (s.mapClient c _).heap c = _
    rw [heap_mapClient, if_pos rfl, found]
    rfl

/-- The service loop gets through bytes when the demarcar of the client does. -/
theorem receive_fed (found : s.heap c = some client) (registered : s.clientMsgRecvd = true) (going : ¬ r.Ended) :
    match fed client.msgd r with
    | .error cut => (TcpClientServiceManager.receive c r).exec s = .error (.demarcar cut)
    | .ok msgd => ∃ t bytesRecvd, (TcpClientServiceManager.receive c r).Runs s () t ∧
      t.heap c = some (received msgd bytesRecvd client) ∧ t.clientMsgRecvd = true := by
  have counts := exec_modifyClient found fun client =>
    { client with bytesRecvd := client.bytesRecvd + UInt32.ofNat r.chunk.length }
  have counted : (s.mapClient c fun client =>
      { client with bytesRecvd := client.bytesRecvd + UInt32.ofNat r.chunk.length }).heap c =
      some { client with bytesRecvd := client.bytesRecvd + UInt32.ofNat r.chunk.length } := by
    rw [heap_mapClient, if_pos rfl, found, Option.map_some]
  cases held : client.msgd with
  | none =>
    have start : (TcpClientServiceManager.receive c r).exec s =
        (when (s.clientMsgRecvd = true) (notify (.clientMsgRecvd c r.chunk))).exec
          (s.mapClient c fun client =>
            { client with bytesRecvd := client.bytesRecvd + UInt32.ofNat r.chunk.length }) := by
      rw [TcpClientServiceManager.receive, exec_bind, exec_deref found]
      simp only [Except.bind, exec_read, if_neg going]
      rw [exec_bind, counts]
      simp only [held]
      rfl
    have kept : { client with bytesRecvd := client.bytesRecvd + UInt32.ofNat r.chunk.length } =
        received none (client.bytesRecvd + UInt32.ofNat r.chunk.length) client := by rw [received, ← held]
    simp only [Runs, start, when, if_pos registered]
    exact ⟨_, _, runs_notify.mpr rfl, counted.trans (congrArg some kept), registered⟩
  | some msgd =>
    have start : (TcpClientServiceManager.receive c r).exec s = (TcpClient.processMsg c msgd r.chunk).exec
        (s.mapClient c fun client =>
          { client with bytesRecvd := client.bytesRecvd + UInt32.ofNat r.chunk.length }) := by
      rw [TcpClientServiceManager.receive, exec_bind, exec_deref found]
      simp only [Except.bind, exec_read, if_neg going]
      rw [exec_bind, counts]
      simp only [held]
      rfl
    have called := processMsg_fed (r := r) msgd counted registered
    simp only [Runs, start]
    cases decoded : fed (some msgd) r with
    | error cut => rwa [decoded] at called
    | ok msgd' =>
      rw [decoded] at called
      obtain ⟨t, ran, found', registered'⟩ := called
      exact ⟨t, _, ran, found', registered'⟩

/-- Up to the end of the stream both loops get through when the demarcar does. -/
theorem eachRecv_fed (found : s.heap c = some client) (registered : s.clientMsgRecvd = true)
    (going : ∀ r ∈ rs, ¬ r.Ended) :
    (eachRecv (TcpClient.clientThreadFunction c) rs).exec s =
      (eachRecv (TcpClientServiceManager.receive c) rs).exec s ∧
    match fedAll client.msgd rs with
    | .error cut => (eachRecv (TcpClientServiceManager.receive c) rs).exec s = .error (.demarcar cut)
    | .ok msgd => ∃ t bytesRecvd, (eachRecv (TcpClientServiceManager.receive c) rs).Runs s () t ∧
      t.heap c = some (received msgd bytesRecvd client) ∧ t.clientMsgRecvd = true := by
  induction rs generalizing s client with
  | nil => exact ⟨rfl, s, client.bytesRecvd, rfl, found, registered⟩
  | cons r rs ih =>
    have first := same_receive found registered (going r List.mem_cons_self)
    have rest : ∀ r ∈ rs, ¬ r.Ended := fun r member => going r (List.mem_cons_of_mem _ member)
    have one := receive_fed found registered (going r List.mem_cons_self)
    simp only [eachRecv, exec_bind, first, fedAll, Runs]
    cases decoded : fed client.msgd r with
    | error cut =>
      rw [decoded] at one
      rw [one]
      exact ⟨rfl, rfl⟩
    | ok msgd =>
      rw [decoded] at one
      obtain ⟨middle, n, ran, found', registered'⟩ := one
      rw [Runs] at ran
      rw [ran]
      exact ih found' registered' rest

theorem fedAll_append (msgd : Option Msgd) (earlier rs : List Recv) :
    fedAll msgd (earlier ++ rs) = (fedAll msgd earlier).bind fun msgd => fedAll msgd rs := by
  induction earlier generalizing msgd with
  | nil => rfl
  | cons r earlier ih =>
    rw [List.cons_append, fedAll, fedAll]
    cases fed msgd r with
    | error cut => rfl
    | ok msgd => exact ih msgd

theorem fedAll_none : fedAll none rs = .ok none := by
  induction rs with
  | nil => rfl
  | cons r rs ih => exact ih

theorem length_chunk_pos (going : ¬ r.Ended) : 0 < r.chunk.length := by
  cases r with
  | failed => exact absurd going (by decide)
  | bytes chunk =>
    apply Nat.pos_of_ne_zero
    intro empty
    exact going (.inl (congrArg Nat.cast empty))

/-- A class that serves a framing is got through by the streams that this framing cuts well. -/
theorem fedAll_isOk_iff {ops : DemarcarOps} {F : Framing UInt8} {msgd : TcpMsgDemarcar} {pending : Bytes}
    (serves : Serves ops F) (overhead : F.overhead ≤ maxClientBufferSize) (incomplete : F.next pending = none)
    (holds : Holds msgd pending) (sizes : ∀ r ∈ rs, r.chunk.length ≤ maxClientBufferSize)
    (going : ∀ r ∈ rs, ¬ r.Ended) :
    (fedAll (some { ops, demarcar := msgd }) rs).isOk = true ↔ Passes F (pending ++ bytesOf rs) := by
  induction rs generalizing pending msgd with
  | nil =>
    have whole : Passes F (pending ++ bytesOf []) := by
      rw [bytesOf, List.flatMap_nil, List.append_nil, passes_rest incomplete]
      exact holds.bound
    exact iff_of_true rfl whole
  | cons r rs ih =>
    have verdict := processMsg_verdict serves overhead (length_chunk_pos (going r List.mem_cons_self))
      (sizes r List.mem_cons_self) incomplete holds
      (show defaultCbcSize.toNat < processMsgFuel from Nat.lt_succ_self _)
    rw [bytesOf, List.flatMap_cons, ← List.append_assoc, fedAll, fed]
    generalize msgd.processMsg ops processMsgFuel r.chunk (UInt16.ofNat r.chunk.length) = outcome at verdict ⊢
    cases verdict with
    | stops never => exact iff_of_false Bool.false_ne_true (never _)
    | returns held pending' same =>
      rw [same]
      exact ih pending' held (fun r member => sizes r (List.mem_cons_of_mem _ member)) fun r member =>
        going r (List.mem_cons_of_mem _ member)

/-- Messages of no bytes are divided by. -/
theorem fed_fixed_zero {msgd : TcpMsgDemarcar} :
    (fed (some { ops := TcpMsgFixedSizeDemarcar.ops 0, demarcar := msgd }) r).isOk = false := by
  rw [fed]
  simp only [TcpMsgDemarcar.processMsg]
  cases bcbWrite msgd.bcb r.chunk (UInt16.ofNat r.chunk.length) with
  | error trap => rfl
  | ok left =>
    obtain ⟨written, bcb⟩ := left
    by_cases none : written = 0
    · simp only [Cut.lift, Bind.bind, Except.bind, if_pos none]
      rfl
    · simp only [Cut.lift, Bind.bind, Except.bind, if_neg none]
      rfl

theorem fedAll_made_iff {order : ByteOrder} {msgdType : TcpMsgDemarcarType} {fixedSize : UInt16}
    (sizes : ∀ r ∈ rs, r.chunk.length ≤ maxClientBufferSize) (going : ∀ r ∈ rs, ¬ r.Ended) :
    (fedAll (madeMsgd order msgdType fixedSize) rs).isOk = true ↔
    GetsThrough order msgdType fixedSize (bytesOf rs) := by
  cases msgdType with
  | none => exact iff_of_true (congrArg Except.isOk fedAll_none) trivial
  | pattern => exact iff_of_true (congrArg Except.isOk fedAll_none) trivial
  | variableSize =>
    have fresh : (variableFraming order).next [] = none := variableFraming_next_header (Nat.zero_le 2)
    exact fedAll_isOk_iff variableSize_serves (by decide : 2 ≤ 1024) fresh holds_new sizes going
  | fixedSize =>
    rcases Nat.eq_zero_or_pos fixedSize.toNat with zero | positive
    · obtain rfl : fixedSize = 0 := UInt16.toNat.inj zero
      cases rs with
      | nil => exact iff_of_true rfl (.inl rfl)
      | cons r rs =>
        have fails : (fedAll (madeMsgd order .fixedSize 0) (r :: rs)).isOk = false := by
          have stops := @fed_fixed_zero r .new
          change ((fed (some { ops := TcpMsgFixedSizeDemarcar.ops 0, demarcar := .new }) r).bind fun msgd =>
            fedAll msgd rs).isOk = false
          cases outcome : fed (some { ops := TcpMsgFixedSizeDemarcar.ops 0, demarcar := .new }) r with
          | error cut => rfl
          | ok msgd =>
            rw [outcome] at stops
            cases stops
        refine iff_of_false (by simp [fails]) ?_
        rintro (empty | ⟨positive, _⟩)
        · have nonempty := length_chunk_pos (going r List.mem_cons_self)
          rw [bytesOf, List.flatMap_cons] at empty
          rw [(List.append_eq_nil_iff.mp empty).1] at nonempty
          exact absurd nonempty (Nat.lt_irrefl 0)
        · exact absurd positive (by decide)
    · have fresh : (fixedFraming fixedSize.toNat).next [] = none := if_neg (Nat.not_le.mpr positive)
      refine (fedAll_isOk_iff (fixedSize_serves positive) (Nat.zero_le _) fresh holds_new sizes going).trans ?_
      rw [List.nil_append, passes_fixed positive, GetsThrough, and_iff_right positive]
      refine ⟨.inr, ?_⟩
      rintro (empty | fits)
      · rw [empty]
        exact .inr ⟨positive, Nat.zero_le _⟩
      · exact fits

theorem receive_ended (found : s.heap c = some client) (registered : s.clientDisconnected = true)
    (ended : r.Ended) :
    (TcpClientServiceManager.receive c r).Runs s () (svcEnded c s) := by
  simp only [TcpClientServiceManager.receive, runs_bind, runs_deref, runs_read, runs_ite,
    if_pos ended, runs_notify, runs_update, runs_enqueMsg]
  refine ⟨client, s, ⟨found, rfl⟩, s, s, ⟨rfl, rfl⟩, ?_⟩
  rw [if_pos registered]
  exact ⟨(), _, rfl, (), _, rfl, rfl⟩

theorem clientThreadFunction_ended (found : s.heap c = some client) (registered : s.clientDisconnected = true)
    (ended : r.Ended) : (TcpClient.clientThreadFunction c r).Runs s () (threadEnded c client s) := by
  simp only [TcpClient.clientThreadFunction, runs_bind, runs_deref, runs_read, runs_ite, if_pos ended, runs_when,
    runs_notify, runs_modifyClient, runs_enqueMsg]
  refine ⟨client, s, ⟨found, rfl⟩, s, s, ⟨rfl, rfl⟩, (),
    { s with calls := s.calls ++ [.clientDisconnected c] },
    by rw [if_pos registered], (), _, ⟨⟨client, found⟩, rfl⟩, ?_⟩
  rw [threadEnded, if_pos registered]
  split_ifs
  · rfl
  · rfl

theorem deletes_nextClient {s₁ s₂ s₃ s₄ : TcpServerController}
    (deletes : Deletes c client s s₁ s₂ s₃ s₄ t) :
    t.nextClient = s.nextClient :=
  deletes.preserves (P := fun t => t.nextClient = s.nextClient) rfl id (fun _ _ => id) id id id

theorem creates_new {serverIpAddr : UInt32} {serverPortNo : UInt16} {connect : ConnectResult}
    (creates : Server.Creates serverIpAddr serverPortNo s connect t) :
    t.nextClient = s.nextClient + 1 ∧ ∃ new, t.heap s.nextClient = some new ∧ new.activeOpener = true ∧
      new.serverIpAddr = serverIpAddr ∧ new.serverPortNo = serverPortNo := by
  cases creates with
  | retrying =>
    refine ⟨rfl, retryStarted (newActive serverIpAddr serverPortNo s), ?_, rfl, rfl, rfl⟩
    rw [heap_mapClient, if_pos rfl, heap_created, if_pos rfl, Option.map_some]
  | @connected portNo t served =>
    have before : (connectedActive serverIpAddr serverPortNo portNo s).heap s.nextClient =
        some (connectedOn portNo (newActive serverIpAddr serverPortNo s)) := by
      rw [heap_connectedActive, if_pos rfl]
    have served : Served s.nextClient (connectedActive serverIpAddr serverPortNo portNo s) t := served
    rcases served with ⟨_, _, _, _, rfl⟩ | ⟨_, m, _, _, _, rfl⟩
    · refine ⟨rfl, threadStarted (connectedOn portNo (newActive serverIpAddr serverPortNo s)), ?_,
        rfl, rfl, rfl⟩
      rw [heap_mapClient, if_pos rfl, before, Option.map_some]
    · have listed := heap_listened (c := s.nextClient) (d := s.nextClient) (m := m)
        (s := connectedActive serverIpAddr serverPortNo portNo s)
      rw [if_pos rfl, before, Option.map_some, Option.map_some] at listed
      exact ⟨rfl, _, listed, rfl, rfl, rfl⟩

theorem requested_reconnect (active : client.activeOpener = true) (waiter : Option ThreadId) :
    Requested c client ⟨Request.reconnect.code, c, waiter⟩ .reconnect := by
  refine ⟨rfl, rfl, ?_⟩
  intro later done left connect found opener serverIpAddr serverPortNo ran
  obtain ⟨other, _, _, _, _, middle, deletes, creates⟩ := reconnect_runs rfl ran
  obtain rfl := Option.some.inj (found.symm.trans deletes.found)
  rw [FollowedUp, if_pos active, ← serverIpAddr, ← serverPortNo, ← deletes_nextClient deletes]
  exact creates_new creates

/-- A client that was not actively opened is only deleted by its own thread. -/
theorem requests_agree {request : Request} {msg₁ msg₂ : TcpServerMsg}
    (svc : (svcEnded c t).msgQ = s.msgQ ++ [msg₁]) (thread : (threadEnded c client t).msgQ = msg₂ :: s.msgQ)
    (same : t.msgQ = s.msgQ) (first : msg₁.code = request.code) (second : msg₂.code = request.code) :
    client.activeOpener = true := by
  have first' : msg₁.code = Request.reconnect.code := by
    have posted : t.msgQ ++ [⟨Request.reconnect.code, c, none⟩] = s.msgQ ++ [msg₁] := svc
    rw [same, List.append_cancel_left_eq, List.singleton_inj] at posted
    rw [← posted]
  have second' : msg₂.code = (if client.activeOpener then Request.reconnect else Request.delete).code :=
    (congrArg TcpServerMsg.code (List.cons.inj thread).1).symm
  rw [first, ← second, second'] at first'
  split_ifs at first' with active
  · exact active
  · cases first'

theorem eachRecv_append (body : Recv → Op Unit) (rs : List Recv) (r : Recv) (s : TcpServerController) :
    (eachRecv body (rs ++ [r])).exec s = ((eachRecv body rs).exec s).bind fun left => (body r).exec left.2 := by
  induction rs generalizing s with
  | nil =>
    change (body r >>= fun _ => eachRecv body []).exec s = (body r).exec s
    rw [exec_bind]
    cases (body r).exec s with
    | error fault => rfl
    | ok left => rfl
  | cons first rest ih =>
    rw [List.cons_append, eachRecv, eachRecv, exec_bind, exec_bind]
    cases (body first).exec s with
    | error fault => rfl
    | ok left => exact ih left.2

/-- Nothing but receipts comes of the bytes. -/
theorem receipts_eachRecv (going : ∀ r ∈ rs, ¬ r.Ended)
    (ran : (eachRecv (TcpClientServiceManager.receive c) rs).Runs s () t) :
    t.msgQ = s.msgQ ∧ t.clientDisconnected = s.clientDisconnected ∧
      ∃ receipts, t.calls = s.calls ++ receipts ∧ ∀ call ∈ receipts, Call.IsReceipt c call := by
  induction rs generalizing s with
  | nil =>
    obtain ⟨_, rfl⟩ := runs_pure.mp ran
    exact ⟨rfl, rfl, [], (List.append_nil _).symm, by simp⟩
  | cons r rs ih =>
    rw [eachRecv, runs_bind] at ran
    obtain ⟨_, middle, first, rest⟩ := ran
    obtain ⟨client, _, heard⟩ := receive_runs first
    rw [if_neg (going r List.mem_cons_self)] at heard
    obtain ⟨msgd, bytesRecvd, receipts⟩ := heard
    obtain ⟨msgQ, disconnected, later, appended, receipts'⟩ :=
      ih (fun r member => going r (List.mem_cons_of_mem _ member)) rest
    refine ⟨msgQ, disconnected, _, appended.trans (List.append_assoc ..), fun call member => ?_⟩
    exact (List.mem_append.mp member).elim (receipts call) (receipts' call)

/-- The stream may end before anything is received. -/
theorem pathsAgree_ended (found : s.heap c = some client) (registered : s.clientDisconnected = true)
    (ended : r.Ended) :
    PathsAgree c client [r] s ↔ EndsAgree c client s (svcEnded c s) (threadEnded c client s) := by
  have svc : (eachRecv (TcpClientServiceManager.receive c) [r]).exec s = .ok ((), svcEnded c s) := by
    rw [← List.nil_append [r], eachRecv_append]
    exact receive_ended found registered ended
  have thread : (eachRecv (TcpClient.clientThreadFunction c) [r]).exec s = .ok ((), threadEnded c client s) := by
    rw [← List.nil_append [r], eachRecv_append]
    exact clientThreadFunction_ended found registered ended
  constructor
  · rintro ⟨t₁, t₂, first, second, agree⟩
    cases svc.symm.trans first
    cases thread.symm.trans second
    exact agree
  · exact fun agree => ⟨_, _, svc, thread, agree⟩

/-- The two paths agree on a client if and only if it is an active opener and its demarcar, which
the factory made and which has been given `earlier` results, gets through the bytes. -/
theorem receivePaths {order : ByteOrder} {msgdType : TcpMsgDemarcarType} {fixedSize : UInt16}
    {earlier : List Recv}
    (found : s.heap c = some client) (registered : s.clientMsgRecvd = true ∧ s.clientDisconnected = true)
    (made : fedAll (madeMsgd order msgdType fixedSize) earlier = .ok client.msgd)
    (sizes : ∀ r ∈ earlier ++ rs, r.chunk.length ≤ maxClientBufferSize)
    (going : ∀ r ∈ earlier ++ rs, ¬ r.Ended) (ended : r.Ended) : PathsAgree c client (rs ++ [r]) s ↔
      client.activeOpener = true ∧ GetsThrough order msgdType fixedSize (bytesOf (earlier ++ rs)) := by
  have going' : ∀ r ∈ rs, ¬ r.Ended := fun r member => going r (List.mem_append_right _ member)
  obtain ⟨same, through⟩ := eachRecv_fed found registered.1 going'
  have fate : (fedAll (madeMsgd order msgdType fixedSize) (earlier ++ rs)).isOk = true ↔
      GetsThrough order msgdType fixedSize (bytesOf (earlier ++ rs)) := fedAll_made_iff sizes going
  rw [fedAll_append, made] at fate
  change (fedAll client.msgd rs).isOk = true ↔ _ at fate
  rw [← fate]
  cases decoded : fedAll client.msgd rs with
  | error cut =>
    rw [decoded] at through
    refine iff_of_false ?_ fun condition => Bool.false_ne_true condition.2
    rintro ⟨t₁, _, svc, _⟩
    rw [Runs, eachRecv_append, through] at svc
    cases svc
  | ok msgd =>
    rw [decoded] at through
    obtain ⟨t, n, ran, found', _⟩ := through
    obtain ⟨msgQ, disconnected, receipts, calls, receipt⟩ := receipts_eachRecv going' ran
    have registered' : t.clientDisconnected = true := disconnected.trans registered.2
    rw [Runs] at ran
    have svc : (eachRecv (TcpClientServiceManager.receive c) (rs ++ [r])).exec s = .ok ((), svcEnded c t) := by
      rw [eachRecv_append, ran]
      exact receive_ended found' registered' ended
    have thread : (eachRecv (TcpClient.clientThreadFunction c) (rs ++ [r])).exec s =
        .ok ((), threadEnded c (received msgd n client) t) := by
      rw [eachRecv_append, same, ran]
      exact clientThreadFunction_ended found' registered' ended
    constructor
    · rintro ⟨t₁, t₂, first, second, agree⟩
      cases svc.symm.trans first
      cases thread.symm.trans second
      obtain ⟨request, msg₁, msg₂, posted₁, posted₂, asked₁, asked₂⟩ := agree.request
      exact ⟨requests_agree posted₁ posted₂ msgQ asked₁.1 asked₂.1, rfl⟩
    · rintro ⟨active, _⟩
      refine ⟨_, _, svc, thread, (if_pos registered').symm, ⟨receipts, ?_, receipt⟩, ?_, ?_⟩
      · rw [← calls]
        rfl
      · rw [heap_threadEnded, if_pos rfl, Option.map_map]
        rfl
      · refine ⟨.reconnect, _, _, congrArg (· ++ _) msgQ, ?_, requested_reconnect active none,
          requested_reconnect active (some (.client c))⟩
        rw [threadEnded, msgQ]
        simp only [received, active, if_true]

end

/-- A server with one client. -/
def serverOf (client : TcpClient) : TcpServerController :=
  { TcpServerController.started 1 1 with
    heap := Function.update (fun _ => none) 0 (some client)
    nextClient := 1 }

/-- An active opener whose messages have variable sizes. -/
def framedClient : TcpClient := { activeOpener := true, msgd := madeMsgd .littleEndian .variableSize 0 }

/-- Both loops hand over a message of three bytes, keep the first byte of the next one, and come to the end. -/
theorem receivePaths_framed :
    PathsAgree 0 framedClient [.bytes [3, 0], .bytes [7, 4], .bytes []] (serverOf framedClient) := by
  have rest : (variableFraming .littleEndian).Splits [4] [] [4] := .rest rfl
  have split : (variableFraming .littleEndian).Splits [3, 0, 7, 4] [[3, 0, 7]] [4] := .message (n := 3) rfl rest
  have cut : GetsThrough .littleEndian .variableSize 0 (bytesOf ([] ++ [.bytes [3, 0], .bytes [7, 4]])) :=
    ⟨_, _, split, by decide, by decide⟩
  have found : (serverOf framedClient).heap 0 = some framedClient := rfl
  have made : fedAll (madeMsgd .littleEndian .variableSize 0) [] = .ok framedClient.msgd := rfl
  have sizes : ∀ r ∈ [] ++ [Recv.bytes [3, 0], .bytes [7, 4]], r.chunk.length ≤
      maxClientBufferSize := by decide
  have going : ∀ r ∈ [] ++ [Recv.bytes [3, 0], .bytes [7, 4]], ¬ r.Ended := by decide
  exact (receivePaths (r := .bytes []) found ⟨rfl, rfl⟩ made sizes going (by decide)).mpr ⟨rfl, cut⟩

/-- The service loop has a peer that left reconnected, its own thread has it deleted. -/
theorem departedPeer_reconnected :
    ¬ ∀ es t, Path TcpServerController.Step (.started 1 1) es t → ∀ c client r, t.heap c =
      some client → r.Ended → PathsAgree c client [r] t := by
  intro always
  have path : Path TcpServerController.Step (.started 1 1) [.accept 9 9, .processFront none] _ :=
    TcpServerController.stateAfter_unguarded rfl
  have agree := always _ _ path 0 _ (.bytes []) rfl (by decide)
  obtain ⟨request, msg₁, msg₂, posted₁, posted₂, first, second⟩ :=
    ((pathsAgree_ended rfl rfl (by decide)).mp agree).request
  have active := requests_agree posted₁ posted₂ rfl first.1 second.1
  exact absurd active (by decide)

end TcpServerLib.Soundness
