import TcpServerLib.Model.Run

/-! # The service loops of a process

Each server of a process has a service loop, and all of the loops receive into one static buffer. A
loop takes two steps for a client: it receives, and it delivers what it then finds in the buffer. A
`visit` of `Event` is the two of them with nothing in between.
-/

namespace TcpServerLib.Model

open Machine Prog

/-- The loop finds its next client, which it receives from when its descriptor is set. -/
def TcpClientServiceManager.nextReady : Op (Option ClientRef) := do
  let svcMgr ← derefSvcMgr
  match svcMgr.scan with
  | [] => return none
  | c :: rest =>
    update (.mapSvcMgr fun svcMgr => { svcMgr with scan := rest })
    let _ ← deref c
    return if c ∈ svcMgr.activeFdSet then some c else none

/-- What `recvfrom` leaves in the buffer. -/
def Recv.store (r : Recv) (buffer : Bytes) : Bytes :=
  r.chunk ++ buffer.drop r.chunk.length

/-- What `rcv_bytes` and the buffer say has been received. -/
def Recv.load (rcvBytes : ℤ) (buffer : Bytes) : Recv :=
  if rcvBytes < 0 then .failed else .bytes (buffer.take rcvBytes.toNat)

/-- A server with the locals of its loop and what the loop has done so far. -/
structure ServiceLoop where
  server : TcpServerController
  /-- `tcp_client` and `rcv_bytes`, between the two steps. -/
  inHand : Option (ClientRef × ℤ) := none
  received : List (ClientRef × Recv) := []
  delivered : List (ClientRef × Recv) := []

structure Process (ι : Type) where
  commonRecvBuffer : Bytes
  loops : ι → ServiceLoop

inductive LoopEvent where
  | recvfrom (r : Recv)
  | skip
  | deliver
  | other (e : Event)
deriving DecidableEq, Repr

/-- `other` is a step of another thread of the server. -/
inductive ServiceLoop.Step : Bytes → ServiceLoop → LoopEvent → Bytes → ServiceLoop → Prop
  | recvfrom {buffer : Bytes} {loop : ServiceLoop} {r : Recv} {c : ClientRef} {server : TcpServerController} :
      loop.inHand = none → r.chunk.length ≤ buffer.length → (Event.visit r).Enabled loop.server →
      TcpClientServiceManager.nextReady.Runs loop.server (some c) server →
      Step buffer loop (.recvfrom r) (r.store buffer)
        { loop with server, inHand := some (c, r.rcvBytes), received := loop.received ++ [(c, r)] }
  | skip {buffer : Bytes} {loop : ServiceLoop} {server : TcpServerController} :
      loop.inHand = none → (Event.visit .failed).Enabled loop.server →
      TcpClientServiceManager.nextReady.Runs loop.server none server →
      Step buffer loop .skip buffer { loop with server }
  | deliver {buffer : Bytes} {loop : ServiceLoop} {c : ClientRef} {rcvBytes : ℤ}
      {server : TcpServerController} :
      loop.inHand = some (c, rcvBytes) →
      (TcpClientServiceManager.receive c (.load rcvBytes buffer)).Runs loop.server () server →
      Step buffer loop .deliver buffer
        { loop with server, inHand := none, delivered := loop.delivered ++ [(c, .load rcvBytes buffer)] }
  | other {buffer : Bytes} {loop : ServiceLoop} {e : Event} {server : TcpServerController} :
      (∀ r, e ≠ .visit r) → TcpServerController.Step loop.server e server →
      Step buffer loop (.other e) buffer { loop with server }

/-- One step of the loop of one server. -/
def Process.Step {ι : Type} [DecidableEq ι] (p : Process ι) (e : ι × LoopEvent) (q : Process ι) : Prop :=
  ∃ buffer loop, (p.loops e.1).Step p.commonRecvBuffer e.2 buffer loop ∧
    q = ⟨buffer, Function.update p.loops e.1 loop⟩

/-- `static unsigned char common_recv_buffer[CLIENT_RECV_BUFFER_SIZE]`, and servers whose loops are
about to begin. -/
def Process.started {ι : Type} (servers : ι → TcpServerController) : Process ι :=
  ⟨List.replicate 1024 0, fun i => { server := servers i }⟩

end TcpServerLib.Model
