import Mathlib.Data.Int.Notation
import Mathlib.Logic.Function.Basic
import TcpServerLib.Machine.Program
import TcpServerLib.Model.TcpMsgDemarcar

/-! # The state of a server

Clients live in a heap indexed by their pointers. A pointer without a client is one that was never
handed out or whose client has been destroyed; pointers are not reused, so that a destroyed client
stays recognisable. A set of descriptors is kept as the list of the clients they belong to, since
an open descriptor belongs to one client.

The code is written once, as programs over this state. Whatever a program does to another thread
or to a lock is a `Sync` action, of which the state knows nothing.
-/

namespace TcpServerLib.Model

open Machine

abbrev ClientRef := ℕ

/-- What ends the process, or leaves it in a state the language gives no meaning to. -/
inductive Fault where
  | assertion
  | nullDereference
  | useAfterFree
  | danglingIterator
  | demarcar (cut : Cut Trap)
deriving DecidableEq, Repr

inductive ThreadId where
  | msgQ
  | svcMgr
  | acceptor
  | client (c : ClientRef)
  | connector (c : ClientRef)
  | application
deriving DecidableEq, Repr

inductive Lock where
  | msgqMutex
  | clientDbRwlock
  | connectDbRwlock
deriving DecidableEq, Repr

inductive Sync where
  | lock (l : Lock)
  | unlock (l : Lock)
  | create (t : ThreadId)
  | cancelJoin (t : ThreadId)
  | semWait
  | threadExit
deriving DecidableEq, Repr

/-- The thread behind `client_thread`: it receives, or it waits until its last message has been
processed. -/
inductive ClientThread where
  | null
  | receiving
  | waiting
deriving DecidableEq, Repr

/-- The thread behind `active_connect_thread`: it retries, or it has posted its success and is
about to exit. -/
inductive ConnectThread where
  | null
  | retrying
  | posted
deriving DecidableEq, Repr

structure Msgd where
  ops : DemarcarOps
  demarcar : TcpMsgDemarcar

/-- The fields a `new TcpClient ()` leaves unset are zero. -/
structure TcpClient where
  ipAddr : UInt32 := 0
  portNo : UInt16 := 0
  serverIpAddr : UInt32 := 0
  serverPortNo : UInt16 := 0
  refCount : ℕ := 0
  connectInProgress : Bool := false
  connected : Bool := false
  passiveOpener : Bool := false
  activeOpener : Bool := false
  multiplexListen : Bool := false
  threaded : Bool := false
  clientThread : ClientThread := .null
  activeConnectThread : ConnectThread := .null
  msgd : Option Msgd := none
  bytesRecvd : UInt32 := 0

inductive CtrlrAction where
  | processNew
  | multiplexListen
  | delete
  | mxToMultithreaded
  | multithreadedToMx
  | createThreaded
  | activeConnectSuccess
  | reconnect
deriving DecidableEq, Repr

/-- The semaphore of a blocking `EnqueMsg` is on the stack of the thread that called it. -/
structure TcpServerMsg where
  code : List CtrlrAction
  data : ClientRef
  zeroSema : Option ThreadId
deriving DecidableEq, Repr

/-- What the application and the demarcars of the clients are told. -/
inductive Call where
  | clientConnected (c : ClientRef)
  | clientMsgRecvd (c : ClientRef) (msg : Bytes)
  | clientDisconnected (c : ClientRef)
  | processMsg (c : ClientRef) (chunk : Bytes)
deriving DecidableEq, Repr

/-- `scan` is what the iterator of the service loop has still before it. -/
structure TcpClientServiceManager where
  tcpClientDb : List ClientRef := []
  thread : Bool := false
  backupFdSet : List ClientRef := []
  activeFdSet : List ClientRef := []
  scan : List ClientRef := []
deriving DecidableEq, Repr

structure TcpServerController where
  ipAddr : UInt32
  portNo : UInt16
  /-- Which callbacks are registered. -/
  clientConnected : Bool := true
  clientDisconnected : Bool := true
  clientMsgRecvd : Bool := true
  notAcceptingNewConnections : Bool := false
  notListeningClients : Bool := false
  createMultiThreaded : Bool := false
  heap : ClientRef → Option TcpClient := fun _ => none
  nextClient : ClientRef := 0
  tcpNewConnAcc : Bool := false
  tcpClientSvcMgr : Option TcpClientServiceManager := none
  tcpClientDb : List ClientRef := []
  establishedClient : List ClientRef := []
  connectpendingClients : List ClientRef := []
  msgQ : List TcpServerMsg := []
  calls : List Call := []
  deleted : Bool := false

abbrev Op := Prog TcpServerController Fault Sync

/-- `std::list::remove`: every occurrence goes. -/
def remove (c : ClientRef) (list : List ClientRef) : List ClientRef :=
  list.filter (· ≠ c)

namespace TcpServerController

def mapClient (c : ClientRef) (f : TcpClient → TcpClient) (s : TcpServerController) : TcpServerController :=
  { s with heap := Function.update s.heap c ((s.heap c).map f) }

def freeClient (c : ClientRef) (s : TcpServerController) : TcpServerController :=
  { s with heap := Function.update s.heap c none }

def mapSvcMgr (f : TcpClientServiceManager → TcpClientServiceManager) (s : TcpServerController) :
    TcpServerController :=
  { s with tcpClientSvcMgr := s.tcpClientSvcMgr.map f }

end TcpServerController

section

open Prog

def assertThat (condition : Prop) [Decidable condition] : Op Unit :=
  if condition then pure () else .fail .assertion

/-- Every access to a client through a pointer. -/
def deref (c : ClientRef) : Op TcpClient := do
  let s ← read
  match s.heap c with
  | some client => pure client
  | none => .fail .useAfterFree

def modifyClient (c : ClientRef) (f : TcpClient → TcpClient) : Op Unit := do
  let _ ← deref c
  update (.mapClient c f)

def newClient (client : TcpClient) : Op ClientRef := do
  let s ← exchange fun s =>
    { s with heap := Function.update s.heap s.nextClient (some client), nextClient := s.nextClient + 1 }
  return s.nextClient

/-- The call of a method through `tcp_client_svc_mgr`. -/
def derefSvcMgr : Op TcpClientServiceManager := do
  let s ← read
  match s.tcpClientSvcMgr with
  | some svcMgr => pure svcMgr
  | none => .fail .nullDereference

def notify (call : Call) : Op Unit :=
  update fun s => { s with calls := s.calls ++ [call] }

/-- `EnqueMsg`. A blocking caller goes to the front of the queue. -/
def enqueMsg (caller : ThreadId) (code : List CtrlrAction) (data : ClientRef) (blockMe : Bool) : Op Unit := do
  perform (.lock .msgqMutex)
  update fun s =>
    { s with
      msgQ := if blockMe then ⟨code, data, some caller⟩ :: s.msgQ else s.msgQ ++ [⟨code, data, none⟩] }
  perform (.unlock .msgqMutex)
  when blockMe (perform .semWait)

end

end TcpServerLib.Model
