import TcpServerLib.Model.Server

/-! # Clients -/

namespace TcpServerLib.Model

open Machine Prog

/-- A result of `recvfrom`. -/
inductive Recv where
  | bytes (chunk : Bytes)
  | failed
deriving DecidableEq, Repr

def Recv.rcvBytes : Recv → ℤ
  | .bytes chunk => chunk.length
  | .failed => -1

def Recv.chunk : Recv → Bytes
  | .bytes chunk => chunk
  | .failed => []

/-- The test of both receive loops for the end of the stream. -/
def Recv.Ended (r : Recv) : Prop :=
  r.rcvBytes = 0 ∨ r.rcvBytes = 65535 ∨ r.rcvBytes < 0

instance (r : Recv) : Decidable r.Ended :=
  inferInstanceAs (Decidable (_ ∨ _ ∨ _))

/-- The fuel is enough for every loop of `ProcessClientMsg` that ends: an iteration that removes
nothing is repeated for ever. -/
def processMsgFuel : ℕ := defaultCbcSize.toNat + 1

/-- The result of `connect` on a fresh socket: the local port, or a failure. -/
abbrev ConnectResult := Option UInt16

namespace TcpClient

/-- The assertions are those of `Abort` and of the destructor. -/
def abort (c : ClientRef) : Op Unit := do
  let client ← deref c
  assertThat (client.clientThread = .null)
  assertThat (client.activeConnectThread = .null)
  assertThat (client.refCount = 0)
  update (.freeClient c)

def reference (c : ClientRef) : Op Unit :=
  modifyClient c fun client => { client with refCount := client.refCount + 1 }

/-- Whether the client is still there, for the callers that use the pointer `Dereference` returns. -/
def dereference (c : ClientRef) : Op Bool := do
  let client ← deref c
  if client.refCount = 0 then
    abort c
    return false
  else
    modifyClient c fun client => { client with refCount := client.refCount - 1 }
    let client ← deref c
    if client.refCount ≠ 0 then return true
    else
      abort c
      return false

/-- `msgd->ProcessMsg`, with the calls of `client_msg_recvd` that come out of it. -/
def processMsg (c : ClientRef) (msgd : Msgd) (chunk : Bytes) : Op Unit := do
  notify (.processMsg c chunk)
  match msgd.demarcar.processMsg msgd.ops processMsgFuel chunk (UInt16.ofNat chunk.length) with
  | .error cut => .fail (.demarcar cut)
  | .ok (messages, demarcar) =>
    let s ← read
    if messages ≠ [] ∧ ¬ s.clientMsgRecvd then .fail .nullDereference
    else
      update fun s => { s with calls := s.calls ++ messages.map (.clientMsgRecvd c) }
      modifyClient c fun client => { client with msgd := some { msgd with demarcar } }

/-- What the thread of a client does with a result of `recvfrom`. The `assert(0)` behind a
blocking `EnqueMsg` is reached when the semaphore is posted to a thread that still exists. -/
def clientThreadFunction (c : ClientRef) (r : Recv) : Op Unit := do
  let client ← deref c
  let s ← read
  if r.Ended then
    when s.clientDisconnected (notify (.clientDisconnected c))
    modifyClient c fun client => { client with clientThread := .waiting }
    if client.activeOpener then enqueMsg (.client c) [.reconnect] c true
    else enqueMsg (.client c) [.delete] c true
  else
    match client.msgd with
    | some msgd =>
      modifyClient c fun client => { client with bytesRecvd := client.bytesRecvd + UInt32.ofNat r.chunk.length }
      processMsg c msgd r.chunk
    | none =>
      when s.clientMsgRecvd do
        modifyClient c fun client => { client with bytesRecvd := client.bytesRecvd + UInt32.ofNat r.chunk.length }
        notify (.clientMsgRecvd c r.chunk)

/-- The new thread takes its reference before the caller goes on. -/
def startThread (c : ClientRef) : Op Unit := do
  let client ← deref c
  assertThat (client.clientThread = .null)
  modifyClient c fun client => { client with clientThread := .receiving }
  modifyClient c fun client => { client with threaded := true }
  perform (.create (.client c))
  reference c

def stopThread (c : ClientRef) : Op Unit := do
  let client ← deref c
  assertThat (client.clientThread ≠ .null)
  perform (.cancelJoin (.client c))
  modifyClient c fun client => { client with clientThread := .null }
  modifyClient c fun client => { client with threaded := false }
  let _ ← dereference c

def stopConnectorThread (c : ClientRef) : Op Unit := do
  let client ← deref c
  assertThat (client.activeConnectThread ≠ .null)
  perform (.cancelJoin (.connector c))
  modifyClient c fun client => { client with activeConnectThread := .null }
  modifyClient c fun client => { client with connectInProgress := false }
  let _ ← dereference c

/-- What a successful `connect` brings about, in `TryClientConnect` and in `connect_retry_fn`. -/
def connectSucceeded (c : ClientRef) (portNo : UInt16) : Op Unit := do
  modifyClient c fun client => { client with connectInProgress := false }
  modifyClient c fun client => { client with connected := true }
  modifyClient c fun client => { client with portNo }
  let s ← read
  when s.clientConnected (notify (.clientConnected c))

/-- The retry thread between a `connect` that succeeds and the end of `EnqueMsg`. -/
def connectRetryPost (c : ClientRef) (portNo : UInt16) : Op Unit := do
  connectSucceeded c portNo
  enqueMsg (.connector c) [.activeConnectSuccess] c false
  modifyClient c fun client => { client with activeConnectThread := .posted }

def connectRetryExit (c : ClientRef) : Op Unit := do
  modifyClient c fun client => { client with activeConnectThread := .null }
  let _ ← dereference c
  perform .threadExit

def connectRetryFn (c : ClientRef) (portNo : UInt16) : Op Unit := do
  connectRetryPost c portNo
  connectRetryExit c

def tryClientConnect (c : ClientRef) (tryAgain : Bool) (connect : ConnectResult) : Op ℤ := do
  let client ← deref c
  assertThat (client.activeConnectThread = .null)
  assertThat (client.ipAddr ≠ 0)
  assertThat (client.portNo = 0)
  assertThat (client.serverIpAddr ≠ 0)
  assertThat (client.serverPortNo ≠ 0)
  modifyClient c fun client => { client with connectInProgress := true }
  match connect with
  | some portNo =>
    connectSucceeded c portNo
    return 0
  | none =>
    if tryAgain then
      modifyClient c fun client => { client with activeConnectThread := .retrying }
      reference c
      perform (.create (.connector c))
      return 1
    else return -1

end TcpClient

end TcpServerLib.Model
