import TcpServerLib.Model.TcpClientServiceManager

/-! # The controller

The operations of `TcpServerController`, with the acceptor thread and the message queue thread.
Where an operation connects, the result of `connect` is an argument.
-/

namespace TcpServerLib.Model

open Machine Prog

namespace TcpServerController

def setClientCreationMode (status : Bool) : Op Unit :=
  update fun s => { s with createMultiThreaded := status }

def createMultiThreadedClient (c : ClientRef) : Op Unit := do
  let client ← deref c
  assertThat (client.clientThread = .null)
  TcpClient.startThread c

def clientFDStartListen (c : ClientRef) : Op Unit :=
  TcpClientServiceManager.clientFDStartListenSimple c

/-- The end of both ways to a connection: the client is served in the mode of the server. -/
def serveInCreationMode (c : ClientRef) : Op Unit := do
  let s ← read
  if s.createMultiThreaded then createMultiThreadedClient c
  else clientFDStartListen c

/-- `connectpendingClients.remove`, `establishedClient.push_back`. -/
def moveToEstablished (c : ClientRef) : Op Unit := do
  perform (.lock .connectDbRwlock)
  update fun s => { s with connectpendingClients := remove c s.connectpendingClients }
  update fun s => { s with establishedClient := s.establishedClient ++ [c] }
  perform (.unlock .connectDbRwlock)

/-- The overload that takes a key. -/
def processKeyDelete (ipAddr : UInt32) (portNo : UInt16) : Op Unit := do
  let found ← TcpClientDbManager.removeKeyFromDB ipAddr portNo
  match found with
  | none => return ()
  | some c =>
    let client ← deref c
    when (client.clientThread = .null) (TcpClientServiceManager.clientFDStopListenSimple c)

/-- The two branches of `ProcessClientDelete` for an active opener. -/
def removeActiveOpened (c : ClientRef) (connected : Bool) : Op Unit := do
  if connected then
    update fun s => { s with establishedClient := remove c s.establishedClient }
    let _ ← TcpClient.dereference c
  else
    update fun s => { s with connectpendingClients := remove c s.connectpendingClients }
    let _ ← TcpClient.dereference c

def processClientDelete (c : ClientRef) : Op Unit := do
  TcpClient.reference c
  let client ← deref c
  when client.passiveOpener (TcpClientDbManager.removeClientFromDB c)
  let client ← deref c
  when client.multiplexListen (TcpClientServiceManager.clientFDStopListenSimple c)
  let client ← deref c
  when (client.clientThread ≠ .null) (TcpClient.stopThread c)
  let client ← deref c
  when client.activeOpener do
    perform (.lock .connectDbRwlock)
    let client ← deref c
    removeActiveOpened c client.connected
    perform (.unlock .connectDbRwlock)
  let _ ← TcpClient.dereference c

def processClientMigrationToMultiThreaded (ipAddr : UInt32) (portNo : UInt16) : Op Unit := do
  let found ← TcpClientDbManager.lookUpClientDB_ThreadSafe ipAddr portNo
  match found with
  | none => return ()
  | some c =>
    let client ← deref c
    when (client.clientThread = .null) do
      TcpClientServiceManager.clientFDStopListenSimple c
      createMultiThreadedClient c

def processClientMigrationToMultiplex (ipAddr : UInt32) (portNo : UInt16) : Op Unit := do
  let found ← TcpClientDbManager.lookUpClientDB_ThreadSafe ipAddr portNo
  match found with
  | none => return ()
  | some c =>
    let client ← deref c
    when (client.clientThread ≠ .null) do
      TcpClient.stopThread c
      TcpClientServiceManager.clientFDStartListenSimple c

def createActiveClient (serverIpAddr : UInt32) (serverPortNo : UInt16) (connect : ConnectResult) : Op Unit := do
  let s ← read
  let c ← newClient { serverIpAddr, serverPortNo, ipAddr := s.ipAddr, activeOpener := true }
  perform (.lock .connectDbRwlock)
  update fun s => { s with connectpendingClients := s.connectpendingClients ++ [c] }
  perform (.unlock .connectDbRwlock)
  TcpClient.reference c
  let rc ← TcpClient.tryClientConnect c true connect
  when (rc = 0) do
    moveToEstablished c
    serveInCreationMode c

/-- What the acceptor does with a connection from a peer. -/
def acceptClient (ipAddr : UInt32) (portNo : UInt16) : Op Unit := do
  let s ← read
  let c ← newClient
    { ipAddr, portNo, serverIpAddr := s.ipAddr, serverPortNo := s.portNo, connected := true,
      passiveOpener := true }
  when s.clientConnected (notify (.clientConnected c))
  let s ← read
  if s.createMultiThreaded then enqueMsg .acceptor [.processNew, .createThreaded] c false
  else enqueMsg .acceptor [.processNew, .multiplexListen] c false

def processConnectSuccess (c : ClientRef) : Op Unit := do
  let client ← deref c
  assertThat (client.connectInProgress = false)
  assertThat (client.connected = true)
  assertThat (client.passiveOpener = false)
  assertThat (client.activeOpener = true)
  assertThat (client.multiplexListen = false)
  assertThat (client.threaded = false)
  moveToEstablished c
  serveInCreationMode c

/-- The last two tests of `ProcessMsgQMsg`. -/
def processThreadedAndSuccess (code : List CtrlrAction) (c : ClientRef) : Op Unit := do
  when (.createThreaded ∈ code) do
    let client ← deref c
    assertThat (client.threaded = false)
    createMultiThreadedClient c
  when (.activeConnectSuccess ∈ code) (processConnectSuccess c)

/-- `ProcessMsgQMsg` from the test for `MULTITHREADED_TO_MX` on, which may return early. -/
def processToMultiplex (code : List CtrlrAction) (c : ClientRef) : Op Unit := do
  if .multithreadedToMx ∈ code then
    let client ← deref c
    when (¬ client.multiplexListen) do
      when client.threaded (TcpClient.stopThread c)
      TcpClientServiceManager.clientFDStartListenSimple c
      processThreadedAndSuccess code c
  else processThreadedAndSuccess code c

/-- `ProcessMsgQMsg` from the test for `MX_TO_MULTITHREADED` on, which may return early. -/
def processToMultithreaded (code : List CtrlrAction) (c : ClientRef) : Op Unit := do
  if .mxToMultithreaded ∈ code then
    let client ← deref c
    when (¬ client.threaded) do
      when client.multiplexListen (TcpClientServiceManager.clientFDStopListenSimple c)
      createMultiThreadedClient c
      processToMultiplex code c
  else processToMultiplex code c

def processMsgQMsg (msg : TcpServerMsg) (connect : ConnectResult) : Op Unit := do
  let c := msg.data
  if .delete ∈ msg.code then processClientDelete c
  else
    when (.reconnect ∈ msg.code) do
      let client ← deref c
      processClientDelete c
      createActiveClient client.serverIpAddr client.serverPortNo connect
    when (.processNew ∈ msg.code) (TcpClientDbManager.addClientToDB c)
    when (.multiplexListen ∈ msg.code) do
      let client ← deref c
      assertThat (client.multiplexListen = false)
      TcpClientServiceManager.clientFDStartListenSimple c
    processToMultithreaded msg.code c

/-- A thread that still waits for its message goes on to `assert(0)` when it is woken. -/
def postZeroSema (msg : TcpServerMsg) : Op Unit := do
  match msg.zeroSema with
  | some (.client c) =>
    let s ← read
    assertThat ((s.heap c).map (·.clientThread) ≠ some .waiting)
  | _ => return ()

/-- One message of `MsgQProcessingThreadFn`. -/
def processFront (connect : ConnectResult) : Op Unit := do
  let s ← exchange fun s => { s with msgQ := s.msgQ.tail }
  match s.msgQ with
  | [] => return ()
  | msg :: _ =>
    processMsgQMsg msg connect
    postZeroSema msg

def stopConnectionsAcceptorSvc : Op Unit := do
  let s ← read
  when (¬ s.notAcceptingNewConnections) do
    update fun s => { s with notAcceptingNewConnections := true }
    if s.tcpNewConnAcc then
      perform (.cancelJoin .acceptor)
      update fun s => { s with tcpNewConnAcc := false }
    else .fail .nullDereference

def startConnectionsAcceptorSvc : Op Unit := do
  let s ← read
  when s.notAcceptingNewConnections do
    update fun s => { s with notAcceptingNewConnections := false }
    update fun s => { s with tcpNewConnAcc := true }
    perform (.create .acceptor)

def stopClientSvcMgr : Op Unit := do
  let s ← read
  when (¬ s.notListeningClients) do
    TcpClientServiceManager.stop
    update fun s => { s with notListeningClients := true }
    update fun s => { s with tcpClientSvcMgr := none }

def startClientSvcMgr : Op Unit := do
  let s ← read
  when s.notListeningClients do
    update fun s => { s with tcpClientSvcMgr := some {} }
    TcpClientServiceManager.startTcpClientServiceManagerThread
    update fun s => { s with notListeningClients := false }

/-- `while (!this->connectpendingClients.empty ())`. -/
def stopPending : ℕ → Op Unit
  | 0 => return ()
  | fuel + 1 => do
    let s ← read
    match s.connectpendingClients with
    | [] => return ()
    | c :: _ =>
      let client ← deref c
      assertThat (client.connectInProgress = true)
      TcpClient.stopConnectorThread c
      update fun s => { s with connectpendingClients := s.connectpendingClients.tail }
      let _ ← TcpClient.dereference c
      stopPending fuel

/-- `while (!this->establishedClient.empty ())`. -/
def stopEstablished : ℕ → Op Unit
  | 0 => return ()
  | fuel + 1 => do
    let s ← read
    match s.establishedClient with
    | [] => return ()
    | c :: _ =>
      let client ← deref c
      assertThat (client.connected = true)
      when client.threaded (TcpClient.stopThread c)
      update fun s => { s with establishedClient := s.establishedClient.tail }
      let _ ← TcpClient.dereference c
      stopEstablished fuel

/-- `Stop` up to `delete this`. -/
def closeDown : Op Unit := do
  let s ← read
  when s.tcpNewConnAcc do
    perform (.cancelJoin .acceptor)
    update fun s => { s with tcpNewConnAcc := false }
    update fun s => { s with notAcceptingNewConnections := true }
  let s ← read
  when s.tcpClientSvcMgr.isSome do
    TcpClientServiceManager.stop
    update fun s => { s with tcpClientSvcMgr := none }
    update fun s => { s with notListeningClients := true }
  TcpClientDbManager.purge
  let s ← read
  assertThat (s.tcpClientDb = [])
  perform (.lock .connectDbRwlock)
  let s ← read
  stopPending s.connectpendingClients.length
  let s ← read
  stopEstablished s.establishedClient.length
  perform (.unlock .connectDbRwlock)

/-- The queue is a member of the controller and goes with it. -/
def stop : Op Unit := do
  closeDown
  update fun s => { s with deleted := true, msgQ := [] }

end TcpServerController

end TcpServerLib.Model
