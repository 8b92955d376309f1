import TcpServerLib.Model.TcpClientDbManager

/-! # The service manager of the multiplexed clients -/

namespace TcpServerLib.Model

open Machine Prog

namespace TcpClientServiceManager

def removeClientFromDB (c : ClientRef) : Op Unit := do
  let _ ← derefSvcMgr
  update (.mapSvcMgr fun svcMgr => { svcMgr with tcpClientDb := remove c svcMgr.tcpClientDb })
  let _ ← TcpClient.dereference c

def addClientToDB (c : ClientRef) : Op Unit := do
  let _ ← derefSvcMgr
  update (.mapSvcMgr fun svcMgr => { svcMgr with tcpClientDb := svcMgr.tcpClientDb ++ [c] })
  TcpClient.reference c

/-- `CopyClientFDtoFDSet` into the backup set; `GetMaxFdSimple` reads the same descriptors. -/
def copyClientFDtoFDSet : List ClientRef → Op Unit
  | [] => return ()
  | c :: rest => do
    let _ ← deref c
    update (.mapSvcMgr fun svcMgr => { svcMgr with backupFdSet := svcMgr.backupFdSet ++ [c] })
    copyClientFDtoFDSet rest

/-- The service thread up to the `sem_post` its creator waits for. -/
def startTcpClientServiceManagerThreadInternalSimple : Op Unit := do
  let s ← read
  when (¬ s.notListeningClients) TcpClientDbManager.copyAllClientsTolist
  let svcMgr ← derefSvcMgr
  update (.mapSvcMgr fun svcMgr => { svcMgr with backupFdSet := [] })
  copyClientFDtoFDSet svcMgr.tcpClientDb
  update (.mapSvcMgr fun svcMgr => { svcMgr with activeFdSet := [], scan := [] })

def startTcpClientServiceManagerThread : Op Unit := do
  let _ ← derefSvcMgr
  update (.mapSvcMgr fun svcMgr => { svcMgr with thread := true })
  perform (.create .svcMgr)
  startTcpClientServiceManagerThreadInternalSimple

def stopTcpClientServiceManagerThread : Op Unit := do
  let svcMgr ← derefSvcMgr
  when svcMgr.thread do
    perform (.cancelJoin .svcMgr)
    update (.mapSvcMgr fun svcMgr => { svcMgr with thread := false })

def clientFDStartListenSimple (c : ClientRef) : Op Unit := do
  let _ ← derefSvcMgr
  let s ← read
  when (¬ s.notListeningClients) stopTcpClientServiceManagerThread
  let client ← deref c
  let svcMgr ← derefSvcMgr
  let found ← lookUpClientDB client.ipAddr client.portNo svcMgr.tcpClientDb
  assertThat (found = none)
  addClientToDB c
  modifyClient c fun client => { client with multiplexListen := true }
  let s ← read
  when (¬ s.notListeningClients) startTcpClientServiceManagerThread

def clientFDStopListenSimple (c : ClientRef) : Op Unit := do
  let _ ← derefSvcMgr
  let s ← read
  when (¬ s.notListeningClients) stopTcpClientServiceManagerThread
  let client ← deref c
  let svcMgr ← derefSvcMgr
  let found ← lookUpClientDB client.ipAddr client.portNo svcMgr.tcpClientDb
  assertThat (found ≠ none)
  removeClientFromDB c
  modifyClient c fun client => { client with multiplexListen := false }
  let s ← read
  when (¬ s.notListeningClients) startTcpClientServiceManagerThread

/-- The loop of `Purge` from an iterator on; see `TcpClientDbManager.purgeFrom`. -/
def purgeFrom : ℕ → List ClientRef → Op Unit
  | 0, _ => return ()
  | _ + 1, [] => return ()
  | fuel + 1, c :: rest => do
    update (.mapSvcMgr fun svcMgr => { svcMgr with tcpClientDb := remove c svcMgr.tcpClientDb })
    modifyClient c fun client => { client with multiplexListen := false }
    let _ ← TcpClient.dereference c
    if rest.head? = some c then .fail .danglingIterator
    else purgeFrom fuel (remove c rest)

def purge : Op Unit := do
  let svcMgr ← derefSvcMgr
  assertThat (svcMgr.thread = false)
  purgeFrom svcMgr.tcpClientDb.length svcMgr.tcpClientDb

/-- The destructor wants the list to be empty. -/
def stop : Op Unit := do
  stopTcpClientServiceManagerThread
  purge
  let svcMgr ← derefSvcMgr
  assertThat (svcMgr.tcpClientDb = [])

/-- One return of `select`, with what is left of its set. -/
def select (ready : List ClientRef) : Op Unit :=
  update (.mapSvcMgr fun svcMgr =>
    { svcMgr with
      activeFdSet := svcMgr.backupFdSet.filter (· ∈ ready)
      scan := svcMgr.tcpClientDb })

/-- What the service loop does with a result of `recvfrom`. The callback for a client that has
left is called without a test. -/
def receive (c : ClientRef) (r : Recv) : Op Unit := do
  let client ← deref c
  let s ← read
  if r.Ended then
    if s.clientDisconnected then
      notify (.clientDisconnected c)
      update (.mapSvcMgr fun svcMgr => { svcMgr with backupFdSet := remove c svcMgr.backupFdSet })
      enqueMsg .svcMgr [.reconnect] c false
    else .fail .nullDereference
  else
    modifyClient c fun client => { client with bytesRecvd := client.bytesRecvd + UInt32.ofNat r.chunk.length }
    match client.msgd with
    | some msgd => TcpClient.processMsg c msgd r.chunk
    | none => when s.clientMsgRecvd (notify (.clientMsgRecvd c r.chunk))

/-- One iteration of the loop over the clients. -/
def visit (r : Recv) : Op Unit := do
  let svcMgr ← derefSvcMgr
  match svcMgr.scan with
  | [] => return ()
  | c :: rest =>
    update (.mapSvcMgr fun svcMgr => { svcMgr with scan := rest })
    let _ ← deref c
    when (c ∈ svcMgr.activeFdSet) (receive c r)

end TcpClientServiceManager

end TcpServerLib.Model
