import TcpServerLib.Model.TcpClient

/-! # The client database -/

namespace TcpServerLib.Model

open Machine Prog

/-- The search of both managers for a key, in their own list. -/
def lookUpClientDB (ipAddr : UInt32) (portNo : UInt16) : List ClientRef → Op (Option ClientRef)
  | [] => return none
  | c :: rest => do
    let client ← deref c
    if client.ipAddr = ipAddr ∧ client.portNo = portNo then return some c
    else lookUpClientDB ipAddr portNo rest

namespace TcpClientDbManager

def lookUpClientDB_ThreadSafe (ipAddr : UInt32) (portNo : UInt16) : Op (Option ClientRef) := do
  perform (.lock .clientDbRwlock)
  let s ← read
  let found ← lookUpClientDB ipAddr portNo s.tcpClientDb
  perform (.unlock .clientDbRwlock)
  return found

def addClientToDB (c : ClientRef) : Op Unit := do
  perform (.lock .clientDbRwlock)
  let client ← deref c
  let s ← read
  let found ← lookUpClientDB client.ipAddr client.portNo s.tcpClientDb
  assertThat (found = none)
  update fun s => { s with tcpClientDb := s.tcpClientDb ++ [c] }
  TcpClient.reference c
  perform (.unlock .clientDbRwlock)

def removeClientFromDB (c : ClientRef) : Op Unit := do
  perform (.lock .clientDbRwlock)
  update fun s => { s with tcpClientDb := remove c s.tcpClientDb }
  let _ ← TcpClient.dereference c
  perform (.unlock .clientDbRwlock)

/-- The overload that takes a key returns what `Dereference` leaves of the client. -/
def removeKeyFromDB (ipAddr : UInt32) (portNo : UInt16) : Op (Option ClientRef) := do
  perform (.lock .clientDbRwlock)
  let s ← read
  let found ← lookUpClientDB ipAddr portNo s.tcpClientDb
  match found with
  | none =>
    perform (.unlock .clientDbRwlock)
    return none
  | some c =>
    update fun s => { s with tcpClientDb := remove c s.tcpClientDb }
    let left ← TcpClient.dereference c
    perform (.unlock .clientDbRwlock)
    return if left then some c else none

def copyClientsTolist : List ClientRef → Op Unit
  | [] => return ()
  | c :: rest => do
    update (.mapSvcMgr fun svcMgr => { svcMgr with tcpClientDb := svcMgr.tcpClientDb ++ [c] })
    TcpClient.reference c
    copyClientsTolist rest

/-- `CopyAllClientsTolist`, whose only argument is ever the list of the service manager. -/
def copyAllClientsTolist : Op Unit := do
  perform (.lock .clientDbRwlock)
  let s ← read
  copyClientsTolist s.tcpClientDb
  perform (.unlock .clientDbRwlock)

/-- The loop of `Purge` from an iterator on. The iterator has been advanced to the next cell when
`list::remove` is called, and is lost if that cell holds the same client. -/
def purgeFrom : ℕ → List ClientRef → Op Unit
  | 0, _ => return ()
  | _ + 1, [] => return ()
  | fuel + 1, c :: rest => do
    let client ← deref c
    when (client.clientThread ≠ .null) (TcpClient.stopThread c)
    update fun s => { s with tcpClientDb := remove c s.tcpClientDb }
    let _ ← TcpClient.dereference c
    if rest.head? = some c then .fail .danglingIterator
    else purgeFrom fuel (remove c rest)

def purge : Op Unit := do
  perform (.lock .clientDbRwlock)
  let s ← read
  purgeFrom s.tcpClientDb.length s.tcpClientDb
  perform (.unlock .clientDbRwlock)

end TcpClientDbManager

end TcpServerLib.Model
