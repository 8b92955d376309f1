import TcpServerLib.Machine.Actions
import TcpServerLib.Model.Run

/-! # The administration of a server

The operations the command line offers on a server it has created. The constructor allocates the
objects of the services and room for their `pthread_t`; `Start` creates the threads.
-/

namespace TcpServerLib.Model

open Machine Prog

namespace TcpServerController

/-- The server after its constructor. -/
def created (ipAddr : UInt32) (portNo : UInt16) : TcpServerController where
  ipAddr
  portNo
  tcpNewConnAcc := true
  tcpClientSvcMgr := some { thread := true }

/-- The database manager is there until `Stop`. -/
def start : Op Unit := do
  let s ← read
  assertThat (s.tcpNewConnAcc = true)
  assertThat (s.tcpClientSvcMgr.isSome = true)
  let s ← read
  when (¬ s.notAcceptingNewConnections) (perform (.create .acceptor))
  let s ← read
  when (¬ s.notListeningClients) TcpClientServiceManager.startTcpClientServiceManagerThread
  perform (.create .msgQ)

end TcpServerController

inductive AdminOp where
  | start
  | stop
  | stopConnectionsAcceptorSvc
  | startConnectionsAcceptorSvc
  | stopClientSvcMgr
  | startClientSvcMgr
deriving DecidableEq, Repr

def AdminOp.op : AdminOp → Op Unit
  | .start => TcpServerController.start
  | .stop => TcpServerController.stop
  | .stopConnectionsAcceptorSvc => TcpServerController.stopConnectionsAcceptorSvc
  | .startConnectionsAcceptorSvc => TcpServerController.startConnectionsAcceptorSvc
  | .stopClientSvcMgr => TcpServerController.stopClientSvcMgr
  | .startClientSvcMgr => TcpServerController.startClientSvcMgr

/-- One command after the other. A server that has been stopped is not in `tcp_server_lst` any more,
and commands for it do nothing. -/
def administer : List AdminOp → Op Unit
  | [] => return ()
  | a :: rest => do
    let s ← read
    when (¬ s.deleted) a.op
    administer rest

/-- The actions that bear on threads. -/
def Sync.threadAct : Sync → Option (ThreadAct ThreadId)
  | .create t => some (.create t)
  | .cancelJoin t => some (.join t)
  | _ => none

end TcpServerLib.Model
