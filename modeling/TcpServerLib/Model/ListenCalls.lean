import TcpServerLib.Machine.Actions
import TcpServerLib.Machine.Path
import TcpServerLib.Model.TcpServerController

/-! # Concurrent calls of the service manager

`ClientFDStartListenSimple` and `ClientFDStopListenSimple` stop the service thread, edit the list
and start the thread again, without a lock. Any number of threads may be inside such a call, each
before one of the three steps. A service thread that is created is one that was not there before,
and `pthread_join` waits for the thread that `*client_svc_mgr_thread` names.
-/

namespace TcpServerLib.Model

open Machine Prog

inductive ListenCall where
  | start (c : ClientRef)
  | stop (c : ClientRef)
deriving DecidableEq, Repr

inductive ListenStep where
  | stopThread
  | editList
  | startThread
deriving DecidableEq, Repr

namespace ListenStep

def stop : Op Unit := do
  let _ ← derefSvcMgr
  let s ← read
  when (¬ s.notListeningClients) TcpClientServiceManager.stopTcpClientServiceManagerThread

def edit : ListenCall → Op Unit
  | .start c => do
    let client ← deref c
    let svcMgr ← derefSvcMgr
    let found ← lookUpClientDB client.ipAddr client.portNo svcMgr.tcpClientDb
    assertThat (found = none)
    TcpClientServiceManager.addClientToDB c
    modifyClient c fun client => { client with multiplexListen := true }
  | .stop c => do
    let client ← deref c
    let svcMgr ← derefSvcMgr
    let found ← lookUpClientDB client.ipAddr client.portNo svcMgr.tcpClientDb
    assertThat (found ≠ none)
    TcpClientServiceManager.removeClientFromDB c
    modifyClient c fun client => { client with multiplexListen := false }

def start : Op Unit := do
  let s ← read
  when (¬ s.notListeningClients) TcpClientServiceManager.startTcpClientServiceManagerThread

def op (call : ListenCall) : ListenStep → Op Unit
  | .stopThread => stop
  | .editList => edit call
  | .startThread => start

def next : ListenStep → Option ListenStep
  | .stopThread => some .editList
  | .editList => some .startThread
  | .startThread => none

end ListenStep

def ListenCall.op : ListenCall → Op Unit
  | .start c => TcpClientServiceManager.clientFDStartListenSimple c
  | .stop c => TcpClientServiceManager.clientFDStopListenSimple c

/-- A call is its three steps. -/
theorem ListenCall.op_eq (call : ListenCall) :
    call.op = (do
      ListenStep.stopThread.op call
      ListenStep.editList.op call
      ListenStep.startThread.op call) := by
  cases call <;>
    simp only [ListenCall.op, ListenStep.op, ListenStep.stop, ListenStep.edit, ListenStep.start, bind_assoc,
      TcpClientServiceManager.clientFDStartListenSimple, TcpClientServiceManager.clientFDStopListenSimple]

/-- The service threads, numbered as they are created. -/
structure ServiceThreads where
  running : List ℕ
  /-- What `*client_svc_mgr_thread` names. -/
  designated : Option ℕ
  created : ℕ
deriving DecidableEq, Repr

namespace ServiceThreads

def act (threads : ServiceThreads) : Sync → ServiceThreads
  | .create .svcMgr => ⟨threads.created :: threads.running, some threads.created, threads.created + 1⟩
  | .cancelJoin .svcMgr =>
    { threads with running := threads.running.filter (some · ≠ threads.designated), designated := none }
  | _ => threads

end ServiceThreads

/-- `calls` tells the call a thread is in, and the step before it. -/
structure ListenRun where
  server : TcpServerController
  threads : ServiceThreads
  calls : ThreadId → Option (ListenCall × ListenStep)

inductive ListenEvent where
  | call (t : ThreadId) (call : ListenCall)
  | step (t : ThreadId)
deriving DecidableEq, Repr

namespace ListenRun

/-- Nobody is in a call. -/
def started (s : TcpServerController) : ListenRun where
  server := s
  threads := if s.tcpClientSvcMgr.any (·.thread) then ⟨[0], some 0, 1⟩ else ⟨[], none, 0⟩
  calls _ := none

inductive Step : ListenRun → ListenEvent → ListenRun → Prop
  | call {r : ListenRun} {t : ThreadId} (idle : r.calls t = none) (call : ListenCall) :
      Step r (.call t call) { r with calls := Function.update r.calls t (some (call, .stopThread)) }
  | step {r : ListenRun} {t : ThreadId} {call : ListenCall} {before : ListenStep} {s : TcpServerController}
      (inside : r.calls t = some (call, before)) (ran : (before.op call).Runs r.server () s) :
      Step r (.step t)
        { server := s
          threads := ((before.op call).actions r.server).foldl .act r.threads
          calls := Function.update r.calls t (before.next.map (call, ·)) }

end ListenRun

end TcpServerLib.Model
