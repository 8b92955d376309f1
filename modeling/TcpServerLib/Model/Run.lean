import TcpServerLib.Machine.Path
import TcpServerLib.Model.TcpServerController

/-! # Runs of a server

An event is one step of one of the threads, or one call by the application. `EnqueMsg` and the
processing of a message are atomic, and so is everything else a thread does between two waits.
-/

namespace TcpServerLib.Model

open Machine Prog

inductive Event where
  | accept (ipAddr : UInt32) (portNo : UInt16)
  | processFront (connect : ConnectResult)
  | connectRetryPost (c : ClientRef) (portNo : UInt16)
  | connectRetryExit (c : ClientRef)
  | select (ready : List ClientRef)
  | visit (r : Recv)
  | clientThread (c : ClientRef) (r : Recv)
  | createActiveClient (serverIpAddr : UInt32) (serverPortNo : UInt16) (connect : ConnectResult)
  | migrateToMultiThreaded (ipAddr : UInt32) (portNo : UInt16)
  | migrateToMultiplex (ipAddr : UInt32) (portNo : UInt16)
  | requestMigration (toThreaded : Bool) (c : ClientRef)
  | deleteKey (ipAddr : UInt32) (portNo : UInt16)
  | deleteClient (c : ClientRef)
  | startListen (c : ClientRef)
  | stopListen (c : ClientRef)
  | setClientCreationMode (status : Bool)
  | stopClientSvcMgr
  | startClientSvcMgr
  | stopConnectionsAcceptorSvc
  | startConnectionsAcceptorSvc
  | stop
deriving DecidableEq, Repr

namespace Event

/-- The thread that takes the step is there. A retry thread that has posted its success needs the
controller no more; everything else ends with it. -/
def Enabled (s : TcpServerController) : Event → Prop
  | .connectRetryExit c => (s.heap c).map (·.activeConnectThread) = some .posted
  | .accept .. => s.deleted = false ∧ s.tcpNewConnAcc = true
  | .processFront _ => s.deleted = false ∧ s.msgQ ≠ []
  | .connectRetryPost c _ => s.deleted = false ∧ (s.heap c).map (·.activeConnectThread) = some .retrying
  | .select _ => s.deleted = false ∧ s.tcpClientSvcMgr.map (fun m => (m.thread, m.scan)) = some (true, [])
  | .visit _ => s.deleted = false ∧ s.tcpClientSvcMgr.map (·.thread) = some true
  | .clientThread c _ => s.deleted = false ∧ (s.heap c).map (·.clientThread) = some .receiving
  | .requestMigration _ c => s.deleted = false ∧ (s.heap c).isSome
  | _ => s.deleted = false

instance (s : TcpServerController) (e : Event) : Decidable (e.Enabled s) := by
  cases e <;> unfold Enabled <;> infer_instance

def op : Event → Op Unit
  | .accept ipAddr portNo => TcpServerController.acceptClient ipAddr portNo
  | .processFront connect => TcpServerController.processFront connect
  | .connectRetryPost c portNo => TcpClient.connectRetryPost c portNo
  | .connectRetryExit c => TcpClient.connectRetryExit c
  | .select ready => TcpClientServiceManager.select ready
  | .visit r => TcpClientServiceManager.visit r
  | .clientThread c r => TcpClient.clientThreadFunction c r
  | .createActiveClient serverIpAddr serverPortNo connect =>
    TcpServerController.createActiveClient serverIpAddr serverPortNo connect
  | .migrateToMultiThreaded ipAddr portNo =>
    TcpServerController.processClientMigrationToMultiThreaded ipAddr portNo
  | .migrateToMultiplex ipAddr portNo => TcpServerController.processClientMigrationToMultiplex ipAddr portNo
  | .requestMigration toThreaded c =>
    enqueMsg .application [if toThreaded then .mxToMultithreaded else .multithreadedToMx] c false
  | .deleteKey ipAddr portNo => TcpServerController.processKeyDelete ipAddr portNo
  | .deleteClient c => TcpServerController.processClientDelete c
  | .startListen c => TcpServerController.clientFDStartListen c
  | .stopListen c => TcpClientServiceManager.clientFDStopListenSimple c
  | .setClientCreationMode status => TcpServerController.setClientCreationMode status
  | .stopClientSvcMgr => TcpServerController.stopClientSvcMgr
  | .startClientSvcMgr => TcpServerController.startClientSvcMgr
  | .stopConnectionsAcceptorSvc => TcpServerController.stopConnectionsAcceptorSvc
  | .startConnectionsAcceptorSvc => TcpServerController.startConnectionsAcceptorSvc
  | .stop => TcpServerController.stop

end Event

namespace TcpServerController

/-- The server after `Start`. -/
def started (ipAddr : UInt32) (portNo : UInt16) : TcpServerController where
  ipAddr
  portNo
  tcpNewConnAcc := true
  tcpClientSvcMgr := some { thread := true }

/-- A step that ends in no fault. -/
def Step (s : TcpServerController) (e : Event) (t : TcpServerController) : Prop :=
  e.Enabled s ∧ e.op.Runs s () t

/-- The steps of a list of events, as long as each meets a condition. For runs on given inputs. -/
def runEvents (guard : TcpServerController → Event → Prop) [∀ s e, Decidable (guard s e)]
    (s : TcpServerController) : List Event → Except (Option Fault) TcpServerController
  | [] => .ok s
  | e :: es =>
    if guard s e ∧ e.Enabled s then
      match e.op.exec s with
      | .ok ((), t) => runEvents guard t es
      | .error fault => .error (some fault)
    else .error none

theorem runEvents_path {guard : TcpServerController → Event → Prop} [∀ s e, Decidable (guard s e)]
    {s t : TcpServerController} {es : List Event} (ran : runEvents guard s es = .ok t) :
    Path (Guarded Step guard) s es t := by
  induction es generalizing s with
  | nil =>
    cases ran
    exact .nil _
  | cons e es ih =>
    rw [runEvents] at ran
    split_ifs at ran with enabled
    split at ran
    · next middle executed => exact .cons ⟨enabled.1, enabled.2, executed⟩ (ih ran)
    · cases ran

/-- Where the events lead, if they are a run. -/
def stateAfter (guard : TcpServerController → Event → Prop) [∀ s e, Decidable (guard s e)]
    (s : TcpServerController) (es : List Event) : TcpServerController :=
  match runEvents guard s es with
  | .ok t => t
  | .error _ => s

theorem stateAfter_path {guard : TcpServerController → Event → Prop} [∀ s e, Decidable (guard s e)]
    {s : TcpServerController} {es : List Event} (ran : (runEvents guard s es).isOk = true) :
    Path (Guarded Step guard) s es (stateAfter guard s es) := by
  rw [stateAfter]
  cases found : runEvents guard s es with
  | ok t => exact runEvents_path found
  | error fault =>
    rw [found] at ran
    cases ran

/-- A run under no condition. -/
theorem stateAfter_unguarded {s : TcpServerController} {es : List Event}
    (ran : (runEvents (fun _ _ => True) s es).isOk = true) : Path Step s es (stateAfter (fun _ _ => True) s es) :=
  (stateAfter_path ran).mono And.right

end TcpServerController

end TcpServerLib.Model
