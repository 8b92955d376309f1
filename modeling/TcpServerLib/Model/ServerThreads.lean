import TcpServerLib.Machine.Threads
import TcpServerLib.Model.Run

/-! # The threads of a server

Between two waits a thread executes one of the texts given here, and the threads interleave at every
instruction. The message queue thread keeps `msgq_mutex` while it processes messages.
-/

namespace TcpServerLib.Model

open Machine Prog

namespace TcpServerController

/-- One message for each result of `connect`. -/
def processMessages : List ConnectResult → Op Unit
  | [] => return ()
  | connect :: rest => do
    processFront connect
    processMessages rest

/-- A turn of `MsgQProcessingThreadFn`, from the wait for a message to the next one. -/
def msgQProcessingThreadFn (connects : List ConnectResult) : Op Unit := do
  perform (.lock .msgqMutex)
  processMessages connects
  perform (.unlock .msgqMutex)

end TcpServerController

inductive ThreadText where
  | messages (connects : List ConnectResult)
  | connectRetry (c : ClientRef) (portNo : UInt16)
  | event (e : Event)
deriving DecidableEq, Repr

namespace ThreadText

def op : ThreadText → Op Unit
  | .messages connects => TcpServerController.msgQProcessingThreadFn connects
  | .connectRetry c portNo => TcpClient.connectRetryFn c portNo
  | .event e => e.op

end ThreadText

/-- The operations the application calls. -/
def Event.Called : Event → Prop
  | .accept .. => False
  | .processFront _ => False
  | .connectRetryPost .. => False
  | .connectRetryExit _ => False
  | .select _ => False
  | .visit _ => False
  | .clientThread .. => False
  | _ => True

instance : DecidablePred Event.Called := fun e => by
  apply @Event.casesOn (fun e => Decidable e.Called) e <;> intros <;> unfold Event.Called <;> infer_instance

namespace ThreadId

def Performs : ThreadId → ThreadText → Prop
  | .msgQ, .messages _ => True
  | .acceptor, .event (.accept ..) => True
  | .svcMgr, .event (.select _) => True
  | .svcMgr, .event (.visit _) => True
  | .client c, .event (.clientThread d _) => c = d
  | .connector c, .connectRetry d _ => c = d
  | .application, .event e => e.Called
  | _, _ => False

instance (t : ThreadId) (text : ThreadText) : Decidable (t.Performs text) := by
  unfold Performs
  split <;> infer_instance

/-- The threads that cancel others, and are not cancelled themselves. -/
def controls : ThreadId → Bool
  | .msgQ => true
  | .application => true
  | _ => false

end ThreadId

def Sync.kind : Sync → SyncKind ThreadId Lock
  | .lock l => .lock l
  | .unlock l => .unlock l
  | .create t => .create t
  | .cancelJoin t => .cancelJoin t
  | .semWait => .wait
  | .threadExit => .exit

/-- `msgq_mutex` is taken before the others. -/
def Lock.rank : Lock → ℕ
  | .msgqMutex => 0
  | .clientDbRwlock => 1
  | .connectDbRwlock => 1

abbrev ServerProcess := Process TcpServerController Fault Sync ThreadId Lock

namespace ServerProcess

def texts : Texts TcpServerController Fault Sync ThreadId Lock ThreadText where
  kind := Sync.kind
  text := ThreadText.op
  performs := ThreadId.Performs

instance (t : ThreadId) (text : ThreadText) : Decidable (texts.performs t text) :=
  inferInstanceAs (Decidable (t.Performs text))

/-- The threads after `Start`, with that of the application. -/
def started (ipAddr : UInt32) (portNo : UInt16) : ServerProcess where
  shared := .started ipAddr portNo
  role
    | 0 => .application
    | 1 => .msgQ
    | 2 => .svcMgr
    | _ => .acceptor
  doing id := if id < 4 then .away else .gone
  cancelled _ := false
  held _ := []
  owner _ := none
  designated
    | .svcMgr => some 2
    | .acceptor => some 3
    | _ => none
  created := 4

end ServerProcess

end TcpServerLib.Model
