import TcpServerLib.Machine.Extension
import TcpServerLib.Model.TcpServerController

/-! # The record of a message

`EnqueMsg` allocates a record for each message. `MsgQProcessingThreadFn` takes it out of the queue,
passes it to `ProcessMsgQMsg`, which frees it at its end, and looks into it once more. Here the two
functions are executed beside the record of the message that is processed.
-/

namespace TcpServerLib.Model

open Machine Prog

structure MsgRecord where
  /-- How often the record has been freed. -/
  frees : ℕ := 0
  /-- How often its `zero_sema` has been posted. -/
  posts : ℕ := 0
deriving DecidableEq, Repr

abbrev RecordOp := Prog (TcpServerController × MsgRecord) Fault Sync

namespace MsgRecord

/-- Every access to a field of the record. -/
def access : RecordOp Unit := do
  let pair ← read
  if pair.2.frees = 0 then return () else .fail .useAfterFree

def free : RecordOp Unit := do
  access
  update (Prod.map id fun record => { record with frees := record.frees + 1 })

/-- The last two tests of `ProcessMsgQMsg`, and `free (msg)`. -/
def processThreadedAndSuccess (code : List CtrlrAction) (c : ClientRef) : RecordOp Unit := do
  access
  onFirst (TcpServerController.processThreadedAndSuccess code c)
  free

/-- From the test for `MULTITHREADED_TO_MX` on. -/
def processToMultiplex (code : List CtrlrAction) (c : ClientRef) : RecordOp Unit := do
  access
  if .multithreadedToMx ∈ code then
    let client ← onFirst (deref c)
    when (¬ client.multiplexListen) do
      onFirst (when client.threaded (TcpClient.stopThread c))
      onFirst (TcpClientServiceManager.clientFDStartListenSimple c)
      processThreadedAndSuccess code c
  else processThreadedAndSuccess code c

/-- From the test for `MX_TO_MULTITHREADED` on. -/
def processToMultithreaded (code : List CtrlrAction) (c : ClientRef) : RecordOp Unit := do
  access
  if .mxToMultithreaded ∈ code then
    let client ← onFirst (deref c)
    when (¬ client.threaded) do
      onFirst (when client.multiplexListen (TcpClientServiceManager.clientFDStopListenSimple c))
      onFirst (TcpServerController.createMultiThreadedClient c)
      processToMultiplex code c
  else processToMultiplex code c

def processMsgQMsg (msg : TcpServerMsg) (connect : ConnectResult) : RecordOp Unit := do
  access
  let c := msg.data
  if .delete ∈ msg.code then onFirst (TcpServerController.processClientDelete c)
  else
    access
    onFirst <| when (.reconnect ∈ msg.code) do
      let client ← deref c
      TcpServerController.processClientDelete c
      TcpServerController.createActiveClient client.serverIpAddr client.serverPortNo connect
    access
    onFirst (when (.processNew ∈ msg.code) (TcpClientDbManager.addClientToDB c))
    access
    onFirst <| when (.multiplexListen ∈ msg.code) do
      let client ← deref c
      assertThat (client.multiplexListen = false)
      TcpClientServiceManager.clientFDStartListenSimple c
    processToMultithreaded msg.code c

/-- `sem_post (msg->zero_sema)`, if there is one. -/
def postZeroSema (msg : TcpServerMsg) : RecordOp Unit := do
  access
  when msg.zeroSema.isSome do
    access
    update (Prod.map id fun record => { record with posts := record.posts + 1 })
  onFirst (TcpServerController.postZeroSema msg)

/-- One message of `MsgQProcessingThreadFn`. -/
def processFront (connect : ConnectResult) : RecordOp Unit := do
  let s ← onFirst (exchange fun s => { s with msgQ := s.msgQ.tail })
  match s.msgQ with
  | [] => return ()
  | msg :: _ =>
    processMsgQMsg msg connect
    postZeroSema msg

end MsgRecord

end TcpServerLib.Model
