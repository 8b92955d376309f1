import TcpServerLib.Machine.Loop
import TcpServerLib.Model.ByteCircularBuffer

/-! # Message demarcation

`TcpMsgDemarcar` collects received bytes in a ring of `DEFAULT_CBC_SIZE` bytes and hands complete
messages to `client_msg_recvd` through a scratch buffer of `MAX_CLIENT_BUFFER_SIZE` bytes. The two
virtual functions are a record of operations, filled in by the fixed-size and the variable-size
class; both classes run the same `while (this->IsBufferReadyToflush())`, and differ in its body.
-/

namespace TcpServerLib.Model

open Machine

def defaultCbcSize : UInt16 := 10240

def maxClientBufferSize : ℕ := 1024

def hdrMsgSize : UInt16 := 2

structure TcpMsgDemarcar where
  bcb : ByteCircularBuffer
  buffer : Bytes
deriving DecidableEq, Repr

/-- The constructor of both classes. -/
def TcpMsgDemarcar.new : TcpMsgDemarcar where
  bcb := bcbCreateNew defaultCbcSize
  buffer := List.replicate maxClientBufferSize 0

/-- The virtual functions. `deliverOne` is the loop body of `ProcessClientMsg`; it returns the bytes
that `client_msg_recvd` is called with. -/
structure DemarcarOps where
  isBufferReadyToflush : TcpMsgDemarcar → Except Trap Bool
  deliverOne : TcpMsgDemarcar → Except Trap (Bytes × TcpMsgDemarcar)

namespace TcpMsgFixedSizeDemarcar

def isBufferReadyToflush (msgFixedSize : UInt16) (msgd : TcpMsgDemarcar) : Except Trap Bool :=
  if msgFixedSize = 0 then .error .divideByZero
  else .ok (decide (0 < msgd.bcb.currentSize / msgFixedSize))

def deliverOne (msgFixedSize : UInt16) (msgd : TcpMsgDemarcar) : Except Trap (Bytes × TcpMsgDemarcar) := do
  let (bytesRead, buffer, bcb) ← bcbRead msgd.bcb msgd.buffer msgFixedSize true
  return (buffer.take bytesRead.toNat, { bcb, buffer })

def ops (msgFixedSize : UInt16) : DemarcarOps where
  isBufferReadyToflush := isBufferReadyToflush msgFixedSize
  deliverOne := deliverOne msgFixedSize

end TcpMsgFixedSizeDemarcar

/-- The byte order of the host, in which a `uint16_t` is read from two bytes. -/
inductive ByteOrder where
  | littleEndian
  | bigEndian
deriving DecidableEq, Repr

def ByteOrder.uint16 (order : ByteOrder) (bytes : Bytes) : UInt16 :=
  match order, bytes with
  | .littleEndian, low :: high :: _ => low.toUInt16 + high.toUInt16 * 256
  | .bigEndian, high :: low :: _ => low.toUInt16 + high.toUInt16 * 256
  | _, _ => 0

namespace TcpMsgVariableSizeDemarcar

/-- `BCBRead (bcb, (unsigned char *)&msg_size, HDR_MSG_SIZE, false)`. -/
def peekMsgSize (order : ByteOrder) (msgd : TcpMsgDemarcar) : Except Trap UInt16 := do
  let (_, msgSize, _) ← bcbRead msgd.bcb [0, 0] hdrMsgSize false
  return order.uint16 msgSize

def isBufferReadyToflush (order : ByteOrder) (msgd : TcpMsgDemarcar) : Except Trap Bool := do
  if msgd.bcb.currentSize ≤ hdrMsgSize then return false
  else
    let msgSize ← peekMsgSize order msgd
    return decide (msgSize ≤ msgd.bcb.currentSize)

def deliverOne (order : ByteOrder) (msgd : TcpMsgDemarcar) : Except Trap (Bytes × TcpMsgDemarcar) := do
  let msgSize ← peekMsgSize order msgd
  let (bytesRead, buffer, bcb) ← bcbRead msgd.bcb msgd.buffer msgSize true
  if msgSize = bytesRead then return (buffer.take msgSize.toNat, { bcb, buffer })
  else .error .assertion

def ops (order : ByteOrder) : DemarcarOps where
  isBufferReadyToflush := isBufferReadyToflush order
  deliverOne := deliverOne order

end TcpMsgVariableSizeDemarcar

namespace TcpMsgDemarcar

/-- The calls of `client_msg_recvd` that the loop makes, at most `fuel` of them. -/
def processClientMsg (ops : DemarcarOps) (fuel : ℕ) (msgd : TcpMsgDemarcar) :
    Except (Cut Trap) (List Bytes × TcpMsgDemarcar) :=
  whileLoop ops.isBufferReadyToflush ops.deliverOne fuel msgd

def processMsg (ops : DemarcarOps) (fuel : ℕ) (msgd : TcpMsgDemarcar) (msgRecvd : Bytes) (msgSize : UInt16) :
    Except (Cut Trap) (List Bytes × TcpMsgDemarcar) := do
  let (written, bcb) ← Cut.lift (bcbWrite msgd.bcb msgRecvd msgSize)
  if written = 0 then .error (.stopped .assertion)
  else
    let msgd := { msgd with bcb }
    if ← Cut.lift (ops.isBufferReadyToflush msgd) then processClientMsg ops fuel msgd
    else return ([], msgd)

/-- One `ProcessMsg` for every received chunk. -/
def processMsgs (ops : DemarcarOps) (fuel : ℕ) (msgd : TcpMsgDemarcar) :
    List Bytes → Except (Cut Trap) (List Bytes × TcpMsgDemarcar)
  | [] => return ([], msgd)
  | chunk :: chunks => do
    let (first, middle) ← processMsg ops fuel msgd chunk (UInt16.ofNat chunk.length)
    let (rest, last) ← processMsgs ops fuel middle chunks
    return (first ++ rest, last)

end TcpMsgDemarcar

inductive TcpMsgDemarcarType where
  | none
  | fixedSize
  | variableSize
  | pattern
deriving DecidableEq, Repr

/-- The patterns are not looked at. -/
def instantiateTcpMsgDemarcar (order : ByteOrder) (msgdType : TcpMsgDemarcarType) (fixedSize : UInt16) :
    Option (DemarcarOps × TcpMsgDemarcar) :=
  match msgdType with
  | .fixedSize => some (TcpMsgFixedSizeDemarcar.ops fixedSize, .new)
  | .variableSize => some (TcpMsgVariableSizeDemarcar.ops order, .new)
  | .pattern => none
  | .none => none

end TcpServerLib.Model
