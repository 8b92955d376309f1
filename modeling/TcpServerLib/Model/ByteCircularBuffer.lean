import TcpServerLib.Model.Memory

/-! # The byte ring

The functions follow `ByteCircularBuffer.cpp` branch by branch. A call returns the value of the C
function together with the ring it leaves behind; reading also returns the caller's buffer. Where
`front` and `rear` coincide the ring is either empty or full, and only `currentSize` tells which.
-/

namespace TcpServerLib.Model

structure ByteCircularBuffer where
  buffer : Bytes
  bufferSize : UInt16
  front : UInt16
  rear : UInt16
  currentSize : UInt16
deriving DecidableEq, Repr

def bcbCreateNew (size : UInt16) : ByteCircularBuffer where
  buffer := List.replicate size.toNat 0
  bufferSize := size
  front := 0
  rear := 0
  currentSize := 0

def bcbIsFull (bcb : ByteCircularBuffer) : Bool :=
  bcb.currentSize == bcb.bufferSize

def bcbAvailableSize (bcb : ByteCircularBuffer) : Except Trap UInt16 :=
  subU16 bcb.bufferSize bcb.currentSize

/-- `front += data_size`, or `rear += data_size`, back to the first cell at the end. -/
def bcbAdvance (bcb : ByteCircularBuffer) (index dataSize : UInt16) : Except Trap UInt16 := do
  let index ← addU16 index dataSize
  return if index = bcb.bufferSize then 0 else index

def bcbWrite (bcb : ByteCircularBuffer) (data : Bytes) (dataSize : UInt16) :
    Except Trap (UInt16 × ByteCircularBuffer) := do
  if bcbIsFull bcb then return (0, bcb)
  else
    let available ← bcbAvailableSize bcb
    if available < dataSize then return (0, bcb)
    else if bcb.front < bcb.rear then
      let buffer ← memcpy bcb.buffer bcb.front.toNat data 0 dataSize.toNat
      let front ← bcbAdvance bcb bcb.front dataSize
      let currentSize ← addU16 bcb.currentSize dataSize
      return (dataSize, { bcb with buffer, front, currentSize })
    else
      let leadingSpace ← subU16 bcb.bufferSize bcb.front
      if dataSize ≤ leadingSpace then
        let buffer ← memcpy bcb.buffer bcb.front.toNat data 0 dataSize.toNat
        let front ← bcbAdvance bcb bcb.front dataSize
        let currentSize ← addU16 bcb.currentSize dataSize
        return (dataSize, { bcb with buffer, front, currentSize })
      else
        let rest ← subU16 dataSize leadingSpace
        let buffer ← memcpy bcb.buffer bcb.front.toNat data 0 leadingSpace.toNat
        let buffer ← memcpy buffer 0 data leadingSpace.toNat rest.toNat
        let currentSize ← addU16 bcb.currentSize dataSize
        return (dataSize, { bcb with buffer, front := rest, currentSize })

def bcbRead (bcb : ByteCircularBuffer) (buffer : Bytes) (dataSize : UInt16)
    (removeReadBytes : Bool) : Except Trap (UInt16 × Bytes × ByteCircularBuffer) := do
  if bcb.currentSize < dataSize then return (0, buffer, bcb)
  else if bcb.rear < bcb.front then
    let buffer ← memcpy buffer 0 bcb.buffer bcb.rear.toNat dataSize.toNat
    if removeReadBytes then
      let rear ← bcbAdvance bcb bcb.rear dataSize
      let currentSize ← subU16 bcb.currentSize dataSize
      return (dataSize, buffer, { bcb with rear, currentSize })
    else return (dataSize, buffer, bcb)
  else
    let leadingSpace ← subU16 bcb.bufferSize bcb.rear
    if dataSize ≤ leadingSpace then
      let buffer ← memcpy buffer 0 bcb.buffer bcb.rear.toNat dataSize.toNat
      if removeReadBytes then
        let rear ← bcbAdvance bcb bcb.rear dataSize
        let currentSize ← subU16 bcb.currentSize dataSize
        return (dataSize, buffer, { bcb with rear, currentSize })
      else return (dataSize, buffer, bcb)
    else
      let rest ← subU16 dataSize leadingSpace
      let buffer ← memcpy buffer 0 bcb.buffer bcb.rear.toNat leadingSpace.toNat
      let buffer ← memcpy buffer leadingSpace.toNat bcb.buffer 0 rest.toNat
      if removeReadBytes then
        let currentSize ← subU16 bcb.currentSize dataSize
        return (dataSize, buffer, { bcb with rear := rest, currentSize })
      else return (dataSize, buffer, bcb)

def bcbReset (bcb : ByteCircularBuffer) : ByteCircularBuffer :=
  { bcb with currentSize := 0, front := 0, rear := 0 }

end TcpServerLib.Model
