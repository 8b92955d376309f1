import TcpServerLib.Model.ByteCircularBuffer

/-! # The byte ring of the course

`Course/ByteCircularBuffer.cpp` is a copy of the ring. Its text is that of the original but for one
line of `BCBRead`, where the second of two blocks is copied to the start of the caller's buffer.
-/

namespace TcpServerLib.Model.Course

abbrev bcbCreateNew := Model.bcbCreateNew

abbrev bcbWrite := Model.bcbWrite

def bcbRead (bcb : ByteCircularBuffer) (buffer : Bytes) (dataSize : UInt16)
    (removeReadBytes : Bool) : Except Trap (UInt16 × Bytes × ByteCircularBuffer) := do
  if bcb.currentSize < dataSize then return (0, buffer, bcb)
  else if bcb.rear < bcb.front then
    let buffer ← memcpy buffer 0 bcb.buffer bcb.rear.toNat dataSize.toNat
    if removeReadBytes then
      let rear ← bcbAdvance bcb bcb.rear dataSize
      let currentSize ← subU16 bcb.currentSize dataSize
      return (dataSize, buffer, { bcb with rear, currentSize })
    else return (dataSize, buffer, bcb)
  else
    let leadingSpace ← subU16 bcb.bufferSize bcb.rear
    if dataSize ≤ leadingSpace then
      let buffer ← memcpy buffer 0 bcb.buffer bcb.rear.toNat dataSize.toNat
      if removeReadBytes then
        let rear ← bcbAdvance bcb bcb.rear dataSize
        let currentSize ← subU16 bcb.currentSize dataSize
        return (dataSize, buffer, { bcb with rear, currentSize })
      else return (dataSize, buffer, bcb)
    else
      let rest ← subU16 dataSize leadingSpace
      let buffer ← memcpy buffer 0 bcb.buffer bcb.rear.toNat leadingSpace.toNat
      -- not behind the first block
      let buffer ← memcpy buffer 0 bcb.buffer 0 rest.toNat
      if removeReadBytes then
        let currentSize ← subU16 bcb.currentSize dataSize
        return (dataSize, buffer, { bcb with rear := rest, currentSize })
      else return (dataSize, buffer, bcb)

abbrev bcbReset := Model.bcbReset

end TcpServerLib.Model.Course
