import TcpServerLib.Machine.LittleEndian
import TcpServerLib.Machine.Loop
import TcpServerLib.Model.Memory

/-! # The serialize buffer call by call

Each writer of the library doubles `size` until the data fits, and only then reallocates the block.
The three counters are `int`, the writers of a fixed width compare what is left with a `size_t`, and
whether a loop comes to an end is a matter of the state it begins in.
-/

namespace TcpServerLib.Model

open Machine

/-- `struct serialized_buffer`, with the block as it has been allocated. -/
structure SerializedBuffer where
  b : Bytes
  size : ℤ
  next : ℤ
  checkpoint : ℤ
deriving DecidableEq

/-- The result of `int` arithmetic. -/
def int (n : ℤ) : Except Trap ℤ :=
  if -0x80000000 ≤ n ∧ n < 0x80000000 then .ok n else .error .wrap

/-- `realloc`. What it adds is taken to be zero. -/
def realloc (b : Bytes) (size : ℤ) : Except Trap Bytes :=
  if 0 ≤ size then .ok (b.take size.toNat ++ List.replicate (size.toNat - b.length) 0) else .error .outOfBounds

/-- `memcpy (b + offset, data, n)`. -/
def storeAt (b : Bytes) (offset : ℤ) (data : Bytes) : Except Trap Bytes :=
  if 0 ≤ offset ∧ offset + data.length ≤ b.length then .ok (splice b offset.toNat data) else .error
    .outOfBounds

/-- `memcpy (dest, b + offset, n)`. -/
def loadAt (b : Bytes) (offset : ℤ) (n : ℕ) : Except Trap Bytes :=
  if 0 ≤ offset ∧ offset + n ≤ b.length then .ok ((b.drop offset.toNat).take n) else .error .outOfBounds

/-- What a growth loop works on. -/
structure Growth where
  size : ℤ
  availableSize : ℤ
  isResize : Bool
deriving DecidableEq

/-- The body of every growth loop. -/
def growOnce (next : ℤ) (growth : Growth) : Except Trap (Unit × Growth) :=
  match int (growth.size * 2) with
  | .error trap => .error trap
  | .ok size =>
    match int (size - next) with
    | .error trap => .error trap
    | .ok availableSize => .ok ((), ⟨size, availableSize, true⟩)

def tooSmall (less : ℤ → Bool) (growth : Growth) : Except Trap Bool :=
  .ok (less growth.availableSize)

/-- `while (available_size < need)`, for one of the two comparisons. -/
def growthLoop (less : ℤ → Bool) (next : ℤ) (fuel : ℕ) (growth : Growth) : Except (Cut Trap) Growth :=
  (whileLoop (tooSmall less) (growOnce next) fuel growth).map (·.2)

/-- An `int` is converted before it is compared with a `size_t`. -/
def lessSizeT (width : ℕ) (availableSize : ℤ) : Bool :=
  availableSize % 2 ^ 64 < width

def lessInt (nbytes : ℤ) (availableSize : ℤ) : Bool :=
  availableSize < nbytes

namespace SerializedBuffer

/-- `init_serialized_buffer_of_defined_size`. -/
def initSerializedBufferOfDefinedSize (size : ℕ) : SerializedBuffer :=
  ⟨List.replicate size 0, size, 0, 0⟩

/-- `SERIALIZE_BUFFER_DEFAULT_SIZE`. -/
def serializeBufferDefaultSize : ℕ := 512

def initSerializedBuffer : SerializedBuffer :=
  initSerializedBufferOfDefinedSize serializeBufferDefaultSize

/-- The copy at the end of a writer. -/
def append (buff : SerializedBuffer) (data : Bytes) : Except Trap SerializedBuffer :=
  match storeAt buff.b buff.next data with
  | .error trap => .error trap
  | .ok b =>
    match int (buff.next + data.length) with
    | .error trap => .error trap
    | .ok next => .ok { buff with b, next }

/-- What all writers do, each with its comparison. -/
def serialize (less : ℤ → Bool) (fuel : ℕ) (buff : SerializedBuffer) (data : Bytes) :
    Except (Cut Trap) SerializedBuffer :=
  match int (buff.size - buff.next) with
  | .error trap => .error (.stopped trap)
  | .ok availableSize =>
    match growthLoop less buff.next fuel ⟨buff.size, availableSize, false⟩ with
    | .error cut => .error cut
    | .ok growth =>
      if growth.isResize = false then Cut.lift (buff.append data)
      else
        match realloc buff.b growth.size with
        | .error trap => .error (.stopped trap)
        | .ok b => Cut.lift ({ buff with b, size := growth.size }.append data)

/-- A writer of a fixed width, with the bytes of its argument. -/
def serializePrimitive (fuel : ℕ) (buff : SerializedBuffer) (data : Bytes) :
    Except (Cut Trap) SerializedBuffer :=
  buff.serialize (lessSizeT data.length) fuel data

def serializeInt8 (fuel : ℕ) (buff : SerializedBuffer) (data : Int8) : Except (Cut Trap) SerializedBuffer :=
  buff.serializePrimitive fuel (encodeLE 1 data.toUInt8.toNat)

def serializeUint8 (fuel : ℕ) (buff : SerializedBuffer) (data : UInt8) : Except (Cut Trap) SerializedBuffer :=
  buff.serializePrimitive fuel (encodeLE 1 data.toNat)

def serializeInt (fuel : ℕ) (buff : SerializedBuffer) (data : Int32) : Except (Cut Trap) SerializedBuffer :=
  buff.serializePrimitive fuel (encodeLE 4 data.toUInt32.toNat)

def serializeInt32 (fuel : ℕ) (buff : SerializedBuffer) (data : Int32) : Except (Cut Trap) SerializedBuffer :=
  buff.serializePrimitive fuel (encodeLE 4 data.toUInt32.toNat)

def serializeUint32 (fuel : ℕ) (buff : SerializedBuffer) (data : UInt32) : Except (Cut Trap) SerializedBuffer :=
  buff.serializePrimitive fuel (encodeLE 4 data.toNat)

/-- The number is given by its bits. -/
def serializeFloat (fuel : ℕ) (buff : SerializedBuffer) (data : UInt32) : Except (Cut Trap) SerializedBuffer :=
  buff.serializePrimitive fuel (encodeLE 4 data.toNat)

def serializeDouble (fuel : ℕ) (buff : SerializedBuffer) (data : UInt64) : Except (Cut Trap) SerializedBuffer :=
  buff.serializePrimitive fuel (encodeLE 8 data.toNat)

def serializeString (fuel : ℕ) (buff : SerializedBuffer) (data : Bytes) : Except (Cut Trap) SerializedBuffer :=
  buff.serialize (lessInt data.length) fuel data

/-- `b->next += size`. -/
def forward (buff : SerializedBuffer) (size : ℤ) : Except Trap SerializedBuffer :=
  match int (buff.next + size) with
  | .error trap => .error trap
  | .ok next => .ok { buff with next }

def serializeBufferSkip (fuel : ℕ) (buff : SerializedBuffer) (size : ℤ) :
    Except (Cut Trap) SerializedBuffer :=
  match int (buff.size - buff.next) with
  | .error trap => .error (.stopped trap)
  | .ok availableSize =>
    if size ≤ availableSize then Cut.lift (buff.forward size)
    else
      match growthLoop (lessInt size) buff.next fuel ⟨buff.size, availableSize, false⟩ with
      | .error cut => .error cut
      | .ok growth =>
        match realloc buff.b growth.size with
        | .error trap => .error (.stopped trap)
        | .ok b => Cut.lift ({ buff with b, size := growth.size }.forward size)

def restoreCheckpoint (buff : SerializedBuffer) : SerializedBuffer :=
  { buff with next := buff.checkpoint }

def markCheckpoint (buff : SerializedBuffer) : SerializedBuffer :=
  { buff with checkpoint := buff.next }

def reset (buff : SerializedBuffer) : SerializedBuffer :=
  { buff with next := 0, checkpoint := 0 }

/-- `truncate_serialize_buffer`: a clone that is as large as what has been written. -/
def truncate (buff : SerializedBuffer) : Except Trap SerializedBuffer :=
  if buff.next = buff.size then .ok buff
  else if 0 ≤ buff.next ∧ buff.next ≤ buff.b.length then
    .ok ⟨buff.b.take buff.next.toNat, buff.next, buff.next, 0⟩
  else .error .outOfBounds

/-- `copy_in_serialized_buffer_by_offset`, of `value` as a whole. -/
def copyInByOffset (buff : SerializedBuffer) (value : Bytes) (offset : ℤ) : Except Trap SerializedBuffer :=
  if buff.size - buff.next < value.length then .ok buff
  else if buff.size < offset then .ok buff
  else
    match storeAt buff.b offset value with
    | .error trap => .error trap
    | .ok b => .ok { buff with b }

/-- `deserialize_primitive`, which checks nothing. -/
def deserializePrimitive (buff : SerializedBuffer) (width : ℕ) : Except Trap (Bytes × SerializedBuffer) :=
  match loadAt buff.b buff.next width with
  | .error trap => .error trap
  | .ok dest => (buff.forward width).map (dest, ·)

def deSerializeString (buff : SerializedBuffer) (size : ℕ) : Except Trap (Bytes × SerializedBuffer) :=
  if size = 0 then .error .assertion
  else if buff.size - buff.next < size then .error .assertion
  else
    match loadAt buff.b buff.next size with
    | .error trap => .error trap
    | .ok dest => (buff.forward size).map (dest, ·)

end SerializedBuffer

/-- What is passed to a writer. -/
inductive Item where
  | int8 (data : Int8)
  | uint8 (data : UInt8)
  | int32 (data : Int32)
  | uint32 (data : UInt32)
  | string (data : Bytes)
deriving DecidableEq

/-- What a reader is called for. -/
inductive ItemType where
  | int8
  | uint8
  | int32
  | uint32
  | string (size : ℕ)
deriving DecidableEq

namespace Item

def type : Item → ItemType
  | int8 _ => .int8
  | uint8 _ => .uint8
  | int32 _ => .int32
  | uint32 _ => .uint32
  | string data => .string data.length

/-- The value in memory. -/
def bytes : Item → Bytes
  | int8 data => encodeLE 1 data.toUInt8.toNat
  | uint8 data => encodeLE 1 data.toNat
  | int32 data => encodeLE 4 data.toUInt32.toNat
  | uint32 data => encodeLE 4 data.toNat
  | string data => data

def write (fuel : ℕ) (buff : SerializedBuffer) : Item → Except (Cut Trap) SerializedBuffer
  | int8 data => buff.serializeInt8 fuel data
  | uint8 data => buff.serializeUint8 fuel data
  | int32 data => buff.serializeInt32 fuel data
  | uint32 data => buff.serializeUint32 fuel data
  | string data => buff.serializeString fuel data

end Item

namespace ItemType

def decode : ItemType → Bytes → Item
  | int8, bytes => .int8 (UInt8.ofNat (decodeLE bytes)).toInt8
  | uint8, bytes => .uint8 (UInt8.ofNat (decodeLE bytes))
  | int32, bytes => .int32 (UInt32.ofNat (decodeLE bytes)).toInt32
  | uint32, bytes => .uint32 (UInt32.ofNat (decodeLE bytes))
  | string _, bytes => .string bytes

def read (buff : SerializedBuffer) : ItemType → Except Trap (Bytes × SerializedBuffer)
  | int8 => buff.deserializePrimitive 1
  | uint8 => buff.deserializePrimitive 1
  | int32 => buff.deserializePrimitive 4
  | uint32 => buff.deserializePrimitive 4
  | string size => buff.deSerializeString size

end ItemType

/-- The calls of the writers, one after the other, each to its end. -/
inductive Writes : List Item → SerializedBuffer → SerializedBuffer → Prop
  | nil (buff : SerializedBuffer) : Writes [] buff buff
  | cons {item : Item} {items : List Item} {fuel : ℕ} {buff middle after : SerializedBuffer}
    (written : item.write fuel buff = .ok middle) (rest : Writes items middle after) :
    Writes (item :: items) buff after

/-- The calls of the readers, with the values that they return. -/
def readAll : List ItemType → SerializedBuffer → Except Trap (List Item × SerializedBuffer)
  | [], buff => .ok ([], buff)
  | type :: types, buff =>
    match type.read buff with
    | .error trap => .error trap
    | .ok (dest, buff) => (readAll types buff).map fun (items, buff) => (type.decode dest :: items, buff)

end TcpServerLib.Model
