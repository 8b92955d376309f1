import TcpServerLib.Machine.CString
import TcpServerLib.Model.Memory

/-! # The serialize buffer and its TLVs

A command line collects its leaves in `tlv_buff`, one TLV of fixed size after the other, and the
command code behind them. What `realloc` adds to the buffer is taken to be zero; nothing behind
`next` is ever read.
-/

namespace TcpServerLib.Model

open Machine

/-- `size` is the length of the block. -/
structure SerBuff where
  b : Bytes
  next : ℕ
  checkpoint : ℕ
  within : next ≤ b.length
  marked : checkpoint ≤ b.length
  positive : 0 < b.length

namespace SerBuff

def size (buff : SerBuff) : ℕ :=
  buff.b.length

def initSerializedBufferOfDefinedSize (size : ℕ) (positive : 0 < size) : SerBuff where
  b := List.replicate size 0
  next := 0
  checkpoint := 0
  within := Nat.zero_le _
  marked := Nat.zero_le _
  positive := by rw [List.length_replicate]; exact positive

/-- `while (available_size < nbytes)`: the size is doubled until there is room for `need` bytes. A
doubling for each byte is enough. -/
def grown : ℕ → ℕ → ℕ → ℕ
  | 0, size, _ => size
  | fuel + 1, size, need => if size < need then grown fuel (size * 2) need else size

theorem grown_enough {fuel size : ℕ} (need : ℕ) (positive : 0 < size) (fuelled : need ≤ size + fuel) :
    need ≤ grown fuel size need ∧ size ≤ grown fuel size need := by
  induction fuel generalizing size with
  | zero => exact ⟨fuelled, Nat.le_refl _⟩
  | succ fuel ih =>
    rw [grown]
    split
    · obtain ⟨room, larger⟩ := @ih (size * 2) (by omega) (by omega)
      exact ⟨room, by omega⟩
    · exact ⟨by omega, Nat.le_refl _⟩

/-- The block after `realloc`. -/
def enlarged (buff : SerBuff) (nbytes : ℕ) : Bytes :=
  buff.b ++ List.replicate (grown (buff.next + nbytes) buff.size (buff.next + nbytes) - buff.size) 0

theorem length_enlarged (buff : SerBuff) (nbytes : ℕ) :
    buff.next + nbytes ≤ (buff.enlarged nbytes).length ∧ buff.size ≤ (buff.enlarged nbytes).length := by
  obtain ⟨room, larger⟩ := grown_enough (buff.next + nbytes) buff.positive (Nat.le_add_left _ buff.size)
  rw [enlarged, List.length_append, List.length_replicate]
  exact ⟨by rw [size] at *; omega, Nat.le_add_right _ _⟩

def serializeString (buff : SerBuff) (data : Bytes) : SerBuff where
  b := splice (buff.enlarged data.length) buff.next data
  next := buff.next + data.length
  checkpoint := buff.checkpoint
  within := by
    rw [length_splice (length_enlarged buff data.length).1]
    exact (length_enlarged buff data.length).1
  marked := by
    rw [length_splice (length_enlarged buff data.length).1]
    exact Nat.le_trans buff.marked (length_enlarged buff data.length).2
  positive := by
    rw [length_splice (length_enlarged buff data.length).1]
    exact Nat.lt_of_lt_of_le buff.positive (length_enlarged buff data.length).2

/-- `serialize_buffer_skip` backwards. -/
def rewind (buff : SerBuff) (n : ℕ) : Option SerBuff :=
  if n ≤ buff.next then
    some { buff with next := buff.next - n, within := Nat.le_trans (Nat.sub_le _ _) buff.within }
  else none

def restoreCheckpoint (buff : SerBuff) : SerBuff :=
  { buff with next := buff.checkpoint, within := buff.marked }

def markCheckpoint (buff : SerBuff) : SerBuff :=
  { buff with checkpoint := buff.next, marked := buff.within }

def reset (buff : SerBuff) : SerBuff :=
  { buff with next := 0, checkpoint := 0, within := Nat.zero_le _, marked := Nat.zero_le _ }

/-- What has been written and not been taken back. -/
def contents (buff : SerBuff) : Bytes :=
  buff.b.take buff.next

end SerBuff

inductive LeafType where
  | int
  | string
  | ipv4
  | float
  | ipv6
  | boolean
  | invalid
  | leafMax
deriving DecidableEq, Repr

def LeafType.code : LeafType → UInt8
  | .int => 0
  | .string => 1
  | .ipv4 => 2
  | .float => 3
  | .ipv6 => 4
  | .boolean => 5
  | .invalid => 6
  | .leafMax => 7

/-- `LEAF_ID_SIZE` and `LEAF_VALUE_HOLDER_SIZE`. -/
abbrev LeafId := CString 32

abbrev Value := CString 64

structure Tlv where
  leafType : LeafType
  leafId : LeafId
  value : Value
deriving DecidableEq

/-- The bytes of the packed structure. -/
def Tlv.encode (tlv : Tlv) : Bytes :=
  [tlv.leafType.code, 0, 0, 0] ++ pad 32 tlv.leafId.bytes ++ pad 64 tlv.value.bytes

/-- What a handler sees through a `tlv_struct_t *`. -/
structure TlvFields where
  leafType : Bytes
  leafId : Bytes
  value : Bytes
deriving DecidableEq, Repr

def readTlv (unit : Bytes) : TlvFields where
  leafType := unit.take 4
  leafId := unpad ((unit.drop 4).take 32)
  value := unpad ((unit.drop 36).take 64)

def Tlv.fields (tlv : Tlv) : TlvFields where
  leafType := [tlv.leafType.code, 0, 0, 0]
  leafId := tlv.leafId.bytes
  value := tlv.value.bytes

/-- `sizeof (tlv_struct_t)`. -/
def tlvSize : ℕ := 100

def collectTlv (buff : SerBuff) (tlv : Tlv) : SerBuff :=
  buff.serializeString tlv.encode

def units (buff : SerBuff) : ℕ :=
  buff.next / tlvSize

/-- `TLV_LOOP_BEGIN`: all TLVs but the last. On an empty buffer it runs away. -/
def tlvLoop (buff : SerBuff) : Option (List TlvFields) :=
  if units buff = 0 then none
  else some ((List.range (units buff - 1)).map fun i => readTlv (unit tlvSize buff.b i))

/-- `EXTRACT_CMD_CODE`, which looks into the last TLV. -/
def extractCmdCode (buff : SerBuff) : Option ℤ :=
  if units buff = 0 then none
  else some (atoi (readTlv (unit tlvSize buff.b (units buff - 1))).value)

/-- `prepare_tlv_from_leaf` and `put_value_in_tlv`, on a TLV that has been cleared. -/
def tlvOfLeaf (leafType : LeafType) (leafId : LeafId) (value : Value) : Tlv :=
  ⟨leafType, leafId, value⟩

/-- `command_code_tlv`. -/
def commandCodeTlv (cmdCode : Int32) : Tlv where
  leafType := .int
  leafId := ⟨[67, 77, 68, 67, 79, 68, 69], by decide, by decide⟩
  value :=
    { bytes := sprintfD cmdCode.toInt
      fits := by
        have small : cmdCode.toInt.natAbs ≤ 2 ^ 31 := by
          have upper := cmdCode.toInt_lt
          have lower := cmdCode.le_toInt
          omega
        exact Nat.lt_of_le_of_lt (length_sprintfD small) (Nat.lt_of_sub_ne_zero nofun)
      noNul := sprintfD_noNul _ }

theorem length_reversed (buff : SerBuff) :
    ((List.range (units buff)).reverse.flatMap (unit tlvSize buff.b)).length = tlvSize * units buff := by
  have sized : ∀ i ∈ (List.range (units buff)).reverse, (unit tlvSize buff.b i).length = tlvSize := by
    intro i member
    have inside := buff.within
    have below := List.mem_range.mp (List.mem_reverse.mp member)
    rw [units, tlvSize] at below
    rw [unit, List.length_take, List.length_drop, tlvSize]
    omega
  rw [List.length_flatMap, List.map_congr_left sized, List.map_const', List.sum_replicate_nat,
    List.length_reverse, List.length_range, Nat.mul_comm]

theorem units_within (buff : SerBuff) : tlvSize * units buff ≤ buff.b.length :=
  Nat.le_trans (Nat.mul_div_le buff.next tlvSize) buff.within

/-- `swap_tlv_units`, for the first and the last TLV and on inwards. -/
def reverseTlvs (buff : SerBuff) : SerBuff :=
  if buff.next < 2 * tlvSize then buff
  else
    have same : (splice buff.b 0 ((List.range (units buff)).reverse.flatMap (unit tlvSize buff.b))).length =
        buff.b.length :=
      length_splice (by rw [length_reversed, Nat.zero_add]; exact units_within buff)
    { buff with
      b := splice buff.b 0 ((List.range (units buff)).reverse.flatMap (unit tlvSize buff.b))
      within := same ▸ buff.within
      marked := same ▸ buff.marked
      positive := same ▸ buff.positive }

theorem length_encode (tlv : Tlv) : tlv.encode.length = tlvSize := by
  rw [Tlv.encode, List.length_append, List.length_append, length_pad (Nat.le_of_lt tlv.leafId.fits),
    length_pad (Nat.le_of_lt tlv.value.fits)]
  rfl

theorem readTlv_encode (tlv : Tlv) : readTlv tlv.encode = tlv.fields := by
  have idLength := length_pad (Nat.le_of_lt tlv.leafId.fits)
  have valueLength := length_pad (Nat.le_of_lt tlv.value.fits)
  have afterType : tlv.encode.drop 4 = pad 32 tlv.leafId.bytes ++ pad 64 tlv.value.bytes := by
    rw [Tlv.encode, List.append_assoc]
    rfl
  have afterId : tlv.encode.drop 36 = pad 64 tlv.value.bytes := by
    rw [← List.drop_drop (i := 32) (j := 4), afterType]
    exact List.drop_left' idLength
  rw [readTlv, Tlv.fields, afterType, afterId]
  congr 1
  · rw [List.take_left' idLength, unpad_pad tlv.leafId.noNul]
  · rw [List.take_of_length_le (Nat.le_of_eq valueLength), unpad_pad tlv.value.noNul]

end TcpServerLib.Model
