import TcpServerLib.Refinement.GrowingBuffer

/-! # What is written is read back

A writer puts the bytes of its value behind what has been written, wherever the buffer has to grow,
and leaves the bytes in front of them alone. The readers walk over the same bytes.
-/

namespace TcpServerLib.Soundness

open Machine Model Refinement

variable {item : Item} {items later : List Item} {b : Bytes} {next checkpoint : ℕ}

/-- The values one behind the other. -/
def serialized (items : List Item) : Bytes :=
  items.flatMap Item.bytes

theorem serialized_cons (item : Item) (items : List Item) : serialized (item :: items) =
    item.bytes ++ serialized items :=
  List.flatMap_cons

theorem serialized_append (items later : List Item) : serialized (items ++ later) =
    serialized items ++ serialized later :=
  List.flatMap_append

/-- A string has at least one character. -/
def Readable (item : Item) : Prop :=
  ∀ data, item = .string data → data ≠ []

theorem write_returns (checkpoint : ℕ) (item : Item) (inside : next ≤ b.length)
    (positive : 0 < b.length) (small : b.length < 2 ^ 31)
    (total : next + item.bytes.length < 2 ^ 30) :
    ∃ fuel, item.write fuel (bufferOver b next checkpoint) =
      .ok (bufferOver (splice (grownBlock b (next + item.bytes.length)) next item.bytes)
        (next + item.bytes.length) checkpoint) := by
  have primitive := compares_lessSizeT next item.bytes.length
  have positive : next + item.bytes.length ≤ b.length ∨ 0 < b.length := .inr positive
  cases item with
  | string data => exact serialize_returns (compares_lessInt next data.length) inside small total positive
  | _ => exact serialize_returns primitive inside small total positive

theorem write_stable (item : Item) (buff : SerializedBuffer) : Stable fun fuel => item.write fuel buff := by
  cases item <;> exact serialize_stable _ buff _

theorem writes_unique {buff after after' : SerializedBuffer} (first : Writes items buff after)
    (second : Writes items buff after') :
    after = after' := by
  induction first with
  | nil buff =>
    cases second
    rfl
  | cons written _ ih =>
    cases second with
    | cons written' rest' =>
      cases (write_stable _ _).unique written written'
      exact ih rest'

theorem writes_append {earlier : List Item} {buff after : SerializedBuffer}
    (writes : Writes (earlier ++ later) buff after) :
    ∃ middle, Writes earlier buff middle ∧ Writes later middle after := by
  induction earlier generalizing buff with
  | nil => exact ⟨buff, .nil buff, writes⟩
  | cons item earlier ih =>
    cases writes with
    | cons written rest =>
      obtain ⟨middle, first, second⟩ := ih rest
      exact ⟨middle, .cons written first, second⟩

/-- All values are written, each behind the one before. -/
theorem writes_serialized (checkpoint : ℕ) (items : List Item) (inside : next ≤ b.length)
    (positive : 0 < b.length) (small : b.length < 2 ^ 31)
    (total : next + (serialized items).length < 2 ^ 30) :
    ∃ b', Writes items (bufferOver b next checkpoint)
    (bufferOver b' (next + (serialized items).length) checkpoint) ∧
      b'.take (next + (serialized items).length) = b.take next ++ serialized items ∧
      next + (serialized items).length ≤ b'.length ∧ 0 < b'.length ∧ b'.length < 2 ^ 31 := by
  induction items generalizing b next with
  | nil => exact ⟨b, .nil _, (List.append_nil _).symm, inside, positive, small⟩
  | cons item items ih =>
    rw [serialized_cons, List.length_append] at total ⊢
    obtain ⟨fuel, written⟩ := write_returns checkpoint item inside positive small (by omega)
    obtain ⟨_, room, larger⟩ := length_grownBlock b (next + item.bytes.length) (.inr positive)
    have length : (splice (grownBlock b (next + item.bytes.length)) next item.bytes).length =
        (grownBlock b (next + item.bytes.length)).length := length_splice room
    have bounded := length_grownBlock_lt small
        (Nat.le_of_lt (by omega : next + item.bytes.length < 2 ^ 30)) (.inr positive)
    have rest : next + item.bytes.length + (serialized items).length < 2 ^ 30 := by omega
    obtain ⟨b', writes, taken, inside', positive', small'⟩ :=
      ih (by rwa [length]) (by omega) (by rwa [length]) rest
    rw [Nat.add_assoc] at writes taken inside'
    refine ⟨b', .cons written writes, ?_, inside', positive', small'⟩
    rw [taken, take_written inside, List.append_assoc]

theorem decode_bytes (item : Item) : item.type.decode item.bytes = item := by
  cases item with
  | int8 data =>
    have small : data.toUInt8.toNat < 256 ^ 1 := data.toUInt8.toNat_lt
    rw [Item.type, Item.bytes, ItemType.decode, decodeLE_encodeLE small, UInt8.ofNat_toNat]
    rfl
  | uint8 data =>
    have small : data.toNat < 256 ^ 1 := data.toNat_lt
    rw [Item.type, Item.bytes, ItemType.decode, decodeLE_encodeLE small, UInt8.ofNat_toNat]
  | int32 data =>
    have small : data.toUInt32.toNat < 256 ^ 4 := data.toUInt32.toNat_lt
    rw [Item.type, Item.bytes, ItemType.decode, decodeLE_encodeLE small, UInt32.ofNat_toNat]
    rfl
  | uint32 data =>
    have small : data.toNat < 256 ^ 4 := data.toNat_lt
    rw [Item.type, Item.bytes, ItemType.decode, decodeLE_encodeLE small, UInt32.ofNat_toNat]
  | string data => rfl

theorem loadAt_ok {n : ℕ} (inside : next + n ≤ b.length) : loadAt b next n = .ok ((b.drop next).take n) := by
  rw [loadAt, if_pos ⟨Int.natCast_nonneg _, by exact_mod_cast inside⟩, Int.toNat_natCast]

theorem deserializePrimitive_reads {width : ℕ} (inside : next + width ≤ b.length)
    (small : next + width < 2 ^ 31) :
    (bufferOver b next checkpoint).deserializePrimitive width =
      .ok ((b.drop next).take width, bufferOver b (next + width) checkpoint) := by
  have moves : (next : ℤ) + width = (next + width : ℕ) := by push_cast; rfl
  rw [SerializedBuffer.deserializePrimitive, show loadAt (bufferOver b next checkpoint).b
    (bufferOver b next checkpoint).next width = _ from loadAt_ok inside]
  dsimp only
  rw [forward_ok moves small]
  rfl

theorem deSerializeString_reads {size : ℕ} (positive : size ≠ 0) (inside : next + size ≤ b.length)
    (small : next + size < 2 ^ 31) :
    (bufferOver b next checkpoint).deSerializeString size =
      .ok ((b.drop next).take size, bufferOver b (next + size) checkpoint) := by
  have moves : (next : ℤ) + size = (next + size : ℕ) := by push_cast; rfl
  have room : ¬ (bufferOver b next checkpoint).size - (bufferOver b next checkpoint).next < size := by
    rw [bufferOver]
    dsimp only
    omega
  rw [SerializedBuffer.deSerializeString, if_neg positive, if_neg room,
    show loadAt (bufferOver b next checkpoint).b (bufferOver b next checkpoint).next size =
      _ from loadAt_ok inside]
  dsimp only
  rw [forward_ok moves small]
  rfl

theorem read_item (readable : Readable item) (inside : next + item.bytes.length ≤ b.length)
    (small : next + item.bytes.length < 2 ^ 31) :
    item.type.read (bufferOver b next checkpoint) =
      .ok ((b.drop next).take item.bytes.length, bufferOver b (next + item.bytes.length) checkpoint) := by
  cases item with
  | string data =>
    have nonempty : data.length ≠ 0 := fun empty => readable data rfl (List.length_eq_zero_iff.mp empty)
    exact deSerializeString_reads nonempty inside small
  | _ => exact deserializePrimitive_reads inside small

theorem readAll_serialized (readable : ∀ item ∈ items, Readable item)
    (holds : serialized items <+: b.drop next)
    (small : next + (serialized items).length < 2 ^ 31) (inside : next ≤ b.length) :
    readAll (items.map Item.type) (bufferOver b next checkpoint) =
      .ok (items, bufferOver b (next + (serialized items).length) checkpoint) := by
  induction items generalizing next with
  | nil => rfl
  | cons item items ih =>
    rw [serialized_cons] at holds
    rw [serialized_cons, List.length_append] at small ⊢
    have first : item.bytes <+: b.drop next := (List.prefix_append _ _).trans holds
    have fits := holds.length_le
    rw [List.length_append, List.length_drop] at fits
    have rest : serialized items <+: b.drop (next + item.bytes.length) := by
      obtain ⟨behind, whole⟩ := holds
      rw [← List.drop_drop, ← whole, List.append_assoc, List.drop_left]
      exact List.prefix_append _ _
    have inside' : next + item.bytes.length ≤ b.length := by omega
    rw [List.map_cons, readAll, read_item (readable item List.mem_cons_self) inside' (by omega)]
    dsimp only
    rw [ih (fun other member => readable other (List.mem_cons_of_mem _ member)) rest (by omega) (by omega),
      ← List.prefix_iff_eq_take.mp first, Except.map]
    dsimp only
    rw [decode_bytes, Nat.add_assoc]

/-- A buffer that is reset gives back what was written into it, and what is written stays where it is. -/
theorem items_roundtrip {size : ℕ} (positive : 1 ≤ size) (small : size < 2 ^ 31) {items : List Item}
    (readable : ∀ item ∈ items, Readable item) (total : (serialized items).length < 2 ^ 30) :
    ∃ written, Writes items (.initSerializedBufferOfDefinedSize size) written ∧
      (∃ after, readAll (items.map Item.type) written.reset = .ok (items, after)) ∧
      ∀ earlier later, items = earlier ++ later →
      ∃ middle, Writes earlier (.initSerializedBufferOfDefinedSize size) middle ∧
        Writes later middle written ∧ middle.next = (serialized earlier).length ∧
        written.b.take (serialized earlier).length = middle.b.take (serialized earlier).length := by
  obtain ⟨block, start, length⟩ : ∃ block : Bytes,
      SerializedBuffer.initSerializedBufferOfDefinedSize size = bufferOver block 0 0 ∧ block.length = size := by
    refine ⟨List.replicate size 0, ?_, List.length_replicate ..⟩
    rw [SerializedBuffer.initSerializedBufferOfDefinedSize, bufferOver, List.length_replicate]
    rfl
  have fresh (items : List Item) (total : (serialized items).length < 2 ^ 30) :=
    @writes_serialized block 0 0 items (Nat.zero_le _) (by omega) (by omega) (by rwa [Nat.zero_add])
  obtain ⟨b, writes, taken, inside, _, _⟩ := fresh items total
  rw [Nat.zero_add] at writes taken inside
  rw [List.take_zero, List.nil_append] at taken
  rw [start]
  refine ⟨_, writes, ?_, ?_⟩
  · have holds : serialized items <+: b.drop 0 := taken ▸ List.take_prefix _ b
    exact ⟨_, readAll_serialized readable holds (by rw [Nat.zero_add]; omega) (Nat.zero_le _)⟩
  · rintro earlier later rfl
    obtain ⟨middle, first, second⟩ := writes_append writes
    rw [serialized_append, List.length_append] at total
    obtain ⟨b', writes', taken', _⟩ := fresh earlier (by omega)
    rw [Nat.zero_add] at writes' taken'
    rw [List.take_zero, List.nil_append] at taken'
    cases writes_unique first writes'
    refine ⟨_, first, second, rfl, ?_⟩
    have front := congrArg (List.take (serialized earlier).length) taken
    rw [List.take_take, serialized_append, List.take_left, List.length_append,
      Nat.min_eq_left (Nat.le_add_right _ _)] at front
    exact front.trans taken'.symm

/-- A buffer of one byte that grows for a number and for a string. -/
theorem items_roundtrip_int32 : ∃ written,
    Writes [.int32 (-2), .string [97, 98, 99]] (.initSerializedBufferOfDefinedSize 1) written ∧
      ∃ after, readAll [.int32, .string 3] written.reset =
        .ok ([.int32 (-2), .string [97, 98, 99]], after) := by
  have readable : ∀ item ∈ [Item.int32 (-2), .string [97, 98, 99]], Readable item := by
    intro item member data same
    rcases List.mem_cons.mp member with rfl | member
    · cases same
    · rw [List.mem_singleton.mp member] at same
      cases same
      exact List.cons_ne_nil _ _
  obtain ⟨written, writes, read, _⟩ := items_roundtrip (Nat.le_refl 1) (by decide) readable (by decide)
  exact ⟨written, writes, read⟩

end TcpServerLib.Soundness
