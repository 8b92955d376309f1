import TcpServerLib.Soundness.Demarcation

/-! # Length-prefixed messages

A frame starts with its total length in the byte order of the host. The class waits until more
than the header is there, so the framing recognises a frame of two bytes only once another byte
has followed it.
-/

namespace TcpServerLib.Soundness

open Machine Model Refinement

theorem uint16_append {order : ByteOrder} {s : Bytes} (header : 2 ≤ s.length) (t : Bytes) :
    order.uint16 (s ++ t) = order.uint16 s := by
  rcases s with _ | ⟨first, _ | ⟨second, rest⟩⟩
  · contradiction
  · contradiction
  · cases order <;> rfl

theorem uint16_take {order : ByteOrder} {s : Bytes} (header : 2 ≤ s.length) :
    order.uint16 (s.take 2) = order.uint16 s := by
  have short : 2 ≤ (s.take 2).length := by rw [List.length_take]; omega
  rw [← uint16_append short (s.drop 2), List.take_append_drop]

/-- The framing of the announced lengths, honest or not. -/
def variableFraming (order : ByteOrder) : Framing UInt8 where
  next s := if 2 < s.length ∧ (order.uint16 s).toNat ≤ s.length then some (order.uint16 s).toNat else none
  overhead := 2
  within := by
    intro s n complete
    split_ifs at complete with enough
    cases complete
    exact enough.2
  stable := by
    intro s n t complete
    split_ifs at complete with enough
    cases complete
    rw [uint16_append (by omega), if_pos]
    rw [List.length_append]
    omega
  lag := by
    intro s t n incomplete complete
    split_ifs at incomplete complete with short enough
    cases complete
    by_cases header : 2 ≤ s.length
    · rw [uint16_append header] at enough ⊢
      omega
    · omega

section

variable {order : ByteOrder} {msgd : TcpMsgDemarcar} {items : Bytes} {n : ℕ}

theorem variableFraming_next (complete : (variableFraming order).next items = some n) :
    2 < items.length ∧ n ≤ items.length ∧ (order.uint16 items).toNat = n := by
  simp only [variableFraming] at complete
  split_ifs at complete with enough
  cases complete
  exact ⟨enough.1, enough.2, rfl⟩

theorem variableFraming_next_header (header : items.length ≤ 2) :
    (variableFraming order).next items = none := by
  simp only [variableFraming]
  exact if_neg fun enough => absurd enough.1 (Nat.not_lt.mpr header)

theorem peekMsgSize_ok (holds : Holds msgd items) (header : 2 ≤ items.length) :
    TcpMsgVariableSizeDemarcar.peekMsgSize order msgd = .ok (order.uint16 items) := by
  have small : hdrMsgSize.toNat = 2 := rfl
  have enough : hdrMsgSize.toNat ≤ items.length := header
  have room : hdrMsgSize.toNat ≤ ([0, 0] : Bytes).length := Nat.le_refl 2
  obtain ⟨_, granted, _, _⟩ := bcbRead_accepts holds.ring enough room false
  have taken : (items.take 2).length = 2 := List.length_take_of_le header
  have whole : splice [0, 0] 0 (items.take 2) = items.take 2 := by
    rw [splice, taken]
    exact List.append_nil _
  simp only [TcpMsgVariableSizeDemarcar.peekMsgSize, granted, small, whole, uint16_take header, bind,
    Except.bind, pure, Except.pure]

theorem variableSize_ready (holds : Holds msgd items) :
    TcpMsgVariableSizeDemarcar.isBufferReadyToflush order msgd =
      .ok ((variableFraming order).next items).isSome := by
  have current : msgd.bcb.currentSize.toNat = items.length := holds.ring.current
  have small : hdrMsgSize.toNat = 2 := rfl
  by_cases waiting : msgd.bcb.currentSize ≤ hdrMsgSize
  · have short : ¬ 2 < items.length := by rw [UInt16.le_iff_toNat_le] at waiting; omega
    simp only [TcpMsgVariableSizeDemarcar.isBufferReadyToflush, if_pos waiting, variableFraming, short,
      false_and, if_false, Option.isSome_none]
    rfl
  · have header : 2 < items.length := by rw [UInt16.le_iff_toNat_le] at waiting; omega
    have announced : order.uint16 items ≤ msgd.bcb.currentSize ↔ (order.uint16 items).toNat ≤
        items.length := by
      rw [UInt16.le_iff_toNat_le, current]
    simp only [TcpMsgVariableSizeDemarcar.isBufferReadyToflush, if_neg waiting,
      peekMsgSize_ok holds (Nat.le_of_lt header), announced, variableFraming, header, true_and, bind,
      Except.bind, pure, Except.pure]
    split_ifs with enough
    · rw [decide_eq_true enough, Option.isSome_some]
    · rw [decide_eq_false enough, Option.isSome_none]

theorem variableSize_follows : Follows (TcpMsgVariableSizeDemarcar.ops order) (variableFraming order) where
  ready := variableSize_ready
  deliver := by
    intro msgd items n holds complete small
    obtain ⟨header, enough, rfl⟩ := variableFraming_next complete
    obtain ⟨buffer, bcb, granted, delivered, remaining⟩ := holds.read enough small
    refine ⟨_, ?_, remaining⟩
    change TcpMsgVariableSizeDemarcar.deliverOne order msgd = _
    simp only [TcpMsgVariableSizeDemarcar.deliverOne, peekMsgSize_ok holds (Nat.le_of_lt header),
      granted, if_true, delivered, bind, Except.bind, pure, Except.pure]

end

/-- The two bytes of a `uint16_t` in memory. -/
def encodeUInt16 (order : ByteOrder) (n : UInt16) : Bytes :=
  match order with
  | .littleEndian => [n.toUInt8, (n / 256).toUInt8]
  | .bigEndian => [(n / 256).toUInt8, n.toUInt8]

theorem uint16_encodeUInt16 (order : ByteOrder) (n : UInt16) (t : Bytes) :
    order.uint16 (encodeUInt16 order n ++ t) = n := by
  have halves : n.toUInt8.toUInt16 + (n / 256).toUInt8.toUInt16 * 256 = n := by
    have range := n.toNat_lt
    have quotient := Nat.div_lt_of_lt_mul (show n.toNat < 256 * 256 from range)
    rw [← UInt16.toNat_inj]
    simp only [UInt16.toNat_add, UInt16.toNat_mul, UInt8.toNat_toUInt16, UInt16.toNat_toUInt8, UInt16.toNat_div,
      UInt16.toNat_ofNat, Nat.reducePow, Nat.reduceMod]
    omega
  cases order <;> exact halves

theorem length_framed (order : ByteOrder) (n : UInt16) (payload : Bytes) :
    (encodeUInt16 order n ++ payload).length = payload.length + 2 := by
  rw [List.length_append, Nat.add_comm]
  cases order <;> rfl

theorem uint16_framed (order : ByteOrder) {payload : Bytes}
    (short : payload.length + 2 ≤ maxClientBufferSize) (t : Bytes) :
    (order.uint16 (encodeUInt16 order (UInt16.ofNat (payload.length + 2)) ++ payload ++ t)).toNat =
      payload.length + 2 := by
  have scratch : maxClientBufferSize = 1024 := rfl
  rw [List.append_assoc, uint16_encodeUInt16]
  exact UInt16.toNat_ofNat_of_lt' (show _ < 65536 by omega)

/-- A frame of 3 to 1024 bytes, its header included. -/
structure Frame where
  payload : Bytes
  nonempty : 1 ≤ payload.length
  short : payload.length + 2 ≤ maxClientBufferSize

def Frame.bytes (order : ByteOrder) (frame : Frame) : Bytes :=
  encodeUInt16 order (UInt16.ofNat (frame.payload.length + 2)) ++ frame.payload

theorem Frame.length_bytes (order : ByteOrder) (frame : Frame) :
    (frame.bytes order).length = frame.payload.length + 2 :=
  length_framed order _ frame.payload

theorem Frame.uint16_bytes (order : ByteOrder) (frame : Frame) (t : Bytes) :
    (order.uint16 (frame.bytes order ++ t)).toNat = (frame.bytes order).length := by
  rw [frame.length_bytes]
  exact uint16_framed order frame.short t

/-- A frame at the front of a stream is its first message. -/
theorem Frame.complete (order : ByteOrder) (frame : Frame) (t : Bytes) :
    (variableFraming order).next (frame.bytes order ++ t) = some (frame.bytes order).length := by
  have nonempty := frame.nonempty
  have length := frame.length_bytes order
  simp only [variableFraming, frame.uint16_bytes]
  exact if_pos ⟨by rw [List.length_append]; omega, by rw [List.length_append]; omega⟩

/-- A proper prefix of a frame contains no complete message. -/
theorem Frame.prefix_incomplete {order : ByteOrder} {frame : Frame} {tail : Bytes}
    (part : tail <+: frame.bytes order) (proper : tail ≠ frame.bytes order) :
    (variableFraming order).next tail = none := by
  obtain ⟨missing, joined⟩ := part
  have shorter : tail.length < (frame.bytes order).length := by
    have lengths := congrArg List.length joined
    have something : missing ≠ [] := by
      rintro rfl
      exact proper (by rw [← joined, List.append_nil])
    have := List.length_pos_iff.mpr something
    rw [List.length_append] at lengths
    omega
  cases found : (variableFraming order).next tail with
  | none => rfl
  | some n =>
    have whole := (variableFraming order).stable missing found
    have complete := frame.complete order []
    rw [List.append_nil] at complete
    rw [joined, complete] at whole
    have fits := (variableFraming order).within found
    cases whole
    omega

theorem frames_split (order : ByteOrder) (frames : List Frame) {tail : Bytes}
    (incomplete : (variableFraming order).next tail = none) :
    (variableFraming order).Splits ((frames.map (Frame.bytes order)).flatten ++ tail)
      (frames.map (Frame.bytes order)) tail := by
  induction frames with
  | nil => exact .rest incomplete
  | cons frame frames ih =>
    rw [List.map_cons, List.flatten_cons, List.append_assoc]
    exact ih.cons (frame.complete order _)

/-- A stream of frames, with a part of one more at its end, arrives as exactly these frames
whatever its chunks, and the ring keeps the part. -/
theorem variableSize_delivers (order : ByteOrder) (frames : List Frame) (last : Frame) (tail : Bytes)
    (part : tail <+: last.bytes order) (proper : tail ≠ last.bytes order) (chunks : List Bytes)
    (sizes : ∀ chunk ∈ chunks, 0 < chunk.length ∧ chunk.length ≤ maxClientBufferSize)
    (stream : chunks.flatten = (frames.map (Frame.bytes order)).flatten ++ tail) (fuel : ℕ)
    (enough : frames.length < fuel) :
    ∃ msgd, TcpMsgDemarcar.processMsgs (TcpMsgVariableSizeDemarcar.ops order) fuel .new chunks =
        .ok (frames.map (Frame.bytes order), msgd) ∧
      window msgd.bcb.buffer msgd.bcb.rear.toNat msgd.bcb.currentSize.toNat = tail := by
  have scratch : maxClientBufferSize = 1024 := rfl
  have split := frames_split order frames (Frame.prefix_incomplete part proper)
  rw [← stream] at split
  have short : ∀ message ∈ frames.map (Frame.bytes order), message.length ≤ maxClientBufferSize := by
    intro message member
    obtain ⟨frame, _, rfl⟩ := List.mem_map.mp member
    rw [frame.length_bytes]
    exact frame.short
  have rest : tail.length ≤ maxClientBufferSize := by
    have bound := part.length_le
    have whole := last.short
    rw [last.length_bytes] at bound
    omega
  have overhead : (variableFraming order).overhead ≤ maxClientBufferSize := show 2 ≤ 1024 by decide
  have empty : (variableFraming order).next [] = none := variableFraming_next_header (Nat.zero_le 2)
  obtain ⟨msgd, ran, holds⟩ := processMsgs_ok variableSize_follows sizes overhead split short rest empty
    holds_new (by rwa [List.length_map])
  exact ⟨msgd, ran, holds.window⟩

theorem variableSize_delivers_one_frame :
    ∃ msgd, TcpMsgDemarcar.processMsgs (TcpMsgVariableSizeDemarcar.ops .littleEndian) 2 .new [[3], [0, 7, 4]] =
        .ok ([[3, 0, 7]], msgd) ∧
      window msgd.bcb.buffer msgd.bcb.rear.toNat msgd.bcb.currentSize.toNat = [4] := by
  have frames : [(⟨[7], by decide, by decide⟩ : Frame)].map (Frame.bytes .littleEndian) =
      [[3, 0, 7]] := by decide
  rw [← frames]
  exact variableSize_delivers .littleEndian _ ⟨[5, 6], by decide, by decide⟩ [4] (by decide) (by decide)
    [[3], [0, 7, 4]] (by decide) (by decide) 2 (by decide)

end TcpServerLib.Soundness
