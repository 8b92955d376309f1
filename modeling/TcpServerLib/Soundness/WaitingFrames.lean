import Mathlib.Data.List.Infix
import TcpServerLib.Soundness.AnnouncedLengths

/-! # Frames left in the ring

A frame of two bytes is a header without a payload. The readiness test wants more than a header,
so such a frame is handed out with the bytes that follow it, and waits where nothing does.
-/

namespace TcpServerLib.Soundness

open Machine Model Refinement

/-- A frame of 2 to 1024 bytes, its header included. -/
structure Packet where
  payload : Bytes
  short : payload.length + 2 ≤ maxClientBufferSize

def Packet.bytes (order : ByteOrder) (packet : Packet) : Bytes :=
  encodeUInt16 order (UInt16.ofNat (packet.payload.length + 2)) ++ packet.payload

/-- What has been received ends with a frame that has no payload. -/
inductive EndsBare (order : ByteOrder) : List Packet → Bytes → Prop
  | here {packet : Packet} {packets : List Packet} (bare : packet.payload = []) :
      EndsBare order (packet :: packets) (packet.bytes order)
  | later {packet : Packet} {packets : List Packet} {received : Bytes} (tail : EndsBare order packets received) :
      EndsBare order (packet :: packets) (packet.bytes order ++ received)

/-- The ring holds no complete frame. -/
def NoneWaiting (order : ByteOrder) (msgd : TcpMsgDemarcar) : Prop :=
  msgd.bcb.currentSize < 2 ∨ msgd.bcb.currentSize <
    order.uint16 (window msgd.bcb.buffer msgd.bcb.rear.toNat msgd.bcb.currentSize.toNat)

section

variable {order : ByteOrder} {packet : Packet} {packets : List Packet} {received rest : Bytes}
  {msgd : TcpMsgDemarcar}

theorem length_packet : (packet.bytes order).length = packet.payload.length + 2 :=
  length_framed order _ packet.payload

theorem uint16_packet : (order.uint16 (packet.bytes order ++ received)).toNat = (packet.bytes order).length := by
  rw [length_packet]
  exact uint16_framed order packet.short received

/-- A part of a frame announces more than it holds. -/
theorem uint16_part {part missing : Bytes} (joined : part ++ missing = packet.bytes order)
    (header : 2 ≤ part.length) :
    (order.uint16 part).toNat = part.length + missing.length := by
  have announced : (order.uint16 (packet.bytes order ++ [])).toNat = (packet.bytes order).length := uint16_packet
  rw [List.append_nil, ← joined, uint16_append header, List.length_append] at announced
  exact announced

theorem noneWaiting_iff_window (holds : Holds msgd rest) :
    NoneWaiting order msgd ↔ rest.length < 2 ∨ rest.length < (order.uint16 rest).toNat := by
  rw [NoneWaiting, holds.window, UInt16.lt_iff_toNat_lt, UInt16.lt_iff_toNat_lt, holds.current]
  exact Iff.rfl

theorem endsBare_length (ends : EndsBare order (packet :: packets) received) :
    (packet.bytes order).length ≤ received.length := by
  cases ends with
  | here => exact Nat.le_refl _
  | later =>
    rw [List.length_append]
    exact Nat.le_add_right _ _

/-- Behind a whole frame, it is the later ones that decide, unless nothing has come of them. -/
theorem endsBare_append : EndsBare order (packet :: packets) (packet.bytes order ++ received) ↔
    packet.payload = [] ∧ received = [] ∨ EndsBare order packets received := by
  constructor
  · intro ends
    generalize joined : packet.bytes order ++ received = all at ends
    cases ends with
    | here bare =>
      exact .inl ⟨bare, List.append_right_eq_self.mp joined⟩
    | later tail =>
      rw [List.append_cancel_left joined]
      exact .inr tail
  · rintro (⟨bare, rfl⟩ | tail)
    · rw [List.append_nil]
      exact .here bare
    · exact .later tail

/-- How the framing cuts what has been received of a stream of frames. -/
structure CutAt (order : ByteOrder) (packets : List Packet) (received : Bytes) (messages : List Bytes)
    (rest : Bytes) :
    Prop where
  splits : (variableFraming order).Splits received messages rest
  short : ∀ message ∈ messages, message.length ≤ maxClientBufferSize
  restShort : rest.length ≤ maxClientBufferSize
  waits : rest.length < 2 ∨ rest.length < (order.uint16 rest).toNat ↔ ¬ EndsBare order packets received

theorem cutAt_part {missing : Bytes} (joined : received ++ missing = packet.bytes order)
    (proper : missing ≠ []) :
    CutAt order (packet :: packets) received [] received := by
  have lengths := congrArg List.length joined
  rw [List.length_append, length_packet] at lengths
  have something := List.length_pos_iff.mpr proper
  have short := packet.short
  constructor
  · refine .rest (if_neg fun complete => ?_)
    have announced := uint16_part joined (Nat.le_of_lt complete.1)
    omega
  · simp
  · omega
  · refine iff_of_true ?_ fun ends => ?_
    · rcases Nat.lt_or_ge received.length 2 with header | whole
      · exact .inl header
      · rw [uint16_part joined whole]
        exact .inr (by omega)
    · have longer := endsBare_length ends
      rw [length_packet] at longer
      omega

/-- A bare header that nothing follows stays in the ring. -/
theorem cutAt_bare (bare : packet.payload = []) :
    CutAt order (packet :: packets) (packet.bytes order) [] (packet.bytes order) := by
  have length : (packet.bytes order).length = 2 := by
    rw [length_packet, bare]
    rfl
  have announced : (order.uint16 (packet.bytes order ++ [])).toNat = (packet.bytes order).length := uint16_packet
  rw [List.append_nil, length] at announced
  constructor
  · exact .rest (variableFraming_next_header (Nat.le_of_eq length))
  · simp
  · rw [length]
    decide
  · refine iff_of_false ?_ fun none => none (.here bare)
    rw [length, announced]
    decide

theorem cutAt_frame {messages : List Bytes} (more : packet.payload ≠ [] ∨ received ≠ [])
    (cut : CutAt order packets received messages rest) :
    CutAt order (packet :: packets) (packet.bytes order ++ received) (packet.bytes order :: messages) rest := by
  have header : 2 < (packet.bytes order ++ received).length := by
    rw [List.length_append, length_packet]
    rcases more with payload | follows
    · have := List.length_pos_iff.mpr payload
      omega
    · have := List.length_pos_iff.mpr follows
      omega
  have within : (packet.bytes order).length ≤ (packet.bytes order ++ received).length := by
    rw [List.length_append]
    exact Nat.le_add_right _ _
  constructor
  · refine cut.splits.cons ?_
    simp only [variableFraming, uint16_packet]
    exact if_pos ⟨header, within⟩
  · intro message member
    rcases List.mem_cons.mp member with rfl | later
    · rw [length_packet]
      exact packet.short
    · exact cut.short message later
  · exact cut.restShort
  · rw [cut.waits, endsBare_append]
    refine not_congr ⟨.inr, ?_⟩
    rintro (⟨bare, nothing⟩ | tail)
    · rcases more with payload | follows
      · exact absurd bare payload
      · exact absurd nothing follows
    · exact tail

/-- Whatever part of a stream of frames has been received, it is cut, and the rest of the cut is a
complete frame only where a bare header came last. -/
theorem exists_cutAt (part : received <+: (packets.map (Packet.bytes order)).flatten) :
    ∃ messages rest, CutAt order packets received messages rest := by
  induction packets generalizing received with
  | nil =>
    obtain rfl := List.prefix_nil.mp part
    exact ⟨[], [], .rest (variableFraming_next_header (Nat.zero_le 2)), nofun, Nat.zero_le _,
      iff_of_true (.inl (by decide)) nofun⟩
  | cons packet packets ih =>
    rw [List.map_cons, List.flatten_cons] at part
    have whole (later : Bytes) (more : later <+: (packets.map (Packet.bytes order)).flatten) :
        ∃ messages rest, CutAt order (packet :: packets) (packet.bytes order ++ later) messages rest := by
      by_cases ended : packet.payload = [] ∧ later = []
      · rw [ended.2, List.append_nil]
        exact ⟨_, _, cutAt_bare ended.1⟩
      · obtain ⟨messages, rest, cut⟩ := ih more
        exact ⟨_, _, cutAt_frame (Decidable.not_and_iff_or_not.mp ended) cut⟩
    rcases List.prefix_or_prefix_of_prefix part (List.prefix_append _ _) with ⟨missing, joined⟩
      | ⟨later, rfl⟩
    · rcases eq_or_ne missing [] with rfl | proper
      · rw [List.append_nil] at joined
        have all := whole [] List.nil_prefix
        rwa [List.append_nil, ← joined] at all
      · exact ⟨_, _, cutAt_part joined proper⟩
    · exact whole later ((List.prefix_append_right_inj _).mp part)

/-- Every part of a stream is received without a fault. -/
theorem received_ok {chunks : List Bytes} (sizes : ∀ chunk ∈ chunks, 0 < chunk.length ∧
      chunk.length ≤ maxClientBufferSize)
    (part : chunks.flatten <+: (packets.map (Packet.bytes order)).flatten) :
    ∃ fuel messages msgd, TcpMsgDemarcar.processMsgs (TcpMsgVariableSizeDemarcar.ops order) fuel .new chunks =
        .ok (messages, msgd) ∧ (NoneWaiting order msgd ↔ ¬ EndsBare order packets chunks.flatten) := by
  obtain ⟨messages, rest, cut⟩ := exists_cutAt part
  have overhead : (variableFraming order).overhead ≤ maxClientBufferSize := show 2 ≤ 1024 by decide
  have empty : (variableFraming order).next [] = none := variableFraming_next_header (Nat.zero_le 2)
  obtain ⟨msgd, ran, holds⟩ :=
    processMsgs_ok variableSize_follows sizes overhead cut.splits cut.short cut.restShort
    empty holds_new (Nat.lt_succ_self _)
  exact ⟨_, messages, msgd, ran, (noneWaiting_iff_window holds).trans cut.waits⟩

end

/-- Whatever the chunks, no complete frame is left in the ring after any of them exactly if none of
them ends with a frame that has no payload. -/
theorem noneWaiting_iff (order : ByteOrder) (packets : List Packet) (chunks : List Bytes)
    (sizes : ∀ chunk ∈ chunks, 0 < chunk.length ∧ chunk.length ≤ 1024)
    (stream : chunks.flatten <+: (packets.map (Packet.bytes order)).flatten) :
    (∀ early, early <+: chunks → ∃ fuel messages msgd,
      TcpMsgDemarcar.processMsgs (TcpMsgVariableSizeDemarcar.ops order) fuel .new early = .ok (messages, msgd) ∧
        NoneWaiting order msgd) ↔
    ∀ early, early <+: chunks → ¬ EndsBare order packets early.flatten := by
  have returns {early : List Bytes} (first : early <+: chunks) :=
    received_ok (fun chunk member => sizes chunk (first.subset member)) (first.flatten.trans stream)
  constructor
  · intro none early first
    obtain ⟨fuel, messages, msgd, ran, waits⟩ := returns first
    obtain ⟨fuel', messages', msgd', ran', empty⟩ := none early first
    cases (processMsgs_stable _ _ early).unique ran ran'
    exact waits.mp empty
  · intro followed early first
    obtain ⟨fuel, messages, msgd, ran, waits⟩ := returns first
    exact ⟨fuel, messages, msgd, ran, waits.mpr (followed early first)⟩

/-- A frame of three bytes in two chunks. -/
theorem noneWaiting_iff_frame :
    (∀ early, early <+: [[3], [0, 7]] → ∃ fuel messages msgd,
      TcpMsgDemarcar.processMsgs (TcpMsgVariableSizeDemarcar.ops .littleEndian) fuel .new early =
        .ok (messages, msgd) ∧ NoneWaiting .littleEndian msgd) ↔
    ∀ early, early <+: [[3], [0, 7]] → ¬ EndsBare .littleEndian [⟨[7], by decide⟩] early.flatten :=
  noneWaiting_iff .littleEndian _ [[3], [0, 7]] (by decide) (by decide)

/-- A frame of two bytes, received at once. -/
theorem bareHeader_waits :
    ¬ ∀ order (packets : List Packet) chunks, (∀ chunk ∈ chunks, 0 < chunk.length ∧
      chunk.length ≤ 1024) → chunks.flatten <+: (packets.map (Packet.bytes order)).flatten →
      ∀ fuel messages msgd, TcpMsgDemarcar.processMsgs (TcpMsgVariableSizeDemarcar.ops order) fuel .new chunks =
        .ok (messages, msgd) → NoneWaiting order msgd := by
  intro always
  have sizes : ∀ chunk ∈ [([2, 0] : Bytes)], 0 < chunk.length ∧ chunk.length ≤ 1024 := by decide
  have part : [([2, 0] : Bytes)].flatten <+:
      (([⟨[], by decide⟩] : List Packet).map (Packet.bytes .littleEndian)).flatten := by
    decide
  obtain ⟨fuel, messages, msgd, ran, waits⟩ := received_ok sizes part
  exact waits.mp (always _ _ _ sizes part _ _ _ ran) (.here rfl)

end TcpServerLib.Soundness
