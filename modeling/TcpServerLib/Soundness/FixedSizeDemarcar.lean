import TcpServerLib.Soundness.Demarcation

/-! # Fixed-size messages -/

namespace TcpServerLib.Soundness

open Machine Model Refinement

/-- A message is complete as soon as its `size` bytes are there. -/
def fixedFraming (size : ℕ) : Framing UInt8 where
  next s := if size ≤ s.length then some size else none
  overhead := 0
  within := by
    intro s n complete
    split_ifs at complete with enough
    cases complete
    exact enough
  stable := by
    intro s n t complete
    split_ifs at complete with enough
    cases complete
    exact if_pos (by rw [List.length_append]; omega)
  lag := by
    intro s t n incomplete complete
    split_ifs at incomplete complete with short enough
    cases complete
    omega

/-- The consecutive blocks of `size` bytes at the front of a stream. -/
def blocks (size : ℕ) (s : Bytes) : List Bytes :=
  (List.range (s.length / size)).map fun i => (s.drop (i * size)).take size

theorem blocks_cons {size : ℕ} {s : Bytes} (positive : 0 < size) (enough : size ≤ s.length) :
    blocks size s = s.take size :: blocks size (s.drop size) := by
  have count : s.length / size = (s.drop size).length / size + 1 := by
    rw [List.length_drop]
    exact Nat.div_eq_sub_div positive enough
  rw [blocks, count, List.range_succ_eq_map, List.map_cons, List.map_map, Nat.zero_mul, List.drop_zero, blocks]
  congr 1
  apply List.map_congr_left
  intro i _
  rw [Function.comp_apply, List.drop_drop, Nat.succ_mul, Nat.add_comm]

theorem fixedFraming_splits {size : ℕ} (positive : 0 < size) (s : Bytes) :
    (fixedFraming size).Splits s (blocks size s) (s.drop (s.length - s.length % size)) := by
  induction count : s.length / size generalizing s with
  | zero =>
    have short : s.length < size := by
      rcases Nat.div_eq_zero_iff.mp count with zero | short
      · omega
      · exact short
    rw [blocks, count, Nat.mod_eq_of_lt short, Nat.sub_self, List.drop_zero]
    exact .rest (if_neg (by omega))
  | succ k ih =>
    have enough : size ≤ s.length := by
      by_contra short
      rw [Nat.div_eq_of_lt (by omega)] at count
      contradiction
    have smaller : (s.drop size).length / size = k := by
      rw [List.length_drop]
      have := Nat.div_eq_sub_div positive enough
      omega
    have residue : (s.drop size).length % size = s.length % size := by
      rw [List.length_drop, ← Nat.mod_eq_sub_mod enough]
    have tail := ih (s.drop size) smaller
    have below := Nat.mod_lt s.length positive
    rw [residue, List.drop_drop, List.length_drop,
      show size + (s.length - size - s.length % size) = s.length - s.length % size by
        have whole := Nat.div_add_mod s.length size
        have large : size ≤ size * (s.length / size) := Nat.le_mul_of_pos_right _ (by omega)
        omega] at tail
    rw [blocks_cons positive enough]
    exact .message (if_pos enough) tail

theorem fixedSize_follows {size : UInt16} (positive : 0 < size.toNat) :
    Follows (TcpMsgFixedSizeDemarcar.ops size) (fixedFraming size.toNat) where
  ready := by
    intro msgd items holds
    have nonzero : ¬ size = 0 := fun zero => by rw [zero] at positive; exact absurd positive (by decide)
    change TcpMsgFixedSizeDemarcar.isBufferReadyToflush size msgd = _
    rw [TcpMsgFixedSizeDemarcar.isBufferReadyToflush, if_neg nonzero]
    congr 1
    have current : msgd.bcb.currentSize.toNat = items.length := holds.ring.current
    have quotient : 0 < msgd.bcb.currentSize / size ↔ size.toNat ≤ items.length := by
      rw [UInt16.lt_iff_toNat_lt, UInt16.toNat_div, current, UInt16.toNat_zero, Nat.div_pos_iff]
      omega
    simp only [quotient, fixedFraming]
    split_ifs with enough
    · exact decide_eq_true enough
    · exact decide_eq_false enough
  deliver := by
    intro msgd items n holds complete small
    simp only [fixedFraming] at complete
    split_ifs at complete with enough
    cases complete
    obtain ⟨buffer, bcb, granted, delivered, remaining⟩ := holds.read enough small
    refine ⟨_, ?_, remaining⟩
    change TcpMsgFixedSizeDemarcar.deliverOne size msgd = _
    simp only [TcpMsgFixedSizeDemarcar.deliverOne, granted, delivered, bind, Except.bind, pure, Except.pure]

/-- Whatever the chunks, the blocks of the stream are delivered in order, each once, and the ring
keeps what is left of the last one. The statement covers every prefix of the chunks as well, so
it describes the ring after every `ProcessMsg`. -/
theorem fixedSize_delivers (size : UInt16) (positive : 1 ≤ size.toNat)
    (bounded : size.toNat ≤ maxClientBufferSize) (chunks : List Bytes)
    (sizes : ∀ chunk ∈ chunks, 0 < chunk.length ∧ chunk.length ≤ maxClientBufferSize) (fuel : ℕ)
    (enough : chunks.flatten.length / size.toNat < fuel) :
    ∃ msgd, TcpMsgDemarcar.processMsgs (TcpMsgFixedSizeDemarcar.ops size) fuel .new chunks =
        .ok (blocks size.toNat chunks.flatten, msgd) ∧
      window msgd.bcb.buffer msgd.bcb.rear.toNat msgd.bcb.currentSize.toNat =
        chunks.flatten.drop (chunks.flatten.length - chunks.flatten.length % size.toNat) := by
  have split := fixedFraming_splits positive chunks.flatten
  have short : ∀ message ∈ blocks size.toNat chunks.flatten, message.length ≤ maxClientBufferSize := by
    intro message member
    obtain ⟨i, _, rfl⟩ := List.mem_map.mp member
    rw [List.length_take]
    omega
  have below := Nat.mod_lt chunks.flatten.length positive
  have incomplete : (fixedFraming size.toNat).next [] = none := if_neg (Nat.not_le.mpr positive)
  obtain ⟨msgd, ran, holds⟩ := processMsgs_ok (fixedSize_follows positive) sizes (Nat.zero_le _) split short
    (by rw [List.length_drop]; omega) incomplete holds_new
    (show (blocks size.toNat chunks.flatten).length < fuel by
      rwa [blocks, List.length_map, List.length_range])
  exact ⟨msgd, ran, holds.window⟩

theorem fixedSize_delivers_three_bytes :
    ∃ msgd, TcpMsgDemarcar.processMsgs (TcpMsgFixedSizeDemarcar.ops 2) 2 .new [[1], [2, 3]] =
        .ok (blocks 2 [1, 2, 3], msgd) ∧
      window msgd.bcb.buffer msgd.bcb.rear.toNat msgd.bcb.currentSize.toNat = [3] :=
  fixedSize_delivers 2 (by decide) (by decide) [[1], [2, 3]] (by decide) 2 (by decide)

end TcpServerLib.Soundness
