import Mathlib.Logic.Relation
import TcpServerLib.Soundness.AnnouncedLengths

/-! # The end of the flush loop

An iteration of the loop takes out as many bytes as the header in front of the ring announces. The
loop comes to its end, one message shorter with each iteration, exactly when no header it gets to
announces nothing or more than the scratch buffer takes.
-/

namespace TcpServerLib.Soundness

open Machine Model Refinement

/-- What the loop can work off. -/
inductive Flushable (order : ByteOrder) : Bytes → Prop
  | rest {s : Bytes} (incomplete : (variableFraming order).next s = none) : Flushable order s
  | frame {s : Bytes} {n : ℕ} (complete : (variableFraming order).next s = some n) (positive : 0 < n)
      (fits : n ≤ maxClientBufferSize) (tail : Flushable order (s.drop n)) : Flushable order s

/-- One iteration of `ProcessClientMsg`. -/
def FlushStep (order : ByteOrder) (msgd next : TcpMsgDemarcar) : Prop :=
  TcpMsgVariableSizeDemarcar.isBufferReadyToflush order msgd = .ok true ∧
    ∃ message, TcpMsgVariableSizeDemarcar.deliverOne order msgd = .ok (message, next)

/-- The loop returns, and every iteration on the way there takes bytes out of the ring. -/
structure FlushEnds (order : ByteOrder) (msgd : TcpMsgDemarcar) : Prop where
  returns : ∃ fuel result,
    TcpMsgDemarcar.processClientMsg (TcpMsgVariableSizeDemarcar.ops order) fuel msgd = .ok result
  removes : ∀ {reached next}, Relation.ReflTransGen (FlushStep order) msgd reached →
    FlushStep order reached next → next.bcb.currentSize < reached.bcb.currentSize

section

variable {order : ByteOrder} {msgd next : TcpMsgDemarcar} {s : Bytes} {n : ℕ}

theorem processClientMsg_step {message : Bytes} {fuel : ℕ}
    (ready : TcpMsgVariableSizeDemarcar.isBufferReadyToflush order msgd = .ok true)
    (delivered : TcpMsgVariableSizeDemarcar.deliverOne order msgd = .ok (message, next)) :
    TcpMsgDemarcar.processClientMsg (TcpMsgVariableSizeDemarcar.ops order) (fuel + 1) msgd =
      (TcpMsgDemarcar.processClientMsg (TcpMsgVariableSizeDemarcar.ops order) fuel next).map
        fun (messages, last) => (message :: messages, last) :=
  whileLoop_step ready delivered fuel

/-- A loop that stops at once. -/
theorem flushEnds_rest (holds : Holds msgd s) (incomplete : (variableFraming order).next s = none) :
    FlushEnds order msgd := by
  have ready := @variableSize_ready order msgd s holds
  rw [incomplete] at ready
  constructor
  · exact ⟨1, _, whileLoop_exit ready 0⟩
  · intro reached next path step
    rcases Relation.ReflTransGen.cases_head path with rfl | ⟨_, first, _⟩
    · cases ready.symm.trans step.1
    · cases ready.symm.trans first.1

theorem flushStep_iff (holds : Holds msgd s) (complete : (variableFraming order).next s = some n)
    (fits : n ≤ maxClientBufferSize) :
    ∃ after, Holds after (s.drop n) ∧ ∀ next, FlushStep order msgd next ↔ next = after := by
  obtain ⟨after, delivered, left⟩ := variableSize_follows.deliver holds complete fits
  have ready := @variableSize_ready order msgd s holds
  rw [complete] at ready
  refine ⟨after, left, fun next => ⟨?_, ?_⟩⟩
  · rintro ⟨_, message, again⟩
    cases delivered.symm.trans again
    rfl
  · rintro rfl
    exact ⟨ready, _, delivered⟩

theorem flushEnds_frame {after : TcpMsgDemarcar} (holds : Holds msgd s)
    (complete : (variableFraming order).next s = some n)
    (positive : 0 < n) (left : Holds after (s.drop n))
    (only : ∀ next, FlushStep order msgd next ↔ next = after)
    (ends : FlushEnds order after) : FlushEnds order msgd := by
  have smaller : after.bcb.currentSize < msgd.bcb.currentSize := by
    have within := (variableFraming order).within complete
    rw [UInt16.lt_iff_toNat_lt, holds.current, left.current, List.length_drop]
    omega
  obtain ⟨ready, message, delivered⟩ := (only after).mpr rfl
  constructor
  · obtain ⟨fuel, ⟨messages, last⟩, ran⟩ := ends.returns
    refine ⟨fuel + 1, (message :: messages, last), ?_⟩
    rw [processClientMsg_step ready delivered, ran]
    rfl
  · intro reached next path step
    rcases Relation.ReflTransGen.cases_head path with rfl | ⟨middle, first, rest⟩
    · obtain rfl := (only next).mp step
      exact smaller
    · obtain rfl := (only middle).mp first
      exact ends.removes rest step

/-- The rest of a loop that ends. -/
theorem FlushEnds.tail (ends : FlushEnds order msgd) (step : FlushStep order msgd next) :
    FlushEnds order next := by
  constructor
  · obtain ⟨fuel, result, ran⟩ := ends.returns
    obtain ⟨ready, message, delivered⟩ := step
    cases fuel with
    | zero => cases ran
    | succ fuel =>
      rw [processClientMsg_step ready delivered] at ran
      cases tail : TcpMsgDemarcar.processClientMsg (TcpMsgVariableSizeDemarcar.ops order) fuel next with
      | error cut =>
        rw [tail] at ran
        cases ran
      | ok result => exact ⟨fuel, result, tail⟩
  · intro reached after path last
    exact ends.removes (.head step path) last

theorem flushEnds_of_flushable (flushable : Flushable order s) (holds : Holds msgd s) : FlushEnds order msgd := by
  induction flushable generalizing msgd with
  | rest incomplete => exact flushEnds_rest holds incomplete
  | frame complete positive fits _ ih =>
    obtain ⟨after, left, only⟩ := flushStep_iff holds complete fits
    exact flushEnds_frame holds complete positive left only (ih left)

/-- A header of zero is delivered and stays. -/
theorem not_flushEnds_zero (holds : Holds msgd s) (complete : (variableFraming order).next s = some 0) :
    ¬ FlushEnds order msgd := by
  intro ends
  obtain ⟨after, left, only⟩ := flushStep_iff holds complete (Nat.zero_le _)
  have smaller := ends.removes .refl ((only after).mpr rfl)
  rw [UInt16.lt_iff_toNat_lt, holds.current, left.current, List.drop_zero] at smaller
  exact Nat.lt_irrefl _ smaller

theorem not_flushEnds_long (holds : Holds msgd s) (complete : (variableFraming order).next s = some n)
    (excess : maxClientBufferSize < n) : ¬ FlushEnds order msgd := by
  rintro ⟨⟨fuel, result, ran⟩, _⟩
  obtain ⟨header, within, value⟩ := variableFraming_next complete
  have ready := @variableSize_ready order msgd s holds
  rw [complete] at ready
  have overflows := deliverOne_overflows holds header (value ▸ within) (value ▸ excess)
  cases fuel with
  | zero => cases ran
  | succ fuel => cases (whileLoop_stopped ready overflows fuel).symm.trans ran

theorem flushable_of_flushEnds (ends : FlushEnds order msgd) (holds : Holds msgd s) : Flushable order s := by
  induction size : s.length using Nat.strongRecOn generalizing s msgd with
  | _ k ih =>
    cases found : (variableFraming order).next s with
    | none => exact .rest found
    | some n =>
      rcases Nat.eq_zero_or_pos n with rfl | positive
      · exact absurd ends (not_flushEnds_zero holds found)
      · rcases Nat.lt_or_ge maxClientBufferSize n with excess | fits
        · exact absurd ends (not_flushEnds_long holds found excess)
        · obtain ⟨after, left, only⟩ := flushStep_iff holds found fits
          have within := (variableFraming order).within found
          have shorter : (s.drop n).length < k := by
            rw [List.length_drop]
            omega
          exact .frame found positive fits (ih _ shorter (ends.tail ((only after).mpr rfl)) left rfl)

/-- On every ring and after every chunk that `BCBWrite` takes, the loop ends with bytes taken out in
every iteration exactly if each header it comes to announces 1 to `MAX_CLIENT_BUFFER_SIZE` bytes. -/
theorem flushEnds_iff {chunk : Bytes} {written : UInt16} {bcb : ByteCircularBuffer} (holds : Holds msgd s)
    (nonempty : 0 < chunk.length) (bounded : chunk.length ≤ 1024)
    (wrote : bcbWrite msgd.bcb chunk (UInt16.ofNat chunk.length) = .ok (written, bcb))
    (accepted : written ≠ 0) :
    FlushEnds order { msgd with bcb } ↔ Flushable order (s ++ chunk) := by
  have received : Holds { msgd with bcb } (s ++ chunk) := holds.written nonempty bounded wrote accepted
  exact ⟨fun ends => flushable_of_flushEnds ends received, fun flushable =>
    flushEnds_of_flushable flushable received⟩

end

/-- A frame of three bytes. -/
theorem flushEnds_iff_frame : ∃ bcb, bcbWrite TcpMsgDemarcar.new.bcb [3, 0, 7] 3 = .ok (3, bcb) ∧
    (FlushEnds .littleEndian { TcpMsgDemarcar.new with bcb } ↔ Flushable .littleEndian ([] ++ [3, 0, 7])) := by
  have small : ([3, 0, 7] : Bytes).length < 2 ^ 16 := by decide
  have room : ([] : Bytes).length + ([3, 0, 7] : Bytes).length ≤ defaultCbcSize.toNat := by decide
  obtain ⟨bcb, wrote, _⟩ := holds_new.write small room
  exact ⟨bcb, wrote, flushEnds_iff holds_new (by decide) (by decide) wrote (by decide)⟩

/-- A header that announces nothing, and one byte. -/
theorem zeroHeader_spins : ¬ ∀ order msgd s chunk written bcb, Holds msgd s → 0 < chunk.length →
    chunk.length ≤ 1024 →
    bcbWrite msgd.bcb chunk (UInt16.ofNat chunk.length) = .ok (written, bcb) → written ≠ 0 →
      FlushEnds order { msgd with bcb } := by
  intro always
  have small : ([0, 0, 7] : Bytes).length < 2 ^ 16 := by decide
  have room : ([] : Bytes).length + ([0, 0, 7] : Bytes).length ≤ defaultCbcSize.toNat := by decide
  obtain ⟨bcb, wrote, received⟩ := holds_new.write small room
  have ends := always .littleEndian _ _ _ _ _ holds_new (by decide) (by decide) wrote (by decide)
  exact not_flushEnds_zero received rfl ends

end TcpServerLib.Soundness
