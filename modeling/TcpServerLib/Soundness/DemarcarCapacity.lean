import TcpServerLib.Soundness.FixedSizeCapacities

/-! # The streams a demarcar gets through

A demarcar gets through the bytes it is fed if it can cut them into messages that fit the scratch buffer,
and the ring has room for what is left. Which chunks they come in does not matter.
-/

namespace TcpServerLib.Soundness

open Machine Model Refinement

/-- The cut of the stream has no message above `MAX_CLIENT_BUFFER_SIZE`, and leaves no more than a ring holds. -/
def Passes (F : Framing UInt8) (s : Bytes) : Prop :=
  ∃ messages rest, F.Splits s messages rest ∧
    (∀ message ∈ messages, message.length ≤ maxClientBufferSize) ∧
    rest.length ≤ defaultCbcSize.toNat

/-- A class that follows a framing, and runs out of the scratch buffer where a message does not fit it. -/
structure Serves (ops : DemarcarOps) (F : Framing UInt8) : Prop extends Follows ops F where
  overflows : ∀ {msgd items n}, Holds msgd items → F.next items = some n → maxClientBufferSize < n →
    ops.deliverOne msgd = .error .outOfBounds

variable {ops : DemarcarOps} {F : Framing UInt8} {msgd : TcpMsgDemarcar} {s chunk : Bytes} {n fuel : ℕ}

theorem passes_rest (incomplete : F.next s = none) : Passes F s ↔ s.length ≤ defaultCbcSize.toNat := by
  constructor
  · rintro ⟨messages, rest, split, _, room⟩
    obtain ⟨rfl, rfl⟩ := split.unique (.rest incomplete)
    exact room
  · exact fun room => ⟨[], s, .rest incomplete, by simp, room⟩

/-- The first message of a stream is taken out and forgotten. -/
theorem passes_message (complete : F.next s = some n) : Passes F s ↔ n ≤ maxClientBufferSize ∧
    Passes F (s.drop n) := by
  have length : (s.take n).length = n := List.length_take_of_le (F.within complete)
  constructor
  · rintro ⟨messages, rest, split, short, room⟩
    cases split with
    | rest incomplete => cases complete.symm.trans incomplete
    | @message _ _ m messages complete' tail =>
      obtain rfl := Option.some.inj (complete.symm.trans complete')
      have first := short _ List.mem_cons_self
      rw [length] at first
      exact ⟨first, messages, rest, tail, fun message member =>
        short message (List.mem_cons_of_mem _ member), room⟩
  · rintro ⟨fits, messages, rest, tail, short, room⟩
    refine ⟨s.take n :: messages, rest, .message complete tail, ?_, room⟩
    intro message member
    rcases List.mem_cons.mp member with rfl | member
    · rwa [length]
    · exact short message member

theorem not_passes_zero (endless : F.next s = some 0) : ¬ Passes F s := by
  rintro ⟨messages, rest, split, _⟩
  exact split.next_ne_zero endless

/-- What came of the bytes `s` in the ring, for every continuation `t` of the stream. -/
inductive Verdict (F : Framing UInt8) (s : Bytes) : Except (Cut Trap) (List Bytes × TcpMsgDemarcar) → Prop
  | returns {messages : List Bytes} {last : TcpMsgDemarcar} {rest : Bytes} (holds : Holds last rest)
      (incomplete : F.next rest = none) (same : ∀ t, Passes F (s ++ t) ↔ Passes F (rest ++ t)) :
      Verdict F s (.ok (messages, last))
  | stops {cut : Cut Trap} (never : ∀ t, ¬ Passes F (s ++ t)) : Verdict F s (.error cut)

theorem Verdict.step {message : Bytes} {outcome : Except (Cut Trap) (List Bytes × TcpMsgDemarcar)}
    (complete : F.next s = some n) (fits : n ≤ maxClientBufferSize) (verdict : Verdict F (s.drop n) outcome) :
    Verdict F s (outcome.map fun found => (message :: found.1, found.2)) := by
  have forgotten (t : Bytes) : Passes F (s ++ t) ↔ Passes F (s.drop n ++ t) := by
    rw [passes_message (F.stable t complete), List.drop_append_of_le_length (F.within complete)]
    exact and_iff_right fits
  cases verdict with
  | returns holds incomplete same => exact .returns holds incomplete fun t => (forgotten t).trans (same t)
  | stops never => exact .stops fun t passes => never t ((forgotten t).mp passes)

/-- By induction on the bytes in the ring, of which every iteration takes some. -/
theorem processClientMsg_verdict (serves : Serves ops F) (holds : Holds msgd s) (enough : s.length < fuel) :
    Verdict F s (TcpMsgDemarcar.processClientMsg ops fuel msgd) := by
  induction size : s.length using Nat.strongRecOn generalizing s msgd fuel with
  | _ k ih =>
    obtain ⟨less, rfl⟩ : ∃ less, fuel = less + 1 := ⟨fuel - 1, by omega⟩
    have ready := serves.ready holds
    cases found : F.next s with
    | none =>
      rw [found] at ready
      rw [TcpMsgDemarcar.processClientMsg, whileLoop_exit ready]
      exact .returns holds found fun t => Iff.rfl
    | some n =>
      rw [found] at ready
      rcases Nat.lt_or_ge maxClientBufferSize n with excess | fits
      · rw [TcpMsgDemarcar.processClientMsg, whileLoop_stopped ready (serves.overflows holds found excess)]
        refine .stops fun t passes => ?_
        exact absurd ((passes_message (F.stable t found)).mp passes).1 (Nat.not_le.mpr excess)
      · rcases Nat.eq_zero_or_pos n with rfl | positive
        · have enter : ∀ m, Holds m s → ops.isBufferReadyToflush m = .ok true := by
            intro m held
            rw [serves.ready held, found]
            rfl
          have again : ∀ m, Holds m s → ∃ out next, ops.deliverOne m = .ok (out, next) ∧
              Holds next s := by
            intro m held
            obtain ⟨next, delivered, left⟩ := serves.deliver held found (Nat.zero_le _)
            exact ⟨_, next, delivered, left⟩
          rw [TcpMsgDemarcar.processClientMsg, whileLoop_running (Holds · s) enter again _ msgd holds]
          exact .stops fun t => not_passes_zero (F.stable t found)
        · obtain ⟨next, delivered, left⟩ := serves.deliver holds found fits
          have shorter : (s.drop n).length < k := by
            have within := F.within found
            rw [List.length_drop]
            omega
          rw [TcpMsgDemarcar.processClientMsg, whileLoop_step ready delivered]
          exact .step found fits (ih _ shorter left (by omega) rfl)

/-- A ring without a complete message is fed a chunk. A stream that fills the ring has a message that does not fit
the scratch buffer. -/
theorem processMsg_verdict (serves : Serves ops F) (overhead : F.overhead ≤ maxClientBufferSize)
    (nonempty : 0 < chunk.length) (bounded : chunk.length ≤ maxClientBufferSize) (incomplete : F.next s = none)
    (holds : Holds msgd s) (enough : defaultCbcSize.toNat < fuel) :
    Verdict F (s ++ chunk) (TcpMsgDemarcar.processMsg ops fuel msgd chunk (UInt16.ofNat chunk.length)) := by
  have scratch : maxClientBufferSize = 1024 := rfl
  have capacity : defaultCbcSize.toNat = 10240 := rfl
  have small : chunk.length < 2 ^ 16 := by omega
  rcases Nat.lt_or_ge defaultCbcSize.toNat (s.length + chunk.length) with full | room
  · rw [processMsg_refused holds small full]
    refine .stops fun t passes => ?_
    obtain ⟨messages, rest, split, short, left⟩ := passes
    rw [List.append_assoc] at split
    cases split with
    | rest _ =>
      rw [List.length_append, List.length_append] at left
      omega
    | @message _ _ m _ complete _ =>
      have first := short _ List.mem_cons_self
      rw [List.length_take_of_le (F.within complete)] at first
      have late := F.lag incomplete complete
      omega
  · obtain ⟨next, received, processed⟩ := processMsg_received ops holds nonempty small room
    have ready := serves.ready received
    rw [processed ready]
    cases found : F.next (s ++ chunk) with
    | none => exact .returns received found fun t => Iff.rfl
    | some n =>
      apply processClientMsg_verdict serves received
      rw [List.length_append]
      omega

theorem variableSize_serves {order : ByteOrder} :
    Serves (TcpMsgVariableSizeDemarcar.ops order) (variableFraming order) where
  toFollows := variableSize_follows
  overflows := by
    intro msgd items n holds complete excess
    obtain ⟨header, within, value⟩ := variableFraming_next complete
    exact deliverOne_overflows holds header (value ▸ within) (value ▸ excess)

theorem fixedSize_serves {size : UInt16} (positive : 0 < size.toNat) :
    Serves (TcpMsgFixedSizeDemarcar.ops size) (fixedFraming size.toNat) where
  toFollows := fixedSize_follows positive
  overflows := by
    intro msgd items n holds complete excess
    have within := (fixedFraming size.toNat).within complete
    simp only [fixedFraming] at complete
    split_ifs at complete
    cases complete
    exact oversized_overflows holds within excess

/-- Messages of one size all fit, or none may be complete. -/
theorem passes_fixed {size : ℕ} (positive : 0 < size) : Passes (fixedFraming size) s ↔
    size ≤ maxClientBufferSize ∨ s.length < size ∧ s.length ≤ defaultCbcSize.toNat := by
  rcases Nat.lt_or_ge s.length size with short | enough
  · have incomplete : (fixedFraming size).next s = none := if_neg (Nat.not_le.mpr short)
    rw [passes_rest incomplete]
    have scratch : maxClientBufferSize = 1024 := rfl
    have capacity : defaultCbcSize.toNat = 10240 := rfl
    omega
  · constructor
    · exact fun passes => .inl ((passes_message (if_pos enough)).mp passes).1
    · intro fits
      have fits : size ≤ maxClientBufferSize :=
        fits.resolve_right fun waiting => absurd enough (Nat.not_le.mpr waiting.1)
      refine ⟨_, _, fixedFraming_splits positive s, ?_, ?_⟩
      · intro message member
        obtain ⟨i, _, rfl⟩ := List.mem_map.mp member
        rw [List.length_take]
        omega
      · have below := Nat.mod_lt s.length positive
        have scratch : maxClientBufferSize = 1024 := rfl
        have capacity : defaultCbcSize.toNat = 10240 := rfl
        rw [List.length_drop]
        omega

end TcpServerLib.Soundness
