import TcpServerLib.Soundness.AnnouncedLengths
import TcpServerLib.Soundness.FixedSizeDemarcar

/-! # The sizes a fixed-size class can serve

The factory takes any size. A message above `MAX_CLIENT_BUFFER_SIZE` is copied past the scratch
buffer as soon as it is complete, and a message above `DEFAULT_CBC_SIZE` fills the ring first.
-/

namespace TcpServerLib.Soundness

open Machine Model Refinement

section

variable {size : UInt16} {msgd : TcpMsgDemarcar} {s chunk : Bytes}

theorem oversized_overflows (holds : Holds msgd s) (complete : size.toNat ≤ s.length)
    (excess : maxClientBufferSize < size.toNat) :
    TcpMsgFixedSizeDemarcar.deliverOne size msgd = .error .outOfBounds := by
  have small : msgd.buffer.length < size.toNat := holds.scratch ▸ excess
  simp only [TcpMsgFixedSizeDemarcar.deliverOne, bcbRead_overflows holds.ring complete small, bind, Except.bind]

theorem processMsg_overflows (holds : Holds msgd s) (nonempty : 0 < chunk.length)
    (bounded : chunk.length ≤ maxClientBufferSize)
    (room : s.length + chunk.length ≤ defaultCbcSize.toNat) (complete : size.toNat ≤ s.length + chunk.length)
    (excess : maxClientBufferSize < size.toNat) (fuel : ℕ) :
    TcpMsgDemarcar.processMsg (TcpMsgFixedSizeDemarcar.ops size) (fuel + 1) msgd chunk
    (UInt16.ofNat chunk.length) =
      .error (.stopped .outOfBounds) := by
  have scratch : maxClientBufferSize = 1024 := rfl
  have small : chunk.length < 2 ^ 16 := by omega
  obtain ⟨next, received, processed⟩ :=
    processMsg_received (TcpMsgFixedSizeDemarcar.ops size) holds nonempty small room
  have whole : size.toNat ≤ (s ++ chunk).length := List.length_append ▸ complete
  have ready := (fixedSize_follows (Nat.lt_of_le_of_lt (Nat.zero_le _) excess)).ready received
  simp only [fixedFraming, if_pos whole, Option.isSome_some] at ready
  rw [processed ready, if_pos rfl]
  exact whileLoop_stopped ready (oversized_overflows received whole excess) fuel

/-- A size that fits the scratch buffer is served to the end. -/
theorem small_served {chunks : List Bytes} (positive : 1 ≤ size.toNat)
    (fits : size.toNat ≤ maxClientBufferSize)
    (sizes : ∀ chunk ∈ chunks, 0 < chunk.length ∧ chunk.length ≤ maxClientBufferSize) :
    ∃ fuel result, TcpMsgDemarcar.processMsgs (TcpMsgFixedSizeDemarcar.ops size) fuel .new chunks =
      .ok result := by
  obtain ⟨msgd, ran, _⟩ := fixedSize_delivers size positive fits chunks sizes _ (Nat.lt_succ_self _)
  exact ⟨_, _, ran⟩

/-- A larger size is harmless for as long as no message is complete and the ring has room. -/
theorem oversized_verdict {chunks : List Bytes} (excess : maxClientBufferSize < size.toNat)
    (sizes : ∀ chunk ∈ chunks, 0 < chunk.length ∧ chunk.length ≤ maxClientBufferSize)
    (holds : Holds msgd s) (incomplete : s.length < size.toNat) :
    if (s ++ chunks.flatten).length < size.toNat ∧ (s ++ chunks.flatten).length ≤ defaultCbcSize.toNat then
      ∃ result, TcpMsgDemarcar.processMsgs (TcpMsgFixedSizeDemarcar.ops size) 1 msgd chunks = .ok result
    else ∃ trap, (trap = .assertion ∨ trap = .outOfBounds) ∧
      TcpMsgDemarcar.processMsgs (TcpMsgFixedSizeDemarcar.ops size) 1 msgd chunks = .error (.stopped trap) := by
  induction chunks generalizing s msgd with
  | nil =>
    rw [List.flatten_nil, List.append_nil, if_pos ⟨incomplete, holds.bound⟩]
    exact ⟨_, rfl⟩
  | cons chunk chunks ih =>
    obtain ⟨nonempty, bounded⟩ := sizes chunk List.mem_cons_self
    have scratch : maxClientBufferSize = 1024 := rfl
    have small : chunk.length < 2 ^ 16 := by omega
    have longer : (s ++ (chunk :: chunks).flatten).length = s.length + chunk.length + chunks.flatten.length := by
      rw [List.flatten_cons, List.length_append, List.length_append, Nat.add_assoc]
    rcases Nat.lt_or_ge defaultCbcSize.toNat (s.length + chunk.length) with full | room
    · rw [if_neg (by omega)]
      refine ⟨.assertion, .inl rfl, ?_⟩
      simp only [TcpMsgDemarcar.processMsgs, processMsg_refused holds small full, bind, Except.bind]
    · rcases Nat.lt_or_ge (s.length + chunk.length) size.toNat with pending | complete
      · have split : (fixedFraming size.toNat).Splits (s ++ chunk) [] (s ++ chunk) :=
          .rest (if_neg (by rw [List.length_append]; omega))
        have positive : 0 < size.toNat := Nat.lt_of_le_of_lt (Nat.zero_le _) excess
        obtain ⟨next, ran, received⟩ :=
          processMsg_ok (fixedSize_follows positive) nonempty small room split (by simp) holds
          (Nat.zero_lt_one)
        have rest := ih (fun other member => sizes other (List.mem_cons_of_mem _ member)) received
          (by rw [List.length_append]; omega)
        rw [List.flatten_cons, ← List.append_assoc]
        split_ifs at rest ⊢
        · obtain ⟨result, ran'⟩ := rest
          refine ⟨([] ++ result.1, result.2), ?_⟩
          simp only [TcpMsgDemarcar.processMsgs, ran, ran', bind, Except.bind, pure, Except.pure]
        · obtain ⟨trap, named, stopped⟩ := rest
          refine ⟨trap, named, ?_⟩
          simp only [TcpMsgDemarcar.processMsgs, ran, stopped, bind, Except.bind]
      · rw [if_neg (by omega)]
        refine ⟨.outOfBounds, .inr rfl, ?_⟩
        simp only [TcpMsgDemarcar.processMsgs, processMsg_overflows holds nonempty bounded room
          complete excess, bind, Except.bind]

/-- A run that returns is one without traps, whatever the fuel. -/
theorem not_stopped_of_ok {ops : DemarcarOps} {chunks : List Bytes} {fuel : ℕ}
    {result : List Bytes × TcpMsgDemarcar}
    (ran : TcpMsgDemarcar.processMsgs ops fuel msgd chunks = .ok result) (trap : Trap) (fuel' : ℕ) :
    TcpMsgDemarcar.processMsgs ops fuel' msgd chunks ≠ .error (.stopped trap) := by
  intro stopped
  rcases processMsgs_stable ops msgd chunks fuel' fuel with asks | same
  · cases stopped.symm.trans asks
  · rcases processMsgs_stable ops msgd chunks fuel fuel' with asks | same'
    · cases ran.symm.trans asks
    · dsimp only at same same'
      rw [Nat.add_comm, same, stopped] at same'
      cases same'.trans ran

end

/-- Whatever the chunks, no assertion fails and nothing is written past the scratch buffer exactly if
the size fits it, or no message is ever complete and all that is received fits the ring. -/
theorem fixedSize_safe_iff (order : ByteOrder) (size : UInt16) (positive : 1 ≤ size.toNat) (ops : DemarcarOps)
    (msgd : TcpMsgDemarcar) (made : instantiateTcpMsgDemarcar order .fixedSize size = some (ops, msgd))
    (chunks : List Bytes) (sizes : ∀ chunk ∈ chunks, 0 < chunk.length ∧ chunk.length ≤ 1024) :
    (∀ fuel, TcpMsgDemarcar.processMsgs ops fuel msgd chunks ≠ .error (.stopped .assertion) ∧
        TcpMsgDemarcar.processMsgs ops fuel msgd chunks ≠ .error (.stopped .outOfBounds)) ↔
      size.toNat ≤ 1024 ∨ chunks.flatten.length < size.toNat ∧ chunks.flatten.length ≤ 10240 := by
  cases made
  rcases Nat.lt_or_ge maxClientBufferSize size.toNat with excess | fits
  · have verdict := oversized_verdict excess sizes holds_new (Nat.lt_of_lt_of_le Nat.zero_lt_one positive)
    rw [List.nil_append] at verdict
    split_ifs at verdict with harmless
    · obtain ⟨result, ran⟩ := verdict
      refine iff_of_true (fun fuel => ⟨?_, ?_⟩) (.inr harmless)
      · exact not_stopped_of_ok ran _ fuel
      · exact not_stopped_of_ok ran _ fuel
    · obtain ⟨trap, named, stopped⟩ := verdict
      refine iff_of_false (fun safe => ?_) fun condition => ?_
      · rcases named with rfl | rfl
        · exact (safe 1).1 stopped
        · exact (safe 1).2 stopped
      · exact condition.elim (fun fits => absurd excess (Nat.not_lt.mpr fits)) harmless
  · obtain ⟨fuel, result, ran⟩ := small_served positive fits sizes
    refine iff_of_true (fun fuel => ⟨?_, ?_⟩) (.inl fits)
    · exact not_stopped_of_ok ran _ fuel
    · exact not_stopped_of_ok ran _ fuel

/-- A part of a message of 2048 bytes. -/
theorem fixedSize_safe_iff_part :
    (∀ fuel, TcpMsgDemarcar.processMsgs (TcpMsgFixedSizeDemarcar.ops 2048) fuel .new [[1], [2, 3]] ≠
          .error (.stopped .assertion) ∧
        TcpMsgDemarcar.processMsgs (TcpMsgFixedSizeDemarcar.ops 2048) fuel .new [[1], [2, 3]] ≠
          .error (.stopped .outOfBounds)) ↔
      (2048 : UInt16).toNat ≤ 1024 ∨ ([[1], [2, 3]] : List Bytes).flatten.length < (2048 : UInt16).toNat ∧
        ([[1], [2, 3]] : List Bytes).flatten.length ≤ 10240 :=
  fixedSize_safe_iff .littleEndian 2048 (by decide) _ _ rfl [[1], [2, 3]] (by decide)

/-- Messages of 1025 bytes, one of which arrives. -/
def oversizedMessage : List Bytes := [List.replicate 1024 0, [0]]

theorem oversizedMessage_sizes :
    (∀ chunk ∈ oversizedMessage, 0 < chunk.length ∧ chunk.length ≤ 1024) ∧
    oversizedMessage.flatten.length = 1025 := by
  have first : (List.replicate 1024 0 : Bytes).length = 1024 := List.length_replicate
  constructor
  · intro chunk member
    rcases List.mem_cons.mp member with rfl | member
    · rw [first]
      decide
    · obtain rfl := List.mem_singleton.mp member
      decide
  · rw [oversizedMessage, List.flatten_cons, List.length_append, first]
    rfl

theorem oversizedMessage_overflows :
    ¬ ∀ order (size : UInt16), 1 ≤ size.toNat → ∀ ops msgd,
      instantiateTcpMsgDemarcar order .fixedSize size = some (ops, msgd) → ∀ chunks : List Bytes,
      (∀ chunk ∈ chunks, 0 < chunk.length ∧ chunk.length ≤ 1024) →
      ∀ fuel, TcpMsgDemarcar.processMsgs ops fuel msgd chunks ≠ .error (.stopped .assertion) ∧
        TcpMsgDemarcar.processMsgs ops fuel msgd chunks ≠ .error (.stopped .outOfBounds) := by
  intro always
  obtain ⟨sizes, total⟩ := oversizedMessage_sizes
  have safe := always .littleEndian 1025 (by decide) _ _ rfl oversizedMessage sizes 1
  generalize oversizedMessage = chunks at sizes total safe
  have excess : maxClientBufferSize < (1025 : UInt16).toNat := by decide
  have verdict := oversized_verdict excess sizes holds_new (by decide)
  have harmful : ¬ (([] ++ chunks.flatten).length < (1025 : UInt16).toNat ∧
      ([] ++ chunks.flatten).length ≤ defaultCbcSize.toNat) := by
    rw [List.nil_append, total]
    decide
  rw [if_neg harmful] at verdict
  obtain ⟨trap, named, stopped⟩ := verdict
  rcases named with rfl | rfl
  · exact safe.1 stopped
  · exact safe.2 stopped

end TcpServerLib.Soundness
