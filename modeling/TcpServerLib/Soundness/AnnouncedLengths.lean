import TcpServerLib.Soundness.VariableSizeDemarcar

/-! # Announced lengths

The length in a header is whatever the peer sends, and the class compares it with what the ring
holds, but neither with the scratch buffer the message is copied to nor with the ring itself. A
length above `MAX_CLIENT_BUFFER_SIZE` therefore does no harm only as long as the message stays
incomplete and the ring can take what arrives of it.
-/

namespace TcpServerLib.Soundness

open Machine Model Refinement

/-- The streams that do no harm. A length of zero sends the loop on without an end, and nothing
behind it is looked at. -/
inductive Harmless (order : ByteOrder) : Bytes → Prop
  | short {s : Bytes} (header : s.length ≤ 2) : Harmless order s
  | endless {s : Bytes} (header : 2 < s.length) (zero : (order.uint16 s).toNat = 0) : Harmless order s
  | frame {s : Bytes} (header : 2 < s.length) (positive : 0 < (order.uint16 s).toNat)
      (fits : (order.uint16 s).toNat ≤ maxClientBufferSize) (complete : (order.uint16 s).toNat ≤ s.length)
      (tail : Harmless order (s.drop (order.uint16 s).toNat)) : Harmless order s
  | waiting {s : Bytes} (header : 2 < s.length) (incomplete : s.length < (order.uint16 s).toNat)
      (room : s.length ≤ defaultCbcSize.toNat) : Harmless order s

section

variable {order : ByteOrder} {msgd : TcpMsgDemarcar} {s : Bytes}

theorem not_harmless (header : 2 < s.length) (excess : maxClientBufferSize < (order.uint16 s).toNat)
    (reached : (order.uint16 s).toNat ≤ s.length ∨ defaultCbcSize.toNat < s.length) :
    ¬ Harmless order s := by
  rintro (short | ⟨_, zero⟩ | ⟨_, _, fits, _, _⟩ | ⟨_, incomplete, room⟩)
  · exact absurd header (Nat.not_lt.mpr short)
  · rw [zero] at excess
    exact absurd excess (Nat.not_lt_zero _)
  · exact absurd excess (Nat.not_lt.mpr fits)
  · rcases reached with complete | full
    · exact absurd incomplete (Nat.not_lt.mpr complete)
    · exact absurd full (Nat.not_lt.mpr room)

/-- A frame that fits is taken out and forgotten. -/
theorem harmless_frame (header : 2 < s.length) (positive : 0 < (order.uint16 s).toNat)
    (fits : (order.uint16 s).toNat ≤ maxClientBufferSize) (complete : (order.uint16 s).toNat ≤ s.length) :
    Harmless order s ↔ Harmless order (s.drop (order.uint16 s).toNat) := by
  constructor
  · rintro (short | ⟨_, zero⟩ | ⟨_, _, _, _, tail⟩ | ⟨_, incomplete, _⟩)
    · exact absurd header (Nat.not_lt.mpr short)
    · exact absurd positive (Nat.not_lt.mpr (Nat.le_of_eq zero))
    · exact tail
    · exact absurd incomplete (Nat.not_lt.mpr complete)
  · exact .frame header positive fits complete

theorem harmless_residue (incomplete : (variableFraming order).next s = none)
    (room : s.length ≤ defaultCbcSize.toNat) : Harmless order s := by
  simp only [variableFraming] at incomplete
  split_ifs at incomplete with complete
  rcases Nat.lt_or_ge 2 s.length with header | short
  · exact .waiting header (Nat.lt_of_not_le fun enough => complete ⟨header, enough⟩) room
  · exact .short short

theorem deliverOne_overflows (holds : Holds msgd s) (header : 2 < s.length)
    (complete : (order.uint16 s).toNat ≤ s.length) (excess : maxClientBufferSize < (order.uint16 s).toNat) :
    TcpMsgVariableSizeDemarcar.deliverOne order msgd = .error .outOfBounds := by
  have small : msgd.buffer.length < (order.uint16 s).toNat := holds.scratch ▸ excess
  simp only [TcpMsgVariableSizeDemarcar.deliverOne, peekMsgSize_ok holds (Nat.le_of_lt header),
    bcbRead_overflows holds.ring complete small, bind, Except.bind]

/-- What becomes of the stream `s ++ t` once `s` is in the ring, for every continuation `t`. The
results are those of enough fuel. -/
inductive Outcome (order : ByteOrder) (s : Bytes)
    (run : ℕ → Except (Cut Trap) (List Bytes × TcpMsgDemarcar)) : Prop
  | endless (runs : ∀ fuel, s.length < fuel → run fuel = .error .running)
      (harmless : ∀ t, Harmless order (s ++ t))
  | stops {trap : Trap} (named : trap = .assertion ∨ trap = .outOfBounds)
      (stopped : ∀ fuel, s.length < fuel → run fuel = .error (.stopped trap))
      (harmful : ∀ t, ¬ Harmless order (s ++ t))
  | returns (messages : List Bytes) {last : TcpMsgDemarcar} {rest : Bytes}
      (returned : ∀ fuel, s.length < fuel → run fuel = .ok (messages, last)) (holds : Holds last rest)
      (incomplete : (variableFraming order).next rest = none)
      (same : ∀ t, Harmless order (s ++ t) ↔ Harmless order (rest ++ t))

/-- One more iteration in front of a run. -/
theorem Outcome.step {n : ℕ} (header : 2 < s.length) (value : (order.uint16 s).toNat = n) (positive : 0 < n)
    (fits : n ≤ maxClientBufferSize) (complete : n ≤ s.length) {next : TcpMsgDemarcar} {message : Bytes}
    (entered : TcpMsgVariableSizeDemarcar.isBufferReadyToflush order msgd = .ok true)
    (ran : TcpMsgVariableSizeDemarcar.deliverOne order msgd = .ok (message, next))
    (outcome : Outcome order (s.drop n)
      fun fuel => TcpMsgDemarcar.processClientMsg (TcpMsgVariableSizeDemarcar.ops order) fuel next) :
    Outcome order s
      fun fuel => TcpMsgDemarcar.processClientMsg (TcpMsgVariableSizeDemarcar.ops order) fuel msgd := by
  have shorter : (s.drop n).length < s.length := by rw [List.length_drop]; omega
  have unfolded : ∀ fuel, s.length < fuel → ∃ less, (s.drop n).length < less ∧
      TcpMsgDemarcar.processClientMsg (TcpMsgVariableSizeDemarcar.ops order) fuel msgd =
        (TcpMsgDemarcar.processClientMsg (TcpMsgVariableSizeDemarcar.ops order) less next).map
          fun found => (message :: found.1, found.2) := by
    rintro (_ | less) enough
    · contradiction
    · exact ⟨less, by omega, whileLoop_step entered ran less⟩
  have forgotten : ∀ t, Harmless order (s ++ t) ↔ Harmless order (s.drop n ++ t) := by
    intro t
    have header' : 2 < (s ++ t).length := by rw [List.length_append]; omega
    have complete' : n ≤ (s ++ t).length := by rw [List.length_append]; omega
    have value' : (order.uint16 (s ++ t)).toNat = n := by rw [uint16_append (Nat.le_of_lt header), value]
    rw [harmless_frame header' (value' ▸ positive) (value' ▸ fits) (value' ▸ complete'), value',
      List.drop_append_of_le_length complete]
  cases outcome with
  | endless runs harmless =>
    refine .endless (fun fuel enough => ?_) fun t => (forgotten t).mpr (harmless t)
    obtain ⟨less, below, eq⟩ := unfolded fuel enough
    rw [eq, runs less below]
    rfl
  | stops named stopped harmful =>
    refine .stops named (fun fuel enough => ?_) fun t bad => harmful t ((forgotten t).mp bad)
    obtain ⟨less, below, eq⟩ := unfolded fuel enough
    rw [eq, stopped less below]
    rfl
  | returns messages returned holds incomplete same =>
    refine .returns (message :: messages) (fun fuel enough => ?_) holds incomplete fun t =>
      (forgotten t).trans (same t)
    obtain ⟨less, below, eq⟩ := unfolded fuel enough
    rw [eq, returned less below]
    rfl

theorem processClientMsg_outcome (holds : Holds msgd s) :
    Outcome order s
      fun fuel => TcpMsgDemarcar.processClientMsg (TcpMsgVariableSizeDemarcar.ops order) fuel msgd := by
  induction size : s.length using Nat.strongRecOn generalizing s msgd with
  | _ k ih =>
    have ready := @variableSize_ready order msgd s holds
    cases found : (variableFraming order).next s with
    | none =>
      rw [found] at ready
      refine .returns [] (fun fuel enough => ?_) holds found fun t => Iff.rfl
      obtain ⟨less, rfl⟩ := Nat.exists_eq_add_of_lt enough
      exact whileLoop_exit ready _
    | some n =>
      rw [found] at ready
      obtain ⟨header, complete, value⟩ := variableFraming_next found
      rcases Nat.eq_zero_or_pos n with rfl | positive
      · have again : ∀ m, Holds m s → ∃ out next,
            TcpMsgVariableSizeDemarcar.deliverOne order m = .ok (out, next) ∧ Holds next s := by
          intro m held
          obtain ⟨next, delivered, left⟩ := variableSize_follows.deliver held found (Nat.zero_le _)
          exact ⟨_, next, delivered, left⟩
        have enter : ∀ m, Holds m s → TcpMsgVariableSizeDemarcar.isBufferReadyToflush order m = .ok true := by
          intro m held
          rw [variableSize_ready held, found]
          rfl
        refine .endless (fun fuel _ => whileLoop_running (Holds · s) enter again fuel msgd holds) fun t => ?_
        refine .endless (by rw [List.length_append]; omega) ?_
        rw [uint16_append (Nat.le_of_lt header), value]
      · rcases Nat.lt_or_ge maxClientBufferSize n with excess | fits
        · refine .stops (.inr rfl) (fun fuel enough => ?_) fun t => not_harmless ?_ ?_ (.inl ?_)
          · obtain ⟨less, rfl⟩ := Nat.exists_eq_add_of_lt enough
            exact whileLoop_stopped ready (deliverOne_overflows holds header (value ▸ complete)
              (value ▸ excess)) _
          · rw [List.length_append]; omega
          · rwa [uint16_append (Nat.le_of_lt header), value]
          · rw [uint16_append (Nat.le_of_lt header), value, List.length_append]; omega
        · obtain ⟨next, delivered, left⟩ := variableSize_follows.deliver holds found fits
          have shorter : (s.drop n).length < k := by rw [List.length_drop]; omega
          exact .step header value positive fits complete ready delivered (ih _ shorter left rfl)

/-- `ProcessMsg` on a ring without a complete message. A full ring refuses the chunk, and then the
pending message is longer than the scratch buffer. -/
theorem processMsg_outcome {chunk : Bytes} (nonempty : 0 < chunk.length)
    (bounded : chunk.length ≤ maxClientBufferSize) (incomplete : (variableFraming order).next s = none)
    (holds : Holds msgd s) :
    Outcome order (s ++ chunk) fun fuel =>
      TcpMsgDemarcar.processMsg (TcpMsgVariableSizeDemarcar.ops order) fuel msgd chunk
        (UInt16.ofNat chunk.length) := by
  have scratch : maxClientBufferSize = 1024 := rfl
  have capacity : defaultCbcSize.toNat = 10240 := rfl
  have small : chunk.length < 2 ^ 16 := by omega
  rcases Nat.lt_or_ge defaultCbcSize.toNat (s.length + chunk.length) with full | room
  · have pending : s.length < (order.uint16 s).toNat := by
      simp only [variableFraming] at incomplete
      split_ifs at incomplete with complete
      omega
    refine .stops (.inl rfl) (fun fuel _ => processMsg_refused holds small full fuel) fun t => ?_
    have longer : (s ++ chunk ++ t).length = s.length + chunk.length + t.length := by
      rw [List.length_append, List.length_append]
    have same : order.uint16 (s ++ chunk ++ t) = order.uint16 s := by
      rw [List.append_assoc, uint16_append (by omega)]
    exact not_harmless (by omega) (by rw [same]; omega) (.inr (by omega))
  · obtain ⟨next, received, processed⟩ :=
      processMsg_received (TcpMsgVariableSizeDemarcar.ops order) holds nonempty small room
    have ready : (TcpMsgVariableSizeDemarcar.ops order).isBufferReadyToflush next = _ :=
      variableSize_ready received
    simp only [processed ready]
    cases found : (variableFraming order).next (s ++ chunk) with
    | none => exact .returns [] (fun fuel _ => rfl) received found fun t => Iff.rfl
    | some n => exact processClientMsg_outcome received

/-- Enough fuel decides the fate of a stream. -/
theorem processMsgs_verdict {chunks : List Bytes}
    (sizes : ∀ chunk ∈ chunks, 0 < chunk.length ∧ chunk.length ≤ maxClientBufferSize)
    (incomplete : (variableFraming order).next s = none) (holds : Holds msgd s) {fuel : ℕ}
    (enough : defaultCbcSize.toNat + maxClientBufferSize < fuel) :
    (Harmless order (s ++ chunks.flatten) → ∀ trap,
      TcpMsgDemarcar.processMsgs (TcpMsgVariableSizeDemarcar.ops order) fuel msgd chunks ≠
        .error (.stopped trap)) ∧
    (¬ Harmless order (s ++ chunks.flatten) → ∃ trap, (trap = .assertion ∨ trap = .outOfBounds) ∧
      TcpMsgDemarcar.processMsgs (TcpMsgVariableSizeDemarcar.ops order) fuel msgd chunks =
        .error (.stopped trap)) := by
  induction chunks generalizing s msgd with
  | nil =>
    have harmless : Harmless order (s ++ [].flatten) := by
      rw [List.flatten_nil, List.append_nil]
      exact harmless_residue incomplete holds.bound
    refine ⟨fun _ trap stopped => ?_, fun harmful => absurd harmless harmful⟩
    cases stopped
  | cons chunk chunks ih =>
    obtain ⟨nonempty, bounded⟩ := sizes chunk (List.mem_cons_self ..)
    have sufficient : (s ++ chunk).length < fuel := by
      have bound := holds.bound
      rw [List.length_append]
      omega
    rw [List.flatten_cons, ← List.append_assoc]
    cases processMsg_outcome nonempty bounded incomplete holds with
    | endless runs harmless =>
      have running := runs fuel sufficient
      refine ⟨fun _ trap stopped => ?_, fun harmful => absurd (harmless _) harmful⟩
      simp only [TcpMsgDemarcar.processMsgs, running, bind, Except.bind] at stopped
      cases stopped
    | @stops trap named stopped harmful =>
      refine ⟨fun harmless => absurd harmless (harmful _), fun _ => ⟨trap, named, ?_⟩⟩
      simp only [TcpMsgDemarcar.processMsgs, stopped fuel sufficient, bind, Except.bind]
    | returns messages returned held pending same =>
      obtain ⟨safe, unsafe_⟩ :=
        ih (fun other member => sizes other (List.mem_cons_of_mem _ member)) pending held
      refine ⟨fun harmless trap stopped => ?_, fun harmful => ?_⟩
      · have quiet := safe ((same _).mp harmless) trap
        simp only [TcpMsgDemarcar.processMsgs, returned fuel sufficient, bind, Except.bind, pure, Except.pure]
          at stopped
        split at stopped
        · next failed => exact quiet (failed.trans stopped)
        · cases stopped
      · obtain ⟨trap, named, stopped⟩ := unsafe_ fun harmless => harmful ((same _).mpr harmless)
        refine ⟨trap, named, ?_⟩
        simp only [TcpMsgDemarcar.processMsgs, returned fuel sufficient, stopped, bind, Except.bind]

theorem processMsgs_stable (ops : DemarcarOps) (msgd : TcpMsgDemarcar) (chunks : List Bytes) :
    Stable fun fuel => TcpMsgDemarcar.processMsgs ops fuel msgd chunks := by
  induction chunks generalizing msgd with
  | nil => exact stable_const _
  | cons chunk chunks ih =>
    have loop : ∀ m, Stable fun fuel => TcpMsgDemarcar.processClientMsg ops fuel m :=
      fun m => whileLoop_stable ops.isBufferReadyToflush ops.deliverOne m
    have one : Stable fun fuel => TcpMsgDemarcar.processMsg ops fuel msgd chunk (UInt16.ofNat chunk.length) := by
      refine (stable_const _).bind fun written => ?_
      obtain ⟨written, bcb⟩ := written
      dsimp only
      split_ifs
      · exact stable_const _
      · refine (stable_const _).bind fun ready => ?_
        cases ready with
        | true => exact loop _
        | false => exact stable_const _
    exact one.bind fun first => (ih first.2).bind fun rest => stable_const _

end

/-- The class fails an assertion or copies out of bounds on exactly the streams that are not
harmless, however they are cut into chunks. -/
theorem variableSize_crashes_iff (order : ByteOrder) (chunks : List Bytes)
    (sizes : ∀ chunk ∈ chunks, 0 < chunk.length ∧ chunk.length ≤ maxClientBufferSize) :
    (∀ fuel, TcpMsgDemarcar.processMsgs (TcpMsgVariableSizeDemarcar.ops order) fuel .new chunks ≠
          .error (.stopped .assertion) ∧
        TcpMsgDemarcar.processMsgs (TcpMsgVariableSizeDemarcar.ops order) fuel .new chunks ≠
          .error (.stopped .outOfBounds)) ↔
      Harmless order chunks.flatten := by
  have fresh : (variableFraming order).next [] = none := variableFraming_next_header (Nat.zero_le 2)
  constructor
  · intro quiet
    by_contra harmful
    obtain ⟨trap, rfl | rfl, stopped⟩ :=
      (processMsgs_verdict sizes fresh holds_new (Nat.lt_succ_self _)).2 harmful
    · exact (quiet _).1 stopped
    · exact (quiet _).2 stopped
  · intro harmless fuel
    have never : ∀ trap, TcpMsgDemarcar.processMsgs (TcpMsgVariableSizeDemarcar.ops order) fuel .new chunks ≠
        .error (.stopped trap) := by
      intro trap stopped
      rcases processMsgs_stable (TcpMsgVariableSizeDemarcar.ops order) .new chunks fuel
        (defaultCbcSize.toNat + maxClientBufferSize + 1) with asks | same
      · cases stopped.symm.trans asks
      · exact (processMsgs_verdict sizes fresh holds_new (by omega)).1 harmless trap (same.trans stopped)
    exact ⟨never _, never _⟩

/-- A header that announces 1025 bytes, and these bytes. -/
def oversizedChunks : List Bytes := [[1, 4] ++ List.replicate 1022 0, [0]]

theorem oversizedChunks_overflow :
    (∀ chunk ∈ oversizedChunks, 0 < chunk.length ∧ chunk.length ≤ maxClientBufferSize) ∧
      ¬ ∀ fuel, TcpMsgDemarcar.processMsgs (TcpMsgVariableSizeDemarcar.ops .littleEndian) fuel .new
            oversizedChunks ≠ .error (.stopped .assertion) ∧
          TcpMsgDemarcar.processMsgs (TcpMsgVariableSizeDemarcar.ops .littleEndian) fuel .new
            oversizedChunks ≠ .error (.stopped .outOfBounds) := by
  have fresh : (variableFraming .littleEndian).next [] = none := variableFraming_next_header (Nat.zero_le 2)
  have first : ([1, 4] ++ List.replicate 1022 0 : Bytes).length = 1024 := by
    rw [List.length_append, List.length_replicate]
    rfl
  have sizes : ∀ chunk ∈ oversizedChunks, 0 < chunk.length ∧ chunk.length ≤ maxClientBufferSize := by
    rintro chunk (_ | ⟨_, _ | ⟨_, none⟩⟩)
    · rw [first]
      decide
    · decide
    · cases none
  have length : oversizedChunks.flatten.length = 1025 := by
    rw [oversizedChunks, List.flatten_cons, List.length_append, first]
    rfl
  have announced : (ByteOrder.littleEndian.uint16 oversizedChunks.flatten).toNat = 1025 := rfl
  have harmful : ¬ Harmless .littleEndian oversizedChunks.flatten :=
    not_harmless (by omega) (by rw [announced]; decide) (.inl (by omega))
  refine ⟨sizes, fun quiet => ?_⟩
  obtain ⟨trap, rfl | rfl, stopped⟩ :=
    (processMsgs_verdict sizes fresh holds_new (Nat.lt_succ_self _)).2 harmful
  · exact (quiet _).1 stopped
  · exact (quiet _).2 stopped

/-- A stream that ends inside a message of 2048 bytes. -/
theorem variableSize_crashes_iff_pending :
    (∀ fuel, TcpMsgDemarcar.processMsgs (TcpMsgVariableSizeDemarcar.ops .littleEndian) fuel .new
      [[0], [8, 7]] ≠
          .error (.stopped .assertion) ∧
        TcpMsgDemarcar.processMsgs (TcpMsgVariableSizeDemarcar.ops .littleEndian) fuel .new [[0], [8, 7]] ≠
          .error (.stopped .outOfBounds)) ↔
      Harmless .littleEndian [0, 8, 7] :=
  variableSize_crashes_iff .littleEndian [[0], [8, 7]] (by decide)

end TcpServerLib.Soundness
