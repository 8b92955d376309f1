import TcpServerLib.Machine.Framing
import TcpServerLib.Model.TcpMsgDemarcar
import TcpServerLib.Refinement.ByteCircularBuffer

/-! # A demarcar cuts the stream as its framing does

A class follows a framing when its readiness test recognises the complete messages of the framing
and its loop body delivers the first one. From these two local facts the loop delivers the greedy
cut of whatever the ring holds, and by the composition of cuts the chunks in which the stream
arrives leave no trace in what is delivered.
-/

namespace TcpServerLib.Soundness

open Machine Model Refinement

/-- The bytes in the ring of a demarcar, in order. -/
structure Holds (msgd : TcpMsgDemarcar) (items : Bytes) : Prop where
  bound : items.length ≤ defaultCbcSize.toNat
  ring : Represents msgd.bcb (⟨items, bound⟩ : BoundedQueue UInt8 defaultCbcSize.toNat)
  scratch : msgd.buffer.length = maxClientBufferSize

theorem Holds.current {msgd : TcpMsgDemarcar} {items : Bytes} (holds : Holds msgd items) :
    msgd.bcb.currentSize.toNat = items.length :=
  holds.ring.current

theorem Holds.window {msgd : TcpMsgDemarcar} {items : Bytes} (holds : Holds msgd items) :
    window msgd.bcb.buffer msgd.bcb.rear.toNat msgd.bcb.currentSize.toNat = items := by
  rw [holds.ring.current]
  exact holds.ring.contents

theorem holds_new : Holds TcpMsgDemarcar.new [] :=
  ⟨Nat.zero_le _, bcbCreateNew_represents defaultCbcSize, List.length_replicate⟩

/-- Removing a prefix that fits in the scratch buffer. -/
theorem Holds.read {msgd : TcpMsgDemarcar} {items : Bytes} {n : UInt16} (holds : Holds msgd items)
    (enough : n.toNat ≤ items.length) (fits : n.toNat ≤ maxClientBufferSize) :
    ∃ buffer bcb, bcbRead msgd.bcb msgd.buffer n true = .ok (n, buffer, bcb) ∧
      buffer.take n.toNat = items.take n.toNat ∧ Holds { bcb, buffer } (items.drop n.toNat) := by
  have taken : (items.take n.toNat).length = n.toNat := List.length_take_of_le enough
  have room : n.toNat ≤ msgd.buffer.length := holds.scratch ▸ fits
  obtain ⟨bcb, granted, represents, _⟩ := bcbRead_accepts holds.ring enough room true
  have bound : (items.drop n.toNat).length ≤ defaultCbcSize.toNat := by
    have := holds.bound
    rw [List.length_drop]
    omega
  refine ⟨_, bcb, granted, ?_, bound, represents.of_items ?_, ?_⟩
  · simpa only [taken] using take_splice_zero msgd.buffer (items.take n.toNat)
  · exact (BoundedQueue.read_items (q := ⟨items, holds.bound⟩) enough true).symm
  · rw [length_splice (by rw [taken]; omega)]
    exact holds.scratch

/-- A chunk that fits is accepted, and the assertion on `BCBWrite` holds unless it is empty. -/
theorem Holds.write {msgd : TcpMsgDemarcar} {items chunk : Bytes} (holds : Holds msgd items)
    (short : chunk.length < 2 ^ 16) (room : items.length + chunk.length ≤ defaultCbcSize.toNat) :
    ∃ bcb, bcbWrite msgd.bcb chunk (UInt16.ofNat chunk.length) = .ok (UInt16.ofNat chunk.length, bcb) ∧
      Holds { msgd with bcb } (items ++ chunk) := by
  have length : chunk.length = (UInt16.ofNat chunk.length).toNat := (UInt16.toNat_ofNat_of_lt' short).symm
  have space : chunk.length ≤ defaultCbcSize.toNat - items.length := by omega
  obtain ⟨bcb, written, represents⟩ := bcbWrite_accepts holds.ring length space
  refine ⟨bcb, written, by rw [List.length_append]; exact room, represents.of_items ?_, holds.scratch⟩
  exact (BoundedQueue.write_items (q := ⟨items, holds.bound⟩) space).symm

/-- What a chunk that was taken leaves in the ring. -/
theorem Holds.written {msgd : TcpMsgDemarcar} {items chunk : Bytes} {written : UInt16} {bcb : ByteCircularBuffer}
    (holds : Holds msgd items) (nonempty : 0 < chunk.length) (bounded : chunk.length ≤ maxClientBufferSize)
    (wrote : bcbWrite msgd.bcb chunk (UInt16.ofNat chunk.length) = .ok (written, bcb))
    (accepted : written ≠ 0) :
    Holds { msgd with bcb } (items ++ chunk) := by
  have scratch : maxClientBufferSize = 1024 := rfl
  have small : chunk.length < 2 ^ 16 := by omega
  have length : chunk.length = (UInt16.ofNat chunk.length).toNat := (UInt16.toNat_ofNat_of_lt' small).symm
  have room : items.length + chunk.length ≤ defaultCbcSize.toNat := by
    by_contra full
    have excess : ¬ chunk.length ≤ defaultCbcSize.toNat - items.length := by omega
    have refused := bcbWrite_rejects holds.ring length excess
    cases wrote.symm.trans refused
    exact accepted rfl
  obtain ⟨bcb', wrote', received⟩ := holds.write small room
  cases wrote.symm.trans wrote'
  exact received

theorem ofNat_length_ne_zero {chunk : Bytes} (nonempty : 0 < chunk.length) (short : chunk.length < 2 ^ 16) :
    UInt16.ofNat chunk.length ≠ 0 := by
  intro zero
  have value := congrArg UInt16.toNat zero
  rw [UInt16.toNat_ofNat_of_lt' short, UInt16.toNat_zero] at value
  omega

/-- The two local facts that tie a class to a framing. -/
structure Follows (ops : DemarcarOps) (F : Framing UInt8) : Prop where
  ready : ∀ {msgd items}, Holds msgd items → ops.isBufferReadyToflush msgd = .ok (F.next items).isSome
  deliver : ∀ {msgd items n}, Holds msgd items → F.next items = some n → n ≤ maxClientBufferSize →
    ∃ next, ops.deliverOne msgd = .ok (items.take n, next) ∧ Holds next (items.drop n)

section

variable {ops : DemarcarOps} {F : Framing UInt8} {msgd : TcpMsgDemarcar} {items rest : Bytes}
  {messages : List Bytes}

theorem processClientMsg_ok (follows : Follows ops F) (split : F.Splits items messages rest)
    (short : ∀ message ∈ messages, message.length ≤ maxClientBufferSize) (holds : Holds msgd items)
    {fuel : ℕ} (enough : messages.length < fuel) :
    ∃ last, TcpMsgDemarcar.processClientMsg ops fuel msgd = .ok (messages, last) ∧ Holds last rest := by
  induction split generalizing msgd fuel with
  | rest incomplete =>
    obtain ⟨fuel, rfl⟩ := Nat.exists_eq_add_of_lt enough
    have ended := follows.ready holds
    rw [incomplete] at ended
    exact ⟨msgd, whileLoop_exit ended _, holds⟩
  | @message items rest n messages complete tail ih =>
    obtain ⟨fuel, rfl⟩ : ∃ f, fuel = f + 1 := ⟨fuel - 1, by rw [List.length_cons] at enough; omega⟩
    have entered := follows.ready holds
    rw [complete] at entered
    have first := short _ (List.mem_cons_self ..)
    rw [List.length_take_of_le (F.within complete)] at first
    obtain ⟨next, delivered, remaining⟩ := follows.deliver holds complete first
    obtain ⟨last, ran, final⟩ :=
      ih (fun message member => short message (List.mem_cons_of_mem _ member)) remaining
        (Nat.lt_of_succ_lt_succ (List.length_cons ▸ enough))
    refine ⟨last, ?_, final⟩
    rw [TcpMsgDemarcar.processClientMsg] at ran ⊢
    rw [whileLoop_step entered delivered, ran]
    rfl

/-- A chunk the ring has no room for stops the process. -/
theorem processMsg_refused {chunk : Bytes} (holds : Holds msgd items) (small : chunk.length < 2 ^ 16)
    (full : defaultCbcSize.toNat < items.length + chunk.length) (fuel : ℕ) :
    TcpMsgDemarcar.processMsg ops fuel msgd chunk (UInt16.ofNat chunk.length) = .error (.stopped .assertion) := by
  have bound := holds.bound
  have length : chunk.length = (UInt16.ofNat chunk.length).toNat := (UInt16.toNat_ofNat_of_lt' small).symm
  have excess : ¬ chunk.length ≤ defaultCbcSize.toNat - items.length := by omega
  simp only [TcpMsgDemarcar.processMsg, bcbWrite_rejects holds.ring length excess, Cut.lift, if_true,
    bind, Except.bind]

/-- A chunk that fits enters the ring, and the loop begins if the ring is ready then. -/
theorem processMsg_received (ops : DemarcarOps) {chunk : Bytes} (holds : Holds msgd items)
    (nonempty : 0 < chunk.length) (small : chunk.length < 2 ^ 16)
    (room : items.length + chunk.length ≤ defaultCbcSize.toNat) :
    ∃ next, Holds next (items ++ chunk) ∧ ∀ {ready}, ops.isBufferReadyToflush next = .ok ready → ∀ fuel,
      TcpMsgDemarcar.processMsg ops fuel msgd chunk (UInt16.ofNat chunk.length) =
        if ready then TcpMsgDemarcar.processClientMsg ops fuel next else .ok ([], next) := by
  obtain ⟨bcb, written, received⟩ := holds.write small room
  have accepted : ¬ UInt16.ofNat chunk.length = 0 := ofNat_length_ne_zero nonempty small
  refine ⟨_, received, fun {ready} asked fuel => ?_⟩
  simp only [TcpMsgDemarcar.processMsg, written, Cut.lift, accepted, if_false, asked, bind,
    Except.bind, pure, Except.pure]

theorem processMsg_ok {chunk : Bytes} (follows : Follows ops F) (nonempty : 0 < chunk.length)
    (small : chunk.length < 2 ^ 16) (room : items.length + chunk.length ≤ defaultCbcSize.toNat)
    (split : F.Splits (items ++ chunk) messages rest)
    (short : ∀ message ∈ messages, message.length ≤ maxClientBufferSize) (holds : Holds msgd items)
    {fuel : ℕ} (enough : messages.length < fuel) :
    ∃ last, TcpMsgDemarcar.processMsg ops fuel msgd chunk (UInt16.ofNat chunk.length) = .ok (messages, last) ∧
      Holds last rest := by
  obtain ⟨next, received, processed⟩ := processMsg_received ops holds nonempty small room
  have ready := follows.ready received
  cases complete : F.next (items ++ chunk) with
  | none =>
    rw [complete] at ready
    obtain ⟨rfl, rfl⟩ := split.unique (.rest complete)
    exact ⟨next, processed ready fuel, received⟩
  | some n =>
    rw [complete] at ready
    obtain ⟨last, ran, final⟩ := processClientMsg_ok follows split short received enough
    exact ⟨last, (processed ready fuel).trans ran, final⟩

/-- Fed in any chunks, the stream is cut as a whole. The loop needs no more fuel than there are
messages, and the ring never refuses a chunk. -/
theorem processMsgs_ok (follows : Follows ops F) {chunks : List Bytes}
    (sizes : ∀ chunk ∈ chunks, 0 < chunk.length ∧ chunk.length ≤ maxClientBufferSize)
    (overhead : F.overhead ≤ maxClientBufferSize)
    (split : F.Splits (items ++ chunks.flatten) messages rest)
    (short : ∀ message ∈ messages, message.length ≤ maxClientBufferSize)
    (restShort : rest.length ≤ maxClientBufferSize) (incomplete : F.next items = none)
    (holds : Holds msgd items) {fuel : ℕ} (enough : messages.length < fuel) :
    ∃ last, TcpMsgDemarcar.processMsgs ops fuel msgd chunks = .ok (messages, last) ∧ Holds last rest := by
  induction chunks generalizing items msgd messages with
  | nil =>
    rw [List.flatten_nil, List.append_nil] at split
    obtain ⟨rfl, rfl⟩ := split.unique (.rest incomplete)
    exact ⟨msgd, rfl, holds⟩
  | cons chunk chunks ih =>
    obtain ⟨nonempty, small⟩ := sizes chunk (List.mem_cons_self ..)
    have residue : items.length ≤ maxClientBufferSize + F.overhead :=
      split.middle_length incomplete short (by omega)
    have capacity : defaultCbcSize.toNat = 10240 := rfl
    have scratch : maxClientBufferSize = 1024 := rfl
    rw [List.flatten_cons, ← List.append_assoc] at split
    obtain ⟨before, middle, after, first, second, rfl⟩ := split.cut
    rw [List.length_append] at enough
    obtain ⟨next, ran, held⟩ := processMsg_ok follows nonempty (by omega) (by omega) first
      (fun message member => short message (List.mem_append_left _ member)) holds
      (show before.length < fuel by omega)
    obtain ⟨last, remaining, final⟩ := ih
      (fun other member => sizes other (List.mem_cons_of_mem _ member)) second
      (fun message member => short message (List.mem_append_right _ member)) first.incomplete held (by omega)
    refine ⟨last, ?_, final⟩
    simp only [TcpMsgDemarcar.processMsgs, ran, remaining, bind, Except.bind, pure, Except.pure]

end

end TcpServerLib.Soundness
