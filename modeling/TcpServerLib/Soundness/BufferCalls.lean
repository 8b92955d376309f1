import TcpServerLib.Refinement.GrowingBuffer

/-! # Runs of calls on the serialize buffer

A call keeps the counters inside the block, and writes inside it, if it does not have to make a block
of no bytes larger and does not copy over the end. A truncated buffer may be such a block: its size
stays zero however often it is doubled.
-/

namespace TcpServerLib.Soundness

open Machine Model Refinement

inductive BufferCall where
  | serializeInt8 (data : Int8)
  | serializeUint8 (data : UInt8)
  | serializeInt (data : Int32)
  | serializeInt32 (data : Int32)
  | serializeUint32 (data : UInt32)
  | serializeFloat (data : UInt32)
  | serializeDouble (data : UInt64)
  | serializeString (data : Bytes)
  | skip (size : ℤ)
  | markCheckpoint
  | restoreCheckpoint
  | reset
  | truncate
  | copyInByOffset (value : Bytes) (offset : ℤ)
deriving DecidableEq

namespace BufferCall

def run (fuel : ℕ) (buff : SerializedBuffer) : BufferCall → Except (Cut Trap) SerializedBuffer
  | serializeInt8 data => buff.serializeInt8 fuel data
  | serializeUint8 data => buff.serializeUint8 fuel data
  | serializeInt data => buff.serializeInt fuel data
  | serializeInt32 data => buff.serializeInt32 fuel data
  | serializeUint32 data => buff.serializeUint32 fuel data
  | serializeFloat data => buff.serializeFloat fuel data
  | serializeDouble data => buff.serializeDouble fuel data
  | serializeString data => buff.serializeString fuel data
  | skip size => buff.serializeBufferSkip fuel size
  | markCheckpoint => .ok buff.markCheckpoint
  | restoreCheckpoint => .ok buff.restoreCheckpoint
  | reset => .ok buff.reset
  | truncate => Cut.lift buff.truncate
  | copyInByOffset value offset => Cut.lift (buff.copyInByOffset value offset)

/-- The number of bytes that a call is for. -/
def amount : BufferCall → ℕ
  | serializeInt8 _ | serializeUint8 _ => 1
  | serializeInt _ | serializeInt32 _ | serializeUint32 _ | serializeFloat _ => 4
  | serializeDouble _ => 8
  | serializeString data => data.length
  | skip size => size.toNat
  | markCheckpoint | restoreCheckpoint | reset | truncate => 0
  | copyInByOffset value _ => value.length

/-- The call comes back. -/
def Returns (call : BufferCall) (buff after : SerializedBuffer) : Prop :=
  ∃ fuel, call.run fuel buff = .ok after

/-- Backward by at most `next`, and no negative offset. -/
def Allowed (buff : SerializedBuffer) : BufferCall → Prop
  | skip size => 0 ≤ buff.next + size
  | copyInByOffset _ offset => 0 ≤ offset
  | _ => True

/-- There is room, or a size that can be doubled; a copy by offset is refused, or ends in the buffer. -/
def Careful (buff : SerializedBuffer) : BufferCall → Prop
  | skip size => size ≤ buff.size - buff.next ∨ buff.size ≠ 0
  | markCheckpoint | restoreCheckpoint | reset | truncate => True
  | copyInByOffset value offset =>
    buff.size - buff.next < value.length ∨ buff.size < offset ∨ offset + value.length ≤ buff.size
  | call => call.amount ≤ buff.size - buff.next ∨ buff.size ≠ 0

end BufferCall

/-- The counters, and the block that has the size it should have. -/
structure InBounds (buff : SerializedBuffer) : Prop where
  allocated : (buff.b.length : ℤ) = buff.size
  next_nonneg : 0 ≤ buff.next
  next_le : buff.next ≤ buff.size
  checkpoint_nonneg : 0 ≤ buff.checkpoint
  checkpoint_le : buff.checkpoint ≤ buff.size

/-- Every call meets the condition in the state it is made in. -/
def Throughout (condition : SerializedBuffer → BufferCall → Prop) : List BufferCall →
    SerializedBuffer → Prop
  | [], _ => True
  | call :: calls, buff => condition buff call ∧ ∀ after, call.Returns buff after →
      Throughout condition calls after

/-- Every call comes back, and the counters stay in bounds. -/
def KeepsBounds : List BufferCall → SerializedBuffer → Prop
  | [], buff => InBounds buff
  | call :: calls, buff => InBounds buff ∧ ∃ after, call.Returns buff after ∧ KeepsBounds calls after

section

variable {call : BufferCall} {b : Bytes} {next checkpoint spent : ℕ}

/-- What is known of the buffer when so many bytes have been asked for. -/
structure Spent (spent : ℕ) (b : Bytes) (next checkpoint : ℕ) : Prop where
  inside : next ≤ b.length
  marked : checkpoint ≤ b.length
  small : b.length < 2 ^ 31
  written : next ≤ spent
  kept : checkpoint ≤ spent

theorem Spent.inBounds (spends : Spent spent b next checkpoint) : InBounds (bufferOver b next checkpoint) where
  allocated := rfl
  next_nonneg := Int.natCast_nonneg _
  next_le := Int.ofNat_le.mpr spends.inside
  checkpoint_nonneg := Int.natCast_nonneg _
  checkpoint_le := Int.ofNat_le.mpr spends.marked

/-- A block that has grown for `target` bytes. -/
theorem Spent.grown {target amount : ℕ} {data : Bytes} (spends : Spent spent b next checkpoint)
    (below : target ≤ spent + amount)
    (total : spent + amount < 2 ^ 30) (positive : target ≤ b.length ∨ 0 < b.length)
    (length : data.length = (grownBlock b target).length) : Spent (spent + amount) data target checkpoint := by
  obtain ⟨_, room, larger⟩ := length_grownBlock b target positive
  have small := length_grownBlock_lt spends.small (by omega) positive
  rw [← length] at room larger small
  exact ⟨room, Nat.le_trans spends.marked larger, small, below, Nat.le_trans spends.kept
    (Nat.le_add_right _ _)⟩

/-- The writers. -/
theorem serialize_spends {less : ℤ → Bool} {data : Bytes} {amount : ℕ}
    (spends : Spent spent b next checkpoint)
    (length : data.length = amount) (compares : Compares less next (next + amount))
    (total : spent + amount < 2 ^ 30)
    (careful : (amount : ℤ) ≤ b.length - next ∨ (b.length : ℤ) ≠ 0) :
    ∃ b' next' checkpoint',
      (∃ fuel, (bufferOver b next checkpoint).serialize less fuel data =
        .ok (bufferOver b' next' checkpoint')) ∧ Spent (spent + amount) b' next' checkpoint' := by
  subst length
  have positive : next + data.length ≤ b.length ∨ 0 < b.length := by omega
  have written := spends.written
  have room := (length_grownBlock b _ positive).2.1
  exact ⟨_, _, _, serialize_returns compares spends.inside spends.small (by omega) positive,
    spends.grown (by omega) total positive (length_splice room)⟩

/-- A writer of a fixed width. -/
theorem primitive_spends {data : Bytes} {width : ℕ} (spends : Spent spent b next checkpoint)
    (length : data.length = width)
    (total : spent + width < 2 ^ 30) (careful : (width : ℤ) ≤ b.length - next ∨ (b.length : ℤ) ≠ 0) :
    ∃ b' next' checkpoint',
      (∃ fuel, (bufferOver b next checkpoint).serializePrimitive fuel data =
        .ok (bufferOver b' next' checkpoint')) ∧ Spent (spent + width) b' next' checkpoint' := by
  subst length
  exact serialize_spends spends rfl (compares_lessSizeT next data.length) total careful

theorem skip_spends {size : ℤ} (spends : Spent spent b next checkpoint) (allowed : 0 ≤ (next : ℤ) + size)
    (careful : size ≤ b.length - next ∨ (b.length : ℤ) ≠ 0) (total : spent + size.toNat < 2 ^ 30) :
    ∃ b' next' checkpoint',
      (∃ fuel, (bufferOver b next checkpoint).serializeBufferSkip fuel size =
        .ok (bufferOver b' next' checkpoint')) ∧
        Spent (spent + size.toNat) b' next' checkpoint' := by
  obtain ⟨target, moves⟩ := Int.eq_ofNat_of_zero_le allowed
  have positive : target ≤ b.length ∨ 0 < b.length := by omega
  have written := spends.written
  exact ⟨_, _, _, skip_returns moves spends.inside spends.small
    (by omega) positive, spends.grown (by omega) total positive rfl⟩

/-- The clone is as large as what has been written, and has no checkpoint. -/
theorem truncate_spends (spends : Spent spent b next checkpoint) : ∃ b' next' checkpoint',
    (bufferOver b next checkpoint).truncate = .ok (bufferOver b' next' checkpoint') ∧
    Spent spent b' next' checkpoint' := by
  have inside := spends.inside
  by_cases full : next = b.length
  · refine ⟨b, next, checkpoint, ?_, spends⟩
    exact if_pos (congrArg Nat.cast full)
  · have length : (b.take next).length = next := List.length_take_of_le inside
    have small := spends.small
    refine ⟨b.take next, next, 0, ?_, ?_⟩
    · rw [SerializedBuffer.truncate,
        if_neg (by rw [bufferOver]; dsimp only; omega), if_pos (by rw [bufferOver]; dsimp only; omega)]
      rw [bufferOver, bufferOver, length]
      rfl
    · exact ⟨Nat.le_of_eq length.symm, Nat.zero_le _, by omega, spends.written, Nat.zero_le _⟩

/-- A copy that is not refused leaves the counters alone. -/
theorem copyIn_spends {value : Bytes} {offset : ℤ} (spends : Spent spent b next checkpoint)
    (allowed : 0 ≤ offset)
    (careful : (b.length : ℤ) - next < value.length ∨ (b.length : ℤ) < offset ∨
      offset + value.length ≤ b.length) :
    ∃ b', (bufferOver b next checkpoint).copyInByOffset value offset = .ok (bufferOver b' next checkpoint) ∧
      Spent (spent + value.length) b' next checkpoint := by
  have later : Spent (spent + value.length) b next checkpoint :=
    ⟨spends.inside, spends.marked, spends.small, Nat.le_trans spends.written (Nat.le_add_right _ _),
      Nat.le_trans spends.kept (Nat.le_add_right _ _)⟩
  rw [SerializedBuffer.copyInByOffset]
  by_cases few : (bufferOver b next checkpoint).size - (bufferOver b next checkpoint).next < value.length
  · exact ⟨b, if_pos few, later⟩
  · rw [if_neg few]
    by_cases outside : (bufferOver b next checkpoint).size < offset
    · exact ⟨b, if_pos outside, later⟩
    · rw [if_neg outside]
      rw [bufferOver] at few outside
      dsimp only at few outside
      obtain ⟨start, rfl⟩ := Int.eq_ofNat_of_zero_le allowed
      have room : start + value.length ≤ b.length := by omega
      have length : (splice b start value).length = b.length := length_splice room
      refine ⟨splice b start value, ?_, ?_⟩
      · rw [show storeAt (bufferOver b next checkpoint).b start value = _ from storeAt_ok room]
        rw [bufferOver, bufferOver, length]
      · exact ⟨length ▸ later.inside, length ▸ later.marked, length ▸ later.small,
          later.written, later.kept⟩

/-- What one call preserves. -/
theorem call_spends (spends : Spent spent b next checkpoint)
    (allowed : call.Allowed (bufferOver b next checkpoint))
    (careful : call.Careful (bufferOver b next checkpoint)) (total : spent + call.amount < 2 ^ 30) :
    ∃ b' next' checkpoint', call.Returns (bufferOver b next checkpoint) (bufferOver b' next' checkpoint') ∧
      Spent (spent + call.amount) b' next' checkpoint' := by
  cases call with
  | serializeString data => exact serialize_spends spends rfl (compares_lessInt next data.length) total careful
  | skip size => exact skip_spends spends allowed careful total
  | markCheckpoint =>
    exact ⟨b, next, next, ⟨0, rfl⟩, spends.inside, spends.inside, spends.small, spends.written, spends.written⟩
  | restoreCheckpoint =>
    exact ⟨b, checkpoint, checkpoint, ⟨0, rfl⟩, spends.marked, spends.marked, spends.small,
      spends.kept, spends.kept⟩
  | reset =>
    exact ⟨b, 0, 0, ⟨0, rfl⟩, Nat.zero_le _, Nat.zero_le _, spends.small, Nat.zero_le _, Nat.zero_le _⟩
  | truncate =>
    obtain ⟨b', next', checkpoint', truncated, after⟩ := truncate_spends spends
    exact ⟨b', next', checkpoint', ⟨0, congrArg Cut.lift truncated⟩, after⟩
  | copyInByOffset value offset =>
    obtain ⟨b', copied, after⟩ := copyIn_spends spends allowed careful
    exact ⟨b', next, checkpoint, ⟨0, congrArg Cut.lift copied⟩, after⟩
  | _ => exact primitive_spends spends (length_encodeLE _ _) total careful

theorem run_keepsBounds {calls : List BufferCall} (spends : Spent spent b next checkpoint)
    (allowed : Throughout (fun buff call => call.Allowed buff) calls (bufferOver b next checkpoint))
    (careful : Throughout (fun buff call => call.Careful buff) calls (bufferOver b next checkpoint))
    (total : spent + (calls.map BufferCall.amount).sum < 2 ^ 30) :
    KeepsBounds calls (bufferOver b next checkpoint) := by
  induction calls generalizing spent b next checkpoint with
  | nil => exact spends.inBounds
  | cons call calls ih =>
    rw [List.map_cons, List.sum_cons] at total
    obtain ⟨b', next', checkpoint', returned, after⟩ := call_spends spends allowed.1 careful.1 (by omega)
    exact ⟨spends.inBounds, _, returned, ih after (allowed.2 _ returned) (careful.2 _ returned) (by omega)⟩

end

theorem spent_init (size : ℕ) (small : size < 2 ^ 31) : Spent 0 (List.replicate size 0) 0 0 :=
  ⟨Nat.zero_le _, Nat.zero_le _, by rwa [List.length_replicate], Nat.le_refl 0, Nat.le_refl 0⟩

theorem initSerializedBuffer_allocated : SerializedBuffer.initSerializedBuffer =
    bufferOver (List.replicate 512 0) 0 0 := by
  rw [bufferOver, List.length_replicate]
  rfl

/-- In every run whose calls are all careful, each call comes back, and the counters are in bounds after it. -/
theorem calls_keepBounds {calls : List BufferCall}
    (allowed : Throughout (fun buff call => call.Allowed buff) calls .initSerializedBuffer)
    (careful : Throughout (fun buff call => call.Careful buff) calls .initSerializedBuffer)
    (total : (calls.map BufferCall.amount).sum < 2 ^ 30) : KeepsBounds calls .initSerializedBuffer := by
  rw [initSerializedBuffer_allocated] at allowed careful ⊢
  exact run_keepsBounds (spent_init 512 (by decide)) allowed careful (by rwa [Nat.zero_add])

/-- A number is written, and the buffer truncated behind it. -/
theorem calls_keepBounds_int8 :
    KeepsBounds [.serializeInt8 1, .markCheckpoint, .truncate, .restoreCheckpoint] .initSerializedBuffer :=
  calls_keepBounds ⟨trivial, fun _ _ =>
    ⟨trivial, fun _ _ => ⟨trivial, fun _ _ => ⟨trivial, fun _ _ => trivial⟩⟩⟩⟩
    ⟨.inl (by decide), fun _ _ =>
      ⟨trivial, fun _ _ => ⟨trivial, fun _ _ => ⟨trivial, fun _ _ => trivial⟩⟩⟩⟩
      (by decide)

/-- A size of zero is doubled for ever. -/
theorem growthLoop_zero {less : ℤ → Bool} (short : less 0 = true) (fuel : ℕ) :
    growthLoop less 0 fuel ⟨0, 0, false⟩ = .error .running := by
  have stuck (growth : Growth) : growth.size = 0 ∧ growth.availableSize = 0 → tooSmall less growth =
      .ok true := by
    rintro ⟨_, none⟩
    rw [tooSmall, none, short]
  have again (growth : Growth) : growth.size = 0 ∧ growth.availableSize = 0 →
      ∃ out next, growOnce 0 growth = .ok (out, next) ∧ next.size = 0 ∧ next.availableSize = 0 := by
    rintro ⟨none, _⟩
    refine ⟨(), ⟨0, 0, true⟩, ?_, rfl, rfl⟩
    rw [growOnce, none]
    rfl
  rw [growthLoop, whileLoop_running (fun growth => growth.size = 0 ∧ growth.availableSize = 0) stuck
    again fuel _ ⟨rfl, rfl⟩]
  rfl

/-- Nothing is ever written into a buffer that was truncated when it was empty. -/
theorem truncateEmpty_runs : ¬ ∀ calls : List BufferCall,
    Throughout (fun buff call => call.Allowed buff) calls .initSerializedBuffer →
      (calls.map BufferCall.amount).sum < 2 ^ 30 → KeepsBounds calls .initSerializedBuffer := by
  intro always
  obtain ⟨_, after, ⟨_, truncated⟩, _, _, ⟨fuel, written⟩, _⟩ := always [.truncate, .serializeInt8 1]
    ⟨trivial, fun _ _ => ⟨trivial, fun _ _ => trivial⟩⟩ (by decide)
  have empty : SerializedBuffer.initSerializedBuffer.truncate = .ok ⟨[], 0, 0, 0⟩ := rfl
  rw [BufferCall.run, empty] at truncated
  cases truncated
  have running : BufferCall.run fuel ⟨[], 0, 0, 0⟩ (.serializeInt8 1) = .error .running := by
    have looped : growthLoop (lessSizeT 1) 0 fuel ⟨0, 0, false⟩ = .error .running := growthLoop_zero rfl fuel
    have left : int (0 - 0) = .ok 0 := rfl
    rw [BufferCall.run, SerializedBuffer.serializeInt8, SerializedBuffer.serializePrimitive,
      SerializedBuffer.serialize, left]
    dsimp only
    rw [length_encodeLE, looped]
  cases running.symm.trans written

end TcpServerLib.Soundness
