import Mathlib.Algebra.Order.Ring.Int
import TcpServerLib.Model.GrowingBuffer
import TcpServerLib.Model.SerializedBuffer

/-! # How the serialize buffer grows

A growth loop ends with the first doubling that has room for the data, and a writer that gets there
leaves everything in front of the data as it was. A loop that begins with a size of zero does not end.
-/

namespace TcpServerLib.Refinement

open Machine Model

variable {b data : Bytes} {next checkpoint need size k : ℕ} {less : ℤ → Bool}

/-- A buffer whose `size` is that of its block. -/
def bufferOver (b : Bytes) (next checkpoint : ℕ) : SerializedBuffer :=
  ⟨b, b.length, next, checkpoint⟩

/-- The block after the loop that asks for `need` bytes. -/
def grownBlock (b : Bytes) (need : ℕ) : Bytes :=
  b ++ List.replicate (SerBuff.grown need b.length need - b.length) 0

/-- The comparison is that of the room behind `next` with the data. -/
def Compares (less : ℤ → Bool) (next need : ℕ) : Prop :=
  ∀ size : ℕ, next ≤ size → size < 2 ^ 31 → less ((size : ℤ) - next) = decide (size < need)

theorem int_ok {n : ℤ} (lower : -2 ^ 31 ≤ n) (upper : n < 2 ^ 31) : int n = .ok n :=
  if_pos ⟨by omega, by omega⟩

/-- The comparison in `int` sees whether there is room. -/
theorem compares_lessInt (next n : ℕ) : Compares (lessInt n) next (next + n) := by
  intro size _ _
  rw [lessInt, decide_eq_decide]
  omega

/-- The comparison in `size_t` sees it too. -/
theorem compares_lessSizeT (next width : ℕ) : Compares (lessSizeT width) next (next + width) := by
  intro size inside small
  have same : ((size : ℤ) - next) % 2 ^ 64 = size - next := Int.emod_eq_of_lt (by omega) (by omega)
  rw [lessSizeT, same, decide_eq_decide]
  omega

/-- The size doubles at most once past what is needed. -/
theorem grown_lt {limit : ℕ} (small : size < 2 * limit) (total : need ≤ limit) :
    SerBuff.grown k size need < 2 * limit := by
  induction k generalizing size with
  | zero =>
    rw [SerBuff.grown]
    exact small
  | succ k ih =>
    rw [SerBuff.grown]
    split
    · exact ih (by omega)
    · exact small

theorem grown_room (room : need ≤ size) (k : ℕ) : SerBuff.grown k size need = size := by
  cases k with
  | zero => rfl
  | succ k => exact if_neg (by omega)

theorem growOnce_of {next size availableSize : ℤ} {growth : Growth} (doubled : int (growth.size * 2) = .ok size)
    (left : int (size - next) = .ok availableSize) :
    growOnce next growth = .ok ((), ⟨size, availableSize, true⟩) := by
  rw [growOnce, doubled]
  dsimp only
  rw [left]

/-- One doubling. -/
theorem growOnce_ok (small : size * 2 < 2 ^ 31) (inside : next ≤ size) (available : ℤ) (resized : Bool) :
    growOnce next ⟨size, available, resized⟩ =
      .ok ((), ⟨(size * 2 : ℕ), (size * 2 : ℕ) - next, true⟩) := by
  have twice : (size : ℤ) * 2 = (size * 2 : ℕ) := by push_cast; ring
  have doubled : int ((size : ℤ) * 2) =
      .ok ((size * 2 : ℕ) : ℤ) := by rw [twice]; exact int_ok (by omega) (by omega)
  exact growOnce_of doubled (int_ok (by omega) (by omega))

/-- The loop ends when there is room. -/
theorem growthLoop_exit (compares : Compares less next need) (inside : next ≤ size) (small : size < 2 ^ 31)
    (room : need ≤ size) (resized : Bool) (fuel : ℕ) :
    growthLoop less next (fuel + 1) ⟨size, size - next, resized⟩ = .ok ⟨size, size - next, resized⟩ := by
  have ended : tooSmall less ⟨size, size - next, resized⟩ = .ok false := by
    rw [tooSmall, compares size inside small, decide_eq_false (by omega)]
  rw [growthLoop, whileLoop_exit ended]
  rfl

/-- It doubles when there is not. -/
theorem growthLoop_step (compares : Compares less next need) (inside : next ≤ size) (small : size * 2 < 2 ^ 31)
    (short : size < need) (resized : Bool) (fuel : ℕ) :
    growthLoop less next (fuel + 1) ⟨size, size - next, resized⟩ =
      growthLoop less next fuel ⟨(size * 2 : ℕ), (size * 2 : ℕ) - next, true⟩ := by
  have entered : tooSmall less ⟨size, size - next, resized⟩ = .ok true := by
    rw [tooSmall, compares size inside (by omega), decide_eq_true short]
  rw [growthLoop, whileLoop_step entered (growOnce_ok small inside _ _), growthLoop]
  cases whileLoop (tooSmall less) (growOnce next) fuel ⟨(size * 2 : ℕ), (size * 2 : ℕ) - next,
    true⟩ <;> rfl

/-- The loop ends with the size that `grown` computes. -/
theorem growthLoop_grown (compares : Compares less next need) (fuelled : need ≤ size + k)
    (positive : need ≤ size ∨ 0 < size)
    (inside : next ≤ size) (total : need ≤ 2 ^ 30) (small : size < 2 ^ 31) (resized : Bool) :
    ∃ fuel, growthLoop less next fuel ⟨size, size - next, resized⟩ =
      .ok ⟨SerBuff.grown k size need, SerBuff.grown k size need - next, resized || decide (size < need)⟩ := by
  induction k generalizing size resized with
  | zero =>
    refine ⟨1, ?_⟩
    rw [growthLoop_exit compares inside small fuelled, decide_eq_false (by omega), Bool.or_false, SerBuff.grown]
  | succ k ih =>
    rw [SerBuff.grown]
    by_cases short : size < need
    · obtain ⟨fuel, looped⟩ := @ih (size * 2) (by omega) (.inr (by omega)) (by omega) (by omega) true
      refine ⟨fuel + 1, ?_⟩
      rw [growthLoop_step compares inside
        (by omega) short, if_pos short, looped, decide_eq_true short, Bool.or_true, Bool.true_or]
    · refine ⟨1, ?_⟩
      rw [growthLoop_exit compares inside small (by omega), if_neg short, decide_eq_false short, Bool.or_false]

/-- The new block has room for what is needed and for what was there. -/
theorem length_grownBlock (b : Bytes) (need : ℕ) (positive : need ≤ b.length ∨ 0 < b.length) :
    (grownBlock b need).length = SerBuff.grown need b.length need ∧ need ≤ (grownBlock b need).length ∧
      b.length ≤ (grownBlock b need).length := by
  rw [grownBlock, List.length_append, List.length_replicate]
  rcases positive with room | positive
  · rw [grown_room room]
    omega
  · obtain ⟨enough, larger⟩ := SerBuff.grown_enough need positive (Nat.le_add_left need b.length)
    omega

theorem length_grownBlock_lt (small : b.length < 2 ^ 31) (total : need ≤ 2 ^ 30)
    (positive : need ≤ b.length ∨ 0 < b.length) :
    (grownBlock b need).length < 2 ^ 31 := by
  rw [(length_grownBlock b need positive).1]
  have limit : 2 * 2 ^ 30 = 2 ^ 31 := by decide
  rw [← limit] at small ⊢
  exact grown_lt small total

theorem grownBlock_room (room : need ≤ b.length) : grownBlock b need = b := by
  rw [grownBlock, grown_room room, Nat.sub_self, List.replicate_zero, List.append_nil]

/-- `realloc` gives that block. -/
theorem realloc_grown (b : Bytes) (need : ℕ) (positive : need ≤ b.length ∨ 0 < b.length) :
    realloc b (SerBuff.grown need b.length need) = .ok (grownBlock b need) := by
  obtain ⟨length, _, larger⟩ := length_grownBlock b need positive
  rw [length] at larger
  rw [realloc, if_pos (Int.natCast_nonneg _), Int.toNat_natCast, List.take_of_length_le larger, grownBlock]

theorem storeAt_ok {offset : ℕ} (inside : offset + data.length ≤ b.length) :
    storeAt b offset data = .ok (splice b offset data) := by
  rw [storeAt, if_pos ⟨Int.natCast_nonneg _, by exact_mod_cast inside⟩, Int.toNat_natCast]

theorem append_of {buff : SerializedBuffer} {after : Bytes} {moved : ℤ}
    (stored : storeAt buff.b buff.next data = .ok after)
    (forward : int (buff.next + data.length) = .ok moved) :
    buff.append data = .ok { buff with b := after, next := moved } := by
  rw [SerializedBuffer.append, stored]
  dsimp only
  rw [forward]

/-- Appending writes behind what is there. -/
theorem append_ok (inside : next + data.length ≤ b.length) (total : next + data.length < 2 ^ 30) :
    (bufferOver b next checkpoint).append data =
      .ok (bufferOver (splice b next data) (next + data.length) checkpoint) := by
  have sum : (next : ℤ) + data.length = ((next + data.length : ℕ) : ℤ) := by push_cast; rfl
  have moved : int ((next : ℤ) + data.length) = .ok ((next + data.length : ℕ) : ℤ) := by
    rw [sum]
    exact int_ok (by omega) (by omega)
  have appended : (bufferOver b next checkpoint).append data = _ := append_of (storeAt_ok inside) moved
  have length : ((splice b next data).length : ℤ) = b.length := congrArg _ (length_splice inside)
  rw [appended, bufferOver, bufferOver, length]

section

variable (buff : SerializedBuffer) {after : SerializedBuffer} {availableSize : ℤ} {growth : Growth} {fuel : ℕ}

/-- Serializing where there is room already. -/
theorem serialize_in_place (left : int (buff.size - buff.next) = .ok availableSize)
    (looped : growthLoop less buff.next fuel ⟨buff.size, availableSize, false⟩ = .ok growth)
    (unresized : growth.isResize = false) (appended : buff.append data = .ok after) :
    buff.serialize less fuel data = .ok after := by
  rw [SerializedBuffer.serialize, left]
  dsimp only
  rw [looped]
  dsimp only
  rw [if_pos unresized, appended]
  rfl

/-- Serializing into a grown block. -/
theorem serialize_resized {block : Bytes} (left : int (buff.size - buff.next) = .ok availableSize)
    (looped : growthLoop less buff.next fuel ⟨buff.size, availableSize, false⟩ = .ok growth)
    (resized : growth.isResize = true) (moved : realloc buff.b growth.size = .ok block)
    (appended : SerializedBuffer.append { buff with b := block, size := growth.size } data = .ok after) :
    buff.serialize less fuel data = .ok after := by
  rw [SerializedBuffer.serialize, left]
  dsimp only
  rw [looped]
  dsimp only
  rw [if_neg (by rw [resized]; exact Bool.noConfusion), moved]
  dsimp only
  rw [appended]
  rfl

end

theorem allocated_grown (b : Bytes) (next checkpoint : ℕ) (positive : need ≤ b.length ∨ 0 < b.length) :
    ({ bufferOver b next checkpoint with b := grownBlock b need, size := SerBuff.grown need b.length need } :
      SerializedBuffer) =
      bufferOver (grownBlock b need) next checkpoint := by
  rw [bufferOver, bufferOver, (length_grownBlock b need positive).1]

/-- A writer comes back, with the data behind what was there. -/
theorem serialize_returns (compares : Compares less next (next + data.length)) (inside : next ≤ b.length)
    (small : b.length < 2 ^ 31) (total : next + data.length < 2 ^ 30)
    (positive : next + data.length ≤ b.length ∨ 0 < b.length) :
    ∃ fuel, (bufferOver b next checkpoint).serialize less fuel data =
      .ok (bufferOver (splice (grownBlock b (next + data.length)) next data) (next + data.length)
        checkpoint) := by
  obtain ⟨fuel, looped⟩ :=
    growthLoop_grown compares (Nat.le_add_left (next + data.length) b.length) positive inside
    (Nat.le_of_lt total) small false
  have left : int ((b.length : ℤ) - next) = .ok ((b.length : ℤ) - next) := int_ok (by omega) (by omega)
  have room := (length_grownBlock b (next + data.length) positive).2.1
  refine ⟨fuel, ?_⟩
  by_cases short : b.length < next + data.length
  · apply serialize_resized (bufferOver b next checkpoint) left looped
    · rw [decide_eq_true short]
      rfl
    · exact realloc_grown b _ positive
    · exact (congrArg (SerializedBuffer.append · data) (allocated_grown b next checkpoint positive)).trans
        (append_ok room total)
  · apply serialize_in_place (bufferOver b next checkpoint) left looped
    · rw [decide_eq_false short]
      rfl
    · rw [grownBlock_room (by omega)]
      exact append_ok (by omega) total

/-- What stands in front of the data, and the data. -/
theorem take_written (inside : next ≤ b.length) :
    (splice (grownBlock b (next + data.length)) next data).take (next + data.length) = b.take next ++ data := by
  have kept : (grownBlock b (next + data.length)).take next = b.take next := by
    rw [grownBlock, List.take_append_of_le_length inside]
  have length : (b.take next ++ data).length = next + data.length := by
    rw [List.length_append, List.length_take, Nat.min_eq_left inside]
  rw [splice, kept]
  exact List.take_left' length

theorem forward_ok {size : ℤ} {target : ℕ} (moves : (next : ℤ) + size = target) (small : target < 2 ^ 31) :
    (bufferOver b next checkpoint).forward size = .ok (bufferOver b target checkpoint) := by
  have moved : int ((bufferOver b next checkpoint).next + size) = .ok (target : ℤ) := by
    rw [show (bufferOver b next checkpoint).next + size = (target : ℤ) from moves]
    exact int_ok (by omega) (by omega)
  rw [SerializedBuffer.forward, moved]
  rfl

section

variable (buff : SerializedBuffer) {after : SerializedBuffer} {availableSize skipped : ℤ}
  {growth : Growth} {fuel : ℕ}

/-- Skipping where there is room already. -/
theorem skip_in_place (left : int (buff.size - buff.next) = .ok availableSize) (room : skipped ≤ availableSize)
    (forward : buff.forward skipped = .ok after) (fuel : ℕ) : buff.serializeBufferSkip fuel skipped =
      .ok after := by
  rw [SerializedBuffer.serializeBufferSkip, left]
  dsimp only
  rw [if_pos room, forward]
  rfl

/-- Skipping in a grown block. -/
theorem skip_resized {block : Bytes} (left : int (buff.size - buff.next) = .ok availableSize)
    (short : ¬ skipped ≤ availableSize)
    (looped : growthLoop (lessInt skipped) buff.next fuel ⟨buff.size, availableSize, false⟩ = .ok growth)
    (moved : realloc buff.b growth.size = .ok block)
    (forward : SerializedBuffer.forward { buff with b := block, size := growth.size } skipped = .ok after) :
    buff.serializeBufferSkip fuel skipped = .ok after := by
  rw [SerializedBuffer.serializeBufferSkip, left]
  dsimp only
  rw [if_neg short, looped]
  dsimp only
  rw [moved]
  dsimp only
  rw [forward]
  rfl

end

/-- The result does not depend on the fuel. -/
theorem growthLoop_stable (less : ℤ → Bool) (next : ℤ) (growth : Growth) :
    Stable fun fuel => growthLoop less next fuel growth := by
  intro fuel more
  dsimp only
  rcases whileLoop_stable (tooSmall less) (growOnce next) growth fuel more with asks | same
  · left
    dsimp only at asks
    rw [growthLoop, asks]
    rfl
  · right
    dsimp only at same
    rw [growthLoop, growthLoop, same]

/-- More fuel changes no result. -/
theorem serialize_stable (less : ℤ → Bool) (buff : SerializedBuffer) (data : Bytes) :
    Stable fun fuel => buff.serialize less fuel data := by
  intro fuel more
  dsimp only
  rw [SerializedBuffer.serialize, SerializedBuffer.serialize]
  cases int (buff.size - buff.next) with
  | error trap => exact .inr rfl
  | ok availableSize =>
    dsimp only
    rcases growthLoop_stable less buff.next ⟨buff.size, availableSize, false⟩ fuel more with asks | same
    · left
      dsimp only at asks
      rw [asks]
    · right
      dsimp only at same
      rw [same]

/-- Forward the block grows as for a writer; backward nothing but `next` changes. -/
theorem skip_returns {skipped : ℤ} {target : ℕ} (moves : (next : ℤ) + skipped = target)
    (inside : next ≤ b.length)
    (small : b.length < 2 ^ 31) (total : target < 2 ^ 30) (positive : target ≤ b.length ∨ 0 < b.length) :
    ∃ fuel, (bufferOver b next checkpoint).serializeBufferSkip fuel skipped =
      .ok (bufferOver (grownBlock b target) target checkpoint) := by
  have left : int ((b.length : ℤ) - next) = .ok ((b.length : ℤ) - next) := int_ok (by omega) (by omega)
  by_cases short : b.length < target
  · obtain ⟨n, rfl⟩ : ∃ n : ℕ, skipped = n := ⟨skipped.toNat, by omega⟩
    have same : target = next + n := by omega
    obtain ⟨fuel, looped⟩ :=
      growthLoop_grown (same ▸ compares_lessInt next n) (Nat.le_add_left target b.length) positive inside
      (Nat.le_of_lt total) small false
    refine ⟨fuel, ?_⟩
    apply skip_resized (bufferOver b next checkpoint) left (by omega) looped
    · exact realloc_grown b _ positive
    · exact (congrArg (SerializedBuffer.forward · n) (allocated_grown b next checkpoint positive)).trans
        (forward_ok moves (by omega))
  · refine ⟨0, ?_⟩
    rw [grownBlock_room (by omega)]
    exact skip_in_place (bufferOver b next checkpoint) left (by omega) (forward_ok moves (by omega)) 0

/-- The buffer of the parser, with its counters. -/
def asAllocated (buff : SerBuff) : SerializedBuffer :=
  bufferOver buff.b buff.next buff.checkpoint

/-- `serialize_string` does with the parser's buffer what its model says, in the range of an `int`. -/
theorem serializeString_refines (buff : SerBuff) (small : buff.b.length < 2 ^ 31)
    (total : buff.next + data.length < 2 ^ 30) :
    ∃ fuel, (asAllocated buff).serializeString fuel data = .ok (asAllocated (buff.serializeString data)) :=
  serialize_returns (compares_lessInt buff.next data.length) buff.within small total (.inr buff.positive)

end TcpServerLib.Refinement
