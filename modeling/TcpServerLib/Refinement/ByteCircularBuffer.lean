import TcpServerLib.Model.ByteCircularBuffer

/-! # The byte ring is a bounded queue

`Represents` ties a ring to the queue it stores: `rear` is the start of the window, `currentSize`
its length, and `front` the cell behind it. Each call is matched with the operation of the bounded
queue, and since every result is free of traps, no copy leaves the storage and no counter wraps.
-/

namespace TcpServerLib.Refinement

open Machine Model

variable {capacity : ℕ}

structure Represents (bcb : ByteCircularBuffer) (q : BoundedQueue UInt8 capacity) : Prop where
  storage : bcb.buffer.length = capacity
  size : bcb.bufferSize.toNat = capacity
  current : bcb.currentSize.toNat = q.items.length
  rear : bcb.rear.toNat ≤ capacity - 1
  front : bcb.front.toNat =
    if bcb.rear.toNat + q.items.length < capacity then bcb.rear.toNat + q.items.length
    else bcb.rear.toNat + q.items.length - capacity
  contents : window bcb.buffer bcb.rear.toNat q.items.length = q.items

namespace Represents

variable {bcb : ByteCircularBuffer} {q : BoundedQueue UInt8 capacity}

/-- The relation of the two indices, in the modular form. -/
theorem front_mod (rep : Represents bcb q) (positive : 0 < capacity) :
    bcb.front.toNat = (bcb.rear.toNat + bcb.currentSize.toNat) % capacity := by
  have bound := q.bound
  have rear := rep.rear
  rw [rep.front, rep.current]
  split_ifs with inside
  · exact (Nat.mod_eq_of_lt inside).symm
  · rw [Nat.mod_eq_sub_mod (by omega), Nat.mod_eq_of_lt (by omega)]

theorem of_items {q' : BoundedQueue UInt8 capacity} (rep : Represents bcb q)
    (same : q'.items = q.items) : Represents bcb q' := by
  obtain ⟨items, bound⟩ := q
  obtain ⟨items', bound'⟩ := q'
  obtain rfl : items' = items := same
  exact rep

end Represents

theorem bcbAdvance_ok {bcb : ByteCircularBuffer} {index n : UInt16}
    (bound : index.toNat + n.toNat ≤ bcb.bufferSize.toNat) :
    ∃ next, bcbAdvance bcb index n = .ok next ∧ next.toNat =
      if index.toNat + n.toNat < bcb.bufferSize.toNat then index.toNat + n.toNat
      else index.toNat + n.toNat - bcb.bufferSize.toNat := by
  have small := bcb.bufferSize.toNat_lt
  obtain ⟨sum, added, value⟩ := addU16_ok (show index.toNat + n.toNat < 2 ^ 16 by omega)
  refine ⟨if sum = bcb.bufferSize then 0 else sum, by simp only [bcbAdvance, added]; rfl, ?_⟩
  by_cases last : sum = bcb.bufferSize
  · have same := congrArg UInt16.toNat last
    rw [if_pos last, if_neg (by omega), UInt16.toNat_zero]
    omega
  · have other : sum.toNat ≠ bcb.bufferSize.toNat := fun same => last (UInt16.toNat_inj.mp same)
    rw [if_neg last, if_pos (by omega), value]

theorem bcbCreateNew_represents (size : UInt16) :
    Represents (bcbCreateNew size) (BoundedQueue.empty : BoundedQueue UInt8 size.toNat) where
  storage := List.length_replicate
  size := rfl
  current := rfl
  rear := Nat.zero_le _
  front := by
    change (0 : ℕ) = if 0 + 0 < size.toNat then 0 + 0 else 0 + 0 - size.toNat
    split_ifs <;> omega
  contents := window_zero _ _

theorem bcbReset_represents {bcb : ByteCircularBuffer} {q : BoundedQueue UInt8 capacity}
    (rep : Represents bcb q) :
    Represents (bcbReset bcb) (BoundedQueue.empty : BoundedQueue UInt8 capacity) where
  storage := rep.storage
  size := rep.size
  current := rfl
  rear := Nat.zero_le _
  front := by
    change (0 : ℕ) = if 0 + 0 < capacity then 0 + 0 else 0 + 0 - capacity
    split_ifs <;> omega
  contents := window_zero _ _

section Write

variable {bcb : ByteCircularBuffer} {q : BoundedQueue UInt8 capacity} {data : Bytes} {n : UInt16}

/-- Whatever copies were made, the ring holds the longer queue once its window reads so. -/
private theorem represents_written {next : ByteCircularBuffer} (rep : Represents bcb q)
    (length : data.length = n.toNat) (room : data.length ≤ capacity - q.items.length)
    (storage : next.buffer.length = capacity) (size : next.bufferSize = bcb.bufferSize)
    (rear : next.rear = bcb.rear) (current : next.currentSize.toNat = bcb.currentSize.toNat + n.toNat)
    (front : next.front.toNat =
      if bcb.rear.toNat + (q.items.length + n.toNat) < capacity
      then bcb.rear.toNat + (q.items.length + n.toNat)
      else bcb.rear.toNat + (q.items.length + n.toNat) - capacity)
    (contents : window next.buffer bcb.rear.toNat (q.items.length + data.length) = q.items ++ data) :
    Represents next (q.write data).2 := by
  have write := BoundedQueue.write_items room
  have grown : (q.write data).2.items.length = q.items.length + n.toNat := by
    rw [write, List.length_append, length]
  refine ⟨storage, size ▸ rep.size, ?_, rear ▸ rep.rear, ?_, ?_⟩
  · rw [grown, current, rep.current]
  · rw [grown, rear, front]
  · rw [grown, rear, write, ← length, contents]

/-- One copy is enough where the block ends in front of `rear`, or in front of the last cell. -/
private theorem copied_once (rep : Represents bcb q) (length : data.length = n.toNat)
    (room : data.length ≤ capacity - q.items.length)
    (straight : bcb.front.toNat < bcb.rear.toNat ∨ bcb.front.toNat + n.toNat ≤ capacity)
    (notFull : q.items.length < capacity) :
    ∃ buffer front currentSize, memcpy bcb.buffer bcb.front.toNat data 0 n.toNat = .ok buffer ∧
      bcbAdvance bcb bcb.front n = .ok front ∧ addU16 bcb.currentSize n = .ok currentSize ∧
      Represents { bcb with buffer, front, currentSize } (q.write data).2 := by
  obtain ⟨storage, size, current, rear, front, contents⟩ := id rep
  have small := bcb.bufferSize.toNat_lt
  have bound : bcb.front.toNat + n.toNat ≤ capacity := by split_ifs at front <;> omega
  have inside : bcb.front.toNat + data.length ≤ bcb.buffer.length := by omega
  have whole : (data.drop 0).take n.toNat = data := by rw [List.drop_zero, ← length, List.take_length]
  have copied := memcpy_ok (show bcb.front.toNat + n.toNat ≤ bcb.buffer.length by omega)
    (show 0 + n.toNat ≤ data.length by omega)
  rw [whole] at copied
  obtain ⟨advanced, advanceEq, advanceVal⟩ :=
    bcbAdvance_ok (show _ ≤ bcb.bufferSize.toNat from size ▸ bound)
  obtain ⟨grow, growEq, growVal⟩ :=
    addU16_ok (show bcb.currentSize.toNat + n.toNat < 2 ^ 16 by omega)
  refine ⟨_, _, _, copied, advanceEq, growEq, represents_written rep length room ?_ rfl rfl growVal ?_ ?_⟩
  · exact (length_splice inside).trans storage
  · rw [size] at advanceVal
    change advanced.toNat = _
    rw [advanceVal]
    split_ifs at front ⊢ <;> omega
  · change window (splice bcb.buffer bcb.front.toNat data) _ _ = _
    by_cases wrapped : bcb.rear.toNat + q.items.length < capacity
    · rw [if_pos wrapped] at front
      rw [front, window_splice_front (by omega), contents]
    · rw [if_neg wrapped] at front
      have below : bcb.front.toNat = bcb.rear.toNat + q.items.length - bcb.buffer.length := by omega
      rw [below, window_splice_below (by omega) (by omega) (by omega), contents]

/-- A block that crosses the last cell takes the second copy to the first cells. -/
private theorem copied_twice {lead rest : UInt16} (rep : Represents bcb q)
    (length : data.length = n.toNat) (room : data.length ≤ capacity - q.items.length)
    (above : bcb.rear.toNat ≤ bcb.front.toNat) (notFull : q.items.length < capacity)
    (leadVal : lead.toNat = capacity - bcb.front.toNat) (crosses : lead.toNat < n.toNat)
    (restVal : rest.toNat = n.toNat - lead.toNat) :
    ∃ first buffer currentSize, memcpy bcb.buffer bcb.front.toNat data 0 lead.toNat = .ok first ∧
      memcpy first 0 data lead.toNat rest.toNat = .ok buffer ∧
      addU16 bcb.currentSize n = .ok currentSize ∧
      Represents { bcb with buffer, front := rest, currentSize } (q.write data).2 := by
  obtain ⟨storage, size, current, rear, front, contents⟩ := id rep
  have small := bcb.bufferSize.toNat_lt
  have straight : bcb.rear.toNat + q.items.length < capacity := by
    by_contra wrapped
    rw [if_neg wrapped] at front
    omega
  rw [if_pos straight] at front
  have firstCopy := memcpy_ok (show bcb.front.toNat + lead.toNat ≤ bcb.buffer.length by omega)
    (show 0 + lead.toNat ≤ data.length by omega)
  have head : (data.take lead.toNat).length = lead.toNat := List.length_take_of_le (by omega)
  have kept : (splice bcb.buffer bcb.front.toNat (data.take lead.toNat)).length = bcb.buffer.length :=
    length_splice (by omega)
  have secondCopy := memcpy_ok (show 0 + rest.toNat ≤
    (splice bcb.buffer bcb.front.toNat (data.take lead.toNat)).length by omega)
    (show lead.toNat + rest.toNat ≤ data.length by omega)
  have tail : (data.drop lead.toNat).take rest.toNat = data.drop lead.toNat :=
    List.take_of_length_le (by rw [List.length_drop]; omega)
  rw [List.drop_zero] at firstCopy
  rw [tail] at secondCopy
  obtain ⟨grow, growEq, growVal⟩ :=
    addU16_ok (show bcb.currentSize.toNat + n.toNat < 2 ^ 16 by omega)
  refine ⟨_, _, _, firstCopy, secondCopy, growEq, represents_written rep length room ?_ rfl rfl growVal ?_ ?_⟩
  · change (splice (splice _ _ _) 0 _).length = capacity
    rw [length_splice (by rw [kept, List.length_drop]; omega), kept, storage]
  · change rest.toNat = _
    split_ifs <;> omega
  · change window (splice (splice _ bcb.front.toNat _) 0 _) _ _ = _
    rw [front, window_splice_split (by omega) (by omega) (by omega), contents]

/-- A block that fits is appended, in whichever of the three ways the indices call for. -/
theorem bcbWrite_accepts (rep : Represents bcb q) (length : data.length = n.toNat)
    (room : data.length ≤ capacity - q.items.length) :
    ∃ next, bcbWrite bcb data n = .ok (n, next) ∧ Represents next (q.write data).2 := by
  have size := rep.size
  have current := rep.current
  have bound := q.bound
  by_cases full : bcb.currentSize = bcb.bufferSize
  · have same := congrArg UInt16.toNat full
    have zero : n = 0 := UInt16.toNat_inj.mp (by rw [UInt16.toNat_zero]; omega)
    have empty : data = [] := List.eq_nil_of_length_eq_zero (by omega)
    refine ⟨bcb, by simp only [bcbWrite, bcbIsFull, full, beq_self_eq_true, if_true, zero]; rfl, ?_⟩
    exact rep.of_items (by rw [BoundedQueue.write_items room, empty, List.append_nil])
  have notFull : bcbIsFull bcb = false := by simpa only [bcbIsFull, beq_eq_false_iff_ne] using full
  have space : q.items.length < capacity := by
    have other : bcb.currentSize.toNat ≠ bcb.bufferSize.toNat := fun same => full (UInt16.toNat_inj.mp same)
    omega
  obtain ⟨available, availableEq, availableVal⟩ :=
    subU16_ok (show bcb.currentSize.toNat ≤ bcb.bufferSize.toNat by omega)
  have enough : ¬ available < n := by rw [UInt16.lt_iff_toNat_lt]; omega
  by_cases below : bcb.front < bcb.rear
  · obtain ⟨buffer, front, currentSize, copyEq, advanceEq, growEq, represents⟩ :=
      copied_once rep length room (.inl (UInt16.lt_iff_toNat_lt.mp below)) space
    refine ⟨_, ?_, represents⟩
    simp only [bcbWrite, notFull, Bool.false_eq_true, if_false, bcbAvailableSize, availableEq, if_neg enough,
      if_pos below, copyEq, advanceEq, growEq, bind, Except.bind, pure, Except.pure]
  have above : bcb.rear.toNat ≤ bcb.front.toNat := by
    rw [UInt16.lt_iff_toNat_lt] at below
    omega
  have frontBound : bcb.front.toNat ≤ capacity := by
    have front := rep.front
    have rear := rep.rear
    split_ifs at front <;> omega
  obtain ⟨lead, leadEq, leadVal⟩ := subU16_ok (show bcb.front.toNat ≤ bcb.bufferSize.toNat by omega)
  by_cases fits : n ≤ lead
  · rw [UInt16.le_iff_toNat_le] at fits
    obtain ⟨buffer, front, currentSize, copyEq, advanceEq, growEq, represents⟩ :=
      copied_once rep length room (.inr (by omega)) space
    refine ⟨_, ?_, represents⟩
    simp only [bcbWrite, notFull, Bool.false_eq_true, if_false, bcbAvailableSize, availableEq, if_neg enough,
      if_neg below, leadEq, if_pos (UInt16.le_iff_toNat_le.mpr fits), copyEq, advanceEq, growEq,
      bind, Except.bind, pure, Except.pure]
  · have crosses : lead.toNat < n.toNat := by rw [UInt16.le_iff_toNat_le] at fits; omega
    obtain ⟨rest, restEq, restVal⟩ := subU16_ok (show lead.toNat ≤ n.toNat by omega)
    obtain ⟨first, buffer, currentSize, firstEq, secondEq, growEq, represents⟩ :=
      copied_twice rep length room above space (size ▸ leadVal) crosses restVal
    refine ⟨_, ?_, represents⟩
    simp only [bcbWrite, notFull, Bool.false_eq_true, if_false, bcbAvailableSize, availableEq, if_neg enough,
      if_neg below, leadEq, if_neg fits, restEq, firstEq, secondEq, growEq, bind, Except.bind, pure, Except.pure]

/-- A block that does not fit is refused and the ring stays as it is. -/
theorem bcbWrite_rejects (rep : Represents bcb q) (length : data.length = n.toNat)
    (excess : ¬ data.length ≤ capacity - q.items.length) : bcbWrite bcb data n = .ok (0, bcb) := by
  have size := rep.size
  have current := rep.current
  have bound := q.bound
  by_cases full : bcbIsFull bcb = true
  · rw [bcbWrite, if_pos full]; rfl
  obtain ⟨available, availableEq, availableVal⟩ :=
    subU16_ok (show bcb.currentSize.toNat ≤ bcb.bufferSize.toNat by omega)
  have short : available < n := by rw [UInt16.lt_iff_toNat_lt]; omega
  rw [bcbWrite, if_neg full]
  simp only [bcbAvailableSize, availableEq, if_pos short, bind, Except.bind, pure, Except.pure]

end Write

section Read

variable {bcb : ByteCircularBuffer} {q : BoundedQueue UInt8 capacity} {buffer : Bytes} {n : UInt16}

private theorem represents_removed {rear currentSize : UInt16} (rep : Represents bcb q)
    (enough : n.toNat ≤ q.items.length)
    (rearVal : rear.toNat = if bcb.rear.toNat + n.toNat < capacity then bcb.rear.toNat + n.toNat
      else bcb.rear.toNat + n.toNat - capacity)
    (currentVal : currentSize.toNat = bcb.currentSize.toNat - n.toNat) :
    Represents { bcb with rear, currentSize } (q.read n.toNat true).2 := by
  obtain ⟨storage, size, current, rearBound, front, contents⟩ := id rep
  have bound := q.bound
  have items : (q.read n.toNat true).2.items = q.items.drop n.toNat := BoundedQueue.read_items enough true
  have shrunk : (q.read n.toNat true).2.items.length = q.items.length - n.toNat := by
    rw [items, List.length_drop]
  refine ⟨storage, size, ?_, ?_, ?_, ?_⟩
  · rw [shrunk]
    change currentSize.toNat = _
    omega
  · change rear.toNat ≤ _
    split_ifs at rearVal <;> omega
  · rw [shrunk]
    change bcb.front.toNat =
      if rear.toNat + (q.items.length - n.toNat) < capacity then rear.toNat + (q.items.length - n.toNat)
      else rear.toNat + (q.items.length - n.toNat) - capacity
    split_ifs at front rearVal ⊢ <;> omega
  · rw [shrunk, items]
    change window bcb.buffer rear.toNat _ = _
    by_cases inside : bcb.rear.toNat + n.toNat < capacity
    · rw [rearVal, if_pos inside, window_drop enough (by omega) (by omega), contents]
    · have wrapped : rear.toNat = bcb.rear.toNat + n.toNat - bcb.buffer.length := by
        rw [rearVal, if_neg inside, storage]
      rw [wrapped, window_drop_wrap enough (by omega) (by omega) (by omega), contents]

private theorem read_once (rep : Represents bcb q) (enough : n.toNat ≤ q.items.length)
    (fits : n.toNat ≤ buffer.length) (straight : bcb.rear.toNat + n.toNat ≤ capacity) :
    memcpy buffer 0 bcb.buffer bcb.rear.toNat n.toNat = .ok (splice buffer 0 (q.items.take n.toNat)) := by
  have storage := rep.storage
  rw [memcpy_ok (by omega) (by omega), ← window_straight (by omega), ← window_take enough, rep.contents]

private theorem read_twice {lead rest : UInt16} (rep : Represents bcb q)
    (enough : n.toNat ≤ q.items.length) (fits : n.toNat ≤ buffer.length)
    (leadVal : lead.toNat = capacity - bcb.rear.toNat) (crosses : lead.toNat < n.toNat)
    (restVal : rest.toNat = n.toNat - lead.toNat) :
    ∃ first, memcpy buffer 0 bcb.buffer bcb.rear.toNat lead.toNat = .ok first ∧
      memcpy first lead.toNat bcb.buffer 0 rest.toNat = .ok (splice buffer 0 (q.items.take n.toNat)) := by
  have storage := rep.storage
  have rear := rep.rear
  have bound := q.bound
  have head : ((bcb.buffer.drop bcb.rear.toNat).take lead.toNat).length = lead.toNat :=
    List.length_take_of_le (by rw [List.length_drop]; omega)
  have tail : (bcb.buffer.take rest.toNat).length = rest.toNat := List.length_take_of_le (by omega)
  have size : (splice buffer 0 ((bcb.buffer.drop bcb.rear.toNat).take lead.toNat)).length = buffer.length :=
    length_splice (by omega)
  have items : q.items.take n.toNat =
      (bcb.buffer.drop bcb.rear.toNat).take lead.toNat ++ bcb.buffer.take rest.toNat := by
    rw [← rep.contents, window_take enough, restVal]
    exact window_split (by omega) (by omega) (by omega)
  refine ⟨_, memcpy_ok (by omega) (by omega), ?_⟩
  rw [memcpy_ok (by omega) (by omega), List.drop_zero, items, ← splice_append (by omega), head, Nat.zero_add]

/-- The first bytes reach the caller's buffer, in one copy or in two, and leave the ring only if
they are to be removed. -/
theorem bcbRead_accepts (rep : Represents bcb q) (enough : n.toNat ≤ q.items.length)
    (fits : n.toNat ≤ buffer.length) (removeReadBytes : Bool) :
    ∃ next, bcbRead bcb buffer n removeReadBytes = .ok (n, splice buffer 0 (q.items.take n.toNat), next) ∧
      Represents next (q.read n.toNat removeReadBytes).2 ∧ (removeReadBytes = false → next = bcb) := by
  obtain ⟨storage, size, current, rear, front, contents⟩ := id rep
  have bound := q.bound
  have available : ¬ bcb.currentSize < n := by rw [UInt16.lt_iff_toNat_lt]; omega
  obtain ⟨shrunk, shrunkEq, shrunkVal⟩ := subU16_ok (show n.toNat ≤ bcb.currentSize.toNat by omega)
  have kept : Represents bcb (q.read n.toNat false).2 := rep.of_items (BoundedQueue.read_items enough false)
  by_cases straight : bcb.rear.toNat + n.toNat ≤ capacity
  · have copied := read_once rep enough fits straight
    obtain ⟨advanced, advanceEq, advanceVal⟩ :=
      bcbAdvance_ok (show bcb.rear.toNat + n.toNat ≤ bcb.bufferSize.toNat by omega)
    rw [size] at advanceVal
    have removed := represents_removed rep enough advanceVal shrunkVal
    obtain ⟨lead, leadEq, leadVal⟩ := subU16_ok (show bcb.rear.toNat ≤ bcb.bufferSize.toNat by omega)
    have within : n ≤ lead := by rw [UInt16.le_iff_toNat_le]; omega
    cases removeReadBytes with
    | false =>
      refine ⟨bcb, ?_, kept, fun _ => rfl⟩
      by_cases behind : bcb.rear < bcb.front <;>
        simp only [bcbRead, if_neg available, behind, if_true, if_false, leadEq, if_pos within, copied,
          Bool.false_eq_true, bind, Except.bind, pure, Except.pure]
    | true =>
      refine ⟨_, ?_, removed, fun kept => by contradiction⟩
      by_cases behind : bcb.rear < bcb.front <;>
        simp only [bcbRead, if_neg available, behind, if_true, if_false, leadEq, if_pos within, copied,
          advanceEq, shrunkEq, bind, Except.bind, pure, Except.pure]
  · have behind : ¬ bcb.rear < bcb.front := by
      rw [UInt16.lt_iff_toNat_lt]
      split_ifs at front <;> omega
    obtain ⟨lead, leadEq, leadVal⟩ := subU16_ok (show bcb.rear.toNat ≤ bcb.bufferSize.toNat by omega)
    rw [size] at leadVal
    have crosses : ¬ n ≤ lead := by rw [UInt16.le_iff_toNat_le]; omega
    obtain ⟨rest, restEq, restVal⟩ := subU16_ok (show lead.toNat ≤ n.toNat by omega)
    obtain ⟨first, firstEq, secondEq⟩ := read_twice rep enough fits leadVal (by omega) restVal
    have removed : Represents { bcb with rear := rest, currentSize := shrunk } (q.read n.toNat true).2 :=
      represents_removed rep enough (by rw [if_neg (by omega)]; omega) shrunkVal
    cases removeReadBytes with
    | false =>
      refine ⟨bcb, ?_, kept, fun _ => rfl⟩
      simp only [bcbRead, if_neg available, if_neg behind, leadEq, if_neg crosses, restEq, firstEq, secondEq,
        Bool.false_eq_true, if_false, bind, Except.bind, pure, Except.pure]
    | true =>
      refine ⟨_, ?_, removed, fun kept => by contradiction⟩
      simp only [bcbRead, if_neg available, if_neg behind, leadEq, if_neg crosses, restEq, firstEq, secondEq,
        if_true, shrunkEq, bind, Except.bind, pure, Except.pure]

/-- More bytes than the ring holds are refused; neither the ring nor the caller's buffer changes. -/
theorem bcbRead_rejects (rep : Represents bcb q) (short : ¬ n.toNat ≤ q.items.length)
    (removeReadBytes : Bool) : bcbRead bcb buffer n removeReadBytes = .ok (0, buffer, bcb) := by
  have current := rep.current
  have missing : bcb.currentSize < n := by rw [UInt16.lt_iff_toNat_lt]; omega
  rw [bcbRead, if_pos missing]
  rfl

/-- A read that is granted leads to trouble exactly when the caller's buffer is too small for it. -/
theorem bcbRead_overflows (rep : Represents bcb q) (enough : n.toNat ≤ q.items.length)
    (excess : buffer.length < n.toNat) (removeReadBytes : Bool) :
    bcbRead bcb buffer n removeReadBytes = .error .outOfBounds := by
  obtain ⟨storage, size, current, rear, front, contents⟩ := id rep
  have bound := q.bound
  have available : ¬ bcb.currentSize < n := by rw [UInt16.lt_iff_toNat_lt]; omega
  have once : memcpy buffer 0 bcb.buffer bcb.rear.toNat n.toNat = .error .outOfBounds :=
    memcpy_overflows (by omega)
  obtain ⟨lead, leadEq, leadVal⟩ := subU16_ok (show bcb.rear.toNat ≤ bcb.bufferSize.toNat by omega)
  by_cases straight : bcb.rear < bcb.front ∨ n ≤ lead
  · by_cases behind : bcb.rear < bcb.front
    · simp only [bcbRead, if_neg available, if_pos behind, once, bind, Except.bind]
    · simp only [bcbRead, if_neg available, if_neg behind, leadEq, if_pos (straight.resolve_left behind), once,
        bind, Except.bind]
  obtain ⟨behind, crosses⟩ := not_or.mp straight
  have longer : lead.toNat < n.toNat := by rw [UInt16.le_iff_toNat_le] at crosses; omega
  obtain ⟨rest, restEq, restVal⟩ := subU16_ok (show lead.toNat ≤ n.toNat by omega)
  by_cases head : lead.toNat ≤ buffer.length
  · -- the first copy still fits, so it is the second one that leaves the caller's buffer
    have firstEq := memcpy_ok (show 0 + lead.toNat ≤ buffer.length by omega)
      (show bcb.rear.toNat + lead.toNat ≤ bcb.buffer.length by omega)
    have piece : ((bcb.buffer.drop bcb.rear.toNat).take lead.toNat).length = lead.toNat :=
      List.length_take_of_le (by rw [List.length_drop]; omega)
    have copied : (splice buffer 0 ((bcb.buffer.drop bcb.rear.toNat).take lead.toNat)).length = buffer.length :=
      length_splice (by omega)
    have secondEq : memcpy (splice buffer 0 ((bcb.buffer.drop bcb.rear.toNat).take lead.toNat)) lead.toNat
        bcb.buffer 0 rest.toNat = .error .outOfBounds := memcpy_overflows (by omega)
    simp only [bcbRead, if_neg available, if_neg behind, leadEq, if_neg crosses, restEq, firstEq, secondEq,
      bind, Except.bind]
  · have firstEq : memcpy buffer 0 bcb.buffer bcb.rear.toNat lead.toNat = .error .outOfBounds :=
      memcpy_overflows (by omega)
    simp only [bcbRead, if_neg available, if_neg behind, leadEq, if_neg crosses, restEq, firstEq,
      bind, Except.bind]

end Read

/-- A call on a ring. What is written has a `uint16_t` length, and the buffer a caller passes to
`BCBRead` has room for the bytes it asks for. -/
inductive BcbCall where
  | write (data : Bytes) (short : data.length < 2 ^ 16)
  | read (buffer : Bytes) (n : UInt16) (fits : n.toNat ≤ buffer.length) (removeReadBytes : Bool)
  | reset

namespace BcbCall

/-- The returned value and the caller's buffer after the call. -/
abbrev Result := UInt16 × Bytes

def run (bcb : ByteCircularBuffer) : BcbCall → Except Trap (Result × ByteCircularBuffer)
  | write data _ => do
    let (written, next) ← bcbWrite bcb data (UInt16.ofNat data.length)
    return ((written, []), next)
  | read buffer n _ removeReadBytes => do
    let (count, bytes, next) ← bcbRead bcb buffer n removeReadBytes
    return ((count, bytes), next)
  | reset => return ((0, []), bcbReset bcb)

/-- The same call on a queue: a granted read returns the count and the bytes in front of the rest
of the caller's buffer. -/
def expect (q : BoundedQueue UInt8 capacity) : BcbCall → Result × BoundedQueue UInt8 capacity
  | write data _ => ((UInt16.ofNat (q.write data).1, []), (q.write data).2)
  | read buffer n _ removeReadBytes =>
    match q.read n.toNat removeReadBytes with
    | (some bytes, next) => ((n, bytes ++ buffer.drop n.toNat), next)
    | (none, next) => ((0, buffer), next)
  | reset => ((0, []), .empty)

theorem run_ok {bcb : ByteCircularBuffer} {q : BoundedQueue UInt8 capacity} (rep : Represents bcb q)
    (call : BcbCall) :
    ∃ next, call.run bcb = .ok ((call.expect q).1, next) ∧ Represents next (call.expect q).2 := by
  cases call with
  | write data short =>
    have length : data.length = (UInt16.ofNat data.length).toNat := (UInt16.toNat_ofNat_of_lt' short).symm
    by_cases room : data.length ≤ capacity - q.items.length
    · obtain ⟨next, written, represents⟩ := bcbWrite_accepts rep length room
      refine ⟨next, ?_, represents⟩
      simp only [run, written, expect, BoundedQueue.write, dif_pos room, bind, Except.bind, pure, Except.pure]
    · refine ⟨bcb, ?_, ?_⟩
      · simp only [run, bcbWrite_rejects rep length room, expect, BoundedQueue.write_rejects room, bind,
          Except.bind, pure, Except.pure]
        rfl
      · simpa only [expect, BoundedQueue.write_rejects room] using rep
  | read buffer n fits removeReadBytes =>
    by_cases enough : n.toNat ≤ q.items.length
    · obtain ⟨next, granted, represents, _⟩ := bcbRead_accepts rep enough fits removeReadBytes
      have expected : (read buffer n fits removeReadBytes).expect q =
          ((n, q.items.take n.toNat ++ buffer.drop n.toNat), (q.read n.toNat removeReadBytes).2) := by
        simp only [expect, BoundedQueue.read, if_pos enough]
      have taken : (q.items.take n.toNat).length = n.toNat := List.length_take_of_le enough
      refine ⟨next, ?_, by rw [expected]; exact represents⟩
      simp only [expected, run, granted, splice, taken, List.take_zero, List.nil_append, Nat.zero_add, bind,
        Except.bind, pure, Except.pure]
    · refine ⟨bcb, ?_, ?_⟩
      · simp only [run, bcbRead_rejects rep enough, expect, BoundedQueue.read_rejects enough, bind, Except.bind,
          pure, Except.pure]
      · simpa only [expect, BoundedQueue.read_rejects enough] using rep
  | reset => exact ⟨_, rfl, bcbReset_represents rep⟩

/-- The calls of a history, one after another, with their results. -/
def runAll (bcb : ByteCircularBuffer) : List BcbCall → Except Trap (List Result × ByteCircularBuffer)
  | [] => return ([], bcb)
  | call :: rest => do
    let (result, middle) ← call.run bcb
    let (results, last) ← runAll middle rest
    return (result :: results, last)

def expectAll (q : BoundedQueue UInt8 capacity) :
    List BcbCall → List Result × BoundedQueue UInt8 capacity
  | [] => ([], q)
  | call :: rest =>
    ((call.expect q).1 :: (expectAll (call.expect q).2 rest).1, (expectAll (call.expect q).2 rest).2)

theorem runAll_ok {bcb : ByteCircularBuffer} {q : BoundedQueue UInt8 capacity} (rep : Represents bcb q)
    (calls : List BcbCall) :
    ∃ last, runAll bcb calls = .ok ((expectAll q calls).1, last) ∧ Represents last (expectAll q calls).2 := by
  induction calls generalizing bcb q with
  | nil => exact ⟨bcb, rfl, rep⟩
  | cons call rest ih =>
    obtain ⟨middle, step, represents⟩ := run_ok rep call
    obtain ⟨last, suffix, final⟩ := ih represents
    exact ⟨last, by simp only [runAll, step, suffix, bind, Except.bind]; rfl, final⟩

end BcbCall

/-- Every history of calls on a fresh ring returns what the bounded queue returns and meets no
trap. The ring it ends in holds the bytes of the queue, its counters agree with them, and it
refuses, unchanged, exactly the blocks that are too long for the free or the occupied part. -/
theorem bcb_history (size : UInt16) (calls : List BcbCall) :
    ∃ bcb, BcbCall.runAll (bcbCreateNew size) calls =
        .ok ((BcbCall.expectAll (.empty : BoundedQueue UInt8 size.toNat) calls).1, bcb) ∧
      let q := (BcbCall.expectAll (.empty : BoundedQueue UInt8 size.toNat) calls).2
      window bcb.buffer bcb.rear.toNat bcb.currentSize.toNat = q.items ∧
      bcb.currentSize.toNat = q.items.length ∧
      (0 < size → bcb.front.toNat = (bcb.rear.toNat + bcb.currentSize.toNat) % size.toNat) ∧
      (∀ (data : Bytes) (n : UInt16), data.length = n.toNat → size.toNat - q.items.length < n.toNat →
        bcbWrite bcb data n = .ok (0, bcb)) ∧
      (∀ (buffer : Bytes) (n : UInt16) (removeReadBytes : Bool), q.items.length < n.toNat →
        bcbRead bcb buffer n removeReadBytes = .ok (0, buffer, bcb)) := by
  obtain ⟨bcb, ran, rep⟩ := BcbCall.runAll_ok (bcbCreateNew_represents size) calls
  refine ⟨bcb, ran, ?_, rep.current, rep.front_mod, ?_, ?_⟩
  · rw [rep.current, rep.contents]
  · intro data n length excess
    exact bcbWrite_rejects rep length (by omega)
  · intro buffer n removeReadBytes excess
    exact bcbRead_rejects rep (by omega) removeReadBytes

end TcpServerLib.Refinement
