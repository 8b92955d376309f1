import Mathlib.Data.List.Basic
import Mathlib.Tactic.SplitIfs

/-! # Bounded queues and their circular storage

A bounded queue accepts a block of items only as a whole, and hands out a block only as a whole.
Its usual storage is a fixed list of cells in which the queue occupies a window that may run over
the end and continue at the first cell. The window lemmas say which single copies into the cells
append to the window, and how the window changes when its start moves past the items taken out.
-/

namespace TcpServerLib.Machine

variable {α : Type*}

/-- A queue that can never hold more than its capacity. -/
structure BoundedQueue (α : Type*) (capacity : ℕ) where
  items : List α
  bound : items.length ≤ capacity

namespace BoundedQueue

variable {capacity : ℕ}

def empty : BoundedQueue α capacity := ⟨[], Nat.zero_le _⟩

/-- All of the data enters the queue, or none of it; the result is the number of items taken. -/
def write (q : BoundedQueue α capacity) (data : List α) : ℕ × BoundedQueue α capacity :=
  if room : data.length ≤ capacity - q.items.length then
    (data.length, ⟨q.items ++ data, by have := q.bound; simp only [List.length_append]; omega⟩)
  else (0, q)

theorem write_items {q : BoundedQueue α capacity} {data : List α}
    (room : data.length ≤ capacity - q.items.length) : (q.write data).2.items = q.items ++ data := by
  rw [write, dif_pos room]

theorem write_rejects {q : BoundedQueue α capacity} {data : List α}
    (excess : ¬ data.length ≤ capacity - q.items.length) : q.write data = (0, q) := dif_neg excess

/-- The first `n` items, which stay in the queue unless they are to be removed. -/
def read (q : BoundedQueue α capacity) (n : ℕ) (remove : Bool) :
    Option (List α) × BoundedQueue α capacity :=
  if n ≤ q.items.length then
    (some (q.items.take n),
      if remove then ⟨q.items.drop n, by have := q.bound; simp only [List.length_drop]; omega⟩ else q)
  else (none, q)

theorem read_items {q : BoundedQueue α capacity} {n : ℕ} (enough : n ≤ q.items.length) (remove : Bool) :
    (q.read n remove).2.items = if remove then q.items.drop n else q.items := by
  rw [read, if_pos enough]
  cases remove <;> rfl

theorem read_rejects {q : BoundedQueue α capacity} {n : ℕ} (short : ¬ n ≤ q.items.length)
    (remove : Bool) : q.read n remove = (none, q) := if_neg short

end BoundedQueue

/-- The `count` items stored from `start` on, continuing at the first cell behind the last one. -/
def window (store : List α) (start count : ℕ) : List α :=
  (store.drop start ++ store.take start).take count

/-- The storage after a block has been copied over its cells from `index` on. -/
def splice (store : List α) (index : ℕ) (data : List α) : List α :=
  store.take index ++ data ++ store.drop (index + data.length)

theorem getElem?_window {store : List α} {start : ℕ} (bound : start ≤ store.length) (count i : ℕ) :
    (window store start count)[i]? =
      if i < count then
        if start + i < store.length then store[start + i]?
        else if i < store.length then store[start + i - store.length]? else none
      else none := by
  simp only [window, List.getElem?_take, List.getElem?_append, List.length_drop, List.getElem?_drop]
  split_ifs <;> first | rfl | omega | (congr 1; omega)

theorem getElem?_splice {store data : List α} {index : ℕ}
    (room : index + data.length ≤ store.length) (i : ℕ) :
    (splice store index data)[i]? =
      if index ≤ i ∧ i < index + data.length then data[i - index]? else store[i]? := by
  simp only [splice, List.getElem?_append, List.length_append, List.length_take, List.getElem?_take,
    List.getElem?_drop]
  split_ifs <;> first | rfl | omega | (congr 1; omega)

theorem length_splice {store data : List α} {index : ℕ}
    (room : index + data.length ≤ store.length) : (splice store index data).length = store.length := by
  simp only [splice, List.length_append, List.length_take, List.length_drop]
  omega

theorem length_window {store : List α} {start count : ℕ} (bound : start ≤ store.length)
    (fits : count ≤ store.length) : (window store start count).length = count := by
  simp only [window, List.length_take, List.length_append, List.length_drop]
  omega

theorem take_splice_zero (store data : List α) : (splice store 0 data).take data.length = data := by
  rw [splice, List.take_zero, List.nil_append, List.take_left]

/-- Two copies one behind the other are one copy. -/
theorem splice_append {store first second : List α} {index : ℕ}
    (room : index + first.length + second.length ≤ store.length) :
    splice (splice store index first) (index + first.length) second = splice store index (first ++ second) := by
  have size : (splice store index first).length = store.length := length_splice (by omega)
  apply List.ext_getElem?
  intro i
  rw [getElem?_splice (by omega), getElem?_splice (by omega), getElem?_splice (by
    rw [List.length_append]; omega), List.getElem?_append, List.length_append]
  split_ifs <;> first | rfl | omega | (congr 1; omega)

@[simp] theorem window_zero (store : List α) (start : ℕ) : window store start 0 = [] := List.take_zero

theorem window_take {store : List α} {start count n : ℕ} (within : n ≤ count) :
    (window store start count).take n = window store start n := by
  rw [window, List.take_take, Nat.min_eq_left within, window]

/-- A window that stays in front of the end is an ordinary block of cells. -/
theorem window_straight {store : List α} {start count : ℕ} (bound : start + count ≤ store.length) :
    window store start count = (store.drop start).take count := by
  rw [window, List.take_append_of_le_length (by rw [List.length_drop]; omega)]

/-- A window that runs over the end is the rest of the cells followed by the first ones. -/
theorem window_split {store : List α} {start count lead : ℕ} (edge : start + lead = store.length)
    (crosses : lead ≤ count) (fits : count ≤ store.length) :
    window store start count = (store.drop start).take lead ++ store.take (count - lead) := by
  have tail : (store.drop start).length = lead := by rw [List.length_drop]; omega
  rw [window, List.take_append, tail, List.take_of_length_le (by omega), ← tail, List.take_length,
    List.take_take, Nat.min_eq_left (by omega)]

/-- Copying behind the window, in front of the end, appends to it. -/
theorem window_splice_front {store data : List α} {start count : ℕ}
    (room : start + count + data.length ≤ store.length) :
    window (splice store (start + count) data) start (count + data.length) =
      window store start count ++ data := by
  have size := length_splice room
  apply List.ext_getElem?
  intro i
  rw [getElem?_window (by omega), List.getElem?_append, getElem?_window (by omega), size,
    getElem?_splice room, length_window (by omega) (by omega)]
  split_ifs <;> first | rfl | omega | (congr 1; omega) | (symm; apply List.getElem?_eq_none; omega)

/-- Copying behind a window that has already run over the end appends to it. -/
theorem window_splice_below {store data : List α} {start count : ℕ}
    (wrapped : store.length ≤ start + count) (bound : start ≤ store.length)
    (room : count + data.length ≤ store.length) :
    window (splice store (start + count - store.length) data) start (count + data.length) =
      window store start count ++ data := by
  have inside : start + count - store.length + data.length ≤ store.length := by omega
  have size := length_splice inside
  apply List.ext_getElem?
  intro i
  rw [getElem?_window (by omega), List.getElem?_append, getElem?_window (by omega), size,
    length_window (by omega) (by omega)]
  simp only [getElem?_splice inside]
  split_ifs <;> first | rfl | omega | (congr 1; omega) | (symm; apply List.getElem?_eq_none; omega)

/-- A block that does not fit in front of the end is copied in two pieces. -/
theorem window_splice_split {store data : List α} {start count lead : ℕ}
    (edge : start + count + lead = store.length) (room : count + data.length ≤ store.length)
    (crosses : lead ≤ data.length) :
    window (splice (splice store (start + count) (data.take lead)) 0 (data.drop lead)) start
        (count + data.length) = window store start count ++ data := by
  have parts : window store start count ++ data =
      (window store start count ++ data.take lead) ++ data.drop lead := by
    rw [List.append_assoc, List.take_append_drop]
  have first : (data.take lead).length = lead := List.length_take_of_le crosses
  have size : (splice store (start + count) (data.take lead)).length = store.length :=
    length_splice (by omega)
  have rest : (data.drop lead).length = data.length - lead := List.length_drop
  have total : count + data.length = count + lead + (data.drop lead).length := by omega
  have origin : 0 = start + (count + lead) - (splice store (start + count) (data.take lead)).length := by
    omega
  rw [parts, ← window_splice_front (by omega), first, total, origin]
  exact window_splice_below (by omega) (by omega) (by omega)

/-- Taking items out moves the start of the window. -/
theorem window_drop {store : List α} {start count n : ℕ} (within : n ≤ count)
    (fits : count ≤ store.length) (bound : start + n ≤ store.length) :
    window store (start + n) (count - n) = (window store start count).drop n := by
  apply List.ext_getElem?
  intro i
  rw [List.getElem?_drop, getElem?_window (by omega), getElem?_window (by omega)]
  split_ifs <;> first | rfl | omega | (congr 1; omega)

/-- Taking items out past the end moves the start of the window back to the first cells. -/
theorem window_drop_wrap {store : List α} {start count n : ℕ} (within : n ≤ count)
    (fits : count ≤ store.length) (bound : start ≤ store.length) (past : store.length ≤ start + n) :
    window store (start + n - store.length) (count - n) = (window store start count).drop n := by
  apply List.ext_getElem?
  intro i
  rw [List.getElem?_drop, getElem?_window (by omega), getElem?_window (by omega)]
  split_ifs <;> first | rfl | omega | (congr 1; omega)

end TcpServerLib.Machine
