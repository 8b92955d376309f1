import TcpServerLib.Model.CourseByteCircularBuffer
import TcpServerLib.Refinement.ByteCircularBuffer

/-! # The ring of the course beside the ring

The copies differ in reads that cross the end of the storage. There the ring of the course lays the
second block over the first, so that the caller gets the bytes it asked for only where they repeat
themselves and the caller's buffer holds the last of them already.
-/

namespace TcpServerLib.Soundness

open Machine Model Refinement

namespace CourseRing

/-- The calls on the ring of the course. -/
def run (bcb : ByteCircularBuffer) : BcbCall → Except Trap (BcbCall.Result × ByteCircularBuffer)
  | .write data _ => do
    let (written, next) ← Course.bcbWrite bcb data (UInt16.ofNat data.length)
    return ((written, []), next)
  | .read buffer n _ removeReadBytes => do
    let (count, bytes, next) ← Course.bcbRead bcb buffer n removeReadBytes
    return ((count, bytes), next)
  | .reset => return ((0, []), Course.bcbReset bcb)

def runAll (bcb : ByteCircularBuffer) : List BcbCall → Except Trap (List BcbCall.Result × ByteCircularBuffer)
  | [] => return ([], bcb)
  | call :: rest => do
    let (result, middle) ← run bcb call
    let (results, last) ← runAll middle rest
    return (result :: results, last)

/-- After any number of the calls both rings have returned the same values and bytes, and are in the
same state. -/
def SameSoFar (size : UInt16) (calls : List BcbCall) : Prop :=
  ∀ k, runAll (Course.bcbCreateNew size) (calls.take k) = BcbCall.runAll (bcbCreateNew size) (calls.take k)

/-- The read is granted, and its bytes lie at both ends of the storage. -/
def CrossesEnd (bcb : ByteCircularBuffer) (n : UInt16) : Prop :=
  n ≤ bcb.currentSize ∧ ¬ bcb.rear < bcb.front ∧ bcb.bufferSize.toNat < bcb.rear.toNat + n.toNat

/-- What is `lead` bytes further on is the same, and the caller's buffer ends as the wanted bytes do. -/
def Coincide (wanted buffer : Bytes) (lead : ℕ) : Prop :=
  wanted.take (wanted.length - lead) = wanted.drop lead ∧
    (buffer.take wanted.length).drop (max lead (wanted.length - lead)) =
      wanted.drop (max lead (wanted.length - lead))

/-- The call is no read across the end, or one of bytes that come out right all the same. -/
def Unharmed (bcb : ByteCircularBuffer) : BcbCall → Prop
  | .read buffer n _ _ => CrossesEnd bcb n →
      Coincide (window bcb.buffer bcb.rear.toNat n.toNat) buffer (bcb.bufferSize.toNat - bcb.rear.toNat)
  | .write .. | .reset => True

/-- Every call of a history is, in the state it is made in. -/
def NoneHarmed (bcb : ByteCircularBuffer) : List BcbCall → Prop
  | [] => True
  | call :: rest => Unharmed bcb call ∧ ∀ result next, call.run bcb = .ok (result, next) →
      NoneHarmed next rest

variable {capacity : ℕ} {bcb next : ByteCircularBuffer} {q : BoundedQueue UInt8 capacity}
  {buffer : Bytes} {n : UInt16} {call : BcbCall} {result : BcbCall.Result}

theorem splice_zero {store data : Bytes} : splice store 0 data = data ++ store.drop data.length := by
  rw [splice, List.take_zero, List.nil_append, Nat.zero_add]

/-- A store from `m` on, up to `n` and from there. -/
theorem drop_split {store : Bytes} {m n : ℕ} (order : m ≤ n) (room : n ≤ store.length) :
    store.drop m = (store.take n).drop m ++ store.drop n := by
  have front : m ≤ (store.take n).length := by rwa [List.length_take_of_le room]
  rw [← List.drop_append_of_le_length front, List.take_append_drop]

theorem overlay_iff {first second : Bytes} (room : first.length + second.length ≤ buffer.length) :
    splice (splice buffer 0 first) 0 second = splice (splice buffer 0 first) first.length second ↔
      Coincide (first ++ second) buffer first.length := by
  have beside : splice (splice buffer 0 first) first.length second =
      first ++ second ++ buffer.drop (first.length + second.length) := by
    have joined := @splice_append UInt8 buffer first second 0 (by omega)
    rw [Nat.zero_add] at joined
    rw [joined, splice_zero, List.length_append]
  have front : second.length ≤ (first ++ second).length := by rw [List.length_append]; omega
  have overlaid : splice (splice buffer 0 first) 0 second =
      second ++ (first ++ buffer.drop first.length).drop second.length := by
    rw [splice_zero, splice_zero]
  have parts : first ++ second ++ buffer.drop (first.length + second.length) =
      (first ++ second).take second.length ++
        ((first ++ second).drop second.length ++ buffer.drop (first.length + second.length)) := by
    rw [← List.append_assoc, List.take_append_drop]
  have length : (first ++ second).length - first.length = second.length := by rw [List.length_append]; omega
  have cut : second.length = ((first ++ second).take second.length).length := (List.length_take_of_le front).symm
  have blocks {rest rest' : Bytes} : second ++ rest = (first ++ second).take second.length ++ rest' ↔
      second = (first ++ second).take second.length ∧ rest = rest' :=
    ⟨(List.append_inj · cut), fun both => by rw [← both.1, both.2]⟩
  rw [overlaid, beside, parts, blocks, Coincide, length, List.drop_left, eq_comm (a := second)]
  refine and_congr_right fun _ => ?_
  rw [List.length_append]
  rcases Nat.le_total second.length first.length with shorter | longer
  · rw [Nat.max_eq_left shorter, List.drop_append_of_le_length shorter,
      List.drop_append_of_le_length shorter, List.append_assoc,
      List.append_right_inj, drop_split (Nat.le_add_right ..) room, List.append_left_inj, List.drop_left]
  · rw [Nat.max_eq_right longer, List.drop_append, List.drop_eq_nil_of_le longer, List.nil_append,
      List.drop_drop,
      Nat.add_sub_cancel' longer, drop_split (Nat.le_add_left ..) room, List.append_left_inj]

theorem course_straight (straight : ¬ CrossesEnd bcb n) (removeReadBytes : Bool) :
    Course.bcbRead bcb buffer n removeReadBytes = bcbRead bcb buffer n removeReadBytes := by
  rw [Course.bcbRead, bcbRead]
  by_cases refused : bcb.currentSize < n
  · rw [if_pos refused, if_pos refused]
  · rw [if_neg refused, if_neg refused]
    by_cases behind : bcb.rear < bcb.front
    · rw [if_pos behind, if_pos behind]
    · have inside : bcb.rear.toNat + n.toNat ≤ bcb.bufferSize.toNat := by
        by_contra outside
        exact straight ⟨UInt16.not_lt.mp refused, behind, by omega⟩
      obtain ⟨lead, leadEq, leadVal⟩ := subU16_ok (show bcb.rear.toNat ≤ bcb.bufferSize.toNat by omega)
      have within : n ≤ lead := by rw [UInt16.le_iff_toNat_le]; omega
      simp only [if_neg behind, leadEq, if_pos within, bind, Except.bind]

/-- Across the end both rings move on alike; the bytes are the same exactly where the overlay does no harm. -/
theorem course_crosses (rep : Represents bcb q) (fits : n.toNat ≤ buffer.length)
    (crosses : CrossesEnd bcb n) (removeReadBytes : Bool) :
    ∃ bytes bytes' next, bcbRead bcb buffer n removeReadBytes = .ok (n, bytes, next) ∧
      Course.bcbRead bcb buffer n removeReadBytes = .ok (n, bytes', next) ∧
      (bytes' = bytes ↔ Coincide (window bcb.buffer bcb.rear.toNat n.toNat) buffer
        (bcb.bufferSize.toNat - bcb.rear.toNat)) := by
  obtain ⟨granted, behind, across⟩ := crosses
  obtain ⟨storage, size, current, rear, front, contents⟩ := id rep
  have bound := q.bound
  rw [UInt16.le_iff_toNat_le] at granted
  have available : ¬ bcb.currentSize < n := by rw [UInt16.lt_iff_toNat_lt]; omega
  obtain ⟨lead, leadEq, leadVal⟩ := subU16_ok (show bcb.rear.toNat ≤ bcb.bufferSize.toNat by omega)
  have longer : ¬ n ≤ lead := by rw [UInt16.le_iff_toNat_le]; omega
  obtain ⟨rest, restEq, restVal⟩ := subU16_ok (show lead.toNat ≤ n.toNat by omega)
  obtain ⟨shrunk, shrunkEq, _⟩ := subU16_ok (show n.toNat ≤ bcb.currentSize.toNat by omega)
  have firstLength : ((bcb.buffer.drop bcb.rear.toNat).take lead.toNat).length = lead.toNat :=
    List.length_take_of_le (by rw [List.length_drop]; omega)
  have secondLength : (bcb.buffer.take rest.toNat).length = rest.toNat := List.length_take_of_le (by omega)
  have copied : (splice buffer 0 ((bcb.buffer.drop bcb.rear.toNat).take lead.toNat)).length = buffer.length :=
    length_splice (by omega)
  have firstEq := memcpy_ok (show 0 + lead.toNat ≤ buffer.length by omega)
    (show bcb.rear.toNat + lead.toNat ≤ bcb.buffer.length by omega)
  have besideEq : memcpy (splice buffer 0 ((bcb.buffer.drop bcb.rear.toNat).take lead.toNat))
      lead.toNat bcb.buffer 0
      rest.toNat = _ := memcpy_ok (by omega) (by omega)
  have overEq : memcpy (splice buffer 0 ((bcb.buffer.drop bcb.rear.toNat).take lead.toNat)) 0
      bcb.buffer 0 rest.toNat = _ :=
    memcpy_ok (by omega) (by omega)
  have wanted : window bcb.buffer bcb.rear.toNat n.toNat =
      (bcb.buffer.drop bcb.rear.toNat).take lead.toNat ++ bcb.buffer.take rest.toNat := by
    rw [restVal]
    exact window_split (by omega) (by omega) (by omega)
  rw [List.drop_zero] at besideEq overEq
  have coincide := @overlay_iff buffer ((bcb.buffer.drop bcb.rear.toNat).take lead.toNat)
      (bcb.buffer.take rest.toNat) (by omega)
  rw [firstLength, ← wanted] at coincide
  refine ⟨_, _, if removeReadBytes then { bcb with rear := rest, currentSize := shrunk } else bcb, ?_, ?_,
    by rw [← leadVal]; exact coincide⟩
  · cases removeReadBytes <;>
      simp only [bcbRead, if_neg available, if_neg behind, leadEq, if_neg longer, restEq, firstEq,
        besideEq, shrunkEq,
        Bool.false_eq_true, if_true, if_false, bind, Except.bind, pure, Except.pure]
  · cases removeReadBytes <;>
      simp only [Course.bcbRead, if_neg available, if_neg behind, leadEq, if_neg longer, restEq,
        firstEq, overEq, shrunkEq,
        Bool.false_eq_true, if_true, if_false, bind, Except.bind, pure, Except.pure]

/-- Without a read across the end nothing is harmed. -/
theorem Unharmed.of_straight {removeReadBytes : Bool} {fits : n.toNat ≤ buffer.length}
    (straight : ¬ CrossesEnd bcb n) :
    Unharmed bcb (.read buffer n fits removeReadBytes) :=
  fun crosses => absurd crosses straight

theorem run_course (rep : Represents bcb q) (call : BcbCall) : ∃ result result' next,
    call.run bcb = .ok (result, next) ∧ run bcb call = .ok (result', next) ∧
    (result' = result ↔ Unharmed bcb call) := by
  cases call with
  | write data short =>
    obtain ⟨next, ran, _⟩ := BcbCall.run_ok rep (.write data short)
    exact ⟨_, _, next, ran, ran, iff_of_true rfl trivial⟩
  | read buffer n fits removeReadBytes =>
    by_cases crosses : CrossesEnd bcb n
    · obtain ⟨bytes, bytes', next, ran, ran', same⟩ := course_crosses rep fits crosses removeReadBytes
      refine ⟨(n, bytes), (n, bytes'), next, ?_, ?_, ?_⟩
      · rw [BcbCall.run, ran]
        rfl
      · rw [run, ran']
        rfl
      · rw [Prod.mk.injEq, and_iff_right rfl, same, Unharmed]
        exact ⟨fun coincide _ => coincide, fun coincide => coincide crosses⟩
    · obtain ⟨next, ran, _⟩ := BcbCall.run_ok rep (.read buffer n fits removeReadBytes)
      refine ⟨_, _, next, ran, ?_, iff_of_true rfl (.of_straight crosses)⟩
      rw [← ran, run, course_straight crosses, BcbCall.run]
  | reset => exact ⟨_, _, _, rfl, rfl, iff_of_true rfl trivial⟩

/-- Both rings return from every history, in the same state. -/
theorem runAll_course (rep : Represents bcb q) (calls : List BcbCall) : ∃ results results' last,
    BcbCall.runAll bcb calls = .ok (results, last) ∧ runAll bcb calls = .ok (results', last) := by
  induction calls generalizing bcb q with
  | nil => exact ⟨[], [], bcb, rfl, rfl⟩
  | cons call rest ih =>
    obtain ⟨result, result', middle, ran, ran', _⟩ := run_course rep call
    obtain ⟨next, ok, represents⟩ := BcbCall.run_ok rep call
    obtain rfl : middle = next := (Prod.mk.inj (Except.ok.inj (ran.symm.trans ok))).2
    obtain ⟨results, results', last, suffix, suffix'⟩ := ih represents
    refine ⟨result :: results, result' :: results', last, ?_, ?_⟩
    · simp only [BcbCall.runAll, ran, suffix, bind, Except.bind, pure, Except.pure]
    · simp only [runAll, ran', suffix', bind, Except.bind, pure, Except.pure]

theorem same_iff (rep : Represents bcb q) (calls : List BcbCall) :
    (∀ k, runAll bcb (calls.take k) = BcbCall.runAll bcb (calls.take k)) ↔ NoneHarmed bcb calls := by
  induction calls generalizing bcb q with
  | nil => simp [runAll, BcbCall.runAll, NoneHarmed]
  | cons call rest ih =>
    obtain ⟨result, result', middle, ran, ran', same⟩ := run_course rep call
    obtain ⟨next, ok, represents⟩ := BcbCall.run_ok rep call
    obtain rfl : middle = next := (Prod.mk.inj (Except.ok.inj (ran.symm.trans ok))).2
    have first (calls : List BcbCall) : runAll bcb (call :: calls) = BcbCall.runAll bcb (call :: calls) ↔
        result' = result ∧ runAll middle calls = BcbCall.runAll middle calls := by
      obtain ⟨results, results', last, suffix, suffix'⟩ := runAll_course represents calls
      simp only [runAll, BcbCall.runAll, ran, ran', suffix, suffix', bind, Except.bind, pure,
        Except.pure, Except.ok.injEq, Prod.mk.injEq, List.cons.injEq, and_true]
    have harmed : NoneHarmed bcb (call :: rest) ↔ Unharmed bcb call ∧ NoneHarmed middle rest := by
      rw [NoneHarmed, ran]
      refine and_congr_right fun _ => ⟨fun follows => follows result middle rfl, ?_⟩
      rintro follows _ _ ⟨⟩
      exact follows
    rw [harmed, ← same, ← ih represents]
    constructor
    · intro all
      exact ⟨((first []).mp (all 1)).1, fun k => ((first (rest.take k)).mp (all (k + 1))).2⟩
    · rintro ⟨once, later⟩ (_ | k)
      · rfl
      · exact (first (rest.take k)).mpr ⟨once, later k⟩

end CourseRing

open CourseRing

/-- The course copy is the same ring exactly in the histories whose reads across the end of the
storage come out right. -/
theorem sameRing_iff (size : UInt16) (calls : List BcbCall) :
    SameSoFar size calls ↔ NoneHarmed (bcbCreateNew size) calls :=
  same_iff (bcbCreateNew_represents size) calls

/-- Three bytes of a ring of three, the first of them in the last cell. -/
theorem crossing_differs : ¬ SameSoFar 3 [.write [1, 2, 3] (by decide), .read [0, 0] 2 (by decide) true,
    .write [4, 5] (by decide), .read [0, 0, 0] 3 (by decide) true] := by
  intro same
  exact absurd (same 4) (by decide)

end TcpServerLib.Soundness
