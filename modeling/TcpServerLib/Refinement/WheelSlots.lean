import TcpServerLib.Model.WheelTimer

/-! # The slots of the wheel

An element in a slot list stands for one absolute slot number, that of the slot and of the cycle the
element is to be executed in. The operations on the wheel keep every element in the slot it says it is
in, and every slot in the order of the cycles, and change what one element stands for.
-/

namespace TcpServerLib.Refinement

open Model

namespace WheelTimer

open Model.WheelTimer

/-- The cycle and the slot that an element names. -/
def placeOf (wt : WheelTimer) (e : WheelTimerElemRef) : Option (ℕ × ℕ) :=
  (wt.elems e).map fun elem => (elem.executeCycleNo, elem.slotNo)

/-- The absolute slot number that an element of a slot list is due at. -/
def dueOf (wt : WheelTimer) (e : WheelTimerElemRef) : Option ℕ :=
  (placeOf wt e).bind fun place => if e ∈ wt.slotlist place.2 then some
    (place.1 * wt.wheelSize + place.2) else none

/-- Elements are where they say they are, and the slots are in the order of the cycles. -/
structure Tidy (wt : WheelTimer) : Prop where
  positive : 0 < wt.wheelSize
  linked : ∀ {slot e}, e ∈ wt.slotlist slot → slot < wt.wheelSize ∧ ∃ cycle, placeOf wt e =
    some (cycle, slot)
  nodup : ∀ slot, (wt.slotlist slot).Nodup
  sorted : ∀ slot, (wt.slotlist slot).Pairwise fun e f => wt.executeCycleNo e ≤ wt.executeCycleNo f
  queued : wt.reschdList.Nodup

variable {wt wt' : WheelTimer} {e d : WheelTimerElemRef} {elem : WheelTimerElem} {f : WheelTimerElem →
  WheelTimerElem} {slot cycle next : ℕ}

theorem executeCycleNo_eq : wt.executeCycleNo e = (placeOf wt e).elim 0 Prod.fst := by
  rw [executeCycleNo, placeOf]
  cases wt.elems e <;> rfl

theorem placeOf_found (found : wt.elems e = some elem) :
    placeOf wt e = some (elem.executeCycleNo, elem.slotNo) := by
  rw [placeOf, found, Option.map_some]

/-- An element is due at the slot number that its cycle and its slot make up. -/
theorem dueOf_linked (place : placeOf wt e = some (cycle, slot)) (member : e ∈ wt.slotlist slot) :
    dueOf wt e = some (cycle * wt.wheelSize + slot) := by
  rw [dueOf, place, Option.bind_some, if_pos member]

/-- One that is due is linked into the slot of its place. -/
theorem dueOf_eq_some (due : dueOf wt e = some next) :
    ∃ cycle slot, placeOf wt e = some (cycle, slot) ∧ e ∈ wt.slotlist slot ∧
    next = cycle * wt.wheelSize + slot := by
  obtain ⟨⟨cycle, slot⟩, place, here⟩ := Option.bind_eq_some_iff.mp due
  dsimp only at here
  split_ifs at here with member
  exact ⟨cycle, slot, place, member, (Option.some.inj here).symm⟩

/-- One that is in no slot is not due. -/
theorem dueOf_none (unlinked : ∀ slot, e ∉ wt.slotlist slot) : dueOf wt e = none := by
  by_contra due
  obtain ⟨n, due⟩ := Option.ne_none_iff_exists'.mp due
  obtain ⟨_, slot, _, member, _⟩ := dueOf_eq_some due
  exact unlinked slot member

/-- One that is not due is in no slot. -/
theorem unlinked_of_dueOf (tidy : Tidy wt) (due : dueOf wt e = none) (slot : ℕ) : e ∉ wt.slotlist slot := by
  intro member
  obtain ⟨_, cycle, place⟩ := tidy.linked member
  cases (dueOf_linked place member).symm.trans due

/-- Only its place and the slots matter. -/
theorem dueOf_congr (size : wt'.wheelSize = wt.wheelSize) (slots : wt'.slotlist = wt.slotlist)
    (place : placeOf wt' e = placeOf wt e) : dueOf wt' e = dueOf wt e := by
  rw [dueOf, dueOf, size, slots, place]

/-- Of the wheel only the slots and the places of what is linked matter. -/
theorem Tidy.congr (tidy : Tidy wt) (size : wt'.wheelSize = wt.wheelSize) (slots : wt'.slotlist = wt.slotlist)
    (places : ∀ {slot e}, e ∈ wt.slotlist slot → placeOf wt' e = placeOf wt e)
    (queued : wt'.reschdList.Nodup) : Tidy wt' := by
  constructor
  · rw [size]
    exact tidy.positive
  · intro slot e member
    rw [slots] at member
    rw [size, places member]
    exact tidy.linked member
  · rw [slots]
    exact tidy.nodup
  · intro slot
    rw [slots]
    refine (tidy.sorted slot).imp_of_mem fun first second order => ?_
    rwa [executeCycleNo_eq, executeCycleNo_eq, places first, places second, ← executeCycleNo_eq,
      ← executeCycleNo_eq]
  · exact queued

/-- Another element is not touched. -/
theorem elems_setElem : (wt.setElem e f).elems d = if d = e then (wt.elems e).map f else wt.elems d :=
  Function.update_apply ..

@[simp] theorem reschdList_setElem : (wt.setElem e f).reschdList = wt.reschdList := rfl

@[simp] theorem freed_setElem : (wt.setElem e f).freed = wt.freed := rfl

theorem elems_setElem_self (found : wt.elems e = some elem) : (wt.setElem e f).elems e = some (f elem) := by
  rw [elems_setElem, if_pos rfl, found, Option.map_some]

theorem elems_setElem_of_ne (other : d ≠ e) : (wt.setElem e f).elems d = wt.elems d := by
  rw [elems_setElem, if_neg other]

/-- The change keeps the place of the element. -/
def KeepsPlace (f : WheelTimerElem → WheelTimerElem) : Prop :=
  ∀ elem, (f elem).executeCycleNo = elem.executeCycleNo ∧ (f elem).slotNo = elem.slotNo

theorem keepsPlace_slotlistHead {head : Option ℕ} : KeepsPlace fun elem => { elem with slotlistHead := head } :=
  fun _ => ⟨rfl, rfl⟩

theorem keepsPlace_timeInterval : KeepsPlace fun elem => { elem with timeInterval := elem.newTimeInterval } :=
  fun _ => ⟨rfl, rfl⟩

theorem keepsPlace_opcode {opcode : WtOpcode} : KeepsPlace fun elem => { elem with opcode } :=
  fun _ => ⟨rfl, rfl⟩

theorem keepsPlace_request {opcode : WtOpcode} {newTimeInterval : Int32} :
    KeepsPlace fun elem => { elem with opcode, newTimeInterval } := fun _ => ⟨rfl, rfl⟩

theorem keepsPlace_arg {arg : ℕ} : KeepsPlace fun elem => { elem with arg } := fun _ => ⟨rfl, rfl⟩

/-- A change of other fields moves no element. -/
theorem placeOf_setElem (keeps : KeepsPlace f) : placeOf (wt.setElem e f) d = placeOf wt d := by
  rw [placeOf, placeOf, elems_setElem]
  split_ifs with same
  · subst same
    cases wt.elems d with
    | none => rfl
    | some elem => simp only [Option.map_some, (keeps elem).1, (keeps elem).2]
  · rfl

theorem Tidy.setElem (tidy : Tidy wt) (keeps : KeepsPlace f) : Tidy (wt.setElem e f) :=
  tidy.congr rfl rfl (fun _ => placeOf_setElem keeps) tidy.queued

theorem dueOf_setElem (keeps : KeepsPlace f) : dueOf (wt.setElem e f) d = dueOf wt d :=
  dueOf_congr rfl rfl (placeOf_setElem keeps)

theorem Tidy.removeRescheduleGlue (tidy : Tidy wt) : Tidy (wt.removeRescheduleGlue e) :=
  tidy.congr rfl rfl (fun _ => rfl) (tidy.queued.erase e)

theorem dueOf_removeRescheduleGlue : dueOf (wt.removeRescheduleGlue e) d = dueOf wt d := rfl

/-- The element goes, and the others stay. -/
theorem mem_removeGlue (tidy : Tidy wt) : d ∈ (wt.removeGlue e).slotlist slot ↔ d ≠ e ∧
    d ∈ wt.slotlist slot :=
  (tidy.nodup slot).mem_erase_iff

/-- The order of a slot survives the removal of an element. -/
theorem Tidy.removeGlue (tidy : Tidy wt) : Tidy (wt.removeGlue e) := by
  constructor
  · exact tidy.positive
  · intro slot d member
    exact tidy.linked ((mem_removeGlue tidy).mp member).2
  · exact fun slot => (tidy.nodup slot).erase e
  · exact fun slot => (tidy.sorted slot).sublist List.erase_sublist
  · exact tidy.queued

/-- The other elements are due as before. -/
theorem dueOf_removeGlue (tidy : Tidy wt) (other : d ≠ e) : dueOf (wt.removeGlue e) d = dueOf wt d := by
  have place : placeOf (wt.removeGlue e) d = placeOf wt d := rfl
  rw [dueOf, dueOf, place]
  congr 1
  funext place
  simp only [mem_removeGlue tidy, ne_eq, other, not_false_eq_true, true_and]
  rfl

theorem dueOf_removeGlue_self (tidy : Tidy wt) : dueOf (wt.removeGlue e) e = none :=
  dueOf_none fun _ member => ((mem_removeGlue tidy).mp member).1 rfl

/-- Only the slot of the element gets longer. -/
theorem slotlist_insertAt : (wt.insertAt e next).slotlist = Function.update wt.slotlist (next % wt.wheelSize)
    (glthreadPriorityInsert (wt.setElem e fun elem => { elem with
      executeCycleNo := next / wt.wheelSize, slotNo := next % wt.wheelSize }).insertWtElemInSlot e
        (wt.slotlist (next % wt.wheelSize))) := rfl

/-- What is linked after an insertion. -/
theorem mem_insertAt : d ∈ (wt.insertAt e next).slotlist slot ↔ d = e ∧ slot = next % wt.wheelSize ∨
    d ∈ wt.slotlist slot := by
  rw [slotlist_insertAt, Function.update_apply]
  split_ifs with same
  · subst same
    simp only [mem_glthreadPriorityInsert, and_true]
  · simp only [same, and_false, false_or]

@[simp] theorem reschdList_insertAt : (wt.insertAt e next).reschdList = wt.reschdList := rfl

@[simp] theorem freed_insertAt : (wt.insertAt e next).freed = wt.freed := rfl

theorem elems_insertAt (found : wt.elems e = some elem) : (wt.insertAt e next).elems e = some { elem with
    executeCycleNo := next / wt.wheelSize, slotNo := next % wt.wheelSize
    slotlistHead := some (next % wt.wheelSize), nScheduled := elem.nScheduled + 1 } :=
  elems_setElem_self (elems_setElem_self found)

theorem elems_insertAt_of_ne (other : d ≠ e) : (wt.insertAt e next).elems d = wt.elems d := by
  rw [insertAt, elems_setElem_of_ne other]
  exact elems_setElem_of_ne other

/-- The element has the place it was planned for. -/
theorem placeOf_insertAt (found : wt.elems e = some elem) :
    placeOf (wt.insertAt e next) e = some (next / wt.wheelSize, next % wt.wheelSize) :=
  placeOf_found (elems_insertAt found)

theorem placeOf_insertAt_of_ne (other : d ≠ e) : placeOf (wt.insertAt e next) d = placeOf wt d := by
  rw [placeOf, placeOf, elems_insertAt_of_ne other]

/-- The comparison of two elements is one of their cycles. -/
theorem insertWtElemInSlot_eq : wt.insertWtElemInSlot e d = -1 ↔ wt.executeCycleNo e < wt.executeCycleNo d := by
  rw [insertWtElemInSlot]
  split_ifs <;> simp_all

theorem executeCycleNo_insertAt : (wt.insertAt e next).executeCycleNo d = (wt.setElem e fun elem => { elem with
    executeCycleNo := next / wt.wheelSize, slotNo := next % wt.wheelSize }).executeCycleNo d := by
  rw [executeCycleNo_eq, executeCycleNo_eq, insertAt]
  exact congrArg (Option.elim · 0 Prod.fst) (placeOf_setElem fun _ => ⟨rfl, rfl⟩)

/-- An element is inserted in the order of the cycles. -/
theorem Tidy.insertAt (tidy : Tidy wt) (found : wt.elems e = some elem)
    (unlinked : ∀ slot, e ∉ wt.slotlist slot) :
    Tidy (wt.insertAt e next) := by
  have kept {slot d} (member : d ∈ wt.slotlist slot) : d ≠ e := fun same => unlinked slot (same ▸ member)
  constructor
  · exact tidy.positive
  · intro slot d member
    rcases mem_insertAt.mp member with ⟨rfl, rfl⟩ | member
    · exact ⟨Nat.mod_lt _ tidy.positive, _, placeOf_insertAt found⟩
    · rw [placeOf_insertAt_of_ne (kept member)]
      exact tidy.linked member
  · intro slot
    rw [slotlist_insertAt, Function.update_apply]
    split_ifs
    · exact nodup_glthreadPriorityInsert (unlinked _) (tidy.nodup _)
    · exact tidy.nodup slot
  · intro slot
    have order : (wt.slotlist slot).Pairwise fun d d' =>
        (wt.insertAt e next).executeCycleNo d ≤ (wt.insertAt e next).executeCycleNo d' := by
      refine (tidy.sorted slot).imp_of_mem fun first second order => ?_
      rwa [executeCycleNo_eq, executeCycleNo_eq, placeOf_insertAt_of_ne (kept first),
        placeOf_insertAt_of_ne (kept second), ← executeCycleNo_eq, ← executeCycleNo_eq]
    rw [slotlist_insertAt, Function.update_apply]
    split_ifs with same
    · subst same
      have less (d : WheelTimerElemRef) := @insertWtElemInSlot_eq (wt.setElem e fun elem => { elem with
        executeCycleNo := next / wt.wheelSize, slotNo := next % wt.wheelSize }) e d
      simp only [← executeCycleNo_insertAt] at less
      apply pairwise_glthreadPriorityInsert _ _ _ order
      · exact fun _ _ _ => Nat.le_trans
      · exact fun d smaller => ((less d).mp smaller).le
      · exact fun d other => Nat.not_lt.mp (mt (less d).mpr other)
    · exact order
  · exact tidy.queued

/-- The element is due where it was planned. -/
theorem dueOf_insertAt (found : wt.elems e = some elem) : dueOf (wt.insertAt e next) e = some next := by
  rw [dueOf_linked (placeOf_insertAt found) (mem_insertAt.mpr (.inl ⟨rfl, rfl⟩))]
  exact congrArg some (Nat.div_add_mod' next wt.wheelSize)

/-- No other element is moved by planning one. -/
theorem dueOf_insertAt_of_ne (other : d ≠ e) : dueOf (wt.insertAt e next) d = dueOf wt d := by
  have size : (wt.insertAt e next).wheelSize = wt.wheelSize := rfl
  rw [dueOf, dueOf, placeOf_insertAt_of_ne other, size]
  congr 1
  funext place
  simp only [mem_insertAt, other, false_and, false_or]

end WheelTimer

end TcpServerLib.Refinement
