import TcpServerLib.Refinement.WheelOperations

/-! # What a request leaves alone

A request writes what is asked for into its element and queues it. The element stays in its slot until
the queue is processed, and is due there as before.
-/

namespace TcpServerLib.Refinement

open Model

namespace WheelTimer

open Model.WheelTimer

variable {wt wt' : WheelTimer} {e d : WheelTimerElemRef} {elem : WheelTimerElem} {interval : Int32}
  {opcode : WtOpcode}

/-- How long a linked element waits after its callback, if it comes again. -/
def periodOf (wt : WheelTimer) (e : WheelTimerElemRef) : Option ℕ :=
  (dueOf wt e).bind fun _ => (wt.elems e).bind fun elem =>
    if elem.isRecurrence then some (wt.slotsOf elem.timeInterval) else none

/-- A linked element that recurs has the period of its interval. -/
theorem periodOf_found (found : wt.elems e = some elem) {n : ℕ} (due : dueOf wt e = some n) :
    periodOf wt e = if elem.isRecurrence then some (wt.slotsOf elem.timeInterval) else none := by
  rw [periodOf, due, found, Option.bind_some, Option.bind_some]

theorem periodOf_congr (clock : SameClock wt wt') (due : dueOf wt' e = dueOf wt e)
    (elem : dueOf wt e ≠ none → ∀ elem, wt.elems e = some elem → ∃ elem', wt'.elems e = some elem' ∧
      elem'.isRecurrence = elem.isRecurrence ∧ elem'.timeInterval = elem.timeInterval) : periodOf wt' e =
        periodOf wt e := by
  rw [periodOf, periodOf, due]
  cases linked : dueOf wt e with
  | none => rfl
  | some n =>
    obtain ⟨cycle, slot, place, _⟩ := dueOf_eq_some linked
    obtain ⟨before, found, _⟩ := Option.map_eq_some_iff.mp place
    obtain ⟨after, found', recurrence, interval⟩ := elem (linked ▸ Option.some_ne_none n) before found
    rw [Option.bind_some, Option.bind_some, found, found', Option.bind_some, Option.bind_some,
      recurrence, interval, clock.slotsOf]

/-- An accepted interval is at least one slot long. -/
theorem slotsOf_pos (clock : 0 < wt.wtGetClockIntervalInMilliSec) (accepts : wt.Accepts interval) :
    0 < wt.slotsOf interval := by
  have nonzero : 0 < interval.toUInt32.toNat := by
    apply Nat.pos_of_ne_zero
    intro zero
    exact accepts.1 (Int32.toBitVec_inj.mp (BitVec.eq_of_toNat_eq zero))
  exact Nat.div_pos (Nat.le_of_dvd nonzero (Nat.dvd_of_mod_eq_zero accepts.2)) clock

/-- What a request comes to. -/
structure Requested (opcode : WtOpcode) (interval : Int32) (e : WheelTimerElemRef)
    (wt wt' : WheelTimer) : Prop where
  tidy : Tidy wt'
  clock : SameClock wt wt'
  others : ∀ d, d ≠ e → SameElem wt wt' d
  slots : wt'.slotlist = wt.slotlist
  place : wt.elems e ≠ none → placeOf wt' e = placeOf wt e
  queued : e ∈ wt'.reschdList
  found : ∃ elem', wt'.elems e = some elem' ∧ elem'.opcode = opcode ∧ elem'.newTimeInterval = interval ∧
    ∀ elem, wt.elems e = some elem → elem'.timeInterval = elem.timeInterval ∧ elem'.isRecurrence =
      elem.isRecurrence

/-- A request is written into the element and put in the list. -/
theorem timerReschedule_spec (tidy : Tidy wt) (ran : wt._timerReschedule e interval opcode = some wt') :
    Requested opcode interval e wt wt' := by
  have both : (wt.writeRequest e interval opcode).bind (enqueueRequest · e) = some wt' := by
    cases opcode with
    | create | resched | delete => exact ran
    | scheduled | unknown => cases ran
  obtain ⟨middle, wrote, queues⟩ := Option.bind_eq_some_iff.mp both
  obtain ⟨allocated, rfl⟩ := writeRequest_eq wrote
  obtain ⟨_, rfl⟩ := enqueueRequest_eq queues
  obtain ⟨elem, found⟩ := Option.ne_none_iff_exists'.mp allocated
  constructor
  · exact tidy.written.enqueued
  · exact sameClock_written.trans sameClock_enqueued
  · exact fun d other => (sameElem_written other).trans (sameElem_enqueued tidy.written other)
  · rfl
  · exact fun _ => placeOf_enqueued.trans placeOf_written
  · exact (mem_enqueued tidy.written).mpr (.inl rfl)
  · refine ⟨_, elems_enqueued (elems_written found), rfl, rfl, fun other found' => ?_⟩
    obtain rfl := Option.some.inj (found.symm.trans found')
    exact ⟨rfl, rfl⟩

/-- Rescheduling posts a request for an interval that the wheel accepts. -/
theorem timerReschedule_requested (tidy : Tidy wt) (ran : wt.timerReschedule e interval = some wt') :
    wt.Accepts interval ∧ Requested .resched interval e wt wt' := by
  rw [timerReschedule] at ran
  split_ifs at ran with accepts
  exact ⟨accepts, timerReschedule_spec tidy ran⟩

/-- De-registering posts a deletion. -/
theorem timerDeRegisterAppEvent_requested (tidy : Tidy wt) (ran : wt.timerDeRegisterAppEvent e = some wt') :
    Requested .delete 0 e wt wt' := by
  obtain ⟨middle, set, ran⟩ := Option.bind_eq_some_iff.mp ran
  obtain ⟨elem, found, set⟩ := Option.bind_eq_some_iff.mp set
  obtain rfl := Option.some.inj set
  have requested := timerReschedule_spec (tidy.setElem keepsPlace_arg) ran
  constructor
  · exact requested.tidy
  · exact sameClock_setElem.trans requested.clock
  · intro d other
    have same : SameElem wt (wt.setElem e fun elem => { elem with arg := 0 }) d :=
      ⟨elems_setElem_of_ne other, dueOf_setElem keepsPlace_arg, Iff.rfl, rfl⟩
    exact same.trans (requested.others d other)
  · exact requested.slots
  · intro allocated
    have changed := elems_setElem_self (f := fun elem => { elem with arg := 0 }) found
    exact (requested.place (changed ▸ Option.some_ne_none _)).trans (placeOf_setElem keepsPlace_arg)
  · exact requested.queued
  · obtain ⟨elem', found', opcode, interval, rest⟩ := requested.found
    refine ⟨elem', found', opcode, interval, fun before found'' => ?_⟩
    obtain rfl := Option.some.inj (found.symm.trans found'')
    have kept := rest _ (elems_setElem_self found)
    exact ⟨kept.1, kept.2⟩

/-- What is not allocated is in no slot. -/
theorem unlinked_of_elems (tidy : Tidy wt) (absent : wt.elems e = none) (slot : ℕ) :
    e ∉ wt.slotlist slot := by
  intro member
  obtain ⟨_, cycle, place⟩ := tidy.linked member
  obtain ⟨elem, found, _⟩ := Option.map_eq_some_iff.mp place
  cases found.symm.trans absent

section

variable {callBack arg argSize : ℕ} {isRecursive : Bool}

theorem sameClock_callocElem : SameClock wt (wt.callocElem e callBack arg argSize isRecursive) :=
  ⟨rfl, rfl, rfl, rfl, rfl⟩

theorem elems_callocElem_of_ne (other : d ≠ e) :
    (wt.callocElem e callBack arg argSize isRecursive).elems d = wt.elems d :=
  Function.update_of_ne other ..

theorem sameElem_callocElem (other : d ≠ e) :
    SameElem wt (wt.callocElem e callBack arg argSize isRecursive) d :=
  ⟨elems_callocElem_of_ne other, dueOf_congr rfl rfl (congrArg (Option.map _) (elems_callocElem_of_ne other)),
    Iff.rfl, rfl⟩

/-- A new element is in no slot yet. -/
theorem Tidy.callocElem (tidy : Tidy wt) (absent : wt.elems e = none) :
    Tidy (wt.callocElem e callBack arg argSize isRecursive) := by
  refine tidy.congr rfl rfl (fun {slot d} member => congrArg (Option.map _) (elems_callocElem_of_ne ?_))
    tidy.queued
  rintro rfl
  exact unlinked_of_elems tidy absent slot member

/-- Registering posts a creation for a fresh element, or leaves the wheel alone. -/
theorem timerRegisterAppEvent_requested (tidy : Tidy wt) (absent : wt.elems e = none)
    (ran : wt.timerRegisterAppEvent e callBack arg argSize interval isRecursive = some wt') :
    wt' = wt ∨ wt.Accepts interval ∧ Requested .create interval e wt wt' ∧
      ∃ elem', wt'.elems e = some elem' ∧ elem'.isRecurrence = isRecursive := by
  rw [timerRegisterAppEvent] at ran
  split_ifs at ran with null accepts
  · exact .inl (Option.some.inj ran).symm
  have requested := timerReschedule_spec (tidy.callocElem absent) ran
  obtain ⟨elem', found', opcode, newTimeInterval, rest⟩ := requested.found
  refine .inr ⟨accepts, ?_, elem', found', (rest _ (Function.update_self ..)).2⟩
  constructor
  · exact requested.tidy
  · exact sameClock_callocElem.trans requested.clock
  · exact fun d other => (sameElem_callocElem other).trans (requested.others d other)
  · exact requested.slots
  · exact fun present => (present absent).elim
  · exact requested.queued
  · exact ⟨elem', found', opcode, newTimeInterval, fun elem found => by cases absent.symm.trans found⟩

end

section

variable (requested : Requested opcode interval e wt wt')
include requested

theorem Requested.place_linked (tidy : Tidy wt) {slot : ℕ} (member : d ∈ wt.slotlist slot) :
    placeOf wt' d = placeOf wt d := by
  by_cases same : d = e
  · subst same
    exact requested.place fun absent => unlinked_of_elems tidy absent slot member
  · exact congrArg (Option.map _) (requested.others d same).elem

/-- A request by itself moves no element. -/
theorem Requested.due (tidy : Tidy wt) : dueOf wt' d = dueOf wt d := by
  cases linked : dueOf wt d with
  | none =>
    have absent := unlinked_of_dueOf tidy linked
    exact dueOf_none (requested.slots ▸ absent)
  | some n =>
    obtain ⟨_, _, _, member, _⟩ := dueOf_eq_some linked
    rw [← linked]
    exact dueOf_congr requested.clock.size requested.slots (requested.place_linked tidy member)

/-- A request by itself changes no period. -/
theorem Requested.period (tidy : Tidy wt) : periodOf wt' d = periodOf wt d := by
  refine periodOf_congr requested.clock (requested.due tidy) fun _ elem found => ?_
  by_cases same : d = e
  · subst same
    obtain ⟨elem', found', _, _, rest⟩ := requested.found
    obtain ⟨interval, recurrence⟩ := rest elem found
    exact ⟨elem', found', recurrence, interval⟩
  · exact ⟨elem, (requested.others d same).elem.trans found, rfl, rfl⟩

theorem Requested.executeCycleNo (tidy : Tidy wt) {slot : ℕ} (member : d ∈ wt.slotlist slot) :
    wt'.executeCycleNo d = wt.executeCycleNo d := by
  rw [executeCycleNo_eq, executeCycleNo_eq, requested.place_linked tidy member]

end

end WheelTimer

end TcpServerLib.Refinement
