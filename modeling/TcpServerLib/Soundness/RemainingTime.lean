import TcpServerLib.Soundness.TimerFirings

/-! # The remaining time of a scheduled element

An element in a slot is due no later than its interval from now. What `wt_get_remaining_time` computes
from the place of the element is the time of the ticks up to there.
-/

namespace TcpServerLib.Soundness

open Machine Model Refinement Model.WheelThread Refinement.WheelThread Refinement.WheelTimer

namespace WheelThread

/-- Every element in a slot is due within its interval, at a slot number that is an `int`. -/
def Near (wt : WheelTimer) : Prop :=
  ∀ e d elem, dueOf wt e = some d → wt.elems e = some elem →
    d < 2 ^ 31 ∧ d ≤ wt.currentAbsSlotNo + wt.slotsOf elem.timeInterval

/-- Unless a request for it is made, the callback of the element is invoked in the `n`-th tick from now. -/
def FiresAfter (s : WheelThread) (e : WheelTimerElemRef) (n : ℕ) : Prop :=
  ∀ events t, Path (Guarded Step SlotNosFit) s events t → (∀ event ∈ events, about event ≠ some e) →
    (∀ absoluteSlotNo ∈ (firings e events).head?, absoluteSlotNo = s.wt.currentAbsSlotNo + n) ∧
      (t.phase = .idle ∨ t.phase = .processing → (firings e events ≠ [] ↔ n ≤ events.count .tick))

/-- What the application is told is the time of the ticks that are left, and no more than it asked for. -/
def RemainsTruthfully (s : WheelThread) (e : WheelTimerElemRef) (timeInterval : Int32) : Prop :=
  ∃ n remaining, s.wt.wtGetRemainingTime e = some remaining ∧
    remaining.toInt = (s.wt.wtGetClockIntervalInMilliSec * n : ℕ) ∧ FiresAfter s e n ∧
    0 < remaining.toInt ∧ remaining.toInt ≤ timeInterval.toInt

variable {s t : WheelThread} {e : WheelTimerElemRef} {event : WheelEvent} {events : List WheelEvent}
  {wt' : WheelTimer} {elem : WheelTimerElem} {d : ℕ}

/-- The elements in slots are due as before, and their intervals are the same. -/
theorem Near.congr (near : Near s.wt) (clock : SameClock s.wt wt') (due : ∀ e, dueOf wt' e = dueOf s.wt e)
    (kept : ∀ e elem, s.wt.elems e = some elem → ∃ elem', wt'.elems e = some elem' ∧
      elem'.timeInterval = elem.timeInterval) :
    Near wt' := by
  intro e d elem' planned found'
  rw [due] at planned
  obtain ⟨_, _, place, _⟩ := dueOf_eq_some planned
  obtain ⟨elem, found, _⟩ := Option.map_eq_some_iff.mp place
  obtain ⟨other, found'', same⟩ := kept e elem found
  obtain rfl := Option.some.inj (found'.symm.trans found'')
  rw [same, clock.currentAbsSlotNo, clock.slotsOf]
  exact near e d elem planned found

theorem near_request {opcode : WtOpcode} {interval : Int32} (timely : Timely s) (near : Near s.wt)
    (requested : Refinement.WheelTimer.Requested opcode interval e s.wt wt') : Near wt' := by
  refine near.congr requested.clock (fun d => requested.due timely.tidy) fun d elem found => ?_
  by_cases same : d = e
  · subst same
    obtain ⟨elem', found', _, _, rest⟩ := requested.found
    exact ⟨elem', found', (rest elem found).1⟩
  · exact ⟨elem, (requested.others d same).elem.trans found, rfl⟩

theorem near_returned {rest : List WheelTimerElemRef} (near : Near s.wt)
    (fits : ∀ elem, s.wt.elems e = some elem →
    elem.isRecurrence → s.wt.currentAbsSlotNo + s.wt.slotsOf elem.timeInterval < 2 ^ 31)
    (returned : Returned e rest s.wt wt') : Near wt' := by
  intro d n elem' planned found'
  rw [returned.clock.currentAbsSlotNo, returned.clock.slotsOf]
  by_cases same : d = e
  · subst same
    obtain ⟨k, period, rfl⟩ := Option.map_eq_some_iff.mp (returned.due.symm.trans planned)
    obtain ⟨before, due, period'⟩ := Option.bind_eq_some_iff.mp period
    obtain ⟨elem, found, _⟩ := Option.bind_eq_some_iff.mp period'
    obtain ⟨other, found'', _, _, interval, _⟩ := returned.found elem found
    obtain rfl := Option.some.inj (found'.symm.trans found'')
    rw [periodOf_found found due] at period
    split_ifs at period with recurs
    obtain rfl := Option.some.inj period
    rw [interval]
    exact ⟨fits elem found recurs, Nat.le_refl _⟩
  · have others := returned.others d same
    exact near d n elem' (others.due.symm.trans planned) (others.elem.symm.trans found')

theorem near_drained (near : Near s.wt) (fits : SlotNosFit s (.process s.wt.reschdList))
    (drained : Drained s.wt.reschdList s.wt wt') : Near wt' := by
  intro e n elem' planned found'
  rw [drained.clock.currentAbsSlotNo, drained.clock.slotsOf]
  by_cases member : e ∈ s.wt.reschdList
  · obtain ⟨elem, found, outcome⟩ := drained.each e member
    cases outcome with
    | planned opcode next due after interval recurrence scheduled left freed =>
      obtain rfl := Option.some.inj (found'.symm.trans after)
      obtain rfl := Option.some.inj (planned.symm.trans due)
      have kept : elem.opcode ≠ .delete := by
        intro same
        rw [same] at opcode
        rcases opcode with opcode | opcode <;> cases opcode
      have bound := fits e member elem found kept
      rw [nextAbsSlotNo_of_lt bound] at next
      obtain rfl := Option.some.inj next
      rw [interval]
      exact ⟨bound, Nat.le_refl _⟩
    | deleted _ _ due _ _ => cases due.symm.trans planned
    | dropped _ _ due _ _ => cases due.symm.trans planned
  · have others := drained.others e member
    exact near e n elem' (others.due.symm.trans planned) (others.elem.symm.trans found')

theorem near_step (timely : Timely s) (near : Near s.wt) (fits : SlotNosFit s event)
    (step : Step s event t) : Near t.wt := by
  cases event with
  | register e callBack arg argSize interval isRecursive =>
    obtain ⟨absent, wt', ran, rfl⟩ := step_register step
    rcases timerRegisterAppEvent_requested timely.tidy absent ran with rfl | ⟨_, requested, _⟩
    · exact near
    · exact near_request timely near requested
  | reschedule e interval =>
    obtain ⟨wt', ran, rfl⟩ := Option.map_eq_some_iff.mp step
    exact near_request timely near (timerReschedule_requested timely.tidy ran).2
  | deRegister e =>
    obtain ⟨_, wt', ran, rfl⟩ := step_deRegister step
    exact near_request timely near (timerDeRegisterAppEvent_requested timely.tidy ran)
  | tick =>
    obtain ⟨_, rfl⟩ := step_tick step
    obtain ⟨now, _, moved⟩ := advanceClock_spec timely.tic
    intro e d elem due found
    have due' : dueOf s.wt e = some d := (dueOf_advanceClock timely.tic).symm.trans due
    have found' : s.wt.elems e = some elem := by
      rw [ticked, moved] at found
      exact found
    obtain ⟨bound, within⟩ := near e d elem due' found'
    have slots : (ticked s).wt.slotsOf elem.timeInterval = s.wt.slotsOf elem.timeInterval := by
      rw [ticked, moved]
      rfl
    rw [slots, ticked, now]
    exact ⟨bound, by omega⟩
  | invoke e n =>
    obtain ⟨_, _, _, rfl⟩ := step_invoke step
    exact near
  | returned =>
    obtain ⟨e, next, wt', phase, ran, rfl⟩ := step_returned step
    obtain ⟨rest, returned, _⟩ := returned_of_step timely phase fits ran
    exact near_returned near (fits e (phase ▸ rfl)) returned
  | stop =>
    obtain ⟨_, rfl⟩ := step_stop step
    exact near
  | process queued =>
    obtain ⟨_, rfl, wt', ran, rfl⟩ := step_process step
    exact near_drained near fits (processWtRescheduleSlotlist_spec timely.tidy ran)

theorem near_path (timely : Timely s) (near : Near s.wt) (path : Path (Guarded Step SlotNosFit) s events t) :
    Near t.wt := by
  induction path with
  | nil => exact near
  | cons head _ ih => exact ih (refines timely head.1 head.2).1 (near_step timely near head.1 head.2)

theorem now_path (timely : Timely s) (path : Path (Guarded Step SlotNosFit) s events t) :
    t.wt.currentAbsSlotNo = s.wt.currentAbsSlotNo + events.count .tick := by
  induction path with
  | nil => rfl
  | @cons s middle t event events head _ ih =>
    have split : ([event] ++ events).count .tick = [event].count .tick + events.count .tick := List.count_append
    rw [List.singleton_append] at split
    rw [ih (refines timely head.1 head.2).1, now_step timely head.1 head.2, split, Nat.add_assoc]

theorem unqueued_step (timely : Timely s) (fits : SlotNosFit s event) (step : Step s event t)
    (absent : e ∉ s.wt.reschdList)
    (others : about event ≠ some e) : Undisturbed e event ∧ e ∉ t.wt.reschdList := by
  cases taking : taken event with
  | none =>
    have untouched := untouched_step timely ⟨others, taking⟩ fits step
    refine ⟨fun queued taken => ?_, fun member => absent (untouched.queued.mp member)⟩
    rw [taking] at taken
    cases taken
  | some queued =>
    cases event with
    | process queued' =>
      obtain ⟨_, rfl, wt', ran, rfl⟩ := step_process step
      have drained := processWtRescheduleSlotlist_spec timely.tidy ran
      refine ⟨?_, fun member => absent ((drained.others e absent).queued.mp member)⟩
      rintro _ ⟨⟩
      exact absent
    | register | reschedule | deRegister | tick | invoke | returned | stop => cases taking

theorem unqueued_path (timely : Timely s) (path : Path (Guarded Step SlotNosFit) s events t)
    (absent : e ∉ s.wt.reschdList)
    (others : ∀ event ∈ events, about event ≠ some e) : ∀ event ∈ events, Undisturbed e event := by
  induction path with
  | nil => exact fun _ member => (List.not_mem_nil member).elim
  | cons head _ ih =>
    obtain ⟨undisturbed, absent'⟩ := unqueued_step timely head.1 head.2 absent (others _ List.mem_cons_self)
    intro event member
    rcases List.mem_cons.mp member with rfl | member
    · exact undisturbed
    · exact ih (refines timely head.1 head.2).1 absent'
        (fun event member => others event (List.mem_cons_of_mem _ member)) event member

/-- Whether an element is queued shows in its opcode. -/
theorem unqueued_of_scheduled (timely : Timely s) (found : s.wt.elems e = some elem)
    (scheduled : elem.opcode = .scheduled) :
    e ∉ s.wt.reschdList := by
  intro member
  obtain ⟨other, found', known⟩ := timely.queued e member
  obtain rfl := Option.some.inj (found.symm.trans found')
  rw [scheduled] at known
  rcases known with known | ⟨known | known, _⟩ <;> cases known

/-- Between two ticks, an element that is not queued fires when it is due. -/
theorem firesAfter_of_due (timely : Timely s) (phase : s.phase = .idle) (absent : e ∉ s.wt.reschdList) {n : ℕ}
    (due : dueOf s.wt e = some (s.wt.currentAbsSlotNo + n)) : FiresAfter s e n := by
  intro events t path others
  have undisturbed := unqueued_path timely path absent others
  have planned : (schedule s).due e = some (s.wt.currentAbsSlotNo + n) := by
    rw [schedule, phase]
    exact due
  have here {last : ℕ} (reached : s.wt.currentAbsSlotNo + n ≤ last) :=
    Schedule.occurrences_due reached (timely.period e)
  constructor
  · intro first head
    obtain ⟨rest, split⟩ := firings_prefix timely path undisturbed
      (Nat.le_max_left t.wt.currentAbsSlotNo (s.wt.currentAbsSlotNo + n))
    rw [planned, here (Nat.le_max_right ..)] at split
    cases fired : firings e events with
    | nil =>
      rw [fired] at head
      cases head
    | cons a as =>
      rw [fired] at head split
      cases head
      exact (List.cons.inj split).1
  · intro settled
    rw [firings_eq_occurrences timely path undisturbed settled, planned, now_path timely path]
    by_cases reached : n ≤ events.count .tick
    · rw [here (Nat.add_le_add_left reached _)]
      exact iff_of_true (List.cons_ne_nil _ _) reached
    · rw [Schedule.occurrences_later (by omega)]
      exact iff_of_false (not_not.mpr rfl) reached

theorem remaining_of_due (found : s.wt.elems e = some elem) (scheduled : elem.opcode = .scheduled)
    (due : dueOf s.wt e = some d) (small : d < 2 ^ 31) : s.wt.wtGetRemainingTime e =
      some (Int32.ofInt ((d - s.wt.currentAbsSlotNo : ℤ) * s.wt.wtGetClockIntervalInMilliSec)) := by
  obtain ⟨cycle, slot, place, _, rfl⟩ := dueOf_eq_some due
  obtain ⟨other, found', same⟩ := Option.map_eq_some_iff.mp place
  obtain rfl := Option.some.inj (found.symm.trans found')
  obtain ⟨rfl, rfl⟩ := Prod.mk.inj same
  rw [WheelTimer.wtGetRemainingTime, found]
  dsimp only [bind, Option.bind]
  rw [scheduled, if_neg (by decide), if_pos small]

/-- Ticks that fit into an interval take a time that is an `int`. -/
theorem slots_fit {interval : Int32} {n : ℕ} (positive : 0 < interval.toInt)
    (within : n ≤ s.wt.slotsOf interval) :
    (s.wt.wtGetClockIntervalInMilliSec * n : ℕ) ≤ interval.toInt := by
  have unsigned : (interval.toUInt32.toNat : ℤ) = interval.toInt := by
    have bits : interval.toUInt32.toNat = interval.toBitVec.toNat := rfl
    have bound := interval.toBitVec.isLt
    rw [← Int32.toInt_toBitVec, BitVec.toInt_eq_toNat_cond] at positive ⊢
    split_ifs at positive ⊢ <;> omega
  have product : s.wt.wtGetClockIntervalInMilliSec * n ≤ interval.toUInt32.toNat :=
    (Nat.mul_le_mul_left _ within).trans (Nat.mul_div_le _ _)
  rw [← unsigned]
  exact_mod_cast product

theorem truthful_of_positive (timely : Timely s) (near : Near s.wt) (phase : s.phase = .idle)
    (found : s.wt.elems e = some elem)
    (scheduled : elem.opcode = .scheduled) (due : dueOf s.wt e = some d)
    (positive : 0 < elem.timeInterval.toInt) :
    RemainsTruthfully s e elem.timeInterval := by
  have idle := timely.loop
  rw [Loop, phase] at idle
  have later := timely.later idle due
  obtain ⟨small, within⟩ := near e d elem due found
  have time := slots_fit (s := s) (n := d - s.wt.currentAbsSlotNo) positive (by omega)
  have ticks : (d - s.wt.currentAbsSlotNo : ℤ) * s.wt.wtGetClockIntervalInMilliSec =
      (s.wt.wtGetClockIntervalInMilliSec * (d - s.wt.currentAbsSlotNo) : ℕ) := by
    rw [Nat.mul_comm, Nat.cast_mul, Nat.cast_sub later.le]
  have told := remaining_of_due found scheduled due small
  have bound := elem.timeInterval.toInt_lt
  have exact : (Int32.ofInt ((d - s.wt.currentAbsSlotNo : ℤ) * s.wt.wtGetClockIntervalInMilliSec)).toInt =
      (s.wt.wtGetClockIntervalInMilliSec * (d - s.wt.currentAbsSlotNo) : ℕ) := by
    rw [ticks]
    exact Int32.toInt_ofInt_of_le (by omega) (by omega)
  refine ⟨d - s.wt.currentAbsSlotNo, _, told, exact, ?_, ?_, exact ▸ time⟩
  · apply firesAfter_of_due timely phase (unqueued_of_scheduled timely found scheduled)
    rw [due, Nat.add_sub_cancel' later.le]
  · rw [exact]
    exact_mod_cast Nat.mul_pos timely.clock (Nat.sub_pos_of_lt later)

end WheelThread

open WheelThread

variable {wheelSize clockTicInterval : ℕ} {timerResolution : TimerResolution} {s : WheelThread}
  {events : List WheelEvent} {e : WheelTimerElemRef} {elem : WheelTimerElem} {slot : ℕ}

/-- The remaining time is right for the elements whose interval is positive, and for these only. -/
theorem remainingTime_iff (slots : 0 < wheelSize)
    (clock : 0 < (WheelTimer.initWheelTimer wheelSize clockTicInterval
      timerResolution).wtGetClockIntervalInMilliSec)
    (run : Path (Guarded Step SlotNosFit) (start wheelSize clockTicInterval timerResolution) events s)
    (phase : s.phase = .idle)
    (linked : e ∈ s.wt.slotlist slot) (found : s.wt.elems e = some elem)
    (scheduled : elem.opcode = .scheduled) :
    RemainsTruthfully s e elem.timeInterval ↔ 0 < elem.timeInterval.toInt := by
  have timely₀ := timely_start slots clock
  have timely := (refines_path timely₀ run).1
  have near : Near s.wt := near_path timely₀ (fun d n elem due => by cases due) run
  constructor
  · rintro ⟨_, _, _, _, _, positive, within⟩
    exact positive.trans_le within
  · obtain ⟨_, cycle, place⟩ := timely.tidy.linked linked
    exact truthful_of_positive timely near phase found scheduled (dueOf_linked place linked)

/-- The element fires in the second tick from now. -/
def askedForwards : WheelThread := replayed step SlotNosFit (start 2 1 .milliSeconds)
  [.register 7 1 0 0 2 true, .tick, .stop, .process [7]]

theorem remainingTime_twoTicks : RemainsTruthfully askedForwards 7 2 := by
  have run : Path (Guarded Step SlotNosFit) (start 2 1 .milliSeconds)
      [.register 7 1 0 0 2 true, .tick, .stop, .process [7]] askedForwards := replayed_path (by decide +kernel)
  have linked : 7 ∈ askedForwards.wt.slotlist 1 := by decide +kernel
  obtain ⟨elem, found, interval, scheduled⟩ : ∃ elem, askedForwards.wt.elems 7 = some elem ∧
      elem.timeInterval = 2 ∧ elem.opcode = .scheduled := ⟨_, rfl, rfl, rfl⟩
  have truthful := remainingTime_iff (by decide) (by decide) run (by decide +kernel) linked found scheduled
  rw [interval] at truthful
  exact truthful.mpr (by decide)

/-- The element of a registration for minus eight milliseconds, on a clock of eight. -/
def askedBackwards : WheelThread := replayed step SlotNosFit (start 2 8 .milliSeconds)
  [.register 7 1 0 0 (-8) true, .tick, .stop, .process [7]]

/-- The assertions let the interval pass, as an unsigned number, and what is left of it is a negative number. -/
theorem remainingTime_negative : ∃ events elem, Path (Guarded Step SlotNosFit)
    (start 2 8 .milliSeconds) events askedBackwards ∧
    askedBackwards.phase = .idle ∧ 7 ∈ askedBackwards.wt.slotlist 0 ∧
    askedBackwards.wt.elems 7 = some elem ∧
    elem.opcode = .scheduled ∧ askedBackwards.wt.wtGetRemainingTime 7 = some (-8) ∧
    ¬ RemainsTruthfully askedBackwards 7 elem.timeInterval := by
  refine ⟨_, _, replayed_path
    (by decide +kernel), by decide +kernel, by decide +kernel, rfl, rfl, by decide +kernel, ?_⟩
  rintro ⟨_, _, _, _, _, positive, within⟩
  exact absurd (positive.trans_le within) (by decide)

end TcpServerLib.Soundness
