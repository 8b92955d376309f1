import TcpServerLib.Refinement.LinkedWheel

/-! # The lists of the wheel after a tick

After every tick the slot lists are chains in the order of the cycles, with the elements that are still to
come in their places, and the reschedule list is empty.
-/

namespace TcpServerLib.Soundness

open Machine Model Refinement Model.WheelThread Refinement.WheelThread Refinement.WheelTimer

namespace WheelThread

/-- Whether the callback of an element has been invoked since the element was last in a drain. -/
def noteFiring (fired : WheelTimerElemRef → Bool) : WheelEvent → WheelTimerElemRef → Bool
  | .invoke d _ => Function.update fired d true
  | .process queued => fun e => if e ∈ queued then false else fired e
  | _ => fired

def firedSinceDrain (events : List WheelEvent) : WheelTimerElemRef → Bool :=
  events.foldl noteFiring fun _ => false

/-- An element that is neither in a slot nor queued has fired, and does not come again. -/
structure NoneMissing (fired : WheelTimerElemRef → Bool) (s : WheelThread) : Prop where
  linked : ∀ e elem, s.wt.elems e = some elem → dueOf s.wt e = none → e ∉ s.wt.reschdList →
    elem.isRecurrence = false ∧ fired e = true
  invoked : ∀ e next, s.phase = .invoking e next → fired e = true

variable {s t : WheelThread} {e : WheelTimerElemRef} {event : WheelEvent} {events : List WheelEvent}
  {fired : WheelTimerElemRef → Bool} {wt' : WheelTimer}

theorem noneMissing_request {opcode : WtOpcode} {interval : Int32} (none : NoneMissing fired s)
    (requested : Refinement.WheelTimer.Requested opcode interval e s.wt wt') :
    NoneMissing fired { s with wt := wt' } := by
  refine ⟨fun d elem found due absent => ?_, none.invoked⟩
  by_cases same : d = e
  · subst same
    exact (absent requested.queued).elim
  · have others := requested.others d same
    exact none.linked d elem (others.elem.symm.trans found) (others.due.symm.trans due) fun member =>
      absent (others.queued.mpr member)

theorem noneMissing_returned {rest : List WheelTimerElemRef} {next : Option WheelTimerElemRef}
    (none : NoneMissing fired s)
    (phase : s.phase = .invoking e next) {n : ℕ} (linked : dueOf s.wt e = some n)
    (returned : Returned e rest s.wt wt') :
    NoneMissing fired { wt := wt', phase := .walking next } := by
  refine ⟨fun d elem' found due absent => ?_, fun _ _ phase => by cases phase⟩
  by_cases same : d = e
  · subst same
    refine ⟨?_, none.invoked d next phase⟩
    obtain ⟨cycle, slot, place, _⟩ := dueOf_eq_some linked
    obtain ⟨elem, found', _⟩ := Option.map_eq_some_iff.mp place
    obtain ⟨other, found'', _, _, _, recurrence⟩ := returned.found elem found'
    obtain rfl := Option.some.inj (found.symm.trans found'')
    have period : periodOf s.wt d = .none := Option.map_eq_none_iff.mp (returned.due.symm.trans due)
    rw [periodOf_found found' linked] at period
    rw [recurrence]
    simpa using period
  · have others := returned.others d same
    rw [returned.queue] at absent
    exact none.linked d elem' (others.elem.symm.trans found) (others.due.symm.trans due) absent

theorem noneMissing_step (timely : Timely s) (none : NoneMissing fired s) (fits : SlotNosFit s event)
    (step : Step s event t) :
    NoneMissing (noteFiring fired event) t := by
  cases event with
  | register e callBack arg argSize interval isRecursive =>
    obtain ⟨absent, wt', ran, rfl⟩ := step_register step
    rcases timerRegisterAppEvent_requested timely.tidy absent ran with rfl | ⟨_, requested, _⟩
    · exact none
    · exact noneMissing_request none requested
  | reschedule e interval =>
    obtain ⟨wt', ran, rfl⟩ := Option.map_eq_some_iff.mp step
    exact noneMissing_request none (timerReschedule_requested timely.tidy ran).2
  | deRegister e =>
    obtain ⟨_, wt', ran, rfl⟩ := step_deRegister step
    exact noneMissing_request none (timerDeRegisterAppEvent_requested timely.tidy ran)
  | tick =>
    obtain ⟨_, rfl⟩ := step_tick step
    obtain ⟨_, _, moved⟩ := advanceClock_spec timely.tic
    refine ⟨fun e elem found due absent => ?_, fun _ _ phase => by cases phase⟩
    rw [ticked, moved] at found absent
    exact none.linked e elem found ((dueOf_advanceClock timely.tic).symm.trans due) absent
  | invoke d n =>
    obtain ⟨_, _, _, rfl⟩ := step_invoke step
    refine ⟨fun e elem found due absent => ?_, fun e next phase => ?_⟩
    · obtain ⟨recurrence, fires⟩ := none.linked e elem found due absent
      refine ⟨recurrence, ?_⟩
      rw [noteFiring, Function.update_apply, fires, ite_self]
    · obtain rfl := (WheelPhase.invoking.inj phase).1
      exact Function.update_self ..
  | returned =>
    obtain ⟨e, next, wt', phase, ran, rfl⟩ := step_returned step
    obtain ⟨rest, returned, _⟩ := returned_of_step timely phase fits ran
    have loop := timely.loop
    rw [Loop, phase] at loop
    obtain ⟨_, slot, _, _⟩ := loop
    exact noneMissing_returned none phase (due_of_mem timely.tidy (slot ▸ List.mem_cons_self)) returned
  | stop =>
    obtain ⟨_, rfl⟩ := step_stop step
    exact ⟨none.linked, fun _ _ phase => by cases phase⟩
  | process queued =>
    obtain ⟨_, rfl, wt', ran, rfl⟩ := step_process step
    have drained := processWtRescheduleSlotlist_spec timely.tidy ran
    refine ⟨fun e elem found due absent => ?_, fun _ _ phase => by cases phase⟩
    by_cases member : e ∈ s.wt.reschdList
    · obtain ⟨before, found', outcome⟩ := drained.each e member
      cases outcome with
      | planned _ _ due' _ _ _ _ _ _ => cases due'.symm.trans due
      | deleted _ gone _ _ _ => cases gone.symm.trans found
      | dropped opcode _ _ _ _ =>
        obtain ⟨other, found'', known⟩ := timely.queued e member
        obtain rfl := Option.some.inj (found'.symm.trans found'')
        rw [opcode] at known
        rcases known with known | ⟨known | known, _⟩ <;> cases known
    · have others := drained.others e member
      rw [noteFiring]
      dsimp only
      rw [if_neg member]
      exact none.linked e elem (others.elem.symm.trans found) (others.due.symm.trans due) member

theorem noneMissing_path (timely : Timely s) (none : NoneMissing fired s)
    (path : Path (Guarded Step SlotNosFit) s events t) :
    NoneMissing (events.foldl noteFiring fired) t := by
  induction path generalizing fired with
  | nil => exact none
  | cons head _ ih => exact ih (refines timely head.1 head.2).1 (noneMissing_step timely none head.1 head.2)

/-- With no time between the ticks no interval is accepted, and there are no elements. -/
structure Barren (s : WheelThread) : Prop where
  clock : s.wt.wtGetClockIntervalInMilliSec = 0
  slots : ∀ slotNo, s.wt.slotlist slotNo = []
  queue : s.wt.reschdList = []
  elems : ∀ e, s.wt.elems e = none
  unwalked : ∀ e, s.phase ≠ .walking (some e)
  uninvoked : ∀ e next, s.phase ≠ .invoking e next

theorem not_accepts {wt : WheelTimer} {interval : Int32} (clock : wt.wtGetClockIntervalInMilliSec = 0) :
    ¬ wt.Accepts interval := by
  rintro ⟨nonzero, divides⟩
  rw [clock, Nat.mod_zero] at divides
  exact nonzero (Int32.toBitVec_inj.mp (BitVec.eq_of_toNat_eq divides))

theorem Barren.placed (barren : Barren s) : Refinement.LinkedWheel.Placed s := by
  constructor
  · intro e _
    rw [barren.queue]
    exact ⟨fun slotNo => by rw [barren.slots]; exact List.not_mem_nil, List.not_mem_nil⟩
  · exact fun e phase => (barren.unwalked e phase).elim

theorem Barren.settled (barren : Barren s) {phase : WheelPhase}
    (settled : phase = .idle ∨ phase = .processing) :
    Barren { s with phase } := by
  refine ⟨barren.clock, barren.slots, barren.queue, barren.elems, fun e walks => ?_, fun e next invokes => ?_⟩
  · rcases settled with rfl | rfl <;> cases walks
  · rcases settled with rfl | rfl <;> cases invokes

theorem barren_step (barren : Barren s) (step : Step s event t) : Barren t ∧
    t.wt.wheelSize = s.wt.wheelSize := by
  cases event with
  | register e callBack arg argSize interval isRecursive =>
    obtain ⟨_, wt', ran, rfl⟩ := step_register step
    rw [WheelTimer.timerRegisterAppEvent, if_neg (not_accepts barren.clock)] at ran
    split_ifs at ran
    obtain rfl := Option.some.inj ran
    exact ⟨barren, rfl⟩
  | reschedule e interval =>
    obtain ⟨wt', ran, rfl⟩ := Option.map_eq_some_iff.mp step
    rw [WheelTimer.timerReschedule, if_neg (not_accepts barren.clock)] at ran
    cases ran
  | deRegister e =>
    obtain ⟨_, wt', ran, rfl⟩ := step_deRegister step
    rw [WheelTimer.timerDeRegisterAppEvent, WheelTimer.wtElemSetAppData, barren.elems] at ran
    cases ran
  | tick =>
    obtain ⟨_, rfl⟩ := step_tick step
    have kept : (ticked s).wt.slotlist = s.wt.slotlist ∧ (ticked s).wt.reschdList = s.wt.reschdList ∧
        (ticked s).wt.elems = s.wt.elems ∧
        (ticked s).wt.wtGetClockIntervalInMilliSec = s.wt.wtGetClockIntervalInMilliSec ∧
        (ticked s).wt.wheelSize = s.wt.wheelSize := by
      rw [ticked, WheelTimer.advanceClock]
      split_ifs <;> exact ⟨rfl, rfl, rfl, rfl, rfl⟩
    obtain ⟨slots, queue, elems, clock, size⟩ := kept
    refine ⟨⟨clock.trans barren.clock, fun slotNo => slots ▸ barren.slots slotNo, queue.trans barren.queue,
      fun e => elems ▸ barren.elems e, fun e phase => ?_, fun _ _ phase => by cases phase⟩, size⟩
    have empty (slotNo : ℕ) : (ticked s).wt.slotlist slotNo = [] := slots ▸ barren.slots slotNo
    have head : ((ticked s).wt.slotlist (ticked s).wt.currentClockTic).head? = some e :=
      WheelPhase.walking.inj phase
    rw [empty] at head
    cases head
  | invoke e n =>
    obtain ⟨phase, _⟩ := step_invoke step
    exact (barren.unwalked e phase).elim
  | returned =>
    obtain ⟨e, next, _, phase, _⟩ := step_returned step
    exact (barren.uninvoked e next phase).elim
  | stop =>
    obtain ⟨_, rfl⟩ := step_stop step
    exact ⟨barren.settled (.inr rfl), rfl⟩
  | process queued =>
    obtain ⟨_, _, wt', ran, rfl⟩ := step_process step
    rw [WheelTimer.processWtRescheduleSlotlist, barren.queue] at ran
    obtain rfl := Option.some.inj ran
    exact ⟨barren.settled (.inl rfl), rfl⟩

theorem barren_start {wheelSize clockTicInterval : ℕ} {timerResolution : TimerResolution}
    (clock : (start wheelSize clockTicInterval timerResolution).wt.wtGetClockIntervalInMilliSec = 0) :
    Barren (start wheelSize clockTicInterval timerResolution) :=
  ⟨clock, fun _ => rfl, rfl, fun _ => rfl, fun _ walks =>
    (by cases walks), fun _ _ invokes => (by cases invokes)⟩

/-- The state of a wheel in a run, with a clock that moves or one that does not. -/
def Regular (s : WheelThread) : Prop := Timely s ∨ Barren s

theorem Regular.placed (regular : Regular s) : Refinement.LinkedWheel.Placed s :=
  regular.elim Refinement.LinkedWheel.placed_of_timely Barren.placed

theorem regular_step (regular : Regular s) (step : Guarded Step SlotNosFit s event t) :
    Regular t ∧ t.wt.wheelSize = s.wt.wheelSize := by
  rcases regular with timely | barren
  · refine ⟨.inl (refines timely step.1 step.2).1, ?_⟩
    by_cases timed : event = .tick
    · subst timed
      obtain ⟨_, rfl⟩ := step_tick step.2
      rw [ticked, (advanceClock_spec timely.tic).2.2]
    · exact (sameClock_step timely step.1 step.2 timed).size
  · obtain ⟨barren', size⟩ := barren_step barren step.2
    exact ⟨.inr barren', size⟩

theorem regular_start {wheelSize clockTicInterval : ℕ} {timerResolution : TimerResolution}
    (slots : 0 < wheelSize) :
    Regular (start wheelSize clockTicInterval timerResolution) := by
  rcases Nat.eq_zero_or_pos
    (start wheelSize clockTicInterval timerResolution).wt.wtGetClockIntervalInMilliSec with clock | clock
  · exact .inr (barren_start clock)
  · exact .inl (timely_start slots clock)

theorem noneMissing_start {wheelSize clockTicInterval : ℕ} {timerResolution : TimerResolution} :
    NoneMissing (fun _ => false) (start wheelSize clockTicInterval timerResolution) := by
  constructor
  · intro e elem found
    cases found
  · intro e next invokes
    cases invokes

theorem noneMissing_regular (regular : Regular s) (none : NoneMissing fired s)
    (path : Path (Guarded Step SlotNosFit) s events t) :
    Regular t ∧ NoneMissing (events.foldl noteFiring fired) t := by
  rcases regular with timely | barren
  · exact ⟨.inl (refines_path timely path).1, noneMissing_path timely none path⟩
  · have barren' : Barren t := path.invariant (fun step barren => (barren_step barren step.2).1) barren
    refine ⟨.inr barren', fun e elem found => ?_, fun e next phase => (barren'.uninvoked e next phase).elim⟩
    cases (barren'.elems e).symm.trans found

/-- After a drain nothing is queued, and everything in a slot is for a later moment. -/
theorem regular_drained {queued : List WheelTimerElemRef} (regular : Regular s)
    (drain : Guarded Step SlotNosFit s (.process queued) t) :
    t.wt.reschdList = [] ∧ ∀ e n, dueOf t.wt e = some n → t.wt.currentAbsSlotNo < n := by
  rcases regular with timely | barren
  · have timely' := (refines timely drain.1 drain.2).1
    obtain ⟨_, _, wt', ran, rfl⟩ := step_process drain.2
    have idle := timely'.loop
    rw [Loop] at idle
    exact ⟨reschdList_drained timely (processWtRescheduleSlotlist_spec timely.tidy ran),
      fun e n due => timely'.later idle due⟩
  · have barren' := (barren_step barren drain.2).1
    refine ⟨barren'.queue, fun e n due => ?_⟩
    obtain ⟨_, slot, _, member, _⟩ := dueOf_eq_some due
    rw [barren'.slots] at member
    cases member

/-- Every element of a slot names the slot. -/
theorem Regular.linked (regular : Regular s) {slot : ℕ} (member : e ∈ s.wt.slotlist slot) :
    slot < s.wt.wheelSize ∧ ∃ cycle, placeOf s.wt e = some (cycle, slot) := by
  rcases regular with timely | barren
  · exact timely.tidy.linked member
  · rw [barren.slots] at member
    cases member

theorem Regular.sorted (regular : Regular s) (slot : ℕ) :
    (s.wt.slotlist slot).Pairwise fun e f => s.wt.executeCycleNo e ≤ s.wt.executeCycleNo f := by
  rcases regular with timely | barren
  · exact timely.tidy.sorted slot
  · rw [barren.slots]
    exact .nil

end WheelThread

namespace LinkedWheel

open Model.LinkedWheel Refinement.LinkedWheel

/-- The slots of a wheel of the given size hold these lists, and all of it is for a later moment. -/
structure SlotLists (wheelSize : ℕ) (w : LinkedWheel) (lists : ℕ → List WheelTimerElemRef) : Prop where
  isPath : ∀ i, w.links.IsPath (.slotlist i :: (lists i).map .glue)
  sorted : ∀ i, (lists i).Pairwise fun e f => w.wt.executeCycleNo e ≤ w.wt.executeCycleNo f
  placed : ∀ i, ∀ e ∈ lists i, i < wheelSize ∧ ∃ elem, w.wt.elems e = some elem ∧ elem.slotNo = i ∧
    w.wt.currentAbsSlotNo < elem.executeCycleNo * wheelSize + elem.slotNo

variable {wheelSize clockTicInterval : ℕ} {timerResolution : TimerResolution}
  {events : List WheelEvent} {w w' : LinkedWheel} {s : WheelThread}

theorem slotLists_of_shows (shows : Shows w s) (regular : WheelThread.Regular s)
    (size : s.wt.wheelSize = wheelSize)
    (later : ∀ e n, dueOf s.wt e = some n → s.wt.currentAbsSlotNo < n) :
    SlotLists wheelSize w s.wt.slotlist := by
  subst size
  constructor
  · exact fun i => shows.chains.isPath _ (isHead_slotlist i)
  · intro i
    rw [shows.data]
    exact regular.sorted i
  · intro i e member
    obtain ⟨bound, cycle, place⟩ := regular.linked member
    obtain ⟨elem, found, same⟩ := Option.map_eq_some_iff.mp place
    obtain ⟨rfl, rfl⟩ := Prod.mk.inj same
    refine ⟨bound, elem, ?_, rfl, ?_⟩
    · rw [shows.data]
      exact found
    · rw [shows.data]
      exact later e _ (dueOf_linked place member)

/-- A run on the links is a run on the lists. -/
theorem run_shows (slots : 0 < wheelSize)
    (run : Path (Guarded Model.LinkedWheel.Step Refinement.LinkedWheel.SlotNosFit)
      (Model.LinkedWheel.start wheelSize clockTicInterval timerResolution) events w) :
    ∃ s, Path (Guarded WheelThread.Step WheelThread.SlotNosFit)
    (WheelThread.start wheelSize clockTicInterval timerResolution) events s ∧
      Shows w s ∧ WheelThread.Regular s ∧ s.wt.wheelSize = wheelSize := by
  have initially := shows_start wheelSize clockTicInterval timerResolution
  refine run.simulate (R := fun w s => Shows w s ∧ WheelThread.Regular s ∧ s.wt.wheelSize = wheelSize)
    (fun step related => ?_) ⟨initially, WheelThread.regular_start slots, rfl⟩
  obtain ⟨shows, regular, size⟩ := related
  obtain ⟨t, step', shows'⟩ := step_shows step shows regular.placed
  obtain ⟨regular', size'⟩ := WheelThread.regular_step regular step'
  exact ⟨t, step', shows', regular', size'.trans size⟩

theorem exists_run (slots : 0 < wheelSize)
    (run : Path (Guarded WheelThread.Step WheelThread.SlotNosFit)
      (WheelThread.start wheelSize clockTicInterval timerResolution) events s) :
    ∃ w, Path (Guarded Model.LinkedWheel.Step Refinement.LinkedWheel.SlotNosFit)
      (Model.LinkedWheel.start wheelSize clockTicInterval timerResolution) events w ∧ Shows w s ∧
      WheelThread.Regular s := by
  refine run.simulate (R := fun s w => Shows w s ∧ WheelThread.Regular s) (fun step related => ?_)
    ⟨shows_start wheelSize clockTicInterval timerResolution, WheelThread.regular_start slots⟩
  obtain ⟨shows, regular⟩ := related
  obtain ⟨w', step', shows'⟩ := exists_step step shows regular.placed
  exact ⟨w', step', shows', (WheelThread.regular_step regular step).1⟩

end LinkedWheel

open LinkedWheel

variable {wheelSize clockTicInterval : ℕ} {timerResolution : TimerResolution}
  {events : List WheelEvent} {w w' : LinkedWheel} {queued : List WheelTimerElemRef}

/-- After the drain that ends a tick, an element that comes again, or has not fired since it was last in a
drain, is in one slot. -/
theorem wheel_lists (slots : 0 < wheelSize)
    (run : Path (Guarded Model.LinkedWheel.Step Refinement.LinkedWheel.SlotNosFit)
      (Model.LinkedWheel.start wheelSize clockTicInterval timerResolution) events w)
    (drain : Guarded Model.LinkedWheel.Step Refinement.LinkedWheel.SlotNosFit w (.process queued) w') :
    ∃ lists, SlotLists wheelSize w' lists ∧ w'.links.IsPath [.reschdList] ∧
      ∀ e elem, w'.wt.elems e = some elem →
        (elem.isRecurrence = true ∨ WheelThread.firedSinceDrain (events ++ [.process queued]) e = false) →
        ∃! i, e ∈ lists i := by
  obtain ⟨s, run', shows, regular, size⟩ := run_shows slots run
  obtain ⟨t, drain', shows'⟩ := Refinement.LinkedWheel.step_shows drain shows regular.placed
  obtain ⟨regular', size'⟩ := WheelThread.regular_step regular drain'
  obtain ⟨emptied, later⟩ := WheelThread.regular_drained regular drain'
  refine ⟨t.wt.slotlist, slotLists_of_shows shows' regular' (size'.trans size) later, ?_, ?_⟩
  · have queue := shows'.chains.isPath _ Refinement.LinkedWheel.isHead_reschdList
    rw [Refinement.LinkedWheel.nodesOf, emptied] at queue
    exact queue
  · intro e elem found waits
    have path := run'.append (.cons drain' (.nil t))
    have none := (WheelThread.noneMissing_regular (WheelThread.regular_start slots)
        WheelThread.noneMissing_start path).2
    rw [shows'.data] at found
    have linked : dueOf t.wt e ≠ .none := by
      intro due
      obtain ⟨single, fired⟩ := none.linked e elem found due (emptied ▸ List.not_mem_nil)
      rcases waits with recurs | unfired
      · cases recurs.symm.trans single
      · cases unfired.symm.trans fired
    obtain ⟨n, due⟩ := Option.ne_none_iff_exists'.mp linked
    obtain ⟨cycle, slot, place, member, _⟩ := dueOf_eq_some due
    refine ⟨slot, member, fun other there => ?_⟩
    obtain ⟨_, cycle', place'⟩ := regular'.linked there
    exact (Prod.mk.inj (Option.some.inj (place'.symm.trans place))).2

def twoElements : List WheelEvent :=
  [.register 7 1 0 0 2 true, .register 8 1 0 0 1 false, .tick, .stop, .process [8, 7], .tick,
    .invoke 8 2, .returned, .stop,
    .process [], .tick, .invoke 7 3, .reschedule 8 4, .returned, .stop]

def beforeDrain : WheelThread :=
  replayed WheelThread.step WheelThread.SlotNosFit (WheelThread.start 2 1 .milliSeconds) twoElements

def afterDrain : WheelThread := replayed WheelThread.step WheelThread.SlotNosFit beforeDrain [.process [8]]

theorem wheel_lists_two : ∃ w w' lists,
    Path (Guarded Model.LinkedWheel.Step Refinement.LinkedWheel.SlotNosFit)
    (Model.LinkedWheel.start 2 1 .milliSeconds) twoElements w ∧
      Guarded Model.LinkedWheel.Step Refinement.LinkedWheel.SlotNosFit w (.process [8]) w' ∧
      SlotLists 2 w' lists ∧ w'.links.IsPath [.reschdList] ∧ (∃! i, 7 ∈ lists i) ∧
      ∃! i, 8 ∈ lists i := by
  have run : Path (Guarded WheelThread.Step WheelThread.SlotNosFit)
      (WheelThread.start 2 1 .milliSeconds) twoElements beforeDrain :=
    replayed_path (by decide +kernel)
  have drain : Guarded WheelThread.Step WheelThread.SlotNosFit beforeDrain (.process [8]) afterDrain :=
    replayed_step (by decide +kernel)
  have recurs : (afterDrain.wt.elems 7).any (·.isRecurrence) = true := by decide +kernel
  have kept : (afterDrain.wt.elems 8).isSome = true := by decide +kernel
  obtain ⟨elem, found, recurs⟩ := (Option.any_eq_true _ _).mp recurs
  obtain ⟨elem', found'⟩ := Option.isSome_iff_exists.mp kept
  obtain ⟨w, run', shows, regular⟩ := exists_run (by decide) run
  obtain ⟨w', drain', shows'⟩ := Refinement.LinkedWheel.exists_step drain shows regular.placed
  obtain ⟨lists, slotLists, queue, linked⟩ := wheel_lists (by decide) run' drain'
  have same := shows'.elems
  refine ⟨w, w', lists, run', drain', slotLists, queue, ?_, ?_⟩
  · exact linked 7 elem ((congrFun same 7).trans found) (.inl recurs)
  · exact linked 8 elem' ((congrFun same 8).trans found') (.inr (by decide))

end TcpServerLib.Soundness
