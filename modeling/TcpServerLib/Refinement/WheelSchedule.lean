import TcpServerLib.Machine.Schedule
import TcpServerLib.Refinement.WheelRequests

/-! # The wheel as a schedule

The wheel thread with its slots is a schedule of the elements: the clock may move on once nothing is
due any more, and the loop over the current slot, which stops at the first element of another cycle,
finds all that is due. Requests leave the schedule as it is, and a drain replans what is queued.
-/

namespace TcpServerLib.Refinement

open Machine Model

namespace WheelTimer

open Model.WheelTimer

variable {wt wt' : WheelTimer} {e d : WheelTimerElemRef} {elem : WheelTimerElem} {next : ℕ}

/-- A tick advances the absolute slot by one and nothing else. -/
theorem advanceClock_spec (tic : wt.currentClockTic < wt.wheelSize) :
    wt.advanceClock.currentAbsSlotNo = wt.currentAbsSlotNo + 1 ∧ wt.advanceClock.currentClockTic <
    wt.wheelSize ∧
      wt.advanceClock = { wt with
        currentClockTic := wt.advanceClock.currentClockTic, currentCycleNo :=
      wt.advanceClock.currentCycleNo } := by
  rw [advanceClock]
  split_ifs with last
  · refine ⟨?_, Nat.pos_of_ne_zero (Nat.ne_of_gt (Nat.zero_lt_of_lt tic)), rfl⟩
    simp only [currentAbsSlotNo, Nat.add_one_mul]
    omega
  · refine ⟨?_, by dsimp only; omega, rfl⟩
    rw [currentAbsSlotNo, currentAbsSlotNo]
    dsimp only
    omega

/-- The next slot is ahead by the interval, as long as it fits. -/
theorem nextAbsSlotNo_of_lt {interval : Int32} (fits : wt.currentAbsSlotNo + wt.slotsOf interval < 2 ^ 31) :
    wt.nextAbsSlotNo interval = some (wt.currentAbsSlotNo + wt.slotsOf interval) := by
  have small : (wt.currentAbsSlotNo + wt.slotsOf interval) % 2 ^ 32 = wt.currentAbsSlotNo + wt.slotsOf interval :=
    Nat.mod_eq_of_lt (fits.trans (by decide))
  rw [nextAbsSlotNo, small]
  exact if_pos fits

/-- After its callback an element recurs or leaves its slot. -/
theorem afterCallback_eq (found : wt.elems e = some elem) : wt.afterCallback e =
    if elem.isRecurrence then (wt.nextAbsSlotNo elem.timeInterval).map ((wt.removeGlue e).insertAt e)
    else some (wt.removeGlue e) := by
  rw [afterCallback, found]
  change (if elem.isRecurrence then (wt.nextAbsSlotNo elem.timeInterval).bind _ else _) = _
  split_ifs
  · rw [Option.map_eq_bind]
    rfl
  · rfl

/-- What comes of an element of the current slot after its callback. The rest of the slot may have got the
element back, behind the place at which the loop goes on or among those of later cycles before it. -/
structure Returned (e : WheelTimerElemRef) (rest : List WheelTimerElemRef) (wt wt' : WheelTimer) : Prop where
  tidy : Tidy wt'
  clock : SameClock wt wt'
  others : ∀ d, d ≠ e → SameElem wt wt' d
  due : dueOf wt' e = (periodOf wt e).map (wt.currentAbsSlotNo + ·)
  queue : wt'.reschdList = wt.reschdList
  found : ∀ elem, wt.elems e = some elem → ∃ elem', wt'.elems e = some elem' ∧
    elem'.opcode = elem.opcode ∧
    elem'.newTimeInterval = elem.newTimeInterval ∧ elem'.timeInterval = elem.timeInterval ∧
    elem'.isRecurrence = elem.isRecurrence
  slot : ∃ passed behind, wt'.slotlist wt.currentClockTic = passed ++ behind ∧ rest.head? = behind.head? ∧
    ∀ d ∈ passed, wt.currentCycleNo < wt'.executeCycleNo d

theorem sameElem_removeGlue (tidy : Tidy wt) (other : d ≠ e) : SameElem wt (wt.removeGlue e) d :=
  ⟨rfl, dueOf_removeGlue tidy other, Iff.rfl, rfl⟩

theorem sameElem_insertAt (other : d ≠ e) : SameElem wt (wt.insertAt e next) d :=
  ⟨elems_insertAt_of_ne other, dueOf_insertAt_of_ne other, Iff.rfl, rfl⟩

/-- An element of the current slot that is put at a later absolute slot number. -/
theorem slot_insertAt {rest : List WheelTimerElemRef} (found : wt.elems e = some elem)
    (slot : wt.slotlist wt.currentClockTic = rest) (later : wt.currentAbsSlotNo < next) :
    ∃ passed behind, (wt.insertAt e next).slotlist wt.currentClockTic = passed ++ behind ∧
    rest.head? = behind.head? ∧
      ∀ d ∈ passed, wt.currentCycleNo < (wt.insertAt e next).executeCycleNo d := by
  rw [slotlist_insertAt, Function.update_apply]
  split_ifs with same
  · rw [← same, slot]
    obtain ⟨before, behind, rfl, inserted, _⟩ := glthreadPriorityInsert_split
      (wt.setElem e fun elem => { elem with
        executeCycleNo := next / wt.wheelSize, slotNo := next % wt.wheelSize }).insertWtElemInSlot e rest
    cases before with
    | cons first before =>
      exact ⟨[], first :: (before ++ e :: behind), by rwa [same], rfl, fun _ member => by cases member⟩
    | nil =>
      refine ⟨[e], behind, by rwa [same], rfl, fun d member => ?_⟩
      obtain rfl := List.mem_singleton.mp member
      rw [executeCycleNo_eq, placeOf_insertAt found]
      -- the same slot later is a later cycle
      have split := Nat.div_add_mod' next wt.wheelSize
      by_contra behind
      have cycles := Nat.mul_le_mul_right wt.wheelSize (Nat.le_of_not_lt behind)
      rw [currentAbsSlotNo] at later
      dsimp only [Option.elim] at cycles
      omega
  · exact ⟨[], rest, slot, rfl, fun _ member => by cases member⟩

/-- The same, with what stays of the rest of the wheel. -/
theorem afterCallback_spec {rest : List WheelTimerElemRef} (tidy : Tidy wt)
    (slot : wt.slotlist wt.currentClockTic = e :: rest) (found : wt.elems e = some elem)
    (positive : ∀ k, periodOf wt e = some k → 0 < k)
    (fits : elem.isRecurrence → wt.currentAbsSlotNo + wt.slotsOf elem.timeInterval < 2 ^ 31)
    (ran : wt.afterCallback e = some wt') : Returned e rest wt wt' := by
  have member : e ∈ wt.slotlist wt.currentClockTic := slot ▸ List.mem_cons_self
  obtain ⟨_, cycle, place⟩ := tidy.linked member
  have period := periodOf_found found (dueOf_linked place member)
  have removed : (wt.removeGlue e).slotlist wt.currentClockTic = rest := by
    change (wt.slotlist wt.currentClockTic).erase e = rest
    rw [slot, List.erase_cons_head]
  rw [afterCallback_eq found] at ran
  split_ifs at ran with recurrence
  · rw [if_pos recurrence] at period
    rw [nextAbsSlotNo_of_lt (fits recurrence)] at ran
    obtain rfl := Option.some.inj ran
    have tidy' := tidy.removeGlue (e := e)
    have found' : (wt.removeGlue e).elems e = some elem := found
    have absent := unlinked_of_dueOf tidy' (dueOf_removeGlue_self tidy)
    constructor
    · exact tidy'.insertAt found' absent
    · exact sameClock_removeGlue.trans sameClock_insertAt
    · exact fun d other => (sameElem_removeGlue tidy other).trans (sameElem_insertAt other)
    · rw [dueOf_insertAt found', period]
      rfl
    · rfl
    · intro elem found
      have removed' : (wt.removeGlue e).elems e = some elem := found
      exact ⟨_, elems_insertAt removed', rfl, rfl, rfl, rfl⟩
    · exact slot_insertAt found' removed (Nat.lt_add_of_pos_right (positive _ period))
  · rw [if_neg recurrence] at period
    obtain rfl := Option.some.inj ran
    constructor
    · exact tidy.removeGlue
    · exact sameClock_removeGlue
    · exact fun d other => sameElem_removeGlue tidy other
    · rw [dueOf_removeGlue_self tidy, period]
      rfl
    · rfl
    · exact fun elem found => ⟨elem, found, rfl, rfl, rfl, rfl⟩
    · exact ⟨[], rest, removed, rfl, fun _ member => by cases member⟩

theorem Returned.period {rest : List WheelTimerElemRef} (returned : Returned e rest wt wt') :
    periodOf wt' d = periodOf wt d := by
  by_cases same : d = e
  · subst same
    cases period : periodOf wt d with
    | none =>
      have due := returned.due
      rw [period] at due
      rw [periodOf, due]
      rfl
    | some k =>
      obtain ⟨n, due, found⟩ := Option.bind_eq_some_iff.mp period
      obtain ⟨elem, found, _⟩ := Option.bind_eq_some_iff.mp found
      obtain ⟨elem', found', _, _, interval, recurrence⟩ := returned.found elem found
      have due' := returned.due
      rw [period] at due'
      rw [periodOf_found found' due', recurrence, interval, returned.clock.slotsOf, ← periodOf_found found due]
      exact period
  · have others := returned.others d same
    refine periodOf_congr returned.clock others.due fun _ elem found =>
      ⟨elem, others.elem.trans found, rfl, rfl⟩

/-- Linked elements due at one absolute slot number are in one slot, for one cycle. -/
theorem due_iff (tidy : Tidy wt) (tic : wt.currentClockTic < wt.wheelSize) :
    dueOf wt e = some wt.currentAbsSlotNo ↔
    e ∈ wt.slotlist wt.currentClockTic ∧ wt.executeCycleNo e = wt.currentCycleNo := by
  constructor
  · intro due
    obtain ⟨cycle, slot, place, member, here⟩ := dueOf_eq_some due
    have slotBound := (tidy.linked member).1
    have same : wt.currentCycleNo = cycle ∧ wt.currentClockTic = slot := by
      rw [currentAbsSlotNo, Nat.mul_comm _ wt.wheelSize, Nat.mul_comm _ wt.wheelSize] at here
      have slots := congrArg (· % wt.wheelSize) here
      have cycles := congrArg (· / wt.wheelSize) here
      simp only [Nat.mul_add_mod, Nat.mod_eq_of_lt tic, Nat.mod_eq_of_lt slotBound, Nat.mul_add_div tidy.positive,
        Nat.div_eq_of_lt tic, Nat.div_eq_of_lt slotBound, Nat.add_zero] at slots cycles
      exact ⟨cycles, slots⟩
    rw [same.1, same.2, executeCycleNo_eq, place]
    exact ⟨member, rfl⟩
  · rintro ⟨member, cycle⟩
    obtain ⟨_, cycle', place⟩ := tidy.linked member
    rw [executeCycleNo_eq, place] at cycle
    rw [dueOf_linked place member, currentAbsSlotNo, ← cycle]
    rfl

/-- In the current slot, another cycle is another absolute slot number. -/
theorem due_of_mem (tidy : Tidy wt) (member : e ∈ wt.slotlist wt.currentClockTic) :
    dueOf wt e = some (wt.executeCycleNo e * wt.wheelSize + wt.currentClockTic) := by
  obtain ⟨_, cycle, place⟩ := tidy.linked member
  rw [dueOf_linked place member, executeCycleNo_eq, place]
  rfl

end WheelTimer

namespace WheelThread

open Model.WheelThread WheelTimer

/-- What the loop over the current slot has still to look at. What it has passed is for a later cycle. -/
def Loop (s : WheelThread) : Prop :=
  match s.phase with
  | .walking curr => ∃ passed rest, s.wt.slotlist s.wt.currentClockTic = passed ++ rest ∧
      curr = rest.head? ∧ ∀ e ∈ passed, s.wt.currentCycleNo < s.wt.executeCycleNo e
  | .invoking e next => ∃ rest, s.wt.slotlist s.wt.currentClockTic = e :: rest ∧ next = rest.head? ∧
      s.wt.executeCycleNo e = s.wt.currentCycleNo
  | .idle | .processing => ∀ e, dueOf s.wt e ≠ some s.wt.currentAbsSlotNo

/-- No element has been missed, and whatever is planned comes back at a later moment. -/
structure Timely (s : WheelThread) : Prop where
  tidy : Tidy s.wt
  clock : 0 < s.wt.wtGetClockIntervalInMilliSec
  tic : s.wt.currentClockTic < s.wt.wheelSize
  ahead : ∀ e d, dueOf s.wt e = some d → s.wt.currentAbsSlotNo ≤ d
  period : ∀ e k, periodOf s.wt e = some k → 0 < k
  queued : ∀ e ∈ s.wt.reschdList, ∃ elem, s.wt.elems e = some elem ∧
    (elem.opcode = .delete ∨ (elem.opcode = .create ∨ elem.opcode = .resched) ∧
      0 < s.wt.slotsOf elem.newTimeInterval)
  loop : Loop s

/-- The element whose callback is running. -/
def inCallback : WheelPhase → Option WheelTimerElemRef
  | .invoking e _ => some e
  | _ => none

/-- The absolute slot numbers that the wheel thread computes stay below `2 ^ 31`. -/
def SlotNosFit (s : WheelThread) : WheelEvent → Prop
  | .returned => ∀ e ∈ inCallback s.phase, ∀ elem ∈ s.wt.elems e, elem.isRecurrence →
      s.wt.currentAbsSlotNo + s.wt.slotsOf elem.timeInterval < 2 ^ 31
  | .process queued => ∀ e ∈ queued, ∀ elem ∈ s.wt.elems e, elem.opcode ≠ .delete →
      s.wt.currentAbsSlotNo + s.wt.slotsOf elem.newTimeInterval < 2 ^ 31
  | _ => True

instance (s : WheelThread) : (event : WheelEvent) → Decidable (SlotNosFit s event)
  | .returned => inferInstanceAs
      (Decidable (∀ e ∈ inCallback s.phase, ∀ elem ∈ s.wt.elems e, elem.isRecurrence →
      s.wt.currentAbsSlotNo + s.wt.slotsOf elem.timeInterval < 2 ^ 31))
  | .process queued =>
      inferInstanceAs (Decidable (∀ e ∈ queued, ∀ elem ∈ s.wt.elems e, elem.opcode ≠ .delete →
      s.wt.currentAbsSlotNo + s.wt.slotsOf elem.newTimeInterval < 2 ^ 31))
  | .register .. | .reschedule .. | .deRegister _ | .tick | .invoke .. | .stop => .isTrue trivial

/-- An element whose callback is running has its next place already. -/
def schedule (s : WheelThread) : Schedule WheelTimerElemRef where
  now := s.wt.currentAbsSlotNo
  due e := match s.phase with
    | .invoking f _ => if e = f then (periodOf s.wt e).map (s.wt.currentAbsSlotNo + ·) else dueOf s.wt e
    | _ => dueOf s.wt e
  period := periodOf s.wt

/-- What an event of the wheel is to the schedule. -/
def scheduleEvents : WheelEvent → List (Schedule.Event WheelTimerElemRef)
  | .tick => [.advance]
  | .invoke e absoluteSlotNo => [.fire e absoluteSlotNo]
  | .process queued => [.replan queued]
  | _ => []

variable {s t : WheelThread} {e d : WheelTimerElemRef} {event : WheelEvent} {wt' : WheelTimer}
  {next : Option WheelTimerElemRef}

/-- Once the slot is done, what is still due is due later. -/
theorem Timely.later (timely : Timely s) (idle : ∀ e, dueOf s.wt e ≠ some s.wt.currentAbsSlotNo) {n : ℕ}
    (due : dueOf s.wt e = some n) : s.wt.currentAbsSlotNo < n := by
  refine (timely.ahead e n due).lt_of_ne ?_
  rintro rfl
  exact idle e due

theorem loop_request {opcode : WtOpcode} {interval : Int32} (timely : Timely s)
    (requested : Requested opcode interval e s.wt wt') :
    Loop { s with wt := wt' } := by
  have loop := timely.loop
  have now := requested.clock.currentAbsSlotNo
  rw [Loop] at loop ⊢
  rw [requested.slots, requested.clock.tic, requested.clock.cycle]
  cases phase : s.phase with
  | idle | processing =>
    rw [phase] at loop
    intro d due
    rw [requested.due timely.tidy, now] at due
    exact loop d due
  | walking curr =>
    rw [phase] at loop
    obtain ⟨passed, rest, slot, head, later⟩ := loop
    refine ⟨passed, rest, slot, head, fun d member => ?_⟩
    rw [requested.executeCycleNo timely.tidy (slot ▸ List.mem_append_left rest member)]
    exact later d member
  | invoking f next =>
    rw [phase] at loop
    obtain ⟨rest, slot, head, cycle⟩ := loop
    refine ⟨rest, slot, head, ?_⟩
    rw [requested.executeCycleNo timely.tidy (slot ▸ List.mem_cons_self)]
    exact cycle

/-- A request for a positive interval keeps the wheel timely. -/
theorem timely_request {opcode : WtOpcode} {interval : Int32} (timely : Timely s)
    (requested : Requested opcode interval e s.wt wt')
    (known : opcode = .delete ∨ (opcode = .create ∨ opcode = .resched) ∧ 0 < s.wt.slotsOf interval) :
    Timely { s with wt := wt' } := by
  have clock := requested.clock
  constructor
  · exact requested.tidy
  · rw [wtGetClockIntervalInMilliSec, clock.interval, clock.resolution]
    exact timely.clock
  · rw [clock.tic, clock.size]
    exact timely.tic
  · intro d n due
    rw [clock.currentAbsSlotNo]
    exact timely.ahead d n ((requested.due timely.tidy).symm.trans due)
  · intro d k period
    exact timely.period d k ((requested.period timely.tidy).symm.trans period)
  · intro d member
    simp only [clock.slotsOf]
    by_cases same : d = e
    · subst same
      obtain ⟨elem, found, rfl, rfl, _⟩ := requested.found
      exact ⟨elem, found, known⟩
    · have others := requested.others d same
      rw [others.elem]
      obtain ⟨elem, found, known⟩ := timely.queued d (others.queued.mp member)
      exact ⟨elem, found, known⟩
  · exact loop_request timely requested

theorem schedule_request {opcode : WtOpcode} {interval : Int32} (timely : Timely s)
    (requested : Requested opcode interval e s.wt wt') : schedule { s with wt := wt' } = schedule s := by
  have period : periodOf wt' = periodOf s.wt := funext fun d => requested.period timely.tidy
  have due : dueOf wt' = dueOf s.wt := funext fun d => requested.due timely.tidy
  rw [schedule, schedule, requested.clock.currentAbsSlotNo, period, due]

theorem dueOf_advanceClock (tic : s.wt.currentClockTic < s.wt.wheelSize) :
    dueOf s.wt.advanceClock e = dueOf s.wt e := by
  rw [(advanceClock_spec tic).2.2]
  rfl

theorem periodOf_advanceClock (tic : s.wt.currentClockTic < s.wt.wheelSize) :
    periodOf s.wt.advanceClock e = periodOf s.wt e := by
  rw [(advanceClock_spec tic).2.2]
  rfl

/-- The loop begins at the head of the slot. -/
def ticked (s : WheelThread) : WheelThread :=
  { wt := s.wt.advanceClock
    phase := .walking (s.wt.advanceClock.slotlist s.wt.advanceClock.currentClockTic).head? }

theorem timely_ticked (timely : Timely s) (phase : s.phase = .idle) : Timely (ticked s) := by
  have idle : ∀ e, dueOf s.wt e ≠ some s.wt.currentAbsSlotNo := by
    have loop := timely.loop
    rwa [Loop, phase] at loop
  obtain ⟨now, bound, moved⟩ := advanceClock_spec timely.tic
  have same : s.wt.advanceClock.slotlist = s.wt.slotlist := by rw [moved]
  constructor
  · refine timely.tidy.congr ?_ same (fun _ => ?_) ?_
    · rw [ticked, moved]
    · rw [ticked, moved]
      rfl
    · rw [ticked, moved]
      exact timely.tidy.queued
  · rw [ticked, moved]
    exact timely.clock
  · rw [ticked]
    exact bound.trans_eq (congrArg WheelTimer.wheelSize moved).symm
  · intro e n due
    rw [ticked, now]
    exact timely.later idle ((dueOf_advanceClock timely.tic).symm.trans due)
  · intro e k period
    exact timely.period e k ((periodOf_advanceClock timely.tic).symm.trans period)
  · rw [ticked, moved]
    exact timely.queued
  · exact ⟨[], _, rfl, rfl, fun _ member => (List.not_mem_nil member).elim⟩

theorem schedule_ticked (timely : Timely s) (phase : s.phase = .idle) :
    schedule (ticked s) = { schedule s with now := (schedule s).now + 1 } := by
  have period : periodOf s.wt.advanceClock = periodOf s.wt := funext fun d => periodOf_advanceClock timely.tic
  have due : dueOf s.wt.advanceClock = dueOf s.wt := funext fun d => dueOf_advanceClock timely.tic
  rw [schedule, schedule, ticked, phase, period, due, (advanceClock_spec timely.tic).1]

theorem later_idle (timely : Timely s) (phase : s.phase = .idle ∨ s.phase = .processing)
    (e : WheelTimerElemRef) :
    (schedule s).Later e := by
  intro n due
  have loop := timely.loop
  rcases phase with phase | phase
  · rw [Loop, phase] at loop
    rw [schedule, phase] at due
    exact timely.later loop due
  · rw [Loop, phase] at loop
    rw [schedule, phase] at due
    exact timely.later loop due

/-- An element whose turn it is heads the slot. -/
theorem slot_of_turn (timely : Timely s) (phase : s.phase = .walking (some e))
    (cycle : s.wt.currentCycleNo = s.wt.executeCycleNo e) :
    ∃ rest, s.wt.slotlist s.wt.currentClockTic = e :: rest := by
  have loop := timely.loop
  rw [Loop, phase] at loop
  obtain ⟨passed, rest, slot, head, later⟩ := loop
  obtain ⟨rest', rfl⟩ : ∃ rest', rest = e :: rest' := by
    cases rest with
    | nil => cases head
    | cons first rest' => exact ⟨rest', by rw [Option.some.inj head]⟩
  cases passed with
  | nil => exact ⟨rest', slot⟩
  | cons first passed =>
    have sorted := timely.tidy.sorted s.wt.currentClockTic
    rw [slot] at sorted
    have order := (List.pairwise_append.mp sorted).2.2 first List.mem_cons_self e List.mem_cons_self
    have ahead := later first List.mem_cons_self
    omega

def invoked (s : WheelThread) (e : WheelTimerElemRef) : WheelThread :=
  { s with phase := .invoking e (glthreadRight e (s.wt.slotlist s.wt.currentClockTic)) }

theorem timely_invoked (timely : Timely s) (phase : s.phase = .walking (some e))
    (cycle : s.wt.currentCycleNo = s.wt.executeCycleNo e) : Timely (invoked s e) := by
  obtain ⟨rest, slot⟩ := slot_of_turn timely phase cycle
  refine ⟨timely.tidy, timely.clock, timely.tic, timely.ahead, timely.period, timely.queued, rest,
    slot, ?_, cycle.symm⟩
  rw [slot, glthreadRight_head]

theorem schedule_invoked (timely : Timely s) (phase : s.phase = .walking (some e))
    (cycle : s.wt.currentCycleNo = s.wt.executeCycleNo e) :
    Schedule.Step (schedule s) (.fire e s.wt.currentAbsSlotNo) (schedule (invoked s e)) := by
  obtain ⟨rest, slot⟩ := slot_of_turn timely phase cycle
  have due : (schedule s).due e = some (schedule s).now := by
    rw [schedule, phase]
    exact (due_iff timely.tidy timely.tic).mpr ⟨slot ▸ List.mem_cons_self, cycle.symm⟩
  have fired : schedule (invoked s e) = { schedule s with
      due := Function.update (schedule s).due e (((schedule s).period e).map ((schedule s).now + ·)) } := by
    rw [schedule, schedule, invoked, phase]
    congr 1
    funext d
    rw [Function.update_apply]
    by_cases same : d = e
    · subst same
      exact (if_pos rfl).trans (if_pos rfl).symm
    · exact (if_neg same).trans (if_neg same).symm
  rw [fired]
  exact .fire due

theorem timely_stopped (timely : Timely s) (stop : s.phase = .walking none ∨
    ∃ curr, s.phase = .walking (some curr) ∧ s.wt.currentCycleNo ≠ s.wt.executeCycleNo curr) :
    Timely { s with phase := .processing } := by
  refine ⟨timely.tidy, timely.clock, timely.tic, timely.ahead, timely.period, timely.queued, fun e due => ?_⟩
  obtain ⟨member, cycle⟩ := (due_iff timely.tidy timely.tic).mp due
  have loop := timely.loop
  have sorted := timely.tidy.sorted s.wt.currentClockTic
  rw [Loop] at loop
  rcases stop with phase | ⟨curr, phase, other⟩
  · rw [phase] at loop
    obtain ⟨passed, rest, slot, head, later⟩ := loop
    obtain rfl := List.head?_eq_none_iff.mp head.symm
    rw [slot, List.append_nil] at member
    have ahead := later e member
    omega
  · rw [phase] at loop
    obtain ⟨passed, rest, slot, head, later⟩ := loop
    rw [slot] at member sorted
    rcases List.mem_append.mp member with member | member
    · have ahead := later e member
      omega
    · -- the rest is in the order of the cycles, and its head is not due, so it can only be overdue
      cases rest with
      | nil => cases member
      | cons first rest =>
        obtain rfl := Option.some.inj head
        have here : curr ∈ s.wt.slotlist s.wt.currentClockTic :=
          slot ▸ List.mem_append_right passed List.mem_cons_self
        have due' := timely.ahead curr _ (due_of_mem timely.tidy here)
        have order : s.wt.executeCycleNo curr ≤ s.wt.executeCycleNo e := by
          rcases List.mem_cons.mp member with rfl | member
          · exact Nat.le_refl _
          · exact (List.pairwise_cons.mp (List.pairwise_append.mp sorted).2.1).1 e member
        have behind : s.wt.executeCycleNo curr < s.wt.currentCycleNo := by omega
        have slots := Nat.mul_le_mul_right s.wt.wheelSize (Nat.succ_le_of_lt behind)
        have positive := timely.tidy.positive
        rw [Nat.succ_mul] at slots
        rw [currentAbsSlotNo] at due'
        omega

theorem schedule_stopped {curr : Option WheelTimerElemRef} (phase : s.phase = .walking curr) :
    schedule { s with phase := .processing } = schedule s := by
  rw [schedule, schedule, phase]

/-- The loop goes on at the element it has saved. -/
theorem timely_returned {rest : List WheelTimerElemRef} (timely : Timely s) (head : next = rest.head?)
    (returned : Returned e rest s.wt wt') : Timely { wt := wt', phase := .walking next } := by
  have clock := returned.clock
  constructor
  · exact returned.tidy
  · rw [wtGetClockIntervalInMilliSec, clock.interval, clock.resolution]
    exact timely.clock
  · rw [clock.tic, clock.size]
    exact timely.tic
  · intro d n due
    rw [clock.currentAbsSlotNo]
    by_cases same : d = e
    · subst same
      obtain ⟨k, _, rfl⟩ := Option.map_eq_some_iff.mp (returned.due.symm.trans due)
      exact Nat.le_add_right ..
    · exact timely.ahead d n ((returned.others d same).due.symm.trans due)
  · intro d k period
    exact timely.period d k (returned.period.symm.trans period)
  · intro d member
    simp only [clock.slotsOf]
    obtain ⟨elem, found, known⟩ := timely.queued d (returned.queue ▸ member)
    by_cases same : d = e
    · subst same
      obtain ⟨elem', found', opcode, interval, _⟩ := returned.found elem found
      refine ⟨elem', found', ?_⟩
      rwa [opcode, interval]
    · exact ⟨elem, (returned.others d same).elem.trans found, known⟩
  · obtain ⟨passed, behind, slot, head', later⟩ := returned.slot
    refine ⟨passed, behind, ?_, head.trans head', ?_⟩
    · rw [clock.tic]
      exact slot
    · rw [clock.cycle]
      exact later

theorem schedule_returned {rest : List WheelTimerElemRef} {wt : WheelTimer} (returned : Returned e rest wt wt') :
    schedule { wt := wt', phase := .walking next } = schedule { wt, phase := .invoking e next } := by
  have period : periodOf wt' = periodOf wt := funext fun _ => returned.period
  rw [schedule, schedule, returned.clock.currentAbsSlotNo, period]
  congr 1
  funext d
  by_cases same : d = e
  · subst same
    exact returned.due.trans (if_pos rfl).symm
  · exact (returned.others d same).due.trans (if_neg same).symm

/-- What a drain makes of a queued element: nothing, or an element due after its new interval. -/
theorem drained_each (timely : Timely s) (fits : SlotNosFit s (.process s.wt.reschdList))
    (drained : Drained s.wt.reschdList s.wt wt') (member : e ∈ s.wt.reschdList) :
    ∃ elem, s.wt.elems e = some elem ∧ (elem.opcode = .delete ∧ dueOf wt' e = none ∨
      (elem.opcode = .create ∨ elem.opcode = .resched) ∧ 0 < s.wt.slotsOf elem.newTimeInterval ∧
        dueOf wt' e = some (s.wt.currentAbsSlotNo + s.wt.slotsOf elem.newTimeInterval) ∧
        periodOf wt' e = if elem.isRecurrence then some (s.wt.slotsOf elem.newTimeInterval) else none) := by
  obtain ⟨elem, found, outcome⟩ := drained.each e member
  obtain ⟨other, found', known⟩ := timely.queued e member
  obtain rfl := Option.some.inj (found.symm.trans found')
  refine ⟨elem, found, ?_⟩
  cases outcome with
  | planned opcode next due after interval recurrence scheduled left freed =>
    have kept : elem.opcode ≠ .delete := by
      intro same
      rw [same] at opcode
      rcases opcode with opcode | opcode <;> cases opcode
    rw [nextAbsSlotNo_of_lt (fits e member elem found kept)] at next
    obtain rfl := Option.some.inj next
    refine .inr ⟨opcode, (known.resolve_left kept).2, due, ?_⟩
    rw [periodOf_found after due, recurrence, interval, drained.clock.slotsOf]
  | deleted opcode gone due left freed => exact .inl ⟨opcode, due⟩
  | dropped opcode kept due stays freed =>
    rw [opcode] at known
    rcases known with known | ⟨known | known, _⟩ <;> cases known

theorem reschdList_drained (timely : Timely s) (drained : Drained s.wt.reschdList s.wt wt') :
    wt'.reschdList = [] := by
  refine drained.queue fun e member elem found opcode => ?_
  obtain ⟨other, found', known⟩ := timely.queued e member
  obtain rfl := Option.some.inj (found.symm.trans found')
  rw [opcode] at known
  rcases known with known | ⟨known | known, _⟩ <;> cases known

theorem period_drained_of_not_mem (drained : Drained s.wt.reschdList s.wt wt') (absent : e ∉ s.wt.reschdList) :
    periodOf wt' e = periodOf s.wt e := by
  have others := drained.others e absent
  exact periodOf_congr drained.clock others.due fun _ elem found => ⟨elem, others.elem.trans found, rfl, rfl⟩

theorem timely_drained (timely : Timely s) (phase : s.phase = .processing)
    (fits : SlotNosFit s (.process s.wt.reschdList))
    (drained : Drained s.wt.reschdList s.wt wt') : Timely { wt := wt', phase := .idle } := by
  have clock := drained.clock
  have idle := timely.loop
  rw [Loop, phase] at idle
  have later {d : WheelTimerElemRef} {n : ℕ} (due : dueOf wt' d = some n) : s.wt.currentAbsSlotNo < n := by
    by_cases member : d ∈ s.wt.reschdList
    · obtain ⟨elem, found, ⟨_, due'⟩ | ⟨_, positive, due', _⟩⟩ :=
        drained_each timely fits drained member
      · cases due'.symm.trans due
      · obtain rfl := Option.some.inj (due'.symm.trans due)
        exact Nat.lt_add_of_pos_right positive
    · exact timely.later idle ((drained.others d member).due.symm.trans due)
  constructor
  · exact drained.tidy
  · rw [wtGetClockIntervalInMilliSec, clock.interval, clock.resolution]
    exact timely.clock
  · rw [clock.tic, clock.size]
    exact timely.tic
  · intro d n due
    rw [clock.currentAbsSlotNo]
    exact (later due).le
  · intro d k period
    by_cases member : d ∈ s.wt.reschdList
    · obtain ⟨elem, found, ⟨_, due⟩ | ⟨_, positive, _, period'⟩⟩ :=
        drained_each timely fits drained member
      · rw [periodOf, due] at period
        cases period
      · rw [period'] at period
        split_ifs at period
        exact Option.some.inj period ▸ positive
    · exact timely.period d k ((period_drained_of_not_mem drained member).symm.trans period)
  · rw [reschdList_drained timely drained]
    exact fun _ member => (List.not_mem_nil member).elim
  · intro d due
    rw [clock.currentAbsSlotNo] at due
    exact (later due).false

theorem schedule_drained (phase : s.phase = .processing) (drained : Drained s.wt.reschdList s.wt wt') :
    Schedule.Step (schedule s) (.replan s.wt.reschdList) (schedule { wt := wt', phase := .idle }) := by
  apply Schedule.Step.replan
  · exact drained.clock.currentAbsSlotNo
  · intro e absent
    have period := period_drained_of_not_mem drained absent
    rw [schedule, schedule, phase]
    exact ⟨(drained.others e absent).due, period⟩

theorem step_register {callBack arg argSize : ℕ} {interval : Int32} {isRecursive : Bool}
    (step : Step s (.register e callBack arg argSize interval isRecursive) t) : s.wt.elems e = none ∧
      ∃ wt', s.wt.timerRegisterAppEvent e callBack arg argSize interval isRecursive = some wt' ∧
      t = { s with wt := wt' } := by
  rw [Step, Model.WheelThread.step] at step
  split_ifs at step with fresh
  obtain ⟨wt', ran, rfl⟩ := Option.map_eq_some_iff.mp step
  exact ⟨fresh.1, wt', ran, rfl⟩

theorem step_deRegister (step : Step s (.deRegister e) t) : (∀ next, s.phase ≠ .invoking e next) ∧
    ∃ wt', s.wt.timerDeRegisterAppEvent e = some wt' ∧ t = { s with wt := wt' } := by
  rw [Step, Model.WheelThread.step] at step
  split at step
  case h_1 f next phase =>
    split_ifs at step with same
    obtain ⟨wt', ran, rfl⟩ := Option.map_eq_some_iff.mp step
    refine ⟨fun next' phase' => ?_, wt', ran, rfl⟩
    rw [phase] at phase'
    exact same (WheelPhase.invoking.inj phase').1
  case h_2 other =>
    obtain ⟨wt', ran, rfl⟩ := Option.map_eq_some_iff.mp step
    exact ⟨fun next phase => other e next phase, wt', ran, rfl⟩

theorem step_tick (step : Step s .tick t) : s.phase = .idle ∧ t = ticked s := by
  rw [Step, Model.WheelThread.step] at step
  split at step
  case h_1 phase =>
    dsimp only at step
    split_ifs at step
    exact ⟨phase, (Option.some.inj step).symm⟩
  case h_2 => cases step

theorem step_invoke {n : ℕ} (step : Step s (.invoke e n) t) : s.phase = .walking (some e) ∧
    n = s.wt.currentAbsSlotNo ∧ s.wt.currentCycleNo = s.wt.executeCycleNo e ∧ t = invoked s e := by
  rw [Step, Model.WheelThread.step] at step
  split at step
  case h_1 curr phase =>
    split_ifs at step with turn
    obtain ⟨rfl, now, cycle⟩ := turn
    exact ⟨phase, now, cycle, (Option.some.inj step).symm⟩
  case h_2 => cases step

theorem step_returned (step : Step s .returned t) : ∃ e next wt', s.phase = .invoking e next ∧
    s.wt.afterCallback e = some wt' ∧ t = { wt := wt', phase := .walking next } := by
  rw [Step, Model.WheelThread.step] at step
  split at step
  case h_1 e next phase =>
    obtain ⟨wt', ran, rfl⟩ := Option.map_eq_some_iff.mp step
    exact ⟨e, next, wt', phase, ran, rfl⟩
  case h_2 => cases step

theorem step_stop (step : Step s .stop t) : (s.phase = .walking none ∨
    ∃ curr, s.phase = .walking (some curr) ∧ s.wt.currentCycleNo ≠ s.wt.executeCycleNo curr) ∧
    t = { s with phase := .processing } := by
  rw [Step, Model.WheelThread.step] at step
  split at step
  case h_1 phase => exact ⟨.inl phase, (Option.some.inj step).symm⟩
  case h_2 curr phase =>
    split_ifs at step with turn
    exact ⟨.inr ⟨curr, phase, turn⟩, (Option.some.inj step).symm⟩
  case h_3 => cases step

theorem step_process {queued : List WheelTimerElemRef} (step : Step s (.process queued) t) :
    s.phase = .processing ∧
    queued = s.wt.reschdList ∧ ∃ wt', s.wt.processWtRescheduleSlotlist = some wt' ∧
    t = { wt := wt', phase := .idle } := by
  rw [Step, Model.WheelThread.step] at step
  split at step
  case h_1 phase =>
    split_ifs at step with same
    obtain ⟨wt', ran, rfl⟩ := Option.map_eq_some_iff.mp step
    exact ⟨phase, same, wt', ran, rfl⟩
  case h_2 => cases step

theorem refines_request {opcode : WtOpcode} {interval : Int32} (timely : Timely s)
    (requested : Requested opcode interval e s.wt wt')
    (known : opcode = .delete ∨ (opcode = .create ∨ opcode = .resched) ∧ 0 < s.wt.slotsOf interval) :
    Timely { s with wt := wt' } ∧ Path Schedule.Step (schedule s) [] (schedule { s with wt := wt' }) := by
  refine ⟨timely_request timely requested known, ?_⟩
  rw [schedule_request timely requested]
  exact .nil _

theorem returned_of_step (timely : Timely s) (phase : s.phase = .invoking e next) (fits : SlotNosFit s .returned)
    (ran : s.wt.afterCallback e = some wt') : ∃ rest, Returned e rest s.wt wt' ∧ next = rest.head? := by
  have loop := timely.loop
  rw [Loop, phase] at loop
  obtain ⟨rest, slot, head, cycle⟩ := loop
  obtain ⟨_, _, place⟩ :=
    timely.tidy.linked (slot ▸ List.mem_cons_self : e ∈ s.wt.slotlist s.wt.currentClockTic)
  obtain ⟨elem, found, _⟩ := Option.map_eq_some_iff.mp place
  exact ⟨rest, afterCallback_spec timely.tidy slot found (timely.period e)
    (fits e (phase ▸ rfl) elem found) ran, head⟩

theorem refines (timely : Timely s) (fits : SlotNosFit s event) (step : Step s event t) :
    Timely t ∧ Path Schedule.Step (schedule s) (scheduleEvents event) (schedule t) := by
  cases event with
  | register e callBack arg argSize interval isRecursive =>
    obtain ⟨absent, wt', ran, rfl⟩ := step_register step
    rcases timerRegisterAppEvent_requested timely.tidy absent ran with rfl | ⟨accepts, requested, _⟩
    · exact ⟨timely, .nil _⟩
    · exact refines_request timely requested (.inr ⟨.inl rfl, slotsOf_pos timely.clock accepts⟩)
  | reschedule e interval =>
    obtain ⟨wt', ran, rfl⟩ := Option.map_eq_some_iff.mp step
    obtain ⟨accepts, requested⟩ := timerReschedule_requested timely.tidy ran
    exact refines_request timely requested (.inr ⟨.inr rfl, slotsOf_pos timely.clock accepts⟩)
  | deRegister e =>
    obtain ⟨_, wt', ran, rfl⟩ := step_deRegister step
    exact refines_request timely (timerDeRegisterAppEvent_requested timely.tidy ran) (.inl rfl)
  | tick =>
    obtain ⟨phase, rfl⟩ := step_tick step
    refine ⟨timely_ticked timely phase, .cons ?_ (.nil _)⟩
    rw [schedule_ticked timely phase]
    exact .advance (later_idle timely (.inl phase))
  | invoke e n =>
    obtain ⟨phase, rfl, cycle, rfl⟩ := step_invoke step
    exact ⟨timely_invoked timely phase cycle, .cons (schedule_invoked timely phase cycle) (.nil _)⟩
  | returned =>
    obtain ⟨e, next, wt', phase, ran, rfl⟩ := step_returned step
    obtain ⟨rest, returned, head⟩ := returned_of_step timely phase fits ran
    refine ⟨timely_returned timely head returned, ?_⟩
    rw [schedule_returned returned, ← phase]
    exact .nil _
  | stop =>
    obtain ⟨stop, rfl⟩ := step_stop step
    refine ⟨timely_stopped timely stop, ?_⟩
    have walking : ∃ curr, s.phase = .walking curr :=
      stop.elim (⟨_, ·⟩) fun ⟨curr, phase, _⟩ => ⟨_, phase⟩
    obtain ⟨curr, phase⟩ := walking
    rw [schedule_stopped phase]
    exact .nil _
  | process queued =>
    obtain ⟨phase, rfl, wt', ran, rfl⟩ := step_process step
    have drained := processWtRescheduleSlotlist_spec timely.tidy ran
    exact ⟨timely_drained timely phase fits drained, .cons (schedule_drained phase drained) (.nil _)⟩

/-- The clock moves with the ticks only. -/
theorem sameClock_step (timely : Timely s) (fits : SlotNosFit s event) (step : Step s event t)
    (untimed : event ≠ .tick) :
    SameClock s.wt t.wt := by
  cases event with
  | register e callBack arg argSize interval isRecursive =>
    obtain ⟨absent, wt', ran, rfl⟩ := step_register step
    rcases timerRegisterAppEvent_requested timely.tidy absent ran with rfl | ⟨_, requested, _⟩
    · exact .refl s.wt
    · exact requested.clock
  | reschedule e interval =>
    obtain ⟨wt', ran, rfl⟩ := Option.map_eq_some_iff.mp step
    exact (timerReschedule_requested timely.tidy ran).2.clock
  | deRegister e =>
    obtain ⟨_, wt', ran, rfl⟩ := step_deRegister step
    exact (timerDeRegisterAppEvent_requested timely.tidy ran).clock
  | tick => exact absurd rfl untimed
  | invoke e n =>
    obtain ⟨_, _, _, rfl⟩ := step_invoke step
    exact .refl s.wt
  | returned =>
    obtain ⟨e, next, wt', phase, ran, rfl⟩ := step_returned step
    obtain ⟨rest, returned, _⟩ := returned_of_step timely phase fits ran
    exact returned.clock
  | stop =>
    obtain ⟨_, rfl⟩ := step_stop step
    exact .refl s.wt
  | process queued =>
    obtain ⟨_, rfl, wt', ran, rfl⟩ := step_process step
    exact (processWtRescheduleSlotlist_spec timely.tidy ran).clock

/-- The length of a clock tick is a constant of the wheel. -/
theorem clockInterval_step (timely : Timely s) (fits : SlotNosFit s event) (step : Step s event t) :
    t.wt.wtGetClockIntervalInMilliSec = s.wt.wtGetClockIntervalInMilliSec := by
  by_cases timed : event = .tick
  · subst timed
    obtain ⟨_, rfl⟩ := step_tick step
    rw [ticked, (advanceClock_spec timely.tic).2.2]
    rfl
  · have same := sameClock_step timely fits step timed
    rw [wtGetClockIntervalInMilliSec, wtGetClockIntervalInMilliSec, same.interval, same.resolution]

theorem now_step (timely : Timely s) (fits : SlotNosFit s event) (step : Step s event t) :
    t.wt.currentAbsSlotNo = s.wt.currentAbsSlotNo + [event].count .tick := by
  by_cases timed : event = .tick
  · subst timed
    obtain ⟨_, rfl⟩ := step_tick step
    exact (advanceClock_spec timely.tic).1
  · rw [(sameClock_step timely fits step timed).currentAbsSlotNo, List.count_singleton,
      if_neg (by simpa using timed), Nat.add_zero]

/-- A run of the wheel is a run of the schedule. -/
theorem refines_path {events : List WheelEvent} (timely : Timely s)
    (path : Path (Guarded Step SlotNosFit) s events t) :
    Timely t ∧ Path Schedule.Step (schedule s) (events.flatMap scheduleEvents) (schedule t) := by
  induction path with
  | nil => exact ⟨timely, .nil _⟩
  | cons head _ ih =>
    obtain ⟨timely', first⟩ := refines timely head.1 head.2
    obtain ⟨last, rest⟩ := ih timely'
    exact ⟨last, first.append rest⟩

/-- A wheel that has slots and a clock starts with nothing planned. -/
theorem timely_start {wheelSize clockTicInterval : ℕ} {timerResolution : TimerResolution}
    (positive : 0 < wheelSize)
    (clock : 0 < (WheelTimer.initWheelTimer wheelSize clockTicInterval
      timerResolution).wtGetClockIntervalInMilliSec) :
    Timely (start wheelSize clockTicInterval timerResolution) := by
  have idle (e : WheelTimerElemRef) : dueOf (start wheelSize clockTicInterval timerResolution).wt e = none := rfl
  constructor
  · exact ⟨positive, fun member => (List.not_mem_nil member).elim, fun _ => List.nodup_nil, fun _ =>
      .nil, List.nodup_nil⟩
  · exact clock
  · exact positive
  · exact fun e d due => by cases (idle e).symm.trans due
  · exact fun e k period => by cases period
  · exact fun _ member => (List.not_mem_nil member).elim
  · exact fun e due => by cases (idle e).symm.trans due

end WheelThread

end TcpServerLib.Refinement
