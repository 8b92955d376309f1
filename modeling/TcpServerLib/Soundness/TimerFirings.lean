import TcpServerLib.Refinement.WheelSchedule

/-! # When the wheel timer fires

From the drain that takes its latest request until the next one that takes a request of it, an element
fires at the multiples of its interval, if it comes again, and once otherwise.
-/

namespace TcpServerLib.Soundness

open Machine Model Refinement Model.WheelThread Refinement.WheelThread Refinement.WheelTimer

namespace WheelThread

/-- The element that a call of the application is about. -/
def about : WheelEvent → Option WheelTimerElemRef
  | .register e _ _ _ _ _ | .reschedule e _ | .deRegister e => some e
  | _ => none

/-- The interval that a call asks for. -/
def interval : WheelEvent → Option Int32
  | .register _ _ _ _ interval _ | .reschedule _ interval => some interval
  | _ => none

/-- The absolute slot numbers at which the callback of an element is invoked. -/
def firings (e : WheelTimerElemRef) (events : List WheelEvent) : List ℕ :=
  events.filterMap fun
    | .invoke d absoluteSlotNo => if d = e then some absoluteSlotNo else none
    | _ => none

/-- The elements that a drain takes. -/
def taken : WheelEvent → Option (List WheelTimerElemRef)
  | .process queued => some queued
  | _ => none

/-- Nobody calls for the element, and there is no drain. -/
def Waits (e : WheelTimerElemRef) (event : WheelEvent) : Prop := about event ≠ some e ∧ taken event = none

/-- No drain takes the element. -/
def Undisturbed (e : WheelTimerElemRef) (event : WheelEvent) : Prop := ∀ queued ∈ taken event, e ∉ queued

instance (e : WheelTimerElemRef) (event : WheelEvent) : Decidable (Waits e event) :=
  inferInstanceAs (Decidable (_ ∧ _))

instance (e : WheelTimerElemRef) (event : WheelEvent) : Decidable (Undisturbed e event) :=
  inferInstanceAs (Decidable (∀ queued ∈ taken event, e ∉ queued))

/-- The element is queued for a new schedule, or to be freed. -/
structure Asked (s : WheelThread) (e : WheelTimerElemRef) (opcode : WtOpcode) (interval : Int32)
    (isRecurrence : Bool) : Prop where
  queued : e ∈ s.wt.reschdList
  found : ∃ elem, s.wt.elems e = some elem ∧ elem.opcode = opcode ∧ elem.newTimeInterval = interval ∧
    elem.isRecurrence = isRecurrence

variable {s t : WheelThread} {e : WheelTimerElemRef} {event : WheelEvent} {events : List WheelEvent}
  {opcode : WtOpcode} {asked : Int32} {recurs : Bool} {wt' : WheelTimer}

theorem firings_eq_schedule : firings e events = Schedule.firings e (events.flatMap scheduleEvents) := by
  induction events with
  | nil => rfl
  | cons event events ih =>
    rw [List.flatMap_cons, Schedule.firings, List.filterMap_append]
    change _ = _ ++ Schedule.firings e (events.flatMap scheduleEvents)
    rw [← ih, firings, firings]
    cases event with
    | invoke d n =>
      by_cases same : d = e
      · simp only [List.filterMap_cons, same, ↓reduceIte, scheduleEvents, List.filterMap_nil,
          List.cons_append, List.nil_append]
      · simp only [List.filterMap_cons, same, ↓reduceIte, scheduleEvents, List.filterMap_nil, List.nil_append]
    | _ => rfl

/-- Nothing has been asked for the element, and nothing of what was asked has been done. -/
structure Untouched (s t : WheelThread) (e : WheelTimerElemRef) : Prop where
  queued : e ∈ t.wt.reschdList ↔ e ∈ s.wt.reschdList
  found : ∀ elem, s.wt.elems e = some elem → ∃ elem', t.wt.elems e = some elem' ∧
    elem'.opcode = elem.opcode ∧
    elem'.newTimeInterval = elem.newTimeInterval ∧ elem'.isRecurrence = elem.isRecurrence

theorem Untouched.of_same {s t : WheelThread} (same : SameElem s.wt t.wt e) : Untouched s t e :=
  ⟨same.queued, fun elem found => ⟨elem, same.elem.trans found, rfl, rfl, rfl⟩⟩

theorem untouched_step (timely : Timely s) (waits : Waits e event) (fits : SlotNosFit s event)
    (step : Step s event t) :
    Untouched s t e := by
  obtain ⟨others, undrained⟩ := waits
  cases event with
  | register d callBack arg argSize interval isRecursive =>
    have other : e ≠ d := fun same => others (congrArg some same.symm)
    obtain ⟨absent, wt', ran, rfl⟩ := step_register step
    rcases timerRegisterAppEvent_requested timely.tidy absent ran with rfl | ⟨_, requested, _⟩
    · exact .of_same (.refl s.wt e)
    · exact .of_same (requested.others e other)
  | reschedule d interval =>
    have other : e ≠ d := fun same => others (congrArg some same.symm)
    obtain ⟨wt', ran, rfl⟩ := Option.map_eq_some_iff.mp step
    exact .of_same ((timerReschedule_requested timely.tidy ran).2.others e other)
  | deRegister d =>
    have other : e ≠ d := fun same => others (congrArg some same.symm)
    obtain ⟨_, wt', ran, rfl⟩ := step_deRegister step
    exact .of_same ((timerDeRegisterAppEvent_requested timely.tidy ran).others e other)
  | tick =>
    obtain ⟨_, rfl⟩ := step_tick step
    obtain ⟨_, _, moved⟩ := advanceClock_spec timely.tic
    constructor
    · rw [ticked, moved]
    · rw [ticked, moved]
      exact fun elem found => ⟨elem, found, rfl, rfl, rfl⟩
  | invoke d n =>
    obtain ⟨_, _, _, rfl⟩ := step_invoke step
    exact .of_same (.refl s.wt e)
  | returned =>
    obtain ⟨d, next, wt', phase, ran, rfl⟩ := step_returned step
    obtain ⟨rest, returned, _⟩ := returned_of_step timely phase fits ran
    by_cases same : e = d
    · subst same
      refine ⟨by rw [returned.queue], fun elem found => ?_⟩
      obtain ⟨elem', found', opcode, interval, _, recurrence⟩ := returned.found elem found
      exact ⟨elem', found', opcode, interval, recurrence⟩
    · exact .of_same (returned.others e same)
  | stop =>
    obtain ⟨_, rfl⟩ := step_stop step
    exact .of_same (.refl s.wt e)
  | process queued => cases undrained

theorem asked_step (request : Asked s e opcode asked recurs) (untouched : Untouched s t e) :
    Asked t e opcode asked recurs := by
  obtain ⟨elem, found, rfl, rfl, rfl⟩ := request.found
  exact ⟨untouched.queued.mpr request.queued, untouched.found elem found⟩

theorem asked_path (timely : Timely s) (request : Asked s e opcode asked recurs)
    (path : Path (Guarded Step SlotNosFit) s events t) (waits : ∀ event ∈ events, Waits e event) :
    Timely t ∧ Asked t e opcode asked recurs ∧ t.wt.wtGetClockIntervalInMilliSec =
      s.wt.wtGetClockIntervalInMilliSec := by
  induction path with
  | nil => exact ⟨timely, request, rfl⟩
  | cons head _ ih =>
    have request' := asked_step request (untouched_step timely (waits _ List.mem_cons_self) head.1 head.2)
    obtain ⟨timely', request', same⟩ := ih (refines timely head.1 head.2).1 request' fun event member =>
      waits event (List.mem_cons_of_mem _ member)
    exact ⟨timely', request', same.trans (clockInterval_step timely head.1 head.2)⟩

/-- The slot numbers `start + k`, `start + 2 * k`, and so on up to `last`, or the first of them alone. -/
def firingLaw (recurs : Bool) (start k last : ℕ) : List ℕ :=
  if recurs then (List.range ((last - start) / k)).map fun j => start + (j + 1) * k
  else if start + k ≤ last then [start + k] else []

theorem sound_schedule (timely : Timely s) : (schedule s).Sound e := by
  refine ⟨fun d due => ?_, timely.period e⟩
  rw [schedule] at due
  split at due
  case h_1 f next phase =>
    dsimp only at due
    split_ifs at due
    · obtain ⟨k, _, rfl⟩ := Option.map_eq_some_iff.mp due
      exact Nat.le_add_right ..
    · exact timely.ahead e d due
  case h_2 => exact timely.ahead e d due

theorem kept_of_undisturbed (undisturbed : ∀ event ∈ events, Undisturbed e event) :
    ∀ entries, .replan entries ∈ events.flatMap scheduleEvents → e ∉ entries := by
  intro entries member
  obtain ⟨event, member, replans⟩ := List.mem_flatMap.mp member
  cases event with
  | process queued =>
    cases List.mem_singleton.mp replans
    exact undisturbed _ member _ rfl
  | tick | invoke e n => cases List.mem_singleton.mp replans
  | register | reschedule | deRegister | returned | stop => cases replans

/-- The invocations so far come first among the moments an element was planned for. -/
theorem firings_prefix {last : ℕ} (timely : Timely s) (path : Path (Guarded Step SlotNosFit) s events t)
    (undisturbed : ∀ event ∈ events, Undisturbed e event) (reached : t.wt.currentAbsSlotNo ≤ last) :
    firings e events <+: Schedule.occurrences ((schedule s).due e) (periodOf s.wt e) last := by
  obtain ⟨_, run⟩ := refines_path timely path
  rw [firings_eq_schedule]
  exact ⟨_, Schedule.firings_append run (sound_schedule timely) (kept_of_undisturbed undisturbed) reached⟩

theorem firings_eq_occurrences (timely : Timely s) (path : Path (Guarded Step SlotNosFit) s events t)
    (undisturbed : ∀ event ∈ events, Undisturbed e event)
    (settled : t.phase = .idle ∨ t.phase = .processing) :
    firings e events = Schedule.occurrences ((schedule s).due e) (periodOf s.wt e) t.wt.currentAbsSlotNo := by
  obtain ⟨timely', run⟩ := refines_path timely path
  rw [firings_eq_schedule]
  exact Schedule.firings_eq run (sound_schedule timely) (kept_of_undisturbed undisturbed)
    (later_idle timely' settled e)

/-- A drain takes the element, and what it was asked for decides when the element is to fire. -/
theorem occurrences_of_drain {s₁ : WheelThread} {queued : List WheelTimerElemRef} (timely : Timely s)
    (request : Asked s e opcode asked recurs) (drain : Guarded Step SlotNosFit s (.process queued) s₁)
    (last : ℕ) :
    Timely s₁ ∧ e ∈ queued ∧ Schedule.occurrences ((schedule s₁).due e) (periodOf s₁.wt e) last =
      if opcode = .delete then [] else firingLaw recurs s.wt.currentAbsSlotNo (s.wt.slotsOf asked) last := by
  obtain ⟨fits, step⟩ := drain
  have timely' := (refines timely fits step).1
  obtain ⟨phase, rfl, wt', ran, rfl⟩ := step_process step
  obtain ⟨elem, found, rfl, rfl, rfl⟩ := request.found
  have drained := processWtRescheduleSlotlist_spec timely.tidy ran
  obtain ⟨other, found', outcome⟩ := drained_each timely fits drained request.queued
  obtain rfl := Option.some.inj (found.symm.trans found')
  refine ⟨timely', request.queued, ?_⟩
  rcases outcome with ⟨opcode, due⟩ | ⟨opcode, positive, due, period⟩
  · rw [if_pos opcode]
    change Schedule.occurrences (dueOf wt' e) _ _ = []
    rw [due]
    rfl
  · have kept : elem.opcode ≠ .delete := by
      intro same
      rw [same] at opcode
      rcases opcode with opcode | opcode <;> cases opcode
    rw [if_neg kept, firingLaw]
    change Schedule.occurrences (dueOf wt' e) (periodOf wt' e) _ = _
    rw [due, period]
    split_ifs with recurs reached
    · exact Schedule.occurrences_some _
    · exact if_pos reached
    · exact if_neg reached

end WheelThread

open WheelThread

variable {wheelSize clockTicInterval : ℕ} {timerResolution : TimerResolution}
  {s₀ s₁ s₂ s₃ t : WheelThread}
  {events₀ events₁ events : List WheelEvent} {call : WheelEvent} {e : WheelTimerElemRef}
  {elem : WheelTimerElem} {asked : Int32} {k : ℕ} {queued : List WheelTimerElemRef}

def registered : WheelThread := replayed step SlotNosFit (start 2 1 .milliSeconds) [.register 7 1 0 0 2 true]

end TcpServerLib.Soundness
