import TcpServerLib.Soundness.TimerFirings

/-! # Expiries that a call cancels

A de-registration and a reschedule are queued for the next drain, and the tick that ends with this drain
begins with the slot that is due. An element of this slot is invoked once more for what was planned
before the call.
-/

namespace TcpServerLib.Soundness

open Machine Model Refinement Model.WheelThread Refinement.WheelThread Refinement.WheelTimer

namespace WheelThread

/-- The absolute slot number at which the wheel thread processes the queue next. -/
def nextDrain (s : WheelThread) : ℕ :=
  match s.phase with
  | .idle => s.wt.currentAbsSlotNo + 1
  | _ => s.wt.currentAbsSlotNo

/-- The invocations that a call asks for, from the drain that takes it. -/
def renewedFirings (call : WheelEvent) (wt : WheelTimer) (recurs : Bool) (start last : ℕ) : List ℕ :=
  match call with
  | .reschedule _ interval => firingLaw recurs start (wt.slotsOf interval) last
  | _ => []

/-- While nobody else calls for the element, it is not invoked before the next drain, and from then on only
when the call has asked for it. -/
def Superseded (s : WheelThread) (e : WheelTimerElemRef) (law : ℕ → ℕ → List ℕ) : Prop :=
  ∀ events₁ s₂, Path (Guarded Step SlotNosFit) s events₁ s₂ →
    (∀ event ∈ events₁, Waits e event) → firings e events₁ = [] ∧
    ∀ queued s₃ events t, Guarded Step SlotNosFit s₂ (.process queued) s₃ →
    Path (Guarded Step SlotNosFit) s₃ events t →
      (∀ event ∈ events, about event ≠ some e) → firings e events <+:
      law s₂.wt.currentAbsSlotNo t.wt.currentAbsSlotNo

variable {s t : WheelThread} {e : WheelTimerElemRef} {event call : WheelEvent}
  {events : List WheelEvent} {elem : WheelTimerElem}

theorem nextDrain_request {opcode : WtOpcode} {interval : Int32} {d : WheelTimerElemRef} {wt' : WheelTimer}
    (requested : WheelTimer.Requested opcode interval d s.wt wt') : nextDrain { s with wt := wt' } =
      nextDrain s := by
  rw [nextDrain, nextDrain, requested.clock.currentAbsSlotNo]

theorem nextDrain_step (timely : Timely s) (fits : SlotNosFit s event) (step : Step s event t)
    (undrained : taken event = none) :
    nextDrain t = nextDrain s := by
  cases event with
  | register d callBack arg argSize interval isRecursive =>
    obtain ⟨absent, wt', ran, rfl⟩ := step_register step
    rcases timerRegisterAppEvent_requested timely.tidy absent ran with rfl | ⟨_, requested, _⟩
    · rfl
    · exact nextDrain_request requested
  | reschedule d interval =>
    obtain ⟨wt', ran, rfl⟩ := Option.map_eq_some_iff.mp step
    exact nextDrain_request (timerReschedule_requested timely.tidy ran).2
  | deRegister d =>
    obtain ⟨_, wt', ran, rfl⟩ := step_deRegister step
    exact nextDrain_request (timerDeRegisterAppEvent_requested timely.tidy ran)
  | tick =>
    obtain ⟨phase, rfl⟩ := step_tick step
    rw [nextDrain, nextDrain, phase]
    exact (advanceClock_spec timely.tic).1
  | invoke d n =>
    obtain ⟨phase, _, _, rfl⟩ := step_invoke step
    rw [nextDrain, nextDrain, phase]
    rfl
  | returned =>
    obtain ⟨d, next, wt', phase, ran, rfl⟩ := step_returned step
    obtain ⟨rest, returned, _⟩ := returned_of_step timely phase fits ran
    rw [nextDrain, nextDrain, phase]
    exact returned.clock.currentAbsSlotNo
  | stop =>
    obtain ⟨phase | ⟨curr, phase, _⟩, rfl⟩ := step_stop step
    · rw [nextDrain, nextDrain, phase]
    · rw [nextDrain, nextDrain, phase]
  | process queued => cases undrained

theorem nextDrain_path (timely : Timely s) (path : Path (Guarded Step SlotNosFit) s events t)
    (waits : ∀ event ∈ events, Waits e event) : nextDrain t = nextDrain s := by
  induction path with
  | nil => rfl
  | cons head _ ih =>
    rw [ih (refines timely head.1 head.2).1 fun event member => waits event (List.mem_cons_of_mem _ member)]
    exact nextDrain_step timely head.1 head.2 (waits _ List.mem_cons_self).2

theorem currentAbsSlotNo_le_nextDrain : s.wt.currentAbsSlotNo ≤ nextDrain s := by
  rw [nextDrain]
  split
  · exact Nat.le_succ _
  · exact Nat.le_refl _

/-- Nothing is due before the loop that ends with the next drain. -/
theorem nextDrain_le (timely : Timely s) {n : ℕ} (due : (schedule s).due e = some n) : nextDrain s ≤ n := by
  rw [nextDrain]
  split
  case h_1 phase => exact later_idle timely (.inl phase) e n due
  case h_2 => exact (sound_schedule timely).ahead n due

theorem firings_before_drain (timely : Timely s) (path : Path (Guarded Step SlotNosFit) s events t)
    (waits : ∀ event ∈ events, Waits e event) (later : (schedule s).due e ≠ some (nextDrain s)) :
    firings e events = [] := by
  have undisturbed : ∀ event ∈ events, Undisturbed e event := by
    intro event member queued drains
    cases (waits event member).2.symm.trans drains
  have reached : t.wt.currentAbsSlotNo ≤ nextDrain s :=
    nextDrain_path timely path waits ▸ currentAbsSlotNo_le_nextDrain
  have fired := firings_prefix timely path undisturbed reached
  cases due : (schedule s).due e with
  | none =>
    rw [due] at fired
    exact List.prefix_nil.mp fired
  | some n =>
    have after : nextDrain s < n := (nextDrain_le timely due).lt_of_ne fun same =>
        later (due.trans (congrArg some same.symm))
    rw [due, Schedule.occurrences_later after] at fired
    exact List.prefix_nil.mp fired

/-- An element that is due is invoked. -/
theorem firings_of_due (timely : Timely s) (path : Path (Guarded Step SlotNosFit) s events t)
    (waits : ∀ event ∈ events, Waits e event) (phase : t.phase = .processing)
    (due : (schedule s).due e = some (nextDrain s)) :
    nextDrain s ∈ firings e events := by
  have undisturbed : ∀ event ∈ events, Undisturbed e event := by
    intro event member queued drains
    cases (waits event member).2.symm.trans drains
  have reached : t.wt.currentAbsSlotNo = nextDrain s := by
    rw [← nextDrain_path timely path waits, nextDrain, phase]
  rw [firings_eq_occurrences timely path undisturbed (.inr phase), due, reached,
    Schedule.occurrences_due (Nat.le_refl _) (timely.period e)]
  exact List.mem_cons_self

/-- A call that is about another element leaves this one out of the queue. -/
theorem undisturbed_of_quiet (timely : Timely s) (absent : e ∉ s.wt.reschdList)
    (path : Path (Guarded Step SlotNosFit) s events t)
    (quiet : ∀ event ∈ events, about event ≠ some e) : ∀ event ∈ events, Undisturbed e event := by
  induction path with
  | nil => exact fun _ member => (List.not_mem_nil member).elim
  | @cons s middle t event events head _ ih =>
    obtain ⟨fits, step⟩ := head
    have undisturbed : Undisturbed e event ∧ e ∉ middle.wt.reschdList := by
      cases drains : taken event with
      | none =>
        have untouched := untouched_step timely ⟨quiet event List.mem_cons_self, drains⟩ fits step
        refine ⟨fun queued member => ?_, fun member => absent (untouched.queued.mp member)⟩
        cases drains.symm.trans member
      | some queued =>
        cases event with
        | process queued' =>
          obtain ⟨_, rfl, wt', ran, rfl⟩ := step_process step
          have drained := processWtRescheduleSlotlist_spec timely.tidy ran
          refine ⟨fun queued member => ?_, ?_⟩
          · obtain rfl := Option.some.inj member
            exact absent
          · rw [reschdList_drained timely drained]
            exact List.not_mem_nil
        | _ => cases drains
    intro event' member
    rcases List.mem_cons.mp member with rfl | member
    · exact undisturbed.1
    · exact ih (refines timely fits step).1 undisturbed.2
        (fun event member => quiet event (List.mem_cons_of_mem _ member)) event' member

/-- The call as the request that a drain finds. -/
theorem asked_of_cancel (timely : Timely s)
    (cancels : call = .deRegister e ∨ ∃ interval, call = .reschedule e interval)
    (step : Step s call t) (found : t.wt.elems e = some elem) :
    Timely t ∧ schedule t = schedule s ∧ nextDrain t = nextDrain s ∧
    ∃ opcode asked, Asked t e opcode asked elem.isRecurrence ∧
      ∀ start last, renewedFirings call t.wt elem.isRecurrence start last =
        if opcode = .delete then [] else firingLaw elem.isRecurrence start (t.wt.slotsOf asked) last := by
  rcases cancels with rfl | ⟨interval, rfl⟩
  · obtain ⟨_, wt', ran, rfl⟩ := step_deRegister step
    have requested := timerDeRegisterAppEvent_requested timely.tidy ran
    obtain ⟨elem', found', opcode, asked, _⟩ := requested.found
    obtain rfl := Option.some.inj (found.symm.trans found')
    exact ⟨timely_request timely requested (.inl rfl), schedule_request timely requested,
      nextDrain_request requested,
      .delete, 0, ⟨requested.queued, elem, found, opcode, asked, rfl⟩, fun _ _ => rfl⟩
  · obtain ⟨wt', ran, rfl⟩ := Option.map_eq_some_iff.mp step
    obtain ⟨accepts, requested⟩ := timerReschedule_requested timely.tidy ran
    obtain ⟨elem', found', opcode, asked, _⟩ := requested.found
    obtain rfl := Option.some.inj (found.symm.trans found')
    exact ⟨timely_request timely requested (.inr ⟨.inr rfl, slotsOf_pos timely.clock accepts⟩),
      schedule_request timely requested, nextDrain_request requested,
      .resched, interval, ⟨requested.queued, elem, found, opcode, asked, rfl⟩, fun _ _ => rfl⟩

theorem superseded_of_later {law : ℕ → ℕ → List ℕ} {opcode : WtOpcode} {asked : Int32} {recurs : Bool}
    (timely : Timely s) (request : Asked s e opcode asked recurs)
    (same : ∀ start last, law start last = if opcode = .delete then [] else firingLaw recurs start
      (s.wt.slotsOf asked) last)
    (later : (schedule s).due e ≠ some (nextDrain s)) : Superseded s e law := by
  intro events₁ s₂ waiting waits
  refine ⟨firings_before_drain timely waiting waits later, fun queued s₃ events t drain after quiet => ?_⟩
  obtain ⟨timely₂, request₂, clock⟩ := asked_path timely request waiting waits
  obtain ⟨timely₃, member, moments⟩ := occurrences_of_drain timely₂ request₂ drain t.wt.currentAbsSlotNo
  have emptied : e ∉ s₃.wt.reschdList := by
    obtain ⟨_, rfl, wt', ran, rfl⟩ := step_process drain.2
    have drained := processWtRescheduleSlotlist_spec timely₂.tidy ran
    rw [reschdList_drained timely₂ drained]
    exact List.not_mem_nil
  have fired := firings_prefix timely₃ after (undisturbed_of_quiet timely₃ emptied after quiet)
      (Nat.le_refl _)
  have ticks : s₂.wt.slotsOf asked = s.wt.slotsOf asked := by
    rw [WheelTimer.slotsOf, WheelTimer.slotsOf, clock]
  rw [same, ← ticks]
  exact moments ▸ fired

end WheelThread

open WheelThread

variable {wheelSize clockTicInterval : ℕ} {timerResolution : TimerResolution} {s₀ s₁ s₂ : WheelThread}
  {events₀ events₁ : List WheelEvent} {call : WheelEvent} {e : WheelTimerElemRef} {elem : WheelTimerElem}

/-- A call supersedes what was planned exactly if the element is not due in the loop before the next drain. -/
theorem superseded_iff (slots : 0 < wheelSize)
    (clock : 0 < (WheelTimer.initWheelTimer wheelSize clockTicInterval
      timerResolution).wtGetClockIntervalInMilliSec)
    (before : Path (Guarded Step SlotNosFit) (start wheelSize clockTicInterval timerResolution) events₀ s₀)
    (cancels : call = .deRegister e ∨ ∃ interval, call = .reschedule e interval) (step : Step s₀ call s₁)
    (found : s₁.wt.elems e = some elem) (waiting : Path (Guarded Step SlotNosFit) s₁ events₁ s₂)
    (waits : ∀ event ∈ events₁, Waits e event) (phase : s₂.phase = .processing) :
    Superseded s₁ e (renewedFirings call s₁.wt elem.isRecurrence) ↔
    (schedule s₀).due e ≠ some (nextDrain s₀) := by
  have timely₀ := (refines_path (timely_start slots clock) before).1
  obtain ⟨timely₁, planned, drain, opcode, asked, request, law⟩ :=
    asked_of_cancel timely₀ cancels step found
  rw [← planned, ← drain]
  constructor
  · intro superseded due
    have fired := firings_of_due timely₁ waiting waits phase due
    rw [(superseded events₁ s₂ waiting waits).1] at fired
    exact List.not_mem_nil fired
  · exact superseded_of_later timely₁ request law

/-- The element is due at the second tick, or at the third, and the first is over. -/
def plannedAfter (interval : Int32) : WheelThread :=
  replayed step SlotNosFit (start 2 1 .milliSeconds) [.register 7 1 0 0 interval true, .tick, .stop, .process [7]]

def deRegistered (interval : Int32) : WheelThread :=
  replayed step SlotNosFit (plannedAfter interval) [.deRegister 7]

/-- At the third tick it does not fire any more. -/
theorem deRegistered_superseded :
    Superseded (deRegistered 2) 7 (renewedFirings (.deRegister 7) (deRegistered 2).wt true) := by
  have before : Path (Guarded Step SlotNosFit) (start 2 1 .milliSeconds)
      [.register 7 1 0 0 2 true, .tick, .stop, .process [7]] (plannedAfter 2) := replayed_path (by decide +kernel)
  have called : Guarded Step SlotNosFit (plannedAfter 2) (.deRegister 7) (deRegistered 2) :=
    replayed_step (by decide +kernel)
  have waiting : Path (Guarded Step SlotNosFit) (deRegistered 2) [.tick, .stop] _ :=
    replayed_path (by decide +kernel)
  have later : (schedule (plannedAfter 2)).due 7 ≠ some (nextDrain (plannedAfter 2)) := by decide +kernel
  exact (superseded_iff (by decide) (by decide) before (.inl rfl) called.2 rfl waiting (by decide) rfl).mpr later

theorem deRegistered_fires : ¬ ∀ wheelSize clockTicInterval timerResolution events₀ s₀ s₁ e events t,
    Path (Guarded Step SlotNosFit) (start wheelSize clockTicInterval timerResolution) events₀ s₀ →
    Step s₀ (.deRegister e) s₁ →
    Path (Guarded Step SlotNosFit) s₁ events t → (∀ event ∈ events, about event ≠ some e) →
    firings e events = [] := by
  intro never
  have before : Path (Guarded Step SlotNosFit) (start 2 1 .milliSeconds)
      [.register 7 1 0 0 1 true, .tick, .stop, .process [7]] (plannedAfter 1) := replayed_path (by decide +kernel)
  have called : Guarded Step SlotNosFit (plannedAfter 1) (.deRegister 7) (deRegistered 1) :=
    replayed_step (by decide +kernel)
  have after : Path (Guarded Step SlotNosFit) (deRegistered 1) [.tick, .invoke 7 2] _ :=
    replayed_path (by decide +kernel)
  have fired := never 2 1 .milliSeconds _ _ _ 7 _ _ before called.2 after (by decide)
  exact absurd fired (by decide)

end TcpServerLib.Soundness
