import TcpServerLib.Machine.Path
import TcpServerLib.Refinement.TimerCalls

/-! # Timers that have been stopped

A timer that is cancelled or paused is disarmed, and does not expire before a call sets it again. The
library sets a timer with backoff anew after every callback, also after one that has stopped it.
-/

namespace TcpServerLib.Soundness

open Machine Model Refinement Model.TimerRun Refinement.TimerRun

namespace TimerRun

/-- Whether the last call that starts or stops a timer stops it. -/
def stops (stopped : Bool) : TimerCall → Bool
  | .cancel => true
  | .pause => true
  | .delete => stopped
  | _ => false

/-- The calls of the application and of its callback. -/
def callsOf : TimerEvent → List TimerCall
  | .elapse _ => []
  | .call call => [call]
  | .expire calls => calls

def stopped (events : List TimerEvent) : Bool := (events.flatMap callsOf).foldl stops false

/-- The callback of a timer with backoff does not leave the timer stopped. -/
def EndsInMotion (run : TimerRun) : TimerEvent → Prop
  | .elapse _ => True
  | .call _ => True
  | .expire calls => run.timer.exponentialBackoff = true → calls.foldl stops false = false

instance (run : TimerRun) (event : TimerEvent) : Decidable (EndsInMotion run event) := by
  apply @TimerEvent.casesOn (fun event => Decidable (EndsInMotion run event)) event <;> intros <;>
    unfold EndsInMotion <;> infer_instance

/-- The calls that set a timer. -/
def Rearms : TimerCall → Prop
  | .cancel => False
  | .pause => False
  | .delete => False
  | _ => True

def Halted (timer : Timer) : Prop := timer.timerState ≠ .resumed ∧ timer.timerState ≠ .running

/-- The timer of the operating system agrees with the state. -/
def Resting (timer : Timer) : Prop := Halted timer → left timer = none

variable {run next : TimerRun} {timer timer' : Timer} {call : TimerCall} {calls : List TimerCall}
  {event : TimerEvent} {events : List TimerEvent} {b : Bool}

theorem resting_call (resting : Resting timer) (ran : timer.call call = some timer') : Resting timer' := by
  rcases Timer.call_cases ran with rfl | ⟨rfl, -⟩
  · cases call with
    | start => exact fun halted => absurd rfl halted.2
    | delete => exact fun _ => rfl
    | cancel => exact fun _ => rfl
    | pause => exact fun _ => rfl
    | resume => exact fun halted => absurd rfl halted.1
    | restart => exact fun halted => absurd rfl halted.2
    | reschedule expTi secExpTi => exact fun halted => absurd rfl halted.2
  · exact resting

theorem halted_call (before : b = true → Halted timer) (ran : timer.call call = some timer')
    (stopped : stops b call = true) :
    Halted timer' := by
  rcases Timer.call_cases ran with rfl | ⟨rfl, ⟨-, idle⟩ | ⟨-, already⟩⟩
  · cases call with
    | start => cases stopped
    | delete => exact ⟨TimerState.noConfusion, TimerState.noConfusion⟩
    | cancel => exact ⟨TimerState.noConfusion, TimerState.noConfusion⟩
    | pause => exact ⟨TimerState.noConfusion, TimerState.noConfusion⟩
    | resume => cases stopped
    | restart => cases stopped
    | reschedule expTi secExpTi => cases stopped
  · rcases idle with state | state <;> simp [Halted, state]
  · simp [Halted, already]

theorem halted_calls (resting : Resting timer) (before : b = true → Halted timer)
    (ran : calls.foldlM Timer.call timer = some timer') :
    Resting timer' ∧ timer'.exponentialBackoff = timer.exponentialBackoff ∧
    (calls.foldl stops b = true → Halted timer') := by
  induction calls generalizing timer b with
  | nil =>
    obtain rfl := Option.some.inj ran
    exact ⟨resting, rfl, before⟩
  | cons call calls ih =>
    obtain ⟨middle, called, rest⟩ := Option.bind_eq_some_iff.mp ran
    obtain ⟨resting, backoff, halted⟩ := ih (resting_call resting called) (halted_call before called) rest
    exact ⟨resting, backoff.trans (Timer.call_exponentialBackoff called), halted⟩

/-- Only a timer in motion expires. -/
theorem not_halted (resting : Resting run.timer) (step : Step run (.expire calls) next) :
    ¬ Halted run.timer := by
  intro halted
  obtain ⟨posixTimer, alive, due, _⟩ := step_expire step
  have none := resting halted
  rw [left, alive, Option.bind_some, due] at none
  cases none

theorem halted_expire (resting : Resting run.timer) (step : Guarded Step EndsInMotion run (.expire calls) next) :
    Resting next.timer ∧ (calls.foldl stops false = true → Halted next.timer) := by
  obtain ⟨motion, step⟩ := step
  have moving := not_halted resting step
  obtain ⟨posixTimer, alive, due, -, ran⟩ := step_expire step
  have awake : Resting (notified run.timer posixTimer) := fun halted => absurd halted moving
  split_ifs at ran
  · obtain ⟨rfl, -, cancels⟩ := ran
    have ran : (notified run.timer posixTimer).call .cancel = some next.timer := cancels
    exact ⟨resting_call awake ran, fun stopped => by cases stopped⟩
  · obtain ⟨-, called, ran, anew⟩ := ran
    obtain ⟨quiet, backoff, halted⟩ := halted_calls awake (b := false) (fun yes => by cases yes) ran
    rcases Timer.setAnew_cases anew with ⟨again, running⟩ | ⟨_, _, same⟩
    · refine ⟨fun halted => absurd running halted.2, fun stopped => ?_⟩
      rcases again with backs | resumed
      · exact absurd stopped (Bool.eq_false_iff.mp (motion (backoff.symm.trans backs)))
      · exact absurd resumed (halted stopped).1
    · rw [same]
      exact ⟨quiet, halted⟩

theorem halted_elapse {ns : ℕ} (step : Step run (.elapse ns) next) :
    (Resting run.timer → Resting next.timer) ∧ (Halted run.timer → Halted next.timer) := by
  obtain ⟨⟨posixTimer, same, _⟩, remaining, _⟩ := step_elapse step
  have state : next.timer.timerState = run.timer.timerState := by rw [same]
  have halted : Halted next.timer ↔ Halted run.timer := by rw [Halted, Halted, state]
  refine ⟨fun resting there => ?_, halted.mpr⟩
  rw [remaining, resting (halted.mp there), Option.map_none]

theorem halted_step (resting : Resting run.timer) (before : b = true → Halted run.timer)
    (step : Guarded Step EndsInMotion run event next) :
    Resting next.timer ∧ ((callsOf event).foldl stops b = true → Halted next.timer) := by
  cases event with
  | elapse ns =>
    obtain ⟨rests, halts⟩ := halted_elapse step.2
    exact ⟨rests resting, fun stopped => halts (before stopped)⟩
  | call call =>
    obtain ⟨timer, ran, rfl⟩ := Option.map_eq_some_iff.mp step.2
    exact ⟨resting_call resting ran, halted_call before ran⟩
  | expire calls =>
    cases b with
    | true => exact absurd (before rfl) (not_halted resting step.2)
    | false => exact halted_expire resting step

theorem halted_along (path : Path (Guarded Step EndsInMotion) run events next) (resting : Resting run.timer)
    (before : b = true → Halted run.timer) :
    Resting next.timer ∧ ((events.flatMap callsOf).foldl stops b = true → Halted next.timer) := by
  induction path generalizing b with
  | nil => exact ⟨resting, before⟩
  | cons head _ ih =>
    obtain ⟨resting, halted⟩ := halted_step resting before head
    rw [List.flatMap_cons, List.foldl_append]
    exact ih resting halted

/-- A timer that is stopped is not notified until a call sets it. -/
theorem silent_along (path : Path Step run events next) (resting : Resting run.timer) (halted : Halted run.timer)
    (quiet : ∀ call ∈ events.flatMap callsOf, ¬ Rearms call) : next.invoked = run.invoked := by
  induction path with
  | nil => rfl
  | @cons run middle next event events head _ ih =>
    rw [List.flatMap_cons] at quiet
    have later := fun call member => quiet call (List.mem_append_right _ member)
    cases event with
    | elapse ns =>
      obtain ⟨rests, halts⟩ := halted_elapse head
      obtain ⟨_, _, _, _, invoked⟩ := step_elapse head
      exact (ih (rests resting) (halts halted) later).trans invoked
    | call call =>
      obtain ⟨timer, ran, rfl⟩ := Option.map_eq_some_iff.mp head
      have stopped : stops true call = true := by
        have stays := quiet call (List.mem_append_left _ (List.mem_singleton_self call))
        cases call <;> first | rfl | exact absurd trivial stays
      exact ih (resting_call resting ran) (halted_call (fun _ => halted) ran stopped) later
    | expire calls => exact absurd halted (not_halted resting head)

theorem resting_setup {timerCb userArg : ℕ} {expTimer secExpTimer : UInt64} {threshold : UInt32}
    {exponentialBackoff : Bool}
    (set : setupTimer timerCb expTimer secExpTimer threshold userArg exponentialBackoff = some timer) :
    Resting timer := by
  obtain ⟨_, set⟩ := Option.ite_none_left_eq_some.mp set
  obtain rfl := Option.some.inj set
  exact fun _ => rfl

end TimerRun

open TimerRun

/-- While no callback leaves a timer with backoff stopped, a timer that was stopped is disarmed, and its callback
is not invoked until a call sets the timer. -/
theorem staysStopped {timerCb userArg : ℕ} {expTimer secExpTimer : UInt64} {threshold : UInt32}
    {exponentialBackoff : Bool} {timer : Timer} {events : List TimerEvent} {run : TimerRun}
    (set : setupTimer timerCb expTimer secExpTimer threshold userArg exponentialBackoff = some timer)
    (path : Path (Guarded Step EndsInMotion) { timer } events run) (last : stopped events = true) :
    left run.timer = none ∧ ∀ more later, Path Step run more later →
      (∀ call ∈ more.flatMap callsOf, ¬ Rearms call) → later.invoked = run.invoked := by
  obtain ⟨resting, halted⟩ := halted_along path (resting_setup set) (b := false) fun yes => by cases yes
  exact ⟨resting (halted last), fun more later path quiet => silent_along path resting (halted last) quiet⟩

/-- A timer with backoff, first set for a second. -/
def backingOff : Timer := (setupTimer 1 1000 0 0 0 true).getD default

def backsOff (events : List TimerEvent) : TimerRun :=
  replayed TimerRun.step EndsInMotion { timer := backingOff } events

theorem staysStopped_cancelled :
    left (backsOff [.call .start, .elapse 1000000000, .expire [], .call .cancel]).timer = none ∧
      ∀ more later, Path Step (backsOff [.call .start, .elapse 1000000000, .expire [], .call .cancel])
      more later →
        (∀ call ∈ more.flatMap callsOf, ¬ Rearms call) →
          later.invoked = (backsOff [.call .start, .elapse 1000000000, .expire [], .call .cancel]).invoked := by
  have set : setupTimer 1 1000 0 0 0 true = some backingOff := rfl
  exact staysStopped set (replayed_path (by decide +kernel)) rfl

def stoppedInCallback : TimerRun := replayed TimerRun.step (fun _ _ => True) { timer := backingOff }
  [.call .start, .elapse 1000000000, .expire [.cancel]]

/-- Its callback cancels it, and is invoked again two seconds later. -/
theorem cancelled_fires : setupTimer 1 1000 0 0 0 true = some backingOff ∧
    Path Step { timer := backingOff } [.call .start, .elapse 1000000000, .expire [.cancel]] stoppedInCallback ∧
    stopped [.call .start, .elapse 1000000000, .expire [.cancel]] = true ∧
    left stoppedInCallback.timer = some 2000000000 ∧
    ∃ later, Path Step stoppedInCallback [.elapse 2000000000, .expire []] later ∧
      later.invoked ≠ stoppedInCallback.invoked := by
  refine ⟨rfl, ?_, rfl, by decide +kernel, replayed TimerRun.step (fun _ _ => True) stoppedInCallback
    [.elapse 2000000000, .expire []], ?_, by decide +kernel⟩
  · exact (replayed_path (by decide +kernel)).mono And.right
  · exact (replayed_path (by decide +kernel)).mono And.right

end TcpServerLib.Soundness
