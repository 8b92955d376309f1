import TcpServerLib.Model.Timerlib
import Mathlib.Tactic.Ring
import Mathlib.Tactic.SplitIfs

/-! # What the calls on a timer do

A call either does nothing, or sets the timer of the operating system once, whatever it calls on the way.
Its result is stated in one equation, in the milliseconds that were asked for.
-/

namespace TcpServerLib.Refinement

open Model

theorem nanoseconds_fill (msec : UInt64) : (timerFillItimerspec msec).nanoseconds = msec.toNat * 1000000 := by
  rw [timerFillItimerspec]
  split_ifs with zero
  · rw [zero]
    rfl
  · have whole := Nat.div_add_mod msec.toNat 1000
    simp only [Timespec.nanoseconds, UInt64.toNat_div, UInt64.toNat_mod, UInt64.reduceToNat]
    omega

/-- Milliseconds survive the trip through a `timespec`. -/
theorem timespecToMillisec_fill (msec : UInt64) : timespecToMillisec (timerFillItimerspec msec) = msec := by
  have whole := Nat.div_add_mod msec.toNat 1000
  apply UInt64.toNat.inj
  rw [timerFillItimerspec]
  split_ifs with zero
  · rw [zero]
    rfl
  · simp only [timespecToMillisec, UInt64.toNat_add, UInt64.toNat_ofNat', UInt64.toNat_div,
      UInt64.toNat_mod, UInt64.reduceToNat]
    have small := msec.toNat_lt
    rw [Nat.mul_div_cancel _ (by norm_num), ← Nat.add_mod, Nat.mul_comm, whole, Nat.mod_eq_of_lt small]

/-- What is left of a millisecond is dropped. -/
theorem timespecToMillisec_ofNanoseconds {ns : ℕ} (small : ns < 2 ^ 64 * 1000000) :
    (timespecToMillisec (.ofNanoseconds ns)).toNat = ns / 1000000 := by
  simp only [timespecToMillisec, Timespec.ofNanoseconds, UInt64.toNat_add, UInt64.toNat_ofNat']
  rw [← Nat.add_mod]
  omega

/-- The setting for intervals in milliseconds. -/
def setting (itValue itInterval : UInt64) : PosixTimer where
  value := if itValue = 0 then none else some (itValue.toNat * 1000000)
  interval := itInterval.toNat * 1000000

/-- Setting the timer arms it with both times. -/
theorem timerSettime_fill (itValue itInterval : UInt64) :
    timerSettime { itValue := timerFillItimerspec itValue, itInterval := timerFillItimerspec itInterval } =
      setting itValue itInterval := by
  have zero : itValue.toNat = 0 ↔ itValue = 0 := by rw [← UInt64.toNat_inj]; rfl
  simp [timerSettime, setting, nanoseconds_fill, zero]

namespace Timer

open Model.Timer

variable {timer : Timer} {expTi secExpTi : UInt64}

/-- A timer that is set, and its new state. -/
def set (timer : Timer) (itValue itInterval : UInt64) (timerState : TimerState) : Timer :=
  { timer.fillTs itValue itInterval with posixTimer := some (setting itValue itInterval), timerState }

/-- The calls that set a timer all come down to this. -/
theorem resurrectTimer_fillTs (timer : Timer) (itValue itInterval : UInt64) (timerState : TimerState) :
    ((timer.fillTs itValue itInterval).resurrectTimer.bind fun timer => some (timer.timerSetState timerState)) =
      timer.posixTimer.map fun _ => set timer itValue itInterval timerState := by
  rw [resurrectTimer, fillTs, timerSettime_fill]
  cases timer.posixTimer <;> rfl

/-- Cancelling an idle timer does nothing. -/
theorem cancelTimer_idle (idle : timer.timerState = .init ∨ timer.timerState = .deleted) :
    timer.cancelTimer = some timer :=
  if_pos idle

/-- The timer as cancelling leaves it. -/
def cancelled (timer : Timer) : Timer :=
  set { timer with timeRemaining := 0, invocationCounter := 0 } 0 0 .cancelled

theorem cancelTimer_active (active : ¬ (timer.timerState = .init ∨ timer.timerState = .deleted)) :
    timer.cancelTimer = timer.posixTimer.map fun _ => cancelled timer :=
  (if_neg active).trans
    (resurrectTimer_fillTs { timer with timeRemaining := 0, invocationCounter := 0 } 0 0 .cancelled)

/-- The timer as pausing leaves it: disarmed, with the time that was left. -/
def paused (timer : Timer) : Timer :=
  set { timer with timeRemaining := timer.timerGetTimeRemainingInMillSec } 0 0 .paused

/-- Pausing twice is pausing once. -/
theorem pauseTimer_eq : timer.pauseTimer =
    if timer.timerState = .paused then some timer else timer.posixTimer.map fun _ => paused timer :=
  congrArg (ite _ _) (resurrectTimer_fillTs
    { timer with timeRemaining := timer.timerGetTimeRemainingInMillSec } 0 0 .paused)

/-- The interval a paused timer goes on with. -/
def leftover (timer : Timer) : UInt64 := if timer.timeRemaining ≠ 0 then timer.timeRemaining else timer.expTimer

theorem fill_eq_zero {msec : UInt64} :
    (timerFillItimerspec msec).tvSec = 0 ∧ (timerFillItimerspec msec).tvNsec = 0 ↔ msec = 0 := by
  have whole := nanoseconds_fill msec
  rw [← UInt64.toNat_inj, UInt64.toNat_zero]
  rw [Timespec.nanoseconds] at whole
  omega

/-- The timer as resuming leaves it: armed with what was left. -/
def resumed (timer : Timer) : Timer :=
  set { timer with timeRemaining := 0 } (leftover timer) timer.secExpTimer .resumed

/-- Resuming needs a paused timer with time left. -/
theorem resumeTimer_eq : timer.resumeTimer =
    if timer.timerState ≠ .paused ∨ leftover timer = 0 then none else timer.posixTimer.map fun _ =>
      resumed timer := by
  rw [ite_or, ← ite_congr (propext fill_eq_zero) (fun _ => rfl) (fun _ => rfl)]
  exact congrArg (fun rest => ite _ none (ite _ none rest))
    (resurrectTimer_fillTs { timer with timeRemaining := 0 } (leftover timer) timer.secExpTimer .resumed)

/-- A timer with backoff is set for one expiration at a time. -/
def interval (timer : Timer) (secExpTi : UInt64) : UInt64 := if timer.exponentialBackoff then 0 else secExpTi

/-- The timer as restarting leaves it. -/
def restarted (timer : Timer) : Timer :=
  set { timer with invocationCounter := 0, timeRemaining := 0, expBackOffTime := timer.expTimer }
    timer.expTimer (interval timer timer.secExpTimer) .running

/-- Restarting needs a timer that was not deleted. -/
theorem restartTimer_eq : timer.restartTimer =
    if timer.timerState = .deleted then none else timer.posixTimer.map fun _ => restarted timer := by
  refine congrArg (ite _ none) ?_
  by_cases idle : timer.timerState = .init ∨ timer.timerState = .deleted
  · rw [cancelTimer_idle idle]
    exact resurrectTimer_fillTs
      { timer with invocationCounter := 0, timeRemaining := 0, expBackOffTime := timer.expTimer }
      timer.expTimer (interval timer timer.secExpTimer) .running
  · rw [cancelTimer_active idle]
    cases alive : timer.posixTimer with
    | none => rfl
    | some posixTimer =>
      exact resurrectTimer_fillTs
        { cancelled timer with invocationCounter := 0, timeRemaining := 0, expBackOffTime := timer.expTimer }
        timer.expTimer (interval timer timer.secExpTimer) .running

/-- The timer as rescheduling leaves it. -/
def rescheduled (timer : Timer) (expTi secExpTi : UInt64) : Timer :=
  set { timer with
    timeRemaining := 0
    expBackOffTime := if timer.exponentialBackoff then expTi else timer.expBackOffTime }
    expTi (interval timer secExpTi) .running

/-- The counter that `cancel_timer` clears is put back. -/
theorem rescheduleTimer_eq : timer.rescheduleTimer expTi secExpTi =
    if timer.timerState = .deleted then none else timer.posixTimer.map fun _ =>
      rescheduled timer expTi secExpTi := by
  refine congrArg (ite _ none) ?_
  have same : (if timer.timerState ≠ .cancelled then timer.cancelTimer else some timer) = some timer ∨
      (if timer.timerState ≠ .cancelled then timer.cancelTimer else some timer) =
        timer.posixTimer.map fun _ => cancelled timer := by
    split_ifs
    · by_cases idle : timer.timerState = .init ∨ timer.timerState = .deleted
      · exact .inl (cancelTimer_idle idle)
      · exact .inr (cancelTimer_active idle)
    · exact .inl rfl
  obtain ⟨posixTimer, userArg, expTimer, secExpTimer, thresdhold, cb, backoff, timeRemaining,
      counter, ts, backOffTime, state⟩ := timer
  let kept (exponentialBackoff : Bool) (expBackOffTime : UInt64) : Timer :=
    ⟨posixTimer, userArg, expTimer, secExpTimer, thresdhold, cb, exponentialBackoff, 0, counter, ts,
      expBackOffTime, state⟩
  rcases same with same | same
  · rw [same]
    cases backoff with
    | false => exact resurrectTimer_fillTs (kept false backOffTime) expTi secExpTi .running
    | true => exact resurrectTimer_fillTs (kept true expTi) expTi 0 .running
  · rw [same]
    cases posixTimer with
    | none => rfl
    | some posixTimer =>
      cases backoff with
      | false => exact resurrectTimer_fillTs (kept false backOffTime) expTi secExpTi .running
      | true => exact resurrectTimer_fillTs (kept true expTi) expTi 0 .running

theorem rescheduleTimer_alive (alive : timer.posixTimer.isSome = true) (state : timer.timerState ≠ .deleted) :
    timer.rescheduleTimer expTi secExpTi = some (rescheduled timer expTi secExpTi) := by
  obtain ⟨posixTimer, alive⟩ := Option.isSome_iff_exists.mp alive
  rw [rescheduleTimer_eq, if_neg state, alive, Option.map_some]

/-- What a call makes of a timer, if it does anything. -/
def resultOf (timer : Timer) : TimerCall → Timer
  | .start => { timer with posixTimer := some (timerSettime timer.ts), timerState := .running }
  | .delete => { timer with posixTimer := none, userArg := 0, timerState := .deleted }
  | .cancel => cancelled timer
  | .pause => paused timer
  | .resume => resumed timer
  | .restart => restarted timer
  | .reschedule expTi secExpTi => rescheduled timer expTi secExpTi

/-- A call that returns leaves the timer as described, or finds nothing to do. -/
theorem call_cases {next : Timer} {call : TimerCall} (ran : timer.call call = some next) :
    next = resultOf timer call ∨ next = timer ∧
      (call = .cancel ∧ (timer.timerState = .init ∨ timer.timerState = .deleted) ∨ call = .pause ∧
        timer.timerState = .paused) := by
  cases call with
  | start =>
    obtain ⟨_, set, same⟩ := Option.bind_eq_some_iff.mp ran
    obtain ⟨_, _, rfl⟩ := Option.map_eq_some_iff.mp set
    exact .inl (Option.some.inj same).symm
  | delete =>
    obtain ⟨_, _, rfl⟩ := Option.map_eq_some_iff.mp ran
    exact .inl rfl
  | cancel =>
    by_cases idle : timer.timerState = .init ∨ timer.timerState = .deleted
    · rw [call, cancelTimer_idle idle] at ran
      exact .inr ⟨(Option.some.inj ran).symm, .inl ⟨rfl, idle⟩⟩
    · rw [call, cancelTimer_active idle] at ran
      obtain ⟨_, _, rfl⟩ := Option.map_eq_some_iff.mp ran
      exact .inl rfl
  | pause =>
    rw [call, pauseTimer_eq] at ran
    split_ifs at ran with already
    · exact .inr ⟨(Option.some.inj ran).symm, .inr ⟨rfl, already⟩⟩
    · obtain ⟨_, _, rfl⟩ := Option.map_eq_some_iff.mp ran
      exact .inl rfl
  | resume =>
    rw [call, resumeTimer_eq] at ran
    split_ifs at ran
    obtain ⟨_, _, rfl⟩ := Option.map_eq_some_iff.mp ran
    exact .inl rfl
  | restart =>
    rw [call, restartTimer_eq] at ran
    split_ifs at ran
    obtain ⟨_, _, rfl⟩ := Option.map_eq_some_iff.mp ran
    exact .inl rfl
  | reschedule expTi secExpTi =>
    rw [call, rescheduleTimer_eq] at ran
    split_ifs at ran
    obtain ⟨_, _, rfl⟩ := Option.map_eq_some_iff.mp ran
    exact .inl rfl

/-- No call changes the kind of the timer. -/
theorem call_exponentialBackoff {next : Timer} {call : TimerCall} (ran : timer.call call = some next) :
    next.exponentialBackoff = timer.exponentialBackoff := by
  rcases call_cases ran with rfl | ⟨rfl, -⟩
  · cases call <;> rfl
  · rfl

/-- After an expiry only a backoff timer or a resumed one is set anew. -/
theorem setAnew_cases {next : Timer} (ran : timer.setAnew = some next) :
    (timer.exponentialBackoff = true ∨ timer.timerState = .resumed) ∧ next.timerState = .running ∨
      timer.exponentialBackoff = false ∧ timer.timerState ≠ .resumed ∧ next = timer := by
  rw [setAnew] at ran
  split_ifs at ran with backoff zero resumed
  · rw [rescheduleTimer_eq] at ran
    split_ifs at ran
    obtain ⟨_, _, rfl⟩ := Option.map_eq_some_iff.mp ran
    exact .inl ⟨.inl backoff, rfl⟩
  · rw [rescheduleTimer_eq] at ran
    split_ifs at ran
    obtain ⟨_, _, rfl⟩ := Option.map_eq_some_iff.mp ran
    exact .inl ⟨.inr resumed, rfl⟩
  · exact .inr ⟨Bool.eq_false_iff.mpr backoff, resumed, (Option.some.inj ran).symm⟩

end Timer

namespace TimerRun

open Model.TimerRun

variable {run next : TimerRun} {ns : ℕ} {call : TimerCall} {calls : List TimerCall}

/-- The time to the next expiration, unless there is none to come. -/
def left (timer : Timer) : Option ℕ := timer.posixTimer.bind (·.value)

/-- Time passing only counts the timer down. -/
theorem step_elapse (step : Step run (.elapse ns) next) :
    (∃ posixTimer, next.timer = { run.timer with posixTimer } ∧
      posixTimer.isSome = run.timer.posixTimer.isSome ∧
      posixTimer.map (·.interval) = run.timer.posixTimer.map (·.interval)) ∧
    left next.timer = (left run.timer).map (· - ns) ∧ (∀ n ∈ left run.timer, ns ≤ n) ∧
    next.unpaused = (run.unpaused + if run.timer.timerState = .paused then 0 else ns) ∧
    next.invoked = run.invoked := by
  obtain ⟨posixTimer, elapsed, same⟩ := Option.bind_eq_some_iff.mp step
  obtain rfl := Option.some.inj same
  cases alive : run.timer.posixTimer with
  | none =>
    rw [alive] at elapsed
    obtain rfl := Option.some.inj elapsed
    simp [left, alive]
  | some before =>
    rw [alive] at elapsed
    obtain ⟨after, ran, rfl⟩ := Option.map_eq_some_iff.mp elapsed
    cases value : before.value with
    | none =>
      simp only [PosixTimer.elapse, value, Option.some.injEq] at ran
      simp [left, alive, value, ← ran]
    | some n =>
      simp only [PosixTimer.elapse, value, Option.ite_none_right_eq_some, Option.some.injEq] at ran
      obtain ⟨enough, rfl⟩ := ran
      simp [left, alive, value, enough]

/-- The timer as its callback finds it, after an expiration. -/
def notified (timer : Timer) (posixTimer : PosixTimer) : Timer :=
  Timer.countInvocation { timer with
    posixTimer := some { posixTimer with
      value := if posixTimer.interval = 0 then none else some posixTimer.interval } }

/-- What an expiry does, by whether the threshold is reached. -/
theorem expires {posixTimer : PosixTimer} (alive : run.timer.posixTimer = some posixTimer)
    (due : posixTimer.value = some 0) :
    run.step (.expire calls) =
      if (notified run.timer posixTimer).Exhausted then
        if calls = [] then (notified run.timer posixTimer).cancelTimer.map fun timer =>
          { run with timer } else none
      else
        ((calls.foldlM Timer.call (notified run.timer posixTimer)).bind Timer.setAnew).map fun timer =>
          { run with timer, invoked := run.invoked ++ [run.unpaused] } := by
  have expired : posixTimer.expire =
      some { posixTimer with value := if posixTimer.interval = 0 then none else some posixTimer.interval } :=
    if_pos due
  simp only [TimerRun.step, alive, Option.bind_eq_bind, Option.bind_some, expired, Timer.timerCallbackWrapper]
  change (Option.bind (if (notified run.timer posixTimer).Exhausted then (notified run.timer
    posixTimer).cancelTimer
    else (calls.foldlM Timer.call (notified run.timer posixTimer)).bind Timer.setAnew) fun timer =>
      if (notified run.timer posixTimer).Exhausted then (if calls = [] then some { run with timer } else none)
      else some { run with timer, invoked := run.invoked ++ [run.unpaused] }) = _
  by_cases exhausted : (notified run.timer posixTimer).Exhausted
  · by_cases quiet : calls = []
    · simp only [if_pos exhausted, if_pos quiet, Option.map_eq_bind, Function.comp_def]
    · simp only [if_pos exhausted, if_neg quiet, Option.bind_fun_none]
  · simp only [if_neg exhausted, Option.map_eq_bind, Function.comp_def]

/-- The same of a step of the run. -/
theorem step_expire (step : Step run (.expire calls) next) :
    ∃ posixTimer, run.timer.posixTimer = some posixTimer ∧ posixTimer.value = some 0 ∧
    next.unpaused = run.unpaused ∧
      if (notified run.timer posixTimer).Exhausted then
        calls = [] ∧ next.invoked = run.invoked ∧ (notified run.timer posixTimer).cancelTimer =
          some next.timer
      else
        next.invoked = run.invoked ++ [run.unpaused] ∧
          ∃ called, calls.foldlM Timer.call (notified run.timer posixTimer) = some called ∧
          called.setAnew = some next.timer := by
  obtain ⟨posixTimer, alive, due⟩ : ∃ posixTimer, run.timer.posixTimer = some posixTimer ∧
      posixTimer.value = some 0 := by
    obtain ⟨posixTimer, alive, ran⟩ := Option.bind_eq_some_iff.mp step
    obtain ⟨after, expired, _⟩ := Option.bind_eq_some_iff.mp ran
    exact ⟨posixTimer, alive, (Option.ite_none_right_eq_some.mp expired).1⟩
  refine ⟨posixTimer, alive, due, ?_⟩
  rw [Step, expires alive due] at step
  split_ifs at step ⊢ with exhausted quiet
  · obtain ⟨timer, cancelled, rfl⟩ := Option.map_eq_some_iff.mp step
    exact ⟨rfl, quiet, rfl, cancelled⟩
  · obtain ⟨timer, ran, rfl⟩ := Option.map_eq_some_iff.mp step
    exact ⟨rfl, rfl, Option.bind_eq_some_iff.mp ran⟩

end TimerRun

end TcpServerLib.Refinement
