import Mathlib.Data.Nat.Notation

/-! # Timers

A timer of this library drives one of the operating system, which expires after `it_value` and then
after every `it_interval`; a zero `it_value` disarms it. On an expiration the library counts it, calls
the callback, and may set the timer anew. A call that runs into an assertion has no result.
-/

namespace TcpServerLib.Model

/-- No time here is negative. -/
structure Timespec where
  tvSec : ℕ := 0
  tvNsec : ℕ := 0
  deriving Inhabited

namespace Timespec

def nanoseconds (time : Timespec) : ℕ := time.tvSec * 1000000000 + time.tvNsec

def ofNanoseconds (ns : ℕ) : Timespec := ⟨ns / 1000000000, ns % 1000000000⟩

end Timespec

structure Itimerspec where
  itInterval : Timespec := {}
  itValue : Timespec := {}
  deriving Inhabited

/-- The nanoseconds to the next expiration, unless the timer is disarmed, and those to each later one. -/
structure PosixTimer where
  value : Option ℕ := none
  interval : ℕ := 0
  deriving Inhabited

def timerSettime (ts : Itimerspec) : PosixTimer where
  value := if ts.itValue.nanoseconds = 0 then none else some ts.itValue.nanoseconds
  interval := ts.itInterval.nanoseconds

def timerGettime (timer : PosixTimer) : Itimerspec where
  itInterval := .ofNanoseconds timer.interval
  itValue := .ofNanoseconds (timer.value.getD 0)

namespace PosixTimer

/-- Time goes on, but not past an expiration. -/
def elapse (timer : PosixTimer) (ns : ℕ) : Option PosixTimer :=
  match timer.value with
  | none => some timer
  | some left => if ns ≤ left then some { timer with value := some (left - ns) } else none

/-- An expiration sets the timer to its interval before anyone is notified. -/
def expire (timer : PosixTimer) : Option PosixTimer :=
  if timer.value = some 0 then some
    { timer with value := if timer.interval = 0 then none else some timer.interval } else none

end PosixTimer

inductive TimerState
  | init
  | deleted
  | paused
  | cancelled
  | resumed
  | running
  deriving DecidableEq, Inhabited

structure Timer where
  /-- Nothing, once it has been deleted. -/
  posixTimer : Option PosixTimer
  /-- The argument and the callback are pointers; `NULL` is zero. -/
  userArg : ℕ
  expTimer : UInt64
  secExpTimer : UInt64
  thresdhold : UInt32
  cb : ℕ
  exponentialBackoff : Bool
  timeRemaining : UInt64 := 0
  invocationCounter : UInt32 := 0
  ts : Itimerspec
  expBackOffTime : UInt64
  timerState : TimerState
  deriving Inhabited

def timespecToMillisec (time : Timespec) : UInt64 :=
  UInt64.ofNat (time.tvSec * 1000) + UInt64.ofNat (time.tvNsec / 1000000)

def timerFillItimerspec (msec : UInt64) : Timespec :=
  if msec = 0 then {} else { tvSec := (msec / 1000).toNat, tvNsec := (msec % 1000).toNat * 1000000 }

def setupTimer (timerCb : ℕ) (expTimer secExpTimer : UInt64) (threshold : UInt32) (userArg : ℕ)
    (exponentialBackoff : Bool) : Option Timer :=
  let itValue := timerFillItimerspec expTimer
  if timerCb = 0 then none
  else some
    { posixTimer := some {}, userArg, expTimer, secExpTimer, thresdhold := threshold, cb := timerCb,
      exponentialBackoff
      ts := { itValue, itInterval := timerFillItimerspec (if exponentialBackoff then 0 else secExpTimer) }
      expBackOffTime := if exponentialBackoff then timespecToMillisec itValue else 0
      timerState := .init }

namespace Timer

def timerSetState (timer : Timer) (timerState : TimerState) : Timer := { timer with timerState }

def fillTs (timer : Timer) (itValue itInterval : UInt64) : Timer :=
  { timer with ts := { itValue := timerFillItimerspec itValue, itInterval := timerFillItimerspec itInterval } }

/-- `timer_settime` fails for a timer that has been deleted. -/
def resurrectTimer (timer : Timer) : Option Timer :=
  timer.posixTimer.map fun _ => { timer with posixTimer := some (timerSettime timer.ts) }

def startTimer (timer : Timer) : Option Timer := do
  some ((← timer.resurrectTimer).timerSetState .running)

def deleteTimer (timer : Timer) : Option Timer :=
  timer.posixTimer.map fun _ => { timer with posixTimer := none, userArg := 0 }.timerSetState .deleted

def cancelTimer (timer : Timer) : Option Timer :=
  if timer.timerState = .init ∨ timer.timerState = .deleted then some timer
  else do
    let timer := { timer.fillTs 0 0 with timeRemaining := 0, invocationCounter := 0 }
    some ((← timer.resurrectTimer).timerSetState .cancelled)

/-- What `timer_gettime` cannot read stays zero. -/
def timerGetTimeRemainingInMillSec (timer : Timer) : UInt64 :=
  match timer.timerState with
  | .deleted | .cancelled => ~~~0
  | .init | .paused | .resumed | .running =>
      timespecToMillisec ((timer.posixTimer.map timerGettime).getD {}).itValue

def pauseTimer (timer : Timer) : Option Timer :=
  if timer.timerState = .paused then some timer
  else do
    let timer := { timer with timeRemaining := timer.timerGetTimeRemainingInMillSec }
    some ((← (timer.fillTs 0 0).resurrectTimer).timerSetState .paused)

def resumeTimer (timer : Timer) : Option Timer :=
  if timer.timerState ≠ .paused then none
  else
    let timer := timer.fillTs (if timer.timeRemaining ≠ 0 then timer.timeRemaining else timer.expTimer)
      timer.secExpTimer
    if timer.ts.itValue.tvSec = 0 ∧ timer.ts.itValue.tvNsec = 0 then none
    else do
      let timer := { timer with timeRemaining := 0 }
      some ((← timer.resurrectTimer).timerSetState .resumed)

def restartTimer (timer : Timer) : Option Timer :=
  if timer.timerState = .deleted then none
  else do
    let timer ← timer.cancelTimer
    let timer := timer.fillTs timer.expTimer (if timer.exponentialBackoff then 0 else timer.secExpTimer)
    let timer := { timer with invocationCounter := 0, timeRemaining := 0, expBackOffTime := timer.expTimer }
    some ((← timer.resurrectTimer).timerSetState .running)

def rescheduleTimer (timer : Timer) (expTi secExpTi : UInt64) : Option Timer :=
  if timer.timerState = .deleted then none
  else do
    let invocationCounter := timer.invocationCounter
    let cancelled := if timer.timerState ≠ .cancelled then timer.cancelTimer else some timer
    let timer := { (← cancelled) with invocationCounter }.fillTs expTi
      (if timer.exponentialBackoff then 0 else secExpTi)
    let timer := if timer.exponentialBackoff then { timer with expBackOffTime := expTi } else timer
    let timer := { timer with timeRemaining := 0 }
    some ((← timer.resurrectTimer).timerSetState .running)

def countInvocation (timer : Timer) : Timer := { timer with invocationCounter := timer.invocationCounter + 1 }

def Exhausted (timer : Timer) : Prop := timer.thresdhold ≠ 0 ∧ timer.thresdhold < timer.invocationCounter

instance (timer : Timer) : Decidable timer.Exhausted := inferInstanceAs (Decidable (_ ∧ _))

/-- What `timer_callback_wrapper` does after the callback. -/
def setAnew (timer : Timer) : Option Timer :=
  if timer.exponentialBackoff then
    if timer.expBackOffTime = 0 then none
    else
      let timer := { timer with expBackOffTime := timer.expBackOffTime * 2 }
      timer.rescheduleTimer timer.expBackOffTime 0
  else if timer.timerState = .resumed then timer.rescheduleTimer timer.expTimer timer.secExpTimer
  else some timer

def timerCallbackWrapper (cb : Timer → Option Timer) (timer : Timer) : Option Timer :=
  let timer := timer.countInvocation
  if timer.Exhausted then timer.cancelTimer
  else do (← cb timer).setAnew

end Timer

inductive TimerCall
  | start
  | delete
  | cancel
  | pause
  | resume
  | restart
  | reschedule (expTi secExpTi : UInt64)
  deriving DecidableEq

def Timer.call (timer : Timer) : TimerCall → Option Timer
  | .start => timer.startTimer
  | .delete => timer.deleteTimer
  | .cancel => timer.cancelTimer
  | .pause => timer.pauseTimer
  | .resume => timer.resumeTimer
  | .restart => timer.restartTimer
  | .reschedule expTi secExpTi => timer.rescheduleTimer expTi secExpTi

/-- Time goes on, the application calls, or the timer expires; its callback makes some calls. -/
inductive TimerEvent
  | elapse (ns : ℕ)
  | call (call : TimerCall)
  | expire (calls : List TimerCall)
  deriving DecidableEq

structure TimerRun where
  timer : Timer
  /-- The nanoseconds that have gone by with the timer not paused. -/
  unpaused : ℕ := 0
  /-- When the callback was invoked, in such nanoseconds. -/
  invoked : List ℕ := []

namespace TimerRun

/-- An expiration is handled before anything else happens. -/
def step (run : TimerRun) : TimerEvent → Option TimerRun
  | .elapse ns => do
    let posixTimer ← run.timer.posixTimer.elim (some none) fun posixTimer => (posixTimer.elapse ns).map some
    some { run with
      timer := { run.timer with posixTimer }
      unpaused := run.unpaused + if run.timer.timerState = .paused then 0 else ns }
  | .call call => (run.timer.call call).map fun timer => { run with timer }
  | .expire calls => do
    let posixTimer ← (← run.timer.posixTimer).expire
    let expired := { run.timer with posixTimer := some posixTimer }
    let timer ← expired.timerCallbackWrapper fun timer => calls.foldlM Timer.call timer
    if expired.countInvocation.Exhausted then
      if calls = [] then some { run with timer } else none
    else some { run with timer, invoked := run.invoked ++ [run.unpaused] }

def Step (run : TimerRun) (event : TimerEvent) (next : TimerRun) : Prop := run.step event = some next

end TimerRun

end TcpServerLib.Model
