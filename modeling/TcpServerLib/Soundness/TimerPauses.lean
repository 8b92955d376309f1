import TcpServerLib.Machine.Path
import TcpServerLib.Refinement.TimerCalls

/-! # Timers that are paused and resumed

A paused timer keeps the time it had left, in whole milliseconds, and is resumed for that time. When it
then expires, the library sets it for its first interval again, whatever its repeat interval is.
-/

namespace TcpServerLib.Soundness

open Machine Model Refinement Model.TimerRun Refinement.TimerRun

/-- The nanoseconds after which the callback is to be invoked for the time `k`, if it is. -/
def scheduled (expTimer secExpTimer : UInt64) (k : ℕ) : Option ℕ :=
  if k = 0 ∨ secExpTimer ≠ 0 then some ((expTimer.toNat + k * secExpTimer.toNat) * 1000000) else none

/-- The callback has been invoked at the instants of the schedule up to now, and nobody else. -/
structure OnSchedule (expTimer secExpTimer : UInt64) (run : TimerRun) : Prop where
  instants : ∀ k instant, run.invoked[k]? = some instant → scheduled expTimer secExpTimer k = some instant
  inTime : ∀ instant, scheduled expTimer secExpTimer run.invoked.length = some instant →
    run.unpaused ≤ instant
  armed : run.timer.timerState ≠ .paused →
    left run.timer = (scheduled expTimer secExpTimer run.invoked.length).map (· - run.unpaused)
  halted : run.timer.timerState = .paused → left run.timer = none
  expires : left run.timer = some 0 → ∃ next, Step run (.expire []) next

namespace TimerRun

/-- A timer is paused while it is armed with a millisecond left, and resumed. Its callback may do so as well. -/
def Pauses (run : TimerRun) : TimerEvent → Prop
  | .elapse _ => True
  | .call call => call = .resume ∨ call = .pause ∧ ∃ n ∈ left run.timer, 1000000 ≤ n
  | .expire calls => (∀ call ∈ calls, call = .pause ∨ call = .resume) ∧
      (calls ≠ [] → run.timer.secExpTimer ≠ 0)

instance (run : TimerRun) (event : TimerEvent) : Decidable (Pauses run event) := by
  apply @TimerEvent.casesOn (fun event => Decidable (Pauses run event)) event <;> intros <;>
    unfold Pauses <;> infer_instance

/-- The state in which the callback leaves the timer. -/
def leaves (timerState : TimerState) (calls : List TimerCall) : TimerState :=
  calls.foldl (fun _ call => if call = .resume then .resumed else .paused) timerState

/-- A whole number of milliseconds is left at a pause, and a timer that is resumed when its callback returns has
two equal intervals. -/
def Exact (run : TimerRun) : TimerEvent → Prop
  | .elapse _ => True
  | .call call => call = .pause → ∀ n ∈ left run.timer, 1000000 ∣ n
  | .expire calls => leaves run.timer.timerState calls = .resumed → run.timer.expTimer = run.timer.secExpTimer

instance (run : TimerRun) (event : TimerEvent) : Decidable (Exact run event) := by
  apply @TimerEvent.casesOn (fun event => Decidable (Exact run event)) event <;> intros <;>
    unfold Exact <;> infer_instance

/-- The timer has this many nanoseconds to go, whether it is armed or paused. -/
structure Awaits (expTimer secExpTimer : UInt64) (remaining : Option ℕ) (timer : Timer) : Prop where
  first : timer.expTimer = expTimer
  second : timer.secExpTimer = secExpTimer
  unlimited : timer.thresdhold = 0
  steady : timer.exponentialBackoff = false
  small : ∀ n ∈ remaining, n < 2 ^ 64 * 1000000
  programmed : (timer.timerState = .running ∨ timer.timerState = .resumed) ∧
      timer.posixTimer = some { value := remaining, interval := secExpTimer.toNat * 1000000 } ∨
    timer.timerState = .paused ∧ timer.posixTimer = some {} ∧ timer.timeRemaining ≠ 0 ∧
      remaining = some (timer.timeRemaining.toNat * 1000000)

variable {run next : TimerRun} {timer timer' : Timer} {event : TimerEvent} {events : List TimerEvent}
  {calls : List TimerCall} {expTimer secExpTimer : UInt64} {remaining : Option ℕ} {n : ℕ}

theorem Awaits.left_active (awaits : Awaits expTimer secExpTimer remaining timer)
    (active : timer.timerState ≠ .paused) :
    left timer = remaining := by
  rcases awaits.programmed with ⟨_, armed⟩ | ⟨paused, _⟩
  · rw [left, armed, Option.bind_some]
  · exact absurd paused active

theorem Awaits.left_paused (awaits : Awaits expTimer secExpTimer remaining timer)
    (paused : timer.timerState = .paused) :
    left timer = none := by
  rcases awaits.programmed with ⟨active, _⟩ | ⟨_, disarmed, _⟩
  · rcases active with state | state <;> rw [paused] at state <;> cases state
  · rw [left, disarmed, Option.bind_some]

theorem Awaits.of_left (awaits : Awaits expTimer secExpTimer remaining timer) (some : left timer = some n) :
    timer.timerState ≠ .paused ∧ remaining = .some n := by
  by_cases paused : timer.timerState = .paused
  · rw [awaits.left_paused paused] at some
    cases some
  · exact ⟨paused, (awaits.left_active paused).symm.trans some⟩

theorem Awaits.set (awaits : Awaits expTimer secExpTimer remaining timer) (timer' : Timer)
    (itValue itInterval : UInt64)
    {timerState : TimerState}
    (same : timer'.expTimer = timer.expTimer ∧ timer'.secExpTimer = timer.secExpTimer ∧
      timer'.thresdhold = timer.thresdhold ∧ timer'.exponentialBackoff = timer.exponentialBackoff)
    {remaining' : Option ℕ} (small : ∀ n ∈ remaining', n < 2 ^ 64 * 1000000)
    (programmed : (timerState = .running ∨ timerState = .resumed) ∧
        setting itValue itInterval = { value := remaining', interval := secExpTimer.toNat * 1000000 } ∨
      timerState = .paused ∧ setting itValue itInterval = {} ∧ timer'.timeRemaining ≠ 0 ∧
        remaining' = some (timer'.timeRemaining.toNat * 1000000)) :
    Awaits expTimer secExpTimer remaining' (Timer.set timer' itValue itInterval timerState) where
  first := same.1.trans awaits.first
  second := same.2.1.trans awaits.second
  unlimited := same.2.2.1.trans awaits.unlimited
  steady := same.2.2.2.trans awaits.steady
  small := small
  programmed := by
    rcases programmed with ⟨active, armed⟩ | ⟨paused, disarmed, kept⟩
    · exact .inl ⟨active, congrArg some armed⟩
    · exact .inr ⟨paused, congrArg some disarmed, kept⟩

theorem Awaits.pause (awaits : Awaits expTimer secExpTimer (some n) timer) (enough : 1000000 ≤ n)
    (whole : 1000000 ∣ n)
    (ran : timer.call .pause = some timer') : Awaits expTimer secExpTimer (some n) timer' ∧
    timer'.timerState = .paused := by
  rw [Timer.call, Timer.pauseTimer_eq] at ran
  rcases awaits.programmed with ⟨active, armed⟩ | ⟨already, _⟩
  · have small := awaits.small n rfl
    have unpaused : timer.timerState ≠ .paused := by rcases active with state | state <;> simp [state]
    have saved : timer.timerGetTimeRemainingInMillSec.toNat = n / 1000000 := by
      have read : timer.timerGetTimeRemainingInMillSec = timespecToMillisec (.ofNanoseconds n) := by
        rcases active with state | state <;> simp [Timer.timerGetTimeRemainingInMillSec, state,
          armed, timerGettime]
      rw [read, timespecToMillisec_ofNanoseconds small]
    rw [if_neg unpaused, armed, Option.map_some] at ran
    obtain rfl := Option.some.inj ran
    refine ⟨awaits.set { timer with timeRemaining := timer.timerGetTimeRemainingInMillSec } 0 0
      ⟨rfl, rfl, rfl, rfl⟩ awaits.small
      (.inr ⟨rfl, rfl, ?_, ?_⟩), rfl⟩
    · intro zero
      have none := congrArg UInt64.toNat zero
      rw [UInt64.toNat_zero] at none
      exact absurd (saved.symm.trans none) (Nat.div_pos enough (by decide)).ne'
    · exact congrArg some ((Nat.div_mul_cancel whole).symm.trans (congrArg (· * 1000000) saved.symm))
  · rw [if_pos already] at ran
    obtain rfl := Option.some.inj ran
    exact ⟨awaits, already⟩

theorem Awaits.resume (awaits : Awaits expTimer secExpTimer remaining timer)
    (ran : timer.call .resume = some timer') :
    Awaits expTimer secExpTimer remaining timer' ∧ timer'.timerState = .resumed := by
  rw [Timer.call, Timer.resumeTimer_eq] at ran
  split_ifs at ran with refused
  obtain ⟨_, _, rfl⟩ := Option.map_eq_some_iff.mp ran
  rw [not_or, not_not] at refused
  rcases awaits.programmed with ⟨active, _⟩ | ⟨_, _, saved, rest⟩
  · rcases active with state | state <;> rw [refused.1] at state <;> cases state
  · have leftover : Timer.leftover timer = timer.timeRemaining := if_pos saved
    refine ⟨awaits.set { timer with timeRemaining := 0 } (Timer.leftover timer) timer.secExpTimer
      ⟨rfl, rfl, rfl, rfl⟩ awaits.small
      (.inl ⟨.inr rfl, ?_⟩), rfl⟩
    rw [setting, leftover, if_neg saved, rest, awaits.second]

/-- What a callback makes of a timer that has been armed for its next interval. -/
theorem Awaits.callback (awaits : Awaits expTimer secExpTimer (some (secExpTimer.toNat * 1000000)) timer)
    (again : secExpTimer ≠ 0)
    (pauses : ∀ call ∈ calls, call = .pause ∨ call = .resume)
    (ran : calls.foldlM Timer.call timer = some timer') :
    Awaits expTimer secExpTimer (some (secExpTimer.toNat * 1000000)) timer' ∧
      timer'.timerState = leaves timer.timerState calls := by
  induction calls generalizing timer with
  | nil =>
    obtain rfl := Option.some.inj ran
    exact ⟨awaits, rfl⟩
  | cons call calls ih =>
    obtain ⟨middle, called, rest⟩ := Option.bind_eq_some_iff.mp ran
    obtain ⟨pauses, others⟩ := List.forall_mem_cons.mp pauses
    have positive : 0 < secExpTimer.toNat := Nat.pos_of_ne_zero fun zero => again (UInt64.toNat.inj zero)
    rcases pauses with rfl | rfl
    · obtain ⟨awaits, state⟩ := awaits.pause (by omega) (Nat.dvd_mul_left _ _) called
      obtain ⟨awaits, final⟩ := ih awaits others rest
      rw [state] at final
      exact ⟨awaits, final⟩
    · obtain ⟨awaits, state⟩ := awaits.resume called
      obtain ⟨awaits, final⟩ := ih awaits others rest
      rw [state] at final
      exact ⟨awaits, final⟩

/-- What the timer is set to by an expiration. -/
def again (secExpTimer : UInt64) : Option ℕ :=
  if secExpTimer = 0 then none else some (secExpTimer.toNat * 1000000)

theorem Awaits.notified (awaits : Awaits expTimer secExpTimer (some 0) timer) :
    ∃ posixTimer, timer.posixTimer = some posixTimer ∧ posixTimer.value = some 0 ∧
      Awaits expTimer secExpTimer (again secExpTimer) (Refinement.TimerRun.notified timer posixTimer) ∧
      ¬ (Refinement.TimerRun.notified timer posixTimer).Exhausted := by
  rcases awaits.programmed with ⟨active, armed⟩ | ⟨_, _, saved, none⟩
  · refine ⟨_, armed, rfl, ?_, fun exhausted => exhausted.1 awaits.unlimited⟩
    have zero : secExpTimer.toNat * 1000000 = 0 ↔ secExpTimer = 0 := by
      rw [← UInt64.toNat_inj, UInt64.toNat_zero]
      omega
    refine ⟨awaits.first, awaits.second, awaits.unlimited, awaits.steady, fun n member =>
      ?_, .inl ⟨active, ?_⟩⟩
    · have bound := secExpTimer.toNat_lt
      obtain ⟨_, same⟩ := Option.ite_none_left_eq_some.mp member
      obtain rfl := Option.some.inj same
      omega
    · simp only [Refinement.TimerRun.notified, Timer.countInvocation, again, zero]
  · have nothing : timer.timeRemaining.toNat = 0 := by
      have value := Option.some.inj none
      omega
    exact absurd (UInt64.toNat.inj nothing) saved

/-- The timer after its callback has returned. -/
def renewed (timer : Timer) : Timer :=
  if timer.timerState = .resumed then Timer.rescheduled timer timer.expTimer timer.secExpTimer else timer

theorem Awaits.setAnew_eq (awaits : Awaits expTimer secExpTimer remaining timer) :
    timer.setAnew = some (renewed timer) := by
  have steady : ¬ timer.exponentialBackoff = true := Bool.eq_false_iff.mp awaits.steady
  have alive : timer.posixTimer.isSome = true := by
    rcases awaits.programmed with ⟨_, armed⟩ | ⟨_, disarmed, _⟩
    · exact armed ▸ rfl
    · exact disarmed ▸ rfl
  rw [Timer.setAnew, if_neg steady, renewed]
  split_ifs with resumed
  · exact Timer.rescheduleTimer_alive alive (by simp [resumed])
  · rfl

theorem Awaits.renewed (awaits : Awaits expTimer secExpTimer (again secExpTimer) timer)
    (exact : timer.timerState = .resumed → expTimer = secExpTimer) :
    Awaits expTimer secExpTimer (again secExpTimer) (renewed timer) := by
  rw [TimerRun.renewed]
  split_ifs with resumed
  · obtain rfl := exact resumed
    have steady : ¬ timer.exponentialBackoff = true := Bool.eq_false_iff.mp awaits.steady
    refine awaits.set { timer with
      timeRemaining := 0
      expBackOffTime := if timer.exponentialBackoff then _ else timer.expBackOffTime }
      timer.expTimer (Timer.interval timer timer.secExpTimer) ⟨rfl, rfl, rfl, rfl⟩ awaits.small
      (.inl ⟨.inl rfl, ?_⟩)
    rw [Timer.interval, if_neg steady, awaits.first, awaits.second]
    rfl
  · exact awaits

/-- The callback has been invoked on schedule, and the timer awaits the next instant. -/
structure Pacing (expTimer secExpTimer : UInt64) (run : TimerRun) : Prop where
  instants : ∀ k instant, run.invoked[k]? = some instant → scheduled expTimer secExpTimer k = some instant
  awaits : ∃ remaining, Awaits expTimer secExpTimer remaining run.timer ∧
    scheduled expTimer secExpTimer run.invoked.length = remaining.map (run.unpaused + ·)

theorem scheduled_next {k instant : ℕ} (now : scheduled expTimer secExpTimer k = some instant) :
    scheduled expTimer secExpTimer (k + 1) = (again secExpTimer).map (instant + ·) := by
  rw [scheduled] at now ⊢
  obtain ⟨_, same⟩ := Option.ite_none_right_eq_some.mp now
  obtain rfl := Option.some.inj same
  by_cases zero : secExpTimer = 0
  · rw [again, if_pos zero, if_neg (by simp [zero])]
    rfl
  · rw [again, if_neg zero, if_pos (.inr zero), Option.map_some, ← Nat.add_mul, Nat.succ_mul, Nat.add_assoc]

theorem Pacing.elapse {ns : ℕ} (pacing : Pacing expTimer secExpTimer run) (step : Step run (.elapse ns) next) :
    Pacing expTimer secExpTimer next := by
  obtain ⟨remaining, awaits, due⟩ := pacing.awaits
  obtain ⟨⟨posixTimer, same, alive, interval⟩, elapsed, within, unpaused, invoked⟩ := step_elapse step
  refine ⟨fun k => invoked ▸ pacing.instants k, ?_⟩
  obtain ⟨after, rfl⟩ : ∃ after, posixTimer = some after := by
    rcases awaits.programmed with ⟨_, armed⟩ | ⟨_, disarmed, _⟩
    · exact Option.isSome_iff_exists.mp (alive.trans (armed ▸ rfl))
    · exact Option.isSome_iff_exists.mp (alive.trans (disarmed ▸ rfl))
  have value : after.value = (left run.timer).map (· - ns) := by rw [← elapsed, same, left, Option.bind_some]
  rcases awaits.programmed with ⟨active, armed⟩ | ⟨paused, disarmed, saved⟩
  · rw [awaits.left_active (by rcases active with state | state <;> simp [state])] at value within
    rw [armed, Option.map_some, Option.map_some, Option.some.injEq] at interval
    refine ⟨remaining.map (· - ns), ⟨?_, ?_, ?_, ?_, ?_, .inl ⟨?_, ?_⟩⟩, ?_⟩
    · exact same ▸ awaits.first
    · exact same ▸ awaits.second
    · exact same ▸ awaits.unlimited
    · exact same ▸ awaits.steady
    · intro n member
      obtain ⟨before, there, rfl⟩ := Option.map_eq_some_iff.mp member
      exact (Nat.sub_le _ _).trans_lt (awaits.small before there)
    · exact same ▸ active
    · rw [same]
      exact congrArg some (congrArg₂ PosixTimer.mk value interval)
    · rw [invoked, unpaused, due, if_neg (by rcases active with state | state <;> simp [state]), Option.map_map]
      cases remaining with
      | none => rfl
      | some n =>
        have enough := within n rfl
        exact congrArg some (by dsimp only [Function.comp_apply]; omega)
  · rw [awaits.left_paused paused, Option.map_none] at value
    rw [disarmed, Option.map_some, Option.map_some, Option.some.injEq] at interval
    refine ⟨remaining, ⟨?_, ?_, ?_, ?_, awaits.small, .inr ⟨?_, ?_, ?_⟩⟩, ?_⟩
    · exact same ▸ awaits.first
    · exact same ▸ awaits.second
    · exact same ▸ awaits.unlimited
    · exact same ▸ awaits.steady
    · exact same ▸ paused
    · rw [same]
      exact congrArg some (congrArg₂ PosixTimer.mk value interval)
    · exact same ▸ saved
    · rw [invoked, unpaused, if_pos paused, Nat.add_zero, due]

theorem Pacing.call {call : TimerCall} (pacing : Pacing expTimer secExpTimer run)
    (pauses : Pauses run (.call call))
    (exact : Exact run (.call call)) (ran : run.timer.call call = some timer') :
    Pacing expTimer secExpTimer { run with timer := timer' } := by
  obtain ⟨remaining, awaits, due⟩ := pacing.awaits
  rcases pauses with rfl | ⟨rfl, n, armed, enough⟩
  · exact ⟨pacing.instants, remaining, (awaits.resume ran).1, due⟩
  · obtain ⟨_, rfl⟩ := awaits.of_left armed
    exact ⟨pacing.instants, _, (awaits.pause enough (exact rfl n armed) ran).1, due⟩

theorem Pacing.expire (pacing : Pacing expTimer secExpTimer run) (pauses : Pauses run (.expire calls))
    (exact : Exact run (.expire calls)) (step : Step run (.expire calls) next) :
    Pacing expTimer secExpTimer next := by
  obtain ⟨remaining, awaits, due⟩ := pacing.awaits
  obtain ⟨posixTimer, alive, value, unpaused, ran⟩ := step_expire step
  obtain ⟨_, rfl⟩ := awaits.of_left
      (show left run.timer = some 0 by rw [left, alive, Option.bind_some, value])
  obtain ⟨_, alive', _, notified, unlimited⟩ := awaits.notified
  obtain rfl := Option.some.inj (alive.symm.trans alive')
  rw [if_neg unlimited] at ran
  obtain ⟨invoked, called, ran, set⟩ := ran
  have callback : Awaits expTimer secExpTimer (again secExpTimer) called ∧
      called.timerState = leaves run.timer.timerState calls := by
    by_cases quiet : calls = []
    · subst quiet
      obtain rfl := Option.some.inj ran
      exact ⟨notified, rfl⟩
    · have nonzero : secExpTimer ≠ 0 := awaits.second ▸ pauses.2 quiet
      rw [again, if_neg nonzero] at notified ⊢
      exact notified.callback nonzero pauses.1 ran
  have anew := callback.1.renewed fun resumed =>
    awaits.first.symm.trans ((exact (callback.2.symm.trans resumed)).trans awaits.second)
  rw [← Option.some.inj (set.symm.trans callback.1.setAnew_eq)] at anew
  have now : scheduled expTimer secExpTimer run.invoked.length = some run.unpaused := due
  constructor
  · intro k instant member
    rw [invoked, List.getElem?_append] at member
    split_ifs at member with earlier
    · exact pacing.instants k instant member
    · obtain ⟨within, rfl⟩ := List.getElem?_eq_some_iff.mp member
      have last : k = run.invoked.length := by rw [List.length_singleton] at within; omega
      simp only [last, Nat.sub_self, List.getElem_cons_zero, now]
  · refine ⟨again secExpTimer, anew, ?_⟩
    rw [invoked, List.length_append, List.length_singleton, scheduled_next now, unpaused]

theorem Pacing.step (pacing : Pacing expTimer secExpTimer run)
    (step : Guarded Step (fun run event => Pauses run event ∧ Exact run event) run event next) :
    Pacing expTimer secExpTimer next := by
  obtain ⟨⟨pauses, exact⟩, step⟩ := step
  cases event with
  | elapse ns => exact pacing.elapse step
  | call call =>
    obtain ⟨timer, ran, rfl⟩ := Option.map_eq_some_iff.mp step
    exact pacing.call pauses exact ran
  | expire calls => exact pacing.expire pauses exact step

theorem Pacing.onSchedule (pacing : Pacing expTimer secExpTimer run) : OnSchedule expTimer secExpTimer run := by
  obtain ⟨remaining, awaits, due⟩ := pacing.awaits
  constructor
  · exact pacing.instants
  · intro instant next
    obtain ⟨n, _, rfl⟩ := Option.map_eq_some_iff.mp (due.symm.trans next)
    exact Nat.le_add_right _ n
  · intro active
    rw [awaits.left_active active, due, Option.map_map]
    cases remaining with
    | none => rfl
    | some n => exact congrArg some (Nat.add_sub_cancel_left _ n).symm
  · exact awaits.left_paused
  · intro armed
    obtain ⟨active, rfl⟩ := awaits.of_left armed
    obtain ⟨posixTimer, alive, value, notified, unlimited⟩ := awaits.notified
    have anew : (([] : List TimerCall).foldlM Timer.call
        (Refinement.TimerRun.notified run.timer posixTimer)).bind Timer.setAnew =
        some (renewed (Refinement.TimerRun.notified run.timer posixTimer)) := notified.setAnew_eq
    have ran : run.step (.expire []) = _ := expires alive value
    rw [if_neg unlimited, anew] at ran
    exact ⟨_, ran⟩

theorem pacing_start {timerCb userArg : ℕ} {started : Timer} (positive : expTimer ≠ 0)
    (set : setupTimer timerCb expTimer secExpTimer 0 userArg false = some timer)
    (start : timer.startTimer = some started) :
    Pacing expTimer secExpTimer { timer := started } := by
  obtain ⟨_, set⟩ := Option.ite_none_left_eq_some.mp set
  obtain rfl := Option.some.inj set
  obtain rfl := Option.some.inj start
  refine ⟨fun k instant member => (by cases member),
    ⟨some (expTimer.toNat * 1000000), ⟨rfl, rfl, rfl, rfl, ?_, .inl ⟨.inl rfl, ?_⟩⟩, ?_⟩⟩
  · rintro _ ⟨⟩
    exact Nat.mul_lt_mul_of_pos_right expTimer.toNat_lt (by decide)
  · refine congrArg some ((timerSettime_fill expTimer secExpTimer).trans ?_)
    rw [setting, if_neg positive]
  · rw [scheduled, if_pos (.inl rfl)]
    simp

end TimerRun

open TimerRun

/-- While each pause leaves whole milliseconds, and no callback returns with the timer resumed
unless the two intervals are equal, the callback is invoked on schedule. -/
theorem pausedOnSchedule {timerCb userArg : ℕ} {expTimer secExpTimer : UInt64} {timer started : Timer}
    {events : List TimerEvent}
    {run : TimerRun} (set : setupTimer timerCb expTimer secExpTimer 0 userArg false = some timer)
    (start : timer.startTimer = some started) (positive : expTimer ≠ 0)
    (path : Path (Guarded Step fun run event => Pauses run event ∧ Exact run event)
      { timer := started } events run) :
    OnSchedule expTimer secExpTimer run := by
  have pacing : Pacing expTimer secExpTimer run :=
    path.invariant (fun step pacing => pacing.step step) (pacing_start positive set start)
  exact pacing.onSchedule

/-- A timer that expires after a second, and then every `secExpTimer` milliseconds. -/
def everySecond (secExpTimer : UInt64) : Timer :=
  ((setupTimer 1 1000 secExpTimer 0 0 false).bind Timer.startTimer).getD default

def halfway : List TimerEvent :=
  [.elapse 500000000, .call .pause, .elapse 7, .call .resume, .elapse 500000000, .expire []]

def pausedHalfway : TimerRun := replayed TimerRun.step (fun run event => Pauses run event ∧ Exact run event)
  { timer := everySecond 1000 } halfway

theorem pausedOnSchedule_periodic : OnSchedule 1000 1000 pausedHalfway := by
  have set : setupTimer 1 1000 1000 0 0 false = some ((setupTimer 1 1000 1000 0 0 false).getD default) := rfl
  have start : ((setupTimer 1 1000 1000 0 0 false).getD default).startTimer = some (everySecond 1000) := rfl
  exact pausedOnSchedule set start (by decide) (replayed_path (by decide +kernel))

def oneShot : TimerRun :=
  replayed TimerRun.step Pauses { timer := everySecond 0 } (halfway ++ [.elapse 1000000000, .expire []])

/-- A timer for one invocation is invoked again, one interval after it was paused and resumed. -/
theorem oneShot_again : ((setupTimer 1 1000 0 0 0 false).bind Timer.startTimer) = some (everySecond 0) ∧
    Path (Guarded Step Pauses) { timer := everySecond 0 }
    (halfway ++ [.elapse 1000000000, .expire []]) oneShot ∧ ¬ OnSchedule 1000 0 oneShot := by
  refine ⟨rfl, replayed_path (by decide +kernel), fun onSchedule => ?_⟩
  have again : oneShot.invoked[1]? = some 2000000000 := by decide +kernel
  cases onSchedule.instants 1 _ again

end TcpServerLib.Soundness
