import TcpServerLib.Machine.Path
import TcpServerLib.Refinement.TimerCalls

/-! # The threshold of a timer

`cancel_timer` clears the counter of the invocations, and the library calls it whenever it sets the timer
anew. The counter nevertheless holds the expirations since the start.
-/

namespace TcpServerLib.Soundness

open Machine Model Refinement Model.TimerRun Refinement.TimerRun

namespace TimerRun

/-- The calls after which a timer may go on. -/
def Continues : TimerCall → Prop
  | .pause => True
  | .resume => True
  | .reschedule expTi _ => expTi ≠ 0
  | _ => False

instance (call : TimerCall) : Decidable (Continues call) := by
  apply @TimerCall.casesOn (fun call => Decidable (Continues call)) call <;> intros <;>
    unfold Continues <;> infer_instance

/-- The callback leaves the timer alone, and the interval of the backoff stays within an `unsigned long`. -/
def Undisturbed (run : TimerRun) : TimerEvent → Prop
  | .elapse _ => True
  | .call call => Continues call
  | .expire calls => calls = [] ∧
      (run.timer.exponentialBackoff = true → run.timer.expBackOffTime.toNat * 2 < 2 ^ 64)

instance (run : TimerRun) (event : TimerEvent) : Decidable (Undisturbed run event) := by
  apply @TimerEvent.casesOn (fun event => Decidable (Undisturbed run event)) event <;> intros <;>
    unfold Undisturbed <;> infer_instance

def isExpire : TimerEvent → Bool
  | .expire _ => true
  | _ => false

def expirations (events : List TimerEvent) : ℕ := events.countP isExpire

/-- What `start_timer` leaves of a timer that was set up, or `restart_timer` of any. -/
def Begun (begun : Timer) : Prop :=
  (∃ timerCb expTimer secExpTimer threshold userArg exponentialBackoff timer,
    setupTimer timerCb expTimer secExpTimer threshold userArg exponentialBackoff = some timer ∧
    timer.startTimer = some begun) ∨
  ∃ timer : Timer, timer.restartTimer = some begun

/-- The timer goes on, and has counted the expirations. -/
structure Counting (threshold expired : ℕ) (timer : Timer) : Prop where
  alive : timer.posixTimer.isSome = true
  active : timer.timerState = .paused ∨ timer.timerState = .resumed ∨ timer.timerState = .running
  thresdhold : timer.thresdhold.toNat = threshold
  counted : timer.invocationCounter.toNat = expired
  first : timer.expTimer ≠ 0
  backsOff : timer.exponentialBackoff = true → timer.expBackOffTime ≠ 0

variable {run next : TimerRun} {timer : Timer} {event : TimerEvent} {events : List TimerEvent}
  {threshold expired : ℕ}

theorem Counting.not_idle (counting : Counting threshold expired timer) :
    ¬ (timer.timerState = .init ∨ timer.timerState = .deleted) := by
  rcases counting.active with state | state | state <;> simp [state]

theorem Counting.not_deleted (counting : Counting threshold expired timer) : timer.timerState ≠ .deleted :=
  fun state => counting.not_idle (.inr state)

/-- A call that sets the timer does not touch the counter. -/
theorem Counting.set {timer' : Timer} (counting : Counting threshold expired timer) (itValue itInterval : UInt64)
    {timerState : TimerState} (active : timerState = .paused ∨ timerState = .resumed ∨ timerState = .running)
    (thresdhold : timer'.thresdhold = timer.thresdhold)
    (counter : timer'.invocationCounter = timer.invocationCounter)
    (first : timer'.expTimer = timer.expTimer)
    (backsOff : timer'.exponentialBackoff = true → timer'.expBackOffTime ≠ 0) :
    Counting threshold expired (Refinement.Timer.set timer' itValue itInterval timerState) where
  alive := rfl
  active := active
  thresdhold := (congrArg UInt32.toNat thresdhold).trans counting.thresdhold
  counted := (congrArg UInt32.toNat counter).trans counting.counted
  first := fun zero => counting.first (first.symm.trans zero)
  backsOff := backsOff

theorem Counting.rescheduled (counting : Counting threshold expired timer) {expTi secExpTi : UInt64}
    (positive : timer.exponentialBackoff = true → expTi ≠ 0) :
    Counting threshold expired (Timer.rescheduled timer expTi secExpTi) := by
  refine counting.set _ _ (.inr (.inr rfl)) rfl rfl rfl fun backoff => ?_
  exact (if_pos backoff).trans_ne (positive backoff)

theorem Counting.call (counting : Counting threshold expired run.timer) {call : TimerCall}
    (continues : Continues call)
    (ran : run.timer.call call = some timer) : Counting threshold expired timer := by
  rcases Timer.call_cases ran with rfl | ⟨rfl, -⟩
  · cases call with
    | pause => exact counting.set _ _ (.inl rfl) rfl rfl rfl counting.backsOff
    | resume => exact counting.set _ _ (.inr (.inl rfl)) rfl rfl rfl counting.backsOff
    | reschedule expTi secExpTi => exact counting.rescheduled fun _ => continues
    | start | delete | cancel | restart => exact continues.elim
  · exact counting

theorem Counting.notified (counting : Counting threshold expired timer) (posixTimer : PosixTimer)
    (inside : expired + 1 < 2 ^ 32) :
    Counting threshold (expired + 1) (notified timer posixTimer) where
  alive := rfl
  active := counting.active
  thresdhold := counting.thresdhold
  counted := by
    have counted := counting.counted
    change (timer.invocationCounter + 1).toNat = expired + 1
    rw [UInt32.toNat_add, counted]
    exact Nat.mod_eq_of_lt inside
  first := counting.first
  backsOff := counting.backsOff

theorem Counting.exhausted_iff (counting : Counting threshold expired timer) (positive : 0 < threshold) :
    timer.Exhausted ↔ threshold < expired := by
  have nonzero : timer.thresdhold ≠ 0 := by
    intro zero
    have thresdhold := counting.thresdhold
    rw [zero] at thresdhold
    exact positive.ne thresdhold
  rw [Timer.Exhausted, and_iff_right nonzero, UInt32.lt_iff_toNat_lt, counting.thresdhold, counting.counted]

/-- The timer after its callback has left it alone. -/
def anew (timer : Timer) : Timer :=
  if timer.exponentialBackoff then
    Timer.rescheduled { timer with expBackOffTime := timer.expBackOffTime * 2 } (timer.expBackOffTime * 2) 0
  else if timer.timerState = .resumed then Timer.rescheduled timer timer.expTimer timer.secExpTimer
  else timer

theorem Counting.setAnew_eq (counting : Counting threshold expired timer) :
    timer.setAnew = some (anew timer) := by
  rw [Timer.setAnew, anew]
  split_ifs with backoff zero resumed
  · exact absurd zero (counting.backsOff backoff)
  · exact Timer.rescheduleTimer_alive counting.alive counting.not_deleted
  · exact Timer.rescheduleTimer_alive counting.alive counting.not_deleted
  · rfl

theorem Counting.anew (counting : Counting threshold expired timer)
    (fits : timer.exponentialBackoff = true → timer.expBackOffTime.toNat * 2 < 2 ^ 64) :
    Counting threshold expired (anew timer) := by
  rw [TimerRun.anew]
  split_ifs with backoff resumed
  · have doubled : timer.expBackOffTime * 2 ≠ 0 := by
      intro zero
      have product := congrArg UInt64.toNat zero
      rw [UInt64.toNat_mul, UInt64.toNat_zero] at product
      have whole := (Nat.mod_eq_of_lt (fits backoff)).symm.trans product
      exact counting.backsOff backoff (UInt64.toNat.inj (by simpa using whole))
    exact counting.set _ _ (.inr (.inr rfl)) rfl rfl rfl fun _ => (if_pos backoff).trans_ne doubled
  · exact counting.rescheduled fun yes => absurd yes backoff
  · exact counting

/-- An expiration up to the threshold. -/
theorem Counting.expire (counting : Counting threshold expired run.timer) (few : expired < threshold)
    (small : threshold < 2 ^ 32 - 1)
    {posixTimer : PosixTimer} (alive : run.timer.posixTimer = some posixTimer) (due : posixTimer.value = some 0) :
    run.step (.expire []) =
      some { run with
        timer := TimerRun.anew (Refinement.TimerRun.notified run.timer posixTimer)
        invoked := run.invoked ++ [run.unpaused] } := by
  have notified := counting.notified posixTimer (by omega)
  rw [expires alive due, if_neg fun exhausted => ?_]
  · exact congrArg (Option.map _) notified.setAnew_eq
  · exact absurd ((notified.exhausted_iff (by omega)).mp exhausted) (by omega)

theorem Counting.step (counting : Counting threshold expired run.timer) (small : threshold < 2 ^ 32 - 1)
    (few : expired + expirations [event] ≤ threshold) (step : Guarded Step Undisturbed run event next) :
    Counting threshold (expired + expirations [event]) next.timer ∧
      next.invoked.length = run.invoked.length + expirations [event] := by
  obtain ⟨undisturbed, step⟩ := step
  cases event with
  | elapse ns =>
    obtain ⟨⟨posixTimer, same, alive, _⟩, _, _, _, invoked⟩ := step_elapse step
    rw [same, invoked]
    refine ⟨⟨alive.trans counting.alive, ?_, ?_, ?_, ?_, ?_⟩, rfl⟩
    · exact counting.active
    · exact counting.thresdhold
    · exact counting.counted
    · exact counting.first
    · exact counting.backsOff
  | call call =>
    obtain ⟨timer, ran, rfl⟩ := Option.map_eq_some_iff.mp step
    exact ⟨counting.call undisturbed ran, rfl⟩
  | expire calls =>
    obtain ⟨rfl, fits⟩ := undisturbed
    obtain ⟨posixTimer, alive, due, _⟩ := step_expire step
    have ran := counting.expire few small alive due
    obtain rfl := Option.some.inj (step.symm.trans ran)
    exact ⟨(counting.notified posixTimer (by omega)).anew fits, List.length_append⟩

theorem Begun.counting {begun : Timer} (begins : Begun begun) (first : begun.expTimer ≠ 0) :
    Counting begun.thresdhold.toNat 0 begun := by
  rcases begins with ⟨timerCb, expTimer, secExpTimer, threshold, userArg, exponentialBackoff, timer,
    set, started⟩ | ⟨timer, restarted⟩
  · obtain ⟨_, set⟩ := Option.ite_none_left_eq_some.mp set
    obtain rfl := Option.some.inj set
    obtain rfl := Option.some.inj started
    refine ⟨rfl, .inr (.inr rfl), rfl, rfl, first, fun backoff => ?_⟩
    obtain rfl : exponentialBackoff = true := backoff
    exact (timespecToMillisec_fill expTimer).trans_ne first
  · rw [Timer.restartTimer_eq] at restarted
    split_ifs at restarted
    obtain ⟨_, _, rfl⟩ := Option.map_eq_some_iff.mp restarted
    exact ⟨rfl, .inr (.inr rfl), rfl, rfl, first, fun _ => first⟩

end TimerRun

open TimerRun

/-- A timer for one invocation, with backoff, that is paused on the way. -/
def once : Timer := ((setupTimer 1 1000 0 1 0 true).bind Timer.startTimer).getD default

end TcpServerLib.Soundness
