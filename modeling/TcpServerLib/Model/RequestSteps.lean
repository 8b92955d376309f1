import TcpServerLib.Model.WheelTimer

/-! # The steps of a request

`_timer_reschedule` writes the opcode and the interval into the element first, and then takes the lock
of the reschedule list to queue the element. Other threads and the wheel thread come in between. The
request that has been enqueued last for an element is kept beside the wheel, and so is the absolute
slot number that it asks for once a drain has taken it.
-/

namespace TcpServerLib.Model

/-- What `_timer_reschedule` is called with. -/
inductive TimerRequest
  | create (timeInterval : Int32)
  | resched (newTimeInterval : Int32)
  | delete
  deriving DecidableEq

namespace TimerRequest

def opcode : TimerRequest → WtOpcode
  | .create _ => .create
  | .resched _ => .resched
  | .delete => .delete

def interval : TimerRequest → Int32
  | .create interval | .resched interval => interval
  | .delete => 0

end TimerRequest

structure RequestSteps where
  wt : WheelTimer
  /-- The requests that have written to their element and have not queued it yet. -/
  inFlight : List (WheelTimerElemRef × TimerRequest) := []
  enqueued : WheelTimerElemRef → Option TimerRequest := fun _ => none
  place : WheelTimerElemRef → Option ℕ := fun _ => none

inductive RequestEvent
  | register (e : WheelTimerElemRef) (callBack arg argSize : ℕ) (timeInterval : Int32) (isRecursive : Bool)
  | reschedule (e : WheelTimerElemRef) (newTimeInterval : Int32)
  | deRegister (e : WheelTimerElemRef)
  | enqueue (e : WheelTimerElemRef) (request : TimerRequest)
  | advance
  | drain
  deriving DecidableEq

namespace RequestSteps

def start (wheelSize clockTicInterval : ℕ) (timerResolution : TimerResolution) : RequestSteps :=
  { wt := .initWheelTimer wheelSize clockTicInterval timerResolution }

/-- The first step of a request on an element. -/
def write (s : RequestSteps) (wt : WheelTimer) (e : WheelTimerElemRef) (request : TimerRequest) :
    Option RequestSteps :=
  (wt.writeRequest e request.interval request.opcode).map fun wt =>
    { s with wt, inFlight := (e, request) :: s.inFlight }

/-- The clock of the wheel is another one at every drain. -/
def step (s : RequestSteps) : RequestEvent → Option RequestSteps
  | .register e callBack arg argSize timeInterval isRecursive =>
    if s.wt.elems e = none ∧ e ∉ s.wt.freed ∧ callBack ≠ 0 ∧ s.wt.Accepts timeInterval then
      s.write (s.wt.callocElem e callBack arg argSize isRecursive) e (.create timeInterval)
    else none
  | .reschedule e newTimeInterval =>
    if s.wt.Accepts newTimeInterval then s.write s.wt e (.resched newTimeInterval) else none
  | .deRegister e => (s.wt.wtElemSetAppData e 0).bind fun wt => s.write wt e .delete
  | .enqueue e request =>
    if (e, request) ∈ s.inFlight then
      (s.wt.enqueueRequest e).map fun wt =>
        { s with
          wt
          inFlight := s.inFlight.erase (e, request)
          enqueued := Function.update s.enqueued e (some request) }
    else none
  | .advance => some { s with wt := s.wt.advanceClock }
  | .drain => s.wt.processWtRescheduleSlotlist.map fun wt => { s with
      wt, place := fun e =>
        if e ∈ s.wt.reschdList then (s.enqueued e).bind fun request =>
          s.wt.nextAbsSlotNo request.interval else s.place e }

def Step (s : RequestSteps) (event : RequestEvent) (t : RequestSteps) : Prop := s.step event = some t

end RequestSteps

end TcpServerLib.Model
