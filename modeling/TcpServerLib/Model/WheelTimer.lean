import Mathlib.Algebra.Group.Nat.Defs
import TcpServerLib.Model.Glthread
import Mathlib.Logic.Function.Basic

/-! # The wheel timer

A wheel has a list of elements for each slot, in the order of the cycle they are to be executed in.
The application's requests change an element and queue it; the wheel thread moves the clock on,
invokes what the current slot holds for the current cycle, and then processes the queued elements.
A call that runs into an assertion, into memory that has been freed, or into an absolute slot number
that is no `int` has no result.
-/

namespace TcpServerLib.Model

abbrev WheelTimerElemRef := ℕ

inductive TimerResolution
  | seconds
  | milliSeconds
  deriving DecidableEq

inductive WtOpcode
  | create
  | resched
  | delete
  | scheduled
  | unknown
  deriving DecidableEq

structure WheelTimerElem where
  /-- `calloc` leaves zero here, which is `WTELEM_CREATE`. -/
  opcode : WtOpcode := .create
  timeInterval : Int32 := 0
  newTimeInterval : Int32 := 0
  executeCycleNo : ℕ := 0
  slotNo : ℕ := 0
  /-- The callback and its argument are pointers; `NULL` is zero. -/
  appCallback : ℕ
  arg : ℕ := 0
  argSize : ℕ := 0
  isRecurrence : Bool
  slotlistHead : Option ℕ := none
  nScheduled : ℕ := 0

structure WheelTimer where
  currentClockTic : ℕ := 0
  clockTicInterval : ℕ
  wheelSize : ℕ
  currentCycleNo : ℕ := 0
  timerResolution : TimerResolution
  reschdList : List WheelTimerElemRef := []
  slotlist : ℕ → List WheelTimerElemRef := fun _ => []
  elems : WheelTimerElemRef → Option WheelTimerElem := fun _ => none
  /-- What has been handed to `free`, the latest first. -/
  freed : List WheelTimerElemRef := []

namespace WheelTimer

def initWheelTimer (wheelSize clockTicInterval : ℕ) (timerResolution : TimerResolution) : WheelTimer :=
  { wheelSize, clockTicInterval, timerResolution }

def wtGetClockIntervalInMilliSec (wt : WheelTimer) : ℕ :=
  match wt.timerResolution with
  | .milliSeconds => wt.clockTicInterval
  | .seconds => wt.clockTicInterval * 1000 % 2 ^ 32

/-- `GET_WT_CURRENT_ABS_SLOT_NO` -/
def currentAbsSlotNo (wt : WheelTimer) : ℕ := wt.currentCycleNo * wt.wheelSize + wt.currentClockTic

/-- The division is one of `uint32_t`, to which the interval is converted. -/
def slotsOf (wt : WheelTimer) (interval : Int32) : ℕ :=
  interval.toUInt32.toNat / wt.wtGetClockIntervalInMilliSec

/-- The sum is one of `uint32_t` as well. Beyond `INT_MAX` it is a negative `int`, and no slot has
such a number. -/
def nextAbsSlotNo (wt : WheelTimer) (interval : Int32) : Option ℕ :=
  let next := (wt.currentAbsSlotNo + wt.slotsOf interval) % 2 ^ 32
  if next < 2 ^ 31 then some next else none

def setElem (wt : WheelTimer) (e : WheelTimerElemRef) (f : WheelTimerElem → WheelTimerElem) : WheelTimer :=
  { wt with elems := Function.update wt.elems e ((wt.elems e).map f) }

def executeCycleNo (wt : WheelTimer) (e : WheelTimerElemRef) : ℕ := (wt.elems e).elim 0 (·.executeCycleNo)

def insertWtElemInSlot (wt : WheelTimer) (e₁ e₂ : WheelTimerElemRef) : ℤ :=
  if wt.executeCycleNo e₁ < wt.executeCycleNo e₂ then -1
  else if wt.executeCycleNo e₁ > wt.executeCycleNo e₂ then 1
  else 0

/-- `remove_glthread(&wt_elem->glue)` -/
def removeGlue (wt : WheelTimer) (e : WheelTimerElemRef) : WheelTimer :=
  { wt with slotlist := fun slot => (wt.slotlist slot).erase e }

/-- `remove_glthread(&wt_elem->reschedule_glue)` -/
def removeRescheduleGlue (wt : WheelTimer) (e : WheelTimerElemRef) : WheelTimer :=
  { wt with reschdList := wt.reschdList.erase e }

def insertGlue (wt : WheelTimer) (slot : ℕ) (e : WheelTimerElemRef) : WheelTimer :=
  { wt with
    slotlist := Function.update wt.slotlist slot
      (glthreadPriorityInsert wt.insertWtElemInSlot e (wt.slotlist slot)) }

/-- An element that is in no slot list goes to the place of an absolute slot number. -/
def insertAt (wt : WheelTimer) (e : WheelTimerElemRef) (nextAbsSlotNo : ℕ) : WheelTimer :=
  let nextCycleNo := nextAbsSlotNo / wt.wheelSize
  let nextSlotNo := nextAbsSlotNo % wt.wheelSize
  ((wt.setElem e fun elem => { elem with executeCycleNo := nextCycleNo, slotNo := nextSlotNo }).insertGlue
    nextSlotNo e).setElem e
    fun elem => { elem with slotlistHead := some nextSlotNo, nScheduled := elem.nScheduled + 1 }

def freeWheelTimerElement (wt : WheelTimer) (e : WheelTimerElemRef) : WheelTimer :=
  { wt with elems := Function.update wt.elems e none, freed := e :: wt.freed }

/-- `_timer_reschedule`, before the lock of the reschedule list. -/
def writeRequest (wt : WheelTimer) (e : WheelTimerElemRef) (newTimeInterval : Int32)
    (opcode : WtOpcode) : Option WheelTimer := do
  let _ ← wt.elems e
  some (wt.setElem e fun elem => { elem with opcode, newTimeInterval })

/-- `_timer_reschedule`, under the lock. -/
def enqueueRequest (wt : WheelTimer) (e : WheelTimerElemRef) : Option WheelTimer := do
  let _ ← wt.elems e
  let wt := wt.setElem e fun elem => { elem with slotlistHead := none }
  some { wt with reschdList := e :: wt.reschdList.erase e }

def _timerReschedule (wt : WheelTimer) (e : WheelTimerElemRef) (newTimeInterval : Int32)
    (opcode : WtOpcode) : Option WheelTimer :=
  match opcode with
  | .create | .resched | .delete => do (← wt.writeRequest e newTimeInterval opcode).enqueueRequest e
  | .scheduled | .unknown => none

/-- What `timer_register_app_event` and `timer_reschedule` assert of an interval. -/
def Accepts (wt : WheelTimer) (interval : Int32) : Prop :=
  interval ≠ 0 ∧ interval.toUInt32.toNat % wt.wtGetClockIntervalInMilliSec = 0

instance (wt : WheelTimer) (interval : Int32) : Decidable (wt.Accepts interval) :=
  inferInstanceAs (Decidable (_ ∧ _))

/-- The element that `timer_register_app_event` allocates. -/
def callocElem (wt : WheelTimer) (e : WheelTimerElemRef) (callBack arg argSize : ℕ)
    (isRecursive : Bool) : WheelTimer :=
  let given : Prop := arg ≠ 0 ∧ argSize ≠ 0
  { wt with elems := Function.update wt.elems e (some
      { appCallback := callBack, isRecurrence := isRecursive
        arg := if given then arg else 0, argSize := if given then argSize else 0 }) }

def timerRegisterAppEvent (wt : WheelTimer) (e : WheelTimerElemRef) (callBack arg argSize : ℕ)
    (timeInterval : Int32) (isRecursive : Bool) : Option WheelTimer :=
  if callBack = 0 then some wt
  else if wt.Accepts timeInterval then (wt.callocElem e callBack arg argSize isRecursive)._timerReschedule
    e timeInterval .create
  else none

/-- `wt_elem_get_and_set_app_data`, of which the callers here drop the old data. -/
def wtElemSetAppData (wt : WheelTimer) (e : WheelTimerElemRef) (newData : ℕ) : Option WheelTimer := do
  let _ ← wt.elems e
  some (wt.setElem e fun elem => { elem with arg := newData })

def timerDeRegisterAppEvent (wt : WheelTimer) (e : WheelTimerElemRef) : Option WheelTimer := do
  (← wt.wtElemSetAppData e 0)._timerReschedule e 0 .delete

def timerReschedule (wt : WheelTimer) (e : WheelTimerElemRef) (newTimeInterval : Int32) : Option WheelTimer :=
  if wt.Accepts newTimeInterval then wt._timerReschedule e newTimeInterval .resched else none

/-- `wt_get_remaining_time`. The slot number is an `int`; the product is one of `uint32_t`, returned
as an `int`. -/
def wtGetRemainingTime (wt : WheelTimer) (e : WheelTimerElemRef) : Option Int32 := do
  let elem ← wt.elems e
  if elem.opcode = .create ∨ elem.opcode = .resched then some elem.newTimeInterval
  else
    let wtElemAbsoluteSlot := elem.executeCycleNo * wt.wheelSize + elem.slotNo
    if wtElemAbsoluteSlot < 2 ^ 31 then
      let diff : ℤ := wtElemAbsoluteSlot - wt.currentAbsSlotNo
      some (Int32.ofInt (diff * wt.wtGetClockIntervalInMilliSec))
    else none

/-- The loop body of `process_wt_reschedule_slotlist`. -/
def processElem (wt : WheelTimer) (e : WheelTimerElemRef) : Option WheelTimer := do
  let elem ← wt.elems e
  let wt := (wt.removeGlue e).setElem e fun elem => { elem with slotlistHead := none }
  match elem.opcode with
  | .create | .resched =>
    if elem.appCallback = 0 ∨ elem.newTimeInterval = 0 then none
    else
      let next ← wt.nextAbsSlotNo elem.newTimeInterval
      let wt := wt.setElem e fun elem => { elem with timeInterval := elem.newTimeInterval }
      some (((wt.insertAt e next).removeRescheduleGlue e).setElem e fun elem =>
        { elem with opcode := .scheduled })
  | .delete => some ((wt.removeRescheduleGlue e).freeWheelTimerElement e)
  | .scheduled => some wt
  | .unknown => none

/-- The loop has saved the next element before it looks at one, and changes the list at that one only. -/
def processWtRescheduleSlotlist (wt : WheelTimer) : Option WheelTimer := wt.reschdList.foldlM processElem wt

/-- The first lines of `wheel_fn`. -/
def advanceClock (wt : WheelTimer) : WheelTimer :=
  if wt.currentClockTic + 1 =
    wt.wheelSize then { wt with currentClockTic := 0, currentCycleNo := wt.currentCycleNo + 1 }
  else { wt with currentClockTic := wt.currentClockTic + 1 }

/-- What `wheel_fn` does with an element after its callback. -/
def afterCallback (wt : WheelTimer) (e : WheelTimerElemRef) : Option WheelTimer := do
  let elem ← wt.elems e
  if elem.isRecurrence then
    let next ← wt.nextAbsSlotNo elem.timeInterval
    some ((wt.removeGlue e).insertAt e next)
  else
    some (wt.removeGlue e)

end WheelTimer

/-- Where the wheel thread is in `wheel_fn`. The loop holds the next element it has saved. -/
inductive WheelPhase
  | idle
  | walking (curr : Option WheelTimerElemRef)
  | invoking (e : WheelTimerElemRef) (next : Option WheelTimerElemRef)
  | processing
  deriving DecidableEq

/-- A call of the application, or a piece of `wheel_fn`. -/
inductive WheelEvent
  | register (e : WheelTimerElemRef) (callBack arg argSize : ℕ) (timeInterval : Int32) (isRecursive : Bool)
  | reschedule (e : WheelTimerElemRef) (newTimeInterval : Int32)
  | deRegister (e : WheelTimerElemRef)
  | tick
  | invoke (e : WheelTimerElemRef) (absoluteSlotNo : ℕ)
  | returned
  | stop
  | process (queued : List WheelTimerElemRef)
  deriving DecidableEq

structure WheelThread where
  wt : WheelTimer
  phase : WheelPhase := .idle

namespace WheelThread

def start (wheelSize clockTicInterval : ℕ) (timerResolution : TimerResolution) : WheelThread :=
  { wt := .initWheelTimer wheelSize clockTicInterval timerResolution }

def after (wt : Option WheelTimer) (phase : WheelPhase) : Option WheelThread := wt.map fun wt => { wt, phase }

/-- The application may call at any moment. The wheel thread holds the mutex of the element whose callback
it has called, so that a de-registration of this one waits. -/
def step (s : WheelThread) : WheelEvent → Option WheelThread
  | .register e callBack arg argSize timeInterval isRecursive =>
    if s.wt.elems e = none ∧ e ∉ s.wt.freed then
      after (s.wt.timerRegisterAppEvent e callBack arg argSize timeInterval isRecursive) s.phase
    else none
  | .reschedule e newTimeInterval => after (s.wt.timerReschedule e newTimeInterval) s.phase
  | .deRegister e =>
    match s.phase with
    | .invoking f _ => if f = e then none else after (s.wt.timerDeRegisterAppEvent e) s.phase
    | _ => after (s.wt.timerDeRegisterAppEvent e) s.phase
  | .tick =>
    match s.phase with
    | .idle =>
      let wt := s.wt.advanceClock
      if wt.currentAbsSlotNo < 2 ^
        31 then some { wt, phase := .walking (wt.slotlist wt.currentClockTic).head? } else none
    | _ => none
  | .invoke e absoluteSlotNo =>
    match s.phase with
    | .walking (some curr) =>
      if curr = e ∧ absoluteSlotNo = s.wt.currentAbsSlotNo ∧ s.wt.currentCycleNo = s.wt.executeCycleNo e then
        some { s with phase := .invoking e (glthreadRight e (s.wt.slotlist s.wt.currentClockTic)) }
      else none
    | _ => none
  | .returned =>
    match s.phase with
    | .invoking e next => after (s.wt.afterCallback e) (.walking next)
    | _ => none
  | .stop =>
    match s.phase with
    | .walking none => some { s with phase := .processing }
    | .walking (some curr) =>
      if s.wt.currentCycleNo = s.wt.executeCycleNo curr then none else some { s with phase := .processing }
    | _ => none
  | .process queued =>
    match s.phase with
    | .processing => if queued = s.wt.reschdList then after s.wt.processWtRescheduleSlotlist .idle else none
    | _ => none

def Step (s : WheelThread) (event : WheelEvent) (t : WheelThread) : Prop := s.step event = some t

end WheelThread

end TcpServerLib.Model
