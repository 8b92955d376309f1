import Mathlib.Order.Filter.AtTopBot.Defs
import TcpServerLib.Model.GlthreadLinks
import TcpServerLib.Model.WheelTimer

/-! # The wheel timer on its links

The lists of the wheel are chains of nodes that lie in the wheel and in its elements. Here the functions of
the wheel timer work on the links of these nodes, as the source has them; what they do besides is the same.
-/

namespace TcpServerLib.Model

open Machine GlthreadLinks

/-- A node in the wheel, or in an element. -/
inductive WheelNode
  | slotlist (slotNo : ℕ)
  | reschdList
  | glue (e : WheelTimerElemRef)
  | rescheduleGlue (e : WheelTimerElemRef)
  deriving DecidableEq

def glthreadToWtElem : WheelNode → Option WheelTimerElemRef
  | .glue e => some e
  | _ => none

def glthreadRescheduleGlueToWtElem : WheelNode → Option WheelTimerElemRef
  | .rescheduleGlue e => some e
  | _ => none

/-- The lists of `wt` stay empty. The wheel thread holds the element of the next node it has saved. -/
structure LinkedWheel where
  wt : WheelTimer
  links : Links WheelNode
  phase : WheelPhase := .idle

namespace LinkedWheel

def start (wheelSize clockTicInterval : ℕ) (timerResolution : TimerResolution) : LinkedWheel where
  wt := .initWheelTimer wheelSize clockTicInterval timerResolution
  links := { left := fun _ => none, right := fun _ => none }

def setElem (w : LinkedWheel) (e : WheelTimerElemRef) (f : WheelTimerElem → WheelTimerElem) : LinkedWheel :=
  { w with wt := w.wt.setElem e f }

def removeGlue (w : LinkedWheel) (e : WheelTimerElemRef) : LinkedWheel :=
  { w with links := removeGlthread w.links (.glue e) }

def removeRescheduleGlue (w : LinkedWheel) (e : WheelTimerElemRef) : LinkedWheel :=
  { w with links := removeGlthread w.links (.rescheduleGlue e) }

def insertWtElemInSlot (wt : WheelTimer) : WheelNode → WheelNode → ℤ
  | .glue e₁, .glue e₂ => wt.insertWtElemInSlot e₁ e₂
  | _, _ => 0

def insertGlue (steps : ℕ) (w : LinkedWheel) (slot : ℕ) (e : WheelTimerElemRef) : Option LinkedWheel :=
  (GlthreadLinks.glthreadPriorityInsert (insertWtElemInSlot w.wt) steps w.links (.slotlist slot)
    (.glue e)).map fun links => { w with links }

def insertAt (steps : ℕ) (w : LinkedWheel) (e : WheelTimerElemRef) (nextAbsSlotNo : ℕ) :
    Option LinkedWheel := do
  let nextCycleNo := nextAbsSlotNo / w.wt.wheelSize
  let nextSlotNo := nextAbsSlotNo % w.wt.wheelSize
  let w ← (w.setElem e fun elem => { elem with executeCycleNo := nextCycleNo, slotNo := nextSlotNo }).insertGlue
    steps nextSlotNo e
  some (w.setElem e fun elem => { elem with slotlistHead := some nextSlotNo, nScheduled := elem.nScheduled + 1 })

def enqueueRequest (w : LinkedWheel) (e : WheelTimerElemRef) : Option LinkedWheel := do
  let _ ← w.wt.elems e
  let w := (w.setElem e fun elem => { elem with slotlistHead := none }).removeRescheduleGlue e
  some { w with links := glthreadAddNext w.links .reschdList (.rescheduleGlue e) }

def _timerReschedule (w : LinkedWheel) (e : WheelTimerElemRef) (newTimeInterval : Int32)
    (opcode : WtOpcode) : Option LinkedWheel :=
  match opcode with
  | .create | .resched | .delete => do
    let wt ← w.wt.writeRequest e newTimeInterval opcode
    { w with wt }.enqueueRequest e
  | .scheduled | .unknown => none

def timerRegisterAppEvent (w : LinkedWheel) (e : WheelTimerElemRef) (callBack arg argSize : ℕ)
    (timeInterval : Int32) (isRecursive : Bool) : Option LinkedWheel :=
  if callBack = 0 then some w
  else if w.wt.Accepts timeInterval then
    let wt := w.wt.callocElem e callBack arg argSize isRecursive
    let links := initGlthread (initGlthread w.links (.glue e)) (.rescheduleGlue e)
    { w with wt, links }._timerReschedule e timeInterval .create
  else none

def timerDeRegisterAppEvent (w : LinkedWheel) (e : WheelTimerElemRef) : Option LinkedWheel := do
  let wt ← w.wt.wtElemSetAppData e 0
  { w with wt }._timerReschedule e 0 .delete

def timerReschedule (w : LinkedWheel) (e : WheelTimerElemRef) (newTimeInterval : Int32) : Option LinkedWheel :=
  if w.wt.Accepts newTimeInterval then w._timerReschedule e newTimeInterval .resched else none

def processElem (steps : ℕ) (w : LinkedWheel) (e : WheelTimerElemRef) : Option LinkedWheel := do
  let elem ← w.wt.elems e
  let w := (w.removeGlue e).setElem e fun elem => { elem with slotlistHead := none }
  match elem.opcode with
  | .create | .resched =>
    if elem.appCallback = 0 ∨ elem.newTimeInterval = 0 then none
    else
      let next ← w.wt.nextAbsSlotNo elem.newTimeInterval
      let w ← (w.setElem e fun elem => { elem with timeInterval := elem.newTimeInterval }).insertAt steps e next
      some ((w.removeRescheduleGlue e).setElem e fun elem => { elem with opcode := .scheduled })
  | .delete =>
    let w := w.removeRescheduleGlue e
    some { w with wt := w.wt.freeWheelTimerElement e }
  | .scheduled => some w
  | .unknown => none

/-- The loop over the reschedule list, with the elements it comes to. -/
def processWtRescheduleSlotlist (steps : ℕ) (w : LinkedWheel) :
    Option (LinkedWheel × List WheelTimerElemRef) :=
  (iterateGlthread (fun s curr => s.bind fun s => s.1.links.right curr)
    (fun s curr => do
      let (w, processed) ← s
      let e ← glthreadRescheduleGlueToWtElem curr
      some (← w.processElem steps e, processed ++ [e]))
    steps (w.links.right .reschdList) (some (w, []))).join

/-- An element that does not come again is taken out of its slot twice. -/
def afterCallback (steps : ℕ) (w : LinkedWheel) (e : WheelTimerElemRef) : Option LinkedWheel := do
  let elem ← w.wt.elems e
  if elem.isRecurrence then
    let next ← w.wt.nextAbsSlotNo elem.timeInterval
    (w.removeGlue e).insertAt steps e next
  else
    some ((w.removeGlue e).removeGlue e)

def step (steps : ℕ) (w : LinkedWheel) : WheelEvent → Option LinkedWheel
  | .register e callBack arg argSize timeInterval isRecursive =>
    if w.wt.elems e = none ∧ e ∉ w.wt.freed then w.timerRegisterAppEvent e callBack arg argSize
      timeInterval isRecursive
    else none
  | .reschedule e newTimeInterval => w.timerReschedule e newTimeInterval
  | .deRegister e =>
    match w.phase with
    | .invoking f _ => if f = e then none else w.timerDeRegisterAppEvent e
    | _ => w.timerDeRegisterAppEvent e
  | .tick =>
    match w.phase with
    | .idle =>
      let wt := w.wt.advanceClock
      if wt.currentAbsSlotNo < 2 ^ 31 then
        some { w with
          wt
          phase := .walking ((w.links.right (.slotlist wt.currentClockTic)).bind glthreadToWtElem) }
      else none
    | _ => none
  | .invoke e absoluteSlotNo =>
    match w.phase with
    | .walking (some curr) =>
      if curr = e ∧ absoluteSlotNo = w.wt.currentAbsSlotNo ∧ w.wt.currentCycleNo = w.wt.executeCycleNo e then
        some { w with phase := .invoking e ((w.links.right (.glue e)).bind glthreadToWtElem) }
      else none
    | _ => none
  | .returned =>
    match w.phase with
    | .invoking e next => (w.afterCallback steps e).map fun w => { w with phase := .walking next }
    | _ => none
  | .stop =>
    match w.phase with
    | .walking none => some { w with phase := .processing }
    | .walking (some curr) =>
      if w.wt.currentCycleNo = w.wt.executeCycleNo curr then none else some { w with phase := .processing }
    | _ => none
  | .process queued =>
    match w.phase with
    | .processing => do
      let (w, processed) ← w.processWtRescheduleSlotlist steps
      if queued = processed then some { w with phase := .idle } else none
    | _ => none

/-- The walks over the lists are given as many steps as they need. -/
def Step (w : LinkedWheel) (event : WheelEvent) (w' : LinkedWheel) : Prop :=
  ∀ᶠ steps in Filter.atTop, w.step steps event = some w'

end LinkedWheel

end TcpServerLib.Model
