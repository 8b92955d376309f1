import Mathlib.Data.Int.Notation
import TcpServerLib.Model.WheelTimer

/-! # The slot numbers of the wheel timer in machine integers

The counters of a wheel are `int`, and the clock interval is `uint32_t`. An interval is converted to
`uint32_t` where it is divided, and the sum that follows is converted back.
-/

namespace TcpServerLib.Model

/-- The counters of `wheel_timer_t`. -/
structure WheelClock where
  currentClockTic : Int32 := 0
  currentCycleNo : Int32 := 0
deriving DecidableEq

/-- Where an element is put. -/
structure WheelPlace where
  executeCycleNo : Int32
  slotNo : Int32
deriving DecidableEq

namespace WheelClock

/-- The first lines of `wheel_fn`. -/
def advance (wheelSize : Int32) (clock : WheelClock) : WheelClock :=
  if clock.currentClockTic + 1 = wheelSize then ⟨0, clock.currentCycleNo + 1⟩
  else ⟨clock.currentClockTic + 1, clock.currentCycleNo⟩

/-- The clock of a wheel that has run for some ticks. -/
def ticked (wheelSize : Int32) : ℕ → WheelClock
  | 0 => {}
  | ticks + 1 => (ticked wheelSize ticks).advance wheelSize

/-- `GET_WT_CURRENT_ABS_SLOT_NO` -/
def currentAbsSlotNo (wheelSize : Int32) (clock : WheelClock) : Int32 :=
  clock.currentCycleNo * wheelSize + clock.currentClockTic

/-- `next_abs_slot_no`, with the clock interval that `wt_get_clock_interval_in_milli_sec` returns. -/
def nextAbsSlotNo (absoluteSlotNo interval : Int32) (clockInterval : UInt32) : Int32 :=
  (absoluteSlotNo.toUInt32 + interval.toUInt32 / clockInterval).toInt32

/-- The computation of `process_wt_reschedule_slotlist`, which `wheel_fn` repeats for an element that
recurs. -/
def place (wheelSize : Int32) (clockInterval : UInt32) (clock : WheelClock) (interval : Int32) : WheelPlace where
  executeCycleNo := nextAbsSlotNo (clock.currentAbsSlotNo wheelSize) interval clockInterval / wheelSize
  slotNo := nextAbsSlotNo (clock.currentAbsSlotNo wheelSize) interval clockInterval % wheelSize

/-- What `timer_register_app_event` and `timer_reschedule` assert of an interval. A clock interval of zero
divides nothing. -/
def Accepts (clockInterval : UInt32) (interval : Int32) : Prop :=
  clockInterval ≠ 0 ∧ interval ≠ 0 ∧ interval.toUInt32 % clockInterval = 0

instance (clockInterval : UInt32) (interval : Int32) : Decidable (Accepts clockInterval interval) :=
  inferInstanceAs (Decidable (_ ∧ _))

end WheelClock

end TcpServerLib.Model
