import Mathlib.Algebra.Order.Ring.Int
import Mathlib.Tactic.Common
import Mathlib.Tactic.Linarith
import Mathlib.Tactic.Ring
import TcpServerLib.Model.SlotArithmetic

/-! # Where the arithmetic of the wheel leads

A wheel that has run for `n` ticks is at the slot `n`, and an interval of `q` clock intervals leads to
`n + q`. The code computes this number modulo `2 ^ 32`, and the place of a negative number is not in
the wheel. An interval that is negative passes the divisibility check as a large unsigned number.
-/

namespace TcpServerLib.Soundness

open Model WheelClock

/-- The place lies in the wheel, and it is as many slots from here as there are clock intervals in the
interval. -/
def LandsExactly (wheelSize : Int32) (clockInterval : UInt32) (ticks : ℕ) (interval : Int32) : Prop :=
  let place := (ticked wheelSize ticks).place wheelSize clockInterval interval
  0 ≤ place.slotNo ∧ place.slotNo < wheelSize ∧
    ∃ slots : ℤ, slots * clockInterval.toNat = interval.toInt ∧
      place.executeCycleNo.toInt * wheelSize.toInt + place.slotNo.toInt = ticks + slots

/-- The slot that an interval leads to, in exact integers. -/
def targetSlot (clockInterval : UInt32) (ticks : ℕ) (interval : Int32) : ℤ :=
  ticks + interval.toInt / clockInterval.toNat

/-- A wheel cannot be asked for the past, except where one tick takes one millisecond. -/
def Attainable (wheelSize : Int32) (clockInterval : UInt32) (ticks : ℕ) (interval : Int32) : Prop :=
  (0 < interval ∨ clockInterval = 1) ∧
    -2 ^ 31 ≤ targetSlot clockInterval ticks interval ∧ targetSlot clockInterval ticks interval < 2 ^ 31 ∧
    (0 ≤ targetSlot clockInterval ticks interval ∨
      wheelSize.toInt ∣ targetSlot clockInterval ticks interval)

instance (wheelSize : Int32) (clockInterval : UInt32) (ticks : ℕ) (interval : Int32) :
    Decidable (Attainable wheelSize clockInterval ticks interval) :=
  inferInstanceAs (Decidable (_ ∧ _))

section

variable {wheelSize interval : Int32} {clockInterval : UInt32} {ticks : ℕ}

theorem ofNat_toInt (positive : 1 ≤ wheelSize) : ∃ size : ℕ, 1 ≤ size ∧ size < 2 ^ 31 ∧
    wheelSize = Int32.ofNat size ∧ wheelSize.toInt = size := by
  have positive : 1 ≤ wheelSize.toInt := Int32.le_iff_toInt_le.mp positive
  have upper := wheelSize.toInt_lt
  refine ⟨wheelSize.toInt.toNat, by omega, by omega, ?_, by omega⟩
  rw [← Int32.ofInt_eq_ofNat, Int.toNat_of_nonneg (by omega), Int32.ofInt_toInt]

theorem ticked_eq {size : ℕ} (positive : 1 ≤ size) (small : size < 2 ^ 31) (ticks : ℕ) :
    ticked (Int32.ofNat size) ticks = ⟨Int32.ofNat (ticks % size), Int32.ofNat (ticks / size)⟩ := by
  induction ticks with
  | zero =>
    rw [Nat.zero_mod, Nat.zero_div]
    rfl
  | succ ticks ih =>
    have below : ticks % size < size := Nat.mod_lt _ positive
    have next : Int32.ofNat (ticks % size) + 1 = Int32.ofNat (ticks % size + 1) := (Int32.ofNat_add _ 1).symm
    rw [ticked, ih, advance]
    dsimp only
    rw [next]
    rcases Nat.lt_or_ge (ticks % size + 1) size with inside | full
    · have different : Int32.ofNat (ticks % size + 1) ≠ Int32.ofNat size := by
        intro same
        have values := congrArg Int32.toInt same
        rw [Int32.toInt_ofNat_of_lt (by omega), Int32.toInt_ofNat_of_lt (by omega)] at values
        omega
      have split : (ticks + 1) % size = ticks % size + 1 ∧ (ticks + 1) / size = ticks / size := by
        have whole := Nat.div_add_mod ticks size
        constructor
        · rw [← whole, Nat.add_assoc, Nat.mul_add_mod, Nat.mod_eq_of_lt inside, Nat.mul_add_mod, Nat.mod_mod]
        · rw [← whole, Nat.add_assoc, Nat.mul_add_div positive, Nat.div_eq_of_lt inside,
            Nat.mul_add_div positive, Nat.div_eq_of_lt below]
      rw [if_neg different, split.1, split.2]
    · have same : ticks % size + 1 = size := by omega
      have split : (ticks + 1) % size = 0 ∧ (ticks + 1) / size = ticks / size + 1 := by
        have whole := Nat.div_add_mod ticks size
        have multiple : ticks + 1 = size * (ticks / size + 1) := by rw [Nat.mul_add, Nat.mul_one]; omega
        rw [multiple, Nat.mul_mod_right, Nat.mul_div_cancel_left _ positive]
        exact ⟨rfl, rfl⟩
      rw [if_pos (by rw [same]), split.1, split.2, Int32.ofNat_add]
      rfl

/-- The number of the current slot is that of the ticks, modulo `2 ^ 32`. -/
theorem currentAbsSlotNo_ticked {size : ℕ} (positive : 1 ≤ size) (small : size < 2 ^ 31) (ticks : ℕ) :
    (ticked (Int32.ofNat size) ticks).currentAbsSlotNo (Int32.ofNat size) = Int32.ofNat ticks := by
  rw [ticked_eq positive small, currentAbsSlotNo, ← Int32.ofNat_mul, ← Int32.ofNat_add, Nat.div_add_mod']

theorem toInt_nextAbsSlotNo (ticks : ℕ) :
    (WheelClock.nextAbsSlotNo (Int32.ofNat ticks) interval clockInterval).toInt =
      ((ticks + interval.toUInt32.toNat / clockInterval.toNat : ℕ) : ℤ).bmod (2 ^ 32) := by
  have quotient : interval.toUInt32 / clockInterval =
      UInt32.ofNat (interval.toUInt32.toNat / clockInterval.toNat) := by
    apply UInt32.toNat_inj.mp
    have small := interval.toUInt32.toNat_lt
    have less := Nat.div_le_self interval.toUInt32.toNat clockInterval.toNat
    rw [UInt32.toNat_div, UInt32.toNat_ofNat', Nat.mod_eq_of_lt (by omega)]
  rw [WheelClock.nextAbsSlotNo, quotient, Int32.toUInt32_ofNat', ← UInt32.ofNat_add, UInt32.toInt32_ofNat',
    Int32.toInt_ofNat']
  rfl

/-- The number of the slot whose place is computed. -/
def computedSlot (clockInterval : UInt32) (ticks : ℕ) (interval : Int32) : ℤ :=
  ((ticks + interval.toUInt32.toNat / clockInterval.toNat : ℕ) : ℤ).bmod (2 ^ 32)

theorem tmod_nonneg_iff {number size : ℤ} : 0 ≤ number.tmod size ↔ 0 ≤ number ∨ size ∣ number := by
  constructor
  · intro inside
    rcases lt_or_ge number 0 with negative | nonneg
    · right
      have mirrored : (-number).tmod size = -number.tmod size := Int.neg_tmod ..
      have above := Int.tmod_nonneg size (by omega : 0 ≤ -number)
      exact Int.dvd_of_tmod_eq_zero (by omega)
    · exact .inl nonneg
  · rintro (nonneg | divides)
    · exact Int.tmod_nonneg size nonneg
    · exact Int.le_of_eq (Int.tmod_eq_zero_of_dvd divides).symm

theorem place_ticked {size : ℕ} (positive : 1 ≤ size) (small : size < 2 ^ 31)
    (clockInterval : UInt32) (ticks : ℕ) (interval : Int32) :
    let place := (ticked (Int32.ofNat size) ticks).place (Int32.ofNat size) clockInterval interval
    place.executeCycleNo.toInt = (computedSlot clockInterval ticks interval).tdiv size ∧
      place.slotNo.toInt = (computedSlot clockInterval ticks interval).tmod size := by
  have value : (Int32.ofNat size).toInt = size := Int32.toInt_ofNat_of_lt small
  have notMinusOne : Int32.ofNat size ≠ -1 := by
    intro same
    have values := congrArg Int32.toInt same
    rw [value] at values
    have negative : (-1 : Int32).toInt = -1 := rfl
    omega
  rw [place, currentAbsSlotNo_ticked positive small]
  dsimp only
  rw [Int32.toInt_div_of_ne_right _ _ notMinusOne, Int32.toInt_mod, toInt_nextAbsSlotNo, value]
  exact ⟨rfl, rfl⟩

theorem landsExactly_iff {size : ℕ} (positive : 1 ≤ size) (small : size < 2 ^ 31) :
    LandsExactly (Int32.ofNat size) clockInterval ticks interval ↔
      (0 ≤ computedSlot clockInterval ticks interval ∨
        (size : ℤ) ∣ computedSlot clockInterval ticks interval) ∧
        ∃ slots : ℤ, slots * clockInterval.toNat = interval.toInt ∧
          computedSlot clockInterval ticks interval = ticks + slots := by
  have value : (Int32.ofNat size).toInt = size := Int32.toInt_ofNat_of_lt small
  obtain ⟨cycle, slot⟩ := place_ticked positive small clockInterval ticks interval
  have below : (computedSlot clockInterval ticks interval).tmod size < size := Int.tmod_lt_of_pos _ (by omega)
  have whole : (computedSlot clockInterval ticks interval).tdiv size * size +
      (computedSlot clockInterval ticks interval).tmod size = computedSlot clockInterval ticks interval :=
    Int.tdiv_mul_add_tmod ..
  rw [LandsExactly, Int32.le_iff_toInt_le, Int32.lt_iff_toInt_lt, cycle, slot, value, whole]
  have zero : (0 : Int32).toInt = 0 := rfl
  rw [zero, tmod_nonneg_iff]
  exact ⟨fun ⟨inside, _, exactly⟩ => ⟨inside, exactly⟩, fun ⟨inside, exactly⟩ =>
    ⟨inside, below, exactly⟩⟩

/-- A negative interval is a large one where it is divided. -/
theorem toNat_toUInt32 (interval : Int32) :
    (interval.toUInt32.toNat : ℤ) = if 0 ≤ interval.toInt then interval.toInt else interval.toInt +
    2 ^ 32 := by
  have value : interval.toInt = interval.toBitVec.toInt := rfl
  have word : interval.toUInt32.toNat = interval.toBitVec.toNat := rfl
  have small := interval.toBitVec.isLt
  rw [value, word, BitVec.toInt_eq_toNat_cond]
  split_ifs <;> omega

theorem bmod_eq_iff {number value : ℤ} :
    number.bmod (2 ^ 32) = value ↔ -2 ^ 31 ≤ value ∧ value < 2 ^ 31 ∧
    (2 ^ 32 : ℤ) ∣ number - value := by
  rw [Int.bmod_def]
  constructor
  · rintro rfl
    split_ifs <;> omega
  · rintro ⟨lower, upper, divides⟩
    split_ifs <;> omega

theorem clockInterval_pos (accepted : Accepts clockInterval interval) : 0 < clockInterval.toNat := by
  apply Nat.pos_of_ne_zero
  intro zero
  exact accepted.1 (UInt32.toNat_inj.mp zero)

theorem exactly_of_multiple (accepted : Accepts clockInterval interval) {slots : ℤ}
    (multiple : slots * clockInterval.toNat = interval.toInt) : interval.toInt / clockInterval.toNat = slots := by
  have positive := clockInterval_pos accepted
  exact Int.ediv_eq_of_eq_mul_left (by omega) multiple.symm

/-- What is added to the current slot is the unsigned quotient. -/
theorem unsigned_quotient (ticks : ℕ) (accepted : Accepts clockInterval interval) :
    ∃ quotient : ℕ, computedSlot clockInterval ticks interval =
      ((ticks + quotient : ℕ) : ℤ).bmod (2 ^ 32) ∧
      (interval.toUInt32.toNat : ℤ) = clockInterval.toNat * quotient := by
  obtain ⟨_, _, divides⟩ := id accepted
  have remainder : interval.toUInt32.toNat % clockInterval.toNat = 0 := by
    rw [← UInt32.toNat_mod, divides]
    rfl
  obtain ⟨quotient, product⟩ := Nat.dvd_of_mod_eq_zero remainder
  refine ⟨quotient, ?_, ?_⟩
  · unfold computedSlot
    rw [product, Nat.mul_div_cancel_left _ (clockInterval_pos accepted)]
  · rw [product, Nat.cast_mul]

/-- Where the interval is negative, the `2 ^ 32` milliseconds that are added are a number of slots
that wraps to zero, so one slot lasts one millisecond. -/
theorem unit_of_turns {clock quotient slots turns : ℤ} (clockPositive : 0 < clock)
    (wrapped : quotient - slots = 2 ^ 32 * turns) (unsigned : clock * quotient = slots * clock + 2 ^ 32) :
    clock = 1 := by
  have scaled : (2 ^ 32 : ℤ) * (clock * turns) = 2 ^ 32 * 1 := by
    calc (2 ^ 32 : ℤ) * (clock * turns) = clock * quotient - clock * slots := by
          rw [← Int.mul_sub, wrapped]
          ring
      _ = 2 ^ 32 * 1 := by rw [unsigned]; ring
  have unit : clock * turns = 1 := by linarith only [scaled]
  exact Int.eq_one_of_mul_eq_one_right (by omega) unit

/-- The exact number of slots is computed unless the sum leaves the range of an `int`, and for a
negative interval only if every one of the `2 ^ 32` milliseconds that are added is a slot. -/
theorem computedSlot_exact (ticks : ℕ) (accepted : Accepts clockInterval interval) :
    (∃ slots : ℤ, slots * clockInterval.toNat = interval.toInt ∧
      computedSlot clockInterval ticks interval = ticks + slots) ↔
      (0 < interval ∨ clockInterval = 1) ∧ -2 ^ 31 ≤ targetSlot clockInterval ticks interval ∧
        targetSlot clockInterval ticks interval < 2 ^ 31 := by
  have clockPositive := clockInterval_pos accepted
  obtain ⟨quotient, value, unsigned⟩ := unsigned_quotient ticks accepted
  have word := toNat_toUInt32 interval
  have sign : 0 < interval ↔ 0 < interval.toInt := Int32.lt_iff_toInt_lt
  have one : clockInterval = 1 ↔ clockInterval.toNat = 1 := UInt32.toNat_inj.symm
  have nonzero : interval.toInt ≠ 0 := fun zero => accepted.2.1 (Int32.toInt_inj.mp zero)
  rw [value, targetSlot, sign, one]
  rw [unsigned] at word
  constructor
  · rintro ⟨slots, multiple, computed⟩
    obtain ⟨lower, upper, turns, wrapped⟩ := bmod_eq_iff.mp computed
    rw [exactly_of_multiple accepted multiple]
    refine ⟨?_, lower, upper⟩
    by_cases positive : 0 < interval.toInt
    · exact .inl positive
    · rw [if_neg (by omega), ← multiple] at word
      have unit := unit_of_turns (by omega) (by rw [← wrapped]; push_cast; ring) word
      exact .inr (by exact_mod_cast unit)
  · rintro ⟨possible, lower, upper⟩
    refine ⟨interval.toInt / clockInterval.toNat, ?_, bmod_eq_iff.mpr ⟨lower, upper, ?_⟩⟩
    · rcases possible with positive | unit
      · rw [if_pos (by omega)] at word
        rw [← word, Int.mul_ediv_cancel_left _ (by omega), Int.mul_comm]
      · rw [unit, Nat.cast_one, Int.ediv_one, Int.mul_one]
    · rcases possible with positive | unit
      · rw [if_pos (by omega)] at word
        rw [← word, Int.mul_ediv_cancel_left _ (by omega), Nat.cast_add, Int.sub_self]
        exact dvd_zero _
      · rw [unit, Nat.cast_one, Int.one_mul] at word
        rw [unit, Nat.cast_one, Int.ediv_one, Nat.cast_add]
        split_ifs at word
        · exact ⟨0, by omega⟩
        · exact ⟨1, by omega⟩

/-- A place is computed exactly if and only if the slot can be reached. -/
theorem landsExactly_iff_attainable (size : 1 ≤ wheelSize) (accepted : Accepts clockInterval interval) :
    LandsExactly wheelSize clockInterval ticks interval ↔
    Attainable wheelSize clockInterval ticks interval := by
  obtain ⟨slots, positive, small, rfl, value⟩ := ofNat_toInt size
  rw [landsExactly_iff positive small, computedSlot_exact ticks accepted, Attainable, value]
  constructor
  · rintro ⟨inside, possible, lower, upper⟩
    refine ⟨possible, lower, upper, ?_⟩
    obtain ⟨exactSlots, multiple, computed⟩ :=
      (computedSlot_exact ticks accepted).mpr ⟨possible, lower, upper⟩
    rw [computed] at inside
    rwa [targetSlot, exactly_of_multiple accepted multiple]
  · rintro ⟨possible, lower, upper, inside⟩
    refine ⟨?_, possible, lower, upper⟩
    obtain ⟨exactSlots, multiple, computed⟩ :=
      (computedSlot_exact ticks accepted).mpr ⟨possible, lower, upper⟩
    rw [computed]
    rwa [targetSlot, exactly_of_multiple accepted multiple] at inside

/-- The wheel timer has the place of this computation, as long as its slot number is an `int`. -/
theorem nextAbsSlotNo_wheel {wt : WheelTimer} {next : ℕ} (small : wt.wtGetClockIntervalInMilliSec < 2 ^ 32)
    (found : wt.nextAbsSlotNo interval = some next) :
    (WheelClock.nextAbsSlotNo (Int32.ofNat wt.currentAbsSlotNo) interval
      (UInt32.ofNat wt.wtGetClockIntervalInMilliSec)).toInt = next := by
  have interval' : (UInt32.ofNat wt.wtGetClockIntervalInMilliSec).toNat = wt.wtGetClockIntervalInMilliSec := by
    rw [UInt32.toNat_ofNat', Nat.mod_eq_of_lt small]
  rw [WheelTimer.nextAbsSlotNo] at found
  split_ifs at found with inside
  rw [toInt_nextAbsSlotNo, interval', bmod_eq_iff]
  obtain rfl := Option.some.inj found
  rw [WheelTimer.slotsOf] at inside ⊢
  omega

end

/-- Three slots on from the eighth tick of a wheel of four slots. -/
theorem landsExactly_three : LandsExactly 4 100 7 300 ∧ Attainable 4 100 7 300 := by
  have attainable : Attainable 4 100 7 300 := by decide
  exact ⟨(landsExactly_iff_attainable (by decide) (by decide)).mpr attainable, attainable⟩

/-- An interval of minus two milliseconds is accepted, and at the first tick, which is the first
drain as well, it leads to the slot before the wheel. -/
theorem minusTwo_leaves : ¬ ∀ (wheelSize : Int32) (clockInterval : UInt32) (ticks : ℕ) (interval : Int32),
    1 ≤ wheelSize → 1 ≤ ticks → Accepts clockInterval interval →
      LandsExactly wheelSize clockInterval ticks interval := by
  intro always
  obtain ⟨inside, _⟩ := always 4 1 1 (-2) (by decide) (by decide) (by decide)
  exact absurd inside (by decide)

end TcpServerLib.Soundness
