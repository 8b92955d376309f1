import TcpServerLib.Refinement.WheelSlots

/-! # What the operations of the wheel do

A request changes the element it is about and nothing else. Processing the queued elements gives each
of them its new place, or frees it, and leaves the others alone.
-/

namespace TcpServerLib.Refinement

open Model

namespace WheelTimer

open Model.WheelTimer

/-- The wheel is the same, and its clock stands where it stood. -/
structure SameClock (wt wt' : WheelTimer) : Prop where
  size : wt'.wheelSize = wt.wheelSize
  interval : wt'.clockTicInterval = wt.clockTicInterval
  resolution : wt'.timerResolution = wt.timerResolution
  tic : wt'.currentClockTic = wt.currentClockTic
  cycle : wt'.currentCycleNo = wt.currentCycleNo

/-- Nothing has happened to the element. -/
structure SameElem (wt wt' : WheelTimer) (e : WheelTimerElemRef) : Prop where
  elem : wt'.elems e = wt.elems e
  due : dueOf wt' e = dueOf wt e
  queued : e ∈ wt'.reschdList ↔ e ∈ wt.reschdList
  freed : wt'.freed.count e = wt.freed.count e

variable {wt wt' wt'' : WheelTimer} {e d : WheelTimerElemRef} {elem : WheelTimerElem} {interval : Int32}

theorem SameClock.refl (wt : WheelTimer) : SameClock wt wt := ⟨rfl, rfl, rfl, rfl, rfl⟩

theorem SameClock.trans (first : SameClock wt wt') (second : SameClock wt' wt'') : SameClock wt wt'' :=
  ⟨second.size.trans first.size, second.interval.trans first.interval, second.resolution.trans first.resolution,
    second.tic.trans first.tic, second.cycle.trans first.cycle⟩

theorem SameClock.currentAbsSlotNo (same : SameClock wt wt') : wt'.currentAbsSlotNo = wt.currentAbsSlotNo := by
  rw [Model.WheelTimer.currentAbsSlotNo, Model.WheelTimer.currentAbsSlotNo, same.size, same.tic, same.cycle]

theorem SameClock.slotsOf (same : SameClock wt wt') : wt'.slotsOf interval = wt.slotsOf interval := by
  rw [Model.WheelTimer.slotsOf, Model.WheelTimer.slotsOf, wtGetClockIntervalInMilliSec,
    wtGetClockIntervalInMilliSec, same.interval, same.resolution]

theorem SameClock.nextAbsSlotNo (same : SameClock wt wt') : wt'.nextAbsSlotNo interval =
    wt.nextAbsSlotNo interval := by
  rw [Model.WheelTimer.nextAbsSlotNo, Model.WheelTimer.nextAbsSlotNo, same.currentAbsSlotNo, same.slotsOf]

theorem sameClock_setElem {f : WheelTimerElem → WheelTimerElem} : SameClock wt (wt.setElem e f) :=
  ⟨rfl, rfl, rfl, rfl, rfl⟩

theorem sameClock_removeGlue : SameClock wt (wt.removeGlue e) := ⟨rfl, rfl, rfl, rfl, rfl⟩

theorem sameClock_removeRescheduleGlue : SameClock wt (wt.removeRescheduleGlue e) := ⟨rfl, rfl, rfl, rfl, rfl⟩

theorem sameClock_insertGlue {slot : ℕ} : SameClock wt (wt.insertGlue slot e) := ⟨rfl, rfl, rfl, rfl, rfl⟩

theorem sameClock_insertAt {next : ℕ} : SameClock wt (wt.insertAt e next) :=
  sameClock_setElem.trans (sameClock_insertGlue.trans sameClock_setElem)

theorem sameClock_free : SameClock wt (wt.freeWheelTimerElement e) := ⟨rfl, rfl, rfl, rfl, rfl⟩

theorem SameElem.refl (wt : WheelTimer) (e : WheelTimerElemRef) : SameElem wt wt e := ⟨rfl, rfl, Iff.rfl, rfl⟩

theorem SameElem.trans (first : SameElem wt wt' e) (second : SameElem wt' wt'' e) : SameElem wt wt'' e :=
  ⟨second.elem.trans first.elem, second.due.trans first.due, second.queued.trans first.queued,
    second.freed.trans first.freed⟩

/-- An element whose opcode and interval have been written. -/
def written (wt : WheelTimer) (e : WheelTimerElemRef) (newTimeInterval : Int32) (opcode : WtOpcode) :
    WheelTimer :=
  wt.setElem e fun elem => { elem with opcode, newTimeInterval }

/-- The element stands at the end of the list of requests, its old glue there taken out first. -/
def enqueued (wt : WheelTimer) (e : WheelTimerElemRef) : WheelTimer :=
  { wt.setElem e fun elem => { elem with slotlistHead := none } with reschdList := e :: wt.reschdList.erase e }

variable {opcode : WtOpcode}

/-- Writing a request needs the element to be allocated, and touches nothing else. -/
theorem writeRequest_eq (ran : wt.writeRequest e interval opcode = some wt') :
    wt.elems e ≠ none ∧ wt' = written wt e interval opcode := by
  obtain ⟨elem, found, ran⟩ := Option.bind_eq_some_iff.mp ran
  exact ⟨found ▸ Option.some_ne_none elem, (Option.some.inj ran).symm⟩

/-- Putting a request in the list needs the element to be allocated. -/
theorem enqueueRequest_eq (ran : wt.enqueueRequest e = some wt') : wt.elems e ≠ none ∧
    wt' = enqueued wt e := by
  obtain ⟨elem, found, ran⟩ := Option.bind_eq_some_iff.mp ran
  exact ⟨found ▸ Option.some_ne_none elem, (Option.some.inj ran).symm⟩

theorem sameClock_written : SameClock wt (written wt e interval opcode) := sameClock_setElem

/-- A request is only written down: no element changes its place. -/
theorem placeOf_written : placeOf (written wt e interval opcode) d = placeOf wt d :=
  placeOf_setElem keepsPlace_request

theorem Tidy.written (tidy : Tidy wt) : Tidy (written wt e interval opcode) := tidy.setElem keepsPlace_request

theorem dueOf_written : dueOf (written wt e interval opcode) d = dueOf wt d := dueOf_setElem keepsPlace_request

theorem elems_written (found : wt.elems e = some elem) :
    (written wt e interval opcode).elems e = some { elem with opcode, newTimeInterval := interval } :=
  elems_setElem_self found

theorem sameElem_written (other : d ≠ e) : SameElem wt (written wt e interval opcode) d :=
  ⟨elems_setElem_of_ne other, dueOf_written, Iff.rfl, rfl⟩

theorem sameClock_enqueued : SameClock wt (enqueued wt e) := ⟨rfl, rfl, rfl, rfl, rfl⟩

theorem placeOf_enqueued : placeOf (enqueued wt e) d = placeOf wt d := by
  have unheaded : placeOf (wt.setElem e fun elem => { elem with slotlistHead := none }) d = placeOf wt d :=
    placeOf_setElem keepsPlace_slotlistHead
  exact unheaded

theorem Tidy.enqueued (tidy : Tidy wt) : Tidy (enqueued wt e) :=
  tidy.congr rfl rfl (fun _ => placeOf_enqueued)
    (List.nodup_cons.mpr ⟨tidy.queued.not_mem_erase, tidy.queued.erase e⟩)

theorem dueOf_enqueued : dueOf (enqueued wt e) d = dueOf wt d := dueOf_congr rfl rfl placeOf_enqueued

theorem elems_enqueued (found : wt.elems e = some elem) :
    (enqueued wt e).elems e = some { elem with slotlistHead := none } := elems_setElem_self found

/-- The list of requests gains the element and loses none. -/
theorem mem_enqueued (tidy : Tidy wt) : d ∈ (enqueued wt e).reschdList ↔ d = e ∨ d ∈ wt.reschdList := by
  rw [enqueued, List.mem_cons, tidy.queued.mem_erase_iff]
  by_cases same : d = e
  · simp only [same, true_or]
  · simp only [same, false_or, ne_eq, not_false_eq_true, true_and]

/-- Every other element is as it was. -/
theorem sameElem_enqueued (tidy : Tidy wt) (other : d ≠ e) : SameElem wt (enqueued wt e) d :=
  ⟨elems_setElem_of_ne other, dueOf_enqueued, (mem_enqueued tidy).trans (or_iff_right other), rfl⟩

/-- What becomes of an element that is processed, by its opcode. -/
inductive Outcome (wt wt' : WheelTimer) (e : WheelTimerElemRef) (elem : WheelTimerElem) : Prop
  | planned {next : ℕ} {elem' : WheelTimerElem} : elem.opcode = .create ∨ elem.opcode = .resched →
      wt.nextAbsSlotNo elem.newTimeInterval = some next → dueOf wt' e = some next →
      wt'.elems e = some elem' →
      elem'.timeInterval = elem.newTimeInterval → elem'.isRecurrence = elem.isRecurrence →
      elem'.opcode = .scheduled →
      e ∉ wt'.reschdList → wt'.freed.count e = wt.freed.count e → Outcome wt wt' e elem
  | deleted : elem.opcode = .delete → wt'.elems e = none → dueOf wt' e = none → e ∉ wt'.reschdList →
      wt'.freed.count e = wt.freed.count e + 1 → Outcome wt wt' e elem
  | dropped : elem.opcode = .scheduled → wt'.elems e ≠ none → dueOf wt' e = none →
      (e ∈ wt'.reschdList ↔ e ∈ wt.reschdList) → wt'.freed.count e = wt.freed.count e →
      Outcome wt wt' e elem

/-- What happens to others before and after does not matter. -/
theorem Outcome.between {before after : WheelTimer} (outcome : Outcome wt wt' e elem)
    (clock : SameClock before wt)
    (first : SameElem before wt e) (last : SameElem wt' after e) : Outcome before after e elem := by
  cases outcome with
  | planned opcode next due found interval recurrence scheduled left freed =>
    exact .planned opcode (clock.nextAbsSlotNo ▸ next) (last.due.trans due) (last.elem.trans found)
      interval recurrence
      scheduled (fun member => left (last.queued.mp member)) (last.freed.trans (freed.trans first.freed))
  | deleted opcode gone due left freed =>
    exact .deleted opcode (last.elem.trans gone) (last.due.trans due) (fun member => left (last.queued.mp member))
      (last.freed.trans (freed.trans (congrArg (· + 1) first.freed)))
  | dropped opcode kept due stays freed =>
    exact .dropped opcode (last.elem ▸ kept) (last.due.trans due) (last.queued.trans (stays.trans first.queued))
      (last.freed.trans (freed.trans first.freed))

/-- The element out of its slot, as each branch finds it. -/
def unslot (wt : WheelTimer) (e : WheelTimerElemRef) : WheelTimer :=
  (wt.removeGlue e).setElem e fun elem => { elem with slotlistHead := none }

theorem sameClock_unslot : SameClock wt (unslot wt e) := sameClock_removeGlue.trans sameClock_setElem

theorem reschdList_unslot : (unslot wt e).reschdList = wt.reschdList := rfl

theorem freed_unslot : (unslot wt e).freed = wt.freed := rfl

/-- Taking an element out of its slot keeps the wheel tidy. -/
theorem Tidy.unslot (tidy : Tidy wt) : Tidy (unslot wt e) := tidy.removeGlue.setElem keepsPlace_slotlistHead

/-- Out of its slot, an element is due at no tick. -/
theorem dueOf_unslot_self (tidy : Tidy wt) : dueOf (unslot wt e) e = none := by
  rw [unslot, dueOf_setElem keepsPlace_slotlistHead]
  exact dueOf_removeGlue_self tidy

theorem elems_unslot (found : wt.elems e = some elem) :
    (unslot wt e).elems e = some { elem with slotlistHead := none } := elems_setElem_self found

theorem sameElem_unslot (tidy : Tidy wt) (other : d ≠ e) : SameElem wt (unslot wt e) d := by
  constructor
  · exact elems_setElem_of_ne other
  · rw [unslot, dueOf_setElem keepsPlace_slotlistHead]
    exact dueOf_removeGlue tidy other
  · exact Iff.rfl
  · rfl

/-- The branch of `WTELEM_CREATE` and `WTELEM_RESCHED`. -/
def replan (wt : WheelTimer) (e : WheelTimerElemRef) (next : ℕ) : WheelTimer :=
  ((((wt.setElem e fun elem => { elem with timeInterval := elem.newTimeInterval }).insertAt e
    next).removeRescheduleGlue e).setElem
    e fun elem => { elem with opcode := .scheduled })

variable {next : ℕ}

theorem sameClock_replan : SameClock wt (replan wt e next) :=
  sameClock_setElem.trans (sameClock_insertAt.trans (sameClock_removeRescheduleGlue.trans sameClock_setElem))

theorem reschdList_replan : (replan wt e next).reschdList = wt.reschdList.erase e := by
  rw [replan, reschdList_setElem, Model.WheelTimer.removeRescheduleGlue, reschdList_insertAt, reschdList_setElem]

theorem freed_replan : (replan wt e next).freed = wt.freed := by
  rw [replan, freed_setElem, Model.WheelTimer.removeRescheduleGlue, freed_insertAt, freed_setElem]

/-- The element takes the interval of the request and is marked scheduled. -/
theorem elems_replan (next : ℕ) (found : wt.elems e = some elem) :
    ∃ elem', (replan wt e next).elems e = some elem' ∧
    elem'.timeInterval = elem.newTimeInterval ∧ elem'.isRecurrence = elem.isRecurrence ∧
    elem'.opcode = .scheduled := by
  have renewed := elems_setElem_self (f := fun elem => { elem with timeInterval := elem.newTimeInterval }) found
  have inserted : ((wt.setElem e fun elem => { elem with timeInterval := elem.newTimeInterval }).insertAt
      e next).elems e = _ :=
    elems_insertAt renewed
  exact ⟨_, elems_setElem_self inserted, rfl, rfl, rfl⟩

theorem elems_replan_of_ne (other : d ≠ e) : (replan wt e next).elems d = wt.elems d := by
  rw [replan, elems_setElem_of_ne other]
  exact (elems_insertAt_of_ne other).trans (elems_setElem_of_ne other)

/-- Placing an element that is in no slot keeps the wheel tidy. -/
theorem Tidy.replan (tidy : Tidy wt) (found : wt.elems e = some elem) (unlinked : dueOf wt e = none) :
    Tidy (replan wt e next) := by
  have renewed : Tidy (wt.setElem e fun elem => { elem with timeInterval := elem.newTimeInterval }) :=
    tidy.setElem keepsPlace_timeInterval
  have absent := unlinked_of_dueOf tidy unlinked
  have inserted : Tidy
      ((wt.setElem e fun elem => { elem with timeInterval := elem.newTimeInterval }).insertAt e next) :=
    renewed.insertAt (elems_setElem_self found) absent
  exact inserted.removeRescheduleGlue.setElem keepsPlace_opcode

/-- The element is due at the absolute slot it was placed for. -/
theorem dueOf_replan (found : wt.elems e = some elem) : dueOf (replan wt e next) e = some next := by
  rw [replan, dueOf_setElem keepsPlace_opcode, dueOf_removeRescheduleGlue]
  exact dueOf_insertAt (elems_setElem_self found)

/-- Placing one element leaves when the others are due. -/
theorem dueOf_replan_of_ne (other : d ≠ e) : dueOf (replan wt e next) d = dueOf wt d := by
  rw [replan, dueOf_setElem keepsPlace_opcode, dueOf_removeRescheduleGlue, dueOf_insertAt_of_ne other]
  exact dueOf_setElem keepsPlace_timeInterval

theorem sameElem_replan (tidy : Tidy wt) (other : d ≠ e) : SameElem wt (replan wt e next) d := by
  constructor
  · exact elems_replan_of_ne other
  · exact dueOf_replan_of_ne other
  · rw [reschdList_replan, tidy.queued.mem_erase_iff, and_iff_right other]
  · rw [freed_replan]

/-- The branch of `WTELEM_DELETE`. -/
def discard (wt : WheelTimer) (e : WheelTimerElemRef) : WheelTimer :=
  (wt.removeRescheduleGlue e).freeWheelTimerElement e

theorem sameClock_discard : SameClock wt (discard wt e) := sameClock_removeRescheduleGlue.trans sameClock_free

theorem reschdList_discard : (discard wt e).reschdList = wt.reschdList.erase e := rfl

theorem placeOf_discard_of_ne (other : d ≠ e) : placeOf (discard wt e) d = placeOf wt d := by
  rw [placeOf, discard, freeWheelTimerElement]
  exact congrArg (Option.map _) (Function.update_of_ne other ..)

/-- Freeing an element that is in no slot keeps the wheel tidy. -/
theorem Tidy.discard (tidy : Tidy wt) (unlinked : dueOf wt e = none) : Tidy (discard wt e) := by
  refine tidy.congr rfl rfl (fun {slot d} member => placeOf_discard_of_ne ?_) (tidy.queued.erase e)
  rintro rfl
  exact unlinked_of_dueOf tidy unlinked slot member

theorem sameElem_discard (tidy : Tidy wt) (other : d ≠ e) : SameElem wt (discard wt e) d := by
  constructor
  · exact Function.update_of_ne other ..
  · exact dueOf_congr rfl rfl (placeOf_discard_of_ne other)
  · rw [reschdList_discard, tidy.queued.mem_erase_iff, and_iff_right other]
  · exact List.count_cons_of_ne (Ne.symm other)

/-- What one turn of the drain does, by the opcode that the element carries. -/
theorem processElem_eq (found : wt.elems e = some elem) : processElem wt e =
    match elem.opcode with
    | .create | .resched =>
      if elem.appCallback = 0 ∨ elem.newTimeInterval = 0 then none
      else (wt.nextAbsSlotNo elem.newTimeInterval).map (replan (unslot wt e) e)
    | .delete => some (discard (unslot wt e) e)
    | .scheduled => some (unslot wt e)
    | .unknown => none := by
  rw [processElem, found]
  change (match elem.opcode with | .create | .resched => _ | .delete => _ | .scheduled => _ | .unknown => _) = _
  cases elem.opcode with
  | create | resched =>
    dsimp only
    split_ifs
    · rfl
    · change ((unslot wt e).nextAbsSlotNo elem.newTimeInterval).bind _ = _
      rw [sameClock_unslot.nextAbsSlotNo]
      cases wt.nextAbsSlotNo elem.newTimeInterval <;> rfl
  | delete => rfl
  | scheduled => rfl
  | unknown => rfl

/-- A creation or a rescheduling ends with the element placed. -/
theorem outcome_replan (tidy : Tidy wt) (found : wt.elems e = some elem)
    (opcode : elem.opcode = .create ∨ elem.opcode = .resched)
    (slot : wt.nextAbsSlotNo elem.newTimeInterval = some next) :
    Outcome wt (replan (unslot wt e) e next) e elem := by
  obtain ⟨elem', found', interval, recurrence, scheduled⟩ := elems_replan next (elems_unslot found)
  refine .planned opcode slot (dueOf_replan (elems_unslot found)) found' interval recurrence scheduled ?_ ?_
  · rw [reschdList_replan, reschdList_unslot]
    exact tidy.queued.not_mem_erase
  · rw [freed_replan, freed_unslot]

/-- A deletion ends with the element freed. -/
theorem outcome_discard (tidy : Tidy wt) (opcode : elem.opcode = .delete) :
    Outcome wt (discard (unslot wt e) e) e elem := by
  refine .deleted opcode (Function.update_self ..) ?_ ?_ List.count_cons_self
  · refine dueOf_none fun slot => ?_
    exact unlinked_of_dueOf tidy.unslot (dueOf_unslot_self tidy) slot
  · rw [reschdList_discard, reschdList_unslot]
    exact tidy.queued.not_mem_erase

/-- One turn of the loop. -/
theorem processElem_spec (tidy : Tidy wt) (ran : processElem wt e = some wt') :
    Tidy wt' ∧ SameClock wt wt' ∧ (∀ d, d ≠ e → SameElem wt wt' d) ∧
    ∃ elem, wt.elems e = some elem ∧ Outcome wt wt' e elem := by
  obtain ⟨elem, found, _⟩ := Option.bind_eq_some_iff.mp ran
  rw [processElem_eq found] at ran
  have replanned {next : ℕ} (opcode : elem.opcode = .create ∨ elem.opcode = .resched)
      (slot : wt.nextAbsSlotNo elem.newTimeInterval = some next) :
      Tidy (replan (unslot wt e) e next) ∧ SameClock wt (replan (unslot wt e) e next) ∧
        (∀ d, d ≠ e → SameElem wt (replan (unslot wt e) e next) d) ∧
        ∃ elem, wt.elems e = some elem ∧ Outcome wt (replan (unslot wt e) e next) e elem := by
    refine ⟨tidy.unslot.replan (elems_unslot found) (dueOf_unslot_self tidy),
      sameClock_unslot.trans sameClock_replan,
      fun d other => ?_, elem, found, ?_⟩
    · exact (sameElem_unslot tidy other).trans (sameElem_replan tidy.unslot other)
    · exact outcome_replan tidy found opcode slot
  split at ran
  case h_1 opcode =>
    split_ifs at ran
    obtain ⟨next, slot, rfl⟩ := Option.map_eq_some_iff.mp ran
    exact replanned (.inl opcode) slot
  case h_2 opcode =>
    split_ifs at ran
    obtain ⟨next, slot, rfl⟩ := Option.map_eq_some_iff.mp ran
    exact replanned (.inr opcode) slot
  case h_3 opcode =>
    obtain rfl := Option.some.inj ran
    refine ⟨tidy.unslot.discard (dueOf_unslot_self tidy), sameClock_unslot.trans sameClock_discard,
      fun d other => ?_, elem, found, outcome_discard tidy opcode⟩
    exact (sameElem_unslot tidy other).trans (sameElem_discard tidy.unslot other)
  case h_4 opcode =>
    obtain rfl := Option.some.inj ran
    refine ⟨tidy.unslot, sameClock_unslot, fun d other => sameElem_unslot tidy other, elem, found, ?_⟩
    refine .dropped opcode ?_ (dueOf_unslot_self tidy) Iff.rfl rfl
    rw [elems_unslot found]
    exact Option.some_ne_none _
  case h_5 => cases ran

/-- What a drain of the given elements comes to. -/
structure Drained (queued : List WheelTimerElemRef) (wt wt' : WheelTimer) : Prop where
  tidy : Tidy wt'
  clock : SameClock wt wt'
  others : ∀ e, e ∉ queued → SameElem wt wt' e
  each : ∀ e ∈ queued, ∃ elem, wt.elems e = some elem ∧ Outcome wt wt' e elem

/-- By induction on the elements still to be drained: each is visited once, and the rest of the
wheel stays. -/
theorem foldlM_processElem {queued : List WheelTimerElemRef} (tidy : Tidy wt) (nodup : queued.Nodup)
    (ran : queued.foldlM processElem wt = some wt') : Drained queued wt wt' := by
  induction queued generalizing wt with
  | nil =>
    obtain rfl := Option.some.inj ran
    exact ⟨tidy, .refl wt, fun e _ => .refl wt e, fun e member => (List.not_mem_nil member).elim⟩
  | cons e rest ih =>
    obtain ⟨wt₁, first, later⟩ := Option.bind_eq_some_iff.mp ran
    obtain ⟨new, nodup⟩ := List.nodup_cons.mp nodup
    obtain ⟨tidy₁, clock, same, elem, found, outcome⟩ := processElem_spec tidy first
    have drained := ih tidy₁ nodup later
    refine ⟨drained.tidy, clock.trans drained.clock, fun d absent => ?_, fun d member => ?_⟩
    · exact (same d (List.ne_of_not_mem_cons absent)).trans
        (drained.others d (List.not_mem_of_not_mem_cons absent))
    · rcases List.mem_cons.mp member with rfl | member
      · exact ⟨elem, found, outcome.between (.refl wt) (.refl wt d) (drained.others d new)⟩
      · have other : d ≠ e := fun same => new (same ▸ member)
        obtain ⟨elem, found, outcome⟩ := drained.each d member
        refine ⟨elem, (same d other).elem ▸ found, ?_⟩
        exact outcome.between clock (same d other) (.refl wt' d)

/-- The drain visits the whole list of requests. -/
theorem processWtRescheduleSlotlist_spec (tidy : Tidy wt) (ran : wt.processWtRescheduleSlotlist = some wt') :
    Drained wt.reschdList wt wt' := foldlM_processElem tidy tidy.queued ran

/-- An element that no request has been made on since a drain does not get to the list again. -/
theorem Drained.queue (drained : Drained wt.reschdList wt wt')
    (fresh : ∀ e ∈ wt.reschdList, ∀ elem, wt.elems e = some elem → elem.opcode ≠ .scheduled) :
    wt'.reschdList = [] := by
  refine List.eq_nil_iff_forall_not_mem.mpr fun e member => ?_
  by_cases queued : e ∈ wt.reschdList
  · obtain ⟨elem, found, outcome⟩ := drained.each e queued
    cases outcome with
    | planned _ _ _ _ _ _ _ left _ => exact left member
    | deleted _ _ _ left _ => exact left member
    | dropped opcode _ _ _ _ => exact fresh e queued elem found opcode
  · exact queued ((drained.others e queued).queued.mp member)

end WheelTimer

end TcpServerLib.Refinement
