import TcpServerLib.Machine.Path
import TcpServerLib.Model.RequestSteps
import TcpServerLib.Refinement.WheelRequests

/-! # Timer requests that get lost

A drain goes by what the queued elements hold. It does what has been asked for exactly if each of them
still holds the request it was queued for last: a request that is between its two steps may have
overwritten it, and the drain may have done then what is queued once more afterwards.
-/

namespace TcpServerLib.Soundness

open Machine Model Refinement Model.RequestSteps Refinement.WheelTimer

namespace RequestSteps

/-- What a drain is to make of the request that has been enqueued last for an element. -/
def Done (s : RequestSteps) (e : WheelTimerElemRef) : TimerRequest → Prop
  | .create _ | .resched _ => ∃ n, s.place e = some n ∧ e ∈ s.wt.slotlist (n % s.wt.wheelSize) ∧
      s.wt.executeCycleNo e = n / s.wt.wheelSize
  | .delete => s.wt.freed.count e = 1 ∧ s.wt.elems e = none ∧ e ∉ s.wt.reschdList ∧
      ∀ slot, e ∉ s.wt.slotlist slot

/-- The list is empty, and whatever has been enqueued has been done. -/
structure NoneLost (s : RequestSteps) : Prop where
  emptied : s.wt.reschdList = []
  done : ∀ e request, s.enqueued e = some request → Done s e request

/-- The element holds a request of the effect of the given one. -/
structure Holds (wt : WheelTimer) (elem : WheelTimerElem) (request : TimerRequest) : Prop where
  waiting : elem.opcode ≠ .scheduled
  delete : elem.opcode = .delete ↔ request = .delete
  interval : request ≠ .delete → wt.slotsOf elem.newTimeInterval = wt.slotsOf request.interval

/-- Every queued element holds what has been enqueued last for it. -/
def Carried (s : RequestSteps) : Prop :=
  ∀ e ∈ s.wt.reschdList, ∀ elem request, s.wt.elems e = some elem → s.enqueued e = some request →
    Holds s.wt elem request

def DrainsCarried (s : RequestSteps) : RequestEvent → Prop
  | .drain => Carried s
  | _ => True

/-- What holds between the drains: a request is queued, or it has been done. -/
structure Kept (s : RequestSteps) : Prop where
  tidy : Tidy s.wt
  queued : ∀ e ∈ s.wt.reschdList, s.enqueued e ≠ none ∧ s.wt.elems e ≠ none
  unfreed : ∀ e, s.wt.elems e ≠ none → s.wt.freed.count e = 0
  done : ∀ e request, s.enqueued e = some request → e ∉ s.wt.reschdList → Done s e request

variable {s t : RequestSteps} {wt wt' : WheelTimer} {e d : WheelTimerElemRef} {request : TimerRequest}
  {event : RequestEvent} {n : ℕ} {elem : WheelTimerElem}

theorem place_of_due (tidy : Tidy wt) (due : dueOf wt e = some n) :
    e ∈ wt.slotlist (n % wt.wheelSize) ∧ wt.executeCycleNo e = n / wt.wheelSize := by
  obtain ⟨cycle, slot, place, member, rfl⟩ := dueOf_eq_some due
  have bound := (tidy.linked member).1
  have number : (cycle * wt.wheelSize + slot) % wt.wheelSize = slot := by
    rw [Nat.mul_comm, Nat.mul_add_mod, Nat.mod_eq_of_lt bound]
  have turns : (cycle * wt.wheelSize + slot) / wt.wheelSize = cycle := by
    rw [Nat.mul_comm, Nat.mul_add_div tidy.positive, Nat.div_eq_of_lt bound, Nat.add_zero]
  rw [number, turns, executeCycleNo_eq, place]
  exact ⟨member, rfl⟩

theorem due_of_place (tidy : Tidy wt) (member : e ∈ wt.slotlist (n % wt.wheelSize))
    (cycle : wt.executeCycleNo e = n / wt.wheelSize) : dueOf wt e = some n := by
  obtain ⟨_, cycle', place⟩ := tidy.linked member
  rw [executeCycleNo_eq, place] at cycle
  rw [dueOf_linked place member]
  dsimp only [Option.elim] at cycle
  rw [cycle, Nat.div_add_mod']

theorem done_of_due (tidy : Tidy s.wt) (kept : request ≠ .delete) (place : s.place e = some n)
    (due : dueOf s.wt e = some n) :
    Done s e request := by
  have here := place_of_due tidy due
  cases request with
  | create | resched => exact ⟨n, place, here.1, here.2⟩
  | delete => exact (kept rfl).elim

theorem due_of_done (tidy : Tidy s.wt) (kept : request ≠ .delete) (done : Done s e request) :
    ∃ n, s.place e = some n ∧ dueOf s.wt e = some n := by
  cases request with
  | create | resched =>
    obtain ⟨n, place, member, cycle⟩ := done
    exact ⟨n, place, due_of_place tidy member cycle⟩
  | delete => exact (kept rfl).elim

/-- An element that has been freed, or was never there, is done with. -/
theorem Done.of_same (tidy : Tidy s.wt) (tidy' : Tidy t.wt) (done : Done s e request)
    (place : t.place e = s.place e) (same : SameElem s.wt t.wt e) : Done t e request := by
  by_cases delete : request = .delete
  · subst delete
    obtain ⟨freed, gone, left, unlinked⟩ := done
    refine ⟨same.freed.trans freed, same.elem.trans gone, fun member => left (same.queued.mp member), ?_⟩
    exact unlinked_of_dueOf tidy' (same.due.trans (dueOf_none unlinked))
  · obtain ⟨n, planned, due⟩ := due_of_done tidy delete done
    exact done_of_due tidy' delete (place.trans planned) (same.due.trans due)

/-- The element has been written to, or is new; the lists are as they were. -/
structure Touched (e : WheelTimerElemRef) (wt wt' : WheelTimer) : Prop where
  tidy : Tidy wt'
  others : ∀ d, d ≠ e → SameElem wt wt' d
  due : dueOf wt' e = dueOf wt e
  queue : wt'.reschdList = wt.reschdList
  freed : wt'.freed = wt.freed
  found : wt'.elems e ≠ none

theorem touched_setElem {f : WheelTimerElem → WheelTimerElem} (tidy : Tidy wt) (keeps : KeepsPlace f)
    (found : wt.elems e ≠ none) : Touched e wt (wt.setElem e f) := by
  obtain ⟨elem, found⟩ := Option.ne_none_iff_exists'.mp found
  constructor
  · exact tidy.setElem keeps
  · exact fun d other => ⟨elems_setElem_of_ne other, dueOf_setElem keeps, Iff.rfl, rfl⟩
  · exact dueOf_setElem keeps
  · rfl
  · rfl
  · rw [elems_setElem_self found]
    exact Option.some_ne_none _

theorem touched_callocElem {callBack arg argSize : ℕ} {isRecursive : Bool} (tidy : Tidy wt)
    (absent : wt.elems e = none) :
    Touched e wt (wt.callocElem e callBack arg argSize isRecursive) := by
  have unlinked := unlinked_of_elems tidy absent
  have unlinked' : ∀ slot, e ∉ (wt.callocElem e callBack arg argSize isRecursive).slotlist slot := unlinked
  constructor
  · exact tidy.callocElem absent
  · exact fun d other => sameElem_callocElem other
  · exact (dueOf_none unlinked').trans (dueOf_none unlinked).symm
  · rfl
  · rfl
  · intro gone
    cases (Function.update_self e _ wt.elems).symm.trans gone

theorem Touched.trans {wt'' : WheelTimer} (first : Touched e wt wt') (second : Touched e wt' wt'') :
    Touched e wt wt'' :=
  ⟨second.tidy, fun d other => (first.others d other).trans (second.others d other), second.due.trans first.due,
    second.queue.trans first.queue, second.freed.trans first.freed, second.found⟩

theorem kept_touched (kept : Kept s) (unfreed : s.wt.freed.count e = 0) (touched : Touched e s.wt t.wt)
    (enqueued : t.enqueued = s.enqueued) (place : t.place = s.place) : Kept t := by
  constructor
  · exact touched.tidy
  · intro d member
    rw [touched.queue] at member
    obtain ⟨known, found⟩ := kept.queued d member
    rw [enqueued]
    refine ⟨known, ?_⟩
    by_cases same : d = e
    · exact same ▸ touched.found
    · rwa [(touched.others d same).elem]
  · intro d found
    rw [touched.freed]
    by_cases same : d = e
    · rwa [same]
    · exact kept.unfreed d ((touched.others d same).elem ▸ found)
  · intro d request known absent
    rw [enqueued] at known
    rw [touched.queue] at absent
    have done := kept.done d request known absent
    by_cases same : d = e
    · subst same
      have going : request ≠ .delete := by
        rintro rfl
        exact absurd (unfreed.symm.trans done.1) (by decide)
      obtain ⟨n, planned, due⟩ := due_of_done kept.tidy going done
      exact done_of_due touched.tidy going (place ▸ planned) (touched.due.trans due)
    · exact done.of_same kept.tidy touched.tidy (congrFun place d) (touched.others d same)

theorem kept_write (kept : Kept s) (unfreed : s.wt.freed.count e = 0) (touched : Touched e s.wt wt)
    (ran : s.write wt e request = some t) : Kept t := by
  obtain ⟨wt', wrote, rfl⟩ := Option.map_eq_some_iff.mp ran
  obtain ⟨_, rfl⟩ := writeRequest_eq wrote
  exact kept_touched kept unfreed
    (touched.trans (touched_setElem touched.tidy keepsPlace_request touched.found)) rfl rfl

theorem kept_enqueue (kept : Kept s) (ran : s.wt.enqueueRequest e = some wt') : Kept { s with
    wt := wt', inFlight := s.inFlight.erase (e, request), enqueued :=
  Function.update s.enqueued e (some request) } := by
  obtain ⟨found, rfl⟩ := enqueueRequest_eq ran
  obtain ⟨elem, found⟩ := Option.ne_none_iff_exists'.mp found
  have here : (enqueued s.wt e).elems e ≠ none := by
    rw [elems_enqueued found]
    exact Option.some_ne_none _
  constructor
  · exact kept.tidy.enqueued
  · intro d member
    dsimp only
    rw [Function.update_apply]
    by_cases same : d = e
    · subst same
      rw [if_pos rfl]
      exact ⟨Option.some_ne_none _, here⟩
    · rw [if_neg same, (sameElem_enqueued kept.tidy same).elem]
      exact kept.queued d ((sameElem_enqueued kept.tidy same).queued.mp member)
  · intro d present
    by_cases same : d = e
    · subst same
      exact kept.unfreed d (found ▸ Option.some_ne_none _)
    · exact kept.unfreed d ((sameElem_enqueued kept.tidy same).elem ▸ present)
  · intro d request known absent
    have other : d ≠ e := by
      rintro rfl
      exact absent ((mem_enqueued kept.tidy).mpr (.inl rfl))
    dsimp only at known
    rw [Function.update_of_ne other] at known
    have same := sameElem_enqueued kept.tidy other
    exact (kept.done d request known fun member => absent (same.queued.mpr member)).of_same kept.tidy
      kept.tidy.enqueued rfl same

theorem kept_advance (kept : Kept s) : Kept { s with wt := s.wt.advanceClock } := by
  have moved : ∃ tic cycle, s.wt.advanceClock =
      { s.wt with currentClockTic := tic, currentCycleNo := cycle } := by
    rw [WheelTimer.advanceClock]
    split_ifs
    · exact ⟨_, _, rfl⟩
    · exact ⟨_, _, rfl⟩
  obtain ⟨tic, cycle, moved⟩ := moved
  rw [moved]
  have tidy : Tidy { s.wt with currentClockTic := tic, currentCycleNo := cycle } :=
    kept.tidy.congr rfl rfl (fun _ => rfl) kept.tidy.queued
  exact ⟨tidy, kept.queued, kept.unfreed, fun e request known absent =>
    (kept.done e request known absent).of_same kept.tidy tidy rfl ⟨rfl, rfl, Iff.rfl, rfl⟩⟩

/-- The interval decides the absolute slot number, and the other way round. -/
theorem slotsOf_of_nextAbsSlotNo {first second : Int32} (same : wt.nextAbsSlotNo first = wt.nextAbsSlotNo second)
    (fits : wt.nextAbsSlotNo first = some n) : wt.slotsOf first = wt.slotsOf second := by
  have bound (interval : Int32) : wt.slotsOf interval < 2 ^ 32 :=
    (Nat.div_le_self ..).trans_lt interval.toUInt32.toBitVec.isLt
  have sum {interval : Int32} (next : wt.nextAbsSlotNo interval = some n) :
      (wt.currentAbsSlotNo + wt.slotsOf interval) % 2 ^ 32 = n := by
    rw [WheelTimer.nextAbsSlotNo] at next
    exact (Option.ite_none_right_eq_some.mp next).2 |> Option.some.inj
  have := bound first
  have := bound second
  have := sum fits
  have := sum (same ▸ fits)
  omega

theorem nextAbsSlotNo_congr {first second : Int32} (same : wt.slotsOf first = wt.slotsOf second) :
    wt.nextAbsSlotNo first = wt.nextAbsSlotNo second := by
  rw [WheelTimer.nextAbsSlotNo, WheelTimer.nextAbsSlotNo, same]

section

variable (kept : Kept s) (ran : s.wt.processWtRescheduleSlotlist = some wt')
include kept ran

/-- The state after a drain. -/
def drained (s : RequestSteps) (wt' : WheelTimer) : RequestSteps := { s with
  wt := wt', place := fun e =>
    if e ∈ s.wt.reschdList then (s.enqueued e).bind fun request =>
      s.wt.nextAbsSlotNo request.interval else s.place e }

omit kept ran in
theorem place_drained (member : e ∈ s.wt.reschdList) (known : s.enqueued e = some request) :
    (drained s wt').place e = s.wt.nextAbsSlotNo request.interval := by
  refine (if_pos member).trans ?_
  rw [known]
  rfl

/-- What an element held decides whether its request has been done. -/
theorem done_iff_holds (member : e ∈ s.wt.reschdList) (known : s.enqueued e = some request)
    (found : s.wt.elems e = some elem) (emptied : e ∉ wt'.reschdList) :
    Done (drained s wt') e request ↔ Holds s.wt elem request := by
  have spec := processWtRescheduleSlotlist_spec kept.tidy ran
  obtain ⟨other, found', outcome⟩ := spec.each e member
  obtain rfl := Option.some.inj (found.symm.trans found')
  have place : (drained s wt').place e = s.wt.nextAbsSlotNo request.interval := place_drained member known
  have alive := kept.unfreed e (found ▸ Option.some_ne_none elem)
  cases outcome with
  | planned opcode next due after interval recurrence scheduled left freed =>
    have going : elem.opcode ≠ .delete ∧ elem.opcode ≠ .scheduled := by
      rcases opcode with opcode | opcode <;> rw [opcode] <;> decide
    constructor
    · intro done
      have live : request ≠ .delete := by
        rintro rfl
        cases after.symm.trans done.2.1
      obtain ⟨n, planned, due'⟩ := due_of_done (s := drained s wt') spec.tidy live done
      obtain rfl := Option.some.inj (due.symm.trans due')
      refine ⟨going.2, iff_of_false going.1 live, fun _ => ?_⟩
      exact slotsOf_of_nextAbsSlotNo (next.trans (place.symm.trans planned).symm) next
    · intro holds
      have live : request ≠ .delete := fun same => going.1 (holds.delete.mpr same)
      refine done_of_due (s := drained s wt') spec.tidy live ?_ due
      rw [place, ← nextAbsSlotNo_congr (holds.interval live)]
      exact next
  | deleted opcode gone due left freed =>
    constructor
    · intro done
      refine ⟨?_, iff_of_true opcode ?_, ?_⟩
      · rw [opcode]
        decide
      · by_contra live
        obtain ⟨n, _, due'⟩ := due_of_done (s := drained s wt') spec.tidy live done
        cases due.symm.trans due'
      · intro live
        obtain ⟨n, _, due'⟩ := due_of_done (s := drained s wt') spec.tidy live done
        cases due.symm.trans due'
    · intro holds
      obtain rfl := holds.delete.mp opcode
      refine ⟨?_, gone, left, unlinked_of_dueOf spec.tidy due⟩
      change wt'.freed.count e = 1
      rw [freed, alive]
  | dropped opcode after due stays freed => exact (emptied (stays.mpr member)).elim

theorem noneLost_of_carried (carried : Carried s) : NoneLost (drained s wt') := by
  have spec := processWtRescheduleSlotlist_spec kept.tidy ran
  have emptied : wt'.reschdList = [] := by
    refine spec.queue fun e member elem found => ?_
    obtain ⟨request, known⟩ := Option.ne_none_iff_exists'.mp (kept.queued e member).1
    exact (carried e member elem request found known).waiting
  refine ⟨emptied, fun e request known => ?_⟩
  by_cases member : e ∈ s.wt.reschdList
  · obtain ⟨elem, found⟩ := Option.ne_none_iff_exists'.mp (kept.queued e member).2
    have absent : e ∉ wt'.reschdList := by
      rw [emptied]
      exact List.not_mem_nil
    exact (done_iff_holds kept ran member known found absent).mpr (carried e member elem request found known)
  · exact (kept.done e request known member).of_same kept.tidy spec.tidy (if_neg member) (spec.others e member)

theorem carried_of_noneLost (none : NoneLost (drained s wt')) : Carried s := by
  intro e member elem request found known
  have absent : e ∉ wt'.reschdList := by
    have emptied : wt'.reschdList = [] := none.emptied
    rw [emptied]
    exact List.not_mem_nil
  exact (done_iff_holds kept ran member known found absent).mp (none.done e request known)

theorem kept_drained (none : NoneLost (drained s wt')) : Kept (drained s wt') := by
  have spec := processWtRescheduleSlotlist_spec kept.tidy ran
  constructor
  · exact spec.tidy
  · intro e member
    rw [none.emptied] at member
    exact (List.not_mem_nil member).elim
  · intro e present
    by_cases member : e ∈ s.wt.reschdList
    · have alive := kept.unfreed e (kept.queued e member).2
      obtain ⟨elem, found, outcome⟩ := spec.each e member
      cases outcome with
      | planned _ _ _ _ _ _ _ _ freed => exact freed.trans alive
      | deleted _ gone _ _ _ => exact (present gone).elim
      | dropped _ _ _ _ freed => exact freed.trans alive
    · have same := spec.others e member
      exact same.freed.trans (kept.unfreed e (same.elem ▸ present))
  · exact fun e request known _ => none.done e request known

end

theorem step_drain (step : Step s .drain t) : ∃ wt', s.wt.processWtRescheduleSlotlist = some wt' ∧
    t = drained s wt' := by
  obtain ⟨wt', ran, rfl⟩ := Option.map_eq_some_iff.mp step
  exact ⟨wt', ran, rfl⟩

theorem kept_step (kept : Kept s) (step : Step s event t) (carries : DrainsCarried s event) : Kept t := by
  cases event with
  | register e callBack arg argSize interval isRecursive =>
    rw [Step, RequestSteps.step] at step
    split_ifs at step with new
    exact kept_write kept (List.count_eq_zero.mpr new.2.1) (touched_callocElem kept.tidy new.1) step
  | reschedule e interval =>
    rw [Step, RequestSteps.step] at step
    split_ifs at step
    obtain ⟨wt', wrote, rfl⟩ := Option.map_eq_some_iff.mp step
    obtain ⟨found, rfl⟩ := writeRequest_eq wrote
    exact kept_touched kept (kept.unfreed e found) (touched_setElem kept.tidy keepsPlace_request found) rfl rfl
  | deRegister e =>
    obtain ⟨wt', set, wrote⟩ := Option.bind_eq_some_iff.mp step
    obtain ⟨elem, found, set⟩ := Option.bind_eq_some_iff.mp set
    obtain rfl := Option.some.inj set
    have found : s.wt.elems e ≠ none := found ▸ Option.some_ne_none elem
    exact kept_write kept (kept.unfreed e found) (touched_setElem kept.tidy keepsPlace_arg found) wrote
  | enqueue e request =>
    rw [Step, RequestSteps.step] at step
    split_ifs at step
    obtain ⟨wt', ran, rfl⟩ := Option.map_eq_some_iff.mp step
    exact kept_enqueue kept ran
  | advance =>
    obtain rfl := Option.some.inj step
    exact kept_advance kept
  | drain =>
    obtain ⟨wt', ran, rfl⟩ := step_drain step
    exact kept_drained kept ran (noneLost_of_carried kept ran carries)

theorem kept_start {wheelSize clockTicInterval : ℕ} {timerResolution : TimerResolution}
    (slots : 0 < wheelSize) :
    Kept (start wheelSize clockTicInterval timerResolution) := by
  constructor
  · exact ⟨slots, fun member => (List.not_mem_nil member).elim, fun _ => List.nodup_nil, fun _ =>
      .nil, List.nodup_nil⟩
  · exact fun _ member => (List.not_mem_nil member).elim
  · exact fun _ present => (present rfl).elim
  · exact fun _ _ known => by cases known

/-- The requests on one element come one after the other, and no drain comes between the two steps of a
request on an element that is queued. -/
def Separate (s : RequestSteps) : RequestEvent → Prop
  | .register e _ _ _ _ _ | .reschedule e _ | .deRegister e => ∀ request, (e, request) ∉ s.inFlight
  | .drain => ∀ e ∈ s.wt.reschdList, ∀ request, (e, request) ∉ s.inFlight
  | .enqueue _ _ | .advance => True

/-- The element holds exactly this request. -/
def Stores (wt : WheelTimer) (e : WheelTimerElemRef) (request : TimerRequest) : Prop :=
  ∀ elem, wt.elems e = some elem → elem.opcode = request.opcode ∧ elem.newTimeInterval = request.interval

structure Sequential (s : RequestSteps) : Prop where
  kept : Kept s
  nodup : (s.inFlight.map Prod.fst).Nodup
  flying : ∀ e request, (e, request) ∈ s.inFlight → Stores s.wt e request
  queued : ∀ e ∈ s.wt.reschdList, (∀ request, (e, request) ∉ s.inFlight) → ∀ request, s.enqueued e =
    some request → Stores s.wt e request

theorem Stores.holds (stores : Stores wt e request) (found : wt.elems e = some elem) : Holds wt elem request := by
  obtain ⟨opcode, interval⟩ := stores elem found
  refine ⟨?_, ?_, fun _ => by rw [interval]⟩
  · rw [opcode]
    cases request <;> simp [TimerRequest.opcode]
  · rw [opcode]
    cases request <;> simp [TimerRequest.opcode]

theorem Sequential.carried (sequential : Sequential s) (separate : Separate s .drain) : Carried s :=
  fun e member _ request found known => (sequential.queued e member (separate e member) request known).holds found

theorem Stores.of_same (stores : Stores wt e request) (same : SameElem wt wt' e) : Stores wt' e request :=
  fun elem found => stores elem (same.elem.symm.trans found)

theorem sequential_write (sequential : Sequential s) (kept : Kept t)
    (separate : ∀ request, (e, request) ∉ s.inFlight)
    (touched : Touched e s.wt wt) (ran : s.write wt e request = some t) : Sequential t := by
  obtain ⟨wt', wrote, rfl⟩ := Option.map_eq_some_iff.mp ran
  obtain ⟨found, rfl⟩ := writeRequest_eq wrote
  obtain ⟨elem, found⟩ := Option.ne_none_iff_exists'.mp found
  have same (d : WheelTimerElemRef) (other : d ≠ e) :
      SameElem s.wt (written wt e request.interval request.opcode) d :=
    (touched.others d other).trans (sameElem_written other)
  constructor
  · exact kept
  · refine List.nodup_cons.mpr ⟨fun member => ?_, sequential.nodup⟩
    obtain ⟨⟨d, other⟩, flying, rfl⟩ := List.mem_map.mp member
    exact separate other flying
  · intro d asked member
    rcases List.mem_cons.mp member with here | flying
    · obtain ⟨rfl, rfl⟩ := Prod.mk.inj here
      intro elem' found'
      obtain rfl := Option.some.inj ((elems_written found).symm.trans found')
      exact ⟨rfl, rfl⟩
    · have other : d ≠ e := by
        rintro rfl
        exact separate asked flying
      exact (sequential.flying d asked flying).of_same (same d other)
  · intro d member idle asked known
    have other : d ≠ e := by
      rintro rfl
      exact idle request List.mem_cons_self
    exact (sequential.queued d ((same d other).queued.mp member)
      (fun request member => idle request (List.mem_cons_of_mem _ member))
      asked known).of_same (same d other)

theorem sequential_enqueue (sequential : Sequential s) (kept : Kept t) (flying : (e, request) ∈ s.inFlight)
    (ran : s.wt.enqueueRequest e = some wt') (after : t = { s with
      wt := wt', inFlight := s.inFlight.erase (e, request), enqueued :=
    Function.update s.enqueued e (some request) }) : Sequential t := by
  subst after
  obtain ⟨found, rfl⟩ := enqueueRequest_eq ran
  obtain ⟨elem, found⟩ := Option.ne_none_iff_exists'.mp found
  have only {asked : TimerRequest} (member : (e, asked) ∈ s.inFlight) : asked = request :=
    congrArg Prod.snd (List.inj_on_of_nodup_map sequential.nodup member flying rfl)
  have nodup : s.inFlight.Nodup := .of_map _ sequential.nodup
  constructor
  · exact kept
  · exact sequential.nodup.sublist (List.erase_sublist.map Prod.fst)
  · intro d asked member
    obtain ⟨different, flew⟩ := nodup.mem_erase_iff.mp member
    have other : d ≠ e := by
      rintro rfl
      exact different (congrArg (d, ·) (only flew))
    exact (sequential.flying d asked flew).of_same (sameElem_enqueued sequential.kept.tidy other)
  · intro d member idle asked known
    dsimp only at known
    rw [Function.update_apply] at known
    by_cases same : d = e
    · subst same
      rw [if_pos rfl] at known
      obtain rfl := Option.some.inj known
      intro elem' found'
      obtain rfl := Option.some.inj ((elems_enqueued found).symm.trans found')
      exact sequential.flying d request flying elem found
    · rw [if_neg same] at known
      have others := sameElem_enqueued sequential.kept.tidy same
      refine (sequential.queued d (others.queued.mp member) (fun asked member => ?_) asked known).of_same others
      exact idle asked (nodup.mem_erase_iff.mpr ⟨fun equal => same (congrArg Prod.fst equal), member⟩)

theorem sequential_step (sequential : Sequential s) (step : Step s event t) (separate : Separate s event) :
    Sequential t ∧ DrainsCarried s event := by
  have carries : DrainsCarried s event := by
    cases event with
    | drain => exact sequential.carried separate
    | _ => trivial
  refine ⟨?_, carries⟩
  have kept := kept_step sequential.kept step carries
  cases event with
  | register e callBack arg argSize interval isRecursive =>
    rw [Step, RequestSteps.step] at step
    split_ifs at step with new
    exact sequential_write sequential kept separate (touched_callocElem sequential.kept.tidy new.1) step
  | reschedule e interval =>
    rw [Step, RequestSteps.step] at step
    split_ifs at step
    obtain ⟨wt', wrote, _⟩ := Option.map_eq_some_iff.mp step
    have found := (writeRequest_eq wrote).1
    exact sequential_write sequential kept separate ⟨sequential.kept.tidy, fun d _ => .refl s.wt d,
      rfl, rfl, rfl, found⟩ step
  | deRegister e =>
    obtain ⟨wt', set, wrote⟩ := Option.bind_eq_some_iff.mp step
    obtain ⟨elem, found, set⟩ := Option.bind_eq_some_iff.mp set
    obtain rfl := Option.some.inj set
    have found : s.wt.elems e ≠ none := found ▸ Option.some_ne_none elem
    exact sequential_write sequential kept separate
      (touched_setElem sequential.kept.tidy keepsPlace_arg found) wrote
  | enqueue e request =>
    rw [Step, RequestSteps.step] at step
    split_ifs at step with flying
    obtain ⟨wt', ran, after⟩ := Option.map_eq_some_iff.mp step
    exact sequential_enqueue sequential kept flying ran after.symm
  | advance =>
    obtain rfl := Option.some.inj step
    have same : s.wt.advanceClock.elems = s.wt.elems ∧ s.wt.advanceClock.reschdList = s.wt.reschdList := by
      rw [WheelTimer.advanceClock]
      split_ifs
      · exact ⟨rfl, rfl⟩
      · exact ⟨rfl, rfl⟩
    refine ⟨kept, sequential.nodup, fun e request member => ?_, fun e member idle request known => ?_⟩
    · rw [Stores, same.1]
      exact sequential.flying e request member
    · rw [Stores, same.1]
      exact sequential.queued e (same.2 ▸ member) idle request known
  | drain =>
    obtain ⟨wt', ran, rfl⟩ := step_drain step
    have spec := processWtRescheduleSlotlist_spec sequential.kept.tidy ran
    have emptied := (noneLost_of_carried sequential.kept ran carries).emptied
    refine ⟨kept, sequential.nodup, fun e request member => ?_, fun e member => ?_⟩
    · exact (sequential.flying e request member).of_same (spec.others e fun queued =>
        separate e queued request member)
    · rw [emptied] at member
      exact (List.not_mem_nil member).elim

theorem sequential_path {events : List RequestEvent} (sequential : Sequential s)
    (run : Path (Guarded Step Separate) s events t) :
    Sequential t ∧ Path (Guarded Step DrainsCarried) s events t := by
  induction run with
  | nil => exact ⟨sequential, .nil _⟩
  | cons head _ ih =>
    obtain ⟨sequential', carries⟩ := sequential_step sequential head.2 head.1
    obtain ⟨last, rest⟩ := ih sequential'
    exact ⟨last, .cons ⟨carries, head.2⟩ rest⟩

end RequestSteps

open RequestSteps

variable {wheelSize clockTicInterval : ℕ} {timerResolution : TimerResolution}
  {events : List RequestEvent} {s t : RequestSteps}

/-- After a run in which every drain has met the condition, the next one loses nothing exactly if it meets
the condition as well. -/
theorem noneLost_iff (slots : 0 < wheelSize)
    (run : Path (Guarded Step DrainsCarried) (start wheelSize clockTicInterval timerResolution) events s)
    (step : Step s .drain t) : NoneLost t ↔ Carried s := by
  have kept : Kept s := run.invariant (fun guarded kept => kept_step kept guarded.2 guarded.1) (kept_start slots)
  obtain ⟨wt', ran, rfl⟩ := step_drain step
  exact ⟨carried_of_noneLost kept ran, noneLost_of_carried kept ran⟩

/-- Only a request that is between its two steps at a drain, or that has overtaken another one, can be lost. -/
theorem carried_of_separate (slots : 0 < wheelSize)
    (run : Path (Guarded Step Separate) (start wheelSize clockTicInterval timerResolution) events s)
    (separate : Separate s .drain) :
    Path (Guarded Step DrainsCarried) (start wheelSize clockTicInterval timerResolution) events s ∧
    Carried s := by
  have initially : Sequential (start wheelSize clockTicInterval timerResolution) :=
    ⟨kept_start slots, List.nodup_nil, fun _ _ member => (List.not_mem_nil member).elim,
      fun _ member => (List.not_mem_nil member).elim⟩
  obtain ⟨sequential, carries⟩ := sequential_path initially run
  exact ⟨carries, sequential.carried separate⟩

def stepsAfter (events : List RequestEvent) : RequestSteps :=
  replayed RequestSteps.step (fun _ _ => True) (start 2 1 .milliSeconds) events

/-- The element is created, and queued for the drain. -/
def created : List RequestEvent := [.register 7 1 0 0 1 true, .enqueue 7 (.create 1)]

/-- A reschedule is queued behind the first drain. -/
def rescheduled : List RequestEvent := created ++ [.drain, .reschedule 7 2, .enqueue 7 (.resched 2)]

/-- Only one element is queued. -/
theorem carried_single (queue : s.wt.reschdList = [7]) {elem : WheelTimerElem} {request : TimerRequest}
    (found : s.wt.elems 7 = some elem) (known : s.enqueued 7 = some request)
    (holds : RequestSteps.Holds s.wt elem request) : Carried s := by
  intro e member elem' request' found' known'
  rw [queue] at member
  obtain rfl := List.mem_singleton.mp member
  obtain rfl := Option.some.inj (found.symm.trans found')
  obtain rfl := Option.some.inj (known.symm.trans known')
  exact holds

/-- Neither of the two drains loses anything. -/
theorem rescheduled_noneLost : NoneLost (stepsAfter (rescheduled ++ [.drain])) := by
  have first : Carried (stepsAfter created) := carried_single rfl rfl rfl ⟨by decide, by decide, fun _ => rfl⟩
  have second : Carried (stepsAfter rescheduled) :=
    carried_single rfl rfl rfl ⟨by decide, by decide, fun _ => rfl⟩
  have run : Path (Guarded Step DrainsCarried) (start 2 1 .milliSeconds) rescheduled (stepsAfter rescheduled) :=
    .cons ⟨trivial, rfl⟩
      (.cons ⟨trivial, rfl⟩
        (.cons ⟨first, rfl⟩ (.cons ⟨trivial, rfl⟩ (.cons ⟨trivial, rfl⟩ (.nil _)))))
  exact (noneLost_iff (by decide) run rfl).mpr second

/-- A reschedule that is queued, and another one that writes before the drain and queues after it. -/
def overtaken : List RequestEvent :=
  rescheduled ++ [.reschedule 7 3, .drain, .enqueue 7 (.resched 3)]

theorem overtaken_lost : ¬ ∀ wheelSize clockTicInterval timerResolution events s t, 0 < wheelSize →
    Path Step (start wheelSize clockTicInterval timerResolution) events s → Step s .drain t → NoneLost t := by
  intro always
  have run : Path Step (start 2 1 .milliSeconds) overtaken (stepsAfter overtaken) :=
    (replayed_path (by decide +kernel)).mono And.right
  have drain : Guarded Step (fun _ _ => True) (stepsAfter overtaken) .drain _ := replayed_step (by decide +kernel)
  have emptied := (always 2 1 .milliSeconds _ _ _ (by decide) run drain.2).emptied
  exact absurd emptied (by decide)

end TcpServerLib.Soundness
