import TcpServerLib.Machine.EnoughSteps
import TcpServerLib.Model.LinkedWheel
import TcpServerLib.Refinement.GlthreadLinks
import TcpServerLib.Refinement.WheelSchedule

/-! # The lists in the links of the wheel

The links of the wheel and of its elements represent the lists of the wheel, and a piece of `wheel_fn` or a
request does to the links what it does to these lists.
-/

namespace TcpServerLib.Refinement

open Machine Model

namespace LinkedWheel

open Model.LinkedWheel

/-- The slots and the list of requests have heads; the glues of the elements are their nodes. -/
def isHead : WheelNode → Prop
  | .slotlist _ | .reschdList => True
  | .glue _ | .rescheduleGlue _ => False

theorem isHead_slotlist (slotNo : ℕ) : isHead (.slotlist slotNo) := trivial

theorem isHead_reschdList : isHead .reschdList := trivial

/-- The lists of the wheel, as lists of nodes. -/
def nodesOf (wt : WheelTimer) : WheelNode → List WheelNode
  | .slotlist slotNo => (wt.slotlist slotNo).map .glue
  | .reschdList => wt.reschdList.map .rescheduleGlue
  | .glue _ | .rescheduleGlue _ => []

/-- The wheel without its lists. -/
def bare (wt : WheelTimer) : WheelTimer := { wt with slotlist := fun _ => [], reschdList := [] }

/-- The linked wheel has everything the wheel has, and the lists in its links. -/
structure Stands (phase : WheelPhase) (w : LinkedWheel) (wt : WheelTimer) : Prop where
  data : w.wt = bare wt
  phase : w.phase = phase
  chains : Links.Represents isHead (nodesOf wt) w.links

variable {phase : WheelPhase} {w w' : LinkedWheel} {wt wt' : WheelTimer} {e : WheelTimerElemRef}

/-- A linked wheel stands for one wheel. -/
theorem stands_unique : Relator.LeftUnique (Stands phase) := by
  intro w w' wt stands stands'
  obtain ⟨data, links, phase⟩ := w
  obtain ⟨data', links', phase'⟩ := w'
  have same : links = links' := stands'.chains.unique stands.chains
  rw [LinkedWheel.mk.injEq]
  exact ⟨stands.data.trans stands'.data.symm, same, stands.phase.trans stands'.phase.symm⟩

theorem glue_injective : Function.Injective WheelNode.glue := fun _ _ => WheelNode.glue.inj

theorem rescheduleGlue_injective : Function.Injective WheelNode.rescheduleGlue :=
  fun _ _ => WheelNode.rescheduleGlue.inj

/-- A node of a list is its head or the glue of one of its elements. -/
theorem mem_nodesOf {node h : WheelNode} (head : isHead h) : node ∈ h :: nodesOf wt h ↔ node = h ∨
    (∃ slotNo e, h = .slotlist slotNo ∧ node = .glue e ∧ e ∈ wt.slotlist slotNo) ∨
      ∃ e, h = .reschdList ∧ node = .rescheduleGlue e ∧ e ∈ wt.reschdList := by
  cases h with
  | slotlist slotNo => simp [nodesOf, eq_comm, and_comm]
  | reschdList => simp [nodesOf, eq_comm, and_comm]
  | glue e => cases head
  | rescheduleGlue e => cases head

/-- The node of an element is in no list. -/
theorem fresh_glue (unlinked : ∀ slotNo, e ∉ wt.slotlist slotNo) (h : WheelNode) (head : isHead h) :
    .glue e ∉ h :: nodesOf wt h := by
  rw [mem_nodesOf head]
  rintro (rfl | ⟨slotNo, e', rfl, same, member⟩ | ⟨_, _, same, _⟩)
  · cases head
  · cases same
    exact unlinked slotNo member
  · cases same

/-- The request glue of an element without a request is in no list. -/
theorem fresh_rescheduleGlue (unqueued : e ∉ wt.reschdList) (h : WheelNode) (head : isHead h) :
    .rescheduleGlue e ∉ h :: nodesOf wt h := by
  rw [mem_nodesOf head]
  rintro (rfl | ⟨_, _, _, same, _⟩ | ⟨e', rfl, same, member⟩)
  · cases head
  · cases same
  · cases same
    exact unqueued member

section

variable (stands : Stands phase w wt)
include stands

/-- No element is linked twice in a slot. -/
theorem Stands.nodup_slotlist (slotNo : ℕ) : (wt.slotlist slotNo).Nodup :=
  (List.nodup_map_iff glue_injective).mp (List.nodup_cons.mp (stands.chains.nodup _ (isHead_slotlist slotNo))).2

theorem Stands.nodup_reschdList : wt.reschdList.Nodup :=
  (List.nodup_map_iff rescheduleGlue_injective).mp
    (List.nodup_cons.mp (stands.chains.nodup _ isHead_reschdList)).2

/-- What leaves the lists alone. -/
theorem Stands.of_data (data : w'.wt = bare wt') (links : w'.links = w.links) (same : w'.phase = w.phase)
    (slots : wt'.slotlist = wt.slotlist) (queue : wt'.reschdList = wt.reschdList) : Stands phase w' wt' := by
  have nodes : nodesOf wt' = nodesOf wt := by
    funext node
    cases node <;> simp [nodesOf, slots, queue]
  exact ⟨data, same.trans stands.phase, by rw [nodes, links]; exact stands.chains⟩

/-- Writing into an element leaves the links. -/
theorem Stands.setElem (f : WheelTimerElem → WheelTimerElem) : Stands phase (w.setElem e f) (wt.setElem e f) :=
  stands.of_data (by rw [Model.LinkedWheel.setElem, stands.data]; rfl) rfl rfl rfl rfl

theorem Stands.freeWheelTimerElement : Stands phase { w with wt := w.wt.freeWheelTimerElement e }
    (wt.freeWheelTimerElement e) :=
  stands.of_data (by rw [stands.data]; rfl) rfl rfl rfl rfl

/-- Unlinking the glue takes the element out of its slot. -/
theorem Stands.removeGlue : Stands phase (w.removeGlue e) (wt.removeGlue e) := by
  refine ⟨by rw [Model.LinkedWheel.removeGlue, stands.data]; rfl, stands.phase, ?_⟩
  have node : ¬ isHead (.glue e) := id
  refine (GlthreadLinks.represents_erase stands.chains node).of_agree fun h head => ?_
  cases h with
  | slotlist slotNo => exact List.map_erase glue_injective (wt.slotlist slotNo)
  | reschdList =>
    refine (List.erase_of_not_mem ?_).symm
    simp [nodesOf]
  | glue e => cases head
  | rescheduleGlue e => cases head

/-- Unlinking the request glue takes it out of the list of requests. -/
theorem Stands.removeRescheduleGlue : Stands phase (w.removeRescheduleGlue e) (wt.removeRescheduleGlue e) := by
  refine ⟨by rw [Model.LinkedWheel.removeRescheduleGlue, stands.data]; rfl, stands.phase, ?_⟩
  have node : ¬ isHead (.rescheduleGlue e) := id
  refine (GlthreadLinks.represents_erase stands.chains node).of_agree fun h head => ?_
  cases h with
  | slotlist slotNo =>
    refine (List.erase_of_not_mem ?_).symm
    simp [nodesOf]
  | reschdList => exact List.map_erase rescheduleGlue_injective wt.reschdList
  | glue e => cases head
  | rescheduleGlue e => cases head

/-- A queued element comes first. -/
theorem Stands.enqueued (new : e ∉ wt.reschdList) : Stands phase
    { w with links := GlthreadLinks.glthreadAddNext w.links .reschdList (.rescheduleGlue e) }
    { wt with reschdList := e :: wt.reschdList } := by
  refine ⟨stands.data, stands.phase, ?_⟩
  have split : WheelNode.reschdList :: nodesOf wt .reschdList = [] ++ .reschdList :: nodesOf wt .reschdList := rfl
  have becomes : WheelNode.reschdList :: (e :: wt.reschdList).map .rescheduleGlue =
      [] ++ .reschdList :: .rescheduleGlue e :: nodesOf wt .reschdList := rfl
  have added := GlthreadLinks.represents_addNext stands.chains isHead_reschdList
      split (fresh_rescheduleGlue new) becomes
  refine added.of_agree fun h head => ?_
  cases h with
  | slotlist slotNo => exact (Function.update_of_ne (by simp) ..).symm
  | reschdList =>
    rw [Function.update_self]
    rfl
  | glue e => cases head
  | rescheduleGlue e => cases head

/-- The nodes of a new element have no links before `init_glthread` either. -/
theorem Stands.callocElem (unlinked : ∀ slotNo, e ∉ wt.slotlist slotNo) (new : e ∉ wt.reschdList)
    (callBack arg argSize : ℕ) (isRecursive : Bool) : Stands phase
      { w with
        wt := w.wt.callocElem e callBack arg argSize isRecursive
        links := Model.GlthreadLinks.initGlthread (Model.GlthreadLinks.initGlthread w.links (.glue e))
          (.rescheduleGlue e) }
      (wt.callocElem e callBack arg argSize isRecursive) := by
  refine stands.of_data (by rw [stands.data]; rfl) ?_ rfl rfl rfl
  rw [GlthreadLinks.initGlthread_fresh stands.chains (fresh_glue unlinked),
    GlthreadLinks.initGlthread_fresh stands.chains (fresh_rescheduleGlue new)]

/-- Linking the glue ends, and puts the element in its slot. -/
theorem Stands.endsLike_insertGlue (slot : ℕ) (unlinked : ∀ slotNo, e ∉ wt.slotlist slotNo) :
    EndsLike (Stands phase) (fun steps => w.insertGlue steps slot e) (some (wt.insertGlue slot e)) := by
  filter_upwards [Filter.eventually_ge_atTop (wt.slotlist slot).length] with steps enough
  have enough : (nodesOf wt (.slotlist slot)).length ≤ steps := (List.length_map _).trans_le enough
  obtain ⟨links', ran, rep⟩ :=
    GlthreadLinks.glthreadPriorityInsert_represents (insertWtElemInSlot w.wt) stands.chains
    (isHead_slotlist slot) (fresh_glue unlinked) enough
  rw [Model.LinkedWheel.insertGlue, ran]
  refine .some ⟨stands.data, stands.phase, rep.of_agree fun h head => ?_⟩
  have same (d : WheelTimerElemRef) : insertWtElemInSlot w.wt (.glue e) (.glue d) =
      wt.insertWtElemInSlot e d := by
    rw [stands.data]
    rfl
  cases h with
  | slotlist slotNo =>
    rw [Function.update_apply]
    split_ifs with here
    · cases here
      refine Eq.trans ?_ (map_glthreadPriorityInsert WheelNode.glue same).symm
      exact congrArg (List.map _) (Function.update_self ..)
    · refine congrArg (List.map _) (Function.update_of_ne ?_ ..)
      rintro rfl
      exact here rfl
  | reschdList => exact (Function.update_of_ne (by simp) ..).symm
  | glue e => cases head
  | rescheduleGlue e => cases head

/-- Placing the element for an absolute slot ends alike. -/
theorem Stands.endsLike_insertAt (next : ℕ) (unlinked : ∀ slotNo, e ∉ wt.slotlist slotNo) :
    EndsLike (Stands phase) (fun steps => w.insertAt steps e next) (some (wt.insertAt e next)) := by
  have size : w.wt.wheelSize = wt.wheelSize := by
    rw [stands.data]
    rfl
  simp only [Model.LinkedWheel.insertAt, size]
  have placed := (stands.setElem (e := e) fun elem => { elem with
    executeCycleNo := next / wt.wheelSize, slotNo := next % wt.wheelSize }).endsLike_insertGlue
    (next % wt.wheelSize) unlinked
  refine placed.bind (k := fun wt' => some (wt'.setElem e fun elem => { elem with
    slotlistHead := some (next % wt.wheelSize), nScheduled := elem.nScheduled + 1 })) stands_unique
    fun _ _ _ stands' => ?_
  exact .some (stands'.setElem _)

theorem Stands.elems : w.wt.elems = wt.elems := by
  rw [stands.data]
  rfl

/-- A request is put in both lists alike. -/
theorem Stands.rel_enqueueRequest : Option.Rel (Stands phase) (w.enqueueRequest e) (wt.enqueueRequest e) := by
  rw [Model.LinkedWheel.enqueueRequest, WheelTimer.enqueueRequest, stands.elems]
  cases wt.elems e with
  | none => exact .none
  | some elem =>
    have unqueued : Stands phase _ _ :=
      (stands.setElem (e := e) fun elem => { elem with slotlistHead := none }).removeRescheduleGlue (e := e)
    exact .some (unqueued.enqueued stands.nodup_reschdList.not_mem_erase)

/-- Reschedulings run alike. -/
theorem Stands.rel_timerReschedule (interval : Int32) (opcode : WtOpcode) :
    Option.Rel (Stands phase) (w._timerReschedule e interval opcode) (wt._timerReschedule e interval opcode) := by
  have written : Option.Rel (Stands phase) ((w.wt.writeRequest e interval opcode).bind fun wt =>
      { w with wt }.enqueueRequest e)
      ((wt.writeRequest e interval opcode).bind (WheelTimer.enqueueRequest · e)) := by
    rw [WheelTimer.writeRequest, WheelTimer.writeRequest, stands.elems]
    cases wt.elems e with
    | none => exact .none
    | some elem =>
      exact (stands.setElem fun elem =>
        { elem with opcode, newTimeInterval := interval }).rel_enqueueRequest
  cases opcode with
  | create | resched | delete => exact written
  | scheduled | unknown => exact .none

theorem Stands.accepts (interval : Int32) : w.wt.Accepts interval ↔ wt.Accepts interval := by
  rw [stands.data]
  rfl

/-- Registrations run alike. -/
theorem Stands.rel_timerRegisterAppEvent (unlinked : ∀ slotNo, e ∉ wt.slotlist slotNo)
    (new : e ∉ wt.reschdList) (callBack arg argSize : ℕ) (interval : Int32) (isRecursive : Bool) :
    Option.Rel (Stands phase) (w.timerRegisterAppEvent e callBack arg argSize interval isRecursive)
      (wt.timerRegisterAppEvent e callBack arg argSize interval isRecursive) := by
  rw [Model.LinkedWheel.timerRegisterAppEvent, WheelTimer.timerRegisterAppEvent]
  simp only [stands.accepts]
  split_ifs
  · exact .some stands
  · exact (stands.callocElem unlinked new callBack arg argSize isRecursive).rel_timerReschedule interval .create
  · exact .none

/-- De-registrations run alike. -/
theorem Stands.rel_timerDeRegisterAppEvent :
    Option.Rel (Stands phase) (w.timerDeRegisterAppEvent e) (wt.timerDeRegisterAppEvent e) := by
  rw [Model.LinkedWheel.timerDeRegisterAppEvent, WheelTimer.timerDeRegisterAppEvent, WheelTimer.wtElemSetAppData,
    WheelTimer.wtElemSetAppData, stands.elems]
  cases wt.elems e with
  | none => exact .none
  | some elem => exact (stands.setElem fun elem => { elem with arg := 0 }).rel_timerReschedule 0 .delete

theorem Stands.rel_timerReschedule_app (interval : Int32) :
    Option.Rel (Stands phase) (w.timerReschedule e interval) (wt.timerReschedule e interval) := by
  rw [Model.LinkedWheel.timerReschedule, WheelTimer.timerReschedule]
  simp only [stands.accepts]
  split_ifs
  · exact stands.rel_timerReschedule interval .resched
  · exact .none

theorem Stands.nextAbsSlotNo (interval : Int32) : w.wt.nextAbsSlotNo interval = wt.nextAbsSlotNo interval := by
  rw [stands.data]
  rfl

theorem Stands.unlinked_removeGlue (slotNo : ℕ) : e ∉ (wt.removeGlue e).slotlist slotNo :=
  (stands.nodup_slotlist slotNo).not_mem_erase

/-- The second removal finds a node without links. -/
theorem Stands.removeGlue_twice : (wt.removeGlue e).removeGlue e = wt.removeGlue e := by
  have slots : ((wt.removeGlue e).removeGlue e).slotlist = (wt.removeGlue e).slotlist :=
    funext fun slotNo => List.erase_of_not_mem (stands.unlinked_removeGlue slotNo)
  exact congrArg (fun slotlist => { wt.removeGlue e with slotlist }) slots

/-- What follows a callback ends alike. -/
theorem Stands.endsLike_afterCallback : EndsLike (Stands phase) (fun steps => w.afterCallback steps e)
    (wt.afterCallback e) := by
  have removed := stands.removeGlue (e := e)
  simp only [Model.LinkedWheel.afterCallback, WheelTimer.afterCallback, stands.elems]
  cases wt.elems e with
  | none => exact .none
  | some elem =>
    simp only [Option.bind_eq_bind, Option.bind_some, stands.nextAbsSlotNo]
    split_ifs
    · cases wt.nextAbsSlotNo elem.timeInterval with
      | none => exact .none
      | some next => exact removed.endsLike_insertAt next stands.unlinked_removeGlue
    · have twice := removed.removeGlue (e := e)
      rw [stands.removeGlue_twice] at twice
      exact .some twice

/-- One turn of the drain ends alike. -/
theorem Stands.endsLike_processElem : EndsLike (Stands phase) (fun steps => w.processElem steps e)
    (wt.processElem e) := by
  have unslotted := (stands.removeGlue (e := e)).setElem (e := e) fun elem => { elem with slotlistHead := none }
  simp only [Model.LinkedWheel.processElem, WheelTimer.processElem, stands.elems]
  cases wt.elems e with
  | none => exact .none
  | some elem =>
    simp only [Option.bind_eq_bind, Option.bind_some]
    cases elem.opcode with
    | create | resched =>
      dsimp only
      split_ifs
      · exact .none
      · rw [unslotted.nextAbsSlotNo]
        cases WheelTimer.nextAbsSlotNo _ elem.newTimeInterval with
        | none => exact .none
        | some next =>
          have placed := (unslotted.setElem (e := e) fun elem => { elem with
            timeInterval := elem.newTimeInterval }).endsLike_insertAt next stands.unlinked_removeGlue
          refine placed.bind (k := fun wt' => some ((wt'.removeRescheduleGlue e).setElem e fun elem => { elem with
            opcode := .scheduled })) stands_unique fun _ _ _ stands' => ?_
          exact .some (stands'.removeRescheduleGlue.setElem _)
    | delete => exact .some unslotted.removeRescheduleGlue.freeWheelTimerElement
    | scheduled => exact .some unslotted
    | unknown => exact .none

end

theorem reschdList_processElem (ran : wt.processElem e = some wt') :
    wt'.reschdList = wt.reschdList.erase e ∨ wt'.reschdList = wt.reschdList := by
  obtain ⟨elem, found, _⟩ := Option.bind_eq_some_iff.mp ran
  rw [WheelTimer.processElem_eq found] at ran
  have replanned {next : Option ℕ} (ran : next.map (WheelTimer.replan (WheelTimer.unslot wt e) e) = some wt') :
      wt'.reschdList = wt.reschdList.erase e := by
    obtain ⟨_, _, rfl⟩ := Option.map_eq_some_iff.mp ran
    exact WheelTimer.reschdList_replan
  split at ran
  case h_1 =>
    split_ifs at ran
    exact .inl (replanned ran)
  case h_2 =>
    split_ifs at ran
    exact .inl (replanned ran)
  case h_3 =>
    obtain rfl := Option.some.inj ran
    exact .inl WheelTimer.reschdList_discard
  case h_4 =>
    obtain rfl := Option.some.inj ran
    exact .inr rfl
  case h_5 => cases ran

def nextNode (s : Option (LinkedWheel × List WheelTimerElemRef)) (curr : WheelNode) : Option WheelNode :=
  s.bind fun s => s.1.links.right curr

def processNode (steps : ℕ) (s : Option (LinkedWheel × List WheelTimerElemRef)) (curr : WheelNode) :
    Option (LinkedWheel × List WheelTimerElemRef) := do
  let (w, processed) ← s
  let e ← glthreadRescheduleGlueToWtElem curr
  some (← w.processElem steps e, processed ++ [e])

/-- A drain that failed stays failed. -/
theorem iterate_failed (steps m : ℕ) (curr : Option WheelNode) :
    (Model.GlthreadLinks.iterateGlthread nextNode (processNode steps) m curr none).join = none := by
  cases m with
  | zero => cases curr <;> rfl
  | succ m =>
    cases curr with
    | none => rfl
    | some node => cases m <;> rfl

/-- The loop, when some elements have stayed in the list and the rest is to come. -/
theorem Stands.endsLike_iterate {kept rest : List WheelTimerElemRef} (processed : List WheelTimerElemRef)
    (stands : Stands phase w wt)
    (split : wt.reschdList = kept ++ rest) : ∀ᶠ steps in Filter.atTop, ∀ m, rest.length ≤ m →
      Option.Rel (fun result wt' => Stands phase result.1 wt' ∧ result.2 = processed ++ rest)
        (Model.GlthreadLinks.iterateGlthread nextNode (processNode steps) m (rest.head?.map .rescheduleGlue)
          (some (w, processed))).join
        (rest.foldlM WheelTimer.processElem wt) := by
  induction rest generalizing w wt kept processed with
  | nil =>
    refine Filter.Eventually.of_forall fun steps m _ => ?_
    have ended : Model.GlthreadLinks.iterateGlthread nextNode (processNode steps) m none (some (w, processed)) =
        some (some (w, processed)) := by
      cases m <;> rfl
    rw [List.head?_nil, Option.map_none, ended]
    exact .some ⟨stands, (List.append_nil processed).symm⟩
  | cons e rest ih =>
    have next : w.links.right (.rescheduleGlue e) = rest.head?.map .rescheduleGlue := by
      have place : WheelNode.reschdList :: nodesOf wt .reschdList =
          (.reschdList :: kept.map .rescheduleGlue) ++ .rescheduleGlue e :: rest.map .rescheduleGlue := by
        simp [nodesOf, split]
      rw [GlthreadLinks.right_of_split stands.chains isHead_reschdList place, List.head?_map]
    have like := stands.endsLike_processElem (e := e)
    have turn (steps : ℕ) {m : ℕ} (enough : (e :: rest).length ≤ m) : ∃ m', rest.length ≤ m' ∧
        Model.GlthreadLinks.iterateGlthread nextNode (processNode steps) m (some (.rescheduleGlue e))
        (some (w, processed)) =
          Model.GlthreadLinks.iterateGlthread nextNode (processNode steps) m' (rest.head?.map .rescheduleGlue)
            (processNode steps (some (w, processed)) (.rescheduleGlue e)) := by
      obtain ⟨m, rfl⟩ := Nat.exists_eq_add_of_le' (Nat.zero_lt_of_lt enough)
      refine ⟨m, Nat.le_of_succ_le_succ enough, ?_⟩
      rw [← next]
      rfl
    rw [List.foldlM_cons, List.head?_cons, Option.map_some]
    cases ran : wt.processElem e with
    | none =>
      rw [ran] at like
      filter_upwards [like.eventually_none] with steps fails m enough
      obtain ⟨m', _, same⟩ := turn steps enough
      have failed : processNode steps (some (w, processed)) (.rescheduleGlue e) = none := by
        simp [processNode, glthreadRescheduleGlueToWtElem, fails]
      rw [same, failed, iterate_failed]
      exact .none
    | some wt' =>
      rw [ran] at like
      obtain ⟨w', stands', ends⟩ := like.exists_some stands_unique
      have split' : ∃ kept', wt'.reschdList = kept' ++ rest := by
        rcases reschdList_processElem ran with queue | queue
        · have nodup := stands.nodup_reschdList
          rw [split] at nodup
          have absent : e ∉ kept :=
            fun early => (List.nodup_append.mp nodup).2.2 e early e List.mem_cons_self rfl
          exact ⟨kept, by rw [queue, split, List.erase_append_right _ absent, List.erase_cons_head]⟩
        · exact ⟨kept ++ [e], by rw [queue, split, List.append_cons]⟩
      obtain ⟨kept', split'⟩ := split'
      filter_upwards [ends, ih (processed ++ [e]) stands' split'] with steps ran' later m enough
      obtain ⟨m', enough', same⟩ := turn steps enough
      have done : processNode steps (some (w, processed)) (.rescheduleGlue e) = some (w', processed ++ [e]) := by
        simp [processNode, glthreadRescheduleGlueToWtElem, ran']
      rw [same, done, List.append_cons]
      exact later m' enough'

/-- The whole drain ends alike, over the elements that were queued. -/
theorem Stands.endsLike_processWtRescheduleSlotlist (stands : Stands phase w wt) :
    EndsLike (fun result wt' => Stands phase result.1 wt' ∧ result.2 = wt.reschdList)
      (fun steps => w.processWtRescheduleSlotlist steps) wt.processWtRescheduleSlotlist := by
  have first : w.links.right .reschdList = wt.reschdList.head?.map .rescheduleGlue := by
    rw [GlthreadLinks.right_of_head stands.chains isHead_reschdList]
    exact List.head?_map
  filter_upwards [stands.endsLike_iterate [] (List.nil_append wt.reschdList).symm,
    Filter.eventually_ge_atTop wt.reschdList.length] with steps walked enough
  have all := walked steps enough
  rw [← first] at all
  exact all

/-- The linked wheel stands for the wheel of the thread, in its phase. -/
def Shows (w : LinkedWheel) (s : WheelThread) : Prop := Stands s.phase w s.wt

/-- What is in a list has been allocated, and the loop over a slot comes to elements of this slot. -/
structure Placed (s : WheelThread) : Prop where
  allocated : ∀ e, s.wt.elems e = none → (∀ slotNo, e ∉ s.wt.slotlist slotNo) ∧ e ∉ s.wt.reschdList
  walked : ∀ e, s.phase = .walking (some e) → e ∈ s.wt.slotlist s.wt.currentClockTic

theorem shows_unique : Relator.LeftUnique Shows := fun _ _ _ shows shows' => stands_unique shows shows'

/-- It does from the start. -/
theorem shows_start (wheelSize clockTicInterval : ℕ) (timerResolution : TimerResolution) :
    Shows (start wheelSize clockTicInterval timerResolution)
    (WheelThread.start wheelSize clockTicInterval timerResolution) := by
  have empty (h : WheelNode) :
      nodesOf (WheelThread.start wheelSize clockTicInterval timerResolution).wt h = [] := by
    cases h <;> rfl
  refine ⟨rfl, rfl, ?_⟩
  constructor
  · constructor
    · intro h _
      rw [empty]
      exact List.nodup_singleton h
    · intro h k x _ _ inH inK
      rw [empty] at inH inK
      exact (List.mem_singleton.mp inH).symm.trans (List.mem_singleton.mp inK)
  · intro h _
    rw [empty]
    exact ⟨fun _ _ => rfl, .singleton h, fun _ _ => rfl⟩
  · exact fun _ _ => ⟨rfl, rfl⟩

section

variable {s : WheelThread}

/-- A request leaves the phase as it is. -/
theorem endsLike_after {result : Option LinkedWheel} {o : Option WheelTimer}
    (rel : Option.Rel (Stands s.phase) result o) :
    EndsLike Shows (fun _ => result) (WheelThread.after o s.phase) := by
  cases rel with
  | some stands => exact .some stands
  | none => exact .none

theorem bare_advanceClock : (bare wt).advanceClock = bare wt.advanceClock := by
  rw [WheelTimer.advanceClock, WheelTimer.advanceClock]
  change (if wt.currentClockTic + 1 = wt.wheelSize then _ else _) = _
  split_ifs <;> rfl

theorem head_glue (list : List WheelTimerElemRef) :
    (list.map WheelNode.glue).head?.bind glthreadToWtElem = list.head? := by
  cases list <;> rfl

variable (shows : Shows w s) (placed : Placed s)
include shows

theorem endsLike_deRegister : EndsLike Shows (fun steps => w.step steps (.deRegister e))
    (s.step (.deRegister e)) := by
  have stands : Stands s.phase w s.wt := shows
  have cancelled := endsLike_after (stands.rel_timerDeRegisterAppEvent (e := e))
  obtain ⟨wt, phase⟩ := s
  simp only [Model.LinkedWheel.step, WheelThread.step, stands.phase]
  cases phase with
  | invoking f next =>
    dsimp only
    split_ifs
    · exact .none
    · exact cancelled
  | idle | walking | processing => exact cancelled

/-- A tick of both. -/
theorem endsLike_tick : EndsLike Shows (fun steps => w.step steps .tick) (s.step .tick) := by
  obtain ⟨wt, phase⟩ := s
  have stands : Stands phase w wt := shows
  simp only [Model.LinkedWheel.step, WheelThread.step, stands.phase]
  cases phase with
  | idle =>
    have moved : w.wt.advanceClock = bare wt.advanceClock := by
      rw [stands.data, bare_advanceClock]
    have slots : wt.advanceClock.slotlist = wt.slotlist ∧ wt.advanceClock.reschdList = wt.reschdList := by
      rw [WheelTimer.advanceClock]
      split_ifs <;> exact ⟨rfl, rfl⟩
    have first (slotNo : ℕ) : (w.links.right (.slotlist slotNo)).bind glthreadToWtElem =
        (wt.slotlist slotNo).head? := by
      rw [GlthreadLinks.right_of_head stands.chains (isHead_slotlist slotNo)]
      exact head_glue (wt.slotlist slotNo)
    have now : (bare wt.advanceClock).currentAbsSlotNo = wt.advanceClock.currentAbsSlotNo := rfl
    have tic : (bare wt.advanceClock).currentClockTic = wt.advanceClock.currentClockTic := rfl
    simp only [moved, first, now, tic, slots.1]
    split_ifs
    · refine .some (show Stands _ _ _ from ⟨rfl, rfl, ?_⟩)
      have same : Stands .idle { w with wt := bare wt.advanceClock, phase := .idle } wt.advanceClock :=
        stands.of_data rfl rfl stands.phase.symm slots.1 slots.2
      exact same.chains
    · exact .none
  | walking | invoking | processing => exact .none

include placed in
/-- A callback invoked by both. -/
theorem endsLike_invoke (n : ℕ) : EndsLike Shows (fun steps => w.step steps (.invoke e n))
    (s.step (.invoke e n)) := by
  obtain ⟨wt, phase⟩ := s
  have stands : Stands phase w wt := shows
  simp only [Model.LinkedWheel.step, WheelThread.step, stands.phase]
  cases phase with
  | walking curr =>
    cases curr with
    | none => exact .none
    | some curr =>
      obtain ⟨before, behind, split⟩ := List.append_of_mem (placed.walked curr rfl)
      dsimp only at split
      have nodup := stands.nodup_slotlist wt.currentClockTic
      rw [split] at nodup
      have absent : curr ∉ before :=
        fun early => (List.nodup_append.mp nodup).2.2 curr early curr List.mem_cons_self rfl
      have next : (w.links.right (.glue curr)).bind glthreadToWtElem =
          glthreadRight curr (wt.slotlist wt.currentClockTic) := by
        have place : WheelNode.slotlist wt.currentClockTic :: nodesOf wt (.slotlist wt.currentClockTic) =
            (.slotlist wt.currentClockTic :: before.map .glue) ++ .glue curr :: behind.map .glue := by
          simp [nodesOf, split]
        rw [GlthreadLinks.right_of_split stands.chains (isHead_slotlist _) place, head_glue, split,
          glthreadRight_append absent]
      have turn : (curr = e ∧ n = w.wt.currentAbsSlotNo ∧ w.wt.currentCycleNo = w.wt.executeCycleNo e) ↔
          (curr = e ∧ n = wt.currentAbsSlotNo ∧ wt.currentCycleNo = wt.executeCycleNo e) := by
        rw [stands.data]
        rfl
      simp only [turn]
      split_ifs with here
      · obtain ⟨rfl, _⟩ := here
        rw [next]
        exact .some (show Stands _ _ _ from ⟨stands.data, rfl, stands.chains⟩)
      · exact .none
  | idle | invoking | processing => exact .none

/-- A callback returned to both. -/
theorem endsLike_returned : EndsLike Shows (fun steps => w.step steps .returned) (s.step .returned) := by
  obtain ⟨wt, phase⟩ := s
  have stands : Stands phase w wt := shows
  simp only [Model.LinkedWheel.step, WheelThread.step, stands.phase]
  cases phase with
  | invoking e next =>
    exact stands.endsLike_afterCallback.map fun w wt stands =>
      show Stands _ _ _ from ⟨stands.data, rfl, stands.chains⟩
  | idle | walking | processing => exact .none

theorem endsLike_stop : EndsLike Shows (fun steps => w.step steps .stop) (s.step .stop) := by
  obtain ⟨wt, phase⟩ := s
  have stands : Stands phase w wt := shows
  have stopped : EndsLike Shows (fun _ => some { w with phase := .processing })
      (some { wt, phase := .processing }) :=
    .some (show Stands _ _ _ from ⟨stands.data, rfl, stands.chains⟩)
  simp only [Model.LinkedWheel.step, WheelThread.step, stands.phase]
  cases phase with
  | walking curr =>
    cases curr with
    | none => exact stopped
    | some curr =>
      have turn : w.wt.currentCycleNo = w.wt.executeCycleNo curr ↔
          wt.currentCycleNo = wt.executeCycleNo curr := by
        rw [stands.data]
        rfl
      simp only [turn]
      split_ifs
      · exact .none
      · exact stopped
  | idle | invoking | processing => exact .none

/-- A drain of both. -/
theorem endsLike_process (queued : List WheelTimerElemRef) :
    EndsLike Shows (fun steps => w.step steps (.process queued)) (s.step (.process queued)) := by
  obtain ⟨wt, phase⟩ := s
  have stands : Stands phase w wt := shows
  simp only [Model.LinkedWheel.step, WheelThread.step, stands.phase]
  cases phase with
  | processing =>
    dsimp only
    refine stands.endsLike_processWtRescheduleSlotlist.mono fun steps rel => ?_
    have rel : Option.Rel _ (w.processWtRescheduleSlotlist steps) wt.processWtRescheduleSlotlist := rel
    dsimp only
    generalize w.processWtRescheduleSlotlist steps = result at rel ⊢
    generalize wt.processWtRescheduleSlotlist = drained at rel ⊢
    cases rel with
    | none =>
      split_ifs <;> exact .none
    | some both =>
      obtain ⟨stands', processed⟩ := both
      simp only [Option.bind_eq_bind, Option.bind_some, processed]
      split_ifs
      · exact .some (show Stands _ _ _ from ⟨stands'.data, rfl, stands'.chains⟩)
      · exact .none
  | idle | walking | invoking => exact .none

include placed in
/-- Given enough steps, a step on the links does what a step on the lists does. -/
theorem endsLike_step (event : WheelEvent) : EndsLike Shows (fun steps => w.step steps event) (s.step event) := by
  have stands : Stands s.phase w s.wt := shows
  cases event with
  | register e callBack arg argSize interval isRecursive =>
    have fresh : (w.wt.elems e = none ∧ e ∉ w.wt.freed) ↔ (s.wt.elems e = none ∧ e ∉ s.wt.freed) := by
      rw [stands.data]
      rfl
    simp only [Model.LinkedWheel.step, WheelThread.step, fresh]
    split_ifs with new
    · obtain ⟨unlinked, unqueued⟩ := placed.allocated e new.1
      exact endsLike_after (stands.rel_timerRegisterAppEvent unlinked unqueued callBack arg argSize
        interval isRecursive)
    · exact .none
  | reschedule e interval => exact endsLike_after (stands.rel_timerReschedule_app interval)
  | deRegister e => exact endsLike_deRegister shows
  | tick => exact endsLike_tick shows
  | invoke e n => exact endsLike_invoke shows placed n
  | returned => exact endsLike_returned shows
  | stop => exact endsLike_stop shows
  | process queued => exact endsLike_process shows queued

end

/-- The absolute slot numbers that the wheel thread computes stay below `2 ^ 31`. -/
def SlotNosFit (w : LinkedWheel) (event : WheelEvent) : Prop :=
  WheelThread.SlotNosFit { wt := w.wt, phase := w.phase } event

section

variable {s t : WheelThread} {event : WheelEvent}

theorem placed_of_timely (timely : WheelThread.Timely s) : Placed s := by
  constructor
  · refine fun e absent => ⟨WheelTimer.unlinked_of_elems timely.tidy absent, fun member => ?_⟩
    obtain ⟨elem, found, _⟩ := timely.queued e member
    cases absent.symm.trans found
  · intro e phase
    have loop := timely.loop
    rw [WheelThread.Loop, phase] at loop
    obtain ⟨passed, rest, slot, head, _⟩ := loop
    rw [slot]
    exact List.mem_append_right passed (List.mem_of_mem_head? head.symm)

theorem slotNosFit_iff (shows : Shows w s) : SlotNosFit w event ↔ WheelThread.SlotNosFit s event := by
  obtain ⟨wt, phase⟩ := s
  rw [SlotNosFit, shows.data, shows.phase]
  cases event <;> rfl

/-- Every step of the linked wheel is one of the wheel. -/
theorem step_shows (step : Guarded Step SlotNosFit w event w') (shows : Shows w s) (placed : Placed s) :
    ∃ t, Guarded WheelThread.Step WheelThread.SlotNosFit s event t ∧ Shows w' t := by
  obtain ⟨t, ran, shows'⟩ := (endsLike_step shows placed event).of_eventually step.2
  exact ⟨t, ⟨(slotNosFit_iff shows).mp step.1, ran⟩, shows'⟩

/-- Every step of the wheel is one of the linked wheel. -/
theorem exists_step (step : Guarded WheelThread.Step WheelThread.SlotNosFit s event t)
    (shows : Shows w s) (placed : Placed s) :
    ∃ w', Guarded Step SlotNosFit w event w' ∧ Shows w' t := by
  have like := endsLike_step shows placed event
  rw [show s.step event = some t from step.2] at like
  obtain ⟨w', shows', ends⟩ := like.exists_some shows_unique
  exact ⟨w', ⟨(slotNosFit_iff shows).mpr step.1, ends⟩, shows'⟩

end

end LinkedWheel

end TcpServerLib.Refinement
