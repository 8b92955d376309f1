import TcpServerLib.Model.MsgRecord
import TcpServerLib.Model.Run

/-! # The life of a message record

`ProcessMsgQMsg` frees the record where it comes to its end, and not where it returns early. What
its caller does with the record afterwards wants it to be still there.
-/

namespace TcpServerLib.Soundness

open Machine Model Prog

/-- A message is processed, its record is freed once, and before that its waiter has been woken. -/
def HandledOnce (s : TcpServerController) (msg : TcpServerMsg) (connect : ConnectResult) : Prop :=
  ∃ t record, (MsgRecord.processFront connect).Runs ({ s with msgQ := msg :: s.msgQ }, {}) () (t, record) ∧
    record.frees = 1 ∧ record.posts = if msg.zeroSema.isSome then 1 else 0

section

variable {code : List CtrlrAction} {c : ClientRef} {msg : TcpServerMsg} {connect : ConnectResult}
  {pair final : TcpServerController × MsgRecord} {u : Unit}

theorem access_runs (ran : MsgRecord.access.Runs pair u final) : pair.2.frees = 0 ∧ final = pair := by
  simp only [MsgRecord.access, runs_bind, runs_read] at ran
  obtain ⟨_, _, ⟨rfl, rfl⟩, ran⟩ := ran
  split at ran
  · next alive =>
    cases ran
    exact ⟨alive, rfl⟩
  · cases ran

theorem shadows_access {α : Type} {continued : Unit → RecordOp α} {plain : Op α}
    (rest : Shadows (continued ()) plain) :
    Shadows (MsgRecord.access >>= continued) plain :=
  shadows_after (fun ran => congrArg Prod.fst (access_runs ran).2) fun _ => rest

theorem free_runs (ran : MsgRecord.free.Runs pair u final) :
    pair.2.frees = 0 ∧ final = (pair.1, { pair.2 with frees := 1 }) := by
  obtain ⟨_, middle, accessed, updated⟩ := runs_bind.mp ran
  obtain ⟨alive, rfl⟩ := access_runs accessed
  obtain rfl := runs_update.mp updated
  refine ⟨alive, ?_⟩
  rw [Prod.map, alive]
  rfl

theorem shadows_threadedAndSuccess :
    Shadows (MsgRecord.processThreadedAndSuccess code c) (TcpServerController.processThreadedAndSuccess code c) :=
  shadows_access (shadows_before shadows_onFirst fun ran => by rw [(free_runs ran).2])

theorem shadows_toMultiplex :
    Shadows (MsgRecord.processToMultiplex code c) (TcpServerController.processToMultiplex code c) := by
  refine shadows_access (shadows_ite (shadows_bind shadows_onFirst fun client => shadows_when ?_)
    shadows_threadedAndSuccess)
  refine shadows_bind shadows_onFirst fun _ => shadows_bind shadows_onFirst fun _ => ?_
  exact shadows_threadedAndSuccess

theorem shadows_toMultithreaded :
    Shadows (MsgRecord.processToMultithreaded code c) (TcpServerController.processToMultithreaded code c) := by
  refine shadows_access (shadows_ite (shadows_bind shadows_onFirst fun client => shadows_when ?_)
    shadows_toMultiplex)
  refine shadows_bind shadows_onFirst fun _ => shadows_bind shadows_onFirst fun _ => ?_
  exact shadows_toMultiplex

theorem shadows_processMsgQMsg :
    Shadows (MsgRecord.processMsgQMsg msg connect) (TcpServerController.processMsgQMsg msg connect) := by
  refine shadows_access (shadows_ite shadows_onFirst ?_)
  refine shadows_access (shadows_bind shadows_onFirst fun _ => ?_)
  refine shadows_access (shadows_bind shadows_onFirst fun _ => ?_)
  refine shadows_access (shadows_bind shadows_onFirst fun _ => ?_)
  exact shadows_toMultithreaded

theorem postZeroSema_runs (ran : (MsgRecord.postZeroSema msg).Runs pair u final) :
    pair.2.frees = 0 ∧ final.2.frees = 0 ∧ (TcpServerController.postZeroSema msg).Runs pair.1 () final.1 := by
  obtain ⟨_, first, accessed, rest⟩ := runs_bind.mp ran
  obtain ⟨alive, rfl⟩ := access_runs accessed
  obtain ⟨_, ⟨s, record⟩, posted, woken⟩ := runs_bind.mp rest
  obtain ⟨t, woken', rfl⟩ := runs_onFirst.mp woken
  rw [runs_when] at posted
  split at posted
  · obtain ⟨_, second, accessed', counted⟩ := runs_bind.mp posted
    obtain ⟨_, rfl⟩ := access_runs accessed'
    cases runs_update.mp counted
    exact ⟨alive, alive, woken'⟩
  · cases posted
    exact ⟨alive, alive, woken'⟩

/-- What becomes of the server is what the functions without the record make of it. -/
theorem shadows_processFront :
    Shadows (MsgRecord.processFront connect) (TcpServerController.processFront connect) := by
  refine shadows_bind shadows_onFirst fun s => ?_
  cases s.msgQ with
  | nil => exact shadows_pure
  | cons msg rest => exact shadows_bind shadows_processMsgQMsg fun _ => fun ran => (postZeroSema_runs ran).2.2

/-- A run that reads `zero_sema` to its end has not freed the record. -/
theorem frees_processFront {s : TcpServerController} {record : MsgRecord}
    (ran : (MsgRecord.processFront connect).Runs ({ s with msgQ := msg :: s.msgQ }, {}) u (final.1, record)) :
    record.frees = 0 := by
  obtain ⟨_, first, popped, rest⟩ := runs_bind.mp ran
  obtain ⟨_, exchanged, rfl⟩ := runs_onFirst.mp popped
  obtain ⟨rfl, rfl⟩ := runs_exchange.mp exchanged
  obtain ⟨_, middle, _, woken⟩ := runs_bind.mp rest
  exact (postZeroSema_runs woken).2.1

end

/-- No message is handled as it should be: where `ProcessMsgQMsg` frees the record it is read
afterwards, and where it returns early the record is never freed. -/
theorem handledOnce_never (s : TcpServerController) (msg : TcpServerMsg) (connect : ConnectResult) :
    ¬ HandledOnce s msg connect := by
  rintro ⟨t, record, ran, freed, _⟩
  have ran' : (MsgRecord.processFront connect).Runs ({ s with msgQ := msg :: s.msgQ }, {}) ()
      ((t, record).1, record) := ran
  have kept : record.frees = 0 := frees_processFront ran'
  rw [freed] at kept
  cases kept

/-- A peer has been accepted, and its message is processed. -/
theorem acceptedMsg_readAfterFree :
    ¬ ∀ s msg connect, HandledOnce s msg connect := by
  intro always
  have faults : (MsgRecord.processFront none).exec
      ({ TcpServerController.stateAfter (fun _ _ => True) (.started 1 1) [.accept 8 8] with
        msgQ := [⟨[.processNew, .multiplexListen], 0, none⟩] }, {}) = .error .useAfterFree := rfl
  obtain ⟨t, record, ran, _⟩ := always
    { TcpServerController.stateAfter (fun _ _ => True) (.started 1 1) [.accept 8 8] with msgQ := [] }
    ⟨[.processNew, .multiplexListen], 0, none⟩ none
  exact absurd (ran.symm.trans faults) (by simp)

end TcpServerLib.Soundness
