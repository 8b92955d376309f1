import Mathlib.Tactic.Common
import TcpServerLib.Model.Administration

/-! # The life of the service threads

The pointers to the service threads do not tell whether the threads exist. They agree with what
they point to once the server has been started, and no operation cancels the message queue thread.
-/

namespace TcpServerLib.Soundness

open Machine Model Prog

/-- The threads of the services. -/
def serviceThreads : List ThreadId :=
  [.acceptor, .svcMgr, .msgQ]

/-- From here on, no assertion fails, every thread that is cancelled and joined is there, none is
created that is there, and no service thread is left behind by `Stop`. -/
def LivesOn (s : TcpServerController) (alive : ThreadId → Bool) (ops : List AdminOp) : Prop :=
  (administer ops).exec s ≠ .error .assertion ∧
    ∃ left, follow Sync.threadAct alive ((administer ops).actions s) = some left ∧
      ∀ t, (administer ops).Runs s () t → t.deleted = true → ∀ thread ∈ serviceThreads,
      left thread = false

/-- The life of the service threads of a server under a sequence of commands. -/
def WellLived (ipAddr : UInt32) (portNo : UInt16) (ops : List AdminOp) : Prop :=
  LivesOn (.created ipAddr portNo) (fun _ => false) ops

/-- Before the one `Start` only what does nothing, and no `Stop` after it. -/
def Orderly : List AdminOp → Prop
  | [] => True
  | .startConnectionsAcceptorSvc :: ops => Orderly ops
  | .startClientSvcMgr :: ops => Orderly ops
  | .start :: ops => ∀ op ∈ ops, op ≠ .start ∧ op ≠ .stop
  | _ :: _ => False

section

variable {s t : TcpServerController} {alive left : ThreadId → Bool} {op : AdminOp} {ops : List AdminOp}

theorem exec_administer (there : s.deleted = false) (ran : op.op.exec s = .ok ((), t)) :
    (administer (op :: ops)).exec s = (administer ops).exec t := by
  have first : (when (¬ s.deleted) op.op).exec s = .ok ((), t) := by
    rw [when, if_pos (by rw [there]; exact Bool.false_ne_true)]
    exact ran
  change (when (¬ s.deleted) op.op >>= fun _ => administer ops).exec s = _
  rw [exec_bind, first]
  rfl

theorem actions_administer (there : s.deleted = false) (ran : op.op.exec s = .ok ((), t)) :
    (administer (op :: ops)).actions s = op.op.actions s ++ (administer ops).actions t := by
  have first : when (¬ s.deleted) op.op = op.op := by
    rw [when, if_pos (by rw [there]; exact Bool.false_ne_true)]
  change (when (¬ s.deleted) op.op >>= fun _ => administer ops).actions s = _
  rw [first, actions_bind, ran]

/-- A server that has been stopped is left alone. -/
theorem administer_stopped (gone : s.deleted = true) :
    (administer ops).exec s = .ok ((), s) ∧ (administer ops).actions s = [] := by
  induction ops with
  | nil => exact ⟨rfl, rfl⟩
  | cons op ops ih =>
    have skipped : when (¬ s.deleted) op.op = pure () := by
      rw [when, if_neg (not_not_intro gone)]
      rfl
    have start : (administer (op :: ops)).exec s =
        (when (¬ s.deleted) op.op >>= fun _ => administer ops).exec s ∧
        (administer (op :: ops)).actions s = (when (¬ s.deleted) op.op >>= fun _ => administer ops).actions s :=
      ⟨rfl, rfl⟩
    rw [start.1, start.2, skipped]
    exact ih

/-- One command that keeps to the rules. -/
theorem livesOn_cons (there : s.deleted = false) (ran : op.op.exec s = .ok ((), t))
    (followed : follow Sync.threadAct alive (op.op.actions s) = some left) :
    LivesOn s alive (op :: ops) ↔ LivesOn t left ops := by
  rw [LivesOn, LivesOn, actions_administer there ran, follow_append, followed]
  simp only [Runs, exec_administer there ran]
  rfl

/-- A command that joins a thread that is not there, or creates one that is. -/
theorem not_livesOn_cons (there : s.deleted = false) (ran : op.op.exec s = .ok ((), t))
    (broken : follow Sync.threadAct alive (op.op.actions s) = none) : ¬ LivesOn s alive (op :: ops) := by
  rintro ⟨_, _, followed, _⟩
  rw [actions_administer there ran, follow_append, broken] at followed
  cases followed

/-- A command that stops the server while one of its threads is left. -/
theorem not_livesOn_stop (thread : ThreadId) (there : s.deleted = false) (ran : op.op.exec s = .ok ((), t))
    (gone : t.deleted = true) (followed : follow Sync.threadAct alive (op.op.actions s) = some left)
    (service : thread ∈ serviceThreads) (still : left thread = true) : ¬ LivesOn s alive (op :: ops) := by
  rw [livesOn_cons there ran followed]
  rintro ⟨_, ended, followed, dead⟩
  rw [(administer_stopped gone).2] at followed
  cases followed
  rw [dead t (administer_stopped gone).1 gone thread service] at still
  cases still

theorem not_livesOn_assertion (there : s.deleted = false) (failed : op.op.exec s = .error .assertion) :
    ¬ LivesOn s alive (op :: ops) := by
  rintro ⟨holds, _⟩
  refine holds ?_
  change (when (¬ s.deleted) op.op >>= fun _ => administer ops).exec s = _
  rw [when, if_pos (by rw [there]; exact Bool.false_ne_true), exec_bind, failed]
  rfl

end

variable {ipAddr : UInt32} {portNo : UInt16}

/-- The server after `Start`, with and without its services. -/
def up (ipAddr : UInt32) (portNo : UInt16) (acceptor svcMgr : Bool) : TcpServerController where
  ipAddr
  portNo
  tcpNewConnAcc := acceptor
  notAcceptingNewConnections := !acceptor
  tcpClientSvcMgr := if svcMgr then some { thread := true } else none
  notListeningClients := !svcMgr

def upThreads (acceptor svcMgr : Bool) : ThreadId → Bool
  | .acceptor => acceptor
  | .svcMgr => svcMgr
  | .msgQ => true
  | _ => false

def UpLivesOn (ipAddr : UInt32) (portNo : UInt16) (acceptor svcMgr : Bool) (ops : List AdminOp) : Prop :=
  LivesOn (up ipAddr portNo acceptor svcMgr) (upThreads acceptor svcMgr) ops

theorem update_acceptor (acceptor svcMgr now : Bool) :
    Function.update (upThreads acceptor svcMgr) .acceptor now = upThreads now svcMgr := by
  funext thread
  cases thread <;> rfl

theorem update_svcMgr (acceptor svcMgr now : Bool) :
    Function.update (upThreads acceptor svcMgr) .svcMgr now = upThreads acceptor now := by
  funext thread
  cases thread <;> rfl

theorem threads_start :
    Function.update (Function.update (Function.update (fun _ => false) .acceptor true) .svcMgr true) .msgQ true =
      upThreads true true := by
  funext thread
  cases thread <;> rfl

/-- A started server lives on as long as it is neither started again nor stopped. -/
theorem livesOn_up {acceptor svcMgr : Bool} {ops : List AdminOp} :
    UpLivesOn ipAddr portNo acceptor svcMgr ops ↔
      ∀ op ∈ ops, op ≠ .start ∧ op ≠ .stop := by
  induction ops generalizing acceptor svcMgr with
  | nil =>
    refine iff_of_true ⟨nofun, upThreads acceptor svcMgr, rfl, ?_⟩ nofun
    intro t ran gone
    cases ran
    cases gone
  | cons op ops ih =>
    rw [List.forall_mem_cons]
    cases op with
    | start =>
      refine iff_of_false ?_ fun orderly => orderly.1.1 rfl
      cases acceptor with
      | false => exact not_livesOn_assertion rfl rfl
      | true =>
        cases svcMgr with
        | false => exact not_livesOn_assertion rfl rfl
        | true => exact not_livesOn_cons rfl rfl rfl
    | stop =>
      refine iff_of_false ?_ fun orderly => orderly.1.2 rfl
      cases acceptor <;> cases svcMgr <;>
        exact not_livesOn_stop .msgQ rfl rfl rfl rfl (by decide) rfl
    | stopConnectionsAcceptorSvc =>
      cases acceptor with
      | false => exact (livesOn_cons rfl rfl rfl).trans (ih.trans (and_iff_right ⟨by simp, by simp⟩).symm)
      | true =>
        have lives : UpLivesOn ipAddr portNo true svcMgr (.stopConnectionsAcceptorSvc :: ops) ↔
            UpLivesOn ipAddr portNo false svcMgr ops :=
          livesOn_cons rfl rfl (congrArg some (update_acceptor true svcMgr false))
        exact lives.trans (ih.trans (and_iff_right ⟨by simp, by simp⟩).symm)
    | startConnectionsAcceptorSvc =>
      cases acceptor with
      | false =>
        have lives : UpLivesOn ipAddr portNo false svcMgr (.startConnectionsAcceptorSvc :: ops) ↔
            UpLivesOn ipAddr portNo true svcMgr ops :=
          livesOn_cons rfl rfl (congrArg some (update_acceptor false svcMgr true))
        exact lives.trans (ih.trans (and_iff_right ⟨by simp, by simp⟩).symm)
      | true => exact (livesOn_cons rfl rfl rfl).trans (ih.trans (and_iff_right ⟨by simp, by simp⟩).symm)
    | stopClientSvcMgr =>
      cases svcMgr with
      | false => exact (livesOn_cons rfl rfl rfl).trans (ih.trans (and_iff_right ⟨by simp, by simp⟩).symm)
      | true =>
        have lives : UpLivesOn ipAddr portNo acceptor true (.stopClientSvcMgr :: ops) ↔
            UpLivesOn ipAddr portNo acceptor false ops :=
          livesOn_cons rfl rfl (congrArg some (update_svcMgr acceptor true false))
        exact lives.trans (ih.trans (and_iff_right ⟨by simp, by simp⟩).symm)
    | startClientSvcMgr =>
      cases svcMgr with
      | false =>
        have lives : UpLivesOn ipAddr portNo acceptor false (.startClientSvcMgr :: ops) ↔
            UpLivesOn ipAddr portNo acceptor true ops :=
          livesOn_cons rfl rfl (congrArg some (update_svcMgr acceptor false true))
        exact lives.trans (ih.trans (and_iff_right ⟨by simp, by simp⟩).symm)
      | true => exact (livesOn_cons rfl rfl rfl).trans (ih.trans (and_iff_right ⟨by simp, by simp⟩).symm)

/-- The threads live as they should exactly under orderly commands. -/
theorem wellLived_iff {ops : List AdminOp} : WellLived ipAddr portNo ops ↔ Orderly ops := by
  induction ops with
  | nil =>
    refine iff_of_true ⟨nofun, fun _ => false, rfl, ?_⟩ trivial
    intro t ran gone
    cases ran
    cases gone
  | cons op ops ih =>
    cases op with
    | start =>
      have lives : WellLived ipAddr portNo (.start :: ops) ↔
            UpLivesOn ipAddr portNo true true ops :=
        livesOn_cons rfl rfl (congrArg some threads_start)
      exact lives.trans livesOn_up
    | stop => exact iff_of_false (not_livesOn_cons rfl rfl rfl) id
    | stopConnectionsAcceptorSvc => exact iff_of_false (not_livesOn_cons rfl rfl rfl) id
    | stopClientSvcMgr => exact iff_of_false (not_livesOn_cons rfl rfl rfl) id
    | startConnectionsAcceptorSvc => exact (livesOn_cons rfl rfl rfl).trans ih
    | startClientSvcMgr => exact (livesOn_cons rfl rfl rfl).trans ih

/-- A server that is started and then stopped leaves its message queue thread behind. -/
theorem wellLived_abort : ¬ ∀ ops, WellLived 1 1 ops := by
  intro lives
  have started := (livesOn_cons (by rfl) (by rfl) (by rfl)).mp (lives [.start, .stop])
  exact not_livesOn_stop .msgQ rfl rfl rfl rfl (by decide) rfl started

end TcpServerLib.Soundness
