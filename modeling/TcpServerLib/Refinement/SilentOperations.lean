import TcpServerLib.Machine.Monitor
import TcpServerLib.Model.TcpServerController

/-! # Operations without actions

The operations on the data of a server take no lock and do nothing to a thread.
-/

namespace TcpServerLib.Refinement

open Machine Model Prog

variable {c : ClientRef}

/-- An assertion is no action. -/
theorem silent_assertThat {condition : Prop} [Decidable condition] : (assertThat condition).Silent :=
  obeys_ite (fun _ => trivial) fun _ => trivial

/-- To read a client is no action. -/
theorem silent_deref : (deref c).Silent := by
  intro s
  dsimp only [Prog.bind]
  cases s.heap c <;> trivial

theorem silent_derefSvcMgr : derefSvcMgr.Silent := by
  intro s
  dsimp only [Prog.bind]
  cases s.tcpClientSvcMgr <;> trivial

/-- To change the state is no action. -/
theorem silent_update {f : TcpServerController → TcpServerController} : (update f : Op Unit).Silent :=
  fun _ => trivial

theorem silent_read : (read : Op TcpServerController).Silent :=
  fun _ => trivial

theorem silent_modifyClient {f : TcpClient → TcpClient} : (modifyClient c f).Silent :=
  avoids_bind silent_deref fun _ => silent_update

/-- A callback of the application is written down only. -/
theorem silent_notify {call : Call} : (notify call).Silent :=
  silent_update

theorem silent_newClient {client : TcpClient} : (newClient client).Silent :=
  fun _ => trivial

/-- To count a reference takes no lock. -/
theorem silent_reference : (TcpClient.reference c).Silent :=
  silent_modifyClient

theorem silent_abort : (TcpClient.abort c).Silent :=
  avoids_bind silent_deref fun _ => avoids_bind silent_assertThat fun _ => avoids_bind silent_assertThat fun _ =>
    avoids_bind silent_assertThat fun _ => silent_update

/-- To drop one takes none, even where the client is destroyed. -/
theorem silent_dereference : (TcpClient.dereference c).Silent := by
  refine avoids_bind silent_deref fun client => obeys_ite (fun _ => ?_) fun _ => ?_
  · exact avoids_bind silent_abort fun _ => trivial
  · refine avoids_bind silent_modifyClient fun _ => avoids_bind silent_deref fun left => ?_
    exact obeys_ite (fun _ => trivial) fun _ => avoids_bind silent_abort fun _ => trivial

theorem silent_connectSucceeded {portNo : UInt16} : (TcpClient.connectSucceeded c portNo).Silent := by
  refine avoids_bind silent_modifyClient fun _ => avoids_bind silent_modifyClient fun _ => ?_
  refine avoids_bind silent_modifyClient fun _ => avoids_bind silent_read fun s => ?_
  exact obeys_when (fun _ => silent_notify) fun _ => trivial

/-- The demarcar calls nothing but the application. -/
theorem silent_processMsg {msgd : Msgd} {chunk : Bytes} : (TcpClient.processMsg c msgd chunk).Silent := by
  refine avoids_bind silent_notify fun _ => ?_
  split
  · trivial
  · refine avoids_bind silent_read fun s => obeys_ite (fun _ => trivial) fun _ => ?_
    exact avoids_bind silent_update fun _ => silent_modifyClient

/-- The loop of the lookup, without the lock around it. -/
theorem silent_lookUpClientDB {ipAddr : UInt32} {portNo : UInt16} {list : List ClientRef} :
    (lookUpClientDB ipAddr portNo list).Silent := by
  induction list with
  | nil => trivial
  | cons c rest ih => exact avoids_bind silent_deref fun client => obeys_ite (fun _ => trivial) fun _ => ih

/-- The loop that copies the database, without its lock. -/
theorem silent_copyClientsTolist {list : List ClientRef} :
    (TcpClientDbManager.copyClientsTolist list).Silent := by
  induction list with
  | nil => trivial
  | cons c rest ih => exact avoids_bind silent_update fun _ => avoids_bind silent_reference fun _ => ih

theorem silent_copyClientFDtoFDSet {list : List ClientRef} :
    (TcpClientServiceManager.copyClientFDtoFDSet list).Silent := by
  induction list with
  | nil => trivial
  | cons c rest ih => exact avoids_bind silent_deref fun _ => avoids_bind silent_update fun _ => ih

theorem silent_svcAddClientToDB : (TcpClientServiceManager.addClientToDB c).Silent :=
  avoids_bind silent_derefSvcMgr fun _ => avoids_bind silent_update fun _ => silent_reference

theorem silent_svcRemoveClientFromDB : (TcpClientServiceManager.removeClientFromDB c).Silent :=
  avoids_bind silent_derefSvcMgr fun _ => avoids_bind silent_update fun _ =>
    avoids_bind silent_dereference fun _ => trivial

/-- The loop of `Purge` over the list of the service manager. -/
theorem silent_svcPurgeFrom {fuel : ℕ} {list : List ClientRef} :
    (TcpClientServiceManager.purgeFrom fuel list).Silent := by
  induction fuel generalizing list with
  | zero => trivial
  | succ fuel ih =>
    cases list with
    | nil => trivial
    | cons c rest =>
      refine avoids_bind silent_update fun _ => avoids_bind silent_modifyClient fun _ => ?_
      exact avoids_bind silent_dereference fun _ => obeys_ite (fun _ => trivial) fun _ => ih

end TcpServerLib.Refinement
