import Spawned.Actor.System

/-!
# The supervisors trap exits

Both supervisors of both runtimes call `ctx.trap_exit(true)` first in `started`, and no method of theirs ever turns it
off: `trapping_supervisor` and `trapping_dynamicSupervisor`, from one lemma for each method that makes calls.
-/

namespace Spawned

open Lib

theorem keepsTrap_shutdown (handle : ChildHandle) (shutdown : ShutdownType) :
    (shutdownChildAsync handle shutdown).Calls KeepsTrap := by
  refine (calls_shutdownChildAsync handle shutdown).mono fun e he => ?_
  rcases he with rfl | rfl | rfl | rfl | ⟨d, rfl⟩ <;> simp [KeepsTrap]

namespace Tasks.Supervisor

theorem keepsTrap_startChildRemote (ctx : Context) (s : Supervisor) (spec : ChildSpec) (index : Nat) :
    (startChildRemote ctx s spec index).Calls KeepsTrap := by
  unfold startChildRemote
  split
  · trivial
  · split
    · trivial
    · refine .bind (by simp [KeepsTrap]) fun answer => ?_
      cases answer with
      | error err => trivial
      | ok address => trivial

theorem keepsTrap_restartRemoteChild (ctx : Context) (s : Supervisor) (childId : String) :
    (restartRemoteChild ctx s childId).Calls KeepsTrap := by
  unfold restartRemoteChild
  split
  · trivial
  · refine .bind (by simp [KeepsTrap]) fun answer => ?_
    cases answer with
    | error err => trivial
    | ok address => trivial

theorem keepsTrap_restartChild (s : Supervisor) (childId : String) : (restartChild s childId).Calls KeepsTrap := by
  unfold restartChild
  split
  · trivial
  · exact .bind (by simp [KeepsTrap]) fun _ => trivial

theorem keepsTrap_terminateChildren (s : Supervisor) (ids : List String) :
    (terminateChildren s ids).Calls KeepsTrap := by
  induction ids generalizing s with
  | nil => trivial
  | cons id ids ih =>
    rw [terminateChildren]
    split
    · split_ifs
      · exact .bind (by simp [KeepsTrap]) fun _ => ih _
      · exact ih _
    · split
      · exact .bind (keepsTrap_shutdown _ _) fun _ => ih _
      · exact ih _

theorem keepsTrap_restartChildWithBackoff (ctx : Context) (s : Supervisor) (childId : String) :
    (restartChildWithBackoff ctx s childId).Calls KeepsTrap := by
  unfold restartChildWithBackoff
  dsimp only
  split_ifs
  · exact .bind (by simp [KeepsTrap]) fun _ => keepsTrap_restartRemoteChild ctx _ childId
  · exact .bind (by simp [KeepsTrap]) fun _ => keepsTrap_restartChild _ childId
  · exact keepsTrap_restartRemoteChild ctx _ childId
  · exact keepsTrap_restartChild _ childId

theorem keepsTrap_restartEach (ctx : Context) (s : Supervisor) (ids : List String) :
    (restartEach ctx s ids).Calls KeepsTrap := by
  induction ids generalizing s with
  | nil => trivial
  | cons id ids ih => exact .bind (keepsTrap_restartChildWithBackoff ctx s id) fun s => ih s

theorem keepsTrap_maybeCompleteBatchRestart (ctx : Context) (s : Supervisor) :
    (maybeCompleteBatchRestart ctx s).Calls KeepsTrap := by
  unfold maybeCompleteBatchRestart
  split
  · trivial
  · split
    · trivial
    · exact .bind (keepsTrap_restartEach ctx _ _) fun s => keepsTrap_restartEach ctx s _

theorem keepsTrap_handleExit (ctx : Context) (s : Supervisor) (exit : Exit) :
    (handleExit ctx s exit).Calls KeepsTrap := by
  unfold handleExit
  split
  · exact keepsTrap_maybeCompleteBatchRestart ctx _
  · refine .bind (by simp [KeepsTrap]) fun now => ?_
    split
    · trivial
    · exact keepsTrap_restartChildWithBackoff ctx _ _
    · exact .bind (keepsTrap_terminateChildren _ _) fun s => keepsTrap_maybeCompleteBatchRestart ctx s
    · exact .bind (by simp [KeepsTrap]) fun _ => trivial

theorem keepsTrap_startEach (ctx : Context) (s : Supervisor) (index : Nat) (specs : List ChildSpec) :
    (startEach ctx s index specs).Calls KeepsTrap := by
  induction specs generalizing s index with
  | nil => trivial
  | cons spec specs ih =>
    rw [startEach]
    split
    · exact .bind (keepsTrap_startChildRemote ctx s spec index) fun s => ih s _
    · exact .bind (.bind (by simp [KeepsTrap]) fun _ => trivial) fun s => ih s _

theorem keepsTrap_shutdownEach (s : Supervisor) (ids : List String) : (shutdownEach s ids).Calls KeepsTrap := by
  induction ids with
  | nil => trivial
  | cons id ids ih =>
    have hwait : ∀ remote, (do
        let _ ← ask (.shutdownRemoteAndWait remote (s.shutdownFor id))
        shutdownEach s ids).Calls KeepsTrap := fun remote => .bind (by simp [KeepsTrap]) fun _ => ih
    rw [shutdownEach]
    cases s.handles id with
    | none =>
      cases s.remoteHandles id with
      | none => exact ih
      | some remote => exact hwait remote
    | some handle =>
      refine .bind (keepsTrap_shutdown handle _) fun _ => ?_
      cases s.remoteHandles id with
      | none => exact ih
      | some remote => exact hwait remote

end Tasks.Supervisor

namespace Tasks.DynamicSupervisor

theorem keepsTrap_cleanupChild (s : DynamicSupervisor) (childId : String) :
    (cleanupChild s childId).Calls KeepsTrap := by
  unfold cleanupChild
  cases s.nameOf childId with
  | none => trivial
  | some name => exact .bind (by simp [KeepsTrap]) fun _ => trivial

theorem keepsTrap_startChild (s : DynamicSupervisor) (spec : ChildSpec) (regName : Option String) :
    (startChild s spec regName).Calls KeepsTrap := by
  unfold startChild
  dsimp only
  split_ifs
  · trivial
  · trivial
  · trivial
  · refine .bind (by simp [KeepsTrap]) fun handle => ?_
    split
    · trivial
    · refine .bind (by simp [KeepsTrap]) fun answer => ?_
      split
      · exact .bind (keepsTrap_cleanupChild _ _) fun _ => trivial
      · trivial

theorem keepsTrap_startChildRemote (ctx : Context) (s : DynamicSupervisor) (spec : RemoteSpawnSpec)
    (placement : NodeId) (link : Bool) : (startChildRemote ctx s spec placement link).Calls KeepsTrap := by
  unfold startChildRemote
  dsimp only
  split_ifs
  · trivial
  · trivial
  · trivial
  · refine .bind (by simp [KeepsTrap]) fun answer => ?_
    split
    · trivial
    · trivial

theorem keepsTrap_terminateLocal (s : DynamicSupervisor) (actorId : ActorId) :
    (terminateLocal s actorId).Calls KeepsTrap := by
  unfold terminateLocal
  split
  · trivial
  · dsimp only
    split
    · trivial
    · refine .bind (keepsTrap_shutdown _ _) fun _ => .bind (keepsTrap_cleanupChild _ _) fun _ => trivial

theorem keepsTrap_terminateChildByActor (s : DynamicSupervisor) (actorId : ActorId) :
    (terminateChildByActor s actorId).Calls KeepsTrap := by
  unfold terminateChildByActor
  split
  · exact keepsTrap_terminateLocal s actorId
  · split
    · exact keepsTrap_terminateLocal s actorId
    · refine .bind (by simp [KeepsTrap]) fun answer => ?_
      split
      · trivial
      · trivial

theorem keepsTrap_restartChild (s : DynamicSupervisor) (childId : String) :
    (restartChild s childId).Calls KeepsTrap := by
  unfold restartChild
  split
  · trivial
  · exact .bind (by simp [KeepsTrap]) fun _ => trivial

theorem keepsTrap_restartRemoteChild (ctx : Context) (s : DynamicSupervisor) (childId : String) :
    (restartRemoteChild ctx s childId).Calls KeepsTrap := by
  unfold restartRemoteChild
  split
  · trivial
  · refine .bind (by simp [KeepsTrap]) fun answer => ?_
    split
    · exact keepsTrap_cleanupChild _ _
    · trivial

theorem keepsTrap_restartChildWithBackoff (ctx : Context) (s : DynamicSupervisor) (childId : String) :
    (restartChildWithBackoff ctx s childId).Calls KeepsTrap := by
  unfold restartChildWithBackoff
  dsimp only
  split_ifs
  · exact .bind (by simp [KeepsTrap]) fun _ => keepsTrap_restartRemoteChild ctx _ childId
  · exact .bind (by simp [KeepsTrap]) fun _ => keepsTrap_restartChild _ childId
  · exact keepsTrap_restartRemoteChild ctx _ childId
  · exact keepsTrap_restartChild _ childId

theorem keepsTrap_handleExit (ctx : Context) (s : DynamicSupervisor) (exit : Exit) :
    (handleExit ctx s exit).Calls KeepsTrap := by
  unfold handleExit
  refine .bind (by simp [KeepsTrap]) fun now => ?_
  split
  · dsimp only
    split
    · exact keepsTrap_cleanupChild _ _
    · trivial
  · exact keepsTrap_restartChildWithBackoff ctx _ _
  · exact .bind (by simp [KeepsTrap]) fun _ => trivial
  · exact .bind (by simp [KeepsTrap]) fun _ => trivial

theorem keepsTrap_handle (ctx : Context) (s : DynamicSupervisor) (msg : DynMsg) :
    (handle ctx s msg).Calls KeepsTrap := by
  cases msg with
  | startChild spec regName => exact .bind (keepsTrap_startChild s spec regName) fun _ => trivial
  | startChildRemote spec placement link =>
    exact .bind (keepsTrap_startChildRemote ctx s spec placement link) fun _ => trivial
  | terminateChild actorId => exact .bind (keepsTrap_terminateChildByActor s actorId) fun _ => trivial
  | countChildren => trivial
  | whichChildren => trivial

theorem keepsTrap_shutdownEach (s : DynamicSupervisor) (ids : List String) :
    (shutdownEach s ids).Calls KeepsTrap := by
  induction ids with
  | nil => trivial
  | cons id ids ih =>
    have hwait : ∀ remote, (do
        let _ ← ask (.shutdownRemoteAndWait remote (s.shutdownFor id))
        shutdownEach s ids).Calls KeepsTrap := fun remote => .bind (by simp [KeepsTrap]) fun _ => ih
    rw [shutdownEach]
    cases s.handles id with
    | none =>
      cases s.remoteHandles id with
      | none => exact ih
      | some remote => exact hwait remote
    | some handle =>
      refine .bind (keepsTrap_shutdown handle _) fun _ => ?_
      cases s.remoteHandles id with
      | none => exact ih
      | some remote => exact hwait remote

theorem keepsTrap_unregisterEach (names : List String) : (unregisterEach names).Calls KeepsTrap := by
  induction names with
  | nil => trivial
  | cons name names ih => exact .bind (by simp [KeepsTrap]) fun _ => ih

end Tasks.DynamicSupervisor

/-! ## The supervisors of both runtimes -/

theorem trapping_supervisor (rt : Runtime) (ctx : Context) : (rt.supervisor ctx).Trapping := by
  rw [Runtime.supervisor_eq]
  refine ⟨fun s => ⟨_, rfl, ?_⟩, Tasks.Supervisor.keepsTrap_handleExit ctx, fun _ msg => (nomatch msg), fun s => ?_⟩
  · have hregister : (ask .registerSupervisionActor).Calls KeepsTrap := by simp [KeepsTrap]
    exact hregister.bind fun _ => Tasks.Supervisor.keepsTrap_startEach ctx s 0 s.specs
  · exact .bind (Tasks.Supervisor.keepsTrap_shutdownEach _ _) fun _ => trivial

theorem trapping_dynamicSupervisor (rt : Runtime) (ctx : Context) : (rt.dynamicSupervisor ctx).Trapping := by
  rw [Runtime.dynamicSupervisor_eq]
  refine ⟨fun s => ⟨_, rfl, ?_⟩, Tasks.DynamicSupervisor.keepsTrap_handleExit ctx,
    Tasks.DynamicSupervisor.keepsTrap_handle ctx, fun s => ?_⟩
  · have hregister : (ask .registerSupervisionActor).Calls KeepsTrap := by simp [KeepsTrap]
    exact hregister.bind fun _ => Prog.calls_pure _ s
  · refine .bind (Tasks.DynamicSupervisor.keepsTrap_shutdownEach _ _) fun _ => ?_
    exact .bind (Tasks.DynamicSupervisor.keepsTrap_unregisterEach _) fun _ => trivial

end Spawned
