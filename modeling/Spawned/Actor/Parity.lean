import Spawned.Actor.Callbacks

/-!
# The two runtimes supervise alike

Each method of the threads supervisors is the same program as its tasks counterpart: the same calls in the same
order, and for the same answers the same states and replies. The loops are compared by induction on the list they
run over, everything else by the equalities of the methods it calls.
-/

namespace Spawned

open Lib

theorem shutdownChildBlocking_eq (handle : ChildHandle) (shutdown : ShutdownType) :
    shutdownChildBlocking handle shutdown = shutdownChildAsync handle shutdown := rfl

/-! ## Static supervisor -/

namespace Threads.Supervisor

theorem startChild_eq : startChild = Tasks.Supervisor.startChild := rfl

theorem startChildRemote_eq : startChildRemote = Tasks.Supervisor.startChildRemote := rfl

theorem restartRemoteChild_eq : restartRemoteChild = Tasks.Supervisor.restartRemoteChild := rfl

theorem restartChild_eq : restartChild = Tasks.Supervisor.restartChild := rfl

theorem terminateChildren_eq (s : Supervisor) (ids : List String) :
    terminateChildren s ids = Tasks.Supervisor.terminateChildren s ids := by
  induction ids generalizing s with
  | nil => rfl
  | cons id ids ih =>
    simp only [terminateChildren, ih, shutdownChildBlocking_eq]
    rfl

theorem restartChildWithBackoff_eq : restartChildWithBackoff = Tasks.Supervisor.restartChildWithBackoff := by
  funext ctx s childId
  unfold restartChildWithBackoff Tasks.Supervisor.restartChildWithBackoff
  rw [restartRemoteChild_eq, restartChild_eq]

theorem restartEach_eq (ctx : Context) (s : Supervisor) (ids : List String) :
    restartEach ctx s ids = Tasks.Supervisor.restartEach ctx s ids := by
  induction ids generalizing s with
  | nil => rfl
  | cons id ids ih => simp only [restartEach, Tasks.Supervisor.restartEach, ih, restartChildWithBackoff_eq]

theorem maybeCompleteBatchRestart_eq (ctx : Context) (s : Supervisor) :
    maybeCompleteBatchRestart ctx s = Tasks.Supervisor.maybeCompleteBatchRestart ctx s := by
  simp only [maybeCompleteBatchRestart, restartEach_eq]
  rfl

theorem handleExit_eq (ctx : Context) (s : Supervisor) (exit : Exit) :
    handleExit ctx s exit = Tasks.Supervisor.handleExit ctx s exit := by
  simp only [handleExit, terminateChildren_eq, maybeCompleteBatchRestart_eq, restartChildWithBackoff_eq]
  rfl

theorem startEach_eq (ctx : Context) (s : Supervisor) (index : Nat) (specs : List ChildSpec) :
    startEach ctx s index specs = Tasks.Supervisor.startEach ctx s index specs := by
  induction specs generalizing s index with
  | nil => rfl
  | cons spec specs ih =>
    simp only [startEach, Tasks.Supervisor.startEach, ih, startChild_eq, startChildRemote_eq]

theorem started_eq (ctx : Context) (s : Supervisor) : started ctx s = Tasks.Supervisor.started ctx s := by
  simp only [started, Tasks.Supervisor.started, startEach_eq]

theorem shutdownEach_eq (s : Supervisor) (ids : List String) :
    shutdownEach s ids = Tasks.Supervisor.shutdownEach s ids := by
  induction ids with
  | nil => rfl
  | cons id ids ih =>
    simp only [shutdownEach, ih, shutdownChildBlocking_eq]
    rfl

theorem stopped_eq (s : Supervisor) : stopped s = Tasks.Supervisor.stopped s := by
  simp only [stopped, Tasks.Supervisor.stopped, shutdownEach_eq]

end Threads.Supervisor

theorem threads_supervisor_eq (ctx : Context) : Threads.supervisor ctx = Tasks.supervisor ctx := by
  simp only [Threads.supervisor, Tasks.supervisor, Callbacks.mk.injEq, true_and]
  refine ⟨funext (Threads.Supervisor.started_eq ctx), ?_, funext Threads.Supervisor.stopped_eq⟩
  funext s exit
  exact Threads.Supervisor.handleExit_eq ctx s exit

/-! ## Dynamic supervisor -/

namespace Threads.DynamicSupervisor

theorem cleanupChild_eq : cleanupChild = Tasks.DynamicSupervisor.cleanupChild := rfl

theorem startChild_eq : startChild = Tasks.DynamicSupervisor.startChild := rfl

theorem startChildRemote_eq : startChildRemote = Tasks.DynamicSupervisor.startChildRemote := rfl

theorem terminateLocal_eq (s : DynamicSupervisor) (actorId : ActorId) :
    terminateLocal s actorId = Tasks.DynamicSupervisor.terminateLocal s actorId := by
  simp only [terminateLocal, shutdownChildBlocking_eq, cleanupChild_eq]
  rfl

theorem terminateChildByActor_eq (s : DynamicSupervisor) (actorId : ActorId) :
    terminateChildByActor s actorId = Tasks.DynamicSupervisor.terminateChildByActor s actorId := by
  simp only [terminateChildByActor, terminateLocal_eq]
  rfl

theorem handleExit_eq : handleExit = Tasks.DynamicSupervisor.handleExit := rfl

theorem shutdownEach_eq (s : DynamicSupervisor) (ids : List String) :
    shutdownEach s ids = Tasks.DynamicSupervisor.shutdownEach s ids := by
  induction ids with
  | nil => rfl
  | cons id ids ih =>
    simp only [shutdownEach, ih, shutdownChildBlocking_eq]
    rfl

theorem unregisterEach_eq (names : List String) :
    unregisterEach names = Tasks.DynamicSupervisor.unregisterEach names := by
  induction names with
  | nil => rfl
  | cons name names ih => simp only [unregisterEach, Tasks.DynamicSupervisor.unregisterEach, ih]

theorem stopped_eq (s : DynamicSupervisor) : stopped s = Tasks.DynamicSupervisor.stopped s := by
  simp only [stopped, Tasks.DynamicSupervisor.stopped, shutdownEach_eq, unregisterEach_eq]

theorem handle_eq (ctx : Context) (s : DynamicSupervisor) (msg : DynMsg) :
    handle ctx s msg = Tasks.DynamicSupervisor.handle ctx s msg := by
  cases msg <;>
    simp only [handle, Tasks.DynamicSupervisor.handle, startChild_eq, startChildRemote_eq, terminateChildByActor_eq]

end Threads.DynamicSupervisor

theorem threads_dynamicSupervisor_eq (ctx : Context) :
    Threads.dynamicSupervisor ctx = Tasks.dynamicSupervisor ctx := by
  simp only [Threads.dynamicSupervisor, Tasks.dynamicSupervisor, Callbacks.mk.injEq]
  refine ⟨rfl, rfl, ?_, funext Threads.DynamicSupervisor.stopped_eq⟩
  funext s msg
  exact Threads.DynamicSupervisor.handle_eq ctx s msg

/-- **Both runtimes supervise alike.** Against the same answers, and for every builder and every sequence of events,
the two static supervisors go through the same states, and the two dynamic supervisors through the same states and
replies; the calls they make are the same, in the same order. -/
theorem runtimes_supervise_alike (ctx : Context) (ora : Prog.Strategy SupOp SupOp.Ans) :
    (∀ (b : SupervisorBuilder) (events : List (Event Empty)),
      (Tasks.supervisor ctx).life ora b.build events = (Threads.supervisor ctx).life ora b.build events) ∧
    ∀ (b : DynamicSupervisorBuilder) (events : List (Event DynMsg)),
      (Tasks.dynamicSupervisor ctx).life ora b.build events =
        (Threads.dynamicSupervisor ctx).life ora b.build events := by
  rw [threads_supervisor_eq, threads_dynamicSupervisor_eq]
  exact ⟨fun _ _ => rfl, fun _ _ => rfl⟩

end Spawned
