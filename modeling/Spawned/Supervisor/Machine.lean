import Spawned.Actor.Life

/-!
# The static supervisor as a machine

Between two calls of the policy engine a static supervisor is in a `Conf`: its state, and what the running callback
still has to do. `Micro` lists everything it can do next; every transition makes at most one engine call, so the
configurations of a run are all the states the engine goes through, those inside a handler included.

* `machine_of_handleExit` : every execution of `handle_exit` is a run of the machine that makes the same calls;
* `machine_of_lives` : so is every life of a supervisor. What is proved of all runs of the machine holds of the code.
-/

namespace Spawned

open Lib

namespace Supervisor

/-! ## The changes of state -/

/-- A local child was started at `startIndex`. -/
@[simps]
def localStarted (s : Supervisor) (spec : ChildSpec) (startIndex : Nat) (handle : ChildHandle) : Supervisor :=
  { s with
    logic := s.logic.registerChild { id := spec.id, restart := spec.restart, startIndex }
      { id := handle.id, alive := true }
    handles := s.handles.insert spec.id handle }

/-- A remote child was started at `startIndex`. -/
@[simps]
def remoteStarted (s : Supervisor) (spec : ChildSpec) (startIndex : Nat) (wireSpec : RemoteSpawnSpec)
    (placement : NodeId) (address parent : ActorAddress) : Supervisor :=
  { s with
    logic := s.logic.registerChild { id := spec.id, restart := spec.restart, startIndex }
      { id := address.actorId, alive := true }
    remoteHandles := s.remoteHandles.insert spec.id { address, parent }
    remoteActorToId := s.remoteActorToId.insert address.actorId spec.id
    remoteSpawnMeta := s.remoteSpawnMeta.insert spec.id { spec := wireSpec, placement, link := true } }

@[simps]
def withLogic (s : Supervisor) (logic : SupervisorLogic) : Supervisor := { s with logic }

/-- A local child was started again. -/
@[simps]
def localRestarted (s : Supervisor) (childId : String) (handle : ChildHandle) : Supervisor :=
  { s with
    logic := s.logic.replaceChildHandle childId { id := handle.id, alive := true }
    handles := s.handles.insert childId handle }

/-- The handle and the reverse entries of a remote child are forgotten before it is spawned again. -/
@[simps]
def remoteForgotten (s : Supervisor) (childId : String) : Supervisor :=
  { s with
    remoteHandles := s.remoteHandles.remove childId
    remoteActorToId := s.remoteActorToId.retain (fun _ id => id != childId) }

/-- A remote child was spawned again. -/
@[simps]
def remoteRestarted (s : Supervisor) (childId : String) (address parent : ActorAddress) : Supervisor :=
  { s with
    logic := s.logic.replaceChildHandle childId { id := address.actorId, alive := true }
    remoteHandles := s.remoteHandles.insert childId { address, parent }
    remoteActorToId := s.remoteActorToId.insert address.actorId childId }

/-- A remote child could not be spawned again and is dropped. -/
@[simps]
def remoteDropped (s : Supervisor) (childId : String) : Supervisor :=
  { s with
    logic := s.logic.removeChildById childId
    remoteSpawnMeta := s.remoteSpawnMeta.remove childId }

/-! ## The machine -/

/-- What the running callback still has to do. -/
inductive Todo
  /-- the start loop of `started`, from position `index` on -/
  | start (index : Nat) (specs : List ChildSpec)
  /-- between two callbacks -/
  | idle
  /-- the loop of `terminate_children`, then `maybe_complete_batch_restart` -/
  | terminate (ids : List String)
  /-- the restart loops, `restart_child_with_backoff` for each id -/
  | restart (ids : List String)
  /-- the second half of `restart_child_with_backoff`, after the delay -/
  | relaunch (id : String) (ids : List String)
deriving DecidableEq

structure Conf where
  sup : Supervisor
  todo : Todo

/-- A transition: the `Exit` it takes from the lane, if it begins a handler, and the calls it makes. -/
structure Act where
  exit : Option Exit := none
  calls : SupTrace := []

/-- The delay call, if there is a delay. -/
def sleepCalls (delay : Duration) : SupTrace := if delay ≠ 0 then [⟨.sleep delay, ()⟩] else []

/-- The ids of a completed batch in the order of their restarts: remote children first. -/
def restartOrder (s : Supervisor) (ids : List String) : List String :=
  ids.filter (fun id => s.remoteSpawnMeta.containsKey id) ++
    ids.filter (fun id => !s.remoteSpawnMeta.containsKey id)

/-- The transitions. -/
inductive Micro (ctx : Context) : Conf → Act → Conf → Prop
  | startLocal {s spec specs index} (handle : ChildHandle) (hspec : spec.isRemote = false) :
      Micro ctx ⟨s, .start index (spec :: specs)⟩ { calls := [⟨.startChild spec, handle⟩] }
        ⟨s.localStarted spec index handle, .start (index + 1) specs⟩
  | startNoWire {s spec specs index} (hspec : spec.isRemote = true) (hwire : remoteSpawnSpecFromInner spec = none) :
      Micro ctx ⟨s, .start index (spec :: specs)⟩ {} ⟨s, .start (index + 1) specs⟩
  | startFailed {s spec specs index wire placement} (error : RemoteSpawnError)
      (hwire : remoteSpawnSpecFromInner spec = some wire) (hplace : spec.placement = .remote placement) :
      Micro ctx ⟨s, .start index (spec :: specs)⟩
        { calls := [⟨.requestSpawnWithRetry spec.id placement ctx.actorAddress wire true, .error error⟩] }
        ⟨s, .start (index + 1) specs⟩
  | startRemote {s spec specs index wire placement} (address : ActorAddress)
      (hwire : remoteSpawnSpecFromInner spec = some wire) (hplace : spec.placement = .remote placement) :
      Micro ctx ⟨s, .start index (spec :: specs)⟩
        { calls := [⟨.requestSpawnWithRetry spec.id placement ctx.actorAddress wire true, .ok address⟩] }
        ⟨s.remoteStarted spec index wire placement address ctx.actorAddress, .start (index + 1) specs⟩
  | started {s index} : Micro ctx ⟨s, .start index []⟩ {} ⟨s, .idle⟩
  | note {s} (exit : Exit) (hs : s.logic.suppressRestarts = true) :
      Micro ctx ⟨s, .idle⟩ { exit := some exit }
        ⟨s.withLogic (s.logic.noteExitDuringBatch exit.from.actorId), .terminate []⟩
  | ignore {s logic} (exit : Exit) (now : Instant) (hs : s.logic.suppressRestarts = false)
      (hact : s.logic.onChildExit exit.from.actorId exit.reason now = (.ignore, logic)) :
      Micro ctx ⟨s, .idle⟩ { exit := some exit, calls := [⟨.now, now⟩] } ⟨s.withLogic logic, .idle⟩
  | restartOne {s logic id} (exit : Exit) (now : Instant) (hs : s.logic.suppressRestarts = false)
      (hact : s.logic.onChildExit exit.from.actorId exit.reason now = (.restartOne id, logic)) :
      Micro ctx ⟨s, .idle⟩ { exit := some exit, calls := [⟨.now, now⟩] } ⟨s.withLogic logic, .restart [id]⟩
  | terminateBatch {s logic ids} (exit : Exit) (now : Instant) (hs : s.logic.suppressRestarts = false)
      (hact : s.logic.onChildExit exit.from.actorId exit.reason now = (.terminateBatch ids, logic)) :
      Micro ctx ⟨s, .idle⟩ { exit := some exit, calls := [⟨.now, now⟩] } ⟨s.withLogic logic, .terminate ids⟩
  | meltdown {s logic} (exit : Exit) (now : Instant) (hs : s.logic.suppressRestarts = false)
      (hact : s.logic.onChildExit exit.from.actorId exit.reason now = (.meltdown, logic)) :
      Micro ctx ⟨s, .idle⟩ { exit := some exit, calls := [⟨.now, now⟩, ⟨.stop, ()⟩] } ⟨s.withLogic logic, .idle⟩
  | terminateRemote {s id ids remote} (answer : Except RemoteShutdownError Unit)
      (hremote : s.remoteHandles id = some remote) (halive : s.logic.isChildAlive id = true) :
      Micro ctx ⟨s, .terminate (id :: ids)⟩
        { calls := [⟨.shutdownRemoteAndWait remote (s.shutdownFor id), answer⟩] }
        ⟨s.withLogic (s.logic.markChildDead remote.address.actorId), .terminate ids⟩
  | terminateRemoteDead {s id ids remote} (hremote : s.remoteHandles id = some remote)
      (halive : s.logic.isChildAlive id = false) :
      Micro ctx ⟨s, .terminate (id :: ids)⟩ {} ⟨s, .terminate ids⟩
  | terminateLocal {s id ids handle τ} (reason : ExitReason) (hremote : s.remoteHandles id = none)
      (hlocal : s.handles id = some handle) (hτ : (shutdownChildAsync handle (s.shutdownFor id)).Exec τ reason) :
      Micro ctx ⟨s, .terminate (id :: ids)⟩ { calls := τ }
        ⟨s.withLogic (s.logic.markChildDead handle.id), .terminate ids⟩
  | terminateNone {s id ids} (hremote : s.remoteHandles id = none) (hlocal : s.handles id = none) :
      Micro ctx ⟨s, .terminate (id :: ids)⟩ {} ⟨s, .terminate ids⟩
  | incomplete {s} (hc : s.logic.pendingBatchRestartComplete = false) :
      Micro ctx ⟨s, .terminate []⟩ {} ⟨s, .idle⟩
  | complete {s ids logic} (hc : s.logic.pendingBatchRestartComplete = true)
      (htake : s.logic.takePendingRestartIds = (some ids, logic)) :
      Micro ctx ⟨s, .terminate []⟩ {} ⟨s.withLogic logic, .restart (s.restartOrder ids)⟩
  | backoff {s id ids delay logic} (hdelay : s.logic.backoffDelay id (s.backoffFor id) = (delay, logic)) :
      Micro ctx ⟨s, .restart (id :: ids)⟩ { calls := sleepCalls delay } ⟨s.withLogic logic, .relaunch id ids⟩
  | relaunchNone {s id ids} (hmeta : s.remoteSpawnMeta id = none) (hspec : s.findSpec id = none) :
      Micro ctx ⟨s, .relaunch id ids⟩ {} ⟨s, .restart ids⟩
  | relaunchLocal {s id ids spec} (handle : ChildHandle) (hmeta : s.remoteSpawnMeta id = none)
      (hspec : s.findSpec id = some spec) :
      Micro ctx ⟨s, .relaunch id ids⟩ { calls := [⟨.startChild spec, handle⟩] }
        ⟨s.localRestarted id handle, .restart ids⟩
  | relaunchFailed {s id ids spawned} (error : RemoteSpawnError) (hmeta : s.remoteSpawnMeta id = some spawned) :
      Micro ctx ⟨s, .relaunch id ids⟩
        { calls := [⟨.requestSpawnWithRetry id spawned.placement ctx.actorAddress spawned.spec spawned.link,
            .error error⟩] }
        ⟨(s.remoteForgotten id).remoteDropped id, .restart ids⟩
  | relaunchRemote {s id ids spawned} (address : ActorAddress) (hmeta : s.remoteSpawnMeta id = some spawned) :
      Micro ctx ⟨s, .relaunch id ids⟩
        { calls := [⟨.requestSpawnWithRetry id spawned.placement ctx.actorAddress spawned.spec spawned.link,
            .ok address⟩] }
        ⟨(s.remoteForgotten id).remoteRestarted id address ctx.actorAddress, .restart ids⟩
  | restarted {s} : Micro ctx ⟨s, .restart []⟩ {} ⟨s, .idle⟩

/-! ## The code runs as the machine -/

section Refinement

variable {ctx : Context} {s s' : Supervisor} {c c' c'' : Conf} {τ τ' : SupTrace}

/-- A stretch of a run that takes no `Exit` and makes the calls `τ`. -/
def Silent (ctx : Context) (c : Conf) (τ : SupTrace) (c' : Conf) : Prop :=
  ∃ hist, Run (Micro ctx) c hist c' ∧ hist.flatMap (·.2.calls) = τ ∧ ∀ x ∈ hist, x.2.exit = none

theorem Silent.step (h : Micro ctx c { calls := τ } c') (h' : Silent ctx c' τ' c'') : Silent ctx c (τ ++ τ') c'' := by
  obtain ⟨hist, hrun, hcalls, hexit⟩ := h'
  refine ⟨_, hrun.cons h, by simp [hcalls], fun x hx => ?_⟩
  rcases List.mem_cons.mp hx with rfl | hx
  · rfl
  · exact hexit x hx

theorem Silent.last (h : Micro ctx c { calls := τ } c') : Silent ctx c τ c' :=
  ⟨_, Run.single h, by simp, by simp⟩

theorem Silent.tau (h : Micro ctx c {} c') (h' : Silent ctx c' τ c'') : Silent ctx c τ c'' := h'.step h

theorem silent_of_startEach {specs : List ChildSpec} {index : Nat}
    (h : (Tasks.Supervisor.startEach ctx s index specs).Exec τ s') :
    Silent ctx ⟨s, .start index specs⟩ τ ⟨s', .idle⟩ := by
  induction specs generalizing s index τ with
  | nil =>
    obtain ⟨rfl, rfl⟩ := h
    exact Silent.last .started
  | cons spec specs ih =>
    rw [Tasks.Supervisor.startEach] at h
    cases hremote : spec.isRemote with
    | false =>
      rw [hremote] at h
      obtain ⟨handle, τ', rfl, h₂⟩ := h
      exact (ih h₂).step (.startLocal handle hremote)
    | true =>
      rw [hremote, if_pos rfl, Tasks.Supervisor.startChildRemote] at h
      obtain ⟨τ₁, s₁, τ₂, rfl, h₁, h₂⟩ := Prog.exec_bind.mp h
      have hrest := ih h₂
      cases hwire : remoteSpawnSpecFromInner spec with
      | none =>
        rw [hwire] at h₁
        obtain ⟨rfl, rfl⟩ := h₁
        exact hrest.tau (.startNoWire hremote hwire)
      | some wire =>
        rw [hwire] at h₁
        cases hplace : spec.placement with
        | «local» => simp [ChildSpec.isRemote, hplace] at hremote
        | remote placement =>
          rw [hplace] at h₁
          obtain ⟨answer, τ', rfl, h₁⟩ := h₁
          cases answer with
          | error error =>
            obtain ⟨rfl, rfl⟩ := h₁
            exact hrest.step (.startFailed error hwire hplace)
          | ok address =>
            obtain ⟨rfl, rfl⟩ := h₁
            exact hrest.step (.startRemote address hwire hplace)

/-- `restart_child_with_backoff` is the delay, then the restart. -/
theorem exec_restartChildWithBackoff {id : String}
    (h : (Tasks.Supervisor.restartChildWithBackoff ctx s id).Exec τ s') :
    ∃ delay logic τ', s.logic.backoffDelay id (s.backoffFor id) = (delay, logic) ∧ τ = sleepCalls delay ++ τ' ∧
      (if s.remoteSpawnMeta.containsKey id then Tasks.Supervisor.restartRemoteChild ctx (s.withLogic logic) id
        else Tasks.Supervisor.restartChild (s.withLogic logic) id).Exec τ' s' := by
  rw [Tasks.Supervisor.restartChildWithBackoff] at h
  rcases hdelay : s.logic.backoffDelay id (s.backoffFor id) with ⟨delay, logic⟩
  rw [hdelay] at h
  unfold sleepCalls
  by_cases hd : delay ≠ 0
  · simp only [if_pos hd] at h
    obtain ⟨_, τ', rfl, h⟩ := h
    exact ⟨delay, logic, τ', rfl, by rw [if_pos hd]; rfl, h⟩
  · simp only [if_neg hd] at h
    exact ⟨delay, logic, τ, rfl, by rw [if_neg hd]; rfl, h⟩

theorem silent_of_restartChildWithBackoff {id : String} {ids : List String}
    (h : (Tasks.Supervisor.restartChildWithBackoff ctx s id).Exec τ s')
    (h' : Silent ctx ⟨s', .restart ids⟩ τ' c) : Silent ctx ⟨s, .restart (id :: ids)⟩ (τ ++ τ') c := by
  obtain ⟨delay, logic, τ₁, hdelay, hτ, h⟩ := exec_restartChildWithBackoff h
  rw [hτ, List.append_assoc]
  refine Silent.step (.backoff hdelay) ?_
  cases hmeta : s.remoteSpawnMeta id with
  | none =>
    rw [if_neg (by simp [Table.containsKey, hmeta]), Tasks.Supervisor.restartChild] at h
    cases hspec : s.findSpec id with
    | none =>
      rw [show (s.withLogic logic).findSpec id = none from hspec] at h
      obtain ⟨rfl, rfl⟩ := h
      exact h'.tau (.relaunchNone hmeta hspec)
    | some spec =>
      rw [show (s.withLogic logic).findSpec id = some spec from hspec] at h
      obtain ⟨handle, τ₂, rfl, rfl, rfl⟩ := h
      exact h'.step (.relaunchLocal handle hmeta hspec)
  | some spawned =>
    rw [if_pos (by simp [Table.containsKey, hmeta]), Tasks.Supervisor.restartRemoteChild] at h
    rw [show (s.withLogic logic).remoteSpawnMeta id = some spawned from hmeta] at h
    obtain ⟨answer, τ₂, rfl, h⟩ := h
    cases answer with
    | error error =>
      obtain ⟨rfl, rfl⟩ := h
      exact h'.step (.relaunchFailed error hmeta)
    | ok address =>
      obtain ⟨rfl, rfl⟩ := h
      exact h'.step (.relaunchRemote address hmeta)

theorem silent_of_restartEach {ids : List String} (h : (Tasks.Supervisor.restartEach ctx s ids).Exec τ s') :
    Silent ctx ⟨s, .restart ids⟩ τ ⟨s', .idle⟩ := by
  induction ids generalizing s τ with
  | nil =>
    obtain ⟨rfl, rfl⟩ := h
    exact Silent.last .restarted
  | cons id ids ih =>
    rw [Tasks.Supervisor.restartEach] at h
    obtain ⟨τ₁, s₁, τ₂, rfl, h₁, h₂⟩ := Prog.exec_bind.mp h
    exact silent_of_restartChildWithBackoff h₁ (ih h₂)

/-- The two restart loops of a completed batch are one loop over both lists. -/
theorem exec_restartEach_append {s₁ : Supervisor} {ids ids' : List String}
    (h : (Tasks.Supervisor.restartEach ctx s ids).Exec τ s₁)
    (h' : (Tasks.Supervisor.restartEach ctx s₁ ids').Exec τ' s') :
    (Tasks.Supervisor.restartEach ctx s (ids ++ ids')).Exec (τ ++ τ') s' := by
  induction ids generalizing s τ with
  | nil =>
    obtain ⟨rfl, rfl⟩ := h
    exact h'
  | cons id ids ih =>
    rw [Tasks.Supervisor.restartEach] at h
    obtain ⟨τ₁, s₂, τ₂, rfl, h₁, h₂⟩ := Prog.exec_bind.mp h
    rw [List.append_assoc, List.cons_append, Tasks.Supervisor.restartEach]
    exact Prog.exec_bind.mpr ⟨τ₁, s₂, τ₂ ++ τ', rfl, h₁, ih h₂⟩

theorem silent_of_maybeCompleteBatchRestart (h : (Tasks.Supervisor.maybeCompleteBatchRestart ctx s).Exec τ s') :
    Silent ctx ⟨s, .terminate []⟩ τ ⟨s', .idle⟩ := by
  rw [Tasks.Supervisor.maybeCompleteBatchRestart] at h
  cases hc : s.logic.pendingBatchRestartComplete with
  | false =>
    rw [hc] at h
    obtain ⟨rfl, rfl⟩ := h
    exact Silent.last (.incomplete hc)
  | true =>
    rw [hc] at h
    cases hp : s.logic.pendingBatchRestart with
    | none => simp [SupervisorLogic.pendingBatchRestartComplete, hp] at hc
    | some pending =>
      have htake : s.logic.takePendingRestartIds = (some (s.logic.batchIds pending),
          { s.logic with pendingBatchRestart := none, suppressRestarts := false }) := by
        simp [SupervisorLogic.takePendingRestartIds, hp]
      rw [htake] at h
      simp only [Bool.not_true, Bool.false_eq_true, if_false, List.partition_eq_filter_filter] at h
      obtain ⟨τ₁, s₁, τ₂, rfl, h₁, h₂⟩ := Prog.exec_bind.mp h
      exact Silent.tau (.complete hc htake) (silent_of_restartEach (exec_restartEach_append h₁ h₂))

theorem silent_of_terminateChildren {ids : List String} (h : (Tasks.Supervisor.terminateChildren s ids).Exec τ s')
    (h' : Silent ctx ⟨s', .terminate []⟩ τ' c) : Silent ctx ⟨s, .terminate ids⟩ (τ ++ τ') c := by
  induction ids generalizing s τ with
  | nil =>
    obtain ⟨rfl, rfl⟩ := h
    exact h'
  | cons id ids ih =>
    rw [Tasks.Supervisor.terminateChildren] at h
    cases hremote : s.remoteHandles id with
    | some remote =>
      simp only [hremote] at h
      cases halive : s.logic.isChildAlive id with
      | true =>
        rw [halive] at h
        obtain ⟨answer, τ₁, rfl, h⟩ := h
        rw [List.cons_append, ← List.singleton_append]
        exact (ih h).step (.terminateRemote answer hremote halive)
      | false =>
        rw [halive] at h
        exact (ih h).tau (.terminateRemoteDead hremote halive)
    | none =>
      simp only [hremote] at h
      cases hlocal : s.handles id with
      | some handle =>
        simp only [hlocal] at h
        obtain ⟨τ₁, reason, τ₂, rfl, h₁, h₂⟩ := Prog.exec_bind.mp h
        rw [List.append_assoc]
        exact (ih h₂).step (.terminateLocal reason hremote hlocal h₁)
      | none =>
        simp only [hlocal] at h
        exact (ih h).tau (.terminateNone hremote hlocal)

/-- **`handle_exit` runs as the machine**: one transition takes the `Exit`, the others take none. -/
theorem machine_of_handleExit {exit : Exit} (h : (Tasks.Supervisor.handleExit ctx s exit).Exec τ s') :
    ∃ act c τ', Micro ctx ⟨s, .idle⟩ act c ∧ act.exit = some exit ∧ τ = act.calls ++ τ' ∧
      Silent ctx c τ' ⟨s', .idle⟩ := by
  rw [Tasks.Supervisor.handleExit] at h
  cases hs : s.logic.suppressRestarts with
  | true =>
    rw [hs] at h
    exact ⟨_, _, τ, .note exit hs, rfl, rfl, silent_of_maybeCompleteBatchRestart h⟩
  | false =>
    rw [hs, if_neg Bool.false_ne_true] at h
    replace h := Prog.exec_op_bind.mp h
    obtain ⟨now, τ₁, rfl, h⟩ := h
    rcases hact : s.logic.onChildExit exit.from.actorId exit.reason now with ⟨action, logic⟩
    rw [hact] at h
    cases action with
    | ignore =>
      obtain ⟨rfl, rfl⟩ := h
      exact ⟨_, _, [], .ignore exit now hs hact, rfl, rfl, ⟨[], .nil, rfl, by simp⟩⟩
    | restartOne id =>
      refine ⟨_, _, τ₁, .restartOne exit now hs hact, rfl, rfl, ?_⟩
      have hdone : Silent ctx ⟨s', .restart []⟩ [] ⟨s', .idle⟩ := Silent.last .restarted
      have hrest := silent_of_restartChildWithBackoff h hdone
      rw [List.append_nil] at hrest
      exact hrest
    | terminateBatch ids =>
      obtain ⟨τ₂, s₁, τ₃, rfl, h₁, h₂⟩ := Prog.exec_bind.mp h
      refine ⟨_, _, τ₂ ++ τ₃, .terminateBatch exit now hs hact, rfl, rfl, ?_⟩
      exact silent_of_terminateChildren h₁ (silent_of_maybeCompleteBatchRestart h₂)
    | meltdown =>
      obtain ⟨_, τ₂, rfl, rfl, rfl⟩ := h
      exact ⟨_, _, [], .meltdown exit now hs hact, rfl, rfl, ⟨[], .nil, rfl, by simp⟩⟩

/-- A turn of the run loop: the first transition takes the event's `Exit` in the state of the turn. -/
theorem machine_of_handles {p q : Serving Supervisor} {turn : Turn Empty Empty}
    (h : (Tasks.supervisor ctx).Handles p turn q) :
    ∃ hist, Run (Micro ctx) ⟨p.state, .idle⟩ hist ⟨q.state, .idle⟩ ∧ hist.flatMap (·.2.calls) = turn.calls ∧
      ∀ x ∈ hist, ∀ e, x.2.exit = some e →
        x.1 = ⟨p.state, .idle⟩ ∧ turn.event = .exit e ∧ ∀ call ∈ x.2.calls, call ∈ turn.calls := by
  cases hevent : turn.event with
  | message msg => exact nomatch msg
  | exit e =>
    obtain ⟨act, c, τ', hstep, hexit, hτ, hist, hrun, hcalls, hsilent⟩ := machine_of_handleExit (h.exit hevent)
    refine ⟨_, hrun.cons hstep, by simp [hcalls, hτ], fun x hx e' he' => ?_⟩
    rcases List.mem_cons.mp hx with rfl | hx
    · rw [hexit] at he'
      cases he'
      exact ⟨rfl, rfl, fun call hcall => by simp [hτ, hcall]⟩
    · rw [hsilent x hx] at he'
      cases he'

/-- The calls of the start loop: those of `started` without the two it begins with. -/
def startCalls (τ₀ : SupTrace) : SupTrace := τ₀.drop 2

/-- **A life of the supervisor is a run of the machine**: the start loop, then every turn; the machine takes an `Exit`
exactly where a turn begins. -/
theorem machine_of_lives {rt : Runtime} {b : SupervisorBuilder} {τ₀ : SupTrace}
    {hist : List (Serving Supervisor × Turn Empty Empty)} {p : Serving Supervisor}
    (h : (rt.supervisor ctx).Lives b.build τ₀ hist p) :
    ∃ s₀ start turns, Run (Micro ctx) ⟨b.build, .start 0 b.specs⟩ start ⟨s₀, .idle⟩ ∧
      (∀ x ∈ start, x.2.exit = none) ∧ start.flatMap (·.2.calls) = startCalls τ₀ ∧
      Run (Micro ctx) ⟨s₀, .idle⟩ turns ⟨p.state, .idle⟩ ∧
      turns.flatMap (·.2.calls) = hist.flatMap (·.2.calls) ∧
      ∀ x ∈ turns, ∀ e, x.2.exit = some e →
        ∃ y ∈ hist, y.1.state = x.1.sup ∧ y.2.event = .exit e ∧ ∀ call ∈ x.2.calls, call ∈ y.2.calls := by
  obtain ⟨s₀, hstarted, hserve⟩ := h
  rw [Runtime.supervisor_eq] at hstarted hserve
  obtain ⟨_, _, rfl, _, _, rfl, hloop⟩ := hstarted
  obtain ⟨start, hstart, hcalls₀, hsilent⟩ := silent_of_startEach hloop
  refine ⟨s₀, start, ?_⟩
  induction hserve with
  | nil => exact ⟨[], hstart, hsilent, hcalls₀, .nil, rfl, by simp⟩
  | @snoc hist p turn q _ hturn ih =>
    obtain ⟨turns, hs, hsil, hc₀, hrun, hcalls, hexits⟩ := ih
    obtain ⟨more, hmore, hcalls', hexits'⟩ := machine_of_handles hturn
    refine ⟨turns ++ more, hs, hsil, hc₀, hrun.append hmore, by simp [hcalls, hcalls'], fun x hx e he => ?_⟩
    rcases List.mem_append.mp hx with hx | hx
    · obtain ⟨y, hy, h'⟩ := hexits x hx e he
      exact ⟨y, by simp [hy], h'⟩
    · obtain ⟨hxp, hev, hsub⟩ := hexits' x hx e he
      exact ⟨(p, turn), by simp, by rw [hxp], hev, hsub⟩

/-- After the start loop the machine never returns to it. -/
theorem not_start_of_idle {hist : List (Conf × Act)} (h : Run (Micro ctx) ⟨s, .idle⟩ hist c) :
    ∀ index specs, c.todo ≠ .start index specs := by
  refine h.inv (I := fun c => ∀ index specs, c.todo ≠ .start index specs) (by simp) fun c act c' hc hstep => ?_
  cases hstep with
  | startLocal => exact absurd rfl (hc _ _)
  | startNoWire => exact absurd rfl (hc _ _)
  | startFailed => exact absurd rfl (hc _ _)
  | startRemote => exact absurd rfl (hc _ _)
  | _ => simp

end Refinement

end Supervisor

end Spawned
