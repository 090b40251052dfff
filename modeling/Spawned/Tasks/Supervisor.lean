import Spawned.Supervisor.State

/-!
# The static supervisor of the tasks runtime

Method for method `tasks/supervisor.rs`, as programs over the calls of `SupOp`. Tracing and metrics calls are left
out. A `for` loop over ids or specs is a recursion over the list.
-/

namespace Spawned.Tasks.Supervisor

open Lib

def startChild (s : Supervisor) (spec : ChildSpec) (startIndex : Nat) : SupProg Supervisor := do
  let handle ← ask (.startChild spec)
  pure { s with
    logic := s.logic.registerChild { id := spec.id, restart := spec.restart, startIndex }
      { id := handle.id, alive := true }
    handles := s.handles.insert spec.id handle }

def startChildRemote (ctx : Context) (s : Supervisor) (spec : ChildSpec) (startIndex : Nat) :
    SupProg Supervisor :=
  match remoteSpawnSpecFromInner spec with
  | none => pure s
  | some wireSpec =>
    match spec.placement with
    | .local => pure s
    | .remote placement => do
      let parent := ctx.actorAddress
      match ← ask (.requestSpawnWithRetry spec.id placement parent wireSpec true) with
      | .error _ => pure s
      | .ok address =>
        pure { s with
          logic := s.logic.registerChild { id := spec.id, restart := spec.restart, startIndex }
            { id := address.actorId, alive := true }
          remoteHandles := s.remoteHandles.insert spec.id { address, parent }
          remoteActorToId := s.remoteActorToId.insert address.actorId spec.id
          remoteSpawnMeta := s.remoteSpawnMeta.insert spec.id { spec := wireSpec, placement, link := true } }

def restartRemoteChild (ctx : Context) (s : Supervisor) (childId : String) : SupProg Supervisor :=
  match s.remoteSpawnMeta childId with
  | none => pure s
  | some spawned => do
    let s := { s with
      remoteHandles := s.remoteHandles.remove childId
      remoteActorToId := s.remoteActorToId.retain (fun _ id => id != childId) }
    let parent := ctx.actorAddress
    match ← ask (.requestSpawnWithRetry childId spawned.placement parent spawned.spec spawned.link) with
    | .error _ =>
      pure { s with
        logic := s.logic.removeChildById childId
        remoteSpawnMeta := s.remoteSpawnMeta.remove childId }
    | .ok address =>
      pure { s with
        logic := s.logic.replaceChildHandle childId { id := address.actorId, alive := true }
        remoteHandles := s.remoteHandles.insert childId { address, parent }
        remoteActorToId := s.remoteActorToId.insert address.actorId childId }

def restartChild (s : Supervisor) (childId : String) : SupProg Supervisor :=
  match s.findSpec childId with
  | none => pure s
  | some spec => do
    let handle ← ask (.startChild spec)
    pure { s with
      logic := s.logic.replaceChildHandle childId { id := handle.id, alive := true }
      handles := s.handles.insert childId handle }

def terminateChildren (s : Supervisor) : List String → SupProg Supervisor
  | [] => pure s
  | id :: ids => do
    let shutdown := s.shutdownFor id
    match s.remoteHandles id with
    | some remote =>
      if s.logic.isChildAlive id then
        -- the outcome of the wait is only logged: the child is marked dead on an error too
        let _ ← ask (.shutdownRemoteAndWait remote shutdown)
        terminateChildren { s with logic := s.logic.markChildDead remote.address.actorId } ids
      else
        terminateChildren s ids
    | none =>
      match s.handles id with
      | some handle =>
        let _ ← shutdownChildAsync handle shutdown
        terminateChildren { s with logic := s.logic.markChildDead handle.id } ids
      | none => terminateChildren s ids

def restartChildWithBackoff (ctx : Context) (s : Supervisor) (childId : String) : SupProg Supervisor := do
  let backoff := s.backoffFor childId
  let (delay, logic) := s.logic.backoffDelay childId backoff
  let s := { s with logic }
  if delay ≠ 0 then
    ask (.sleep delay)
  if s.remoteSpawnMeta.containsKey childId then
    restartRemoteChild ctx s childId
  else
    restartChild s childId

/-- The restart loop of a completed batch. -/
def restartEach (ctx : Context) (s : Supervisor) : List String → SupProg Supervisor
  | [] => pure s
  | id :: ids => do
    let s ← restartChildWithBackoff ctx s id
    restartEach ctx s ids

def maybeCompleteBatchRestart (ctx : Context) (s : Supervisor) : SupProg Supervisor :=
  if !s.logic.pendingBatchRestartComplete then pure s
  else
    match s.logic.takePendingRestartIds with
    | (none, logic) => pure { s with logic }
    | (some ids, logic) => do
      let s := { s with logic }
      let (remoteIds, localIds) := ids.partition (fun id => s.remoteSpawnMeta.containsKey id)
      let s ← restartEach ctx s remoteIds
      restartEach ctx s localIds

def handleExit (ctx : Context) (s : Supervisor) (exit : Exit) : SupProg Supervisor :=
  if s.logic.suppressRestarts then
    maybeCompleteBatchRestart ctx { s with logic := s.logic.noteExitDuringBatch exit.from.actorId }
  else do
    let now ← ask .now
    match s.logic.onChildExit exit.from.actorId exit.reason now with
    | (.ignore, logic) => pure { s with logic }
    | (.restartOne id, logic) => restartChildWithBackoff ctx { s with logic } id
    | (.terminateBatch ids, logic) => do
      let s ← terminateChildren { s with logic } ids
      maybeCompleteBatchRestart ctx s
    | (.meltdown, logic) => do
      ask .stop
      pure { s with logic }

/-- The start loop of `started`: the specs from position `index` on. -/
def startEach (ctx : Context) (s : Supervisor) (index : Nat) : List ChildSpec → SupProg Supervisor
  | [] => pure s
  | spec :: specs => do
    let s ← if spec.isRemote then startChildRemote ctx s spec index else startChild s spec index
    startEach ctx s (index + 1) specs

def started (ctx : Context) (s : Supervisor) : SupProg Supervisor := do
  ask (.trapExit true)
  ask .registerSupervisionActor
  startEach ctx s 0 s.specs

def exitReceived (ctx : Context) (s : Supervisor) (exit : Exit) : SupProg Supervisor := handleExit ctx s exit

/-- The shutdown loop of `stopped`. -/
def shutdownEach (s : Supervisor) : List String → SupProg Unit
  | [] => pure ()
  | id :: ids => do
    let shutdown := s.shutdownFor id
    if let some handle := s.handles id then
      let _ ← shutdownChildAsync handle shutdown
    if let some remote := s.remoteHandles id then
      let _ ← ask (.shutdownRemoteAndWait remote shutdown)
    shutdownEach s ids

def stopped (s : Supervisor) : SupProg Supervisor := do
  let s := { s with logic := s.logic.setSuppressRestarts true }
  shutdownEach s s.logic.shutdownOrder
  pure { s with
    handles := Table.empty
    remoteHandles := Table.empty
    remoteSpawnMeta := Table.empty
    remoteActorToId := Table.empty }

end Spawned.Tasks.Supervisor
