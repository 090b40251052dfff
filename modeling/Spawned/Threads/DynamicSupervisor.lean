import Spawned.Supervisor.Dynamic

/-!
# The dynamic supervisor of the threads runtime

Method for method `threads/dynamic_supervisor.rs`. A method with a reply returns it beside the new state.
-/

namespace Spawned.Threads.DynamicSupervisor

open Lib

def cleanupChild (s : DynamicSupervisor) (childId : String) : SupProg DynamicSupervisor := do
  let s ← match s.nameOf childId with
    | some name => do
      ask (.unregister name)
      pure { s with regNames := s.regNames.erase name }
    | none => pure s
  let s := match s.handles childId with
    | some handle =>
      { s with handles := s.handles.remove childId, actorToId := s.actorToId.remove handle.id }
    | none => s
  pure { s with
    remoteSpawnMeta := s.remoteSpawnMeta.remove childId
    specs := s.specs.remove childId
    logic := s.logic.removeChildById childId }

def startChild (s : DynamicSupervisor) (spec : ChildSpec) (regName : Option String) :
    SupProg (DynamicSupervisor × Except DynamicSupervisorError ChildHandle) :=
  if s.stopping then pure (s, .error .supervisorStopping)
  else if s.atCapacity then pure (s, .error .maxChildrenExceeded)
  else
    let s := { s with idCounter := s.idCounter + 1 }
    let childId := instanceId spec.id s.idCounter
    if s.logic.hasChildId childId then pure (s, .error (.duplicateChildId childId))
    else do
      let startIndex := s.logic.nextStartIndex
      let handle ← ask (.startChild spec)
      let s := { s with
        logic := s.logic.registerChild { id := childId, restart := spec.restart, startIndex }
          { id := handle.id, alive := true }
        specs := s.specs.insert childId spec
        handles := s.handles.insert childId handle
        actorToId := s.actorToId.insert handle.id childId }
      match regName with
      | none => pure (s, .ok handle)
      | some name =>
        match ← ask (.register name handle) with
        | .error err => do
          let s ← cleanupChild s childId
          pure (s, .error (.registry err.toString))
        | .ok _ => pure ({ s with regNames := s.regNames.insert name childId }, .ok handle)

def startChildRemote (ctx : Context) (s : DynamicSupervisor) (spec : RemoteSpawnSpec) (placement : NodeId)
    (link : Bool) : SupProg (DynamicSupervisor × Except DynamicSupervisorError RemoteChildHandle) :=
  if s.stopping then pure (s, .error .supervisorStopping)
  else if s.atCapacity then pure (s, .error .maxChildrenExceeded)
  else
    let s := { s with idCounter := s.idCounter + 1 }
    let childId := instanceId "remote" s.idCounter
    if s.logic.hasChildId childId then pure (s, .error (.duplicateChildId childId))
    else do
      match ← ask (.requestSpawnWithRetry childId placement ctx.actorAddress spec link) with
      | .error e => pure (s, .error (.remoteSpawn e.toString))
      | .ok address =>
        let remote : RemoteChildHandle := { address, parent := ctx.actorAddress }
        let startIndex := s.logic.nextStartIndex
        pure ({ s with
          logic := s.logic.registerChild { id := childId, restart := .permanent, startIndex }
            { id := address.actorId, alive := true }
          remoteHandles := s.remoteHandles.insert childId remote
          remoteActorToId := s.remoteActorToId.insert address.actorId childId
          remoteSpawnMeta := s.remoteSpawnMeta.insert childId { spec, placement, link } }, .ok remote)

def restartRemoteChild (ctx : Context) (s : DynamicSupervisor) (childId : String) : SupProg DynamicSupervisor :=
  match s.remoteSpawnMeta childId with
  | none => pure s
  | some spawned => do
    let s := { s with
      remoteHandles := s.remoteHandles.remove childId
      remoteActorToId := s.remoteActorToId.retain (fun _ id => id != childId) }
    let parent := ctx.actorAddress
    match ← ask (.requestSpawnWithRetry childId spawned.placement parent spawned.spec spawned.link) with
    | .error _ => cleanupChild s childId
    | .ok address =>
      pure { s with
        logic := s.logic.replaceChildHandle childId { id := address.actorId, alive := true }
        remoteHandles := s.remoteHandles.insert childId { address, parent }
        remoteActorToId := s.remoteActorToId.insert address.actorId childId }

def restartChild (s : DynamicSupervisor) (childId : String) : SupProg DynamicSupervisor :=
  match s.specs childId with
  | none => pure s
  | some spec => do
    let handle ← ask (.startChild spec)
    let s := match s.handles childId with
      | some old => { s with actorToId := s.actorToId.remove old.id }
      | none => s
    pure { s with
      logic := s.logic.replaceChildHandle childId { id := handle.id, alive := true }
      handles := s.handles.insert childId handle
      actorToId := s.actorToId.insert handle.id childId }

/-- The local branch of `terminate_child_by_actor`. -/
def terminateLocal (s : DynamicSupervisor) (actorId : ActorId) :
    SupProg (DynamicSupervisor × Except DynamicSupervisorError Unit) :=
  match s.actorToId actorId with
  | none => pure (s, .error (.childNotFound actorId))
  | some childId =>
    let shutdown := s.shutdownFor childId
    match s.handles childId with
    | none => pure (s, .error (.childNotFound actorId))
    | some handle => do
      let s := { s with logic := s.logic.removeChildById childId }
      let _ ← shutdownChildBlocking handle shutdown
      let s ← cleanupChild s childId
      pure (s, .ok ())

def terminateChildByActor (s : DynamicSupervisor) (actorId : ActorId) :
    SupProg (DynamicSupervisor × Except DynamicSupervisorError Unit) :=
  match s.remoteActorToId actorId with
  | none => terminateLocal s actorId
  | some childId =>
    match s.remoteHandles childId with
    | none => terminateLocal s actorId
    | some remote => do
      -- the handle is taken out of the table before the wait
      let s := { s with remoteHandles := s.remoteHandles.remove childId }
      match ← ask (.shutdownRemoteAndWait remote (s.shutdownFor childId)) with
      | .error e => pure (s, .error (.remoteSpawn e.toString))
      | .ok _ =>
        pure ({ s with
          remoteActorToId := s.remoteActorToId.remove actorId
          remoteSpawnMeta := s.remoteSpawnMeta.remove childId
          logic := s.logic.removeChildById childId }, .ok ())

def restartChildWithBackoff (ctx : Context) (s : DynamicSupervisor) (childId : String) :
    SupProg DynamicSupervisor := do
  let backoff := s.backoffFor childId
  let (delay, logic) := s.logic.backoffDelay childId backoff
  let s := { s with logic }
  if delay ≠ 0 then
    ask (.sleep delay)
  if s.remoteSpawnMeta.containsKey childId then
    restartRemoteChild ctx s childId
  else
    restartChild s childId

def handleExit (ctx : Context) (s : DynamicSupervisor) (exit : Exit) : SupProg DynamicSupervisor := do
  let now ← ask .now
  match s.logic.onChildExit exit.from.actorId exit.reason now with
  | (.ignore, logic) =>
    let s := { s with logic }
    match s.logic.childIdByActorAny exit.from.actorId with
    | some childId => cleanupChild s childId
    | none => pure s
  | (.restartOne id, logic) => restartChildWithBackoff ctx { s with logic } id
  | (.terminateBatch _, logic) | (.meltdown, logic) => do
    ask .stop
    pure { s with logic }

def started (s : DynamicSupervisor) : SupProg DynamicSupervisor := do
  ask (.trapExit true)
  ask .registerSupervisionActor
  pure s

def exitReceived (ctx : Context) (s : DynamicSupervisor) (exit : Exit) : SupProg DynamicSupervisor :=
  handleExit ctx s exit

/-- The shutdown loop of `stopped`. -/
def shutdownEach (s : DynamicSupervisor) : List String → SupProg Unit
  | [] => pure ()
  | id :: ids => do
    let shutdown := s.shutdownFor id
    if let some handle := s.handles id then
      let _ ← shutdownChildBlocking handle shutdown
    if let some remote := s.remoteHandles id then
      let _ ← ask (.shutdownRemoteAndWait remote shutdown)
    shutdownEach s ids

/-- The registry loop of `stopped`. -/
def unregisterEach : List String → SupProg Unit
  | [] => pure ()
  | name :: names => do
    ask (.unregister name)
    unregisterEach names

def stopped (s : DynamicSupervisor) : SupProg DynamicSupervisor := do
  let s := { s with stopping := true, logic := s.logic.setSuppressRestarts true }
  shutdownEach s s.logic.shutdownOrder
  let s := { s with
    specs := Table.empty
    handles := Table.empty
    actorToId := Table.empty
    remoteHandles := Table.empty
    remoteActorToId := Table.empty
    remoteSpawnMeta := Table.empty }
  unregisterEach s.regNames.keys
  pure { s with regNames := ∅ }

/-- The `Handler` implementations. -/
def handle (ctx : Context) (s : DynamicSupervisor) : DynMsg → SupProg (DynamicSupervisor × DynReply)
  | .startChild spec regName => do
    let (s, result) ← startChild s spec regName
    pure (s, .startChild result)
  | .startChildRemote spec placement link => do
    let (s, result) ← startChildRemote ctx s spec placement link
    pure (s, .startChildRemote result)
  | .terminateChild actorId => do
    let (s, result) ← terminateChildByActor s actorId
    pure (s, .terminateChild result)
  | .countChildren => pure (s, .countChildren s.logic.childCount)
  | .whichChildren => pure (s, .whichChildren s.childInfos)

end Spawned.Threads.DynamicSupervisor
