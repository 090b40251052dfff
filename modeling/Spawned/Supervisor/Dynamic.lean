import Mathlib.Data.List.AList
import Spawned.Supervisor.Ops

/-!
# The state, messages and replies of a dynamic supervisor

As for the static supervisor, the two `DynamicSupervisor` structs have the same fields and share one record. The
registry names are kept as an association list, since `cleanup_child` and `stopped` iterate over them; the other
maps are only looked up.
-/

namespace Spawned

open Lib

/-- Errors returned by dynamic supervisor operations. -/
inductive DynamicSupervisorError
  | maxChildrenExceeded
  | childNotFound (actorId : ActorId)
  | duplicateChildId (id : String)
  | supervisorStopping
  | registry (msg : String)
  | remoteSpawn (msg : String)
deriving DecidableEq, Repr

/-- Metadata of a dynamically supervised child. -/
structure DynamicChildInfo where
  id : String
  actorId : ActorId
  alive : Bool
  restart : RestartType
  shutdown : ShutdownType
deriving DecidableEq, Repr

/-- A unique instance id from a template id and the counter. -/
def instanceId (templateId : String) (counter : Nat) : String := templateId ++ "#" ++ toString counter

structure DynamicSupervisor where
  logic : SupervisorLogic
  specs : Table String ChildSpec
  handles : Table String ChildHandle
  actorToId : Table ActorId String
  regNames : AList (fun _ : String => String)
  idCounter : Nat
  maxChildren : Option Nat
  stopping : Bool
  remoteHandles : Table String RemoteChildHandle
  remoteActorToId : Table ActorId String
  remoteSpawnMeta : Table String RemoteSpawnMeta

/-- What `DynamicSupervisorBuilder` collects. -/
structure DynamicSupervisorBuilder where
  intensity : RestartIntensity := {}
  maxChildren : Option Nat := none

/-- The supervisor `DynamicSupervisorBuilder::start` starts. -/
def DynamicSupervisorBuilder.build (b : DynamicSupervisorBuilder) : DynamicSupervisor where
  logic := SupervisorLogic.new .oneForOne b.intensity
  specs := Table.empty
  handles := Table.empty
  actorToId := Table.empty
  regNames := ∅
  idCounter := 0
  maxChildren := b.maxChildren
  stopping := false
  remoteHandles := Table.empty
  remoteActorToId := Table.empty
  remoteSpawnMeta := Table.empty

namespace DynamicSupervisor

def shutdownFor (s : DynamicSupervisor) (id : String) : ShutdownType :=
  ((s.specs id).map (·.shutdown)).getD .infinity

def backoffFor (s : DynamicSupervisor) (childId : String) : RestartBackoff :=
  ((s.specs childId).map (·.backoff)).getD .none

/-- `max_children` is set and that many children are alive. -/
def atCapacity (s : DynamicSupervisor) : Bool := s.maxChildren.any (fun max => decide (max ≤ s.logic.childCount))

/-- The name under which a child is registered, if any. -/
def nameOf (s : DynamicSupervisor) (childId : String) : Option String :=
  (s.regNames.entries.find? (fun entry => entry.2 == childId)).map (·.1)

/-- Metadata of all registered children. -/
def childInfos (s : DynamicSupervisor) : List DynamicChildInfo :=
  s.logic.children.filterMap fun child => child.handle.map fun slot =>
    { id := child.policy.id, actorId := slot.id, alive := slot.alive, restart := child.policy.restart,
      shutdown := s.shutdownFor child.policy.id }

end DynamicSupervisor

/-- Requests to a dynamic supervisor. -/
inductive DynMsg
  | startChild (spec : ChildSpec) (regName : Option String)
  | terminateChild (actorId : ActorId)
  | startChildRemote (spec : RemoteSpawnSpec) (placement : NodeId) (link : Bool)
  | countChildren
  | whichChildren

/-- Its replies. -/
inductive DynReply
  | startChild (result : Except DynamicSupervisorError ChildHandle)
  | terminateChild (result : Except DynamicSupervisorError Unit)
  | startChildRemote (result : Except DynamicSupervisorError RemoteChildHandle)
  | countChildren (count : Nat)
  | whichChildren (children : List DynamicChildInfo)

end Spawned
