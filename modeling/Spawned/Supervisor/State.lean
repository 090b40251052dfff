import Spawned.Supervisor.Ops

/-!
# The state of a static supervisor

The `Supervisor` structs of the two runtimes have the same fields, so one record serves both; their methods are
modelled apart, in `Tasks.Supervisor` and `Threads.Supervisor`.
-/

namespace Spawned

open Lib

structure Supervisor where
  logic : SupervisorLogic
  specs : List ChildSpec
  handles : Table String ChildHandle
  remoteHandles : Table String RemoteChildHandle
  remoteSpawnMeta : Table String RemoteSpawnMeta
  remoteActorToId : Table ActorId String

/-- What `SupervisorBuilder` collects. -/
structure SupervisorBuilder where
  strategy : SupervisorStrategy := .oneForOne
  intensity : RestartIntensity := {}
  specs : List ChildSpec := []

/-- The supervisor `SupervisorBuilder::start` starts. -/
def SupervisorBuilder.build (b : SupervisorBuilder) : Supervisor where
  logic := SupervisorLogic.new b.strategy b.intensity
  specs := b.specs
  handles := Table.empty
  remoteHandles := Table.empty
  remoteSpawnMeta := Table.empty
  remoteActorToId := Table.empty

namespace Supervisor

/-- `specs.iter().find(|spec| spec.id == id)`. -/
def findSpec (s : Supervisor) (id : String) : Option ChildSpec := s.specs.find? (·.id == id)

/-- The shutdown policy of a child, `Infinity` when it has no spec. -/
def shutdownFor (s : Supervisor) (id : String) : ShutdownType := ((s.findSpec id).map (·.shutdown)).getD .infinity

def backoffFor (s : Supervisor) (childId : String) : RestartBackoff :=
  ((s.findSpec childId).map (·.backoff)).getD .none

end Supervisor

end Spawned
