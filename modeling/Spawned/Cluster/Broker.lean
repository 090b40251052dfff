import Spawned.Supervisor.Ops

/-!
# The supervision broker of a node

Remote spawns arrive at the placement node as `SpawnRequest` envelopes, and the exit of a linked child leaves it as a
`ChildExit`. `SupervisionBrokerInner` is what the broker shares between the threads that apply envelopes and its actor:
the handles of local actors, the remote parent of each child spawned here, the reasons of children that have exited, and
its own handle once its actor has started.

* `applySpawn` : a `SpawnRequest`, as one program whose only call is `spawn_local`;
* `applySpawn_reply` : what it answers, and that it starts a child exactly when it answers `SpawnOk`.
-/

namespace Spawned

open Lib

/-- Errors of the transport; `wire` carries the text of the codec's error. -/
inductive TransportError
  | remoteUnreachable
  | wire (msg : String)
  | io (msg : String)
  | protocol (msg : String)
deriving DecidableEq, Repr

def TransportError.toString : TransportError → String
  | .remoteUnreachable => "remote actor is unreachable"
  | .wire msg => "wire error: " ++ msg
  | .io msg => "io error: " ++ msg
  | .protocol msg => "protocol error: " ++ msg

/-- `impl From<TransportError> for RemoteSpawnError`. -/
def RemoteSpawnError.ofTransport (err : TransportError) : RemoteSpawnError := .transport err.toString

/-- A signal to an actor of another node. -/
inductive SupervisionSignal
  | stop
  | shutdown
  | kill
deriving DecidableEq, Repr

/-- The events of remote supervision; `WireExitReason` mirrors `ExitReason`. -/
inductive SupervisionEvent
  | spawnRequest (parent : ActorAddress) (placement : NodeId) (spec : RemoteSpawnSpec) (link : Bool)
  | spawnOk (child : ActorAddress)
  | spawnErr (error : String)
  | signal (target : ActorAddress) (signal : SupervisionSignal)
  | childExit (child parent : ActorAddress) (reason : ExitReason)
  | down (owner : ActorAddress) (monitorRef : Nat) (child : ActorAddress) (reason : ExitReason)
  | monitor (owner target : ActorAddress) (monitorRef : Nat)
  | demonitor (owner target : ActorAddress) (monitorRef : Nat)
  | link (a b : ActorAddress)
  | unlink (a b : ActorAddress)
deriving DecidableEq

/-- Correlation id 0 is fire-and-forget, any other expects a reply with the same id. -/
structure SupervisionEnvelope where
  correlationId : Nat
  event : SupervisionEvent
deriving DecidableEq

def childExitEnvelope (child parent : ActorAddress) (reason : ExitReason) : SupervisionEnvelope where
  correlationId := 0
  event := .childExit child parent reason

/-- What the broker's threads share. -/
structure SupervisionBrokerInner where
  localNode : NodeId
  handles : Table ActorId ChildHandle := Table.empty
  parents : Table ActorId ActorAddress := Table.empty
  exited : Table ActorId ExitReason := Table.empty
  brokerHandle : Option ChildHandle := none

/-- `Display` of an `ActorId`. -/
def displayActorId (id : ActorId) : String := "ActorId(" ++ toString id ++ ")"

namespace SupervisionBrokerInner

/-- Register a local actor for inbound supervision signals. -/
def register (b : SupervisionBrokerInner) (address : ActorAddress) (handle : ChildHandle) :
    Except TransportError SupervisionBrokerInner :=
  if address.node ≠ b.localNode then
    .error (.protocol ("supervision register: address " ++ address.node ++ " is not local (" ++ b.localNode ++ ")"))
  else if handle.id ≠ address.actorId then
    .error (.protocol ("supervision register: handle id " ++ displayActorId handle.id ++ " does not match address " ++
      displayActorId address.actorId))
  else .ok { b with handles := b.handles.insert address.actorId handle }

/-- The address of a local child passes the checks of `register`. -/
theorem register_own (b : SupervisionBrokerInner) (handle : ChildHandle) :
    b.register ⟨b.localNode, handle.id⟩ handle = .ok { b with handles := b.handles.insert handle.id handle } := by
  simp [register]

def insertParent (b : SupervisionBrokerInner) (child : ActorId) (parent : ActorAddress) : SupervisionBrokerInner :=
  { b with parents := b.parents.insert child parent }

/-! `unregister` removes the handle, then the parent, each under its own lock. -/

def removeHandle (b : SupervisionBrokerInner) (id : ActorId) : SupervisionBrokerInner :=
  { b with handles := b.handles.remove id }

def removeParent (b : SupervisionBrokerInner) (id : ActorId) : SupervisionBrokerInner :=
  { b with parents := b.parents.remove id }

def insertExited (b : SupervisionBrokerInner) (id : ActorId) (reason : ExitReason) : SupervisionBrokerInner :=
  { b with exited := b.exited.insert id reason }

end SupervisionBrokerInner

/-! ## Applying a spawn request -/

/-- The one call `apply_spawn` makes: `remote_spawn::spawn_local`, which starts the actor and links it to the broker. -/
inductive BrokerOp
  | spawnLocal (spec : RemoteSpawnSpec) (link : Bool) (parent : Option ChildHandle)

abbrev BrokerOp.Ans : BrokerOp → Type
  | .spawnLocal _ _ _ => Except String ChildHandle

abbrev BrokerProg := Prog BrokerOp BrokerOp.Ans

abbrev BrokerTrace := Trace BrokerOp BrokerOp.Ans

namespace SupervisionBrokerInner

def applySpawn (b : SupervisionBrokerInner) (correlationId : Nat) (parent : ActorAddress) (placement : NodeId)
    (spec : RemoteSpawnSpec) (link : Bool) :
    BrokerProg (SupervisionBrokerInner × Except TransportError SupervisionEnvelope) :=
  if placement ≠ b.localNode then
    pure (b, .ok ⟨correlationId, .spawnErr ("placement node " ++ placement ++ " does not match local node " ++
      b.localNode)⟩)
  else
    let brokerParent := if link then b.brokerHandle else none
    if link && brokerParent.isNone then
      pure (b, .ok ⟨correlationId, .spawnErr "supervision broker not ready"⟩)
    else do
      match ← Prog.op (.spawnLocal spec link brokerParent) with
      | .ok handle =>
        let child : ActorAddress := ⟨b.localNode, handle.id⟩
        match b.register child handle with
        | .error err => pure (b, .error err)
        | .ok b => pure (b.insertParent child.actorId parent, .ok ⟨correlationId, .spawnOk child⟩)
      | .error error => pure (b, .ok ⟨correlationId, .spawnErr error⟩)

/-- The children the calls have started. -/
def startedBy (τ : BrokerTrace) : List ActorId :=
  τ.filterMap fun call =>
    match call with
    | ⟨.spawnLocal _ _ _, .ok handle⟩ => some handle.id
    | ⟨.spawnLocal _ _ _, .error _⟩ => none

/-- `apply_spawn` always answers, with the correlation id of the request: `SpawnOk` with the child it started and
recorded, or `SpawnErr`, and then it started none. -/
theorem applySpawn_reply {b b' : SupervisionBrokerInner} {correlationId : Nat} {parent : ActorAddress}
    {placement : NodeId} {spec : RemoteSpawnSpec} {link : Bool} {τ : BrokerTrace}
    {reply : Except TransportError SupervisionEnvelope}
    (h : (b.applySpawn correlationId parent placement spec link).Exec τ (b', reply)) :
    (∃ child, reply = .ok ⟨correlationId, .spawnOk child⟩ ∧ child.node = b.localNode ∧
        startedBy τ = [child.actorId] ∧ b'.parents child.actorId = some parent) ∨
      ∃ error, reply = .ok ⟨correlationId, .spawnErr error⟩ ∧ startedBy τ = [] := by
  simp only [applySpawn] at h
  generalize (if link then b.brokerHandle else none) = brokerParent at h
  split_ifs at h with hplace hready
  · obtain ⟨rfl, heq⟩ := h
    cases heq
    exact Or.inr ⟨_, rfl, rfl⟩
  · obtain ⟨rfl, heq⟩ := h
    cases heq
    exact Or.inr ⟨_, rfl, rfl⟩
  · obtain ⟨answer, τ', rfl, h⟩ := h
    cases answer with
    | error error =>
      obtain ⟨rfl, heq⟩ := h
      cases heq
      exact Or.inr ⟨_, rfl, rfl⟩
    | ok handle =>
      simp only [register_own] at h
      obtain ⟨rfl, heq⟩ := h
      cases heq
      exact Or.inl ⟨_, rfl, rfl, rfl, by simp [insertParent]⟩

/-- A request for this node, once `spawn_local` has started the child: the child is registered, its parent recorded, and
`SpawnOk` answered. -/
theorem applySpawn_spawned (b : SupervisionBrokerInner) (correlationId : Nat) (parent : ActorAddress)
    (spec : RemoteSpawnSpec) {link : Bool} (hready : link = true → b.brokerHandle.isSome) (handle : ChildHandle) :
    (b.applySpawn correlationId parent b.localNode spec link).Exec
      [⟨.spawnLocal spec link (if link then b.brokerHandle else none), .ok handle⟩]
      (({ b with handles := b.handles.insert handle.id handle } : SupervisionBrokerInner).insertParent handle.id parent,
        .ok ⟨correlationId, .spawnOk ⟨b.localNode, handle.id⟩⟩) := by
  have hnone : (link && (if link then b.brokerHandle else none).isNone) = false := by
    cases link with
    | false => rfl
    | true => simpa using hready rfl
  simp only [applySpawn, ne_eq, not_true_eq_false, if_false, hnone, Bool.false_eq_true]
  refine Prog.exec_op_bind.mpr ⟨.ok handle, [], rfl, ?_⟩
  simp only [register_own]
  exact ⟨rfl, rfl⟩

end SupervisionBrokerInner

end Spawned
