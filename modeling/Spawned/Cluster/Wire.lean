import Spawned.Cluster.Broker
import Spawned.Cluster.NamedRegistry
import Spawned.Pg.Store

/-!
# Frames between nodes

What the transports have in common: the frames they carry, the hooks of the control plane, and the rules for the
correlation ids of supervision envelopes.

* `Codec` : the serialised form of each kind of frame, which is not modelled;
* `Hooks` : the control plane and the dispatch of a node, as they answer at one moment;
* `snapshotFrames` : the two frames a node sends to a peer it meets;
* `validateEnvelope`, `validateReply` : a supervision reply is accepted for a spawn request with its own id only.
-/

namespace Spawned

abbrev Bytes := List UInt8

/-- `PROTOCOL_VERSION`. -/
def protocolVersion : Nat := 3

/-- `MAX_REMOTE_SPAWN_INIT_BYTES`. -/
def maxRemoteSpawnInitBytes : Nat := 64 * 1024

structure Handshake where
  version : Nat
  node : NodeId
deriving DecidableEq

def Handshake.own (node : NodeId) : Handshake := ⟨protocolVersion, node⟩

/-- A message to an actor; correlation id 0 is fire-and-forget. -/
structure WireEnvelope where
  «to» : ActorAddress
  remoteMsgId : String
  payload : Bytes
  correlationId : Nat
deriving DecidableEq

/-- A frame after the handshake. -/
inductive ClusterFrame
  | actor (envelope : WireEnvelope)
  | registry (event : RegistryEvent)
  | pg (event : PgEvent)
  | supervision (envelope : SupervisionEnvelope)
deriving DecidableEq

/-- The response to a correlated envelope. -/
structure WireReply where
  correlationId : Nat
  payload : Bytes
deriving DecidableEq

/-! ## Serialisation -/

/-- How values of a type are serialised; an error is its text. -/
structure Postcard (α : Type) where
  toAllocvec : α → Except String Bytes
  fromBytes : Bytes → Except String α

/-- What is read back is what was written. -/
def Postcard.RoundTrips {α : Type} (postcard : Postcard α) : Prop :=
  ∀ value bytes, postcard.toAllocvec value = .ok bytes → postcard.fromBytes bytes = .ok value

/-- A serialisation that knows only some values, each with its bytes. -/
def Postcard.ofTable {α : Type} [DecidableEq α] (table : List (α × Bytes)) : Postcard α where
  toAllocvec value := (table.find? (·.1 = value)).elim (.error "unsupported value") fun entry => .ok entry.2
  fromBytes bytes := (table.find? (·.2 = bytes)).elim (.error "unexpected bytes") fun entry => .ok entry.1

theorem Postcard.ofTable_roundTrips {α : Type} [DecidableEq α] {table : List (α × Bytes)}
    (h : ∀ entry ∈ table, table.find? (·.2 = entry.2) = some entry) : (Postcard.ofTable table).RoundTrips := by
  intro value bytes hbytes
  simp only [Postcard.ofTable] at hbytes ⊢
  cases hfind : table.find? (·.1 = value) with
  | none =>
    rw [hfind] at hbytes
    cases hbytes
  | some entry =>
    rw [hfind] at hbytes
    cases hbytes
    have hvalue : entry.1 = value := by simpa using List.find?_some hfind
    rw [h entry (List.mem_of_find?_eq_some hfind), ← hvalue]
    rfl

/-- The serialisation of the frames, and the `Debug` text of an event, which some errors quote. -/
structure Codec where
  handshake : Postcard Handshake
  frame : Postcard ClusterFrame
  reply : Postcard WireReply
  supervision : Postcard SupervisionEnvelope
  debug : SupervisionEvent → String

/-- Why postcard refused, as a `WireError`. -/
def encodeError (msg : String) : TransportError := .wire ("encode failed: " ++ msg)

def decodeError (msg : String) : TransportError := .wire ("decode failed: " ++ msg)

namespace Codec

variable (codec : Codec)

def encodeHandshake (handshake : Handshake) : Except TransportError Bytes :=
  (codec.handshake.toAllocvec handshake).mapError encodeError

def decodeHandshake (bytes : Bytes) : Except TransportError Handshake :=
  (codec.handshake.fromBytes bytes).mapError decodeError

def encodeClusterFrame (frame : ClusterFrame) : Except TransportError Bytes :=
  (codec.frame.toAllocvec frame).mapError encodeError

def decodeClusterFrame (bytes : Bytes) : Except TransportError ClusterFrame :=
  (codec.frame.fromBytes bytes).mapError decodeError

def encodeReply (reply : WireReply) : Except TransportError Bytes :=
  (codec.reply.toAllocvec reply).mapError encodeError

def decodeReplyFrame (bytes : Bytes) : Except TransportError WireReply :=
  (codec.reply.fromBytes bytes).mapError decodeError

/-- A supervision reply is the bare envelope, not a `ClusterFrame`. -/
def encodeSupervision (envelope : SupervisionEnvelope) : Except TransportError Bytes :=
  (codec.supervision.toAllocvec envelope).mapError .protocol

def decodeSupervision (bytes : Bytes) : Except TransportError SupervisionEnvelope :=
  (codec.supervision.fromBytes bytes).mapError .protocol

def encodeRegistryEvent (event : RegistryEvent) : Except TransportError Bytes := codec.encodeClusterFrame (.registry event)

def encodePgEvent (event : PgEvent) : Except TransportError Bytes := codec.encodeClusterFrame (.pg event)

def encodeSupervisionFrame (envelope : SupervisionEnvelope) : Except TransportError Bytes :=
  codec.encodeClusterFrame (.supervision envelope)

end Codec

/-! ## Supervision envelopes -/

/-- Events of the request and reply kind. -/
def requiresCorrelation : SupervisionEvent → Bool
  | .spawnRequest .. | .spawnOk .. | .spawnErr .. => true
  | _ => false

def validateSpawnSpec : RemoteSpawnSpec → Except TransportError Unit
  | .worker _ init =>
    if init.length > maxRemoteSpawnInitBytes then
      .error (.protocol ("remote spawn init too large: " ++ toString init.length ++ " bytes (max " ++
        toString maxRemoteSpawnInitBytes ++ ")"))
    else .ok ()
  | .namedSpec .. => .ok ()

namespace Codec

variable (codec : Codec)

def validateEnvelope (envelope : SupervisionEnvelope) : Except TransportError Unit :=
  let needsCorrelation := requiresCorrelation envelope.event
  if needsCorrelation && envelope.correlationId == 0 then
    .error (.protocol ("supervision event " ++ codec.debug envelope.event ++ " requires non-zero correlation_id"))
  else if !needsCorrelation && envelope.correlationId != 0 then
    .error (.protocol ("supervision event " ++ codec.debug envelope.event ++ " must use correlation_id 0"))
  else
    match envelope.event with
    | .spawnRequest _ _ spec _ => validateSpawnSpec spec
    | _ => .ok ()

/-- The reply of a spawn request is a `SpawnOk` or a `SpawnErr` under its id; no other event has one. -/
def validateReply (request reply : SupervisionEnvelope) : Except TransportError Unit := do
  codec.validateEnvelope reply
  if reply.correlationId ≠ request.correlationId then
    .error (.protocol ("supervision correlation mismatch: expected " ++ toString request.correlationId ++ ", got " ++
      toString reply.correlationId))
  else
    match request.event, reply.event with
    | .spawnRequest .., .spawnOk .. | .spawnRequest .., .spawnErr .. => .ok ()
    | _, _ =>
      .error (.protocol ("invalid supervision reply " ++ codec.debug reply.event ++ " for request " ++
        codec.debug request.event))

def decodeSupervisionReply (request : SupervisionEnvelope) (bytes : Bytes) :
    Except TransportError SupervisionEnvelope := do
  let reply ← codec.decodeSupervision bytes
  codec.validateReply request reply
  pure reply

end Codec

/-! ## The control plane of a node -/

/-- The hooks of the control plane and the inbound dispatch, as they answer at one moment: between two frames anything may
have happened to the stores and the actors behind them. -/
structure Hooks where
  registryInbound : Option (RegistryEvent → Except TransportError Unit) := none
  registrySnapshot : Option (List (String × ActorAddress)) := none
  pgInbound : Option (PgEvent → Except TransportError Unit) := none
  pgSnapshot : Option (List PgEntry) := none
  supervisionInbound : Option (SupervisionEnvelope → Except TransportError (Option SupervisionEnvelope)) := none
  dispatch : WireEnvelope → Except TransportError (Option Bytes)

namespace Hooks

variable (hooks : Hooks)

def applyRegistryEvent (event : RegistryEvent) : Except TransportError Unit :=
  match hooks.registryInbound with
  | some inbound => inbound event
  | none => .ok ()

def applyPgEvent (event : PgEvent) : Except TransportError Unit :=
  match hooks.pgInbound with
  | some inbound => inbound event
  | none => .ok ()

def applySupervision (codec : Codec) (envelope : SupervisionEnvelope) :
    Except TransportError (Option SupervisionEnvelope) := do
  codec.validateEnvelope envelope
  match hooks.supervisionInbound with
  | some inbound => inbound envelope
  | none => pure none

/-- The registry snapshot of a node without the hook is empty. -/
def registrySnapshotEvent : RegistryEvent := .snapshot (hooks.registrySnapshot.getD [])

def pgSnapshotEvent : PgEvent := .snapshot (hooks.pgSnapshot.getD [])

/-- The snapshots of both stores, registry first. -/
def snapshotFrames (codec : Codec) : Except TransportError (List Bytes) := do
  let registry ← codec.encodeRegistryEvent hooks.registrySnapshotEvent
  let pg ← codec.encodePgEvent hooks.pgSnapshotEvent
  pure [registry, pg]

end Hooks

end Spawned
