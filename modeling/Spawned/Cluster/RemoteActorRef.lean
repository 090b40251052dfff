import Spawned.Actor.Request
import Spawned.Cluster.Dispatch

/-!
# References across nodes

A `RemoteActorRef` sends to its own recipient where its address is of this node and it has one, and otherwise hands an
envelope to the transport.

* `NodeProg` : what a node does with its actors and its transport, as a program that makes calls;
* `RemoteActorRef.send`, `requestRaw`, `requestAsync` : the three ways to use a reference;
* `envelope_ok`, `envelope_error` : what is handed to the transport.

The errors of the transport keep no more than that the actor is out of reach. A call that panics, or does not return, is not
answered, and what would follow it is not done.
-/

namespace Spawned

open Lib

/-- `DEFAULT_REQUEST_TIMEOUT`, in seconds. -/
def defaultRequestTimeout : Nat := 5

/-- The calls of a node. -/
inductive NodeOp (V : Type)
  | send (recipient : ActorId) (msg : V)
  /-- `tasks::request` or a `request_with_timeout`, with its wait for the reply, in seconds -/
  | request (recipient : ActorId) (msg : V) (timeout : Nat)
  | requestRaw (recipient : ActorId) (msg : V)
  /-- the wait for the reply to `request_raw`; its sender may be dropped -/
  | recv (recipient : ActorId)
  /-- `CORRELATION.fetch_add(1)` -/
  | nextCorrelationId
  | sendEnvelope (envelope : WireEnvelope)
  | requestEnvelope (envelope : WireEnvelope)

abbrev NodeOp.Ans {V : Type} (R : Type) : NodeOp V → Type
  | .send _ _ | .requestRaw _ _ => Except RequestError Unit
  | .request _ _ _ => Except RequestError R
  | .recv _ => Option R
  | .nextCorrelationId => Nat
  | .sendEnvelope _ => Except TransportError Unit
  | .requestEnvelope _ => Except TransportError Bytes

abbrev NodeProg (V R : Type) := Prog (NodeOp V) (NodeOp.Ans R)

abbrev NodeTrace (V R : Type) := Trace (NodeOp V) (NodeOp.Ans (V := V) R)

structure LocalRecipient where
  runtime : Runtime
  recipient : ActorId
deriving DecidableEq, Repr

/-- What a type of messages and its results are on the wire. -/
structure RemoteMessage (V R : Type) where
  /-- `M::REMOTE_ID` -/
  remoteId : String
  /-- `postcard::to_allocvec` at the type of the messages -/
  toAllocvec : V → Except String Bytes
  /-- `postcard::from_bytes` at the type of the results -/
  fromBytes : Bytes → Except String R

/-- A `RemoteActorRef<M>`. -/
structure RemoteActorRef (V R : Type) extends RemoteMessage V R where
  address : ActorAddress
  /-- `local` -/
  recipient : Option LocalRecipient := none

/-- The reply to a raw request: still to come from an actor of this node, or there. -/
inductive RemoteRequest
  | «local» (recipient : ActorId)
  | remote (payload : Bytes)
deriving DecidableEq, Repr

/-- `map_transport_error`. -/
def mapTransportError : TransportError → RequestError
  | .remoteUnreachable => .remoteUnreachable
  | .wire _ => .remoteUnreachable
  | .io _ => .remoteUnreachable
  | .protocol _ => .remoteUnreachable

/-- `From<WireError> for ActorError`. -/
def ofWireError (_err : WireError) : RequestError := .remoteUnreachable

namespace RemoteActorRef

variable {V R : Type}

def encodePayload (ref : RemoteActorRef V R) (msg : V) : Except WireError Bytes := (ref.toAllocvec msg).mapError .encode

def decodeReply (ref : RemoteActorRef V R) (payload : Bytes) : Except WireError R := (ref.fromBytes payload).mapError .decode

/-- `WireEnvelope::request`; with correlation id 0, `WireEnvelope::fire_and_forget`. -/
def envelope (ref : RemoteActorRef V R) (msg : V) (correlationId : Nat) : Except WireError WireEnvelope :=
  (ref.encodePayload msg).map fun payload =>
    { «to» := ref.address, remoteMsgId := ref.remoteId, payload, correlationId }

/-- The recipient that is used on node `here`, if any. -/
def localOn (ref : RemoteActorRef V R) (here : NodeId) : Option LocalRecipient :=
  if ref.address.node = here then ref.recipient else none

def send (here : NodeId) (ref : RemoteActorRef V R) (msg : V) : NodeProg V R (Except RequestError Unit) :=
  match ref.localOn here with
  | some r => Prog.op (NodeOp.send r.recipient msg)
  | none =>
    match ref.envelope msg 0 with
    | .error err => pure (.error (ofWireError err))
    | .ok envelope => do
      let sent ← Prog.op (NodeOp.sendEnvelope envelope)
      pure (sent.mapError mapTransportError)

/-- The request with its id, through the router. -/
def requestWith (ref : RemoteActorRef V R) (msg : V) (correlationId : Nat) : NodeProg V R (Except RequestError Bytes) :=
  match ref.envelope msg correlationId with
  | .error err => pure (.error (ofWireError err))
  | .ok envelope => do
    let payload ← Prog.op (NodeOp.requestEnvelope envelope)
    pure (payload.mapError mapTransportError)

/-- The part of `request_raw` and `request_async` that goes through the router. -/
def requestRemote (ref : RemoteActorRef V R) (msg : V) : NodeProg V R (Except RequestError Bytes) := do
  let correlationId ← Prog.op NodeOp.nextCorrelationId
  ref.requestWith msg correlationId

def requestRaw (here : NodeId) (ref : RemoteActorRef V R) (msg : V) : NodeProg V R (Except RequestError RemoteRequest) :=
  match ref.localOn here with
  | some r => do
    let requested ← Prog.op (NodeOp.requestRaw r.recipient msg)
    pure (requested.map fun _ => .«local» r.recipient)
  | none => do
    let payload ← ref.requestRemote msg
    pure (payload.map .remote)

/-- A reply that does not decode is out of reach as well. -/
def decoded (ref : RemoteActorRef V R) (payload : Bytes) : Except RequestError R :=
  (ref.decodeReply payload).mapError fun _ => .remoteUnreachable

/-- `RemoteRequest::recv`. -/
def recv (ref : RemoteActorRef V R) : RemoteRequest → NodeProg V R (Except RequestError R)
  | .«local» recipient => do
    let reply ← Prog.op (NodeOp.recv recipient)
    pure (reply.elim (.error (.actor .actorStopped)) .ok)
  | .remote payload => pure (ref.decoded payload)

variable {ref : RemoteActorRef V R} {msg : V} {payload : Bytes}

/-- An envelope that cannot be written is not sent. -/
theorem envelope_error {e : String} (he : ref.toAllocvec msg = .error e) (c : Nat) :
    ref.envelope msg c = .error (.encode e) := by
  rw [envelope, encodePayload, he]
  rfl

theorem envelope_ok (hpayload : ref.toAllocvec msg = .ok payload) (c : Nat) :
    ref.envelope msg c = .ok ⟨ref.address, ref.remoteId, payload, c⟩ := by
  rw [envelope, encodePayload, hpayload]
  rfl

end RemoteActorRef

/-- A reference to the actor of a handler for messages of one byte. -/
def byteRef (remoteId : String) : RemoteActorRef UInt8 UInt8 where
  address := ⟨"n", 1⟩
  remoteId := remoteId
  toAllocvec byte := .ok [byte]
  fromBytes
    | [byte] => .ok byte
    | _ => .error "Hit the end of buffer, expected more data"

end Spawned
