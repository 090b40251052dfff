import Spawned.Cluster.Tcp.Listener

/-!
# The TCP transport

A `TcpTransport` keeps one stream to each peer in a pool under a mutex, which a call holds from the lookup to the end of
its last read. A stream on which a call failed leaves the pool.

* `Call` : the calls, each with its checks, its frame and its reading of a reply;
* `TcpTransport.advance` : one call of such a call on its stream, or on the mutex;
* `TcpTransport.Step` : any calls of any threads, the peers that serve the streams, and failures of the streams and the
  hooks anywhere;
* `writeFrame_cases`, `readFrame_cases` : what a call on a stream does.
-/

namespace Spawned.Tcp

open Lib

/-! ## Calls -/

inductive Call
  | sendEnvelope (envelope : WireEnvelope)
  | requestEnvelope (envelope : WireEnvelope)
  | sendSupervision (node : NodeId) (envelope : SupervisionEnvelope)
  | requestSupervision (node : NodeId) (envelope : SupervisionEnvelope)
  | broadcastRegistry (event : RegistryEvent)
  | broadcastPg (event : PgEvent)
  | syncPeers
deriving DecidableEq

/-- What a call returns. -/
inductive Outcome
  | done
  | payload (bytes : Bytes)
  | supervision (envelope : SupervisionEnvelope)
deriving DecidableEq

namespace Call

/-- Only these read a reply. -/
def isRequest : Call → Bool
  | .requestEnvelope _ | .requestSupervision .. => true
  | _ => false

/-- The nodes whose streams a call takes, in this order; `peers` are the keys of the peer map. -/
def nodes (peers : List NodeId) : Call → List NodeId
  | .sendEnvelope envelope | .requestEnvelope envelope => [envelope.to.node]
  | .sendSupervision node _ | .requestSupervision node _ => [node]
  | .broadcastRegistry _ | .broadcastPg _ | .syncPeers => peers

variable (codec : Codec)

/-- What is checked before the first stream is taken. A broadcast encodes its event once. -/
def check (peers : List NodeId) : Call → Except TransportError Unit
  | .sendEnvelope envelope =>
    if envelope.correlationId ≠ 0 then .error (.protocol "fire-and-forget envelope must use correlation_id 0") else .ok ()
  | .sendSupervision _ envelope => do
    codec.validateEnvelope envelope
    if envelope.correlationId ≠ 0 then .error (.protocol "send_supervision requires correlation_id 0") else .ok ()
  | .requestSupervision _ envelope => codec.validateEnvelope envelope
  | .broadcastRegistry event => if peers = [] then .ok () else (codec.encodeRegistryEvent event).map fun _ => ()
  | .broadcastPg event => if peers = [] then .ok () else (codec.encodePgEvent event).map fun _ => ()
  | .requestEnvelope _ | .syncPeers => .ok ()

/-- The frame a call writes on a stream, if it writes one. -/
def frame : Call → Except TransportError (Option Bytes)
  | .sendEnvelope envelope => (codec.encodeClusterFrame (.actor envelope)).map some
  | .requestEnvelope envelope =>
    if envelope.correlationId = 0 then .error (.protocol "request envelope requires non-zero correlation id")
    else (codec.encodeClusterFrame (.actor envelope)).map some
  | .sendSupervision _ envelope | .requestSupervision _ envelope => (codec.encodeSupervisionFrame envelope).map some
  | .broadcastRegistry event => (codec.encodeRegistryEvent event).map some
  | .broadcastPg event => (codec.encodePgEvent event).map some
  | .syncPeers => .ok none

/-- What a request makes of the frame it reads; no other call reads one. -/
def decodeReply : Call → Bytes → Except TransportError Outcome
  | .requestEnvelope envelope, bytes => do
    let reply ← codec.decodeReplyFrame bytes
    if reply.correlationId ≠ envelope.correlationId then
      .error (.protocol ("correlation mismatch: expected " ++ toString envelope.correlationId ++ ", got " ++
        toString reply.correlationId))
    else .ok (.payload reply.payload)
  | .requestSupervision _ envelope, bytes => (codec.decodeSupervisionReply envelope bytes).map .supervision
  | _, _ => .ok .done

end Call

/-! ## Connecting -/

/-- The calls of `connect` on its stream. -/
inductive Stage
  | writeHandshake
  | readAck
  | writeRegistry
  | writePg
  | readRegistry
  | readPg
deriving DecidableEq, Repr

/-- What follows in `connect`. -/
def Stage.next : Stage → Option Stage
  | .writeHandshake => some .readAck
  | .readAck => some .writeRegistry
  | .writeRegistry => some .writePg
  | .writePg => some .readRegistry
  | .readRegistry => some .readPg
  | .readPg => none

/-- The hooks run while the snapshots are made and applied. -/
def Stage.runsHooks : Stage → Bool
  | .writeHandshake | .readAck => false
  | .writeRegistry | .writePg | .readRegistry | .readPg => true

def checkAck (codec : Codec) (frame : Bytes) : Except TransportError Unit := do
  let ack ← codec.decodeHandshake frame
  if ack.version ≠ protocolVersion then .error (.protocol ("unsupported protocol version " ++ toString ack.version))
  else .ok ()

/-- The first half of `apply_control_plane_snapshots`; a frame that is no registry snapshot is passed over. -/
def applyRegistrySnapshot (codec : Codec) (hooks : Hooks) (frame : Bytes) : Except TransportError Unit :=
  match codec.decodeClusterFrame frame with
  | .ok (.registry (.snapshot entries)) =>
    entries.forM fun (name, address) => hooks.applyRegistryEvent (.register name address)
  | _ => .ok ()

/-- The second half. -/
def applyPgSnapshot (codec : Codec) (hooks : Hooks) (frame : Bytes) : Except TransportError Unit :=
  match codec.decodeClusterFrame frame with
  | .ok (.pg (.snapshot entries)) => entries.forM fun (key, address) => hooks.applyPgEvent (.join key address)
  | _ => .ok ()

/-! ## The transport -/

/-- Who wrote a frame to a peer: `connect`, or the call of this index. -/
inductive Writer
  | connect
  | call (i : Nat)
deriving DecidableEq

/-- A stream to a node, with the thread that serves it there. -/
structure Stream where
  node : NodeId
  conn : Connection Writer := {}

/-- Where a call is. All but `start`, `lock` and the ends of the call are under the mutex; `k` is the index of the stream,
`node` the node it is for, and `rest` the nodes still to come. -/
inductive Pc
  | start
  | lock (node : NodeId) (rest : List NodeId)
  | dial (node : NodeId) (rest : List NodeId)
  | greet (stage : Stage) (k : Nat) (node : NodeId) (rest : List NodeId)
  | write (k : Nat) (node : NodeId) (rest : List NodeId)
  | read (k : Nat) (node : NodeId)
  | returned (result : Except TransportError Outcome)
  | panicked
deriving DecidableEq

/-- On to the next node, or `Ok`. -/
def Pc.visit : List NodeId → Pc
  | [] => .returned (.ok .done)
  | node :: rest => .lock node rest

/-- A call with the frame it took as its reply; the origin of that frame is known to no code. -/
structure Caller where
  call : Call
  pc : Pc := .start
  took : Option (Bytes × Origin Writer) := none
deriving DecidableEq

/-- The pool maps a node to the index of its stream. Streams that left it stay in `streams`: their peers may go on. -/
structure TcpTransport where
  callers : List Caller := []
  holder : Option Nat := none
  poisoned : Bool := false
  connections : NodeId → Option Nat := fun _ => none
  streams : List Stream := []

inductive TcpTransport.Act
  | call (call : Call)
  /-- call `i` goes on; a call on its stream may fail, also by a timeout -/
  | step (i : Nat) (hooks : Hooks) (fault : Option TransportError)
  /-- a hook panics in `connect` -/
  | panic (i : Nat)
  /-- the peer of stream `k` makes a call on it -/
  | serve (k : Nat) (hooks : Hooks) (fault : Option TransportError)

namespace TcpTransport

section Stream

variable (fault : Option TransportError) (s : TcpTransport) (k : Nat)

def put (stream : Stream) : TcpTransport := { s with streams := s.streams.set k stream }

/-- `write_frame` on stream `k`. A write that fails leaves no whole frame on the stream. -/
def writeFrame (writer : Writer) (bytes : Except TransportError Bytes) :
    Option (Except TransportError Unit × TcpTransport) :=
  match bytes.bind fun body => (checkFrame body).map fun _ => body with
  | .error err => some (.error err, s)
  | .ok body =>
    match fault with
    | some err => some (.error err, s)
    | none => s.streams[k]?.map fun stream =>
      (.ok (), s.put k { stream with conn := { stream.conn with inbound := stream.conn.inbound ++ [(body, writer)] } })

/-- `read_frame` on stream `k`; it waits while there is no frame. -/
def readFrame : Option (Except TransportError (Bytes × Origin Writer) × TcpTransport) :=
  match fault with
  | some err => some (.error err, s)
  | none =>
    s.streams[k]?.bind fun stream =>
      match stream.conn.outbound with
      | [] => none
      | frame :: outbound => some (.ok frame, s.put k { stream with conn := { stream.conn with outbound } })

end Stream

/-- The call of `connect` at a stage. -/
def greet (codec : Codec) (localNode : NodeId) (hooks : Hooks) (fault : Option TransportError) (s : TcpTransport)
    (k : Nat) : Stage → Option (Except TransportError Unit × TcpTransport)
  | .writeHandshake => s.writeFrame fault k .connect (codec.encodeHandshake (.own localNode))
  | .readAck => (s.readFrame fault k).map fun (frame, s) => (frame.bind fun frame => checkAck codec frame.1, s)
  | .writeRegistry => s.writeFrame fault k .connect (codec.encodeRegistryEvent hooks.registrySnapshotEvent)
  | .writePg => s.writeFrame fault k .connect (codec.encodePgEvent hooks.pgSnapshotEvent)
  | .readRegistry =>
    (s.readFrame fault k).map fun (frame, s) => (frame.bind fun frame => applyRegistrySnapshot codec hooks frame.1, s)
  | .readPg =>
    (s.readFrame fault k).map fun (frame, s) => (frame.bind fun frame => applyPgSnapshot codec hooks frame.1, s)

section Caller

variable (s : TcpTransport) (i : Nat) (c : Caller)

def move (pc : Pc) : TcpTransport := { s with callers := s.callers.set i { c with pc } }

/-- The guard of the mutex is dropped. -/
def release (pc : Pc) : TcpTransport := { s.move i c pc with holder := none }

/-- The stream on which a call failed is taken out of the pool. -/
def discard (node : NodeId) (err : TransportError) : TcpTransport :=
  { s.release i c (.returned (.error err)) with connections := Function.update s.connections node none }

/-- The start of `with_connection`. -/
def lock (node : NodeId) (rest : List NodeId) : Option TcpTransport :=
  if s.holder.isSome then none
  else if s.poisoned then some (s.move i c (.returned (.error .remoteUnreachable)))
  else
    match s.connections node with
    | some k => some { s.move i c (.write k node rest) with holder := some i }
    | none => some { s.move i c (.dial node rest) with holder := some i }

/-- `TcpStream::connect`. -/
def dial (peers : List NodeId) (fault : Option TransportError) (node : NodeId) (rest : List NodeId) : TcpTransport :=
  if node ∉ peers then s.release i c (.returned (.error .remoteUnreachable))
  else
    match fault with
    | some err => s.release i c (.returned (.error err))
    | none => { s.move i c (.greet .writeHandshake s.streams.length node rest) with streams := s.streams ++ [{ node }] }

/-- After a call of `connect` on the stream, which enters the pool after the last one. -/
def greeted (stage : Stage) (k : Nat) (node : NodeId) (rest : List NodeId) : Except TransportError Unit → TcpTransport
  | .error err => s.release i c (.returned (.error err))
  | .ok _ =>
    match stage.next with
    | some stage => s.move i c (.greet stage k node rest)
    | none => { s.move i c (.write k node rest) with connections := Function.update s.connections node (some k) }

/-- After the write of a call on a pooled stream. -/
def written (k : Nat) (node : NodeId) (rest : List NodeId) : Except TransportError Unit → TcpTransport
  | .error err => s.discard i c node err
  | .ok _ => if c.call.isRequest then s.move i c (.read k node) else s.release i c (.visit rest)

/-- What a call writes on a pooled stream. -/
def use (codec : Codec) (fault : Option TransportError) (k : Nat) (node : NodeId) (rest : List NodeId) :
    Option TcpTransport :=
  match c.call.frame codec with
  | .error err => some (s.discard i c node err)
  | .ok none => some (s.release i c (.visit rest))
  | .ok (some bytes) =>
    (s.writeFrame fault k (.call i) (.ok bytes)).map fun (result, s) => s.written i c k node rest result

/-- After the read of a request. -/
def answered (codec : Codec) (node : NodeId) : Except TransportError (Bytes × Origin Writer) → TcpTransport
  | .error err => s.discard i c node err
  | .ok frame =>
    match c.call.decodeReply codec frame.1 with
    | .error err => s.discard i { c with took := some frame } node err
    | .ok outcome => s.release i { c with took := some frame } (.returned (.ok outcome))

/-- Call `i` goes on by one call on its stream. -/
def advance (codec : Codec) (peers : List NodeId) (localNode : NodeId) (hooks : Hooks) (fault : Option TransportError) :
    Option TcpTransport :=
  match c.pc with
  | .start =>
    match c.call.check codec peers with
    | .error err => some (s.move i c (.returned (.error err)))
    | .ok _ => some (s.move i c (.visit (c.call.nodes peers)))
  | .lock node rest => s.lock i c node rest
  | .dial node rest => some (s.dial i c peers fault node rest)
  | .greet stage k node rest =>
    (s.greet codec localNode hooks fault k stage).map fun (result, s) => s.greeted i c stage k node rest result
  | .write k node rest => s.use i c codec fault k node rest
  | .read k node => (s.readFrame fault k).map fun (result, s) => s.answered i c codec node result
  | .returned _ | .panicked => none

end Caller

/-- A panic under the mutex poisons it. -/
def panic (s : TcpTransport) (i : Nat) (c : Caller) : Option TcpTransport :=
  match c.pc with
  | .greet stage _ _ _ =>
    if stage.runsHooks then some { s.release i c .panicked with poisoned := true } else none
  | _ => none

def next (codec : Codec) (peers : List NodeId) (localNode : NodeId) (s : TcpTransport) : Act → Option TcpTransport
  | .call call => some { s with callers := s.callers ++ [{ call }] }
  | .step i hooks fault => s.callers[i]?.bind fun c => s.advance i c codec peers localNode hooks fault
  | .panic i => s.callers[i]?.bind fun c => s.panic i c
  | .serve k hooks fault =>
    s.streams[k]?.bind fun stream =>
      (stream.conn.serve codec stream.node hooks fault).map fun conn => s.put k { stream with conn }

def Step (codec : Codec) (peers : List NodeId) (localNode : NodeId) (s : TcpTransport) (a : Act) (s' : TcpTransport) :
    Prop :=
  s.next codec peers localNode a = some s'

/-! ## Calls on a stream -/

variable {s s' : TcpTransport} {fault : Option TransportError} {k : Nat}

theorem put_self {stream : Stream} (hk : s.streams[k]? = some stream) : s.put k stream = s := by
  obtain ⟨hlt, hget⟩ := List.getElem?_eq_some_iff.mp hk
  unfold put
  rw [← hget, List.set_getElem_self]

theorem writeFrame_cases {writer : Writer} {bytes : Except TransportError Bytes} {result : Except TransportError Unit}
    (h : s.writeFrame fault k writer bytes = some (result, s')) :
    (s' = s ∧ ∃ err, result = .error err) ∨
      ∃ body stream, bytes = .ok body ∧ s.streams[k]? = some stream ∧ result = .ok () ∧
        s' = s.put k { stream with conn := { stream.conn with inbound := stream.conn.inbound ++ [(body, writer)] } } := by
  unfold writeFrame at h
  cases hbody : bytes.bind fun body => (checkFrame body).map fun _ => body with
  | error err =>
    rw [hbody] at h
    cases h
    exact Or.inl ⟨rfl, err, rfl⟩
  | ok body =>
    rw [hbody] at h
    cases fault with
    | some err =>
      cases h
      exact Or.inl ⟨rfl, err, rfl⟩
    | none =>
      obtain ⟨stream, hk, hs'⟩ := Option.map_eq_some_iff.mp h
      cases hs'
      exact Or.inr ⟨body, stream, bind_checkFrame_ok hbody, hk, rfl, rfl⟩

theorem readFrame_cases {result : Except TransportError (Bytes × Origin Writer)}
    (h : s.readFrame fault k = some (result, s')) :
    (s' = s ∧ ∃ err, result = .error err) ∨
      ∃ stream frame outbound, s.streams[k]? = some stream ∧ stream.conn.outbound = frame :: outbound ∧
        result = .ok frame ∧ s' = s.put k { stream with conn := { stream.conn with outbound } } := by
  unfold readFrame at h
  cases fault with
  | some err =>
    cases h
    exact Or.inl ⟨rfl, err, rfl⟩
  | none =>
    obtain ⟨stream, hk, h⟩ := Option.bind_eq_some_iff.mp h
    cases hout : stream.conn.outbound with
    | nil => simp [hout] at h
    | cons frame outbound =>
      rw [hout] at h
      cases h
      exact Or.inr ⟨stream, frame, outbound, hk, hout, rfl, rfl⟩

end TcpTransport

end Spawned.Tcp
