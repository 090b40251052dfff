import Spawned.Cluster.Wire
import Spawned.Lib.Calls
import Spawned.Lib.Run

/-!
# The TCP listener

A thread accepts connections, and each connection has a thread of its own that serves it until a call on its stream, a
frame or a hook fails. A hook that panics ends that thread as an error does, and one that does not return is a thread that
takes no further step.

* `Connection` : the stream of one connection, frame by frame, and where the thread that serves it is. Frames carry a
  mark of who wrote them, which no code reads;
* `answerFrame` : what the loop of `serve_connection` does with a frame;
* `Connection.serve` : one call of `serve_connection` on its stream, and `Served`, what such a call can do;
* `Listener.Step` : the accept loop, any number of connections, and any peers at their other ends;
* `listener_contains_failures` : a connection ends through a failed call of its own thread only, and the accept loop
  ends on shutdown only.
-/

namespace Spawned.Tcp

open Lib

/-- `MAX_FRAME_SIZE`. -/
def maxFrameSize : Nat := 16 * 1024 * 1024

/-- The frame as `write_frame` takes it, when the stream does. -/
def checkFrame (body : Bytes) : Except TransportError Unit :=
  if body.length > maxFrameSize then .error (.protocol ("frame too large: " ++ toString body.length ++ " bytes"))
  else .ok ()

/-- A frame that is written is as it was encoded. -/
theorem bind_checkFrame_ok {bytes : Except TransportError Bytes} {frame : Bytes}
    (h : (bytes.bind fun body => (checkFrame body).map fun _ => body) = .ok frame) : bytes = .ok frame := by
  obtain ⟨body, rfl, hbody⟩ := except_bind_eq_ok.mp h
  cases hcheck : checkFrame body with
  | error err =>
    rw [hcheck] at hbody
    cases hbody
  | ok _ =>
    rw [hcheck] at hbody
    cases hbody
    rfl

/-- What a frame to the peer is: a part of the greeting, or the answer to a frame of the peer. -/
inductive Origin (T : Type)
  | ack
  | registrySnapshot
  | pgSnapshot
  | reply (mark : T)
deriving DecidableEq

/-- Where `serve_connection` is. -/
inductive ServePc (T : Type)
  | readHandshake
  | writeAck
  | writeRegistry
  | writePg
  | serving
  | reply (bytes : Bytes) (mark : T)
  | ended (err : TransportError)
deriving DecidableEq

/-- A connection: the frames of the peer not yet read, with the marks of those who wrote them, and the frames written to
the peer and not yet read there. -/
structure Connection (T : Type) where
  inbound : List (Bytes × T) := []
  outbound : List (Bytes × Origin T) := []
  pc : ServePc T := .readHandshake

/-- One frame in the loop of `serve_connection`: the bytes to write back, if any. -/
def answerFrame (codec : Codec) (hooks : Hooks) (frame : Bytes) : Except TransportError (Option Bytes) := do
  match ← codec.decodeClusterFrame frame with
  | .registry event =>
    hooks.applyRegistryEvent event
    .ok none
  | .pg event =>
    hooks.applyPgEvent event
    .ok none
  | .actor envelope =>
    let reply ← hooks.dispatch envelope
    if envelope.correlationId ≠ 0 then
      let bytes ← codec.encodeReply ⟨envelope.correlationId, reply.getD []⟩
      .ok (some bytes)
    else .ok none
  | .supervision envelope =>
    match ← hooks.applySupervision codec envelope with
    | some reply =>
      let bytes ← codec.encodeSupervision reply
      .ok (some bytes)
    | none => .ok none

namespace Connection

variable {T : Type}

/-- A write of `serve_connection`, and where it goes on. -/
def write (c : Connection T) (bytes : Except TransportError Bytes) (origin : Origin T) (pc : ServePc T) :
    Connection T :=
  match bytes.bind fun bytes => (checkFrame bytes).map fun _ => bytes with
  | .ok bytes => { c with outbound := c.outbound ++ [(bytes, origin)], pc }
  | .error err => { c with pc := .ended err }

/-- The handshake of the peer. -/
def greet (codec : Codec) (c : Connection T) (frame : Bytes) : Connection T :=
  match codec.decodeHandshake frame with
  | .error err => { c with pc := .ended err }
  | .ok peer =>
    if peer.version ≠ protocolVersion then
      { c with pc := .ended (.protocol ("unsupported protocol version " ++ toString peer.version)) }
    else { c with pc := .writeAck }

/-- A frame of the peer after the handshake. -/
def take (codec : Codec) (hooks : Hooks) (c : Connection T) (frame : Bytes) (mark : T) : Connection T :=
  match answerFrame codec hooks frame with
  | .error err => { c with pc := .ended err }
  | .ok none => c
  | .ok (some bytes) => { c with pc := .reply bytes mark }

/-- One call of `serve_connection` on its stream, on node `node`. The stream may fail at any call; a read without a frame
waits. -/
def serve (codec : Codec) (node : NodeId) (hooks : Hooks) (fault : Option TransportError) (c : Connection T) :
    Option (Connection T) :=
  match c.pc, fault with
  | .ended _, _ => none
  | _, some err => some { c with pc := .ended err }
  | .readHandshake, none =>
    match c.inbound with
    | [] => none
    | (frame, _) :: rest => some ({ c with inbound := rest }.greet codec frame)
  | .writeAck, none => some (c.write (codec.encodeHandshake (.own node)) .ack .writeRegistry)
  | .writeRegistry, none =>
    some (c.write (codec.encodeRegistryEvent hooks.registrySnapshotEvent) .registrySnapshot .writePg)
  | .writePg, none => some (c.write (codec.encodePgEvent hooks.pgSnapshotEvent) .pgSnapshot .serving)
  | .serving, none =>
    match c.inbound with
    | [] => none
    | (frame, mark) :: rest => some ({ c with inbound := rest }.take codec hooks frame mark)
  | .reply bytes mark, none => some (c.write (.ok bytes) (.reply mark) .serving)

def Ended (c : Connection T) : Prop := ∃ err, c.pc = .ended err

/-- A write of `serve_connection` at `pc`, what it is, and where it goes on. -/
inductive Writes : ServePc T → Origin T → ServePc T → Prop
  | ack : Writes .writeAck .ack .writeRegistry
  | registrySnapshot : Writes .writeRegistry .registrySnapshot .writePg
  | pgSnapshot : Writes .writePg .pgSnapshot .serving
  | reply (bytes : Bytes) (mark : T) : Writes (.reply bytes mark) (.reply mark) .serving

/-- What one call of `serve_connection` on its stream does: it fails, or it reads the handshake, writes a frame, or takes a
frame of the peer, with or without an answer. -/
inductive Served (codec : Codec) (hooks : Hooks) (c : Connection T) : Option TransportError → Connection T → Prop
  | failed (fault : Option TransportError) (inbound : List (Bytes × T)) (err : TransportError) :
      Served codec hooks c fault { c with inbound, pc := .ended err }
  | greeted {x : Bytes × T} {rest : List (Bytes × T)} (hpc : c.pc = .readHandshake) (hin : c.inbound = x :: rest) :
      Served codec hooks c none { c with inbound := rest, pc := .writeAck }
  | wrote {bytes : Bytes} {origin : Origin T} {pc : ServePc T} (hpc : Writes c.pc origin pc)
      (hbytes : ∀ body mark, c.pc = .reply body mark → bytes = body) :
      Served codec hooks c none { c with outbound := c.outbound ++ [(bytes, origin)], pc }
  | took {frame : Bytes} {mark : T} {rest : List (Bytes × T)} (hpc : c.pc = .serving)
      (hin : c.inbound = (frame, mark) :: rest) (hanswer : answerFrame codec hooks frame = .ok none) :
      Served codec hooks c none { c with inbound := rest }
  | answers {frame bytes : Bytes} {mark : T} {rest : List (Bytes × T)} (hpc : c.pc = .serving)
      (hin : c.inbound = (frame, mark) :: rest) (hanswer : answerFrame codec hooks frame = .ok (some bytes)) :
      Served codec hooks c none { c with inbound := rest, pc := .reply bytes mark }

variable {codec : Codec} {node : NodeId} {hooks : Hooks} {fault : Option TransportError} {c c' : Connection T}

theorem write_served {bytes : Except TransportError Bytes} {origin : Origin T} {pc : ServePc T}
    (hpc : Writes c.pc origin pc) (hbytes : ∀ body mark, c.pc = .reply body mark → bytes = .ok body) :
    Served codec hooks c none (c.write bytes origin pc) := by
  unfold write
  cases hwrite : bytes.bind fun body => (checkFrame body).map fun _ => body with
  | error err => exact .failed none c.inbound err
  | ok frame =>
    refine .wrote hpc fun body mark hreply => ?_
    have hframe := (hbytes body mark hreply).symm.trans (bind_checkFrame_ok hwrite)
    cases hframe
    rfl

theorem serve_served (h : c.serve codec node hooks fault = some c') : Served codec hooks c fault c' := by
  unfold serve at h
  split at h
  · cases h
  · cases h
    exact .failed _ c.inbound _
  · -- the handshake
    rename_i hpc
    cases hin : c.inbound with
    | nil => simp [hin] at h
    | cons x rest =>
      rw [hin] at h
      cases h
      unfold greet
      split
      · exact .failed none rest _
      · split_ifs
        · exact .failed none rest _
        · exact .greeted hpc hin
  · rename_i hpc
    cases h
    refine write_served ?_ (by simp [hpc])
    rw [hpc]
    exact .ack
  · rename_i hpc
    cases h
    refine write_served ?_ (by simp [hpc])
    rw [hpc]
    exact .registrySnapshot
  · rename_i hpc
    cases h
    refine write_served ?_ (by simp [hpc])
    rw [hpc]
    exact .pgSnapshot
  · -- a frame of the peer
    rename_i hpc
    cases hin : c.inbound with
    | nil => simp [hin] at h
    | cons x rest =>
      obtain ⟨frame, mark⟩ := x
      rw [hin] at h
      cases h
      unfold take
      split
      · exact .failed none rest _
      · exact .took hpc hin (by assumption)
      · exact .answers hpc hin (by assumption)
  · rename_i hpc
    cases h
    refine write_served ?_ (by simp [hpc])
    rw [hpc]
    exact .reply _ _

end Connection

/-! ## The accept loop -/

/-- Where `accept_loop` is. -/
inductive AcceptPc
  | check
  | accept
  | ended
deriving DecidableEq, Repr

/-- How `accept` ends. -/
inductive Accepted
  | stream
  | wouldBlock
  | error
deriving DecidableEq, Repr

/-- The listener with its connections; the marks are not used here. -/
structure Listener where
  pc : AcceptPc := .check
  shutdown : Bool := false
  connections : List (Connection Unit) := []

inductive Act
  | requestShutdown
  | check
  | accept (result : Accepted)
  /-- a frame of a peer arrives -/
  | arrive (i : Nat) (frame : Bytes)
  /-- the thread of a connection makes a call on its stream -/
  | serve (i : Nat) (hooks : Hooks) (fault : Option TransportError)

def Listener.next (codec : Codec) (node : NodeId) (s : Listener) : Act → Option Listener
  | .requestShutdown => some { s with shutdown := true }
  | .check =>
    if s.pc = .check then some { s with pc := if s.shutdown then .ended else .accept } else none
  | .accept result =>
    if s.pc = .accept then
      match result with
      | .stream => some { s with connections := s.connections ++ [{}], pc := .check }
      | .wouldBlock => some { s with pc := .check }
      | .error => some { s with pc := if s.shutdown then .ended else .check }
    else none
  | .arrive i frame =>
    s.connections[i]?.map fun c =>
      { s with connections := s.connections.set i { c with inbound := c.inbound ++ [(frame, ())] } }
  | .serve i hooks fault =>
    (s.connections[i]?.bind (·.serve codec node hooks fault)).map fun c =>
      { s with connections := s.connections.set i c }

def Listener.Step (codec : Codec) (node : NodeId) (s : Listener) (a : Act) (s' : Listener) : Prop :=
  s.next codec node a = some s'

/-- In this step the call of connection `j`'s own thread failed: on its stream, in a hook, or for what a frame holds. -/
def FailsAt (codec : Codec) (node : NodeId) (j : Nat) (s : Listener) (a : Act) : Prop :=
  ∃ hooks fault c c', a = .serve j hooks fault ∧ s.connections[j]? = some c ∧
    c.serve codec node hooks fault = some c' ∧ ¬c.Ended ∧ c'.Ended

variable {codec : Codec} {node : NodeId} {s s' : Listener} {a : Act}

/-- What a step does to one connection: nothing, it is accepted, a frame more from its peer, or a call of its own
thread. -/
theorem Listener.Step.connection (h : Listener.Step codec node s a s') {j : Nat} {c' : Connection Unit}
    (hj : s'.connections[j]? = some c') :
    s.connections[j]? = some c' ∨ c' = {} ∨
      (∃ c frame, s.connections[j]? = some c ∧ c' = { c with inbound := c.inbound ++ [(frame, ())] }) ∨
      ∃ hooks fault c, a = .serve j hooks fault ∧ s.connections[j]? = some c ∧
        c.serve codec node hooks fault = some c' := by
  unfold Listener.Step at h
  cases a with
  | requestShutdown =>
    cases h
    exact Or.inl hj
  | check =>
    obtain ⟨-, hs'⟩ := Option.ite_none_right_eq_some.mp h
    cases hs'
    exact Or.inl hj
  | accept result =>
    obtain ⟨-, hs'⟩ := Option.ite_none_right_eq_some.mp h
    cases result with
    | stream =>
      cases hs'
      rcases getElem?_snoc_cases hj with hold | ⟨-, hnew⟩
      · exact Or.inl hold
      · exact Or.inr (Or.inl hnew)
    | wouldBlock =>
      cases hs'
      exact Or.inl hj
    | error =>
      cases hs'
      exact Or.inl hj
  | arrive i frame =>
    obtain ⟨c, hc, rfl⟩ := Option.map_eq_some_iff.mp h
    rcases getElem?_set_cases hc hj with ⟨rfl, hc'⟩ | ⟨-, hc'⟩
    · exact Or.inr (Or.inr (Or.inl ⟨c, frame, hc, hc'⟩))
    · exact Or.inl hc'
  | serve i hooks fault =>
    obtain ⟨c₁, hc₁, rfl⟩ := Option.map_eq_some_iff.mp h
    obtain ⟨c, hc, hserve⟩ := Option.bind_eq_some_iff.mp hc₁
    rcases getElem?_set_cases hc hj with ⟨rfl, rfl⟩ | ⟨-, hc'⟩
    · exact Or.inr (Or.inr (Or.inr ⟨hooks, fault, c, rfl, hc, hserve⟩))
    · exact Or.inl hc'

/-- The accept loop ends on shutdown only, and the flag stays. -/
theorem Listener.Step.accepts (h : Listener.Step codec node s a s') (hs : s.pc = .ended → s.shutdown = true) :
    s'.pc = .ended → s'.shutdown = true := by
  unfold Listener.Step at h
  cases a with
  | requestShutdown =>
    cases h
    exact fun _ => rfl
  | check =>
    obtain ⟨-, hs'⟩ := Option.ite_none_right_eq_some.mp h
    cases hs'
    by_cases hdown : s.shutdown = true
    · exact fun _ => hdown
    · simp [hdown]
  | accept result =>
    obtain ⟨-, hs'⟩ := Option.ite_none_right_eq_some.mp h
    cases result with
    | stream => cases hs'; exact fun hend => (by cases hend)
    | wouldBlock => cases hs'; exact fun hend => (by cases hend)
    | error =>
      cases hs'
      by_cases hdown : s.shutdown = true
      · exact fun _ => hdown
      · simp [hdown]
  | arrive i frame =>
    obtain ⟨c, -, rfl⟩ := Option.map_eq_some_iff.mp h
    exact hs
  | serve i hooks fault =>
    obtain ⟨c, -, rfl⟩ := Option.map_eq_some_iff.mp h
    exact hs

/-- In every run a connection that has ended did so by a failed call of its own thread, and the accept loop has ended on
shutdown only. -/
theorem listener_contains_failures {τ : List (Listener × Act)} (h : Run (Listener.Step codec node) {} τ s) :
    (s.pc = .ended → s.shutdown = true) ∧
      ∀ j c, s.connections[j]? = some c → c.Ended → ∃ x ∈ τ, FailsAt codec node j x.1 x.2 := by
  refine h.inv_history (I := fun τ s => (s.pc = .ended → s.shutdown = true) ∧
    ∀ j c, s.connections[j]? = some c → c.Ended → ∃ x ∈ τ, FailsAt codec node j x.1 x.2) ⟨by simp, by simp⟩ ?_
  rintro τ s a s' ⟨haccepts, hfails⟩ hstep
  refine ⟨hstep.accepts haccepts, fun j c' hj hended => ?_⟩
  rw [exists_mem_snoc]
  rcases hstep.connection hj with hj | rfl | ⟨c, frame, hc, rfl⟩ | ⟨hooks, fault, c, rfl, hc, hserve⟩
  · exact Or.inl (hfails j c' hj hended)
  · obtain ⟨err, herr⟩ := hended
    cases herr
  · exact Or.inl (hfails j c hc hended)
  · by_cases hbefore : c.Ended
    · exact Or.inl (hfails j c hc hbefore)
    · exact Or.inr ⟨hooks, fault, c, c', rfl, hc, hserve, hbefore, hended⟩

end Spawned.Tcp
