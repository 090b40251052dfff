import Spawned.Cluster.Wire
import Spawned.Lib.Run

/-!
# The libp2p runtime

One thread owns the swarm. It takes commands and swarm events one at a time, keeps the sends to peers it is not connected
to, and remembers for each request that expects a reply whom to answer. The hooks and the dispatch run on that thread, which
has a runtime of one thread: they may return an error, and they may also not return.

* `State` : the loop of `run_swarm_async`, with what the swarm knows of its connections and its requests;
* `handleCommand`, `handleSwarmEvent`, `flushDeferredSends` : what the loop runs, with the error that ends it;
* `State.Step` : one turn of the loop, for every order of commands and events; `Turn` lists what it can be.
-/

namespace Spawned.Libp2p

open Lib

abbrev PeerId := String

abbrev RequestId := Nat

/-- A command to the loop. Its `respond_to` is the channel of the caller, for which the loop draws a number. -/
inductive RuntimeCommand
  | send (peerId : PeerId) (frame : Bytes) (expectReply : Bool)
  | broadcast (frame : Bytes)
  | syncPeer (peerId : PeerId)
deriving DecidableEq

structure DeferredSend where
  peerId : PeerId
  frame : Bytes
  expectReply : Bool
  respondTo : Nat
deriving DecidableEq

/-- The events of the swarm that the loop looks at; all others are `other`. -/
inductive SwarmEvent
  | newListenAddr (address : String)
  | connectionEstablished (peerId : PeerId)
  | connectionClosed (peerId : PeerId)
  | request (peerId : PeerId) (frame : Bytes)
  | response (requestId : RequestId) (response : Bytes)
  | outboundFailure (requestId : RequestId)
  | outgoingConnectionError (peerId : Option PeerId)
  | other
deriving DecidableEq

/-- What a request was sent for. -/
inductive Purpose
  | snapshot
  | broadcast
  | send (respondTo : Nat)
deriving DecidableEq

/-- A request handed to the swarm. -/
structure Request where
  peerId : PeerId
  frame : Bytes
  purpose : Purpose
deriving DecidableEq

/-- How a hook does not return. -/
inductive Stuck
  | panicked
  | blocked
deriving DecidableEq, Repr

/-- Where the loop is: at its top, taking commands, or waiting for an event; or `run_swarm_async` has returned, or its
thread does not come back from a hook. -/
inductive LoopPc
  | top
  | commands
  | select
  | ended (result : Except TransportError Unit)
  | stuck (how : Stuck)

structure State where
  pc : LoopPc := .top
  shutdown : Bool := false
  listenAddrs : List String := []
  /-- the open connections of the swarm with each peer -/
  connections : PeerId → Nat := fun _ => 0
  /-- the requests handed to the swarm, in this order; the place of a request is its id -/
  requests : List Request := []
  /-- the requests without a response or a failure yet -/
  outstanding : List RequestId := []
  /-- those of them that the swarm keeps until it has a connection with their peer -/
  queued : List RequestId := []
  /-- responses handed to the swarm -/
  responses : List Bytes := []
  pending : Table RequestId Nat := Table.empty
  deferred : List DeferredSend := []
  syncedPeers : List PeerId := []
  /-- the number of the next caller -/
  nextCall : Nat := 0
  /-- what was sent on the channels of the callers -/
  completions : List (Nat × Except TransportError Bytes) := []

/-- What the loop was started with. -/
structure Config where
  codec : Codec
  /-- `peer_addrs` -/
  peerAddrs : Table PeerId String
  /-- the keys of `peer_to_node`, in the order of the map -/
  peers : List PeerId

/-- What the loop finds when it calls out of itself: the hooks, and how `Swarm::dial` ends. -/
structure Outside where
  hooks : Hooks
  dial : String → Except String Unit
  /-- the frames whose hook does not return: a message for a full mailbox in `Block` mode waits for room on the thread of
  the loop, or panics on its runtime -/
  stuck : ClusterFrame → Option Stuck := fun _ => none

/-- A node without peers of its own, whose codec knows the empty snapshots only. -/
def Config.bare : Config where
  codec :=
    { handshake := .ofTable []
      frame := .ofTable [(.registry (.snapshot []), [1, 2, 0]), (.pg (.snapshot []), [2, 2, 0])]
      reply := .ofTable []
      supervision := .ofTable []
      debug := fun _ => "" }
  peerAddrs := Table.empty
  peers := []

/-- No hooks of the control plane. -/
def Outside.bare : Outside where
  hooks := { dispatch := fun _ => .ok none }
  dial := fun _ => .ok ()

namespace State

def isConnected (s : State) (peerId : PeerId) : Bool := decide (0 < s.connections peerId)

/-- `send_request` of the swarm. -/
def sendRequest (s : State) (peerId : PeerId) (frame : Bytes) (purpose : Purpose) : State :=
  { s with
    requests := s.requests ++ [⟨peerId, frame, purpose⟩]
    outstanding := s.outstanding ++ [s.requests.length]
    queued := if s.isConnected peerId then s.queued else s.queued ++ [s.requests.length] }

/-- The requests the swarm keeps for a peer, in the order in which they go out. -/
def queuedFor (s : State) (peerId : PeerId) : List Request :=
  (s.queued.filterMap (s.requests[·]?)).filter (·.peerId = peerId)

/-- An answer on the channel of a caller. -/
def complete (s : State) (respondTo : Nat) (result : Except TransportError Bytes) : State :=
  { s with completions := s.completions ++ [(respondTo, result)] }

def dispatchSend (s : State) (send : DeferredSend) : State :=
  let requestId := s.requests.length
  let s := s.sendRequest send.peerId send.frame (.send send.respondTo)
  if send.expectReply then { s with pending := s.pending.insert requestId send.respondTo }
  else s.complete send.respondTo (.ok [])

/-- One turn of the loop of `flush_deferred_sends`. -/
def flushSend (s : State) (send : DeferredSend) : State :=
  if s.isConnected send.peerId then s.dispatchSend send else { s with deferred := s.deferred ++ [send] }

def flushDeferredSends (s : State) : State := s.deferred.foldl flushSend { s with deferred := [] }

/-- `send_control_snapshots_to_peer`, for frames that are encoded. -/
def sendSnapshots (s : State) (peerId : PeerId) (frames : List Bytes) : State :=
  frames.foldl (fun s frame => s.sendRequest peerId frame .snapshot) s

end State

section Loop

variable (cfg : Config) (out : Outside)

def ensurePeerDialed (s : State) (peerId : PeerId) : Except TransportError Unit :=
  if s.isConnected peerId then .ok ()
  else
    match cfg.peerAddrs peerId with
    | some addr => (out.dial addr).mapError .io
    | none => .ok ()

def sendControlSnapshotsToPeer (s : State) (peerId : PeerId) : State × Except TransportError Unit :=
  match out.hooks.snapshotFrames cfg.codec with
  | .error err => (s, .error err)
  | .ok frames => (s.sendSnapshots peerId frames, .ok ())

/-- The loop of `Broadcast` over the peers. -/
def broadcastTo (frame : Bytes) (s : State) : List PeerId → State × Except TransportError Unit
  | [] => (s, .ok ())
  | peerId :: peers =>
    match ensurePeerDialed cfg out s peerId with
    | .error err => (s, .error err)
    | .ok () => broadcastTo frame (s.sendRequest peerId frame .broadcast) peers

/-- `handle_command`, for the caller `respondTo`. Its `VoidReply`s are completed last and are not waited for elsewhere. -/
def handleCommand (s : State) (respondTo : Nat) : RuntimeCommand → State × Except TransportError Unit
  | .send peerId frame expectReply =>
    match ensurePeerDialed cfg out s peerId with
    | .error err => (s, .error err)
    | .ok () =>
      let send : DeferredSend := ⟨peerId, frame, expectReply, respondTo⟩
      if s.isConnected peerId then (s.dispatchSend send, .ok ())
      else ({ s with deferred := s.deferred ++ [send] }, .ok ())
  | .broadcast frame => broadcastTo cfg out frame s cfg.peers
  | .syncPeer peerId =>
    match ensurePeerDialed cfg out s peerId with
    | .error err => (s, .error err)
    | .ok () =>
      match sendControlSnapshotsToPeer cfg out s peerId with
      | (s, .error err) => (s, .error err)
      | (s, .ok ()) => ({ s with syncedPeers := s.syncedPeers.insert peerId }, .ok ())

def applyInboundFrame (frame : Bytes) : Except TransportError Unit :=
  if frame.isEmpty then .ok ()
  else do
    match ← cfg.codec.decodeClusterFrame frame with
    | .registry event => out.hooks.applyRegistryEvent event
    | .pg event => out.hooks.applyPgEvent event
    | .supervision envelope =>
      let _ ← out.hooks.applySupervision cfg.codec envelope
      .ok ()
    | .actor _ => .ok ()

def handleInboundFrame (frame : Bytes) : Except TransportError Bytes := do
  match ← cfg.codec.decodeClusterFrame frame with
  | .registry event =>
    out.hooks.applyRegistryEvent event
    .ok []
  | .pg event =>
    out.hooks.applyPgEvent event
    .ok []
  | .supervision envelope =>
    match ← out.hooks.applySupervision cfg.codec envelope with
    | some reply => cfg.codec.encodeSupervision reply
    | none => .ok []
  | .actor envelope =>
    let reply ← out.hooks.dispatch envelope
    if envelope.correlationId = 0 then .ok []
    else cfg.codec.encodeReply ⟨envelope.correlationId, reply.getD []⟩

def handleSwarmEvent (s : State) : SwarmEvent → State × Except TransportError Unit
  | .newListenAddr address => ({ s with listenAddrs := s.listenAddrs ++ [address] }, .ok ())
  | .connectionEstablished peerId =>
    if peerId ∈ s.syncedPeers then (s, .ok ())
    else
      match sendControlSnapshotsToPeer cfg out s peerId with
      | (s, .error err) => (s, .error err)
      | (s, .ok ()) => ({ s with syncedPeers := s.syncedPeers.insert peerId }, .ok ())
  | .request _ frame =>
    match handleInboundFrame cfg out frame with
    | .error err => (s, .error err)
    | .ok response => ({ s with responses := s.responses ++ [response] }, .ok ())
  | .response requestId response =>
    match s.pending requestId with
    | some respondTo => ({ s with pending := s.pending.remove requestId }.complete respondTo (.ok response), .ok ())
    | none => (s, applyInboundFrame cfg out response)
  | .outgoingConnectionError _ => (s, .ok ())
  | .connectionClosed _ | .outboundFailure _ | .other => (s, .ok ())

/-- The frame that `handleSwarmEvent` has for a hook. -/
def hookFrame (s : State) : SwarmEvent → Option ClusterFrame
  | .request _ frame => (cfg.codec.decodeClusterFrame frame).toOption
  | .response requestId frame =>
    if (s.pending requestId).isSome || frame.isEmpty then none
    else
      match cfg.codec.decodeClusterFrame frame with
      | .ok (.actor _) => none
      | .ok decoded => some decoded
      | .error _ => none
  | _ => none

/-- How the hook that an event is for does not return. -/
def stuckAt (s : State) (event : SwarmEvent) : Option Stuck := (hookFrame cfg s event).bind out.stuck

end Loop

/-! ## The loop -/

namespace State

/-- What the swarm itself has done when it hands out an event; no event comes out of nothing. -/
def poll (s : State) : SwarmEvent → Option State
  | .connectionEstablished peerId =>
    some { s with
      connections := Function.update s.connections peerId (s.connections peerId + 1)
      queued := s.queued.filter fun requestId => s.requests[requestId]?.all (·.peerId ≠ peerId) }
  | .connectionClosed peerId =>
    if 0 < s.connections peerId then
      some { s with connections := Function.update s.connections peerId (s.connections peerId - 1) }
    else none
  | .response requestId _ | .outboundFailure requestId =>
    if requestId ∈ s.outstanding then
      some { s with outstanding := s.outstanding.erase requestId, queued := s.queued.erase requestId }
    else none
  | _ => some s

/-- The rest of the loop after a call that may fail. -/
def proceed (p : State × Except TransportError Unit) (next : State → State) : State :=
  match p.2 with
  | .ok () => next p.1
  | .error err => { p.1 with pc := .ended (.error err) }

end State

/-- One turn of the loop, or a request to shut it down. -/
inductive Act
  | requestShutdown
  | enter
  | command (out : Outside) (cmd : RuntimeCommand)
  | noCommand
  | event (out : Outside) (event : SwarmEvent)
  | sleep

/-- `run_swarm_async`, a part at a time: the check of the flag; a command; the flush when there is no further command; an
event with the flush after it, or 20 ms without one. An event whose hook does not return is the last turn. -/
def State.next (cfg : Config) (s : State) : Act → Option State
  | .requestShutdown => some { s with shutdown := true }
  | .enter =>
    match s.pc with
    | .top => some (if s.shutdown then { s with pc := .ended (.ok ()) } else { s with pc := .commands })
    | _ => none
  | .command out cmd =>
    match s.pc with
    | .commands =>
      some (State.proceed (handleCommand cfg out { s with nextCall := s.nextCall + 1 } s.nextCall cmd) id)
    | _ => none
  | .noCommand =>
    match s.pc with
    | .commands => some { s.flushDeferredSends with pc := .select }
    | _ => none
  | .event out event =>
    match s.pc with
    | .select =>
      (s.poll event).map fun s =>
        match stuckAt cfg out s event with
        | some how => { s with pc := .stuck how }
        | none => State.proceed (handleSwarmEvent cfg out s event) fun s => { s.flushDeferredSends with pc := .top }
    | _ => none
  | .sleep =>
    match s.pc with
    | .select => some { s with pc := .top }
    | _ => none

def State.Step (cfg : Config) (s : State) (a : Act) (s' : State) : Prop := s.next cfg a = some s'

/-- The turns of the loop one by one. -/
inductive Turn (cfg : Config) (s : State) : Act → State → Prop
  | requestShutdown : Turn cfg s .requestShutdown { s with shutdown := true }
  | leave (hpc : s.pc = .top) (hdown : s.shutdown = true) : Turn cfg s .enter { s with pc := .ended (.ok ()) }
  | enter (hpc : s.pc = .top) (hdown : s.shutdown = false) : Turn cfg s .enter { s with pc := .commands }
  | command (hpc : s.pc = .commands) (out : Outside) (cmd : RuntimeCommand) :
      Turn cfg s (.command out cmd)
        (State.proceed (handleCommand cfg out { s with nextCall := s.nextCall + 1 } s.nextCall cmd) id)
  | noCommand (hpc : s.pc = .commands) : Turn cfg s .noCommand { s.flushDeferredSends with pc := .select }
  | stuck (hpc : s.pc = .select) (out : Outside) (event : SwarmEvent) (polled : State)
      (hpoll : s.poll event = some polled) (how : Stuck) (hstuck : stuckAt cfg out polled event = some how) :
      Turn cfg s (.event out event) { polled with pc := .stuck how }
  | event (hpc : s.pc = .select) (out : Outside) (event : SwarmEvent) (polled : State)
      (hpoll : s.poll event = some polled) (hreturns : stuckAt cfg out polled event = none) :
      Turn cfg s (.event out event)
        (State.proceed (handleSwarmEvent cfg out polled event) fun s => { s.flushDeferredSends with pc := .top })
  | sleep (hpc : s.pc = .select) : Turn cfg s .sleep { s with pc := .top }

theorem State.Step.turn {cfg : Config} {s s' : State} {a : Act} (h : State.Step cfg s a s') : Turn cfg s a s' := by
  unfold State.Step at h
  cases a with
  | requestShutdown =>
    cases h
    exact .requestShutdown
  | enter =>
    simp only [State.next] at h
    split at h
    next hpc =>
      cases h
      split_ifs with hdown
      · exact .leave hpc hdown
      · exact .enter hpc (by simpa using hdown)
    next => cases h
  | command out cmd =>
    simp only [State.next] at h
    split at h
    next hpc =>
      cases h
      exact .command hpc out cmd
    next => cases h
  | noCommand =>
    simp only [State.next] at h
    split at h
    next hpc =>
      cases h
      exact .noCommand hpc
    next => cases h
  | event out event =>
    simp only [State.next] at h
    split at h
    next hpc =>
      obtain ⟨polled, hpoll, rfl⟩ := Option.map_eq_some_iff.mp h
      cases hstuck : stuckAt cfg out polled event with
      | some how => exact .stuck hpc out event polled hpoll how hstuck
      | none => exact .event hpc out event polled hpoll hstuck
    next => cases h
  | sleep =>
    simp only [State.next] at h
    split at h
    next hpc =>
      cases h
      exact .sleep hpc
    next => cases h

/-! ## What the calls leave alone -/

namespace State

theorem dispatchSend_requests (s : State) (send : DeferredSend) :
    (s.dispatchSend send).requests = s.requests ++ [⟨send.peerId, send.frame, .send send.respondTo⟩] := by
  simp only [dispatchSend]
  split_ifs <;> rfl

theorem dispatchSend_deferred (s : State) (send : DeferredSend) : (s.dispatchSend send).deferred = s.deferred := by
  simp only [dispatchSend]
  split_ifs <;> rfl

theorem dispatchSend_pending (s : State) (send : DeferredSend) :
    (s.dispatchSend send).pending =
      if send.expectReply then s.pending.insert s.requests.length send.respondTo else s.pending := by
  simp only [dispatchSend]
  split_ifs <;> rfl

theorem dispatchSend_completions (s : State) (send : DeferredSend) :
    (s.dispatchSend send).completions =
      if send.expectReply then s.completions else s.completions ++ [(send.respondTo, .ok [])] := by
  simp only [dispatchSend]
  split_ifs <;> rfl

/-- Requests are sent, and nothing else is done. -/
def Sends (s s' : State) : Prop :=
  ∃ requests outstanding queued, s' = { s with requests := s.requests ++ requests, outstanding, queued }

namespace Sends

theorem refl (s : State) : Sends s s := ⟨[], s.outstanding, s.queued, by simp⟩

theorem trans {s s' s'' : State} (h : Sends s s') (h' : Sends s' s'') : Sends s s'' := by
  obtain ⟨requests, outstanding, queued, rfl⟩ := h
  obtain ⟨requests', outstanding', queued', rfl⟩ := h'
  exact ⟨requests ++ requests', outstanding', queued', by simp⟩

theorem sendRequest (s : State) (peerId : PeerId) (frame : Bytes) (purpose : Purpose) :
    Sends s (s.sendRequest peerId frame purpose) :=
  ⟨[⟨peerId, frame, purpose⟩], _, _, rfl⟩

theorem sendSnapshots (s : State) (peerId : PeerId) (frames : List Bytes) : Sends s (s.sendSnapshots peerId frames) := by
  unfold State.sendSnapshots
  induction frames generalizing s with
  | nil => exact refl s
  | cons frame frames ih => exact (sendRequest s peerId frame .snapshot).trans (ih _)

variable {cfg : Config} {out : Outside}

theorem sendControlSnapshotsToPeer {s s' : State} {peerId : PeerId} {result : Except TransportError Unit}
    (h : sendControlSnapshotsToPeer cfg out s peerId = (s', result)) : Sends s s' := by
  unfold Libp2p.sendControlSnapshotsToPeer at h
  split at h
  · cases h
    exact refl s
  · cases h
    exact sendSnapshots s peerId _

theorem broadcastTo (frame : Bytes) (s : State) (peers : List PeerId) : Sends s (broadcastTo cfg out frame s peers).1 := by
  induction peers generalizing s with
  | nil => exact refl s
  | cons peerId peers ih =>
    unfold Libp2p.broadcastTo
    split
    · exact refl s
    · exact (sendRequest s peerId frame .broadcast).trans (ih _)

end Sends

/-- Everything but the requests, those who wait for them, the deferred sends, the peers known to be synced, and what was
answered. -/
structure SameLoop (s s' : State) : Prop where
  pc : s'.pc = s.pc
  shutdown : s'.shutdown = s.shutdown
  connections : s'.connections = s.connections
  nextCall : s'.nextCall = s.nextCall

namespace SameLoop

theorem refl (s : State) : SameLoop s s := ⟨rfl, rfl, rfl, rfl⟩

theorem trans {s s' s'' : State} (h : SameLoop s s') (h' : SameLoop s' s'') : SameLoop s s'' :=
  ⟨h'.pc.trans h.pc, h'.shutdown.trans h.shutdown, h'.connections.trans h.connections, h'.nextCall.trans h.nextCall⟩

theorem of_sends {s s' : State} (h : Sends s s') : SameLoop s s' := by
  obtain ⟨requests, outstanding, queued, rfl⟩ := h
  exact ⟨rfl, rfl, rfl, rfl⟩

theorem dispatchSend (s : State) (send : DeferredSend) : SameLoop s (s.dispatchSend send) := by
  simp only [State.dispatchSend]
  split_ifs
  · exact ⟨rfl, rfl, rfl, rfl⟩
  · exact ⟨rfl, rfl, rfl, rfl⟩

theorem flushSend (s : State) (send : DeferredSend) : SameLoop s (s.flushSend send) := by
  unfold State.flushSend
  split
  · exact dispatchSend s send
  · exact ⟨rfl, rfl, rfl, rfl⟩

theorem flushDeferredSends (s : State) : SameLoop s s.flushDeferredSends := by
  have hfold : ∀ (queue : List DeferredSend) (s : State), SameLoop s (queue.foldl State.flushSend s) := by
    intro queue
    induction queue with
    | nil => exact refl
    | cons send rest ih => exact fun s => (flushSend s send).trans (ih _)
  have hstart : SameLoop s { s with deferred := [] } := ⟨rfl, rfl, rfl, rfl⟩
  exact hstart.trans (hfold _ _)

variable (cfg : Config) (out : Outside)

theorem handleCommand (s : State) (respondTo : Nat) (cmd : RuntimeCommand) :
    SameLoop s (handleCommand cfg out s respondTo cmd).1 := by
  cases cmd with
  | send peerId frame expectReply =>
    simp only [Libp2p.handleCommand]
    split
    · exact refl s
    · split_ifs
      · exact dispatchSend s _
      · exact ⟨rfl, rfl, rfl, rfl⟩
  | broadcast frame => exact of_sends (Sends.broadcastTo frame s cfg.peers)
  | syncPeer peerId =>
    simp only [Libp2p.handleCommand]
    split
    · exact refl s
    · split
      next heq => exact of_sends (Sends.sendControlSnapshotsToPeer heq)
      next heq => exact (of_sends (Sends.sendControlSnapshotsToPeer heq)).trans ⟨rfl, rfl, rfl, rfl⟩

theorem handleSwarmEvent (s : State) (event : SwarmEvent) : SameLoop s (handleSwarmEvent cfg out s event).1 := by
  cases event with
  | connectionEstablished peerId =>
    simp only [Libp2p.handleSwarmEvent]
    split_ifs
    · exact refl s
    · split
      next heq => exact of_sends (Sends.sendControlSnapshotsToPeer heq)
      next heq => exact (of_sends (Sends.sendControlSnapshotsToPeer heq)).trans ⟨rfl, rfl, rfl, rfl⟩
  | request peerId frame =>
    simp only [Libp2p.handleSwarmEvent]
    split
    · exact refl s
    · exact ⟨rfl, rfl, rfl, rfl⟩
  | response requestId response =>
    simp only [Libp2p.handleSwarmEvent]
    split
    · exact ⟨rfl, rfl, rfl, rfl⟩
    · exact refl s
  | newListenAddr => exact ⟨rfl, rfl, rfl, rfl⟩
  | connectionClosed | outboundFailure | outgoingConnectionError | other => exact refl s

end SameLoop

/-- The swarm keeps count of the connections and of the requests on their way. -/
theorem poll_eq {s s' : State} {event : SwarmEvent} (h : s.poll event = some s') :
    ∃ connections outstanding queued, s' = { s with connections, outstanding, queued } := by
  cases event with
  | connectionClosed | response | outboundFailure =>
    obtain ⟨-, hs'⟩ := Option.ite_none_right_eq_some.mp h
    cases hs'
    exact ⟨_, _, _, rfl⟩
  | connectionEstablished | newListenAddr | request | outgoingConnectionError | other =>
    cases h
    exact ⟨_, _, _, rfl⟩

end State

/-- A turn that takes a command. -/
def Act.takesCommand : Act → Bool
  | .command .. => true
  | _ => false

/-- A number is drawn for each command. -/
theorem Turn.nextCall {cfg : Config} {s s' : State} {a : Act} (h : Turn cfg s a s') :
    s'.nextCall = if a.takesCommand then s.nextCall + 1 else s.nextCall := by
  cases h with
  | requestShutdown | leave | enter | sleep => rfl
  | command hpc out cmd =>
    have hsame := State.SameLoop.handleCommand cfg out { s with nextCall := s.nextCall + 1 } s.nextCall cmd
    unfold State.proceed
    split <;> exact hsame.nextCall
  | noCommand hpc => exact (State.SameLoop.flushDeferredSends s).nextCall
  | stuck hpc out event polled hpoll =>
    obtain ⟨connections, outstanding, queued, rfl⟩ := State.poll_eq hpoll
    rfl
  | event hpc out event polled hpoll =>
    obtain ⟨connections, outstanding, queued, rfl⟩ := State.poll_eq hpoll
    have hsame := State.SameLoop.handleSwarmEvent cfg out { s with connections, outstanding, queued } event
    unfold State.proceed
    split
    · exact (State.SameLoop.flushDeferredSends _).nextCall.trans hsame.nextCall
    · exact hsame.nextCall

end Spawned.Libp2p
