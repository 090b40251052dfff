import Spawned.Cluster.Libp2p.Runtime
import Spawned.Cluster.Tcp.Listener

/-!
# What ends a cluster runtime

Every error in the loop of `run_swarm_async` is passed on with `?` and ends the loop, whichever peer it comes from; and a
hook that does not return keeps its thread. The TCP listener serves each connection in a thread of its own.

* `Accepts`, `Applies` : a request, or a response nobody waits for, that is handled without an error;
* `Dials` : the loop need not dial the peer, or may;
* `Harmless` : a turn of the loop that meets no error, and whose hook returns;
* `runtime_keeps_serving` : the loop runs, until shutdown, exactly as long as every turn is harmless; a TCP connection
  ends through its own failures only.
-/

namespace Spawned.Libp2p

open Lib

/-- `run_swarm_async` has returned an error, or its thread does not come back from a hook. -/
def State.Failed (s : State) : Prop := (∃ err, s.pc = .ended (.error err)) ∨ ∃ how, s.pc = .stuck how

theorem State.not_failed_of_pc {s : State} {pc : LoopPc} (hpc : s.pc = pc) (hended : ∀ result, pc ≠ .ended result)
    (hstuck : ∀ how, pc ≠ .stuck how) : ¬s.Failed := by
  rintro (⟨err, h⟩ | ⟨how, h⟩)
  · exact hended _ (hpc.symm.trans h)
  · exact hstuck _ (hpc.symm.trans h)

section Harmless

variable (cfg : Config) (out : Outside)

/-- The frame decodes, the hook it is for takes it, and what is to be answered can be encoded. -/
def Accepts (frame : Bytes) : Prop :=
  ∃ decoded, cfg.codec.decodeClusterFrame frame = .ok decoded ∧
    match decoded with
    | .registry event => ∃ u, out.hooks.applyRegistryEvent event = .ok u
    | .pg event => ∃ u, out.hooks.applyPgEvent event = .ok u
    | .supervision envelope => ∃ reply, out.hooks.applySupervision cfg.codec envelope = .ok reply ∧
      ∀ r, reply = some r → ∃ bytes, cfg.codec.encodeSupervision r = .ok bytes
    | .actor envelope => ∃ reply, out.hooks.dispatch envelope = .ok reply ∧
      (envelope.correlationId ≠ 0 → ∃ bytes, cfg.codec.encodeReply ⟨envelope.correlationId, reply.getD []⟩ = .ok bytes)

/-- The frame is empty, or decodes and is taken by the hook it is for. -/
def Applies (frame : Bytes) : Prop :=
  frame = [] ∨ ∃ decoded, cfg.codec.decodeClusterFrame frame = .ok decoded ∧
    match decoded with
    | .registry event => ∃ u, out.hooks.applyRegistryEvent event = .ok u
    | .pg event => ∃ u, out.hooks.applyPgEvent event = .ok u
    | .supervision envelope => ∃ reply, out.hooks.applySupervision cfg.codec envelope = .ok reply
    | .actor _ => True

/-- The peer is connected, has no address, or the swarm takes the dial. -/
def Dials (s : State) (peerId : PeerId) : Prop :=
  s.isConnected peerId = true ∨ ∀ addr, cfg.peerAddrs peerId = some addr → out.dial addr = .ok ()

/-- Both snapshots can be encoded. -/
def Snapshots : Prop := ∃ frames, out.hooks.snapshotFrames cfg.codec = .ok frames

end Harmless

/-- A turn of the loop in which no call fails, and every hook returns. -/
def Harmless (cfg : Config) (s : State) : Act → Prop
  | .command out (.send peerId _ _) => Dials cfg out s peerId
  | .command out (.broadcast _) => ∀ peerId ∈ cfg.peers, Dials cfg out s peerId
  | .command out (.syncPeer peerId) => Dials cfg out s peerId ∧ Snapshots cfg out
  | .event out (.connectionEstablished peerId) => peerId ∈ s.syncedPeers ∨ Snapshots cfg out
  | .event out (.request peerId frame) => stuckAt cfg out s (.request peerId frame) = none ∧ Accepts cfg out frame
  | .event out (.response requestId frame) =>
    stuckAt cfg out s (.response requestId frame) = none ∧ (s.pending requestId ≠ none ∨ Applies cfg out frame)
  | _ => True

section Calls

variable {cfg : Config} {out : Outside} {s : State}

theorem handleInboundFrame_ok_iff {frame : Bytes} :
    (∃ response, handleInboundFrame cfg out frame = .ok response) ↔ Accepts cfg out frame := by
  unfold handleInboundFrame Accepts
  simp only [except_bind_eq_ok]
  constructor
  · rintro ⟨response, decoded, hdecoded, h⟩
    refine ⟨decoded, hdecoded, ?_⟩
    cases decoded with
    | registry event =>
      obtain ⟨u, hu, -⟩ := except_bind_eq_ok.mp h
      exact ⟨u, hu⟩
    | pg event =>
      obtain ⟨u, hu, -⟩ := except_bind_eq_ok.mp h
      exact ⟨u, hu⟩
    | supervision envelope =>
      obtain ⟨reply, hreply, h⟩ := except_bind_eq_ok.mp h
      refine ⟨reply, hreply, ?_⟩
      rintro r rfl
      exact ⟨response, h⟩
    | actor envelope =>
      obtain ⟨reply, hreply, h⟩ := except_bind_eq_ok.mp h
      refine ⟨reply, hreply, fun hid => ⟨response, ?_⟩⟩
      rwa [if_neg hid] at h
  · rintro ⟨decoded, hdecoded, h⟩
    cases decoded with
    | registry event =>
      obtain ⟨u, hu⟩ := h
      exact ⟨[], _, hdecoded, except_bind_eq_ok.mpr ⟨u, hu, rfl⟩⟩
    | pg event =>
      obtain ⟨u, hu⟩ := h
      exact ⟨[], _, hdecoded, except_bind_eq_ok.mpr ⟨u, hu, rfl⟩⟩
    | supervision envelope =>
      obtain ⟨reply, hreply, h⟩ := h
      cases reply with
      | none => exact ⟨[], _, hdecoded, except_bind_eq_ok.mpr ⟨none, hreply, rfl⟩⟩
      | some r =>
        obtain ⟨bytes, hbytes⟩ := h r rfl
        exact ⟨bytes, _, hdecoded, except_bind_eq_ok.mpr ⟨some r, hreply, hbytes⟩⟩
    | actor envelope =>
      obtain ⟨reply, hreply, h⟩ := h
      by_cases hid : envelope.correlationId = 0
      · exact ⟨[], _, hdecoded, except_bind_eq_ok.mpr ⟨reply, hreply, by rw [if_pos hid]⟩⟩
      · obtain ⟨bytes, hbytes⟩ := h hid
        exact ⟨bytes, _, hdecoded, except_bind_eq_ok.mpr ⟨reply, hreply, by rw [if_neg hid]; exact hbytes⟩⟩

theorem exists_eq_ok_unit {x : Except TransportError Unit} : (∃ u, x = .ok u) ↔ x = .ok () := Unique.exists_iff

theorem applyInboundFrame_ok_iff {frame : Bytes} :
    applyInboundFrame cfg out frame = .ok () ↔ Applies cfg out frame := by
  unfold applyInboundFrame Applies
  cases frame with
  | nil => simp
  | cons byte frame =>
    simp only [List.isEmpty_cons, Bool.false_eq_true, if_false, reduceCtorEq, false_or, except_bind_eq_ok]
    refine exists_congr fun decoded => and_congr_right fun _ => ?_
    cases decoded with
    | registry event => exact exists_eq_ok_unit.symm
    | pg event => exact exists_eq_ok_unit.symm
    | supervision envelope => simp [except_bind_eq_ok]
    | actor envelope => simp

theorem ensurePeerDialed_ok_iff {peerId : PeerId} :
    ensurePeerDialed cfg out s peerId = .ok () ↔ Dials cfg out s peerId := by
  unfold ensurePeerDialed Dials
  by_cases hconnected : s.isConnected peerId = true
  · simp [hconnected]
  · simp only [hconnected, if_false, Bool.false_eq_true, false_or]
    cases cfg.peerAddrs peerId with
    | none => simp
    | some addr =>
      cases hdial : out.dial addr with
      | error err => simp [Except.mapError, hdial]
      | ok u => simp [Except.mapError, hdial]

theorem sendControlSnapshotsToPeer_ok_iff (s : State) (peerId : PeerId) :
    (sendControlSnapshotsToPeer cfg out s peerId).2 = .ok () ↔ Snapshots cfg out := by
  unfold sendControlSnapshotsToPeer Snapshots
  cases out.hooks.snapshotFrames cfg.codec <;> simp

theorem dials_sendRequest {peerId peerId' : PeerId} {frame : Bytes} {purpose : Purpose} :
    Dials cfg out (s.sendRequest peerId frame purpose) peerId' ↔ Dials cfg out s peerId' := Iff.rfl

theorem broadcastTo_ok_iff {frame : Bytes} {peers : List PeerId} :
    (broadcastTo cfg out frame s peers).2 = .ok () ↔ ∀ peerId ∈ peers, Dials cfg out s peerId := by
  induction peers generalizing s with
  | nil => simp [broadcastTo]
  | cons peerId peers ih =>
    unfold broadcastTo
    rw [List.forall_mem_cons, ← ensurePeerDialed_ok_iff]
    cases ensurePeerDialed cfg out s peerId with
    | error err => simp
    | ok u =>
      simp only [ih, dials_sendRequest, true_and]

theorem handleCommand_ok_iff {respondTo : Nat} {cmd : RuntimeCommand} :
    (handleCommand cfg out s respondTo cmd).2 = .ok () ↔ Harmless cfg s (.command out cmd) := by
  cases cmd with
  | send peerId frame expectReply =>
    show _ ↔ Dials cfg out s peerId
    rw [← ensurePeerDialed_ok_iff]
    simp only [handleCommand]
    cases ensurePeerDialed cfg out s peerId with
    | error err => simp
    | ok u => cases s.isConnected peerId <;> simp
  | broadcast frame => exact broadcastTo_ok_iff
  | syncPeer peerId =>
    show _ ↔ Dials cfg out s peerId ∧ Snapshots cfg out
    rw [← ensurePeerDialed_ok_iff, ← sendControlSnapshotsToPeer_ok_iff s peerId]
    simp only [handleCommand]
    cases ensurePeerDialed cfg out s peerId with
    | error err => simp
    | ok u =>
      rcases sendControlSnapshotsToPeer cfg out s peerId with ⟨s₁, err | u⟩ <;> simp

theorem harmless_event_iff {event : SwarmEvent} :
    Harmless cfg s (.event out event) ↔
      stuckAt cfg out s event = none ∧ (handleSwarmEvent cfg out s event).2 = .ok () := by
  cases event with
  | connectionEstablished peerId =>
    show peerId ∈ s.syncedPeers ∨ Snapshots cfg out ↔ _
    rw [and_iff_right (show stuckAt cfg out s (.connectionEstablished peerId) = none from rfl),
      ← sendControlSnapshotsToPeer_ok_iff s peerId]
    simp only [handleSwarmEvent]
    by_cases hsynced : peerId ∈ s.syncedPeers
    · simp [hsynced]
    · rcases sendControlSnapshotsToPeer cfg out s peerId with ⟨s₁, err | u⟩ <;> simp [hsynced]
  | request peerId frame =>
    refine and_congr_right fun _ => ?_
    rw [← handleInboundFrame_ok_iff]
    simp only [handleSwarmEvent]
    cases handleInboundFrame cfg out frame <;> simp
  | response requestId response =>
    refine and_congr_right fun _ => ?_
    rw [← applyInboundFrame_ok_iff]
    simp only [handleSwarmEvent]
    cases s.pending requestId <;> simp
  | newListenAddr | connectionClosed | outboundFailure | outgoingConnectionError | other =>
    simp [handleSwarmEvent, Harmless, stuckAt, hookFrame]

end Calls

section Runs

variable {cfg : Config} {s s' : State} {a : Act}

/-- Taking an event from the swarm changes nothing that decides whether it is harmless. -/
theorem harmless_poll {out : Outside} {event : SwarmEvent} (h : s.poll event = some s') :
    Harmless cfg s' (.event out event) ↔ Harmless cfg s (.event out event) := by
  cases event with
  | connectionEstablished peerId =>
    cases h
    rfl
  | response requestId response =>
    obtain ⟨-, hs'⟩ := Option.ite_none_right_eq_some.mp h
    cases hs'
    rfl
  | newListenAddr | connectionClosed | request | outboundFailure | outgoingConnectionError | other => rfl

theorem failed_proceed_iff {p : State × Except TransportError Unit} {next : State → State}
    (hnext : ¬(next p.1).Failed) : (State.proceed p next).Failed ↔ p.2 ≠ .ok () := by
  unfold State.proceed
  rcases hp : p.2 with err | u
  · simp [State.Failed]
  · simpa using hnext

/-- A turn of a loop that runs ends it with an error if and only if it is not harmless. -/
theorem State.Step.failed_iff (hstep : State.Step cfg s a s') (h : ¬s.Failed) :
    s'.Failed ↔ ¬Harmless cfg s a := by
  cases hstep.turn with
  | requestShutdown => exact iff_of_false h (fun hharm => hharm trivial)
  | stuck hpc out event polled hpoll how hstuck =>
    refine iff_of_true (Or.inr ⟨how, rfl⟩) fun hharm => ?_
    have hreturns := (harmless_event_iff.mp ((harmless_poll hpoll).mpr hharm)).1
    rw [hstuck] at hreturns
    cases hreturns
  | command hpc out cmd =>
    have hsame := State.SameLoop.handleCommand cfg out { s with nextCall := s.nextCall + 1 } s.nextCall cmd
    rw [failed_proceed_iff, Ne, handleCommand_ok_iff]
    · cases cmd <;> rfl
    · exact State.not_failed_of_pc (hsame.pc.trans hpc) (by simp) (by simp)
  | event hpc out event polled hpoll hreturns =>
    rw [failed_proceed_iff, Ne, ← harmless_poll hpoll, harmless_event_iff, and_iff_right hreturns]
    simp [State.Failed]
  | leave | enter | noCommand | sleep => simp [State.Failed, Harmless]

/-- A loop that has failed takes no turn any more. -/
theorem State.Step.of_failed (hstep : State.Step cfg s a s') (h : s.Failed) :
    a = .requestShutdown ∧ s' = { s with shutdown := true } := by
  cases hstep.turn with
  | requestShutdown => exact ⟨rfl, rfl⟩
  | leave hpc | enter hpc | command hpc | noCommand hpc | stuck hpc | event hpc | sleep hpc =>
    exact absurd h (State.not_failed_of_pc hpc (by simp) (by simp))

theorem not_failed_iff_harmless {τ : List (State × Act)} (h : Run (State.Step cfg) {} τ s) :
    ¬s.Failed ↔ ∀ x ∈ τ, Harmless cfg x.1 x.2 := by
  induction h with
  | nil => simp [State.Failed]
  | @snoc τ s a s' hr hstep ih =>
    rw [List.forall_mem_append, List.forall_mem_singleton, ← ih]
    by_cases hfailed : s.Failed
    · obtain ⟨rfl, rfl⟩ := hstep.of_failed hfailed
      exact iff_of_false (fun h => h hfailed) (fun h => h.1 hfailed)
    · rw [hstep.failed_iff hfailed, not_not, and_iff_right hfailed]

/-- The loop returns `Ok` when shutdown was requested, and on no other way. -/
theorem shutdown_of_ended {τ : List (State × Act)} (h : Run (State.Step cfg) {} τ s) (hend : s.pc = .ended (.ok ())) :
    s.shutdown = true := by
  refine h.inv (I := fun s => s.pc = .ended (.ok ()) → s.shutdown = true) (by simp) ?_ hend
  intro s a s' hs hstep hend'
  cases hstep.turn with
  | requestShutdown => rfl
  | leave hpc hdown => exact hdown
  | command hpc out cmd =>
    have hsame := State.SameLoop.handleCommand cfg out { s with nextCall := s.nextCall + 1 } s.nextCall cmd
    unfold State.proceed at hend'
    split at hend'
    · rw [id, hsame.pc, hpc] at hend'
      cases hend'
    · cases hend'
  | stuck => cases hend'
  | event hpc out event polled hpoll =>
    unfold State.proceed at hend'
    split at hend' <;> cases hend'
  | enter | noCommand | sleep => cases hend'

/-- A loop that runs gets to where it takes the next event, whatever that event is. -/
theorem reaches_select (h : ¬s.Failed) (hended : s.pc ≠ .ended (.ok ())) (hdown : s.shutdown = false) :
    ∃ τ s', Run (State.Step cfg) s τ s' ∧ s'.pc = .select := by
  have hcommands : ∀ s : State, s.pc = .commands → ∃ τ s', Run (State.Step cfg) s τ s' ∧ s'.pc = .select := by
    intro s hpc
    refine ⟨_, { s.flushDeferredSends with pc := .select }, Run.single (a := .noCommand) ?_, rfl⟩
    simp only [State.Step, State.next, hpc]
  cases hpc : s.pc with
  | select => exact ⟨[], s, .nil, hpc⟩
  | commands => exact hcommands s hpc
  | top =>
    obtain ⟨τ, s', hrun, hs'⟩ := hcommands { s with pc := .commands } rfl
    refine ⟨_, s', Run.cons (a := .enter) ?_ hrun, hs'⟩
    simp only [State.Step, State.next, hpc, hdown, Bool.false_eq_true, if_false]
  | ended result =>
    cases result with
    | ok u => exact absurd hpc hended
    | error err => exact absurd (Or.inl ⟨err, hpc⟩) h
  | stuck how => exact absurd (Or.inr ⟨how, hpc⟩) h

end Runs

/-- **What it takes for the runtimes to keep serving.** In every run of the libp2p loop: it has not returned an error and is
in no hook for good if and only if every turn was harmless; it returns otherwise on shutdown only; and until then a loop
that has not failed gets to the next event. In every run of the TCP listener: a connection has ended by a failed call of
its own thread, and the accept loop on shutdown only. -/
theorem runtime_keeps_serving (cfg : Config) (node : NodeId) :
    (∀ τ s, Run (State.Step cfg) {} τ s →
      (¬s.Failed ↔ ∀ x ∈ τ, Harmless cfg x.1 x.2) ∧ (s.pc = .ended (.ok ()) → s.shutdown = true) ∧
        (¬s.Failed → s.shutdown = false → ∃ σ s', Run (State.Step cfg) s σ s' ∧ s'.pc = .select)) ∧
      ∀ τ s, Run (Tcp.Listener.Step cfg.codec node) {} τ s →
        (s.pc = .ended → s.shutdown = true) ∧
          ∀ j c, s.connections[j]? = some c → c.Ended → ∃ x ∈ τ, Tcp.FailsAt cfg.codec node j x.1 x.2 := by
  constructor
  · intro τ s h
    refine ⟨not_failed_iff_harmless h, shutdown_of_ended h, fun hruns hdown => reaches_select hruns (fun hend => ?_) hdown⟩
    rw [shutdown_of_ended h hend] at hdown
    cases hdown
  · intro τ s h
    exact Tcp.listener_contains_failures h

/-- Peer `b` connects and sends a byte that is no frame: the loop ends, and takes no event of any peer any more. -/
theorem bad_frame_ends_runtime :
    ∃ (τ : List (State × Act)) (s : State), Run (State.Step .bare) {} τ s ∧ s.Failed ∧ s.shutdown = false ∧
      ∀ a s', State.Step .bare s a s' → a = .requestShutdown := by
  let acts : List Act :=
    [.enter, .noCommand, .event .bare (.connectionEstablished "b"), .enter, .noCommand, .event .bare (.request "b" [255])]
  have hrun := run_tryPlay (State.next .bare) {} acts (by decide)
  have hfailed : ((tryPlay (State.next .bare) {} acts).get (by decide)).2.pc =
      .ended (.error (decodeError "unexpected bytes")) := rfl
  exact ⟨_, _, hrun, Or.inl ⟨_, hfailed⟩, rfl, fun a s' hstep => (hstep.of_failed (Or.inl ⟨_, hfailed⟩)).1⟩

end Spawned.Libp2p
