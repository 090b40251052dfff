import Spawned.Cluster.Libp2p.Serving

/-!
# Snapshots after a reconnect

A peer gets the snapshots of the local registry and process groups when a connection to it is established, unless it is
among the synced peers. No event takes it out of them again. What was handed to the swarm for a peer without a connection,
as a `SyncPeer` does, goes out first when there is one.

* `Contacts` : the turns that put a peer among the synced ones;
* `Resynced` : what goes to a peer when it is connected: the snapshots of now, and after them the sends deferred for it;
* `resynced_iff_first_contact` : that is so for the first contact with a peer, and if the same snapshots have been waiting
  for it.
-/

namespace Spawned.Libp2p

open Lib

/-- A connection with the peer, or a command to send it the snapshots. -/
def Contacts (peerId : PeerId) : Act → Prop
  | .command _ (.syncPeer peer) => peer = peerId
  | .event _ (.connectionEstablished peer) => peer = peerId
  | _ => False

instance (peerId : PeerId) : (a : Act) → Decidable (Contacts peerId a)
  | .command _ (.syncPeer peer) => inferInstanceAs (Decidable (peer = peerId))
  | .event _ (.connectionEstablished peer) => inferInstanceAs (Decidable (peer = peerId))
  | .command _ (.send ..) | .command _ (.broadcast ..) | .requestShutdown | .enter | .noCommand | .sleep =>
    inferInstanceAs (Decidable False)
  | .event _ (.newListenAddr ..) | .event _ (.connectionClosed ..) | .event _ (.request ..) | .event _ (.response ..)
  | .event _ (.outboundFailure ..) | .event _ (.outgoingConnectionError ..) | .event _ .other =>
    inferInstanceAs (Decidable False)

/-- The request of a send. -/
def DeferredSend.request (send : DeferredSend) : Request := ⟨send.peerId, send.frame, .send send.respondTo⟩

/-- From `s` to `s'` the peer was sent the snapshots of the local state, and after them what had been deferred for it: the
requests kept for it go out, and then those handed to the swarm. -/
def Resynced (cfg : Config) (out : Outside) (peerId : PeerId) (s s' : State) : Prop :=
  ∃ frames first, out.hooks.snapshotFrames cfg.codec = .ok frames ∧
    s.queuedFor peerId ++ (s'.requests.drop s.requests.length).filter (·.peerId = peerId) =
      first ++ (s.deferred.filter (·.peerId = peerId)).map DeferredSend.request ∧
    ∀ frame ∈ frames, ⟨peerId, frame, .snapshot⟩ ∈ first

/-- The snapshots of the local state are among the requests that the swarm keeps for the peer. -/
def Waiting (cfg : Config) (out : Outside) (peerId : PeerId) (s : State) : Prop :=
  ∃ frames, out.hooks.snapshotFrames cfg.codec = .ok frames ∧
    ∀ frame ∈ frames, ⟨peerId, frame, .snapshot⟩ ∈ s.queuedFor peerId

/-! ## The synced peers -/

section Synced

variable {cfg : Config} {s s' : State} {a : Act}

theorem syncedPeers_flushSend (s : State) (send : DeferredSend) : (s.flushSend send).syncedPeers = s.syncedPeers := by
  unfold State.flushSend State.dispatchSend
  split_ifs <;> rfl

theorem syncedPeers_flushDeferredSends (s : State) : s.flushDeferredSends.syncedPeers = s.syncedPeers := by
  have hfold : ∀ (queue : List DeferredSend) (s : State),
      (queue.foldl State.flushSend s).syncedPeers = s.syncedPeers := by
    intro queue
    induction queue with
    | nil => exact fun _ => rfl
    | cons send rest ih => exact fun s => (ih _).trans (syncedPeers_flushSend s send)
  exact hfold s.deferred _

theorem syncedPeers_of_sends (h : s.Sends s') : s'.syncedPeers = s.syncedPeers := by
  obtain ⟨requests, outstanding, queued, rfl⟩ := h
  rfl

/-- The snapshots were sent: the peer is synced. -/
theorem mem_syncedPeers_sendControlSnapshotsToPeer {out : Outside} {peer peerId : PeerId} {s₁ : State}
    (h : sendControlSnapshotsToPeer cfg out s peer = (s₁, .ok ())) :
    peerId ∈ s₁.syncedPeers.insert peer ↔ peerId ∈ s.syncedPeers ∨ peer = peerId := by
  rw [syncedPeers_of_sends (.sendControlSnapshotsToPeer h), List.mem_insert_iff, or_comm, eq_comm]

theorem mem_syncedPeers_handleCommand {out : Outside} {respondTo : Nat} {cmd : RuntimeCommand} {peerId : PeerId}
    (hok : (handleCommand cfg out s respondTo cmd).2 = .ok ()) :
    peerId ∈ (handleCommand cfg out s respondTo cmd).1.syncedPeers ↔
      peerId ∈ s.syncedPeers ∨ Contacts peerId (.command out cmd) := by
  cases cmd with
  | send peer frame expectReply =>
    simp only [handleCommand, Contacts, or_false]
    split
    · rfl
    · unfold State.dispatchSend
      split_ifs <;> rfl
  | broadcast frame =>
    simp only [handleCommand, Contacts, or_false, syncedPeers_of_sends (.broadcastTo frame s cfg.peers)]
  | syncPeer peer =>
    simp only [handleCommand] at hok ⊢
    split at hok
    · cases hok
    · split at hok
      next => cases hok
      next heq => exact mem_syncedPeers_sendControlSnapshotsToPeer heq

theorem mem_syncedPeers_handleSwarmEvent {out : Outside} {event : SwarmEvent} {peerId : PeerId}
    (hok : (handleSwarmEvent cfg out s event).2 = .ok ()) :
    peerId ∈ (handleSwarmEvent cfg out s event).1.syncedPeers ↔
      peerId ∈ s.syncedPeers ∨ Contacts peerId (.event out event) := by
  cases event with
  | connectionEstablished peer =>
    simp only [handleSwarmEvent] at hok ⊢
    split_ifs with hsynced
    · show _ ↔ _ ∨ peer = peerId
      rw [or_iff_left_of_imp]
      rintro rfl
      exact hsynced
    · rw [if_neg hsynced] at hok
      split at hok
      next => cases hok
      next heq => exact mem_syncedPeers_sendControlSnapshotsToPeer heq
  | request peer frame =>
    simp only [handleSwarmEvent, Contacts, or_false]
    split <;> rfl
  | response requestId response =>
    simp only [handleSwarmEvent, Contacts, or_false]
    split <;> rfl
  | newListenAddr | connectionClosed | outboundFailure | outgoingConnectionError | other =>
    simp only [handleSwarmEvent, Contacts, or_false]

theorem syncedPeers_poll {event : SwarmEvent} (h : s.poll event = some s') : s'.syncedPeers = s.syncedPeers := by
  obtain ⟨connections, outstanding, queued, rfl⟩ := State.poll_eq h
  rfl

/-- A turn that does not end the loop with an error adds the peers it contacts to the synced ones. -/
theorem State.Step.mem_syncedPeers (hstep : State.Step cfg s a s') (hfailed : ¬s'.Failed) {peerId : PeerId} :
    peerId ∈ s'.syncedPeers ↔ peerId ∈ s.syncedPeers ∨ Contacts peerId a := by
  cases hstep.turn with
  | requestShutdown | leave | enter | sleep => exact (or_iff_left id).symm
  | command hpc out cmd =>
    revert hfailed
    unfold State.proceed
    split
    next hok => exact fun _ => mem_syncedPeers_handleCommand hok
    next => exact fun hfailed => absurd (Or.inl ⟨_, rfl⟩) hfailed
  | noCommand hpc =>
    show peerId ∈ s.flushDeferredSends.syncedPeers ↔ _
    rw [syncedPeers_flushDeferredSends]
    exact (or_iff_left id).symm
  | stuck => exact absurd (Or.inr ⟨_, rfl⟩) hfailed
  | event hpc out event polled hpoll =>
    revert hfailed
    unfold State.proceed
    split
    next hok =>
      intro _
      show peerId ∈ (handleSwarmEvent cfg out polled event).1.flushDeferredSends.syncedPeers ↔ _
      rw [syncedPeers_flushDeferredSends, mem_syncedPeers_handleSwarmEvent hok, syncedPeers_poll hpoll]
    next => exact fun hfailed => absurd (Or.inl ⟨_, rfl⟩) hfailed

theorem mem_syncedPeers_iff {τ : List (State × Act)} (h : Run (State.Step cfg) {} τ s) (hfailed : ¬s.Failed)
    {peerId : PeerId} : peerId ∈ s.syncedPeers ↔ ∃ x ∈ τ, Contacts peerId x.2 := by
  induction h with
  | nil => simp
  | @snoc τ s a s' hr hstep ih =>
    have hbefore : ¬s.Failed := by
      intro hs
      obtain ⟨-, rfl⟩ := hstep.of_failed hs
      exact hfailed hs
    rw [hstep.mem_syncedPeers hfailed, ih hbefore, exists_mem_snoc]

end Synced

/-! ## What a connection sends -/

section Requests

variable {s : State}

theorem requests_flushSend (s : State) (send : DeferredSend) :
    (s.flushSend send).requests =
      s.requests ++ ([send].filter fun send => s.isConnected send.peerId).map DeferredSend.request := by
  unfold State.flushSend
  split
  case isTrue hconnected =>
    rw [State.dispatchSend_requests]
    simp [hconnected, DeferredSend.request]
  case isFalse hconnected => simp [hconnected]

theorem requests_foldl_flushSend (queue : List DeferredSend) (s : State) :
    (queue.foldl State.flushSend s).requests =
      s.requests ++ (queue.filter fun send => s.isConnected send.peerId).map DeferredSend.request := by
  induction queue generalizing s with
  | nil => simp
  | cons send rest ih =>
    have hsame : (s.flushSend send).isConnected = s.isConnected := by
      funext peerId
      rw [State.isConnected, (State.SameLoop.flushSend s send).connections]
      rfl
    rw [List.foldl_cons, ih, requests_flushSend, hsame, List.append_assoc, ← List.map_append, ← List.filter_append]
    rfl

theorem requests_flushDeferredSends (s : State) :
    s.flushDeferredSends.requests =
      s.requests ++ (s.deferred.filter fun send => s.isConnected send.peerId).map DeferredSend.request :=
  requests_foldl_flushSend s.deferred _

theorem requests_sendSnapshots (s : State) (peerId : PeerId) (frames : List Bytes) :
    (s.sendSnapshots peerId frames).requests =
      s.requests ++ frames.map fun frame => ⟨peerId, frame, .snapshot⟩ := by
  unfold State.sendSnapshots
  induction frames generalizing s with
  | nil => simp
  | cons frame frames ih =>
    rw [List.foldl_cons, ih, State.sendRequest]
    simp

/-- The snapshots, and the flush after them. -/
theorem requests_sendSnapshots_flush (s : State) (peerId : PeerId) (frames : List Bytes) (syncedPeers : List PeerId) :
    ({ s.sendSnapshots peerId frames with syncedPeers } : State).flushDeferredSends.requests =
      s.requests ++ ((frames.map fun frame => ⟨peerId, frame, .snapshot⟩) ++
        (s.deferred.filter fun send => s.isConnected send.peerId).map DeferredSend.request) := by
  have hrequests := requests_sendSnapshots s peerId frames
  obtain ⟨requests, outstanding, queued, hsent⟩ := State.Sends.sendSnapshots s peerId frames
  rw [hsent] at hrequests ⊢
  rw [requests_flushDeferredSends, ← List.append_assoc, ← hrequests]
  rfl

/-- The sends deferred for a connected peer, among those deferred for all connected peers. -/
theorem filter_requests (s : State) {peerId : PeerId} (hconnected : s.isConnected peerId = true) :
    ((s.deferred.filter fun send => s.isConnected send.peerId).map DeferredSend.request).filter (·.peerId = peerId) =
      (s.deferred.filter (·.peerId = peerId)).map DeferredSend.request := by
  rw [List.filter_map, List.filter_filter]
  congr 1
  refine List.filter_congr fun send _ => ?_
  by_cases hp : send.peerId = peerId
  · simp [DeferredSend.request, hp, hconnected]
  · simp [DeferredSend.request, hp]

end Requests

/-- **A peer is resynced by the first contact with it only, or by snapshots that wait for it.** In every run, each time a
connection to a peer is established, whether or not another one is open: the snapshots of the local state go to it before
what was deferred for it if and only if they can be encoded and the runtime has neither been connected to the peer before
nor been told to sync it, or the very same snapshots wait in the swarm for the connection. -/
theorem resynced_iff_first_contact {cfg : Config} {τ : List (State × Act)} {s s' : State} {out : Outside}
    {peerId : PeerId} (h : Run (State.Step cfg) {} τ s)
    (hstep : State.Step cfg s (.event out (.connectionEstablished peerId)) s') :
    Resynced cfg out peerId s s' ↔
      (Snapshots cfg out ∧ ∀ x ∈ τ, ¬Contacts peerId x.2) ∨ Waiting cfg out peerId s := by
  cases hstep.turn with
  | stuck hpc _ _ polled hpoll how hstuck => cases hstuck
  | event hpc _ _ polled hpoll =>
    cases hpoll
    have hfailed : ¬s.Failed := State.not_failed_of_pc hpc (by simp) (by simp)
    have hfirst : (∀ x ∈ τ, ¬Contacts peerId x.2) ↔ peerId ∉ s.syncedPeers := by
      rw [mem_syncedPeers_iff h hfailed]
      simp
    rw [hfirst]
    set polled : State := { s with
      connections := Function.update s.connections peerId (s.connections peerId + 1)
      queued := s.queued.filter fun requestId => s.requests[requestId]?.all (·.peerId ≠ peerId) }
    have hconnected : polled.isConnected peerId = true := by simp [State.isConnected, polled]
    by_cases hsynced : peerId ∈ s.syncedPeers
    · -- synced before: after what was kept for it only the deferred sends go out
      rw [or_iff_right fun h => h.2 hsynced]
      have hsent : (State.proceed (handleSwarmEvent cfg out polled (.connectionEstablished peerId))
          fun s => { s.flushDeferredSends with pc := .top }).requests = polled.flushDeferredSends.requests := by
        rw [handleSwarmEvent, if_pos (show peerId ∈ polled.syncedPeers from hsynced)]
        rfl
      rw [requests_flushDeferredSends] at hsent
      unfold Resynced
      rw [hsent, show polled.requests = s.requests from rfl, List.drop_left, filter_requests polled hconnected]
      constructor
      · rintro ⟨frames, first, hframes, heq, hmem⟩
        obtain rfl : s.queuedFor peerId = first := List.append_cancel_right heq
        exact ⟨frames, hframes, hmem⟩
      · rintro ⟨frames, hframes, hmem⟩
        exact ⟨frames, _, hframes, rfl, hmem⟩
    · rw [and_iff_left hsynced]
      cases hframes : out.hooks.snapshotFrames cfg.codec with
      | error err => simp [Resynced, Snapshots, Waiting, hframes]
      | ok frames =>
        refine iff_of_true ⟨frames, s.queuedFor peerId ++ frames.map fun frame => ⟨peerId, frame, .snapshot⟩, hframes, ?_, ?_⟩
          (Or.inl ⟨frames, hframes⟩)
        · have hsent : (State.proceed (handleSwarmEvent cfg out polled (.connectionEstablished peerId))
              fun s => { s.flushDeferredSends with pc := .top }).requests =
              ({ polled.sendSnapshots peerId frames with
                syncedPeers := (polled.sendSnapshots peerId frames).syncedPeers.insert peerId } :
                  State).flushDeferredSends.requests := by
            rw [handleSwarmEvent, if_neg (show peerId ∉ polled.syncedPeers from hsynced), sendControlSnapshotsToPeer,
              hframes]
            rfl
          rw [hsent, requests_sendSnapshots_flush, List.append_assoc]
          congr 1
          show ((polled.requests ++ _).drop polled.requests.length).filter _ = _
          rw [List.drop_left, List.filter_append, filter_requests polled hconnected]
          congr 1
          exact List.filter_eq_self.mpr (by simp)
        · exact fun frame hframe => List.mem_append_right _ (List.mem_map_of_mem hframe)

/-- The first connection with peer `b`, for which a send was deferred. -/
theorem resynced_of_first_connection :
    ∃ (τ : List (State × Act)) (s s' : State), Run (State.Step .bare) {} τ s ∧ s.connections "b" = 0 ∧
      State.Step .bare s (.event .bare (.connectionEstablished "b")) s' ∧ s.deferred = [⟨"b", [7], true, 0⟩] ∧
      Resynced .bare .bare "b" s s' := by
  let acts : List Act := [.enter, .command .bare (.send "b" [7] true), .noCommand]
  have hrun := run_tryPlay (State.next .bare) {} acts (by decide)
  have hstep : State.Step .bare ((tryPlay (State.next .bare) {} acts).get (by decide)).2
    (.event .bare (.connectionEstablished "b")) _ := rfl
  have hfirst := (resynced_iff_first_contact hrun hstep).mpr (Or.inl ⟨⟨_, rfl⟩, by decide⟩)
  exact ⟨_, _, _, hrun, by decide, hstep, by decide, hfirst⟩

/-- Peer `b` was connected and has gone; while it is away, the name `db` is registered here. When it is back, it is sent
nothing. -/
theorem reconnected_peer_gets_no_snapshot :
    ∃ (cfg : Config) (τ : List (State × Act)) (s s' : State) (out : Outside), Run (State.Step cfg) {} τ s ∧
      s.connections "b" = 0 ∧ State.Step cfg s (.event out (.connectionEstablished "b")) s' ∧
      out.hooks.registrySnapshot = some [("db", ⟨"a", 1⟩)] ∧ Snapshots cfg out ∧ ¬Resynced cfg out "b" s s' ∧
      s'.requests = s.requests := by
  let cfg : Config :=
    { Config.bare with
      codec :=
        { Config.bare.codec with
          frame := .ofTable [(.registry (.snapshot []), [1, 2, 0]), (.pg (.snapshot []), [2, 2, 0]),
            (.registry (.snapshot [("db", ⟨"a", 1⟩)]), [1, 2, 1, 2, 100, 98, 1, 97, 1])] } }
  let out : Outside := { Outside.bare with hooks := { Outside.bare.hooks with registrySnapshot := some [("db", ⟨"a", 1⟩)] } }
  let acts : List Act :=
    [.enter, .noCommand, .event .bare (.connectionEstablished "b"), .enter, .noCommand,
      .event .bare (.connectionClosed "b"), .enter, .noCommand]
  have hrun := run_tryPlay (State.next cfg) {} acts (by decide)
  have hstep : State.Step cfg ((tryPlay (State.next cfg) {} acts).get (by decide)).2
    (.event out (.connectionEstablished "b")) _ := rfl
  have hsame : (((tryPlay (State.next cfg) {} acts).get (by decide)).2.next cfg
      (.event out (.connectionEstablished "b"))).map (·.requests) =
    some ((tryPlay (State.next cfg) {} acts).get (by decide)).2.requests := by decide
  rw [show State.next cfg _ _ = some _ from hstep, Option.map_some] at hsame
  have hrequests := Option.some.inj hsame
  refine ⟨cfg, _, _, _, out, hrun, by decide, hstep, rfl, ⟨_, rfl⟩, ?_, hrequests⟩
  rintro ⟨frames, first, hframes, heq, hmem⟩
  have hempty : first = [] := by
    rw [hrequests, List.drop_length, List.filter_nil, List.append_nil] at heq
    exact (List.append_eq_nil_iff.mp heq.symm).1
  obtain rfl : frames = _ := (Except.ok.inj hframes).symm
  exact absurd (hmem _ List.mem_cons_self) (by simp [hempty])

end Spawned.Libp2p
