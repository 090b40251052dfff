import Spawned.Cluster.Libp2p.Runtime

/-!
# Whether a libp2p request is answered

A send that expects a reply waits in the deferred list until its peer is connected, and then in the map of pending requests
until its response comes. Failures come as events too, and the loop looks at neither of them: an `OutboundFailure` of the
request, or an `OutgoingConnectionError` of its peer.

* `Stage`, `At` : where a request is: deferred, pending, answered, or dropped with the loop;
* `Tracked` : every request is in one place, and it is answered exactly when its response came;
* `request_completed_iff` : what the callers can rely on.
-/

namespace Spawned.Libp2p

open Lib

/-- What was sent on the channel of a caller. -/
def State.completionsOf (s : State) (n : Nat) : List (Except TransportError Bytes) :=
  (s.completions.filter (·.1 = n)).map (·.2)

/-! ## Histories -/

/-- Caller `n` sent a request and expects a reply. -/
def Asks (n : Nat) (s : State) (a : Act) : Prop :=
  s.nextCall = n ∧ ∃ out peerId frame, a = .command out (.send peerId frame true)

/-- The response to the request of caller `n`. -/
def Responds (n : Nat) (bytes : Bytes) (s : State) (a : Act) : Prop :=
  ∃ out requestId, a = .event out (.response requestId bytes) ∧ s.pending requestId = some n

/-- A failure of the request of caller `n`: of the request itself, or of the connection it waits for. -/
def Fails (n : Nat) (s : State) (a : Act) : Prop :=
  (∃ out requestId, a = .event out (.outboundFailure requestId) ∧ s.pending requestId = some n) ∨
    ∃ out send, a = .event out (.outgoingConnectionError (some send.peerId)) ∧ send ∈ s.deferred ∧ send.respondTo = n

def Asked (τ : List (State × Act)) (n : Nat) : Prop := ∃ x ∈ τ, Asks n x.1 x.2

def Responded (τ : List (State × Act)) (n : Nat) (bytes : Bytes) : Prop := ∃ x ∈ τ, Responds n bytes x.1 x.2

def RequestFailed (τ : List (State × Act)) (n : Nat) : Prop := ∃ x ∈ τ, Fails n x.1 x.2

/-- Caller `n` was answered exactly once, with `Ok` if a response came and with an error if not, and nothing is kept for
it any more. -/
structure Completed (τ : List (State × Act)) (s : State) (n : Nat) : Prop where
  answered : (∃ bytes, Responded τ n bytes ∧ s.completionsOf n = [.ok bytes]) ∨
    (∀ bytes, ¬Responded τ n bytes) ∧ ∃ err, s.completionsOf n = [.error err]
  notPending : ∀ requestId, s.pending requestId ≠ some n
  notDeferred : ∀ send ∈ s.deferred, send.respondTo ≠ n

/-! ## Where a request is -/

inductive Stage
  | deferred
  | pending
  | completed (bytes : Bytes)
  /-- the loop ended before the request got anywhere -/
  | dropped

/-- What a flush does to the place of a request. -/
def Stage.Moves (stage stage' : Stage) : Prop := stage' = stage ∨ stage = .deferred ∧ stage' = .pending

theorem Stage.Moves.refl (stage : Stage) : stage.Moves stage := Or.inl rfl

theorem Stage.Moves.trans {stage stage' stage'' : Stage} (h : stage.Moves stage') (h' : stage'.Moves stage'') :
    stage.Moves stage'' := by
  rcases h with rfl | ⟨rfl, rfl⟩
  · exact h'
  · rcases h' with rfl | ⟨h', -⟩
    · exact Or.inr ⟨rfl, rfl⟩
    · cases h'

/-- The request of caller `n` is where `stage` says and nowhere else; `queue` are the deferred sends. -/
def At (n : Nat) (queue : List DeferredSend) (s : State) : Stage → Prop
  | .deferred => (∃ send, queue.filter (·.respondTo = n) = [send] ∧ send.expectReply = true) ∧
      (∀ requestId, s.pending requestId ≠ some n) ∧ s.completionsOf n = []
  | .pending => queue.filter (·.respondTo = n) = [] ∧
      (∃ requestId, ∀ id, s.pending id = some n ↔ id = requestId) ∧ s.completionsOf n = []
  | .completed bytes => queue.filter (·.respondTo = n) = [] ∧
      (∀ requestId, s.pending requestId ≠ some n) ∧ s.completionsOf n = [.ok bytes]
  | .dropped => queue.filter (·.respondTo = n) = [] ∧
      (∀ requestId, s.pending requestId ≠ some n) ∧ s.completionsOf n = []

/-- The pending requests are ones that were sent. -/
def Ids (s : State) : Prop := ∀ requestId n, s.pending requestId = some n → requestId < s.requests.length

section Stages

variable {n : Nat} {s s' : State} {queue queue' : List DeferredSend} {stage : Stage}

theorem At.congr (h : At n queue s stage)
    (hqueue : queue'.filter (·.respondTo = n) = queue.filter (·.respondTo = n))
    (hpending : ∀ id, s'.pending id = some n ↔ s.pending id = some n) (hanswers : s'.completionsOf n = s.completionsOf n) :
    At n queue' s' stage := by
  cases stage with
  | deferred => exact ⟨by rw [hqueue]; exact h.1, fun id hid => h.2.1 id ((hpending id).mp hid), by rw [hanswers, h.2.2]⟩
  | pending =>
    obtain ⟨hnone, ⟨requestId, hid⟩, hanswered⟩ := h
    exact ⟨by rw [hqueue, hnone], ⟨requestId, fun id => (hpending id).trans (hid id)⟩, by rw [hanswers, hanswered]⟩
  | completed bytes =>
    exact ⟨by rw [hqueue, h.1], fun id hid => h.2.1 id ((hpending id).mp hid), by rw [hanswers, h.2.2]⟩
  | dropped => exact ⟨by rw [hqueue, h.1], fun id hid => h.2.1 id ((hpending id).mp hid), by rw [hanswers, h.2.2]⟩

/-- The request cannot be pending under an id not drawn yet. -/
theorem Ids.fresh (h : Ids s) : s.pending s.requests.length = none := by
  by_contra hne
  obtain ⟨n, hn⟩ := Option.ne_none_iff_exists'.mp hne
  exact absurd (h _ n hn) (Nat.lt_irrefl _)

theorem Ids.sendRequest (h : Ids s) (peerId : PeerId) (frame : Bytes) (purpose : Purpose) :
    Ids (s.sendRequest peerId frame purpose) := by
  intro requestId n hid
  rw [State.sendRequest, List.length_append]
  exact Nat.lt_succ_of_lt (h requestId n hid)

theorem Ids.dispatchSend (h : Ids s) (send : DeferredSend) : Ids (s.dispatchSend send) := by
  intro requestId n hid
  rw [State.dispatchSend_requests, List.length_append]
  rw [State.dispatchSend_pending] at hid
  split_ifs at hid
  · rw [Table.insert_apply] at hid
    split_ifs at hid with he
    · exact he ▸ Nat.lt_succ_self _
    · exact Nat.lt_succ_of_lt (h requestId n hid)
  · exact Nat.lt_succ_of_lt (h requestId n hid)

theorem Ids.flushSend (h : Ids s) (send : DeferredSend) : Ids (s.flushSend send) := by
  unfold State.flushSend
  split
  · exact h.dispatchSend send
  · exact h

/-- A send of another caller. -/
theorem At.dispatchSend_other (h : At n queue s stage) (hids : Ids s) {send : DeferredSend} (hne : send.respondTo ≠ n) :
    At n queue (s.dispatchSend send) stage := by
  refine h.congr rfl (fun id => ?_) ?_
  · rw [State.dispatchSend_pending]
    split_ifs
    · rw [Table.insert_apply]
      split_ifs with he
      · rw [he, hids.fresh]
        simp [hne]
      · rfl
    · rfl
  · rw [State.completionsOf, State.dispatchSend_completions]
    split_ifs
    · rfl
    · simp [State.completionsOf, hne]

/-- The send of the caller itself. -/
theorem At.dispatchSend_own (send : DeferredSend) (hn : send.respondTo = n) (hreply : send.expectReply = true)
    (hqueue : queue.filter (·.respondTo = n) = []) (hpending : ∀ id, s.pending id ≠ some n)
    (hanswers : s.completionsOf n = []) : At n queue (s.dispatchSend send) .pending := by
  refine ⟨hqueue, ⟨s.requests.length, fun id => ?_⟩, ?_⟩
  · rw [State.dispatchSend_pending, if_pos hreply, Table.insert_apply]
    split_ifs with he
    · simp [he, hn]
    · simp [he, hpending id]
  · rw [State.completionsOf, State.dispatchSend_completions, if_pos hreply]
    exact hanswers

/-- One turn of the flush: the request stays deferred, or becomes pending, or is elsewhere and stays there. -/
theorem At.flushSend {rest : List DeferredSend} {send : DeferredSend} (h : At n (s.deferred ++ send :: rest) s stage)
    (hids : Ids s) :
    ∃ stage', At n ((s.flushSend send).deferred ++ rest) (s.flushSend send) stage' ∧ stage.Moves stage' := by
  unfold State.flushSend
  split
  case isFalse =>
    exact ⟨stage, h.congr (by simp) (fun _ => Iff.rfl) rfl, .refl stage⟩
  case isTrue =>
    rw [State.dispatchSend_deferred]
    by_cases hn : send.respondTo = n
    · -- the send is the one the request waits in
      have hfilter : (s.deferred ++ send :: rest).filter (·.respondTo = n) =
          s.deferred.filter (·.respondTo = n) ++ send :: rest.filter (·.respondTo = n) := by
        simp [hn]
      cases stage with
      | deferred =>
        obtain ⟨⟨send', hsend', hreply⟩, hpending, hanswers⟩ := h
        rw [hfilter, List.append_eq_singleton_iff] at hsend'
        obtain ⟨hbefore, hafter⟩ | ⟨-, hafter⟩ := hsend'
        · obtain ⟨rfl, hrest⟩ := List.cons_eq_cons.mp hafter
          refine ⟨.pending, At.dispatchSend_own send hn hreply ?_ hpending hanswers, Or.inr ⟨rfl, rfl⟩⟩
          rw [List.filter_append, hbefore, hrest]
          rfl
        · cases hafter
      | pending => exact absurd (hfilter.symm.trans h.1) (by simp)
      | completed bytes => exact absurd (hfilter.symm.trans h.1) (by simp)
      | dropped => exact absurd (hfilter.symm.trans h.1) (by simp)
    · refine ⟨stage, At.dispatchSend_other ?_ hids hn, .refl stage⟩
      exact h.congr (by simp [hn]) (fun _ => Iff.rfl) rfl

theorem At.flush (h : At n (s.deferred ++ queue) s stage) (hids : Ids s) :
    ∃ stage', At n (queue.foldl State.flushSend s).deferred (queue.foldl State.flushSend s) stage' ∧
      stage.Moves stage' := by
  induction queue generalizing s stage with
  | nil => exact ⟨stage, by simpa using h, .refl stage⟩
  | cons send rest ih =>
    obtain ⟨stage₁, h₁, hmoves₁⟩ := h.flushSend hids
    obtain ⟨stage₂, h₂, hmoves₂⟩ := ih h₁ (hids.flushSend send)
    exact ⟨stage₂, h₂, hmoves₁.trans hmoves₂⟩

theorem At.flushDeferredSends (h : At n s.deferred s stage) (hids : Ids s) :
    ∃ stage', At n s.flushDeferredSends.deferred s.flushDeferredSends stage' ∧ stage.Moves stage' := by
  have hstart : At n ([] ++ s.deferred) { s with deferred := [] } stage := h.congr rfl (fun _ => Iff.rfl) rfl
  exact At.flush hstart hids

theorem Ids.flushDeferredSends (h : Ids s) : Ids s.flushDeferredSends := by
  have hfold : ∀ (queue : List DeferredSend) (s : State), Ids s → Ids (queue.foldl State.flushSend s) := by
    intro queue
    induction queue with
    | nil => exact fun _ h => h
    | cons send rest ih => exact fun s h => ih _ (h.flushSend send)
  exact hfold s.deferred _ h

end Stages

/-! ## One turn of the loop -/

/-- Nothing happens to those who wait for a reply. -/
structure Quiet (s s' : State) : Prop where
  pending : s'.pending = s.pending
  deferred : s'.deferred = s.deferred
  completions : s'.completions = s.completions
  requests : s.requests.length ≤ s'.requests.length

namespace Quiet

theorem refl (s : State) : Quiet s s := ⟨rfl, rfl, rfl, Nat.le_refl _⟩

theorem trans {s s' s'' : State} (h : Quiet s s') (h' : Quiet s' s'') : Quiet s s'' :=
  ⟨h'.pending.trans h.pending, h'.deferred.trans h.deferred, h'.completions.trans h.completions,
    Nat.le_trans h.requests h'.requests⟩

theorem of_sends {s s' : State} (h : s.Sends s') : Quiet s s' := by
  obtain ⟨requests, outstanding, queued, rfl⟩ := h
  exact ⟨rfl, rfl, rfl, by simp⟩

theorem syncPeer (cfg : Config) (out : Outside) (s : State) (respondTo : Nat) (peerId : PeerId) :
    Quiet s (handleCommand cfg out s respondTo (.syncPeer peerId)).1 := by
  simp only [handleCommand]
  split
  · exact refl s
  · split
    next heq => exact of_sends (.sendControlSnapshotsToPeer heq)
    next heq => exact (of_sends (.sendControlSnapshotsToPeer heq)).trans ⟨rfl, rfl, rfl, Nat.le_refl _⟩

theorem poll {s s' : State} {event : SwarmEvent} (h : s.poll event = some s') : Quiet s s' := by
  obtain ⟨connections, outstanding, queued, rfl⟩ := State.poll_eq h
  exact ⟨rfl, rfl, rfl, Nat.le_refl _⟩

/-- Only a response that somebody waits for is passed on. -/
theorem handleSwarmEvent (cfg : Config) (out : Outside) (s : State) (event : SwarmEvent) :
    Quiet s (handleSwarmEvent cfg out s event).1 ∨
      ∃ requestId response m, event = .response requestId response ∧ s.pending requestId = some m ∧
        (handleSwarmEvent cfg out s event).1 =
          { s with pending := s.pending.remove requestId }.complete m (.ok response) := by
  cases event with
  | connectionEstablished peerId =>
    left
    simp only [Libp2p.handleSwarmEvent]
    split_ifs
    · exact refl s
    · split
      next heq => exact of_sends (.sendControlSnapshotsToPeer heq)
      next heq => exact (of_sends (.sendControlSnapshotsToPeer heq)).trans ⟨rfl, rfl, rfl, Nat.le_refl _⟩
  | request peerId frame =>
    left
    simp only [Libp2p.handleSwarmEvent]
    split
    · exact refl s
    · exact ⟨rfl, rfl, rfl, Nat.le_refl _⟩
  | response requestId response =>
    simp only [Libp2p.handleSwarmEvent]
    cases hm : s.pending requestId with
    | none => exact Or.inl (refl s)
    | some m => exact Or.inr ⟨requestId, response, m, rfl, hm, rfl⟩
  | newListenAddr => exact Or.inl ⟨rfl, rfl, rfl, Nat.le_refl _⟩
  | connectionClosed | outboundFailure | outgoingConnectionError | other => exact Or.inl (refl s)

end Quiet

section Turns

variable (cfg : Config) (out : Outside) {n : Nat} {s s' : State} {a : Act} {stage : Stage}

theorem Ids.quiet (h : Ids s) (hq : Quiet s s') : Ids s' := by
  intro requestId n hid
  rw [hq.pending] at hid
  exact Nat.lt_of_lt_of_le (h requestId n hid) hq.requests

theorem At.quiet (h : At n s.deferred s stage) (hq : Quiet s s') : At n s'.deferred s' stage :=
  h.congr (by rw [hq.deferred]) (fun id => by rw [hq.pending]) (by rw [State.completionsOf, hq.completions]; rfl)

theorem Ids.handleCommand (h : Ids s) (respondTo : Nat) (cmd : RuntimeCommand) :
    Ids (handleCommand cfg out s respondTo cmd).1 := by
  cases cmd with
  | send peerId frame expectReply =>
    simp only [Libp2p.handleCommand]
    split
    · exact h
    · split_ifs
      · exact h.dispatchSend _
      · exact h
  | broadcast frame => exact h.quiet (.of_sends (.broadcastTo frame s cfg.peers))
  | syncPeer peerId => exact h.quiet (Quiet.syncPeer cfg out s respondTo peerId)

/-- The command of another caller. -/
theorem At.handleCommand_other (h : At n s.deferred s stage) (hids : Ids s) {respondTo : Nat} (hne : respondTo ≠ n)
    (cmd : RuntimeCommand) :
    At n (handleCommand cfg out s respondTo cmd).1.deferred (handleCommand cfg out s respondTo cmd).1 stage := by
  cases cmd with
  | send peerId frame expectReply =>
    simp only [Libp2p.handleCommand]
    split
    · exact h
    · split_ifs
      · rw [State.dispatchSend_deferred]
        exact h.dispatchSend_other hids hne
      · exact h.congr (by simp [hne]) (fun _ => Iff.rfl) rfl
  | broadcast frame => exact h.quiet (.of_sends (.broadcastTo frame s cfg.peers))
  | syncPeer peerId => exact h.quiet (Quiet.syncPeer cfg out s respondTo peerId)

/-- The command by which caller `n` asks: its request is deferred or pending, or the loop ends. -/
theorem At.handleCommand_ask (h : At n s.deferred s .dropped) (peerId : PeerId) (frame : Bytes) :
    ∃ stage, At n (handleCommand cfg out s n (.send peerId frame true)).1.deferred
      (handleCommand cfg out s n (.send peerId frame true)).1 stage ∧ ∀ bytes, stage ≠ .completed bytes := by
  obtain ⟨hqueue, hpending, hanswers⟩ := h
  simp only [Libp2p.handleCommand]
  split
  · exact ⟨.dropped, ⟨hqueue, hpending, hanswers⟩, by simp⟩
  · split_ifs
    · refine ⟨.pending, ?_, by simp⟩
      rw [State.dispatchSend_deferred]
      exact At.dispatchSend_own ⟨peerId, frame, true, n⟩ rfl rfl hqueue hpending hanswers
    · refine ⟨.deferred, ⟨⟨⟨peerId, frame, true, n⟩, ?_, rfl⟩, hpending, hanswers⟩, by simp⟩
      simp [hqueue]

/-- The response to the request of caller `n`. -/
theorem At.response (h : At n s.deferred s stage) {requestId : RequestId}
    (hid : s.pending requestId = some n) (response : Bytes) :
    At n (handleSwarmEvent cfg out s (.response requestId response)).1.deferred
      (handleSwarmEvent cfg out s (.response requestId response)).1 (.completed response) := by
  simp only [Libp2p.handleSwarmEvent, hid]
  cases stage with
  | pending =>
    obtain ⟨hqueue, ⟨requestId', honly⟩, hanswers⟩ := h
    obtain rfl := (honly requestId).mp hid
    refine ⟨hqueue, fun id hpending => ?_, ?_⟩
    · have hremoved : s.pending.remove requestId id = some n := hpending
      rw [Table.remove_apply] at hremoved
      split_ifs at hremoved with he
      exact he ((honly id).mp hremoved)
    · have hempty : s.completions.filter (·.1 = n) = [] := List.map_eq_nil_iff.mp hanswers
      simp [State.completionsOf, State.complete, hempty]
  | deferred => exact absurd hid (h.2.1 requestId)
  | completed bytes => exact absurd hid (h.2.1 requestId)
  | dropped => exact absurd hid (h.2.1 requestId)

/-- A response to another caller, or to nobody. -/
theorem At.handleSwarmEvent_other (h : At n s.deferred s stage) {event : SwarmEvent}
    (hother : ∀ requestId response, event = .response requestId response → s.pending requestId ≠ some n) :
    At n (handleSwarmEvent cfg out s event).1.deferred (handleSwarmEvent cfg out s event).1 stage := by
  rcases Quiet.handleSwarmEvent cfg out s event with hquiet | ⟨requestId, response, m, rfl, hm, hs'⟩
  · exact h.quiet hquiet
  · have hne : m ≠ n := fun he => hother requestId response rfl (he ▸ hm)
    rw [hs']
    refine h.congr rfl (fun id => ?_) ?_
    · show s.pending.remove requestId id = some n ↔ s.pending id = some n
      rw [Table.remove_apply]
      split_ifs with he
      · rw [he, hm]
        simp [hne]
      · rfl
    · simp [State.completionsOf, State.complete, hne]

theorem Ids.handleSwarmEvent (h : Ids s) (event : SwarmEvent) :
    Ids (handleSwarmEvent cfg out s event).1 := by
  rcases Quiet.handleSwarmEvent cfg out s event with hquiet | ⟨requestId, response, m, rfl, hm, hs'⟩
  · exact h.quiet hquiet
  · intro id k hk
    rw [hs'] at hk ⊢
    simp only [State.complete, Table.remove_apply] at hk ⊢
    split_ifs at hk
    exact h id k hk

/-- After a call that may fail, with the flush where there is one. -/
theorem At.proceed_flush {p : State × Except TransportError Unit} (h : At n p.1.deferred p.1 stage) (hids : Ids p.1)
    (pc : LoopPc) :
    ∃ stage', At n (State.proceed p fun s => { s.flushDeferredSends with pc }).deferred
      (State.proceed p fun s => { s.flushDeferredSends with pc }) stage' ∧ stage.Moves stage' := by
  unfold State.proceed
  split
  · exact h.flushDeferredSends hids
  · exact ⟨stage, h, .refl stage⟩

variable {cfg}

/-- One turn of the loop, for a caller whose command it does not take. -/
theorem At.turn (h : At n s.deferred s stage) (hids : Ids s) (hturn : Turn cfg s a s')
    (hcmd : ∀ out cmd, a = .command out cmd → s.nextCall ≠ n) :
    ∃ stage', At n s'.deferred s' stage' ∧
      ((stage.Moves stage' ∧ ∀ bytes, ¬Responds n bytes s a) ∨
        ∃ bytes, Responds n bytes s a ∧ stage' = .completed bytes) := by
  have hquiet : ∀ {a : Act}, (∀ out event, a ≠ .event out event) → ∀ bytes, ¬Responds n bytes s a := by
    rintro a hne bytes ⟨out, requestId, rfl, -⟩
    exact hne _ _ rfl
  cases hturn with
  | requestShutdown | leave | enter | sleep => exact ⟨stage, h, Or.inl ⟨.refl stage, hquiet (by simp)⟩⟩
  | command hpc out cmd =>
    refine ⟨stage, ?_, Or.inl ⟨.refl stage, hquiet (by simp)⟩⟩
    have hafter := At.handleCommand_other cfg out (s := { s with nextCall := s.nextCall + 1 }) h hids (hcmd out cmd rfl) cmd
    unfold State.proceed
    split
    · exact hafter
    · exact hafter
  | noCommand hpc =>
    obtain ⟨stage', h', hmoves⟩ := h.flushDeferredSends hids
    exact ⟨stage', h', Or.inl ⟨hmoves, hquiet (by simp)⟩⟩
  | stuck hpc out event polled hpoll how hstuck =>
    have hpolled := Quiet.poll hpoll
    refine ⟨stage, (h.quiet hpolled).congr rfl (fun _ => Iff.rfl) rfl, Or.inl ⟨.refl stage, ?_⟩⟩
    -- a response that somebody waits for goes to no hook
    rintro bytes ⟨out', requestId, he, hid⟩
    cases he
    rw [← hpolled.pending] at hid
    simp [stuckAt, hookFrame, hid] at hstuck
  | event hpc out event polled hpoll =>
    have hpolled := Quiet.poll hpoll
    have hat := h.quiet hpolled
    have hids' := (hids.quiet hpolled).handleSwarmEvent cfg out event
    by_cases hown : ∃ requestId response, event = .response requestId response ∧ s.pending requestId = some n
    · obtain ⟨requestId, response, rfl, hid⟩ := hown
      rw [← hpolled.pending] at hid
      obtain ⟨stage', h', hmoves⟩ := (hat.response cfg out hid response).proceed_flush hids' .top
      rw [hpolled.pending] at hid
      refine ⟨stage', h', Or.inr ⟨response, ⟨out, requestId, rfl, hid⟩, ?_⟩⟩
      rcases hmoves with he | ⟨he, -⟩
      · exact he
      · cases he
    · have hother : ∀ requestId response, event = .response requestId response → polled.pending requestId ≠ some n := by
        intro requestId response he hid
        rw [hpolled.pending] at hid
        exact hown ⟨requestId, response, he, hid⟩
      obtain ⟨stage', h', hmoves⟩ := (hat.handleSwarmEvent_other cfg out hother).proceed_flush hids' .top
      refine ⟨stage', h', Or.inl ⟨hmoves, ?_⟩⟩
      rintro bytes ⟨out', requestId, he, hid⟩
      cases he
      exact hown ⟨requestId, bytes, rfl, hid⟩

theorem Ids.turn (h : Ids s) (hturn : Turn cfg s a s') : Ids s' := by
  cases hturn with
  | requestShutdown | leave | enter | sleep => exact h
  | command hpc out cmd =>
    have hafter := Ids.handleCommand cfg out (s := { s with nextCall := s.nextCall + 1 }) h s.nextCall cmd
    unfold State.proceed
    split <;> exact hafter
  | noCommand hpc => exact h.flushDeferredSends
  | stuck hpc out event polled hpoll =>
    have hafter : Ids polled := h.quiet (Quiet.poll hpoll)
    exact hafter
  | event hpc out event polled hpoll =>
    have hafter := (h.quiet (Quiet.poll hpoll)).handleSwarmEvent cfg out event
    unfold State.proceed
    split
    · exact hafter.flushDeferredSends
    · exact hafter

end Turns

/-! ## Runs -/

/-- Every caller that asked has its request in one place, with an answer exactly if a response came; the numbers to come
are not in use. -/
structure Tracked (τ : List (State × Act)) (s : State) : Prop where
  ids : Ids s
  unused : ∀ n, s.nextCall ≤ n → At n s.deferred s .dropped ∧ ∀ bytes, ¬Responded τ n bytes
  asked : ∀ n, Asked τ n → n < s.nextCall ∧
    ∃ stage, At n s.deferred s stage ∧ ∀ bytes, stage = .completed bytes ↔ Responded τ n bytes

namespace Tracked

variable {cfg : Config} {τ : List (State × Act)} {n : Nat} {s s' : State} {a : Act}

theorem init : Tracked [] {} := by
  refine ⟨fun requestId n h => ?_, fun n _ => ⟨⟨rfl, fun _ => by simp, rfl⟩, ?_⟩, ?_⟩
  · cases h
  · rintro bytes ⟨x, hx, -⟩
    cases hx
  · rintro n ⟨x, hx, -⟩
    cases hx

/-- A caller that asked before this turn. -/
theorem asked_step (h : Tracked τ s) (hturn : Turn cfg s a s') (hasked : Asked τ n) :
    n < s'.nextCall ∧ ∃ stage, At n s'.deferred s' stage ∧
      ∀ bytes, stage = .completed bytes ↔ Responded (τ ++ [(s, a)]) n bytes := by
  obtain ⟨hlt, stage, hat, hiff⟩ := h.asked n hasked
  have hnext := hturn.nextCall
  refine ⟨?_, ?_⟩
  · rw [hnext]
    split_ifs <;> omega
  · obtain ⟨stage', hat', hcases⟩ := hat.turn h.ids hturn fun _ _ _ => Nat.ne_of_gt hlt
    refine ⟨stage', hat', fun bytes => ?_⟩
    rw [Responded, exists_mem_snoc]
    change _ ↔ Responded τ n bytes ∨ _
    rw [← hiff]
    rcases hcases with ⟨hmoves, hnot⟩ | ⟨bytes', hresponds, rfl⟩
    · rw [or_iff_left (hnot bytes)]
      rcases hmoves with rfl | ⟨rfl, rfl⟩ <;> simp
    · obtain ⟨out, requestId, rfl, hid⟩ := hresponds
      have hpending : ∀ bytes, stage ≠ .completed bytes := by
        rintro bytes rfl
        exact hat.2.1 requestId hid
      simp only [hpending, false_or, Stage.completed.injEq]
      constructor
      · rintro rfl
        exact ⟨out, requestId, rfl, hid⟩
      · rintro ⟨out', requestId', he, -⟩
        cases he
        rfl

/-- The caller that asks in this turn. -/
theorem asks_step (h : Tracked τ s) (hturn : Turn cfg s a s') (hasks : Asks n s a) :
    n < s'.nextCall ∧ ∃ stage, At n s'.deferred s' stage ∧
      ∀ bytes, stage = .completed bytes ↔ Responded (τ ++ [(s, a)]) n bytes := by
  obtain ⟨rfl, out, peerId, frame, rfl⟩ := hasks
  obtain ⟨hat, hnone⟩ := h.unused s.nextCall (Nat.le_refl _)
  refine ⟨?_, ?_⟩
  · rw [hturn.nextCall]
    exact Nat.lt_succ_self _
  · cases hturn with
    | command hpc out cmd =>
      obtain ⟨stage, hat', hnot⟩ :=
        At.handleCommand_ask cfg out (s := { s with nextCall := s.nextCall + 1 }) hat peerId frame
      refine ⟨stage, ?_, fun bytes => iff_of_false (hnot bytes) ?_⟩
      · unfold State.proceed
        split <;> exact hat'
      · rw [Responded, exists_mem_snoc]
        rintro (hbefore | ⟨out', requestId, he, -⟩)
        · exact hnone bytes hbefore
        · cases he

theorem unused_step (h : Tracked τ s) (hturn : Turn cfg s a s') (hle : s'.nextCall ≤ n) :
    At n s'.deferred s' .dropped ∧ ∀ bytes, ¬Responded (τ ++ [(s, a)]) n bytes := by
  have hnext := hturn.nextCall
  have hle' : s.nextCall ≤ n := by
    rw [hnext] at hle
    split_ifs at hle <;> omega
  obtain ⟨hat, hnone⟩ := h.unused n hle'
  have hnot : ∀ bytes, ¬Responds n bytes s a := by
    rintro bytes ⟨out, requestId, rfl, hid⟩
    exact hat.2.1 requestId hid
  obtain ⟨stage', hat', hcases⟩ := hat.turn h.ids hturn (by
    rintro out cmd rfl
    rw [hnext] at hle
    exact Nat.ne_of_lt hle)
  refine ⟨?_, fun bytes => ?_⟩
  · rcases hcases with ⟨rfl | ⟨he, -⟩, -⟩ | ⟨bytes, hresponds, -⟩
    · exact hat'
    · cases he
    · exact absurd hresponds (hnot bytes)
  · rw [Responded, exists_mem_snoc]
    rintro (hbefore | hlast)
    · exact hnone bytes hbefore
    · exact hnot bytes hlast

theorem step (h : Tracked τ s) (hstep : State.Step cfg s a s') : Tracked (τ ++ [(s, a)]) s' := by
  have hturn := hstep.turn
  refine ⟨h.ids.turn hturn, fun n hle => h.unused_step hturn hle, fun n hasked => ?_⟩
  rw [Asked, exists_mem_snoc] at hasked
  rcases hasked with hasked | hasks
  · exact h.asked_step hturn hasked
  · exact h.asks_step hturn hasks

theorem run (h : Run (State.Step cfg) {} τ s) : Tracked τ s :=
  h.inv_history init fun _ _ _ _ htracked hstep => htracked.step hstep

/-- A request is completed as it should be exactly when its response has come. -/
theorem completed_iff (h : Tracked τ s) (hasked : Asked τ n) : Completed τ s n ↔ ∃ bytes, Responded τ n bytes := by
  obtain ⟨-, stage, hat, hiff⟩ := h.asked n hasked
  constructor
  · rintro ⟨⟨bytes, hresponded, -⟩ | ⟨-, err, herr⟩, -, -⟩
    · exact ⟨bytes, hresponded⟩
    · cases stage <;> simp [At, herr] at hat
  · rintro ⟨bytes, hresponded⟩
    obtain rfl := (hiff bytes).mpr hresponded
    obtain ⟨hqueue, hpending, hanswers⟩ := hat
    refine ⟨Or.inl ⟨bytes, hresponded, hanswers⟩, hpending, fun send hsend hn => ?_⟩
    have hmem : send ∈ s.deferred.filter (·.respondTo = n) := List.mem_filter.mpr ⟨hsend, by simpa using hn⟩
    rw [hqueue] at hmem
    cases hmem

end Tracked

/-- **Which requests are completed.** In every run, for every request: that it is completed once its peer has answered or
failed, with `Ok` or an error and nothing left behind, is true exactly if a failure of it was followed by a response after
all. -/
theorem request_completed_iff {cfg : Config} {τ : List (State × Act)} {s : State} (h : Run (State.Step cfg) {} τ s)
    {n : Nat} (hasked : Asked τ n) :
    ((∃ bytes, Responded τ n bytes) ∨ RequestFailed τ n → Completed τ s n) ↔
      (RequestFailed τ n → ∃ bytes, Responded τ n bytes) := by
  rw [(Tracked.run h).completed_iff hasked]
  constructor
  · exact fun hsettled hfailed => hsettled (Or.inr hfailed)
  · rintro hcond (hresponded | hfailed)
    · exact hresponded
    · exact hcond hfailed

/-- A request to a connected peer that answers. -/
theorem request_completed_of_response :
    ∃ (τ : List (State × Act)) (s : State), Run (State.Step .bare) {} τ s ∧ Asked τ 0 ∧ Responded τ 0 [8] ∧
      Completed τ s 0 := by
  let acts : List Act :=
    [.enter, .noCommand, .event .bare (.connectionEstablished "b"), .enter, .command .bare (.send "b" [7] true),
      .noCommand, .event .bare (.response 2 [8])]
  have hrun := run_tryPlay (State.next .bare) {} acts (by decide)
  have hasked : Asked ((tryPlay (State.next .bare) {} acts).get (by decide)).1 0 :=
    ⟨_, List.mem_of_getElem? (i := 4) rfl, rfl, .bare, "b", [7], rfl⟩
  have hresponded : Responded ((tryPlay (State.next .bare) {} acts).get (by decide)).1 0 [8] :=
    ⟨_, List.mem_of_getElem? (i := 6) rfl, .bare, 2, rfl, rfl⟩
  refine ⟨_, _, hrun, hasked, hresponded, ?_⟩
  exact (request_completed_iff hrun hasked).mpr (fun _ => ⟨_, hresponded⟩) (Or.inl ⟨_, hresponded⟩)

/-- A request to a connected peer that fails, and one to a peer that cannot be connected to: the callers are not answered,
and their requests are kept. -/
theorem failed_request_hangs :
    (∃ (τ : List (State × Act)) (s : State), Run (State.Step .bare) {} τ s ∧ Asked τ 0 ∧ RequestFailed τ 0 ∧
      ¬Completed τ s 0 ∧ s.pending 2 = some 0 ∧ s.completionsOf 0 = []) ∧
    ∃ (τ : List (State × Act)) (s : State), Run (State.Step .bare) {} τ s ∧ Asked τ 0 ∧ RequestFailed τ 0 ∧
      ¬Completed τ s 0 ∧ s.deferred = [⟨"b", [7], true, 0⟩] ∧ s.completionsOf 0 = [] := by
  constructor
  · let acts : List Act :=
      [.enter, .noCommand, .event .bare (.connectionEstablished "b"), .enter, .command .bare (.send "b" [7] true),
        .noCommand, .event .bare (.outboundFailure 2)]
    have hrun := run_tryPlay (State.next .bare) {} acts (by decide)
    refine ⟨_, _, hrun, ⟨_, List.mem_of_getElem? (i := 4) rfl, rfl, .bare, "b", [7], rfl⟩,
      ⟨_, List.mem_of_getElem? (i := 6) rfl, Or.inl ⟨.bare, 2, rfl, rfl⟩⟩, fun h => ?_, rfl, rfl⟩
    exact h.notPending 2 rfl
  · let acts : List Act :=
      [.enter, .command .bare (.send "b" [7] true), .noCommand, .event .bare (.outgoingConnectionError (some "b"))]
    have hrun := run_tryPlay (State.next .bare) {} acts (by decide)
    refine ⟨_, _, hrun, ⟨_, List.mem_of_getElem? (i := 1) rfl, rfl, .bare, "b", [7], rfl⟩,
      ⟨_, List.mem_of_getElem? (i := 3) rfl, Or.inr ⟨.bare, ⟨"b", [7], true, 0⟩, rfl, List.mem_singleton.mpr rfl, rfl⟩⟩,
      fun h => ?_, rfl, rfl⟩
    exact h.notDeferred _ (List.mem_singleton.mpr rfl) rfl

end Spawned.Libp2p
