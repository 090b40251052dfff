import Spawned.Actor.Life
import Spawned.Cluster.Broker

/-!
# Remote spawn with retries

`request_spawn_with_retry_async` and `_blocking` send a `SpawnRequest`, wait for its reply, and send another one after
every transport error. The home node cannot tell a lost request from a lost reply, and nothing at the placement node
recognises a request of the same call.

* `SpawnStep` : one call, the messages it has in flight and the placement node; the network delivers, loses or delays
  each message, and a request still in flight may be applied long after its attempt was given up;
* `SpawnInv` : every attempt has its own correlation id, is applied at most once, and starts at most one child;
* `remote_spawn_once_per_attempt` : what a call leaves on the placement node.
-/

namespace Spawned

open Lib

/-- Retry policy of remote spawn requests. -/
structure RemoteSpawnRetryPolicy where
  maxAttempts : Nat := 3
  baseDelay : Duration := 50 * 1000000
  maxDelay : Duration := 2 * 1000000000
deriving DecidableEq, Repr

def transportRetryDelay (attempt : Nat) (policy : RemoteSpawnRetryPolicy) : Duration :=
  let exp := min (attempt - 1) 16
  min (Duration.saturatingMul policy.baseDelay (2 ^ exp)) policy.maxDelay

def isTransportError : RemoteSpawnError → Bool
  | .transport _ => true
  | _ => false

/-- How `request_spawn` reads the transport's answer to its envelope. -/
def readSpawnReply (correlationId : Nat) :
    Except TransportError SupervisionEnvelope → Except RemoteSpawnError ActorAddress
  | .error err => .error (.ofTransport err)
  | .ok reply =>
    if reply.correlationId ≠ correlationId then .error .invalidReply
    else
      match reply.event with
      | .spawnOk child => .ok child
      | .spawnErr error => .error (.spawnFailed error)
      | _ => .error .invalidReply

/-- Where the retry loop is. -/
inductive HomePc
  | calling
  | waiting (correlationId : Nat)
  | sleeping (delay : Duration)
  | done (result : Except RemoteSpawnError ActorAddress)

/-- One call of `request_spawn_with_retry_async` (tasks) or `request_spawn_with_retry_blocking` (threads). -/
structure SpawnCall where
  runtime : Runtime
  placement : NodeId
  parent : ActorAddress
  spec : RemoteSpawnSpec
  link : Bool
  policy : RemoteSpawnRetryPolicy

namespace SpawnCall

/-- The match of the loop on the result of attempt `attempt`. -/
def afterAttempt (call : SpawnCall) (attempt : Nat) : Except RemoteSpawnError ActorAddress → HomePc
  | .ok address => .done (.ok address)
  | .error err =>
    if isTransportError err && decide (attempt < call.policy.maxAttempts) then
      .sleeping (transportRetryDelay attempt call.policy)
    else .done (.error err)

/-- The call, its messages in flight, and what it has led to so far. -/
structure State where
  attempt : Nat := 0
  home : HomePc := .calling
  /-- the next value of `CORRELATION` -/
  correlation : Nat := 1
  requests : List SupervisionEnvelope := []
  replies : List SupervisionEnvelope := []
  /-- the correlation ids of the attempts made -/
  sent : List Nat := []
  /-- the attempts that ended without their own reply -/
  abandoned : List Nat := []
  /-- the children started on the placement node for this call, with the attempt each was started for -/
  started : List (Nat × ActorAddress) := []

def request (call : SpawnCall) (correlationId : Nat) : SupervisionEnvelope where
  correlationId := correlationId
  event := .spawnRequest call.parent call.placement call.spec call.link

/-- The children started on `node` in the name of an attempt. -/
def startedFor (correlationId : Nat) (node : NodeId) (τ : BrokerTrace) : List (Nat × ActorAddress) :=
  (SupervisionBrokerInner.startedBy τ).map fun id => (correlationId, ⟨node, id⟩)

/-- Who acts. -/
inductive Act
  | draw
  | send
  | wake
  | receive (reply : SupervisionEnvelope)
  | fail (err : TransportError)
  | joinError
  | apply (request : SupervisionEnvelope)
  | loseRequest (request : SupervisionEnvelope)
  | loseReply (reply : SupervisionEnvelope)

/-- The steps of the home node, the placement node and the network. -/
inductive SpawnStep (call : SpawnCall) : State → Act → State → Prop
  /-- another call draws a correlation id -/
  | draw {s : State} : SpawnStep call s .draw { s with correlation := s.correlation + 1 }
  | send {s : State} (h : s.home = .calling) :
      SpawnStep call s .send { s with
        attempt := s.attempt + 1
        home := .waiting s.correlation
        correlation := s.correlation + 1
        requests := s.requests ++ [call.request s.correlation]
        sent := s.sent ++ [s.correlation] }
  | wake {s : State} {delay : Duration} (h : s.home = .sleeping delay) :
      SpawnStep call s .wake { s with home := .calling }
  /-- the transport hands out a reply, late ones of earlier attempts included -/
  | receive {s : State} {id : Nat} {reply : SupervisionEnvelope} (h : s.home = .waiting id) (hr : reply ∈ s.replies) :
      SpawnStep call s (.receive reply) { s with
        home := call.afterAttempt s.attempt (readSpawnReply id (.ok reply))
        replies := s.replies.erase reply
        abandoned := if reply.correlationId = id then s.abandoned else s.abandoned ++ [id] }
  | fail {s : State} {id : Nat} (err : TransportError) (h : s.home = .waiting id) :
      SpawnStep call s (.fail err) { s with
        home := call.afterAttempt s.attempt (readSpawnReply id (.error err))
        abandoned := s.abandoned ++ [id] }
  /-- the blocking task of `request_spawn_async` is cancelled or panics -/
  | joinError {s : State} {id : Nat} (ht : call.runtime = .tasks) (h : s.home = .waiting id) :
      SpawnStep call s .joinError { s with
        home := call.afterAttempt s.attempt (.error (.spawnFailed "spawn task failed"))
        abandoned := s.abandoned ++ [id] }
  /-- the placement node, whatever state its broker is in, applies a request in flight -/
  | apply {s : State} {request reply : SupervisionEnvelope} {parent : ActorAddress} {placement : NodeId}
      {spec : RemoteSpawnSpec} {link : Bool} {b b' : SupervisionBrokerInner} {τ : BrokerTrace}
      (hr : request ∈ s.requests) (hevent : request.event = .spawnRequest parent placement spec link)
      (hexec : (b.applySpawn request.correlationId parent placement spec link).Exec τ (b', .ok reply)) :
      SpawnStep call s (.apply request) { s with
        requests := s.requests.erase request
        replies := s.replies ++ [reply]
        started := s.started ++ startedFor request.correlationId b.localNode τ }
  | loseRequest {s : State} {request : SupervisionEnvelope} :
      SpawnStep call s (.loseRequest request) { s with requests := s.requests.erase request }
  | loseReply {s : State} {reply : SupervisionEnvelope} :
      SpawnStep call s (.loseReply reply) { s with replies := s.replies.erase reply }

/-! ## The invariant -/

/-- The attempts the loop may make. -/
def bound (call : SpawnCall) : Nat := max 1 call.policy.maxAttempts

/-- No child was started for this attempt, and none will be. -/
def State.Barren (s : State) (id : Nat) : Prop :=
  id ∉ s.started.map (·.1) ∧ id ∉ s.requests.map (·.correlationId)

/-- What the point of the loop says about the attempts made. -/
def HomeInv (call : SpawnCall) (s : State) : HomePc → Prop
  | .calling | .sleeping _ => s.attempt < call.bound ∧ ∀ id ∈ s.sent, id ∈ s.abandoned
  | .waiting id => s.attempt ≤ call.bound ∧ s.sent.getLast? = some id ∧ ∀ id' ∈ s.sent, id' = id ∨ id' ∈ s.abandoned
  | .done (.ok address) => s.attempt ≤ call.bound ∧ ∃ id, s.sent.getLast? = some id ∧ (id, address) ∈ s.started ∧
      ∀ id' ∈ s.sent, id' = id ∨ id' ∈ s.abandoned
  | .done (.error _) => s.attempt ≤ call.bound ∧ ∀ id ∈ s.sent, id ∈ s.abandoned ∨ s.Barren id

structure SpawnInv (call : SpawnCall) (s : State) : Prop where
  below : ∀ id ∈ s.sent, id < s.correlation
  distinct : s.sent.Nodup
  attempts : s.sent.length = s.attempt
  requestIds : (s.requests.map (·.correlationId)).Nodup
  requestsSent : ∀ r ∈ s.requests, r.correlationId ∈ s.sent ∧ r.correlationId ∉ s.started.map (·.1) ∧
    ∀ reply ∈ s.replies, reply.correlationId ≠ r.correlationId
  startedIds : (s.started.map (·.1)).Nodup
  startedSent : ∀ x ∈ s.started, x.1 ∈ s.sent
  repliesSent : ∀ r ∈ s.replies, r.correlationId ∈ s.sent
  replies : ∀ r ∈ s.replies, (∃ child, r.event = .spawnOk child ∧ (r.correlationId, child) ∈ s.started) ∨
    (∃ error, r.event = .spawnErr error) ∧ s.Barren r.correlationId
  home : call.HomeInv s s.home

/-! ### What the steps keep of it -/

/-- The point of the loop says the same after a step that makes no attempt and ends none, as long as no child is started
for an attempt that was barren. -/
theorem HomeInv.mono {call : SpawnCall} {s s' : State} {pc : HomePc} (h : call.HomeInv s pc)
    (hattempt : s'.attempt = s.attempt) (hsent : s'.sent = s.sent) (habandoned : s'.abandoned = s.abandoned)
    (hstarted : s.started ⊆ s'.started) (hbarren : ∀ id ∈ s.sent, s.Barren id → s'.Barren id) : call.HomeInv s' pc := by
  unfold HomeInv at h ⊢
  rw [hattempt, hsent, habandoned]
  split at h
  · exact h
  · exact h
  · exact h
  · obtain ⟨hle, id, hlast, hmem, hrest⟩ := h
    exact ⟨hle, id, hlast, hstarted hmem, hrest⟩
  · exact ⟨h.1, fun id hid => (h.2 id hid).imp_right (hbarren id hid)⟩

/-- An attempt that ends in an error and without its own reply: the loop goes to sleep only if another attempt is
allowed. -/
theorem homeInv_afterAttempt_error {call : SpawnCall} {s : State} (err : RemoteSpawnError)
    (hle : s.attempt ≤ call.bound) (hall : ∀ id ∈ s.sent, id ∈ s.abandoned) :
    call.HomeInv s (call.afterAttempt s.attempt (.error err)) := by
  unfold afterAttempt
  dsimp only
  split_ifs with hretry
  · obtain ⟨-, hlt⟩ : isTransportError err = true ∧ s.attempt < call.policy.maxAttempts := by simpa using hretry
    exact ⟨lt_of_lt_of_le hlt (le_max_right _ _), hall⟩
  · exact ⟨hle, fun id hid => Or.inl (hall id hid)⟩

/-- Only a transport error is retried. -/
theorem afterAttempt_spawnFailed (call : SpawnCall) (attempt : Nat) (error : String) :
    call.afterAttempt attempt (.error (.spawnFailed error)) = .done (.error (.spawnFailed error)) := rfl

theorem spawnInv_init (call : SpawnCall) (n : Nat) : call.SpawnInv { correlation := n } := by
  refine ⟨by simp, by simp, rfl, by simp, by simp, by simp, by simp, by simp, by simp, ?_⟩
  exact ⟨lt_of_lt_of_le Nat.zero_lt_one (le_max_left _ _), by simp⟩

/-- The attempt the loop waits for, once it is given up, has joined the abandoned ones. -/
theorem SpawnInv.abandon {call : SpawnCall} {s : State} {id : Nat} (h : call.SpawnInv s) (hw : s.home = .waiting id) :
    s.attempt ≤ call.bound ∧ ∀ id' ∈ s.sent, id' ∈ s.abandoned ++ [id] := by
  have hhome := h.home
  rw [hw] at hhome
  refine ⟨hhome.1, fun id' hid => ?_⟩
  rcases hhome.2.2 id' hid with rfl | hab
  · simp
  · simp [hab]

/-- A new attempt draws an id that no message and no child carries. -/
theorem spawnInv_send {call : SpawnCall} {s s' : State} (h : call.SpawnInv s) (hstep : SpawnStep call s .send s') :
    call.SpawnInv s' := by
  cases hstep with
  | send hcalling =>
    have hhome := h.home
    rw [hcalling] at hhome
    have hfresh : s.correlation ∉ s.sent := fun hmem => lt_irrefl _ (h.below _ hmem)
    have hunstarted : s.correlation ∉ s.started.map (·.1) := by
      intro hmem
      obtain ⟨x, hx, heq⟩ := List.mem_map.mp hmem
      exact hfresh (heq ▸ h.startedSent x hx)
    have hunrequested : s.correlation ∉ s.requests.map (·.correlationId) := by
      intro hmem
      obtain ⟨r, hr, heq⟩ := List.mem_map.mp hmem
      exact hfresh (heq ▸ (h.requestsSent r hr).1)
    have hunanswered : ∀ reply ∈ s.replies, reply.correlationId ≠ s.correlation :=
      fun reply hmem heq => hfresh (heq ▸ h.repliesSent reply hmem)
    refine ⟨?_, ?_, ?_, ?_, ?_, h.startedIds, ?_, ?_, ?_, ?_⟩
    · intro id hid
      rcases List.mem_append.mp hid with hid | hid
      · exact Nat.lt_succ_of_lt (h.below id hid)
      · rw [List.mem_singleton.mp hid]
        exact Nat.lt_succ_self _
    · exact h.distinct.append (List.nodup_singleton _) (by simpa using hfresh)
    · simp [h.attempts]
    · rw [List.map_append]
      exact h.requestIds.append (List.nodup_singleton _) (by simpa [request] using hunrequested)
    · intro r hr
      rcases List.mem_append.mp hr with hr | hr
      · obtain ⟨hmem, hrest⟩ := h.requestsSent r hr
        exact ⟨List.mem_append_left _ hmem, hrest⟩
      · rw [List.mem_singleton.mp hr]
        exact ⟨List.mem_append_right _ (List.mem_singleton_self _), hunstarted, hunanswered⟩
    · exact fun x hx => List.mem_append_left _ (h.startedSent x hx)
    · exact fun r hr => List.mem_append_left _ (h.repliesSent r hr)
    · intro r hr
      refine (h.replies r hr).imp_right (fun hbarren => ⟨hbarren.1, hbarren.2.1, ?_⟩)
      simpa [request, hbarren.2.2] using hunanswered r hr
    · refine ⟨hhome.1, by simp, fun id hid => ?_⟩
      rcases List.mem_append.mp hid with hid | hid
      · exact Or.inr (hhome.2 id hid)
      · exact Or.inl (List.mem_singleton.mp hid)

/-- The attempt waited for ends: with its own reply it is settled, with any other it is given up. -/
theorem spawnInv_receive {call : SpawnCall} {s s' : State} {reply : SupervisionEnvelope} (h : call.SpawnInv s)
    (hstep : SpawnStep call s (.receive reply) s') : call.SpawnInv s' := by
  cases hstep with
  | @receive id _ hw hr =>
    have hsub : s.replies.erase reply ⊆ s.replies := List.erase_subset
    refine ⟨h.below, h.distinct, h.attempts, h.requestIds, ?_, h.startedIds, h.startedSent,
      fun r hmem => h.repliesSent r (hsub hmem), fun r hmem => h.replies r (hsub hmem), ?_⟩
    · intro r hmem
      obtain ⟨hsent, hun, hans⟩ := h.requestsSent r hmem
      exact ⟨hsent, hun, fun reply hreply => hans reply (hsub hreply)⟩
    · have hhome := h.home
      rw [hw] at hhome
      by_cases hid : reply.correlationId = id
      · simp only [readSpawnReply, hid, ne_eq, not_true_eq_false, if_false, if_true]
        rcases h.replies reply hr with ⟨child, hevent, hstarted⟩ | ⟨⟨error, hevent⟩, hbarren⟩
        · simp only [hevent, afterAttempt]
          exact ⟨hhome.1, id, hhome.2.1, hid ▸ hstarted, hhome.2.2⟩
        · simp only [hevent, afterAttempt_spawnFailed]
          refine ⟨hhome.1, fun id' hid' => ?_⟩
          rcases hhome.2.2 id' hid' with rfl | hab
          · exact Or.inr (hid ▸ hbarren)
          · exact Or.inl hab
      · simp only [readSpawnReply, hid, ne_eq, not_false_eq_true, if_true, if_false]
        exact homeInv_afterAttempt_error _ (h.abandon hw).1 (h.abandon hw).2

/-- What applying a request adds: one reply under its correlation id, and one child if that reply is `SpawnOk`. -/
theorem apply_cases {b b' : SupervisionBrokerInner} {request reply : SupervisionEnvelope} {parent : ActorAddress}
    {placement : NodeId} {spec : RemoteSpawnSpec} {link : Bool} {τ : BrokerTrace}
    (hexec : (b.applySpawn request.correlationId parent placement spec link).Exec τ (b', .ok reply)) :
    reply.correlationId = request.correlationId ∧
      ((∃ child, reply.event = .spawnOk child ∧
          startedFor request.correlationId b.localNode τ = [(request.correlationId, child)]) ∨
        (∃ error, reply.event = .spawnErr error) ∧ startedFor request.correlationId b.localNode τ = []) := by
  rcases SupervisionBrokerInner.applySpawn_reply hexec with ⟨child, heq, hnode, hstarted, -⟩ | ⟨error, heq, hstarted⟩
  · obtain rfl := Except.ok.inj heq
    refine ⟨rfl, Or.inl ⟨child, rfl, ?_⟩⟩
    rw [startedFor, hstarted, ← hnode]
    rfl
  · obtain rfl := Except.ok.inj heq
    refine ⟨rfl, Or.inr ⟨⟨error, rfl⟩, ?_⟩⟩
    rw [startedFor, hstarted]
    rfl

/-- A request taken off the network leaves none of its attempt behind. -/
theorem SpawnInv.erase_request {call : SpawnCall} {s : State} {request r : SupervisionEnvelope} (h : call.SpawnInv s)
    (hr : request ∈ s.requests) (hmem : r ∈ s.requests.erase request) : r.correlationId ≠ request.correlationId := by
  have hnodup := h.requestIds.of_map
  obtain ⟨hne, hin⟩ := hnodup.mem_erase_iff.mp hmem
  exact fun heq => hne (List.inj_on_of_nodup_map h.requestIds hin hr heq)

/-- The placement node takes a request and starts at most one child for its attempt, none if it answers `SpawnErr`. -/
theorem spawnInv_apply {call : SpawnCall} {s s' : State} {request : SupervisionEnvelope} (h : call.SpawnInv s)
    (hstep : SpawnStep call s (.apply request) s') : call.SpawnInv s' := by
  cases hstep with
  | @apply _ reply parent placement spec link b b' τ hr hevent hexec =>
    have hsub : s.requests.erase request ⊆ s.requests := List.erase_subset
    obtain ⟨hsent, hunstarted, hunanswered⟩ := h.requestsSent request hr
    have herase : request.correlationId ∉ (s.requests.erase request).map (·.correlationId) := by
      intro hmem
      obtain ⟨r, hr', heq⟩ := List.mem_map.mp hmem
      exact h.erase_request hr hr' heq
    obtain ⟨hcorr, hreply⟩ := apply_cases hexec
    have hnew : ∀ x ∈ startedFor request.correlationId b.localNode τ, x.1 = request.correlationId := by
      intro x hx
      obtain ⟨id, -, rfl⟩ := List.mem_map.mp hx
      rfl
    generalize startedFor request.correlationId b.localNode τ = new at hreply hnew ⊢
    have hnodup : (new.map (·.1)).Nodup := by
      rcases hreply with ⟨child, -, rfl⟩ | ⟨-, rfl⟩
      · exact List.nodup_singleton _
      · exact List.nodup_nil
    -- an attempt with no request in flight is not the one being applied
    have hbarren : ∀ id, id ≠ request.correlationId → s.Barren id →
        id ∉ (s.started ++ new).map (·.1) ∧ id ∉ (s.requests.erase request).map (·.correlationId) := by
      intro id hne hb
      refine ⟨?_, fun hmem => hb.2 (List.map_subset _ hsub hmem)⟩
      rw [List.map_append, List.mem_append]
      rintro (hmem | hmem)
      · exact hb.1 hmem
      · obtain ⟨x, hx, rfl⟩ := List.mem_map.mp hmem
        exact hne (hnew x hx)
    refine ⟨h.below, h.distinct, h.attempts, ?_, ?_, ?_, ?_, ?_, ?_, ?_⟩
    · exact h.requestIds.sublist (List.erase_sublist.map _)
    · intro r hmem
      obtain ⟨hrsent, hrun, hrans⟩ := h.requestsSent r (hsub hmem)
      have hne := h.erase_request hr hmem
      refine ⟨hrsent, ?_, ?_⟩
      · rw [List.map_append, List.mem_append]
        rintro (hmem' | hmem')
        · exact hrun hmem'
        · obtain ⟨x, hx, heq⟩ := List.mem_map.mp hmem'
          exact hne (heq ▸ hnew x hx)
      · intro reply' hreply'
        rcases List.mem_append.mp hreply' with hmem' | hmem'
        · exact hrans reply' hmem'
        · rw [List.mem_singleton.mp hmem', hcorr]
          exact hne.symm
    · rw [List.map_append]
      refine h.startedIds.append hnodup ?_
      intro id hold hid
      obtain ⟨x, hx, rfl⟩ := List.mem_map.mp hid
      exact hunstarted (hnew x hx ▸ hold)
    · intro x hx
      rcases List.mem_append.mp hx with hx | hx
      · exact h.startedSent x hx
      · rw [hnew x hx]
        exact hsent
    · intro r hmem
      rcases List.mem_append.mp hmem with hmem | hmem
      · exact h.repliesSent r hmem
      · rw [List.mem_singleton.mp hmem, hcorr]
        exact hsent
    · intro r hmem
      rcases List.mem_append.mp hmem with hmem | hmem
      · rcases h.replies r hmem with ⟨child, hok, hin⟩ | ⟨herr, hb⟩
        · exact Or.inl ⟨child, hok, List.mem_append_left _ hin⟩
        · exact Or.inr ⟨herr, hbarren _ (hunanswered r hmem) hb⟩
      · rw [List.mem_singleton.mp hmem, hcorr]
        rcases hreply with ⟨child, hok, hone⟩ | ⟨herr, hnone⟩
        · exact Or.inl ⟨child, hok, by simp [hone]⟩
        · refine Or.inr ⟨herr, ?_, herase⟩
          simpa [hnone] using hunstarted
    · refine h.home.mono rfl rfl rfl (List.subset_append_left _ _) fun id _ hb => hbarren id ?_ hb
      rintro rfl
      exact hb.2 (List.mem_map_of_mem hr)

/-- **Every step of the call, the placement node and the network keeps the invariant.** -/
theorem spawnInv_step {call : SpawnCall} {s s' : State} {a : Act} (h : call.SpawnInv s)
    (hstep : SpawnStep call s a s') : call.SpawnInv s' := by
  cases hstep with
  | draw =>
    exact ⟨fun id hid => Nat.lt_succ_of_lt (h.below id hid), h.distinct, h.attempts, h.requestIds, h.requestsSent,
      h.startedIds, h.startedSent, h.repliesSent, h.replies,
      h.home.mono rfl rfl rfl (List.Subset.refl _) fun _ _ hb => hb⟩
  | send hcalling => exact spawnInv_send h (.send hcalling)
  | wake hsleeping =>
    have hhome := h.home
    rw [hsleeping] at hhome
    exact ⟨h.below, h.distinct, h.attempts, h.requestIds, h.requestsSent, h.startedIds, h.startedSent, h.repliesSent,
      h.replies, hhome⟩
  | receive hw hr => exact spawnInv_receive h (.receive hw hr)
  | fail err hw =>
    refine ⟨h.below, h.distinct, h.attempts, h.requestIds, h.requestsSent, h.startedIds, h.startedSent, h.repliesSent,
      h.replies, ?_⟩
    apply homeInv_afterAttempt_error
    · exact (h.abandon hw).1
    · exact (h.abandon hw).2
  | joinError _ hw =>
    refine ⟨h.below, h.distinct, h.attempts, h.requestIds, h.requestsSent, h.startedIds, h.startedSent, h.repliesSent,
      h.replies, ?_⟩
    rw [afterAttempt_spawnFailed]
    exact ⟨(h.abandon hw).1, fun id hid => Or.inl ((h.abandon hw).2 id hid)⟩
  | apply hr hevent hexec => exact spawnInv_apply h (.apply hr hevent hexec)
  | @loseRequest request =>
    have hsub : s.requests.erase request ⊆ s.requests := List.erase_subset
    have hbarren : ∀ id, s.Barren id → id ∉ s.started.map (·.1) ∧
        id ∉ (s.requests.erase request).map (·.correlationId) :=
      fun id hb => ⟨hb.1, fun hmem => hb.2 (List.map_subset _ hsub hmem)⟩
    exact ⟨h.below, h.distinct, h.attempts, h.requestIds.sublist (List.erase_sublist.map _),
      fun r hr => h.requestsSent r (hsub hr), h.startedIds, h.startedSent, h.repliesSent,
      fun r hr => (h.replies r hr).imp_right fun hb => ⟨hb.1, hbarren _ hb.2⟩,
      h.home.mono rfl rfl rfl (List.Subset.refl _) fun id _ => hbarren id⟩
  | @loseReply reply =>
    have hsub : s.replies.erase reply ⊆ s.replies := List.erase_subset
    refine ⟨h.below, h.distinct, h.attempts, h.requestIds, ?_, h.startedIds, h.startedSent,
      fun r hr => h.repliesSent r (hsub hr), fun r hr => h.replies r (hsub hr),
      h.home.mono rfl rfl rfl (List.Subset.refl _) fun _ _ hb => hb⟩
    intro r hr
    obtain ⟨hsent, hun, hans⟩ := h.requestsSent r hr
    exact ⟨hsent, hun, fun reply' hreply' => hans reply' (hsub hreply')⟩

theorem SpawnInv.attempt_le {call : SpawnCall} {s : State} (h : call.SpawnInv s) : s.attempt ≤ call.bound := by
  have hhome := h.home
  unfold HomeInv at hhome
  split at hhome
  · exact hhome.1.le
  · exact hhome.1.le
  · exact hhome.1
  · exact hhome.1
  · exact hhome.1

/-- When no attempt that started a child was given up, the children are those of one attempt. -/
theorem SpawnInv.eq_of_settled {call : SpawnCall} {s : State} {id : Nat} (h : call.SpawnInv s)
    (hall : ∀ id' ∈ s.sent, id' = id ∨ id' ∈ s.abandoned) (hsettled : ∀ x ∈ s.started, x.1 ∉ s.abandoned) :
    ∀ x ∈ s.started, x.1 = id :=
  fun x hx => (hall x.1 (h.startedSent x hx)).resolve_right (hsettled x hx)

theorem SpawnInv.length_le_one {call : SpawnCall} {s : State} {id : Nat} (h : call.SpawnInv s)
    (heq : ∀ x ∈ s.started, x.1 = id) : s.started.length ≤ 1 := by
  have hids := h.startedIds
  rcases hs : s.started with - | ⟨x, - | ⟨y, rest⟩⟩
  · simp
  · simp
  · rw [hs] at hids heq
    simp only [List.map_cons, List.nodup_cons, List.mem_cons, not_or] at hids
    refine absurd ?_ hids.1.1
    rw [heq x (by simp), heq y (by simp)]

/-- The children of a call none of whose children was started for an attempt given up. -/
theorem SpawnInv.settled {call : SpawnCall} {s : State} (h : call.SpawnInv s)
    (hsettled : ∀ x ∈ s.started, x.1 ∉ s.abandoned) :
    s.started.length ≤ 1 ∧ (∀ address, s.home = .done (.ok address) → s.started.map (·.2) = [address]) ∧
      ∀ err, s.home = .done (.error err) → s.started = [] := by
  have hhome := h.home
  have hnone : (∀ id ∈ s.sent, id ∈ s.abandoned ∨ s.Barren id) → s.started = [] := by
    intro hall
    refine List.eq_nil_iff_forall_not_mem.mpr fun x hx => ?_
    rcases hall x.1 (h.startedSent x hx) with hab | hb
    · exact hsettled x hx hab
    · exact hb.1 (List.mem_map_of_mem hx)
  rcases hpc : s.home with - | id | delay | (err | address)
  · rw [hpc] at hhome
    simp [hnone fun id hid => Or.inl (hhome.2 id hid)]
  · rw [hpc] at hhome
    exact ⟨h.length_le_one (h.eq_of_settled hhome.2.2 hsettled), by simp, by simp⟩
  · rw [hpc] at hhome
    simp [hnone fun id hid => Or.inl (hhome.2 id hid)]
  · rw [hpc] at hhome
    simp [hnone hhome.2]
  · rw [hpc] at hhome
    obtain ⟨-, id, -, hmem, hall⟩ := hhome
    have hlen := h.length_le_one (h.eq_of_settled hall hsettled)
    refine ⟨hlen, ?_, by simp⟩
    rintro _ ⟨⟩
    rcases hs : s.started with - | ⟨x, - | ⟨y, rest⟩⟩
    · simp [hs] at hmem
    · rw [hs, List.mem_singleton] at hmem
      simp [← hmem]
    · simp [hs] at hlen

/-! ## A call as a whole -/

/-- **A call starts at most one child for each of its attempts.** Its attempts are bounded by the policy; when it returns
`Ok` the address is that of the last attempt's child, and every other child was started for an attempt the loop gave up.
If no child was started for such an attempt, the call started at most one, exactly the one it returns, and none if it
returns an error. -/
theorem remote_spawn_once_per_attempt (call : SpawnCall) {n : Nat} {hist : List (State × Act)} {s : State}
    (h : Run (SpawnStep call) { correlation := n } hist s) :
    (s.started.map (·.1)).Nodup ∧ (∀ x ∈ s.started, x.1 ∈ s.sent) ∧ s.sent.length ≤ max 1 call.policy.maxAttempts ∧
      (∀ address, s.home = .done (.ok address) → ∃ id, s.sent.getLast? = some id ∧ (id, address) ∈ s.started ∧
        ∀ x ∈ s.started, x = (id, address) ∨ x.1 ∈ s.abandoned) ∧
      ((∀ x ∈ s.started, x.1 ∉ s.abandoned) →
        s.started.length ≤ 1 ∧ (∀ address, s.home = .done (.ok address) → s.started.map (·.2) = [address]) ∧
          ∀ err, s.home = .done (.error err) → s.started = []) := by
  have hinv : call.SpawnInv s := Run.inv (spawnInv_init call n) (fun _ _ _ => spawnInv_step) h
  refine ⟨hinv.startedIds, hinv.startedSent, hinv.attempts ▸ hinv.attempt_le, ?_, hinv.settled⟩
  intro address hdone
  have hhome := hinv.home
  rw [hdone] at hhome
  obtain ⟨-, id, hlast, hmem, hall⟩ := hhome
  refine ⟨id, hlast, hmem, fun x hx => ?_⟩
  refine (hall x.1 (hinv.startedSent x hx)).imp_left fun heq => ?_
  exact List.inj_on_of_nodup_map hinv.startedIds hx hmem heq

/-- An unlinked spawn on node `p`, with the default policy. -/
def plainCall : SpawnCall where
  runtime := .tasks
  placement := "p"
  parent := ⟨"h", 1⟩
  spec := .worker "w" []
  link := false
  policy := {}

/-- Node `p` starts actor `id` for an attempt of `plainCall` and answers `SpawnOk`. -/
theorem plainCall_apply {s : State} (correlationId : Nat) (id : ActorId)
    (hr : plainCall.request correlationId ∈ s.requests) :
    SpawnStep plainCall s (.apply (plainCall.request correlationId)) { s with
      requests := s.requests.erase (plainCall.request correlationId)
      replies := s.replies ++ [⟨correlationId, .spawnOk ⟨"p", id⟩⟩]
      started := s.started ++ [(correlationId, ⟨"p", id⟩)] } := by
  have hexec := SupervisionBrokerInner.applySpawn_spawned { localNode := "p" } correlationId ⟨"h", 1⟩ (.worker "w" [])
    (fun hlink : false = true => nomatch hlink) ⟨id⟩
  exact SpawnStep.apply hr rfl hexec

/-- `plainCall` after its first request has been sent and applied: actor 7 runs on node `p`, and the reply is on its way. -/
def plainApplied : State where
  attempt := 1
  home := .waiting 1
  correlation := 2
  replies := [⟨1, .spawnOk ⟨"p", 7⟩⟩]
  sent := [1]
  started := [(1, ⟨"p", 7⟩)]

theorem run_plainApplied : ∃ hist, Run (SpawnStep plainCall) { correlation := 1 } hist plainApplied := by
  refine ⟨_, (Run.nil.snoc (.send rfl)).snoc (plainCall_apply 1 7 ?_)⟩
  simp

/-- One attempt of `plainCall`, answered: the call returns its only child. -/
theorem remote_spawn_once_per_attempt_answered : ∃ hist s, Run (SpawnStep plainCall) { correlation := 1 } hist s ∧
    s.home = .done (.ok ⟨"p", 7⟩) ∧ s.started.map (·.2) = [⟨"p", 7⟩] := by
  obtain ⟨hist, hrun⟩ := run_plainApplied
  have hreply : ⟨1, .spawnOk ⟨"p", 7⟩⟩ ∈ plainApplied.replies := List.mem_singleton_self _
  have hanswered := hrun.snoc (.receive rfl hreply)
  refine ⟨_, _, hanswered, rfl, ?_⟩
  obtain ⟨-, -, -, -, hsettled⟩ := remote_spawn_once_per_attempt plainCall hanswered
  exact (hsettled (by simp [plainApplied])).2.1 ⟨"p", 7⟩ rfl

/-- **A lost reply starts a second child.** The reply to the first request is lost after node `p` has started actor 7; the
retry starts actor 8, the call returns actor 8, and actor 7 runs on. -/
theorem remote_spawn_lost_reply : ¬∀ (call : SpawnCall) (n : Nat) (hist : List (State × Act)) (s : State),
    Run (SpawnStep call) { correlation := n } hist s → s.started.length ≤ 1 ∧
      (∀ address, s.home = .done (.ok address) → ∀ x ∈ s.started, x.2 = address) ∧
      ∀ err, s.home = .done (.error err) → s.started = [] := by
  intro h
  obtain ⟨hist, hrun⟩ := run_plainApplied
  have hlost := hrun.snoc (show SpawnStep plainCall _ (.loseReply ⟨1, .spawnOk ⟨"p", 7⟩⟩) _ from .loseReply)
  have hretry := ((hlost.snoc (.fail .remoteUnreachable rfl)).snoc (.wake rfl)).snoc (.send rfl)
  have hsecond := hretry.snoc (plainCall_apply 2 8 (by decide))
  have hdone := hsecond.snoc (.receive rfl (List.mem_append_right _ (List.mem_singleton_self _)))
  obtain ⟨-, hok, -⟩ := h _ _ _ _ hdone
  have hseven := hok ⟨"p", 8⟩ rfl (1, ⟨"p", 7⟩) (by decide)
  exact absurd hseven (by decide)

end SpawnCall

end Spawned
