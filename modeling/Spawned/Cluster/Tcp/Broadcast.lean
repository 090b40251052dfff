import Spawned.Cluster.Tcp.Transport

/-!
# Broadcasts

`broadcast_registry` and `broadcast_pg` go through the peers in the order in which the map yields them and write the frame
of the event to each. The first peer with which a call on the stream fails ends the loop, and the peers after it get
nothing, however reachable they are.

* `fits` : which peers are up, as the steps of a broadcast meet them;
* `Delivers` : the frame of a broadcast is written on a stream to a node;
* `Hop` : what a step of a broadcast does to the nodes that it has still to do with;
* `own_steps_le`, `can_go_on` : every call of the transport ends;
* `Progress` : the nodes that have the frame are the first ones, and a broadcast that failed did so at the next node;
* `broadcast_reaches_iff` : every peer that is up gets the frame exactly when none that is down comes before it.
-/

namespace Spawned.Tcp

open Lib

/-- The calls that send an event to every peer. -/
def Call.isBroadcast : Call → Bool
  | .broadcastRegistry _ | .broadcastPg _ => true
  | _ => false

/-- The frame of a call is one that `write_frame` takes. -/
def Call.Sendable (codec : Codec) (call : Call) : Prop :=
  ∃ bytes, call.frame codec = .ok (some bytes) ∧ checkFrame bytes = .ok ()

/-- The call is over. -/
def Pc.isOver : Pc → Bool
  | .returned _ | .panicked => true
  | _ => false

/-- The nodes a broadcast has still to do with, the present one first; none if it failed. -/
def Pc.todo (peers : List NodeId) : Pc → Option (List NodeId)
  | .start => some peers
  | .lock node rest | .dial node rest | .greet _ _ node rest | .write _ node rest => some (node :: rest)
  | .returned (.ok _) => some []
  | .returned (.error _) | .panicked | .read .. => none

@[simp] theorem Pc.todo_visit (peers nodes : List NodeId) : (Pc.visit nodes).todo peers = some nodes := by
  cases nodes <;> rfl

/-- The stream a call is on, with the node it took it for. -/
def Pc.uses : Pc → Option (Nat × NodeId)
  | .greet _ k node _ | .write k node _ | .read k node => some (k, node)
  | .start | .lock .. | .dial .. | .returned _ | .panicked => none

@[simp] theorem Pc.uses_visit (nodes : List NodeId) : (Pc.visit nodes).uses = none := by
  cases nodes <;> rfl

/-- How many steps `connect` has still to take. -/
def Stage.left : Stage → Nat
  | .writeHandshake => 6
  | .readAck => 5
  | .writeRegistry => 4
  | .writePg => 3
  | .readRegistry => 2
  | .readPg => 1

theorem Stage.left_next {stage next : Stage} (h : stage.next = some next) : next.left < stage.left := by
  cases stage <;> cases h <;> decide

/-- How many steps a call to `n` nodes has still to take at most. -/
def Pc.left (n : Nat) : Pc → Nat
  | .start => 10 * n + 1
  | .lock _ rest => 10 * (rest.length + 1)
  | .dial _ rest => 10 * rest.length + 9
  | .greet stage _ _ rest => 10 * rest.length + 2 + stage.left
  | .write _ _ rest => 10 * rest.length + 2
  | .read .. => 1
  | .returned _ | .panicked => 0

@[simp] theorem Pc.left_visit (n : Nat) (nodes : List NodeId) : (Pc.visit nodes).left n = 10 * nodes.length := by
  cases nodes <;> rfl

/-- The calls of a broadcast encode its event, at the start and for every peer. -/
theorem Call.broadcast_eq (codec : Codec) (peers : List NodeId) {call : Call} (h : call.isBroadcast = true) :
    ∃ encoded : Except TransportError Bytes, call.frame codec = encoded.map some ∧
      call.check codec peers = (if peers = [] then .ok () else encoded.map fun _ => ()) ∧
      call.nodes peers = peers ∧ call.isRequest = false := by
  cases call with
  | broadcastRegistry event => exact ⟨_, rfl, rfl, rfl, rfl⟩
  | broadcastPg event => exact ⟨_, rfl, rfl, rfl, rfl⟩
  | _ => cases h

namespace TcpTransport

/-- The node of each stream. -/
def nodes (s : TcpTransport) : List NodeId := s.streams.map Stream.node

/-- The step does to call `i` what `up` says of the peer that the call is with: a stream to a peer that is up is opened,
`connect` succeeds on it and so does the write; with another peer one of these fails, at the latest the write. -/
def fits (codec : Codec) (localNode : NodeId) (up : NodeId → Bool) (i : Nat) (x : TcpTransport × Act) : Bool :=
  match x.1.callers[i]?.map Caller.pc, x.2 with
  | some (.dial node _), .step j _ fault => j != i || !up node || fault.isNone
  | some (.greet stage k node _), .step j hooks fault =>
    j != i || !up node || (x.1.greet codec localNode hooks fault k stage).all fun result => result.1.isOk
  | some (.greet _ _ node _), .panic j => j != i || !up node
  | some (.write _ node _), .step j _ fault => j != i || fault.isNone == up node
  | _, _ => true

/-- In this step the `write_frame` of call `i` succeeds, with the frame of its event, on a stream to `node`. -/
def Delivers (codec : Codec) (i : Nat) (node : NodeId) (x : TcpTransport × Act) : Prop :=
  ∃ c k rest hooks fault bytes s', x.1.callers[i]? = some c ∧ c.pc = .write k node rest ∧ x.2 = .step i hooks fault ∧
    x.1.nodes[k]? = some node ∧ c.call.frame codec = .ok (some bytes) ∧
    x.1.writeFrame fault k (.call i) (.ok bytes) = some (.ok (), s')

/-- In this step call `i` finds the mutex poisoned when it wants the stream to `node`. -/
def LocksPoisoned (i : Nat) (node : NodeId) (x : TcpTransport × Act) : Prop :=
  ∃ c rest hooks fault, x.1.callers[i]? = some c ∧ c.pc = .lock node rest ∧ x.2 = .step i hooks fault ∧
    x.1.poisoned = true

variable {codec : Codec} {peers : List NodeId} {localNode : NodeId} {up : NodeId → Bool} {τ : List (TcpTransport × Act)}
  {s s' : TcpTransport} {a : Act} {i j : Nat} {c c' : Caller} {hooks : Hooks} {fault : Option TransportError}

/-! ## Streams and their nodes -/

section Nodes

variable {k : Nat}

/-- Calls on a stream change nothing but its frames. -/
def SameNodes (s s' : TcpTransport) : Prop := ∃ streams, s' = { s with streams } ∧ s'.nodes = s.nodes

theorem sameNodes_refl (s : TcpTransport) : SameNodes s s := ⟨s.streams, rfl, rfl⟩

theorem sameNodes_put {stream : Stream} (hk : s.streams[k]? = some stream) (conn : Connection Writer) :
    SameNodes s (s.put k { stream with conn }) :=
  ⟨_, rfl, map_set_eq Stream.node hk _ rfl⟩

theorem writeFrame_nodes {writer : Writer} {bytes : Except TransportError Bytes} {result : Except TransportError Unit}
    (h : s.writeFrame fault k writer bytes = some (result, s')) : SameNodes s s' := by
  rcases writeFrame_cases h with ⟨rfl, -⟩ | ⟨body, stream, -, hk, -, rfl⟩
  · exact sameNodes_refl s'
  · exact sameNodes_put hk _

theorem readFrame_nodes {result : Except TransportError (Bytes × Origin Writer)}
    (h : s.readFrame fault k = some (result, s')) : SameNodes s s' := by
  rcases readFrame_cases h with ⟨rfl, -⟩ | ⟨stream, frame, outbound, hk, -, -, rfl⟩
  · exact sameNodes_refl s'
  · exact sameNodes_put hk _

theorem greet_nodes {stage : Stage} {result : Except TransportError Unit}
    (h : s.greet codec localNode hooks fault k stage = some (result, s')) : SameNodes s s' := by
  have hread : ∀ {g : Except TransportError (Bytes × Origin Writer) × TcpTransport →
      Except TransportError Unit × TcpTransport}, (∀ p, (g p).2 = p.2) →
      (s.readFrame fault k).map g = some (result, s') → SameNodes s s' := by
    intro g hg h
    obtain ⟨p, hread, hp⟩ := Option.map_eq_some_iff.mp h
    have hs' : p.2 = s' := by rw [← hg p, hp]
    rw [← hs']
    exact readFrame_nodes hread
  cases stage with
  | writeHandshake => exact writeFrame_nodes h
  | writeRegistry => exact writeFrame_nodes h
  | writePg => exact writeFrame_nodes h
  | readAck => exact hread (fun _ => rfl) h
  | readRegistry => exact hread (fun _ => rfl) h
  | readPg => exact hread (fun _ => rfl) h

end Nodes

/-- Call `i` is now where `c'` says, nearer to its end. -/
def Moves (peers : List NodeId) (i : Nat) (c : Caller) (s s' : TcpTransport) : Prop :=
  ∃ c', s'.callers = s.callers.set i c' ∧ c'.call = c.call ∧
    c'.pc.left (c.call.nodes peers).length < c.pc.left (c.call.nodes peers).length

/-- A step of a call moves that call, and no other. -/
theorem advance_moves (h : s.advance i c codec peers localNode hooks fault = some s') : Moves peers i c s s' := by
  cases hpc : c.pc with
  | start =>
    rw [advance, hpc] at h
    dsimp only at h
    split at h
    · cases h
      exact ⟨_, rfl, rfl, by simp [hpc, Pc.left]⟩
    · cases h
      refine ⟨_, rfl, rfl, ?_⟩
      rw [hpc, Pc.left_visit]
      exact Nat.lt_succ_self _
  | lock node rest =>
    rw [advance, hpc] at h
    dsimp only [lock] at h
    split_ifs at h
    · cases h
      exact ⟨_, rfl, rfl, by simp [hpc, Pc.left]⟩
    · split at h <;> cases h <;> exact ⟨_, rfl, rfl, by simp [hpc, Pc.left]; omega⟩
  | dial node rest =>
    rw [advance, hpc] at h
    cases h
    unfold dial
    split_ifs
    · cases fault with
      | some err => exact ⟨_, rfl, rfl, by simp [hpc, Pc.left]⟩
      | none => exact ⟨_, rfl, rfl, by simp [hpc, Pc.left, Stage.left]⟩
    · exact ⟨_, rfl, rfl, by simp [hpc, Pc.left]⟩
  | greet stage k node rest =>
    rw [advance, hpc] at h
    obtain ⟨⟨result, s₁⟩, hgreet, rfl⟩ := Option.map_eq_some_iff.mp h
    obtain ⟨streams, rfl, -⟩ := greet_nodes hgreet
    cases result with
    | error err => exact ⟨_, rfl, rfl, by simp only [hpc, Pc.left]; omega⟩
    | ok _ =>
      unfold greeted
      cases hnext : stage.next with
      | none => exact ⟨_, rfl, rfl, by cases stage <;> simp [hpc, Pc.left, Stage.left]⟩
      | some next => exact ⟨_, rfl, rfl, by simpa [hpc, Pc.left] using Stage.left_next hnext⟩
  | write k node rest =>
    rw [advance, hpc] at h
    dsimp only [use] at h
    split at h
    · cases h
      exact ⟨_, rfl, rfl, by simp [hpc, Pc.left]⟩
    · cases h
      refine ⟨_, rfl, rfl, ?_⟩
      rw [hpc, Pc.left_visit]
      simp only [Pc.left]
      omega
    · obtain ⟨⟨result, s₁⟩, hwrite, rfl⟩ := Option.map_eq_some_iff.mp h
      obtain ⟨streams, rfl, -⟩ := writeFrame_nodes hwrite
      cases result with
      | error err => exact ⟨_, rfl, rfl, by simp [hpc, Pc.left]⟩
      | ok _ =>
        unfold written
        split_ifs
        · exact ⟨_, rfl, rfl, by simp [hpc, Pc.left]⟩
        · refine ⟨_, rfl, rfl, ?_⟩
          rw [hpc, Pc.left_visit]
          simp only [Pc.left]
          omega
  | read k node =>
    rw [advance, hpc] at h
    obtain ⟨⟨result, s₁⟩, hread, rfl⟩ := Option.map_eq_some_iff.mp h
    obtain ⟨streams, rfl, -⟩ := readFrame_nodes hread
    cases result with
    | error err => exact ⟨_, rfl, rfl, by simp [hpc, Pc.left]⟩
    | ok frame =>
      cases hdecode : c.call.decodeReply codec frame.1 <;> simp only [answered, hdecode] <;>
        exact ⟨_, rfl, rfl, by simp [hpc, Pc.left]⟩
  | returned result =>
    rw [advance, hpc] at h
    cases h
  | panicked =>
    rw [advance, hpc] at h
    cases h

theorem panic_moves (h : s.panic i c = some s') : Moves peers i c s s' := by
  unfold panic at h
  split at h
  · rename_i hpc
    obtain ⟨-, hs'⟩ := Option.ite_none_right_eq_some.mp h
    cases hs'
    exact ⟨_, rfl, rfl, by simp only [hpc, Pc.left]; omega⟩
  · cases h

/-- A step makes a call, goes on with one, or has to do with a peer. -/
theorem step_callers (h : Step codec peers localNode s a s') :
    (∃ call, a = .call call ∧ s'.callers = s.callers ++ [{ call := call }]) ∨
      (∃ j c, s.callers[j]? = some c ∧ Moves peers j c s s' ∧
        ((∃ hooks fault, a = .step j hooks fault ∧ s.advance j c codec peers localNode hooks fault = some s') ∨
          a = .panic j ∧ s.panic j c = some s')) ∨
      (∃ k hooks fault, a = .serve k hooks fault) ∧ s'.callers = s.callers := by
  unfold Step at h
  cases a with
  | call call =>
    cases h
    exact Or.inl ⟨call, rfl, rfl⟩
  | step j hooks fault =>
    obtain ⟨c, hj, hstep⟩ := Option.bind_eq_some_iff.mp h
    exact Or.inr (Or.inl ⟨j, c, hj, advance_moves hstep, Or.inl ⟨hooks, fault, rfl, hstep⟩⟩)
  | panic j =>
    obtain ⟨c, hj, hstep⟩ := Option.bind_eq_some_iff.mp h
    exact Or.inr (Or.inl ⟨j, c, hj, panic_moves hstep, Or.inr ⟨rfl, hstep⟩⟩)
  | serve k hooks fault =>
    obtain ⟨stream, hk, hstep⟩ := Option.bind_eq_some_iff.mp h
    obtain ⟨conn, -, rfl⟩ := Option.map_eq_some_iff.mp hstep
    exact Or.inr (Or.inr ⟨⟨k, hooks, fault, rfl⟩, rfl⟩)

/-- A stream that is pooled or used under a node is a stream to that node. -/
structure Aimed (s : TcpTransport) : Prop where
  pool : ∀ node k, s.connections node = some k → s.nodes[k]? = some node
  callers : ∀ (i : Nat) (c : Caller), s.callers[i]? = some c →
    ∀ k node, c.pc.uses = some (k, node) → s.nodes[k]? = some node

/-- Call `i` moves; streams are added at most. -/
theorem Aimed.of_move (h : Aimed s) (hi : s.callers[i]? = some c) (hcallers : s'.callers = s.callers.set i c')
    (hnodes : s.nodes <+: s'.nodes) (hpool : ∀ node k, s'.connections node = some k → s'.nodes[k]? = some node)
    (huses : ∀ k node, c'.pc.uses = some (k, node) → s'.nodes[k]? = some node) : Aimed s' := by
  refine ⟨hpool, fun j d hj k node hd => ?_⟩
  rw [hcallers] at hj
  rcases getElem?_set_cases hi hj with ⟨rfl, rfl⟩ | ⟨hji, hj⟩
  · exact huses k node hd
  · have hk := h.callers j d hj k node hd
    obtain ⟨added, hadded⟩ := hnodes
    rw [← hadded, List.getElem?_append_left (List.getElem?_eq_some_iff.mp hk).1, hk]

/-- A call moves, with no stream more. -/
theorem Aimed.move (h : Aimed s) (hi : s.callers[i]? = some c) (hcallers : s'.callers = s.callers.set i c')
    (hnodes : s'.nodes = s.nodes) (hpool : ∀ node k, s'.connections node = some k → s.nodes[k]? = some node)
    (huses : ∀ k node, c'.pc.uses = some (k, node) → s.nodes[k]? = some node) : Aimed s' := by
  refine h.of_move hi hcallers (by rw [hnodes]) ?_ ?_
  · rw [hnodes]
    exact hpool
  · rw [hnodes]
    exact huses

/-- A stream less in the pool. -/
theorem Aimed.update_none (h : Aimed s) (gone : NodeId) :
    ∀ node k, Function.update s.connections gone none node = some k → s.nodes[k]? = some node := by
  intro node k hk
  by_cases hgone : node = gone
  · subst hgone
    simp at hk
  · rw [Function.update_of_ne hgone] at hk
    exact h.pool node k hk

theorem Aimed.lock {node : NodeId} {rest : List NodeId} (h : Aimed s) (hi : s.callers[i]? = some c)
    (hstep : s.lock i c node rest = some s') : Aimed s' := by
  unfold TcpTransport.lock at hstep
  split_ifs at hstep with hholder hpoisoned
  · cases hstep
    exact h.move hi rfl rfl h.pool (by simp [Pc.uses])
  · cases hpooled : s.connections node with
    | none =>
      rw [hpooled] at hstep
      cases hstep
      exact h.move hi rfl rfl h.pool (by simp [Pc.uses])
    | some k =>
      rw [hpooled] at hstep
      cases hstep
      refine h.move hi rfl rfl h.pool ?_
      rintro k' node' ⟨⟩
      exact h.pool node k hpooled

/-- A stream is opened for the call. -/
theorem Aimed.snoc {node : NodeId} (h : Aimed s) (hi : s.callers[i]? = some c)
    (hcallers : s'.callers = s.callers.set i c') (hconnections : s'.connections = s.connections)
    (hstreams : s'.streams = s.streams ++ [{ node := node }]) (huses : c'.pc.uses = some (s.streams.length, node)) :
    Aimed s' := by
  have hnodes : s'.nodes = s.nodes ++ [node] := by simp [nodes, hstreams]
  refine h.of_move hi hcallers ⟨[node], hnodes.symm⟩ (fun node' k hk => ?_) (fun k node' hk => ?_)
  · rw [hconnections] at hk
    have hold := h.pool node' k hk
    rw [hnodes, List.getElem?_append_left (List.getElem?_eq_some_iff.mp hold).1, hold]
  · obtain ⟨rfl, rfl⟩ := Prod.mk.inj (Option.some.inj (huses.symm.trans hk))
    rw [hnodes]
    simp [nodes]

theorem Aimed.dial {node : NodeId} {rest : List NodeId} (h : Aimed s) (hi : s.callers[i]? = some c) :
    Aimed (s.dial i c peers fault node rest) := by
  unfold TcpTransport.dial
  split_ifs with hpeer
  · cases fault with
    | some err => exact h.move hi rfl rfl h.pool (by simp [Pc.uses])
    | none => exact h.snoc hi rfl rfl rfl rfl
  · exact h.move hi rfl rfl h.pool (by simp [Pc.uses])

theorem Aimed.greet {stage : Stage} {k : Nat} {node : NodeId} {rest : List NodeId} {result : Except TransportError Unit}
    {s₁ : TcpTransport} (h : Aimed s) (hi : s.callers[i]? = some c) (hpc : c.pc = .greet stage k node rest)
    (hstep : s.greet codec localNode hooks fault k stage = some (result, s₁)) :
    Aimed (s₁.greeted i c stage k node rest result) := by
  obtain ⟨streams, rfl, hnodes⟩ := greet_nodes hstep
  have hk : s.nodes[k]? = some node := h.callers i c hi k node (by rw [hpc]; rfl)
  cases result with
  | error err => exact h.move hi rfl hnodes h.pool (by simp [Pc.uses])
  | ok _ =>
    unfold greeted
    cases hnext : stage.next with
    | some next =>
      refine h.move hi rfl hnodes h.pool ?_
      rintro k' node' ⟨⟩
      exact hk
    | none =>
      refine h.move hi rfl hnodes (fun node' k' hk' => ?_) ?_
      · by_cases hnode : node' = node
        · subst hnode
          obtain rfl : k = k' := by simpa using hk'
          exact hk
        · exact h.pool node' k' ((Function.update_of_ne hnode _ _).symm.trans hk')
      · rintro k' node' ⟨⟩
        exact hk

theorem Aimed.use {k : Nat} {node : NodeId} {rest : List NodeId} (h : Aimed s) (hi : s.callers[i]? = some c)
    (hpc : c.pc = .write k node rest) (hstep : s.use i c codec fault k node rest = some s') : Aimed s' := by
  have hk : s.nodes[k]? = some node := h.callers i c hi k node (by rw [hpc]; rfl)
  unfold TcpTransport.use at hstep
  split at hstep
  · cases hstep
    exact h.move hi rfl rfl (h.update_none node) (by simp [Pc.uses])
  · cases hstep
    exact h.move hi rfl rfl h.pool (by simp)
  · obtain ⟨⟨result, s₁⟩, hwrite, rfl⟩ := Option.map_eq_some_iff.mp hstep
    obtain ⟨streams, rfl, hnodes⟩ := writeFrame_nodes hwrite
    cases result with
    | error err => exact h.move hi rfl hnodes (h.update_none node) (by simp [Pc.uses])
    | ok _ =>
      unfold written
      split_ifs
      · refine h.move hi rfl hnodes h.pool ?_
        rintro k' node' ⟨⟩
        exact hk
      · exact h.move hi rfl hnodes h.pool (by simp)

theorem Aimed.read {k : Nat} {node : NodeId} {result : Except TransportError (Bytes × Origin Writer)}
    {s₁ : TcpTransport} (h : Aimed s) (hi : s.callers[i]? = some c) (hstep : s.readFrame fault k = some (result, s₁)) :
    Aimed (s₁.answered i c codec node result) := by
  obtain ⟨streams, rfl, hnodes⟩ := readFrame_nodes hstep
  unfold answered
  split
  · exact h.move hi rfl hnodes (h.update_none node) (by simp [Pc.uses])
  · split
    · exact h.move hi rfl hnodes (h.update_none node) (by simp [Pc.uses])
    · exact h.move hi rfl hnodes h.pool (by simp [Pc.uses])

theorem Aimed.advance (h : Aimed s) (hi : s.callers[i]? = some c)
    (hstep : s.advance i c codec peers localNode hooks fault = some s') : Aimed s' := by
  unfold TcpTransport.advance at hstep
  split at hstep
  · split at hstep
    · cases hstep
      exact h.move hi rfl rfl h.pool (by simp [Pc.uses])
    · cases hstep
      exact h.move hi rfl rfl h.pool (by simp)
  · exact h.lock hi hstep
  · cases hstep
    exact h.dial hi
  · rename_i hpc
    obtain ⟨⟨result, s₁⟩, hgreet, rfl⟩ := Option.map_eq_some_iff.mp hstep
    exact h.greet hi hpc hgreet
  · rename_i hpc
    exact h.use hi hpc hstep
  · obtain ⟨⟨result, s₁⟩, hread, rfl⟩ := Option.map_eq_some_iff.mp hstep
    exact h.read hi hread
  · cases hstep
  · cases hstep

theorem Aimed.step (h : Aimed s) (hstep : Step codec peers localNode s a s') : Aimed s' := by
  unfold Step at hstep
  cases a with
  | call call =>
    cases hstep
    refine ⟨h.pool, fun j d hj k node huses => ?_⟩
    rcases getElem?_snoc_cases hj with hj | ⟨-, rfl⟩
    · exact h.callers j d hj k node huses
    · cases huses
  | step i hooks fault =>
    obtain ⟨c, hi, hstep⟩ := Option.bind_eq_some_iff.mp hstep
    exact h.advance hi hstep
  | panic i =>
    obtain ⟨c, hi, hstep⟩ := Option.bind_eq_some_iff.mp hstep
    unfold TcpTransport.panic at hstep
    split at hstep
    · obtain ⟨-, hs'⟩ := Option.ite_none_right_eq_some.mp hstep
      cases hs'
      exact h.move hi rfl rfl h.pool (by simp [Pc.uses])
    · cases hstep
  | serve k hooks fault =>
    obtain ⟨stream, hk, hstep⟩ := Option.bind_eq_some_iff.mp hstep
    obtain ⟨conn, -, rfl⟩ := Option.map_eq_some_iff.mp hstep
    obtain ⟨streams, hs', hnodes⟩ := sameNodes_put hk conn
    rw [hs'] at hnodes ⊢
    exact ⟨hnodes ▸ h.pool, hnodes ▸ h.callers⟩

theorem aimed (h : Run (Step codec peers localNode) {} τ s) : Aimed s := by
  refine h.inv ⟨?_, ?_⟩ fun s a s' hs hstep => hs.step hstep
  · intro node k hk
    cases hk
  · intro i c hi
    simp at hi

/-! ## The steps of a broadcast -/

theorem Delivers.at_write {node : NodeId} (h : Delivers codec i node (s, a)) (hi : s.callers[i]? = some c) :
    ∃ k rest hooks fault bytes s', c.pc = .write k node rest ∧ a = .step i hooks fault ∧
      c.call.frame codec = .ok (some bytes) ∧ s.writeFrame fault k (.call i) (.ok bytes) = some (.ok (), s') := by
  obtain ⟨d, k, rest, hooks, fault, bytes, s', hd, hpc, ha, -, hframe, hwrite⟩ := h
  cases hi.symm.trans hd
  exact ⟨k, rest, hooks, fault, bytes, s', hpc, ha, hframe, hwrite⟩

theorem LocksPoisoned.at_lock {node : NodeId} (h : LocksPoisoned i node (s, a)) (hi : s.callers[i]? = some c) :
    ∃ rest, c.pc = .lock node rest ∧ s.poisoned = true := by
  obtain ⟨d, rest, hooks, fault, hd, hpc, -, hpoisoned⟩ := h
  cases hi.symm.trans hd
  exact ⟨rest, hpc, hpoisoned⟩

/-- What a step of call `i` does to the nodes it has still to do with: nothing, or the present one has the frame, or the
call fails with the present one. -/
inductive Hop (codec : Codec) (up : NodeId → Bool) (i : Nat) (call : Call) (x : TcpTransport × Act) :
    Option (List NodeId) → Option (List NodeId) → Prop
  | stays (nodes : List NodeId) (hquiet : ∀ m, ¬Delivers codec i m x) (hclean : ∀ m, ¬LocksPoisoned i m x) :
      Hop codec up i call x (some nodes) (some nodes)
  | wrote (node : NodeId) (rest : List NodeId) (hdelivers : ∀ m, Delivers codec i m x ↔ m = node)
      (hclean : ∀ m, ¬LocksPoisoned i m x) (hup : up node = true) (hsendable : call.Sendable codec) :
      Hop codec up i call x (some (node :: rest)) (some rest)
  | failed (node : NodeId) (rest : List NodeId) (hquiet : ∀ m, ¬Delivers codec i m x)
      (hpoisoned : ∀ m, LocksPoisoned i m x → m = node)
      (hcause : ¬call.Sendable codec ∨ up node = false ∨ LocksPoisoned i node x) :
      Hop codec up i call x (some (node :: rest)) none

section Hop

variable {node : NodeId} {rest : List NodeId}

/-- Away from the write and from the lock. -/
theorem hop_stays (hi : s.callers[i]? = some c) (hwrite : ∀ k m r, c.pc ≠ .write k m r)
    (hlock : ∀ m r, c.pc = .lock m r → s.poisoned = false) (nodes : List NodeId) :
    Hop codec up i c.call (s, a) (some nodes) (some nodes) := by
  refine .stays nodes (fun m hm => ?_) (fun m hm => ?_)
  · obtain ⟨k, rest, -, -, -, -, hpc, -⟩ := hm.at_write hi
    exact hwrite k m rest hpc
  · obtain ⟨rest, hpc, hpoisoned⟩ := hm.at_lock hi
    simp [hlock m rest hpc] at hpoisoned

theorem hop_failed (hi : s.callers[i]? = some c) (hwrite : ∀ k m r, c.pc ≠ .write k m r)
    (hlock : ∀ m r, c.pc ≠ .lock m r) (hcause : ¬c.call.Sendable codec ∨ up node = false) :
    Hop codec up i c.call (s, a) (some (node :: rest)) none := by
  refine .failed node rest (fun m hm => ?_) (fun m hm => ?_) (hcause.imp_right Or.inl)
  · obtain ⟨k, rest, -, -, -, -, hpc, -⟩ := hm.at_write hi
    exact absurd hpc (hwrite k m rest)
  · obtain ⟨rest, hpc, -⟩ := hm.at_lock hi
    exact absurd hpc (hlock m rest)

/-- A frame is written when it has its size and the stream takes it. -/
theorem writeFrame_ok {k : Nat} {writer : Writer} {bytes : Bytes}
    (h : s.writeFrame fault k writer (.ok bytes) = some (.ok (), s')) :
    checkFrame bytes = .ok () ∧ fault.isNone = true := by
  unfold writeFrame at h
  cases hcheck : checkFrame bytes with
  | error err => simp [hcheck, Except.bind, Except.map] at h
  | ok _ =>
    refine ⟨rfl, ?_⟩
    cases fault with
    | none => rfl
    | some err => simp [hcheck, Except.bind, Except.map] at h

/-- The call moves on by a hop. -/
def Hops (codec : Codec) (peers : List NodeId) (up : NodeId → Bool) (i : Nat) (c : Caller) (s : TcpTransport) (a : Act)
    (s' : TcpTransport) : Prop :=
  ∃ pc, s'.callers = s.callers.set i { c with pc } ∧ (pc.todo peers = none → pc.isOver = true) ∧
    Hop codec up i c.call (s, a) (c.pc.todo peers) (pc.todo peers)

theorem hops_start (hi : s.callers[i]? = some c) (hpc : c.pc = .start) (hcall : c.call.isBroadcast = true)
    (hstep : s.advance i c codec peers localNode hooks fault = some s') : Hops codec peers up i c s a s' := by
  obtain ⟨encoded, hframe, hcheck, hnodes, -⟩ := Call.broadcast_eq codec peers hcall
  rw [advance, hpc] at hstep
  dsimp only at hstep
  split at hstep
  · rename_i err herr
    cases hstep
    refine ⟨_, rfl, fun _ => rfl, ?_⟩
    rw [hcheck] at herr
    split_ifs at herr with hpeers
    obtain ⟨node, rest, rfl⟩ := List.exists_cons_of_ne_nil hpeers
    cases encoded with
    | ok bytes => cases herr
    | error err' =>
      rw [hpc]
      refine hop_failed hi (by simp [hpc]) (by simp [hpc]) (Or.inl ?_)
      rintro ⟨bytes, hbytes, -⟩
      rw [hframe] at hbytes
      cases hbytes
  · cases hstep
    refine ⟨_, rfl, by simp, ?_⟩
    rw [hpc, hnodes, Pc.todo_visit]
    exact hop_stays hi (by simp [hpc]) (by simp [hpc]) peers

theorem hops_lock (hi : s.callers[i]? = some c) (hpc : c.pc = .lock node rest)
    (hstep : s.lock i c node rest = some s') : Hops codec peers up i c s (.step i hooks fault) s' := by
  unfold TcpTransport.lock at hstep
  split_ifs at hstep with hholder hpoisoned
  · cases hstep
    refine ⟨_, rfl, fun _ => rfl, ?_⟩
    rw [hpc]
    refine .failed node rest (fun m hm => ?_) (fun m hm => ?_) (Or.inr (Or.inr ?_))
    · obtain ⟨k, rest, -, -, -, -, hwrite, -⟩ := hm.at_write hi
      simp [hpc] at hwrite
    · obtain ⟨rest', hlock, -⟩ := hm.at_lock hi
      rw [hpc] at hlock
      cases hlock
      rfl
    · exact ⟨c, rest, hooks, fault, hi, hpc, rfl, hpoisoned⟩
  · have hstays : Hop codec up i c.call (s, .step i hooks fault) (some (node :: rest)) (some (node :: rest)) :=
      hop_stays hi (by simp [hpc]) (by simpa using fun _ _ _ => hpoisoned) _
    split at hstep
    · cases hstep
      refine ⟨_, rfl, by simp [Pc.todo], ?_⟩
      rw [hpc]
      exact hstays
    · cases hstep
      refine ⟨_, rfl, by simp [Pc.todo], ?_⟩
      rw [hpc]
      exact hstays

theorem hops_dial (hi : s.callers[i]? = some c) (hpc : c.pc = .dial node rest) (hnode : node ∈ peers)
    (hfits : fits codec localNode up i (s, .step i hooks fault) = true) :
    Hops codec peers up i c s (.step i hooks fault) (s.dial i c peers fault node rest) := by
  simp only [fits, hi, Option.map_some, hpc, bne_self_eq_false, Bool.false_or] at hfits
  unfold TcpTransport.dial
  rw [if_neg (not_not_intro hnode)]
  cases fault with
  | some err =>
    refine ⟨_, rfl, fun _ => rfl, ?_⟩
    rw [hpc]
    exact hop_failed hi (by simp [hpc]) (by simp [hpc]) (Or.inr (by simpa using hfits))
  | none =>
    refine ⟨_, rfl, by simp [Pc.todo], ?_⟩
    rw [hpc]
    exact hop_stays hi (by simp [hpc]) (by simp [hpc]) _

theorem hops_greet {stage : Stage} {k : Nat} {result : Except TransportError Unit} {s₁ : TcpTransport}
    (hi : s.callers[i]? = some c) (hpc : c.pc = .greet stage k node rest)
    (hfits : fits codec localNode up i (s, .step i hooks fault) = true)
    (hstep : s.greet codec localNode hooks fault k stage = some (result, s₁)) :
    Hops codec peers up i c s (.step i hooks fault) (s₁.greeted i c stage k node rest result) := by
  simp only [fits, hi, Option.map_some, hpc, bne_self_eq_false, Bool.false_or, hstep, Option.all_some] at hfits
  obtain ⟨streams, rfl, -⟩ := greet_nodes hstep
  cases result with
  | error err =>
    refine ⟨_, rfl, fun _ => rfl, ?_⟩
    rw [hpc]
    exact hop_failed hi (by simp [hpc]) (by simp [hpc]) (Or.inr (by simpa [Except.isOk, Except.toBool] using hfits))
  | ok _ =>
    unfold greeted
    cases hnext : stage.next with
    | some next =>
      refine ⟨_, rfl, by simp [Pc.todo], ?_⟩
      rw [hpc]
      exact hop_stays hi (by simp [hpc]) (by simp [hpc]) _
    | none =>
      refine ⟨_, rfl, by simp [Pc.todo], ?_⟩
      rw [hpc]
      exact hop_stays hi (by simp [hpc]) (by simp [hpc]) _

theorem hops_panic (hi : s.callers[i]? = some c) (hfits : fits codec localNode up i (s, .panic i) = true)
    (hstep : s.panic i c = some s') : Hops codec peers up i c s (.panic i) s' := by
  unfold TcpTransport.panic at hstep
  split at hstep
  · rename_i stage k node rest hpc
    obtain ⟨-, hs'⟩ := Option.ite_none_right_eq_some.mp hstep
    cases hs'
    simp only [fits, hi, Option.map_some, hpc, bne_self_eq_false, Bool.false_or] at hfits
    refine ⟨_, rfl, fun _ => rfl, ?_⟩
    rw [hpc]
    exact hop_failed hi (by simp [hpc]) (by simp [hpc]) (Or.inr (by simpa using hfits))
  · cases hstep

theorem hops_write {k : Nat} (haimed : Aimed s) (hi : s.callers[i]? = some c) (hpc : c.pc = .write k node rest)
    (hcall : c.call.isBroadcast = true) (hfits : fits codec localNode up i (s, .step i hooks fault) = true)
    (hstep : s.use i c codec fault k node rest = some s') : Hops codec peers up i c s (.step i hooks fault) s' := by
  simp only [fits, hi, Option.map_some, hpc, bne_self_eq_false, Bool.false_or, beq_iff_eq] at hfits
  have hclean : ∀ m, ¬LocksPoisoned i m (s, .step i hooks fault) := by
    intro m hm
    obtain ⟨rest, hlock, -⟩ := hm.at_lock hi
    simp [hpc] at hlock
  -- the frame of the call, where its write succeeds
  have hquiet : (∀ bytes s₁, c.call.frame codec = .ok (some bytes) →
      s.writeFrame fault k (.call i) (.ok bytes) ≠ some (.ok (), s₁)) →
      ∀ m, ¬Delivers codec i m (s, .step i hooks fault) := by
    intro hnone m hm
    obtain ⟨k', rest', hooks', fault', bytes, s₁, hpc', ha, hframe, hwrite⟩ := hm.at_write hi
    cases hpc.symm.trans hpc'
    cases ha
    exact hnone bytes s₁ hframe hwrite
  obtain ⟨encoded, hframe, -, -, hrequest⟩ := Call.broadcast_eq codec peers hcall
  unfold TcpTransport.use at hstep
  cases encoded with
  | error err =>
    rw [hframe] at hstep
    cases hstep
    refine ⟨_, rfl, fun _ => rfl, ?_⟩
    rw [hpc]
    refine .failed node rest (hquiet ?_) (fun m hm => absurd hm (hclean m)) (Or.inl ?_)
    · intro bytes s₁ hbytes
      rw [hframe] at hbytes
      cases hbytes
    · rintro ⟨bytes, hbytes, -⟩
      rw [hframe] at hbytes
      cases hbytes
  | ok bytes =>
    replace hframe : c.call.frame codec = .ok (some bytes) := hframe
    rw [hframe] at hstep
    obtain ⟨⟨result, s₁⟩, hwrite, rfl⟩ := Option.map_eq_some_iff.mp hstep
    obtain ⟨streams, rfl, -⟩ := writeFrame_nodes hwrite
    cases result with
    | error err =>
      refine ⟨_, rfl, fun _ => rfl, ?_⟩
      rw [hpc]
      refine .failed node rest (hquiet ?_) (fun m hm => absurd hm (hclean m)) ?_
      · intro bytes' s₂ hbytes hwrite'
        cases hframe.symm.trans hbytes
        cases hwrite.symm.trans hwrite'
      · cases hcheck : checkFrame bytes with
        | error err' =>
          refine Or.inl ?_
          rintro ⟨bytes', hbytes, hok⟩
          cases hframe.symm.trans hbytes
          cases hcheck.symm.trans hok
        | ok _ =>
          refine Or.inr (Or.inl ?_)
          cases fault with
          | some err' => exact hfits.symm
          | none =>
            unfold writeFrame at hwrite
            simp [hcheck, Except.bind, Except.map] at hwrite
    | ok _ =>
      have hok := writeFrame_ok hwrite
      simp only [written, hrequest, Bool.false_eq_true, if_false]
      refine ⟨_, rfl, by simp, ?_⟩
      rw [hpc, Pc.todo_visit]
      refine .wrote node rest (fun m => ?_) hclean (hfits ▸ hok.2) ⟨bytes, hframe, hok.1⟩
      constructor
      · intro hm
        obtain ⟨k', rest', hooks', fault', bytes, s₁, hpc', -⟩ := hm.at_write hi
        cases hpc.symm.trans hpc'
        rfl
      · rintro rfl
        have hk : s.nodes[k]? = some m := haimed.callers i c hi k m (by rw [hpc]; rfl)
        exact ⟨c, k, rest, hooks, fault, bytes, _, hi, hpc, rfl, hk, hframe, hwrite⟩

/-- A step of a broadcast that is under way. -/
theorem hops_advance {todo : List NodeId} (haimed : Aimed s) (hi : s.callers[i]? = some c)
    (hcall : c.call.isBroadcast = true) (htodo : c.pc.todo peers = some todo) (hpeers : todo ⊆ peers)
    (hfits : fits codec localNode up i (s, .step i hooks fault) = true)
    (hstep : s.advance i c codec peers localNode hooks fault = some s') :
    Hops codec peers up i c s (.step i hooks fault) s' := by
  cases hpc : c.pc with
  | start => exact hops_start hi hpc hcall hstep
  | lock node rest =>
    rw [advance, hpc] at hstep
    exact hops_lock hi hpc hstep
  | dial node rest =>
    rw [advance, hpc] at hstep
    cases hstep
    rw [hpc] at htodo
    cases htodo
    exact hops_dial hi hpc (hpeers List.mem_cons_self) hfits
  | greet stage k node rest =>
    rw [advance, hpc] at hstep
    obtain ⟨⟨result, s₁⟩, hgreet, rfl⟩ := Option.map_eq_some_iff.mp hstep
    exact hops_greet hi hpc hfits hgreet
  | write k node rest =>
    rw [advance, hpc] at hstep
    exact hops_write haimed hi hpc hcall hfits hstep
  | read k node =>
    rw [hpc] at htodo
    cases htodo
  | returned result =>
    rw [advance, hpc] at hstep
    cases hstep
  | panicked =>
    rw [advance, hpc] at hstep
    cases hstep

end Hop

/-! ## Calls end -/

/-- Before a call is made no step is one of it. -/
theorem callers_none (h : Run (Step codec peers localNode) {} τ s) (hi : s.callers.length ≤ i) :
    ∀ x ∈ τ, x.1.callers[i]? = none := by
  induction h with
  | nil => simp
  | @snoc τ s a s' hr hstep ih =>
    have hle : s.callers.length ≤ s'.callers.length := by
      rcases step_callers hstep with ⟨call, -, hcallers⟩ | ⟨j, c, -, ⟨c', hcallers, -⟩, -⟩ | ⟨-, hcallers⟩ <;>
        simp [hcallers]
    intro x hx
    rcases List.mem_append.mp hx with hx | hx
    · exact ih (by omega) x hx
    · rw [List.mem_singleton.mp hx]
      exact List.getElem?_eq_none (by simpa using by omega)

/-- The act is a step of call `i`. -/
def Act.isOf (i : Nat) : Act → Bool
  | .step j _ _ | .panic j => j == i
  | .call _ | .serve .. => false

/-- A call to `n` nodes takes no more than `10 * n + 1` steps. -/
theorem own_steps_le (h : Run (Step codec peers localNode) {} τ s) (hi : s.callers[i]? = some c) :
    τ.countP (fun x => x.2.isOf i) + c.pc.left (c.call.nodes peers).length ≤ 10 * (c.call.nodes peers).length + 1 := by
  induction h generalizing c with
  | nil => simp at hi
  | @snoc τ s a s' hr hstep ih =>
    rw [List.countP_append, List.countP_singleton]
    cases hold : s.callers[i]? with
    | none =>
      have hlen : s.callers.length ≤ i := List.getElem?_eq_none_iff.mp hold
      have hbefore : τ.countP (fun x => x.2.isOf i) = 0 := by
        refine List.countP_eq_zero.mpr fun x hx hown => ?_
        obtain ⟨-, -, s₁, -, -, hstep⟩ := hr.mem_split hx
        have hnone := callers_none hr hlen x hx
        rcases step_callers hstep with ⟨call, ha, -⟩ | ⟨j, d, hj, -, ⟨_, _, ha, -⟩ | ⟨ha, -⟩⟩ | ⟨⟨_, _, _, ha⟩, -⟩ <;>
          simp_all [Act.isOf]
      rcases step_callers hstep with ⟨call, rfl, hcallers⟩ | ⟨j, d, hj, ⟨d', hcallers, -⟩, -⟩ | ⟨-, hcallers⟩
      · rw [hcallers] at hi
        rcases getElem?_snoc_cases hi with hi | ⟨-, rfl⟩
        · cases hold.symm.trans hi
        · rw [hbefore]
          simp [Act.isOf, Pc.left]
      · rw [hcallers, List.getElem?_eq_none (by simpa using hlen)] at hi
        cases hi
      · rw [hcallers, hold] at hi
        cases hi
    | some d =>
      have hle := ih hold
      have hlt : i < s.callers.length := (List.getElem?_eq_some_iff.mp hold).1
      rcases step_callers hstep with ⟨call, rfl, hcallers⟩ | ⟨j, e, hj, ⟨e', hcallers, hcall, hleft⟩, hact⟩ |
        ⟨⟨k, hooks, fault, rfl⟩, hcallers⟩
      · rw [hcallers, List.getElem?_append_left hlt, hold] at hi
        cases hi
        simpa [Act.isOf] using hle
      · by_cases hij : j = i
        · subst hij
          cases hold.symm.trans hj
          rw [hcallers, List.getElem?_set_self hlt] at hi
          cases hi
          rw [hcall]
          have hone : (if (s, a).2.isOf j = true then 1 else 0) ≤ 1 := by split <;> omega
          omega
        · rw [hcallers, List.getElem?_set_ne hij, hold] at hi
          cases hi
          have hother : a.isOf i = false := by
            rcases hact with ⟨hooks, fault, rfl, -⟩ | ⟨rfl, -⟩ <;> simpa [Act.isOf] using hij
          simpa [hother] using hle
      · rw [hcallers, hold] at hi
        cases hi
        simpa [Act.isOf] using hle

/-- A call that is not over can go on, unless it waits for another to let go of the mutex: its reads and writes have a
timeout. -/
theorem can_go_on (hover : c.pc.isOver = false) (hfree : s.holder = none ∨ ∀ node rest, c.pc ≠ .lock node rest)
    (err : TransportError) : ∃ s', s.advance i c codec peers localNode hooks (some err) = some s' := by
  rw [← Option.isSome_iff_exists]
  cases hpc : c.pc with
  | start =>
    rw [advance, hpc]
    dsimp only
    split <;> rfl
  | lock node rest =>
    have hnone : s.holder = none := hfree.resolve_right fun h => h node rest hpc
    rw [advance, hpc]
    dsimp only [lock]
    rw [hnone, if_neg (by simp)]
    split_ifs
    · rfl
    · split <;> rfl
  | dial node rest =>
    rw [advance, hpc]
    rfl
  | greet stage k node rest =>
    rw [advance, hpc]
    have hwrite : ∀ writer bytes, (s.writeFrame (some err) k writer bytes).isSome = true := by
      intro writer bytes
      unfold writeFrame
      split <;> rfl
    cases stage <;> simp [greet, readFrame, hwrite]
  | write k node rest =>
    rw [advance, hpc]
    dsimp only [use]
    split
    · rfl
    · rfl
    · unfold writeFrame
      split <;> rfl
  | read k node =>
    rw [advance, hpc]
    rfl
  | returned result => simp [hpc, Pc.isOver] at hover
  | panicked => simp [hpc, Pc.isOver] at hover

/-! ## The whole of a broadcast -/

/-- The frame of call `i` was written to the node. -/
def Delivered (codec : Codec) (τ : List (TcpTransport × Act)) (i : Nat) (node : NodeId) : Prop :=
  ∃ x ∈ τ, Delivers codec i node x

/-- Call `i` found the mutex poisoned when it wanted the stream to the node. -/
def FoundPoisoned (τ : List (TcpTransport × Act)) (i : Nat) (node : NodeId) : Prop := ∃ x ∈ τ, LocksPoisoned i node x

/-- Of the peers, those in `done` have the frame. A call that failed did so with the first of the others. -/
structure Progress (codec : Codec) (peers : List NodeId) (up : NodeId → Bool) (τ : List (TcpTransport × Act)) (i : Nat)
    (c : Caller) (done ahead : List NodeId) : Prop where
  split : peers = done ++ ahead
  reached : ∀ m ∈ done, up m = true
  sendable : done ≠ [] → c.call.Sendable codec
  delivered : ∀ m, Delivered codec τ i m ↔ m ∈ done
  clean : ∀ m ∈ done, ¬FoundPoisoned τ i m
  todo : ∀ nodes, c.pc.todo peers = some nodes → nodes = ahead ∧ ∀ m, ¬FoundPoisoned τ i m
  failed : c.pc.todo peers = none → c.pc.isOver = true ∧ ∃ node rest, ahead = node :: rest ∧
    (¬c.call.Sendable codec ∨ up node = false ∨ FoundPoisoned τ i node)

section Progress

variable {done ahead : List NodeId}

/-- A step that is not one of call `i`. -/
theorem Progress.frame (h : Progress codec peers up τ i c done ahead) (hown : ∀ hooks fault, a ≠ .step i hooks fault) :
    Progress codec peers up (τ ++ [(s, a)]) i c done ahead := by
  have hdelivered : ∀ m, Delivered codec (τ ++ [(s, a)]) i m ↔ Delivered codec τ i m := by
    intro m
    refine exists_mem_snoc.trans (or_iff_left ?_)
    rintro ⟨_, _, _, hooks, fault, _, _, _, _, ha, _⟩
    exact hown hooks fault ha
  have hpoisoned : ∀ m, FoundPoisoned (τ ++ [(s, a)]) i m ↔ FoundPoisoned τ i m := by
    intro m
    refine exists_mem_snoc.trans (or_iff_left ?_)
    rintro ⟨_, _, hooks, fault, _, _, ha, _⟩
    exact hown hooks fault ha
  refine ⟨h.split, h.reached, h.sendable, fun m => (hdelivered m).trans (h.delivered m), ?_, ?_, ?_⟩
  · simpa only [hpoisoned] using h.clean
  · simpa only [hpoisoned] using h.todo
  · simpa only [hpoisoned] using h.failed

/-- A step of call `i`. -/
theorem Progress.hop (hpeers : peers.Nodup) (h : Progress codec peers up τ i c done ahead) {pc : Pc}
    (hover : pc.todo peers = none → pc.isOver = true)
    (hhop : Hop codec up i c.call (s, a) (c.pc.todo peers) (pc.todo peers)) :
    ∃ done' ahead', Progress codec peers up (τ ++ [(s, a)]) i { c with pc } done' ahead' := by
  have hdelivered : ∀ m, Delivered codec (τ ++ [(s, a)]) i m ↔ m ∈ done ∨ Delivers codec i m (s, a) := by
    intro m
    exact exists_mem_snoc.trans (or_congr_left (h.delivered m))
  have hpoisoned : ∀ m, FoundPoisoned (τ ++ [(s, a)]) i m ↔ FoundPoisoned τ i m ∨ LocksPoisoned i m (s, a) :=
    fun m => exists_mem_snoc
  generalize htodo : c.pc.todo peers = before, htodo' : pc.todo peers = after at hhop
  cases hhop with
  | stays nodes hquiet hclean =>
    obtain ⟨rfl, hnone⟩ := h.todo nodes htodo
    have hnone' : ∀ m, ¬FoundPoisoned (τ ++ [(s, a)]) i m := by
      intro m hm
      exact ((hpoisoned m).mp hm).elim (hnone m) (hclean m)
    refine ⟨done, nodes, h.split, h.reached, h.sendable, ?_, fun m _ => hnone' m, ?_, ?_⟩
    · intro m
      rw [hdelivered, or_iff_left (hquiet m)]
    · intro nodes' hnodes'
      cases htodo'.symm.trans hnodes'
      exact ⟨rfl, hnone'⟩
    · intro hfailed
      cases htodo'.symm.trans hfailed
  | wrote node rest hdelivers hclean hup hsendable =>
    obtain ⟨rfl, hnone⟩ := h.todo _ htodo
    have hnone' : ∀ m, ¬FoundPoisoned (τ ++ [(s, a)]) i m := by
      intro m hm
      exact ((hpoisoned m).mp hm).elim (hnone m) (hclean m)
    refine ⟨done ++ [node], rest, by simp [h.split], ?_, fun _ => hsendable, ?_, fun m _ => hnone' m, ?_, ?_⟩
    · intro m hm
      rcases List.mem_append.mp hm with hm | hm
      · exact h.reached m hm
      · rw [List.mem_singleton.mp hm]
        exact hup
    · intro m
      rw [hdelivered, hdelivers, List.mem_append, List.mem_singleton]
    · intro nodes' hnodes'
      cases htodo'.symm.trans hnodes'
      exact ⟨rfl, hnone'⟩
    · intro hfailed
      cases htodo'.symm.trans hfailed
  | failed node rest hquiet hfound hcause =>
    obtain ⟨rfl, hnone⟩ := h.todo _ htodo
    refine ⟨done, node :: rest, h.split, h.reached, h.sendable, ?_, ?_, ?_, fun _ => ⟨hover htodo', node, rest, rfl, ?_⟩⟩
    · intro m
      rw [hdelivered, or_iff_left (hquiet m)]
    · intro m hm hfound'
      rcases (hpoisoned m).mp hfound' with hold | hnew
      · exact hnone m hold
      · -- the peers are distinct
        rw [h.split] at hpeers
        obtain rfl := hfound m hnew
        exact List.disjoint_of_nodup_append hpeers hm List.mem_cons_self
    · intro nodes' hnodes'
      cases htodo'.symm.trans hnodes'
    · rcases hcause with hsendable | hdown | hlocked
      · exact Or.inl hsendable
      · exact Or.inr (Or.inl hdown)
      · exact Or.inr (Or.inr ((hpoisoned node).mpr (Or.inr hlocked)))

theorem Progress.init {call : Call} (h : ∀ x ∈ τ, x.1.callers[i]? = none) :
    Progress codec peers up τ i { call := call } [] peers := by
  have hclean : ∀ m, ¬FoundPoisoned τ i m := by
    rintro m ⟨x, hx, c, rest, hooks, fault, hc, -⟩
    cases (h x hx).symm.trans hc
  refine ⟨rfl, by simp, by simp, fun m => ?_, by simp, ?_, ?_⟩
  · simp only [List.not_mem_nil, iff_false]
    rintro ⟨x, hx, c, k, rest, hooks, fault, bytes, s', hc, -⟩
    cases (h x hx).symm.trans hc
  · rintro nodes ⟨⟩
    exact ⟨rfl, hclean⟩
  · intro hfailed
    cases hfailed

/-- A step of a run, whoever takes it. -/
theorem Progress.step (hpeers : peers.Nodup) (haimed : Aimed s) (h : Progress codec peers up τ i c done ahead)
    (hi : s.callers[i]? = some c) (hcall : c.call.isBroadcast = true) (hfits : fits codec localNode up i (s, a) = true)
    (hstep : Step codec peers localNode s a s') (hi' : s'.callers[i]? = some c') :
    ∃ done' ahead', Progress codec peers up (τ ++ [(s, a)]) i c' done' ahead' := by
  have hlt : i < s.callers.length := (List.getElem?_eq_some_iff.mp hi).1
  have hhops : Hops codec peers up i c s a s' →
      ∃ done' ahead', Progress codec peers up (τ ++ [(s, a)]) i c' done' ahead' := by
    rintro ⟨pc, hcallers, hover, hhop⟩
    rw [hcallers, List.getElem?_set_self hlt] at hi'
    cases hi'
    exact h.hop hpeers hover hhop
  rcases step_callers hstep with ⟨call, rfl, hcallers⟩ | ⟨j, d, hj, ⟨d', hcallers, -⟩, hact⟩ |
    ⟨⟨k, hooks, fault, rfl⟩, hcallers⟩
  · rw [hcallers, List.getElem?_append_left hlt, hi] at hi'
    cases hi'
    exact ⟨done, ahead, h.frame (by simp)⟩
  · by_cases hij : j = i
    · subst hij
      cases hi.symm.trans hj
      cases htodo : c.pc.todo peers with
      | none =>
        -- the call is over
        obtain ⟨hover, -⟩ := h.failed htodo
        rcases hact with ⟨hooks, fault, rfl, hadvance⟩ | ⟨rfl, hpanic⟩
        · unfold advance at hadvance
          split at hadvance <;> simp_all [Pc.isOver]
        · unfold panic at hpanic
          split at hpanic <;> simp_all [Pc.isOver]
      | some todo =>
        have hsub : todo ⊆ peers := by
          rw [(h.todo todo htodo).1, h.split]
          exact List.subset_append_right done ahead
        rcases hact with ⟨hooks, fault, rfl, hadvance⟩ | ⟨rfl, hpanic⟩
        · exact hhops (hops_advance haimed hi hcall htodo hsub hfits hadvance)
        · exact hhops (hops_panic hi hfits hpanic)
    · rw [hcallers, List.getElem?_set_ne hij, hi] at hi'
      cases hi'
      refine ⟨done, ahead, h.frame fun hooks fault ha => ?_⟩
      rcases hact with ⟨hooks', fault', rfl, -⟩ | ⟨rfl, -⟩
      · cases ha
        exact hij rfl
      · cases ha
  · rw [hcallers, hi] at hi'
    cases hi'
    exact ⟨done, ahead, h.frame (by simp)⟩

theorem step_call (hstep : Step codec peers localNode s a s') (hi : s.callers[i]? = some c)
    (hi' : s'.callers[i]? = some c') : c'.call = c.call := by
  have hlt : i < s.callers.length := (List.getElem?_eq_some_iff.mp hi).1
  rcases step_callers hstep with ⟨call, -, hcallers⟩ | ⟨j, d, hj, ⟨d', hcallers, hcall, -⟩, -⟩ | ⟨-, hcallers⟩
  · rw [hcallers, List.getElem?_append_left hlt, hi] at hi'
    cases hi'
    rfl
  · rw [hcallers] at hi'
    rcases getElem?_set_cases hj hi' with ⟨rfl, rfl⟩ | ⟨-, hold⟩
    · cases hi.symm.trans hj
      exact hcall
    · cases hi.symm.trans hold
      rfl
  · rw [hcallers, hi] at hi'
    cases hi'
    rfl

/-- Every broadcast of a run. -/
theorem progress (hpeers : peers.Nodup) (h : Run (Step codec peers localNode) {} τ s)
    (hfits : ∀ x ∈ τ, fits codec localNode up i x = true) (hi : s.callers[i]? = some c)
    (hcall : c.call.isBroadcast = true) : ∃ done ahead, Progress codec peers up τ i c done ahead := by
  induction h generalizing c with
  | nil => simp at hi
  | @snoc τ s a s' hr hstep ih =>
    cases hold : s.callers[i]? with
    | some d =>
      have hd : d.call.isBroadcast = true := step_call hstep hold hi ▸ hcall
      obtain ⟨done, ahead, hprogress⟩ := ih (fun x hx => hfits x (List.mem_append_left _ hx)) hold hd
      exact hprogress.step hpeers (aimed hr) hold hd (hfits (s, a) (by simp)) hstep hi
    | none =>
      have hlen : s.callers.length ≤ i := List.getElem?_eq_none_iff.mp hold
      rcases step_callers hstep with ⟨call, -, hcallers⟩ | ⟨j, d, hj, ⟨d', hcallers, -⟩, -⟩ | ⟨-, hcallers⟩
      · rw [hcallers] at hi
        rcases getElem?_snoc_cases hi with hi | ⟨-, rfl⟩
        · cases hold.symm.trans hi
        · refine ⟨[], peers, .init fun x hx => ?_⟩
          rcases List.mem_append.mp hx with hx | hx
          · exact callers_none hr hlen x hx
          · rw [List.mem_singleton.mp hx]
            exact hold
      · rw [hcallers, List.getElem?_eq_none (by simpa using hlen)] at hi
        cases hi
      · rw [hcallers, hold] at hi
        cases hi

end Progress

/-- **A broadcast and the peers that are down.** In every run of the transport, with any other calls, a broadcast that is
over has written its frame to every peer that is up exactly when, for each of these, the frame could be written at all,
no peer that the map yields before it is down, and the mutex was not found poisoned at it or before. -/
theorem broadcast_reaches_iff (hpeers : peers.Nodup) (h : Run (Step codec peers localNode) {} τ s)
    (hfits : ∀ x ∈ τ, fits codec localNode up i x = true) (hi : s.callers[i]? = some c)
    (hcall : c.call.isBroadcast = true) (hover : c.pc.isOver = true) :
    (∀ node ∈ peers, up node = true → Delivered codec τ i node) ↔
      ∀ before node after, peers = before ++ node :: after → up node = true →
        c.call.Sendable codec ∧ ∀ other ∈ before ++ [node], up other = true ∧ ¬FoundPoisoned τ i other := by
  obtain ⟨done, ahead, hprogress⟩ := progress hpeers h hfits hi hcall
  constructor
  · intro hall before node after hsplit hup
    have hdone : node ∈ done := (hprogress.delivered node).mp (hall node (by simp [hsplit]) hup)
    have hsub : ∀ other ∈ before ++ [node], other ∈ done := by
      intro other hother
      rcases List.mem_append.mp hother with hother | hother
      · obtain ⟨b, a, rfl⟩ := List.append_of_mem hdone
        have heq := hsplit.symm.trans hprogress.split
        rw [List.append_assoc, List.cons_append] at heq
        obtain ⟨hbefore, hafter⟩ : node ∉ before ∧ node ∉ after := by
          have hnodup : (node :: (before ++ after)).Nodup := List.nodup_middle.mp (hsplit ▸ hpeers)
          simpa [not_or] using (List.nodup_cons.mp hnodup).1
        obtain ⟨rfl, -⟩ := (List.append_cons_inj_of_notMem hbefore hafter).mp heq
        exact List.mem_append_left _ hother
      · rw [List.mem_singleton.mp hother]
        exact hdone
    refine ⟨hprogress.sendable (List.ne_nil_of_mem hdone), fun other hother => ?_⟩
    exact ⟨hprogress.reached other (hsub other hother), hprogress.clean other (hsub other hother)⟩
  · intro hcond node hnode hup
    rw [hprogress.delivered]
    by_contra hnot
    have hahead : node ∈ ahead := by
      rw [hprogress.split] at hnode
      exact (List.mem_append.mp hnode).resolve_left hnot
    obtain ⟨between, after, hsplit⟩ := List.append_of_mem hahead
    obtain ⟨hsendable, hbefore⟩ := hcond (done ++ between) node after (by simp [hprogress.split, hsplit]) hup
    cases htodo : c.pc.todo peers with
    | some todo =>
      -- a broadcast that returned `Ok` has nothing ahead
      obtain ⟨rfl, -⟩ := hprogress.todo todo htodo
      have hnil : todo = [] := by
        cases hpc : c.pc with
        | returned result =>
          rw [hpc] at htodo
          cases result with
          | ok outcome => exact (Option.some.inj htodo).symm
          | error err => cases htodo
        | _ => simp [hpc, Pc.isOver, Pc.todo] at hover htodo
      rw [hnil] at hahead
      cases hahead
    | none =>
      obtain ⟨-, first, rest, rfl, hcause⟩ := hprogress.failed htodo
      have hfirst : first ∈ (done ++ between) ++ [node] := by
        cases between with
        | nil =>
          cases hsplit
          simp
        | cons first' between =>
          cases hsplit
          simp
      obtain ⟨hupfirst, hclean⟩ := hbefore first hfirst
      rcases hcause with hno | hdown | hpoisoned
      · exact hno hsendable
      · simp [hdown] at hupfirst
      · exact hclean hpoisoned

/-- Two peers; a name is registered at the node `a`. -/
def joinCodec : Codec where
  handshake := .ofTable [(.own "a", [3, 1, 97]), (.own "b", [3, 1, 98]), (.own "c", [3, 1, 99])]
  frame := .ofTable
    [(.registry (.snapshot []), [1, 2, 0]), (.pg (.snapshot []), [2, 2, 0]),
      (.registry (.register "svc" ⟨"a", 1⟩), [1, 0, 3, 115, 118, 99, 1, 97, 1])]
  reply := .ofTable []
  supervision := .ofTable []
  debug := fun _ => ""

def joinHooks : Hooks := { dispatch := fun _ => .ok none }

/-- Only `c` answers. -/
def onlyC : NodeId → Bool := fun node => node == "c"

/-- The map yields `b` first, which refuses the connection. -/
def downFirst : List Act :=
  [.call (.broadcastRegistry (.register "svc" ⟨"a", 1⟩)), .step 0 joinHooks none, .step 0 joinHooks none,
    .step 0 joinHooks (some (.io "connection refused"))]

/-- The map yields `c` first. -/
def upFirst : List Act :=
  let step (n : Nat) : List Act := List.replicate n (.step 0 joinHooks none)
  List.flatten
    [[.call (.broadcastRegistry (.register "svc" ⟨"a", 1⟩))], step 4, List.replicate 4 (.serve 0 joinHooks none), step 7,
      [.step 0 joinHooks (some (.io "connection refused"))]]

theorem peer_after_the_refusing_one_is_missed :
    ∃ (τ : List (TcpTransport × Act)) (s : TcpTransport) (c : Caller),
      Run (Step joinCodec ["b", "c"] "a") {} τ s ∧ (∀ x ∈ τ, fits joinCodec "a" onlyC 0 x = true) ∧
      s.callers = [c] ∧ c.call = .broadcastRegistry (.register "svc" ⟨"a", 1⟩) ∧
      c.pc = .returned (.error (.io "connection refused")) ∧
      ¬∀ node ∈ ["b", "c"], onlyC node = true → Delivered joinCodec τ 0 node := by
  have hrun : Run (Step joinCodec ["b", "c"] "a") {} _ _ :=
    run_tryPlay (next joinCodec ["b", "c"] "a") {} downFirst (by decide)
  have hfits : ∀ x ∈ ((tryPlay (next joinCodec ["b", "c"] "a") {} downFirst).get (by decide)).1,
      fits joinCodec "a" onlyC 0 x = true := by
    decide
  have hcallers : ((tryPlay (next joinCodec ["b", "c"] "a") {} downFirst).get (by decide)).2.callers =
      [{ call := .broadcastRegistry (.register "svc" ⟨"a", 1⟩),
         pc := .returned (.error (.io "connection refused")) }] := by
    decide
  refine ⟨_, _, _, hrun, hfits, hcallers, rfl, rfl, fun hall => ?_⟩
  obtain ⟨done, ahead, hprogress⟩ := progress (by decide) hrun hfits (by rw [hcallers]; rfl) rfl
  have hc : "c" ∈ done := (hprogress.delivered "c").mp (hall "c" (by decide) rfl)
  have hsplit := hprogress.split
  cases done with
  | nil => cases hc
  | cons first done =>
    -- the first of the peers is down
    obtain rfl : "b" = first := (List.cons.inj hsplit).1
    have hup := hprogress.reached "b" List.mem_cons_self
    simp [onlyC] at hup

theorem peer_before_the_refusing_one_is_reached :
    ∃ (τ : List (TcpTransport × Act)) (s : TcpTransport) (c : Caller),
      Run (Step joinCodec ["c", "b"] "a") {} τ s ∧ s.callers = [c] ∧
      c.pc = .returned (.error (.io "connection refused")) ∧ Delivered joinCodec τ 0 "c" := by
  have hrun : Run (Step joinCodec ["c", "b"] "a") {} _ _ :=
    run_tryPlay (next joinCodec ["c", "b"] "a") {} upFirst (by decide)
  have hfits : ∀ x ∈ ((tryPlay (next joinCodec ["c", "b"] "a") {} upFirst).get (by decide)).1,
      fits joinCodec "a" onlyC 0 x = true := by
    decide
  have hcallers : ((tryPlay (next joinCodec ["c", "b"] "a") {} upFirst).get (by decide)).2.callers =
      [{ call := .broadcastRegistry (.register "svc" ⟨"a", 1⟩),
         pc := .returned (.error (.io "connection refused")) }] := by
    decide
  have hsound : ∀ x ∈ ((tryPlay (next joinCodec ["c", "b"] "a") {} upFirst).get (by decide)).1,
      x.1.poisoned = false := by
    decide
  refine ⟨_, _, _, hrun, hcallers, rfl, ?_⟩
  refine (broadcast_reaches_iff (by decide) hrun hfits (by rw [hcallers]; rfl) rfl rfl).mpr ?_ "c" (by decide) rfl
  intro before node after hsplit hup
  refine ⟨⟨[1, 0, 3, 115, 118, 99, 1, 97, 1], by decide, by decide⟩, fun other hother => ⟨?_, ?_⟩⟩
  · cases before with
    | nil =>
      obtain rfl : other = node := by simpa using hother
      exact hup
    | cons first before =>
      -- the second peer is down
      cases before with
      | nil =>
        obtain ⟨-, hsplit⟩ := List.cons.inj hsplit
        obtain ⟨rfl, -⟩ := List.cons.inj hsplit
        simp [onlyC] at hup
      | cons second before => simp at hsplit
  · rintro ⟨x, hx, c, rest, hooks, fault, -, -, -, hpoisoned⟩
    simp [hsound x hx] at hpoisoned

end TcpTransport

end Spawned.Tcp
