import Spawned.Cluster.RemoteLink
import Spawned.Cluster.RemoteMonitor

/-!
# Inbound supervision events

`SupervisionBrokerInner::apply` on every kind of event, over all of the broker's tables. What it does outside of them is
a call: it reads the exit reason of a handle, signals a local actor, publishes an envelope, starts a wait task.

* `BrokerTables.apply` : one event, as a program that returns the tables, and the answer or the error;
* `Harmless` : a program whose errors leave no trace; one lemma for each kind of event;
* `rejected_without_effect_iff` : the exact condition.

`apply_link` puts the peer into `link_peers` before it looks for the local actor, so the link of an unknown actor is
refused and recorded. `apply_monitor` looks first.
-/

namespace Spawned

open Lib

open BrokerExit (MonitorKey)

/-- `SendDownFn` of a monitor's owner: the closure, by the actor that it sends to. -/
structure SendDownFn where
  owner : ActorId
deriving DecidableEq, Repr

/-- `Down`, as an owner receives it. -/
structure Down where
  monitorRef : Nat
  reason : ExitReason
deriving DecidableEq, Repr

/-- All tables of a broker. The flag of an installed monitor is its `active`. -/
structure BrokerTables extends SupervisionBrokerInner where
  monitors : Table MonitorKey Bool := Table.empty
  downOwners : Table ActorId SendDownFn := Table.empty
  linkPeers : Table ActorId (List ActorAddress) := Table.empty
  linkWaits : Finset ActorId := ∅

/-- What `apply` does outside of the tables. -/
inductive ApplyOp
  | spawn (op : BrokerOp)
  /-- `exit_reason` of a handle -/
  | exitReason (handle : ChildHandle)
  /-- `stop`, `shutdown` or `kill` of a handle -/
  | signal (handle : ChildHandle) (signal : SupervisionSignal)
  | sendExit (handle : ChildHandle) (exit : Exit)
  | sendDown (sendDown : SendDownFn) (down : Down)
  | completeRemoteShutdownWait (child : ActorId)
  | publishSupervision (envelope : SupervisionEnvelope)
  /-- the wait task of a monitor -/
  | waitMonitor (handle : ChildHandle) (key : MonitorKey) (target : ActorAddress)
  /-- the wait task of a linked actor -/
  | waitLinked (handle : ChildHandle) (localEnd : ActorAddress)

abbrev ApplyOp.Ans : ApplyOp → Type
  | .spawn op => op.Ans
  | .exitReason _ => Option ExitReason
  | .sendExit _ _ | .sendDown _ _ => Except ActorError Unit
  | .signal _ _ | .completeRemoteShutdownWait _ | .publishSupervision _ | .waitMonitor _ _ _ | .waitLinked _ _ => Unit

abbrev ApplyProg := Prog ApplyOp ApplyOp.Ans

abbrev ApplyTrace := Trace ApplyOp ApplyOp.Ans

def downEnvelope (owner : ActorAddress) (monitorRef : Nat) (child : ActorAddress) (reason : ExitReason) :
    SupervisionEnvelope where
  correlationId := 0
  event := .down owner monitorRef child reason

def publishDown (owner : ActorAddress) (monitorRef : Nat) (child : ActorAddress) (reason : ExitReason) :
    ApplyProg Unit :=
  Prog.op (ApplyOp.publishSupervision (downEnvelope owner monitorRef child reason))

namespace BrokerTables

/-! ## The kinds of events -/

/-- `apply_signal`. -/
def applySignal (b : BrokerTables) (target : ActorAddress) (signal : SupervisionSignal) :
    ApplyProg (BrokerTables × Except TransportError Unit) :=
  if target.node ≠ b.localNode then
    pure (b, .error (.protocol ("supervision signal target " ++ target.node ++ " is not on this node (" ++
      b.localNode ++ ")")))
  else
    match b.handles target.actorId with
    | none => pure (b, .error (.protocol ("supervision signal: unknown local actor " ++
        displayActorId target.actorId)))
    | some handle => do
      Prog.op (ApplyOp.signal handle signal)
      pure (b, .ok ())

/-- `apply_child_exit`. -/
def applyChildExit (b : BrokerTables) (child parent : ActorAddress) (reason : ExitReason) :
    ApplyProg (BrokerTables × Except TransportError Unit) :=
  if parent.node ≠ b.localNode then
    pure (b, .error (.protocol ("ChildExit parent " ++ parent.node ++ " is not on this node (" ++ b.localNode ++ ")")))
  else
    match b.handles parent.actorId with
    | none => pure (b, .error (.protocol ("ChildExit: unknown local parent actor " ++ displayActorId parent.actorId)))
    | some handle => do
      Prog.op (ApplyOp.completeRemoteShutdownWait child.actorId)
      match ← Prog.op (ApplyOp.sendExit handle { «from» := child, reason }) with
      | .error e => pure (b, .error (.protocol e.toString))
      | .ok () => pure (b, .ok ())

/-- `apply_monitor`. -/
def applyMonitor (b : BrokerTables) (owner target : ActorAddress) (monitorRef : Nat) :
    ApplyProg (BrokerTables × Except TransportError Unit) :=
  if target.node ≠ b.localNode then
    pure (b, .error (.protocol ("Monitor target " ++ target.node ++ " is not on this node (" ++ b.localNode ++ ")")))
  else
    match b.handles target.actorId with
    | none =>
      match b.exited target.actorId with
      | some reason => do
        publishDown owner monitorRef target reason
        pure (b, .ok ())
      | none => pure (b, .error (.protocol ("Monitor: unknown local target actor " ++ displayActorId target.actorId)))
    | some handle => do
      let key : MonitorKey := ⟨owner, monitorRef⟩
      let b := { b with monitors := b.monitors.insert key true }
      match ← Prog.op (ApplyOp.exitReason handle) with
      | some reason =>
        let b := { b with monitors := b.monitors.remove key }
        publishDown owner monitorRef target reason
        pure (b, .ok ())
      | none =>
        Prog.op (ApplyOp.waitMonitor handle key target)
        pure (b, .ok ())

/-- `apply_demonitor`; the flag it clears is that of an entry that is no longer in the table. -/
def applyDemonitor (b : BrokerTables) (owner : ActorAddress) (monitorRef : Nat) : BrokerTables :=
  { b with monitors := b.monitors.remove ⟨owner, monitorRef⟩ }

/-- `apply_down`. -/
def applyDown (b : BrokerTables) (owner : ActorAddress) (monitorRef : Nat) (reason : ExitReason) :
    ApplyProg (BrokerTables × Except TransportError Unit) :=
  if owner.node ≠ b.localNode then
    pure (b, .error (.protocol ("Down owner " ++ owner.node ++ " is not on this node (" ++ b.localNode ++ ")")))
  else
    match b.downOwners owner.actorId with
    | none => pure (b, .error (.protocol ("Down: unknown local owner actor " ++ displayActorId owner.actorId)))
    | some sendDown => do
      match ← Prog.op (ApplyOp.sendDown sendDown { monitorRef, reason }) with
      | .error e => pure (b, .error (.protocol e.toString))
      | .ok () => pure (b, .ok ())

/-- Which end of a link is on this node, and the other one. -/
def localAndRemote (b : BrokerTables) (a c : ActorAddress) : Option (ActorAddress × ActorAddress) :=
  if a.node = b.localNode then some (a, c) else if c.node = b.localNode then some (c, a) else none

/-- The remote peers that are recorded for a local actor. -/
def peersOf (b : BrokerTables) (id : ActorId) : List ActorAddress := (b.linkPeers id).getD []

def pushPeer (b : BrokerTables) (id : ActorId) (remote : ActorAddress) : BrokerTables :=
  { b with
    linkPeers := b.linkPeers.insert id
      (if remote ∈ b.peersOf id then b.peersOf id else b.peersOf id ++ [remote]) }

@[simp] theorem pushPeer_exited (b : BrokerTables) (id : ActorId) (remote : ActorAddress) :
    (b.pushPeer id remote).exited = b.exited := rfl

@[simp] theorem pushPeer_handles (b : BrokerTables) (id : ActorId) (remote : ActorAddress) :
    (b.pushPeer id remote).handles = b.handles := rfl

@[simp] theorem peersOf_pushPeer (b : BrokerTables) (id : ActorId) (remote : ActorAddress) :
    (b.pushPeer id remote).peersOf id =
      if remote ∈ b.peersOf id then b.peersOf id else b.peersOf id ++ [remote] := by
  simp only [pushPeer, peersOf, Table.insert_self, Option.getD_some]

/-- `apply_link`. -/
def applyLink (b : BrokerTables) (a c : ActorAddress) : ApplyProg (BrokerTables × Except TransportError Unit) :=
  match b.localAndRemote a c with
  | none => pure (b, .error (.protocol ("Link: neither " ++ a.node ++ " nor " ++ c.node ++ " is on this node (" ++
      b.localNode ++ ")")))
  | some (localEnd, remote) =>
    let b := b.pushPeer localEnd.actorId remote
    match b.exited localEnd.actorId with
    | some reason => do
      Prog.op (ApplyOp.publishSupervision (childExitEnvelope localEnd remote reason))
      pure (b, .ok ())
    | none =>
      match b.handles localEnd.actorId with
      | none => pure (b, .error (.protocol ("Link: unknown local actor " ++ displayActorId localEnd.actorId)))
      | some handle => do
        match ← Prog.op (ApplyOp.exitReason handle) with
        | some reason =>
          Prog.op (ApplyOp.publishSupervision (childExitEnvelope localEnd remote reason))
          pure (b, .ok ())
        | none =>
          if localEnd.actorId ∈ b.linkWaits then pure (b, .ok ())
          else
            let b := { b with linkWaits := insert localEnd.actorId b.linkWaits }
            Prog.op (ApplyOp.waitLinked handle localEnd)
            pure (b, .ok ())

/-- `apply_unlink`. -/
def applyUnlink (b : BrokerTables) (a c : ActorAddress) : BrokerTables :=
  match b.localAndRemote a c with
  | none => b
  | some (localEnd, remote) =>
    match b.linkPeers localEnd.actorId with
    | none => b
    | some peers => { b with linkPeers := b.linkPeers.insert localEnd.actorId (peers.filter (· ≠ remote)) }

/-- A result that carries no answer. -/
def noAnswer (r : BrokerTables × Except TransportError Unit) :
    BrokerTables × Except TransportError (Option SupervisionEnvelope) :=
  (r.1, r.2.map fun _ => none)

/-- `apply_spawn`, whose tables are those of `SupervisionBrokerInner`. -/
def applySpawn (b : BrokerTables) (correlationId : Nat) (parent : ActorAddress) (placement : NodeId)
    (spec : RemoteSpawnSpec) (link : Bool) :
    ApplyProg (BrokerTables × Except TransportError (Option SupervisionEnvelope)) := do
  let (inner, reply) ← (b.toSupervisionBrokerInner.applySpawn correlationId parent placement spec link).lift
    ApplyOp.spawn fun _ answer => answer
  pure ({ b with toSupervisionBrokerInner := inner }, reply.map some)

/-- `apply`. -/
def apply (b : BrokerTables) (envelope : SupervisionEnvelope) :
    ApplyProg (BrokerTables × Except TransportError (Option SupervisionEnvelope)) :=
  match envelope.event with
  | .signal target signal => do pure (noAnswer (← b.applySignal target signal))
  | .spawnRequest parent placement spec link => b.applySpawn envelope.correlationId parent placement spec link
  | .childExit child parent reason => do pure (noAnswer (← b.applyChildExit child parent reason))
  | .monitor owner target monitorRef => do pure (noAnswer (← b.applyMonitor owner target monitorRef))
  | .demonitor owner _ monitorRef => pure (b.applyDemonitor owner monitorRef, .ok none)
  | .down owner monitorRef _ reason => do pure (noAnswer (← b.applyDown owner monitorRef reason))
  | .link a c => do pure (noAnswer (← b.applyLink a c))
  | .unlink a c => pure (b.applyUnlink a c, .ok none)
  | .spawnOk _ | .spawnErr _ => pure (b, .ok none)

/-! ## What an error leaves behind -/

/-- The envelopes that were published. -/
def published (τ : ApplyTrace) : List SupervisionEnvelope :=
  τ.filterMap fun call =>
    match call with
    | ⟨.publishSupervision envelope, _⟩ => some envelope
    | _ => none

/-- The local actors that were signalled; a send that is answered by an error has reached no one. -/
def signalled (τ : ApplyTrace) : List ActorId :=
  τ.filterMap fun call =>
    match call with
    | ⟨.signal handle _, _⟩ => some handle.id
    | ⟨.sendExit handle _, .ok _⟩ => some handle.id
    | ⟨.sendDown sendDown _, .ok _⟩ => some sendDown.owner
    | _ => none

/-- Whatever the calls are answered, an error leaves all tables as they were, with nothing published and no local actor
signalled. -/
def Harmless {α : Type} (b : BrokerTables) (p : ApplyProg (BrokerTables × Except TransportError α)) : Prop :=
  ∀ τ b' err, p.Exec τ (b', .error err) → b' = b ∧ published τ = [] ∧ signalled τ = []

variable {b : BrokerTables}

/-- A program that returns no error, whatever its calls are answered. -/
def Succeeds {α : Type} (p : ApplyProg (BrokerTables × Except TransportError α)) : Prop :=
  ∀ τ b' err, ¬p.Exec τ (b', .error err)

theorem succeeds_pure {α : Type} (b' : BrokerTables) (a : α) : Succeeds (pure (b', .ok a)) := by
  intro τ b₁ err h
  cases h.2

theorem succeeds_call {α : Type} {op : ApplyOp} {k : op.Ans → ApplyProg (BrokerTables × Except TransportError α)}
    (h : ∀ x, Succeeds (k x)) : Succeeds (.call op k) := by
  rintro τ b' err ⟨x, τ', -, hk⟩
  exact h x τ' b' err hk

theorem Succeeds.harmless {α : Type} {p : ApplyProg (BrokerTables × Except TransportError α)} (h : Succeeds p) :
    Harmless b p := by
  intro τ b' err hp
  exact absurd hp (h τ b' err)

theorem harmless_error {α : Type} (err : TransportError) :
    Harmless b (pure (b, .error err) : ApplyProg (BrokerTables × Except TransportError α)) := by
  intro τ b₁ err' h
  obtain ⟨rfl, h⟩ := h
  cases h
  exact ⟨rfl, rfl, rfl⟩

/-- A call that publishes or signals must not be followed by an error. -/
theorem harmless_call {α : Type} {op : ApplyOp} {k : op.Ans → ApplyProg (BrokerTables × Except TransportError α)}
    (hk : ∀ x, Harmless b (k x))
    (hop : ∀ x, published [⟨op, x⟩] = [] ∧ signalled [⟨op, x⟩] = [] ∨ Succeeds (k x)) : Harmless b (.call op k) := by
  rintro τ b' err ⟨x, τ', rfl, hexec⟩
  obtain ⟨hb, hpub, hsig⟩ := hk x τ' b' err hexec
  rcases hop x with ⟨hpub₁, hsig₁⟩ | hok
  · refine ⟨hb, ?_, ?_⟩
    · rw [← List.singleton_append, published, List.filterMap_append]
      exact List.append_eq_nil_iff.mpr ⟨hpub₁, hpub⟩
    · rw [← List.singleton_append, signalled, List.filterMap_append]
      exact List.append_eq_nil_iff.mpr ⟨hsig₁, hsig⟩
  · exact absurd hexec (hok τ' b' err)

/-- The answer put on a result changes neither the tables nor the error. -/
theorem harmless_noAnswer {p : ApplyProg (BrokerTables × Except TransportError Unit)} :
    Harmless b (do pure (noAnswer (← p))) ↔ Harmless b p := by
  constructor
  · intro h τ b' err hp
    exact h τ b' err (Prog.exec_bind_pure.mpr ⟨(b', .error err), hp, rfl⟩)
  · intro h τ b' err hexec
    obtain ⟨⟨b₁, r⟩, hp, heq⟩ := Prog.exec_bind_pure.mp hexec
    cases r with
    | ok u => cases heq
    | error e =>
      cases heq
      exact h τ b₁ _ hp

/-! ## Each kind of event -/

theorem harmless_applySignal (target : ActorAddress) (signal : SupervisionSignal) :
    Harmless b (b.applySignal target signal) := by
  unfold applySignal
  split_ifs with hnode
  · exact harmless_error _
  · cases b.handles target.actorId with
    | none => exact harmless_error _
    | some handle => exact (succeeds_call fun _ => succeeds_pure _ _).harmless

/-- The `Exit` that a full or closed mailbox refuses has reached no one. The shutdown wait for the child is over by then:
its exit is known. -/
theorem harmless_applyChildExit (child parent : ActorAddress) (reason : ExitReason) :
    Harmless b (b.applyChildExit child parent reason) := by
  unfold applyChildExit
  split_ifs with hnode
  · exact harmless_error _
  · cases b.handles parent.actorId with
    | none => exact harmless_error _
    | some handle =>
      refine harmless_call (fun _ => harmless_call ?_ ?_) fun _ => Or.inl ⟨rfl, rfl⟩
      · intro answer
        cases answer with
        | error e => exact harmless_error _
        | ok u => exact (succeeds_pure _ _).harmless
      · intro answer
        cases answer with
        | error e => exact Or.inl ⟨rfl, rfl⟩
        | ok u => exact Or.inr (succeeds_pure _ _)

/-- The target is looked for before the monitor is installed. -/
theorem harmless_applyMonitor (owner target : ActorAddress) (monitorRef : Nat) :
    Harmless b (b.applyMonitor owner target monitorRef) := by
  unfold applyMonitor
  split_ifs with hnode
  · exact harmless_error _
  · cases b.handles target.actorId with
    | none =>
      cases b.exited target.actorId with
      | none => exact harmless_error _
      | some reason => exact (succeeds_call fun _ => succeeds_pure _ _).harmless
    | some handle =>
      refine (succeeds_call fun answer => ?_).harmless
      cases answer with
      | none => exact succeeds_call fun _ => succeeds_pure _ _
      | some reason => exact succeeds_call fun _ => succeeds_pure _ _

theorem harmless_applyDown (owner : ActorAddress) (monitorRef : Nat) (reason : ExitReason) :
    Harmless b (b.applyDown owner monitorRef reason) := by
  unfold applyDown
  split_ifs with hnode
  · exact harmless_error _
  · cases b.downOwners owner.actorId with
    | none => exact harmless_error _
    | some sendDown =>
      refine harmless_call ?_ ?_
      · intro answer
        cases answer with
        | error e => exact harmless_error _
        | ok u => exact (succeeds_pure _ _).harmless
      · intro answer
        cases answer with
        | error e => exact Or.inl ⟨rfl, rfl⟩
        | ok u => exact Or.inr (succeeds_pure _ _)

/-- A spawn request is always answered. -/
theorem harmless_applySpawn (correlationId : Nat) (parent : ActorAddress) (placement : NodeId)
    (spec : RemoteSpawnSpec) (link : Bool) :
    Harmless b (b.applySpawn correlationId parent placement spec link) := by
  intro τ b' err hexec
  obtain ⟨τ₁, ⟨inner, reply⟩, τ₂, -, hp, -, heq⟩ := Prog.exec_bind.mp hexec
  obtain ⟨σ, hσ⟩ := Prog.exec_of_lift _ _ hp
  rcases SupervisionBrokerInner.applySpawn_reply hσ with ⟨child, rfl, -⟩ | ⟨error, rfl, -⟩ <;> cases heq

/-! ## Links -/

/-- A link of an actor of this node that is in neither table, and does not have the peer yet. -/
def LinksUnknown (b : BrokerTables) : SupervisionEvent → Prop
  | .link a c => ∃ localEnd remote, b.localAndRemote a c = some (localEnd, remote) ∧
      b.exited localEnd.actorId = none ∧ b.handles localEnd.actorId = none ∧ remote ∉ b.peersOf localEnd.actorId
  | _ => False

/-- A peer that is in the list already is not put into it again. -/
theorem pushPeer_of_mem {id : ActorId} {remote : ActorAddress} (h : remote ∈ b.peersOf id) :
    b.pushPeer id remote = b := by
  have hsome : b.linkPeers id = some (b.peersOf id) := by
    cases hpeers : b.linkPeers id with
    | none => simp [peersOf, hpeers] at h
    | some peers => simp [peersOf, hpeers]
  have hsame : b.linkPeers.insert id (b.peersOf id) = b.linkPeers := by
    rw [Table.insert, ← hsome, Function.update_eq_self]
  simp only [pushPeer, h, if_true, hsame]

/-- A new peer is in the list after it. -/
theorem pushPeer_ne {id : ActorId} {remote : ActorAddress} (h : remote ∉ b.peersOf id) :
    b.pushPeer id remote ≠ b := by
  intro heq
  have hmem : remote ∈ (b.pushPeer id remote).peersOf id := by
    rw [peersOf_pushPeer, if_neg h]
    exact List.mem_append_right _ List.mem_cons_self
  rw [heq] at hmem
  exact h hmem

section Link

variable {a c localEnd remote : ActorAddress} (hends : b.localAndRemote a c = some (localEnd, remote))

include hends

/-- A link whose actor has exited tells the peer so. -/
theorem succeeds_applyLink_exited {reason : ExitReason} (hexited : b.exited localEnd.actorId = some reason) :
    Succeeds (b.applyLink a c) := by
  simp only [applyLink, hends, pushPeer_exited, hexited]
  exact succeeds_call fun _ => succeeds_pure _ _

/-- A link that finds its actor tells the peer that it has exited, or sees to it that the peer will be told. -/
theorem succeeds_applyLink_registered {handle : ChildHandle} (hexited : b.exited localEnd.actorId = none)
    (hhandle : b.handles localEnd.actorId = some handle) : Succeeds (b.applyLink a c) := by
  simp only [applyLink, hends, pushPeer_exited, hexited, pushPeer_handles, hhandle]
  refine succeeds_call fun answer => ?_
  cases answer with
  | some reason => exact succeeds_call fun _ => succeeds_pure _ _
  | none =>
    show Succeeds (if localEnd.actorId ∈ (b.pushPeer localEnd.actorId remote).linkWaits then _ else _)
    split_ifs
    · exact succeeds_pure _ _
    · exact succeeds_call fun _ => succeeds_pure _ _

/-- A link that does not find its actor is refused, with the peer in the list. -/
theorem applyLink_unknown (hexited : b.exited localEnd.actorId = none) (hhandle : b.handles localEnd.actorId = none) :
    b.applyLink a c = pure (b.pushPeer localEnd.actorId remote,
      .error (.protocol ("Link: unknown local actor " ++ displayActorId localEnd.actorId))) := by
  simp only [applyLink, hends, pushPeer_exited, hexited, pushPeer_handles, hhandle]

theorem linksUnknown_iff : b.LinksUnknown (.link a c) ↔
    b.exited localEnd.actorId = none ∧ b.handles localEnd.actorId = none ∧ remote ∉ b.peersOf localEnd.actorId := by
  constructor
  · rintro ⟨_, _, h, hunknown⟩
    cases hends.symm.trans h
    exact hunknown
  · intro hunknown
    exact ⟨localEnd, remote, hends, hunknown⟩

end Link

theorem harmless_applyLink_iff (a c : ActorAddress) :
    Harmless b (b.applyLink a c) ↔ ¬b.LinksUnknown (.link a c) := by
  cases hends : b.localAndRemote a c with
  | none =>
    refine iff_of_true ?_ ?_
    · simp only [applyLink, hends]
      exact harmless_error _
    · rintro ⟨localEnd, remote, h, -⟩
      rw [hends] at h
      cases h
  | some ends =>
    obtain ⟨localEnd, remote⟩ := ends
    rw [linksUnknown_iff hends]
    cases hexited : b.exited localEnd.actorId with
    | some reason => exact iff_of_true (succeeds_applyLink_exited hends hexited).harmless (by simp)
    | none =>
      cases hhandle : b.handles localEnd.actorId with
      | some handle => exact iff_of_true (succeeds_applyLink_registered hends hexited hhandle).harmless (by simp)
      | none =>
        rw [applyLink_unknown hends hexited hhandle]
        by_cases hnew : remote ∈ b.peersOf localEnd.actorId
        · rw [pushPeer_of_mem hnew]
          exact iff_of_true (harmless_error _) (by simp [hnew])
        · refine iff_of_false ?_ (by simp [hnew])
          intro h
          exact pushPeer_ne hnew (h [] _ _ ⟨rfl, rfl⟩).1

/-- **When a rejected event has no effect**: always, but for the link of an unknown local actor to a peer that is not yet
in its list, which is rejected and leaves the peer there. -/
theorem rejected_without_effect_iff (b : BrokerTables) (envelope : SupervisionEnvelope) :
    (∀ τ b' err, (b.apply envelope).Exec τ (b', .error err) → b' = b ∧ published τ = [] ∧ signalled τ = []) ↔
      ¬b.LinksUnknown envelope.event := by
  show Harmless b (b.apply envelope) ↔ _
  obtain ⟨correlationId, event⟩ := envelope
  cases event with
  | signal target signal => exact iff_of_true (harmless_noAnswer.mpr (harmless_applySignal _ _)) id
  | spawnRequest parent placement spec link => exact iff_of_true (harmless_applySpawn _ _ _ _ _) id
  | childExit child parent reason => exact iff_of_true (harmless_noAnswer.mpr (harmless_applyChildExit _ _ _)) id
  | monitor owner target monitorRef => exact iff_of_true (harmless_noAnswer.mpr (harmless_applyMonitor _ _ _)) id
  | demonitor owner target monitorRef => exact iff_of_true (succeeds_pure _ _).harmless id
  | down owner monitorRef child reason => exact iff_of_true (harmless_noAnswer.mpr (harmless_applyDown _ _ _)) id
  | link a c => exact harmless_noAnswer.trans (harmless_applyLink_iff a c)
  | unlink a c => exact iff_of_true (succeeds_pure _ _).harmless id
  | spawnOk child => exact iff_of_true (succeeds_pure _ _).harmless id
  | spawnErr error => exact iff_of_true (succeeds_pure _ _).harmless id

/-- Node "a" refuses to link its actor 1, which it does not know, to actor 2 of node "b", and keeps "b"'s actor in the
list of peers. -/
theorem rejected_link_is_recorded :
    ¬∀ (b : BrokerTables) (envelope : SupervisionEnvelope) τ b' err, (b.apply envelope).Exec τ (b', .error err) →
      b' = b ∧ published τ = [] ∧ signalled τ = [] := by
  intro h
  obtain ⟨hb, -⟩ := h ({ localNode := "a" } : BrokerTables) ⟨0, .link ⟨"b", 2⟩ ⟨"a", 1⟩⟩ [] _ _ ⟨rfl, rfl⟩
  have hpeers := congrFun (congrArg BrokerTables.linkPeers hb) 1
  cases hpeers

end BrokerTables

end Spawned
