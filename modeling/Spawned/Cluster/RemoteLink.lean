import Spawned.Cluster.Broker
import Spawned.Link.Basic
import Spawned.Mailbox

/-!
# Links across nodes

An actor linked to a remote peer through `link_address` learns of the peer's death by a `ChildExit`: the peer's node
encodes the reason and publishes the envelope, routing sends it to the owner's node, and there `apply_child_exit` puts
an `Exit` on the owner's supervision lane. A local link runs the closure of `make_signal` on the owner's cells instead.

* `WireExitReason` : the reasons as they travel, and back;
* `SupervisionBrokerInner.applyChildExit` : a `ChildExit` at the broker of the owner's node;
* `BrokerCluster.publishChildExit` : a `ChildExit`, encoded, routed and applied;
* `publishChildExit_eq_makeSignal_iff` : when the two kinds of link have one effect.
-/

namespace Spawned

open Lib

/-! ## Reasons on the wire -/

/-- `WireExitReason` of the cluster crate. -/
inductive WireExitReason
  | normal
  | shutdown
  | panic (msg : String)
  | kill
deriving DecidableEq, Repr

def exitReasonToWire : ExitReason → WireExitReason
  | .normal => .normal
  | .shutdown => .shutdown
  | .panic msg => .panic msg
  | .kill => .kill

def wireToExitReason : WireExitReason → ExitReason
  | .normal => .normal
  | .shutdown => .shutdown
  | .panic msg => .panic msg
  | .kill => .kill

/-- No reason is lost or changed on the wire. -/
@[simp] theorem wireToExitReason_exitReasonToWire (reason : ExitReason) :
    wireToExitReason (exitReasonToWire reason) = reason := by
  cases reason <;> rfl

/-! ## The broker of the owner's node -/

/-- `Display` of an `ActorError`. -/
def ActorError.toString : ActorError → String
  | .actorStopped => "Actor stopped"
  | .mailboxFull => "Actor mailbox is full"

/-- `send_exit_fn` of an actor's handle: it enqueues on the supervision lane and reads no flag of the actor. -/
def sendExit (exit : Exit) (c : ActorCell) : Except ActorError ActorCell :=
  if c.laneOpen then .ok { c with lane := c.lane ++ [exit] } else .error .actorStopped

namespace SupervisionBrokerInner

/-- `apply_child_exit`, on the cells of the broker's node. The waits of `complete_remote_shutdown_wait` are no cells of
the owner. -/
def applyChildExit (b : SupervisionBrokerInner) (w : Cells) (child parent : ActorAddress) (reason : WireExitReason) :
    Except TransportError Cells :=
  if parent.node ≠ b.localNode then
    .error (.protocol ("ChildExit parent " ++ parent.node ++ " is not on this node (" ++ b.localNode ++ ")"))
  else
    match b.handles parent.actorId with
    | none => .error (.protocol ("ChildExit: unknown local parent actor " ++ displayActorId parent.actorId))
    | some handle =>
      match sendExit { «from» := child, reason := wireToExitReason reason } (w handle.id) with
      | .error e => .error (.protocol e.toString)
      | .ok c => .ok (w.modify handle.id fun _ => c)

end SupervisionBrokerInner

/-! ## Routing -/

/-- The node that receives an event. -/
def routeNode : SupervisionEvent → Option NodeId
  | .spawnRequest _ placement _ _ => some placement
  | .signal target _ => some target.node
  | .childExit _ parent _ => some parent.node
  | .down owner _ _ _ => some owner.node
  | .monitor _ target _ => some target.node
  | .demonitor _ target _ => some target.node
  | .link _ b | .unlink _ b => some b.node
  | .spawnOk _ | .spawnErr _ => none

/-- The brokers and the actors of a cluster. Each broker goes by the name of its node, and `register` refuses a handle
under another id. -/
structure BrokerCluster where
  tables : NodeId → SupervisionBrokerInner
  cells : NodeId → Cells
  named : ∀ node, (tables node).localNode = node
  own : ∀ node id handle, (tables node).handles id = some handle → handle.id = id

namespace BrokerCluster

/-- The cells of the actor at an address. -/
def cell (w : BrokerCluster) (address : ActorAddress) : ActorCell := w.cells address.node address.actorId

/-- The broker of the actor's node knows its handle. -/
def Registered (w : BrokerCluster) (address : ActorAddress) : Prop :=
  (w.tables address.node).handles address.actorId ≠ none

/-- A `ChildExit` is published on the child's node, routed, and applied where it arrives. Whoever publishes ignores the
error of the broker. -/
def publishChildExit (w : BrokerCluster) (child parent : ActorAddress) (reason : ExitReason) : BrokerCluster :=
  match routeNode (childExitEnvelope child parent reason).event with
  | none => w
  | some node =>
    match (w.tables node).applyChildExit (w.cells node) child parent (exitReasonToWire reason) with
    | .error _ => w
    | .ok cells => { w with cells := Function.update w.cells node cells }

variable {w : BrokerCluster} {child owner : ActorAddress}

/-- An owner that its broker knows and whose lane is there gets the `Exit`, whatever its trap flag. -/
theorem cell_publishChildExit (reason : ExitReason) (hreg : w.Registered owner) (ho : (w.cell owner).laneOpen = true) :
    (w.publishChildExit child owner reason).cell owner =
      { w.cell owner with lane := (w.cell owner).lane ++ [{ «from» := child, reason }] } := by
  obtain ⟨handle, hhandle⟩ := Option.ne_none_iff_exists'.mp hreg
  have hid := w.own _ _ _ hhandle
  have hsent : (w.tables owner.node).applyChildExit (w.cells owner.node) child owner (exitReasonToWire reason) =
      .ok ((w.cells owner.node).modify owner.actorId fun _ =>
        { w.cell owner with lane := (w.cell owner).lane ++ [{ «from» := child, reason }] }) := by
    have ho' : (w.cells owner.node owner.actorId).laneOpen = true := ho
    simp [SupervisionBrokerInner.applyChildExit, w.named, hhandle, hid, sendExit, ho', cell]
  simp only [publishChildExit, routeNode, childExitEnvelope, hsent]
  simp [cell]

/-- Anyone else is left as it was. -/
theorem publishChildExit_lost (reason : ExitReason) (h : ¬(w.Registered owner ∧ (w.cell owner).laneOpen = true)) :
    w.publishChildExit child owner reason = w := by
  have herr : ∃ e, (w.tables owner.node).applyChildExit (w.cells owner.node) child owner (exitReasonToWire reason) =
      .error e := by
    cases hhandle : (w.tables owner.node).handles owner.actorId with
    | none => exact ⟨_, by simp [SupervisionBrokerInner.applyChildExit, w.named, hhandle]; rfl⟩
    | some handle =>
      have hid := w.own _ _ _ hhandle
      have ho : (w.cells owner.node owner.actorId).laneOpen = false := by
        by_contra hne
        refine h ⟨?_, by simpa [cell] using hne⟩
        simp [Registered, hhandle]
      exact ⟨_, by simp [SupervisionBrokerInner.applyChildExit, w.named, hhandle, hid, sendExit, ho]; rfl⟩
  obtain ⟨e, herr⟩ := herr
  simp only [publishChildExit, routeNode, childExitEnvelope, herr]

end BrokerCluster

/-! ## Local and remote links -/

/-- The owner survives the signal of a local link only as an `Exit`: it traps, and the reason is not Kill. -/
def Traps (c : ActorCell) (reason : ExitReason) : Prop := c.trapExit = true ∧ reason ≠ .kill

/-- The signal of a local link changes nothing in the owner: a normal exit that is not trapped, a trapped exit when the
lane is gone, or a death signal to an owner that is cancelled with a linked reason already. -/
def Unmoved (c : ActorCell) (reason : ExitReason) : Prop :=
  (reason = .normal ∧ c.trapExit = false) ∨ (Traps c reason ∧ c.laneOpen = false) ∨
    (¬Traps c reason ∧ reason ≠ .normal ∧ c.linkedReason ≠ none ∧ c.cancelled = true)

theorem makeSignal_eq_self_iff {here : NodeId} {sender : ActorId} {reason : ExitReason} {c : ActorCell} :
    makeSignal here sender reason c = c ↔ Unmoved c reason := by
  obtain ⟨trapExit, links, linkedReason, requestedExit, skipStopped, cancelled, laneOpen, lane, completion⟩ := c
  cases trapExit <;> cases reason <;> cases laneOpen <;> cases linkedReason <;> cases cancelled <;>
    simp [makeSignal, Unmoved, Traps]

/-- With the lane there, a local signal is an `Exit` and nothing else exactly when it is trapped. -/
theorem exit_eq_makeSignal_iff {here : NodeId} {sender : ActorId} {reason : ExitReason} {c : ActorCell}
    (ho : c.laneOpen = true) :
    { c with lane := c.lane ++ [{ «from» := ⟨here, sender⟩, reason }] } = makeSignal here sender reason c ↔
      Traps c reason := by
  constructor
  · intro h
    -- only the trapping branch makes the lane longer
    have hlane := congrArg (fun c => c.lane.length) h
    by_contra hnot
    unfold Traps at hnot
    unfold makeSignal at hlane
    split_ifs at hlane <;> simp at hlane
    all_goals simp_all
  · intro ht
    rw [makeSignal_trapping ht.2 ht.1 ho]

/-- **When remote links behave like local links.** Whatever the owner, the peer, the reason and the state of the cluster
when the `ChildExit` of the peer arrives, the owner's cells afterwards are those `make_signal` would have left exactly if

* the owner is known to its broker with its lane there, traps exits at that moment, and the reason is not Kill; or
* the `ChildExit` does not reach the owner, and a local signal would have changed nothing in it. -/
theorem publishChildExit_eq_makeSignal_iff (w : BrokerCluster) (peer owner : ActorAddress) (reason : ExitReason) :
    (w.publishChildExit peer owner reason).cell owner = makeSignal peer.node peer.actorId reason (w.cell owner) ↔
      (w.Registered owner ∧ (w.cell owner).laneOpen = true ∧ Traps (w.cell owner) reason) ∨
        (¬(w.Registered owner ∧ (w.cell owner).laneOpen = true) ∧ Unmoved (w.cell owner) reason) := by
  by_cases h : w.Registered owner ∧ (w.cell owner).laneOpen = true
  · rw [w.cell_publishChildExit reason h.1 h.2, exit_eq_makeSignal_iff h.2]
    simp [h]
  · rw [w.publishChildExit_lost reason h, eq_comm, makeSignal_eq_self_iff]
    constructor
    · exact fun hu => Or.inr ⟨h, hu⟩
    · rintro (⟨hreg, ho, -⟩ | ⟨-, hu⟩)
      · exact absurd ⟨hreg, ho⟩ h
      · exact hu

/-- A cluster whose brokers know every actor, all with the cells `c`. -/
def BrokerCluster.uniform (c : ActorCell) : BrokerCluster where
  tables := fun node => { localNode := node, handles := fun id => some ⟨id⟩ }
  cells := fun _ _ => c
  named := fun _ => rfl
  own := fun _ _ _ h => by cases h; rfl

/-- A peer that panics leaves a remotely linked owner that does not trap running, with an `Exit` to read; and a peer that
is killed leaves one that traps running. A local link cancels both. -/
theorem publishChildExit_ne_makeSignal :
    ((BrokerCluster.uniform {}).publishChildExit ⟨"b", 7⟩ ⟨"a", 1⟩ (.panic "boom")).cell ⟨"a", 1⟩ ≠
        makeSignal "b" 7 (.panic "boom") ((BrokerCluster.uniform {}).cell ⟨"a", 1⟩) ∧
      ((BrokerCluster.uniform { trapExit := true }).publishChildExit ⟨"b", 7⟩ ⟨"a", 1⟩ .kill).cell ⟨"a", 1⟩ ≠
        makeSignal "b" 7 .kill ((BrokerCluster.uniform { trapExit := true }).cell ⟨"a", 1⟩) := by
  decide

end Spawned
