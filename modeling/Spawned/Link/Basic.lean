import Mathlib.Data.List.Count
import Mathlib.Data.List.Nodup
import Mathlib.Logic.Function.Basic
import Spawned.Exit

/-!
# Link tables and exit signals

The cells an actor shares with its peers (`ActorCell`: trap flag, link table, linked and requested reason, cancellation
token, supervision lane, completion value), and the two procedures that race on them, cut into their atomic steps.

* `makeSignal` : what an exit signal does to the cells of the actor it reaches;
* `linkStep` : `link_handles`, one locked section or one read at a time;
* `exitStep` : what `spawn` runs after `run_actor` has returned: `propagate_exit`, the remote links, `pg::remove_actor`,
  the completion value.

A `LinkEntry` is its peer's id: the signal closure and the table it carries are the peer's own cells.
-/

namespace Spawned

/-- The cells of an actor that its handles share. -/
structure ActorCell where
  trapExit : Bool := false
  links : List ActorId := []
  linkedReason : Option ExitReason := none
  requestedExit : Option ExitReason := none
  skipStopped : Bool := false
  cancelled : Bool := false
  /-- the receiving end of the supervision lane is still there -/
  laneOpen : Bool := true
  /-- every `Exit` the supervision lane has received, oldest first -/
  lane : List Exit := []
  completion : Option ExitReason := none
deriving DecidableEq, Repr

/-- The cells of all actors of a node. -/
abbrev Cells := ActorId → ActorCell

namespace Cells

/-- One locked access to the cells of an actor. -/
def modify (w : Cells) (id : ActorId) (f : ActorCell → ActorCell) : Cells := Function.update w id (f (w id))

@[simp] theorem modify_self (w : Cells) (id : ActorId) (f : ActorCell → ActorCell) : w.modify id f id = f (w id) := by
  simp [modify]

theorem modify_ne (w : Cells) {id id' : ActorId} (f : ActorCell → ActorCell) (h : id' ≠ id) :
    w.modify id f id' = w id' := by
  simp [modify, h]

theorem modify_apply (w : Cells) (id id' : ActorId) (f : ActorCell → ActorCell) :
    w.modify id f id' = if id' = id then f (w id') else w id' := by
  by_cases h : id' = id
  · subst h; simp
  · simp [h, modify_ne]

end Cells

/-! ## Link tables -/

/-- Push a peer unless it is there already. -/
def pushLink (table : List ActorId) (peer : ActorId) : List ActorId :=
  if table.any (· == peer) then table else table ++ [peer]

/-- `table.retain(|e| e.peer_id != peer)`. -/
def dropLink (table : List ActorId) (peer : ActorId) : List ActorId := table.filter (· != peer)

theorem mem_pushLink {table : List ActorId} {peer x : ActorId} :
    x ∈ pushLink table peer ↔ x ∈ table ∨ x = peer := by
  unfold pushLink
  split
  case isTrue h =>
    obtain ⟨y, hy, hyp⟩ := List.any_eq_true.mp h
    obtain rfl : y = peer := by simpa using hyp
    constructor
    · exact Or.inl
    · rintro (hx | rfl)
      · exact hx
      · exact hy
  case isFalse => simp

theorem nodup_pushLink {table : List ActorId} {peer : ActorId} (h : table.Nodup) : (pushLink table peer).Nodup := by
  unfold pushLink
  split
  case isTrue => exact h
  case isFalse hp =>
    rw [List.nodup_append_comm]
    refine List.nodup_cons.mpr ⟨fun hmem => hp ?_, h⟩
    exact List.any_eq_true.mpr ⟨peer, hmem, by simp⟩

@[simp] theorem mem_dropLink {table : List ActorId} {peer x : ActorId} :
    x ∈ dropLink table peer ↔ x ∈ table ∧ x ≠ peer := by
  simp [dropLink]

theorem nodup_dropLink {table : List ActorId} {peer : ActorId} (h : table.Nodup) : (dropLink table peer).Nodup :=
  h.filter _

/-- `retain` shortens the table exactly when the peer was in it. -/
theorem length_dropLink_ne {table : List ActorId} {peer : ActorId} :
    table.length ≠ (dropLink table peer).length ↔ peer ∈ table := by
  rw [ne_comm, dropLink, Ne, List.length_filter_eq_length_iff]
  simp

/-! ## Exit signals -/

/-- An exit signal from `sender`, delivered to the cells of its peer. A Kill cannot be trapped. -/
def makeSignal (here : NodeId) (sender : ActorId) (reason : ExitReason) (peer : ActorCell) : ActorCell :=
  if reason = .kill then
    { peer with linkedReason := peer.linkedReason.or (some .kill), cancelled := true }
  else if reason = .normal ∧ peer.trapExit = false then peer
  else if peer.trapExit then
    if peer.laneOpen then { peer with lane := peer.lane ++ [{ «from» := ⟨here, sender⟩, reason }] } else peer
  else
    { peer with linkedReason := peer.linkedReason.or (some reason), cancelled := true }

/-- A trapping peer gets any signal other than Kill as an `Exit`, and nothing else of it changes. -/
theorem makeSignal_trapping {here : NodeId} {sender : ActorId} {reason : ExitReason} {peer : ActorCell}
    (hr : reason ≠ .kill) (ht : peer.trapExit = true) (ho : peer.laneOpen = true) :
    makeSignal here sender reason peer = { peer with lane := peer.lane ++ [{ «from» := ⟨here, sender⟩, reason }] } := by
  simp [makeSignal, hr, ht, ho]

@[simp] theorem makeSignal_links (here : NodeId) (sender : ActorId) (reason : ExitReason) (peer : ActorCell) :
    (makeSignal here sender reason peer).links = peer.links := by
  unfold makeSignal; split_ifs <;> rfl

@[simp] theorem makeSignal_completion (here : NodeId) (sender : ActorId) (reason : ExitReason) (peer : ActorCell) :
    (makeSignal here sender reason peer).completion = peer.completion := by
  unfold makeSignal; split_ifs <;> rfl

@[simp] theorem makeSignal_trapExit (here : NodeId) (sender : ActorId) (reason : ExitReason) (peer : ActorCell) :
    (makeSignal here sender reason peer).trapExit = peer.trapExit := by
  unfold makeSignal; split_ifs <;> rfl

@[simp] theorem makeSignal_laneOpen (here : NodeId) (sender : ActorId) (reason : ExitReason) (peer : ActorCell) :
    (makeSignal here sender reason peer).laneOpen = peer.laneOpen := by
  unfold makeSignal; split_ifs <;> rfl

/-- The `Exit`s a lane has received from `sender`. -/
def exitsFrom (here : NodeId) (sender : ActorId) (lane : List Exit) : List Exit :=
  lane.filter (fun exit => exit.from == ⟨here, sender⟩)

@[simp] theorem exitsFrom_append_self (here : NodeId) (sender : ActorId) (lane : List Exit) (reason : ExitReason) :
    exitsFrom here sender (lane ++ [{ «from» := ⟨here, sender⟩, reason }]) =
      exitsFrom here sender lane ++ [{ «from» := ⟨here, sender⟩, reason }] := by
  simp [exitsFrom]

theorem exitsFrom_append_ne (here : NodeId) {sender other : ActorId} (lane : List Exit) (reason : ExitReason)
    (h : other ≠ sender) :
    exitsFrom here sender (lane ++ [{ «from» := ⟨here, other⟩, reason }]) = exitsFrom here sender lane := by
  simp [exitsFrom, h]

/-- A signal from another actor leaves the `Exit`s of `sender` as they are. -/
theorem exitsFrom_makeSignal_ne {here : NodeId} {sender other : ActorId} {reason : ExitReason} {peer : ActorCell}
    (h : other ≠ sender) :
    exitsFrom here sender (makeSignal here other reason peer).lane = exitsFrom here sender peer.lane := by
  unfold makeSignal
  split_ifs <;> simp [exitsFrom_append_ne _ _ _ h]

/-! ## Linking -/

/-- Where `link_handles` is. -/
inductive LinkPc
  | pushOwn
  | pushPeer
  | readReason
  | takeSelf (reason : ExitReason)
  | signal (reason : ExitReason)
  | done
deriving DecidableEq, Repr

/-- The next atomic step of `link_handles(owner, target)`. -/
def linkStep (here : NodeId) (owner target : ActorId) (w : Cells) : LinkPc → LinkPc × Cells
  | .pushOwn => (.pushPeer, w.modify owner fun c => { c with links := pushLink c.links target })
  | .pushPeer => (.readReason, w.modify target fun c => { c with links := pushLink c.links owner })
  | .readReason =>
    match (w target).completion with
    | some reason => (.takeSelf reason, w)
    | none => (.done, w)
  | .takeSelf reason =>
    let table := (w target).links
    (if table.length ≠ (dropLink table owner).length then .signal reason else .done,
      w.modify target fun c => { c with links := dropLink c.links owner })
  | .signal reason => (.done, w.modify owner (makeSignal here target reason))
  | .done => (.done, w)

/-! ## Exiting -/

/-- Where the exit sequence of an actor is; `dropSelf` and `signalPeer` are the loop over the drained entries. -/
inductive ExitPc
  | drain
  | dropSelf (entries : List ActorId)
  | signalPeer (peer : ActorId) (entries : List ActorId)
  | remoteLinks
  | removeActor
  | complete
  | done
deriving DecidableEq, Repr

/-- The next atomic step of the exit sequence of `own`, which stopped with `reason`. The remote links and the process
groups are not among these cells. -/
def exitStep (here : NodeId) (own : ActorId) (reason : ExitReason) (w : Cells) : ExitPc → ExitPc × Cells
  | .drain => (.dropSelf (w own).links, w.modify own fun c => { c with links := [] })
  | .dropSelf [] => (.remoteLinks, w)
  | .dropSelf (peer :: entries) =>
    (.signalPeer peer entries, w.modify peer fun c => { c with links := dropLink c.links own })
  | .signalPeer peer entries => (.dropSelf entries, w.modify peer (makeSignal here own reason))
  | .remoteLinks => (.removeActor, w)
  | .removeActor => (.complete, w)
  | .complete => (.done, w.modify own fun c => { c with completion := some reason })
  | .done => (.done, w)

/-! ## Supervision lanes

A lane only grows, and what link signals add to it comes from actors of this node. -/

/-- Between `w` and `w'` each lane has received some `Exit`s of actors on `here`. -/
def LanesGrow (here : NodeId) (w w' : Cells) : Prop :=
  ∀ id, ∃ exits : List Exit, (w' id).lane = (w id).lane ++ exits ∧ ∀ exit ∈ exits, exit.from.node = here

theorem LanesGrow.refl (here : NodeId) (w : Cells) : LanesGrow here w w := fun _ => ⟨[], by simp, by simp⟩

/-- An access to one actor's cells that leaves its lane alone. -/
theorem LanesGrow.modify_of_lane {here : NodeId} {w : Cells} {id : ActorId} {f : ActorCell → ActorCell}
    (hf : ∀ c, (f c).lane = c.lane) : LanesGrow here w (w.modify id f) := by
  intro id'
  refine ⟨[], ?_, by simp⟩
  rw [Cells.modify_apply]
  split_ifs
  · simp [hf]
  · simp

theorem LanesGrow.signal (here : NodeId) (w : Cells) (sender peer : ActorId) (reason : ExitReason) :
    LanesGrow here w (w.modify peer (makeSignal here sender reason)) := by
  intro id
  by_cases hid : id = peer
  · subst hid
    rw [Cells.modify_self]
    unfold makeSignal
    split_ifs with hkill hnormal htrap hopen
    · exact ⟨[], by simp, by simp⟩
    · exact ⟨[], by simp, by simp⟩
    · exact ⟨[⟨⟨here, sender⟩, reason⟩], rfl, by simp⟩
    · exact ⟨[], by simp, by simp⟩
    · exact ⟨[], by simp, by simp⟩
  · exact ⟨[], by rw [Cells.modify_ne _ _ hid, List.append_nil], by simp⟩

theorem lanesGrow_linkStep (here : NodeId) (owner target : ActorId) (w : Cells) (pc : LinkPc) :
    LanesGrow here w (linkStep here owner target w pc).2 := by
  cases pc with
  | pushOwn => exact LanesGrow.modify_of_lane fun _ => rfl
  | pushPeer => exact LanesGrow.modify_of_lane fun _ => rfl
  | readReason =>
    simp only [linkStep]
    split
    · exact LanesGrow.refl here w
    · exact LanesGrow.refl here w
  | takeSelf reason => exact LanesGrow.modify_of_lane fun _ => rfl
  | signal reason => exact LanesGrow.signal here w target owner reason
  | done => exact LanesGrow.refl here w

theorem lanesGrow_exitStep (here : NodeId) (own : ActorId) (reason : ExitReason) (w : Cells) (pc : ExitPc) :
    LanesGrow here w (exitStep here own reason w pc).2 := by
  cases pc with
  | drain => exact LanesGrow.modify_of_lane fun _ => rfl
  | dropSelf entries =>
    cases entries with
    | nil => exact LanesGrow.refl here w
    | cons peer entries => exact LanesGrow.modify_of_lane fun _ => rfl
  | signalPeer peer entries => exact LanesGrow.signal here w own peer reason
  | remoteLinks => exact LanesGrow.refl here w
  | removeActor => exact LanesGrow.refl here w
  | complete => exact LanesGrow.modify_of_lane fun _ => rfl
  | done => exact LanesGrow.refl here w

/-- The signals to `peer` the exit sequence still has to give, once the table is drained. -/
def ExitPc.pending (peer : ActorId) : ExitPc → Nat
  | .dropSelf entries => entries.count peer
  | .signalPeer p entries => (p :: entries).count peer
  | _ => 0

/-! ## What a peer sees -/

/-- The cells differ in their link table at most. -/
def TableOnly (c c' : ActorCell) : Prop := ∃ links, c' = { c with links }

theorem TableOnly.of_eq {c c' : ActorCell} (h : c' = c) : TableOnly c c' := ⟨c.links, h⟩

/-- `link_handles` does to the owner no more than change its table and give it one signal. -/
theorem linkStep_owner (here : NodeId) {owner target : ActorId} (hne : owner ≠ target) (w : Cells) (pc : LinkPc) :
    (∃ reason, pc = .signal reason ∧
        (linkStep here owner target w pc).2 owner = makeSignal here target reason (w owner)) ∨
      (∀ reason, pc ≠ .signal reason) ∧ TableOnly (w owner) ((linkStep here owner target w pc).2 owner) := by
  cases pc with
  | pushOwn => exact Or.inr ⟨by simp, pushLink (w owner).links target, by simp [linkStep]⟩
  | pushPeer => exact Or.inr ⟨by simp, .of_eq (by simp [linkStep, Cells.modify_ne _ _ hne])⟩
  | readReason =>
    refine Or.inr ⟨by simp, .of_eq ?_⟩
    simp only [linkStep]
    split
    · rfl
    · rfl
  | takeSelf reason => exact Or.inr ⟨by simp, .of_eq (by simp [linkStep, Cells.modify_ne _ _ hne])⟩
  | signal reason => exact Or.inl ⟨reason, rfl, Cells.modify_self _ _ _⟩
  | done => exact Or.inr ⟨by simp, .of_eq rfl⟩

/-- The exit of `own` does to a peer no more than change its table and give it one signal for each entry. -/
theorem exitStep_peer (here : NodeId) {own peer : ActorId} (hne : peer ≠ own) (reason : ExitReason) (w : Cells)
    (pc : ExitPc) :
    (∃ entries, pc = .signalPeer peer entries ∧
        (exitStep here own reason w pc).2 peer = makeSignal here own reason (w peer)) ∨
      (∀ entries, pc ≠ .signalPeer peer entries) ∧ TableOnly (w peer) ((exitStep here own reason w pc).2 peer) := by
  cases pc with
  | drain => exact Or.inr ⟨by simp, .of_eq (by simp [exitStep, Cells.modify_ne _ _ hne])⟩
  | dropSelf entries =>
    cases entries with
    | nil => exact Or.inr ⟨by simp, .of_eq rfl⟩
    | cons p entries =>
      by_cases hp : peer = p
      · subst hp
        exact Or.inr ⟨by simp, dropLink (w peer).links own, by simp [exitStep]⟩
      · exact Or.inr ⟨by simp, .of_eq (by simp [exitStep, Cells.modify_ne _ _ hp])⟩
  | signalPeer p entries =>
    by_cases hp : peer = p
    · subst hp
      exact Or.inl ⟨entries, rfl, Cells.modify_self _ _ _⟩
    · refine Or.inr ⟨?_, .of_eq (Cells.modify_ne _ _ hp)⟩
      rintro _ ⟨⟩
      exact hp rfl
  | remoteLinks => exact Or.inr ⟨by simp, .of_eq rfl⟩
  | removeActor => exact Or.inr ⟨by simp, .of_eq rfl⟩
  | complete => exact Or.inr ⟨by simp, .of_eq (by simp [exitStep, Cells.modify_ne _ _ hne])⟩
  | done => exact Or.inr ⟨by simp, .of_eq rfl⟩

end Spawned
