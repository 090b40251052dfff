import Mathlib.Algebra.Order.BigOperators.Group.Finset
import Mathlib.Data.Finset.Card
import Mathlib.Logic.Relation
import Spawned.Lib.Run
import Spawned.Link.Basic

/-!
# Exit cascades

One actor of a linked group exits, its links carry the exit to its peers, and those it ends carry it on, all at once:
each actor takes the steps of its own exit in its own time, so that signals reach actors that are running, stopping,
draining their table or gone.

* `Phase`, `CascadeStep` : the run loop of an actor that is cancelled by a signal, and its exit sequence;
* `Falls`, `Spreads` : who is ended by a signal, and along which links the exit spreads;
* `ActorOk`, `PairOk`, `LaneOk` : what holds of each actor, of each link, of each lane, after any steps;
* `cascade_computes_reachability` : the main result, with a bound on the steps.
-/

namespace Spawned

open Lib

/-- Where an actor is: serving, out of its loop, or past `resolve_exit_reason`. -/
inductive Phase
  | running
  | stopping
  | exiting (reason : ExitReason) (pc : ExitPc)
deriving DecidableEq, Repr

structure Cascade where
  cells : Cells
  phase : ActorId → Phase

/-- `run_actor` returns: the reason it resolves, with the slots taken and the receivers dropped. -/
def ActorCell.resolve (c : ActorCell) : ExitReason × ActorCell :=
  let resolved := resolveExitReason .normal c.requestedExit c.linkedReason
  (resolved.1, { c with requestedExit := resolved.2.1, linkedReason := resolved.2.2, laneOpen := false })

/-- Who acts, and how. -/
inductive CascadeAct
  | stop (id : ActorId)
  | resolve (id : ActorId)
  | exit (id : ActorId)
deriving DecidableEq, Repr

/-- The steps of the actors, while nobody requests an exit, panics, links or unlinks. -/
inductive CascadeStep (here : NodeId) : Cascade → CascadeAct → Cascade → Prop
  /-- a cancelled mailbox gives `MailboxItem::Shutdown` -/
  | stop {s : Cascade} {id : ActorId} (hphase : s.phase id = .running) (hcancel : (s.cells id).cancelled = true) :
      CascadeStep here s (.stop id) { s with phase := Function.update s.phase id .stopping }
  | resolve {s : Cascade} {id : ActorId} (hphase : s.phase id = .stopping) :
      CascadeStep here s (.resolve id)
        { phase := Function.update s.phase id (.exiting (s.cells id).resolve.1 .drain)
          cells := s.cells.modify id fun c => c.resolve.2 }
  | exit {s : Cascade} {id : ActorId} {reason : ExitReason} {pc : ExitPc} (hphase : s.phase id = .exiting reason pc)
      (hpc : pc ≠ .done) :
      CascadeStep here s (.exit id)
        { phase := Function.update s.phase id (.exiting reason (exitStep here id reason s.cells pc).1)
          cells := (exitStep here id reason s.cells pc).2 }

/-- Nothing changes any more. -/
def Quiescent (here : NodeId) (s : Cascade) : Prop := ∀ a s', ¬ CascadeStep here s a s'

/-- The cells `w` of running actors, linked among themselves in both directions. -/
structure LinkGraph (actors : Finset ActorId) (w : Cells) : Prop where
  symm : ∀ a b, b ∈ (w a).links → a ∈ (w b).links
  nodup : ∀ a, (w a).links.Nodup
  inside : ∀ a b, b ∈ (w a).links → b ∈ actors
  linkedReason : ∀ a, (w a).linkedReason = none
  requestedExit : ∀ a, (w a).requestedExit = none
  cancelled : ∀ a, (w a).cancelled = false
  laneOpen : ∀ a, (w a).laneOpen = true
  completion : ∀ a, (w a).completion = none

/-- `run_actor` of `x` has returned `reason`. -/
def Cascade.start (w : Cells) (x : ActorId) (reason : ExitReason) : Cascade where
  cells := w.modify x fun c => { c with laneOpen := false }
  phase := Function.update (fun _ => Phase.running) x (.exiting reason .drain)

/-! ## How an exit spreads -/

section Spread

variable (w : Cells) (r : ExitReason)

/-- A signal with reason `r` ends the actor. -/
def Falls (y : ActorId) : Prop := r = .kill ∨ r ≠ .normal ∧ (w y).trapExit = false

/-- The exit of `d` ends its peer `y`. -/
def Spreads (d y : ActorId) : Prop := y ∈ (w d).links ∧ Falls w r y

/-- The exit of `x` reaches `y`. -/
abbrev Ends (x y : ActorId) : Prop := Relation.ReflTransGen (Spreads w r) x y

end Spread

variable {here : NodeId} {w : Cells} {x : ActorId} {r : ExitReason} {s s' : Cascade} {a d y : ActorId}

theorem ends_normal : Ends w .normal x y ↔ y = x := by
  constructor
  · intro h
    induction h with
    | refl => rfl
    | tail _ hstep _ => simp [Spreads, Falls] at hstep
  · rintro rfl
    exact .refl

theorem spreads_kill : Spreads w .kill = fun d y => y ∈ (w d).links := by
  funext d y
  simp [Spreads, Falls]

theorem spreads_abnormal (hn : r ≠ .normal) (hk : r ≠ .kill) :
    Spreads w r = fun d y => y ∈ (w d).links ∧ (w y).trapExit = false := by
  funext d y
  simp [Spreads, Falls, hn, hk]

theorem LinkGraph.mem_of_ends {actors : Finset ActorId} (hg : LinkGraph actors w) (hx : x ∈ actors)
    (h : Ends w r x y) : y ∈ actors := by
  induction h with
  | refl => exact hx
  | tail _ hstep _ => exact hg.inside _ _ hstep.1

/-! ## Phases -/

namespace Phase

/-- The exit sequence has emptied the actor's table. -/
def drained : Phase → Bool
  | .exiting _ pc => pc != .drain
  | _ => false

/-- The drained entries still to be signalled. -/
def queue : Phase → List ActorId
  | .exiting _ (.dropSelf entries) => entries
  | .exiting _ (.signalPeer peer entries) => peer :: entries
  | _ => []

/-- `resolve_exit_reason` is still to come. -/
def unresolved : Phase → Bool
  | .exiting _ _ => false
  | _ => true

/-- An actor in this phase has given `y` its signal, if `y` was in its table. -/
def Sent (p : Phase) (y : ActorId) : Prop := p.drained = true ∧ y ∉ p.queue

/-- The steps an actor still takes, when tables have at most `n` entries. -/
def work (n : Nat) : Phase → Nat
  | .running => 2 * n + 8
  | .stopping => 2 * n + 7
  | .exiting _ .drain => 2 * n + 6
  | .exiting _ (.dropSelf entries) => 2 * entries.length + 5
  | .exiting _ (.signalPeer _ entries) => 2 * entries.length + 6
  | .exiting _ .remoteLinks => 4
  | .exiting _ .removeActor => 3
  | .exiting _ .complete => 2
  | .exiting _ .done => 1

end Phase

/-! ## The invariant -/

/-- What holds of an actor, from its own cells and phase. -/
structure ActorOk (w : Cells) (x : ActorId) (r : ExitReason) (a : ActorId) (c : ActorCell) (p : Phase) : Prop where
  trapExit : c.trapExit = (w a).trapExit
  requestedExit : c.requestedExit = none
  ends : p ≠ .running ∨ c.cancelled = true → Ends w r x a
  linkedReason : p.unresolved = true → c.cancelled = true → c.linkedReason = some r
  unlinked : c.linkedReason = none ∨ c.linkedReason = some r
  stopping : p = .stopping → c.cancelled = true
  reason : ∀ reason pc, p = .exiting reason pc → reason = r
  completion : c.completion = if p = .exiting r .done then some r else none
  links_nodup : c.links.Nodup
  links_sub : ∀ b ∈ c.links, b ∈ (w a).links
  queue_nodup : p.queue.Nodup
  queue_sub : ∀ b ∈ p.queue, b ∈ (w a).links

/-- The link from `d` to `y`, while `y` has not resolved its reason: `y` stays in the table of `d` until `d` drains it,
and is cancelled once the signal is given, if that ends it. -/
def PairOk (w : Cells) (r : ExitReason) (d y : ActorId) (cd : ActorCell) (pd : Phase) (cy : ActorCell)
    (py : Phase) : Prop :=
  py.unresolved = true → y ∈ (w d).links →
    (pd.drained = false → y ∈ cd.links) ∧ (pd.Sent y → Falls w r y → cy.cancelled = true)

/-- The lane of a trapping actor has received the exits of the peers that have given it their signal. -/
def LaneOk (here : NodeId) (w : Cells) (r : ExitReason) (y : ActorId) (c : ActorCell) (p : Phase)
    (phase : ActorId → Phase) : Prop :=
  p.unresolved = true → (w y).trapExit = true →
    c.laneOpen = true ∧ ∃ exits : List Exit, c.lane = (w y).lane ++ exits ∧ exits.Nodup ∧
      ∀ e, e ∈ exits ↔ r ≠ .kill ∧ ∃ d, y ∈ (w d).links ∧ (phase d).Sent y ∧ e = ⟨⟨here, d⟩, r⟩

/-- What holds after any steps of the cascade of `x`. -/
structure Cascade.Inv (here : NodeId) (w : Cells) (x : ActorId) (r : ExitReason) (s : Cascade) : Prop where
  origin : ∃ pc, s.phase x = .exiting r pc
  actor : ∀ a, ActorOk w x r a (s.cells a) (s.phase a)
  pair : ∀ d y, PairOk w r d y (s.cells d) (s.phase d) (s.cells y) (s.phase y)
  lane : ∀ y, LaneOk here w r y (s.cells y) (s.phase y) s.phase

theorem Cascade.inv_start {actors : Finset ActorId} (hg : LinkGraph actors w) :
    (Cascade.start w x r).Inv here w x r := by
  have hdrained : ∀ d, ((Cascade.start w x r).phase d).drained = false := by
    intro d
    by_cases hd : d = x
    · subst hd; simp [Cascade.start, Phase.drained]
    · simp [Cascade.start, hd, Phase.drained]
  have hqueue : ∀ d, ((Cascade.start w x r).phase d).queue = [] := by
    intro d
    by_cases hd : d = x
    · subst hd; simp [Cascade.start, Phase.queue]
    · simp [Cascade.start, hd, Phase.queue]
  have hlinks : ∀ d, ((Cascade.start w x r).cells d).links = (w d).links := by
    intro d
    simp only [Cascade.start, Cells.modify_apply]
    split_ifs <;> rfl
  refine ⟨⟨.drain, by simp [Cascade.start]⟩, fun a => ?_, fun d y _ hy => ?_, fun y hu _ => ?_⟩
  · by_cases ha : a = x
    · subst ha
      refine ⟨?_, ?_, fun _ => .refl, ?_, ?_, ?_, ?_, ?_, ?_, ?_, ?_, ?_⟩ <;>
        simp [Cascade.start, hg.requestedExit, hg.linkedReason, hg.completion, hg.nodup, Phase.unresolved, Phase.queue]
    · refine ⟨?_, ?_, ?_, ?_, ?_, ?_, ?_, ?_, ?_, ?_, ?_, ?_⟩ <;>
        simp [Cascade.start, ha, Cells.modify_ne, hg.requestedExit, hg.linkedReason, hg.completion, hg.nodup, hg.cancelled,
          Phase.queue]
  · refine ⟨fun _ => by rw [hlinks]; exact hy, fun hsent => ?_⟩
    simp [Phase.Sent, hdrained] at hsent
  · have hne : y ≠ x := by
      rintro rfl
      simp [Cascade.start, Phase.unresolved] at hu
    refine ⟨by simp [Cascade.start, Cells.modify_ne _ _ hne, hg.laneOpen], [], ?_, List.nodup_nil, fun e => ?_⟩
    · simp [Cascade.start, Cells.modify_ne _ _ hne]
    · simp [Phase.Sent, hdrained]

/-! ## One actor's steps -/

section Actor

variable {c : ActorCell} {p : Phase}

theorem ActorOk.stop (h : ActorOk w x r a c .running) (hc : c.cancelled = true) : ActorOk w x r a c .stopping := by
  refine ⟨h.trapExit, h.requestedExit, fun _ => h.ends (.inr hc), fun _ => h.linkedReason rfl, h.unlinked, fun _ => hc,
    by simp, ?_, h.links_nodup, h.links_sub, List.nodup_nil, by simp [Phase.queue]⟩
  have hnone := h.completion
  simpa using hnone

/-- An actor that was cancelled resolves the reason of the cascade. -/
theorem ActorOk.resolve_reason (h : ActorOk w x r a c .stopping) : c.resolve.1 = r := by
  have hl : c.linkedReason = some r := h.linkedReason rfl (h.stopping rfl)
  simp [ActorCell.resolve, h.requestedExit, hl, resolveExitReason]

theorem ActorOk.resolve (h : ActorOk w x r a c .stopping) : ActorOk w x r a c.resolve.2 (.exiting r .drain) := by
  have hl : c.linkedReason = some r := h.linkedReason rfl (h.stopping rfl)
  have hcell : c.resolve.2 = { c with linkedReason := none, laneOpen := false } := by
    simp [ActorCell.resolve, h.requestedExit, hl, resolveExitReason]
  rw [hcell]
  refine ⟨h.trapExit, h.requestedExit, fun _ => h.ends (.inl (by simp)), by simp [Phase.unresolved], .inl rfl, by simp,
    by simp, ?_, h.links_nodup, h.links_sub, List.nodup_nil, by simp [Phase.queue]⟩
  have hnone := h.completion
  simpa using hnone

/-- The exit sequence goes on to `pc'`, with a queue of the actor's own peers. -/
theorem ActorOk.advance {pc pc' : ExitPc} (h : ActorOk w x r a c (.exiting r pc)) (hpc : pc ≠ .done) (hpc' : pc' ≠ .done)
    (hnodup : (Phase.exiting r pc').queue.Nodup) (hsub : ∀ b ∈ (Phase.exiting r pc').queue, b ∈ (w a).links) :
    ActorOk w x r a c (.exiting r pc') := by
  refine ⟨h.trapExit, h.requestedExit, fun _ => h.ends (.inl (by simp)), by simp [Phase.unresolved], h.unlinked, by simp,
    fun reason pc he => ?_, ?_, h.links_nodup, h.links_sub, hnodup, hsub⟩
  · cases he
    rfl
  · have hnone := h.completion
    simp only [Phase.exiting.injEq, hpc, hpc', and_false, if_false] at hnone ⊢
    exact hnone

theorem ActorOk.complete (h : ActorOk w x r a c (.exiting r .complete)) :
    ActorOk w x r a { c with completion := some r } (.exiting r .done) := by
  refine ⟨h.trapExit, h.requestedExit, fun _ => h.ends (.inl (by simp)), by simp [Phase.unresolved], h.unlinked, by simp,
    fun reason pc he => ?_, by simp, h.links_nodup, h.links_sub, List.nodup_nil, by simp [Phase.queue]⟩
  cases he
  rfl

/-- The table shrinks. -/
theorem ActorOk.links (h : ActorOk w x r a c p) {links : List ActorId} (hnodup : links.Nodup)
    (hsub : ∀ b ∈ links, b ∈ c.links) : ActorOk w x r a { c with links := links } p :=
  ⟨h.trapExit, h.requestedExit, h.ends, h.linkedReason, h.unlinked, h.stopping, h.reason, h.completion, hnodup,
    fun b hb => h.links_sub b (hsub b hb), h.queue_nodup, h.queue_sub⟩

/-- A signal of the cascade either leaves all but the lane, or ends an actor it may end. -/
theorem makeSignal_cases (here : NodeId) (d : ActorId) (r : ExitReason) (c : ActorCell) :
    (∃ lane, makeSignal here d r c = { c with lane := lane }) ∧ ¬ (r = .kill ∨ r ≠ .normal ∧ c.trapExit = false) ∨
      (r = .kill ∨ r ≠ .normal ∧ c.trapExit = false) ∧
        makeSignal here d r c = { c with linkedReason := c.linkedReason.or (some r), cancelled := true } := by
  unfold makeSignal
  split_ifs with hk hn ht ho
  · right
    subst hk
    exact ⟨.inl rfl, rfl⟩
  · left
    exact ⟨⟨c.lane, rfl⟩, by simp [hn.1]⟩
  · left
    exact ⟨⟨c.lane ++ [⟨⟨here, d⟩, r⟩], rfl⟩, by simp [hk, ht]⟩
  · left
    exact ⟨⟨c.lane, rfl⟩, by simp [hk, ht]⟩
  · right
    have htrap : c.trapExit = false := by simpa using ht
    exact ⟨.inr ⟨fun he => hn ⟨he, htrap⟩, htrap⟩, rfl⟩

theorem ActorOk.signal (h : ActorOk w x r a c p) (hd : Ends w r x d) (hlink : a ∈ (w d).links) :
    ActorOk w x r a (makeSignal here d r c) p := by
  rcases makeSignal_cases here d r c with ⟨⟨lane, he⟩, -⟩ | ⟨hfalls, he⟩
  · rw [he]
    exact ⟨h.trapExit, h.requestedExit, h.ends, h.linkedReason, h.unlinked, h.stopping, h.reason, h.completion,
      h.links_nodup, h.links_sub, h.queue_nodup, h.queue_sub⟩
  · rw [he]
    have hor : c.linkedReason.or (some r) = some r := by
      rcases h.unlinked with hl | hl <;> rw [hl] <;> rfl
    have hends : Ends w r x a := hd.tail ⟨hlink, by rw [Falls, ← h.trapExit]; exact hfalls⟩
    exact ⟨h.trapExit, h.requestedExit, fun _ => hends, fun _ _ => hor, .inr hor, fun _ => rfl, h.reason, h.completion,
      h.links_nodup, h.links_sub, h.queue_nodup, h.queue_sub⟩

end Actor

/-! ## Links and lanes -/

/-- Steps that move no signal: no table is drained, no signal given, and no actor still to resolve leaves a table. -/
structure Quiet (s s' : Cascade) : Prop where
  unresolved : ∀ b, (s'.phase b).unresolved = true → (s.phase b).unresolved = true
  drained : ∀ b, (s'.phase b).drained = (s.phase b).drained
  queue : ∀ b, (s'.phase b).queue = (s.phase b).queue
  links : ∀ b, ∀ y ∈ (s.cells b).links, (s'.phase y).unresolved = true → y ∈ (s'.cells b).links
  cancelled : ∀ b, (s'.cells b).cancelled = (s.cells b).cancelled
  lane : ∀ b, (s'.cells b).lane = (s.cells b).lane
  laneOpen : ∀ b, (s'.phase b).unresolved = true → (s'.cells b).laneOpen = (s.cells b).laneOpen

theorem Quiet.sent (h : Quiet s s') (d y : ActorId) : (s'.phase d).Sent y ↔ (s.phase d).Sent y := by
  rw [Phase.Sent, Phase.Sent, h.drained, h.queue]

theorem Quiet.inv (h : Quiet s s') (hi : s.Inv here w x r) (ho : ∃ pc, s'.phase x = .exiting r pc)
    (ha : ∀ a, ActorOk w x r a (s'.cells a) (s'.phase a)) : s'.Inv here w x r := by
  refine ⟨ho, ha, fun d y hu hy => ?_, fun y hu ht => ?_⟩
  · obtain ⟨hwait, hcancel⟩ := hi.pair d y (h.unresolved y hu) hy
    refine ⟨fun hd => ?_, fun hsent hf => ?_⟩
    · rw [h.drained] at hd
      exact h.links d y (hwait hd) hu
    · rw [h.cancelled]
      exact hcancel ((h.sent d y).mp hsent) hf
  · obtain ⟨hopen, exits, hlane, hnodup, hmem⟩ := hi.lane y (h.unresolved y hu) ht
    refine ⟨by rw [h.laneOpen y hu, hopen], exits, by rw [h.lane, hlane], hnodup, fun e => ?_⟩
    rw [hmem]
    simp only [h.sent]

/-- An access that leaves `g` of the cells alone. -/
theorem Cells.modify_keeps {β : Type} (g : ActorCell → β) (w : Cells) (id b : ActorId) (f : ActorCell → ActorCell)
    (hf : ∀ c, g (f c) = g c) : g (w.modify id f b) = g (w b) := by
  rw [Cells.modify_apply]
  split_ifs
  · exact hf (w b)
  · rfl

/-! ## The steps -/

section Steps

variable {id : ActorId} {p' : Phase} {w' : Cells}

/-- The phase of `id` changes, with what a quiet step may do to the cells. -/
theorem quiet_update (hu : p'.unresolved = true → (s.phase id).unresolved = true)
    (hd : p'.drained = (s.phase id).drained) (hq : p'.queue = (s.phase id).queue)
    (hlinks : ∀ b, ∀ y ∈ (s.cells b).links, (Function.update s.phase id p' y).unresolved = true → y ∈ (w' b).links)
    (hcancel : ∀ b, (w' b).cancelled = (s.cells b).cancelled) (hlane : ∀ b, (w' b).lane = (s.cells b).lane)
    (hopen : ∀ b, (Function.update s.phase id p' b).unresolved = true → (w' b).laneOpen = (s.cells b).laneOpen) :
    Quiet s ⟨w', Function.update s.phase id p'⟩ := by
  refine ⟨fun b => ?_, fun b => ?_, fun b => ?_, hlinks, hcancel, hlane, hopen⟩ <;>
    by_cases hb : b = id
  · subst hb; simpa using hu
  · simp [hb]
  · subst hb; simpa using hd
  · simp [hb]
  · subst hb; simpa using hq
  · simp [hb]

/-- While `id` is in its exit sequence, those still to resolve their reason are others. -/
theorem unresolved_update {pc : ExitPc} {b : ActorId}
    (h : (Function.update s.phase id (.exiting r pc) b).unresolved = true) : b ≠ id ∧ (s.phase b).unresolved = true := by
  have hne : b ≠ id := by
    rintro rfl
    simp [Phase.unresolved] at h
  exact ⟨hne, by simpa [hne] using h⟩

theorem actor_update (h : ∀ b, b ≠ id → ActorOk w x r b (w' b) (s.phase b)) (hid : ActorOk w x r id (w' id) p')
    (b : ActorId) : ActorOk w x r b (w' b) (Function.update s.phase id p' b) := by
  by_cases hb : b = id
  · subst hb; simpa using hid
  · simpa [hb] using h b hb

/-- The origin of the cascade stays in its exit sequence. -/
theorem origin_update (h : s.Inv here w x r) (hp : (∃ pc, p' = .exiting r pc) ∨ (s.phase id).unresolved = true) :
    ∃ pc, Function.update s.phase id p' x = .exiting r pc := by
  obtain ⟨pc, hpc⟩ := h.origin
  by_cases hx : x = id
  · subst hx
    rcases hp with ⟨pc', rfl⟩ | hu
    · exact ⟨pc', by simp⟩
    · simp [hpc, Phase.unresolved] at hu
  · exact ⟨pc, by simp [hx, hpc]⟩

theorem Cascade.Inv.stop (h : s.Inv here w x r) (hphase : s.phase id = .running)
    (hcancel : (s.cells id).cancelled = true) :
    Cascade.Inv here w x r { s with phase := Function.update s.phase id .stopping } := by
  have hid : ActorOk w x r id (s.cells id) .stopping := ActorOk.stop (hphase ▸ h.actor id) hcancel
  refine Quiet.inv ?_ h (origin_update h (.inr (by rw [hphase]; rfl))) (actor_update (fun b _ => h.actor b) hid)
  refine quiet_update ?_ ?_ ?_ (fun b y hy _ => hy) (fun _ => rfl) (fun _ => rfl) (fun _ _ => rfl) <;> rw [hphase] <;>
    simp [Phase.unresolved, Phase.drained, Phase.queue]

theorem Cascade.Inv.resolve (h : s.Inv here w x r) (hphase : s.phase id = .stopping) :
    Cascade.Inv here w x r
      { phase := Function.update s.phase id (.exiting (s.cells id).resolve.1 .drain)
        cells := s.cells.modify id fun c => c.resolve.2 } := by
  have hok : ActorOk w x r id (s.cells id) .stopping := hphase ▸ h.actor id
  rw [hok.resolve_reason]
  refine Quiet.inv ?_ h (origin_update h (.inl ⟨.drain, rfl⟩)) (actor_update (fun b hb => ?_) ?_)
  · refine quiet_update ?_ ?_ ?_ ?_ ?_ ?_ ?_
    · simp [Phase.unresolved]
    · rw [hphase]; rfl
    · rw [hphase]; rfl
    · intro b y hy _
      have hlinks := Cells.modify_keeps (·.links) s.cells id b (fun c => c.resolve.2) fun _ => rfl
      exact hlinks ▸ hy
    · exact fun b => Cells.modify_keeps (·.cancelled) _ _ b _ fun _ => rfl
    · exact fun b => Cells.modify_keeps (·.lane) _ _ b _ fun _ => rfl
    · intro b hb
      rw [Cells.modify_ne _ _ (unresolved_update hb).1]
  · simp only [Cells.modify_ne _ _ hb]
    exact h.actor b
  · simp only [Cells.modify_self]
    exact hok.resolve

/-- The table of `id` moves into the list of drained entries. -/
theorem Cascade.Inv.drain (h : s.Inv here w x r) (hphase : s.phase id = .exiting r .drain) :
    Cascade.Inv here w x r
      { phase := Function.update s.phase id (.exiting r (.dropSelf (s.cells id).links))
        cells := s.cells.modify id fun c => { c with links := [] } } := by
  have hok : ActorOk w x r id (s.cells id) (.exiting r .drain) := hphase ▸ h.actor id
  -- whoever has not resolved its reason is still in the table, so its signal is in the queue
  have hsent : ∀ d y, (s.phase y).unresolved = true → y ∈ (w d).links →
      ((Function.update s.phase id (.exiting r (.dropSelf (s.cells id).links)) d).Sent y ↔ (s.phase d).Sent y) := by
    intro d y hu hy
    by_cases hd : d = id
    · subst hd
      have hmem := (h.pair d y hu hy).1 (by rw [hphase]; rfl)
      simp [Phase.Sent, Phase.queue, hphase, Phase.drained, hmem]
    · simp [hd]
  refine ⟨origin_update h (.inl ⟨_, rfl⟩), actor_update (fun b hb => ?_) ?_, fun d y hu hy => ?_, fun y hu ht => ?_⟩
  · simp only [Cells.modify_ne _ _ hb]
    exact h.actor b
  · simp only [Cells.modify_self]
    have hdrained : ActorOk w x r id (s.cells id) (.exiting r (.dropSelf (s.cells id).links)) :=
      hok.advance (by simp) (by simp) hok.links_nodup hok.links_sub
    exact hdrained.links List.nodup_nil (by simp)
  · obtain ⟨hne, hu⟩ := unresolved_update hu
    obtain ⟨hwait, hcancel⟩ := h.pair d y hu hy
    refine ⟨fun hd => ?_, fun hs hf => ?_⟩
    · have hdne : d ≠ id := by
        rintro rfl
        simp [Phase.drained] at hd
      simp only [Cells.modify_ne _ _ hdne]
      exact hwait (by simpa [hdne] using hd)
    · simp only [Cells.modify_ne _ _ hne]
      exact hcancel ((hsent d y hu hy).mp hs) hf
  · obtain ⟨hne, hu⟩ := unresolved_update hu
    obtain ⟨hopen, exits, hlane, hnodup, hmem⟩ := h.lane y hu ht
    simp only [Cells.modify_ne _ _ hne]
    refine ⟨hopen, exits, hlane, hnodup, fun e => ?_⟩
    rw [hmem]
    refine and_congr_right fun _ => exists_congr fun d => and_congr_right fun hy => ?_
    rw [hsent d y hu hy]

/-- `id` leaves the table of a peer. -/
theorem Cascade.Inv.dropSelf {peer : ActorId} {entries : List ActorId} (h : s.Inv here w x r)
    (hphase : s.phase id = .exiting r (.dropSelf (peer :: entries))) :
    Cascade.Inv here w x r
      { phase := Function.update s.phase id (.exiting r (.signalPeer peer entries))
        cells := s.cells.modify peer fun c => { c with links := dropLink c.links id } } := by
  have hok : ActorOk w x r id (s.cells id) (.exiting r (.dropSelf (peer :: entries))) := hphase ▸ h.actor id
  have hdrop : ∀ b p, ActorOk w x r b (s.cells b) p →
      ActorOk w x r b (s.cells.modify peer (fun c => { c with links := dropLink c.links id }) b) p := by
    intro b p hb
    rw [Cells.modify_apply]
    split_ifs
    · exact hb.links (nodup_dropLink hb.links_nodup) fun y hy => (mem_dropLink.mp hy).1
    · exact hb
  refine Quiet.inv ?_ h (origin_update h (.inl ⟨_, rfl⟩)) (actor_update (fun b _ => hdrop b _ (h.actor b)) ?_)
  · refine quiet_update ?_ ?_ ?_ ?_ ?_ ?_ ?_
    · simp [Phase.unresolved]
    · rw [hphase]; rfl
    · rw [hphase]; rfl
    · intro b y hy hu
      rw [Cells.modify_apply]
      split_ifs
      · exact mem_dropLink.mpr ⟨hy, (unresolved_update hu).1⟩
      · exact hy
    · exact fun b => Cells.modify_keeps (·.cancelled) _ _ b _ fun _ => rfl
    · exact fun b => Cells.modify_keeps (·.lane) _ _ b _ fun _ => rfl
    · exact fun b _ => Cells.modify_keeps (·.laneOpen) _ _ b _ fun _ => rfl
  · exact hdrop id _ (hok.advance (by simp) (by simp) hok.queue_nodup hok.queue_sub)

/-- `id` goes on without touching any cell. -/
theorem Cascade.Inv.skip {pc pc' : ExitPc} (h : s.Inv here w x r) (hphase : s.phase id = .exiting r pc)
    (hpc : pc ≠ .done) (hpc' : pc' ≠ .done) (hd : (Phase.exiting r pc').drained = (Phase.exiting r pc).drained)
    (hq : (Phase.exiting r pc').queue = (Phase.exiting r pc).queue) :
    Cascade.Inv here w x r { s with phase := Function.update s.phase id (.exiting r pc') } := by
  have hok : ActorOk w x r id (s.cells id) (.exiting r pc) := hphase ▸ h.actor id
  refine Quiet.inv ?_ h (origin_update h (.inl ⟨_, rfl⟩)) (actor_update (fun b _ => h.actor b) ?_)
  · refine quiet_update ?_ ?_ ?_ (fun b y hy _ => hy) (fun _ => rfl) (fun _ => rfl) (fun _ _ => rfl)
    · simp [Phase.unresolved]
    · rw [hphase, hd]
    · rw [hphase, hq]
  · exact hok.advance hpc hpc' (by rw [hq]; exact hok.queue_nodup) (by rw [hq]; exact hok.queue_sub)

theorem Cascade.Inv.complete (h : s.Inv here w x r) (hphase : s.phase id = .exiting r .complete) :
    Cascade.Inv here w x r
      { phase := Function.update s.phase id (.exiting r .done)
        cells := s.cells.modify id fun c => { c with completion := some r } } := by
  have hok : ActorOk w x r id (s.cells id) (.exiting r .complete) := hphase ▸ h.actor id
  refine Quiet.inv ?_ h (origin_update h (.inl ⟨_, rfl⟩)) (actor_update (fun b hb => ?_) ?_)
  · refine quiet_update ?_ ?_ ?_ ?_ ?_ ?_ ?_
    · simp [Phase.unresolved]
    · rw [hphase]; rfl
    · rw [hphase]; rfl
    · intro b y hy _
      have hlinks := Cells.modify_keeps (·.links) s.cells id b (fun c => { c with completion := some r }) fun _ => rfl
      exact hlinks ▸ hy
    · exact fun b => Cells.modify_keeps (·.cancelled) _ _ b _ fun _ => rfl
    · exact fun b => Cells.modify_keeps (·.lane) _ _ b _ fun _ => rfl
    · exact fun b _ => Cells.modify_keeps (·.laneOpen) _ _ b _ fun _ => rfl
  · simp only [Cells.modify_ne _ _ hb]
    exact h.actor b
  · simp only [Cells.modify_self]
    exact hok.complete

/-- A peer that had not given `y` its signal gives it. -/
theorem LaneOk.signalled {c : ActorCell} {p : Phase} {phase phase' : ActorId → Phase}
    (h : LaneOk here w r y c p phase) (htrap : c.trapExit = (w y).trapExit) (hlink : y ∈ (w id).links)
    (hunsent : ¬(phase id).Sent y) (hsent : ∀ d, (phase' d).Sent y ↔ (phase d).Sent y ∨ d = id) :
    LaneOk here w r y (makeSignal here id r c) p phase' := by
  intro hu ht
  obtain ⟨hopen, exits, hlane, hexits, hmem⟩ := h hu ht
  rw [ht] at htrap
  by_cases hk : r = .kill
  · -- a Kill ends the actor and delivers nothing
    refine ⟨by simpa using hopen, exits, ?_, hexits, fun e => by rw [hmem]; simp [hk]⟩
    rcases makeSignal_cases here id r c with ⟨-, hnot⟩ | ⟨-, hc⟩
    · exact absurd (.inl hk) hnot
    · rw [hc]
      exact hlane
  · rw [makeSignal_trapping hk htrap hopen]
    refine ⟨hopen, exits ++ [⟨⟨here, id⟩, r⟩], by simp [hlane], ?_, fun e => ?_⟩
    · refine List.Nodup.append hexits (List.nodup_singleton _) (List.disjoint_singleton.mpr fun hin => ?_)
      obtain ⟨-, d, -, hs, he⟩ := (hmem _).mp hin
      obtain rfl : id = d := by simpa using he
      exact hunsent hs
    · simp only [List.mem_append, List.mem_singleton, hmem, hsent]
      constructor
      · rintro (⟨hr, d, hd, hs, rfl⟩ | rfl)
        · exact ⟨hr, d, hd, .inl hs, rfl⟩
        · exact ⟨hk, id, hlink, .inr rfl, rfl⟩
      · rintro ⟨hr, d, hd, hs | rfl, rfl⟩
        · exact .inl ⟨hr, d, hd, hs, rfl⟩
        · exact .inr rfl

/-- `id` gives a peer its signal. -/
theorem Cascade.Inv.signalPeer {peer : ActorId} {entries : List ActorId} (h : s.Inv here w x r)
    (hphase : s.phase id = .exiting r (.signalPeer peer entries)) :
    Cascade.Inv here w x r
      { phase := Function.update s.phase id (.exiting r (.dropSelf entries))
        cells := s.cells.modify peer (makeSignal here id r) } := by
  have hok : ActorOk w x r id (s.cells id) (.exiting r (.signalPeer peer entries)) := hphase ▸ h.actor id
  have hends : Ends w r x id := hok.ends (.inl (by simp))
  obtain ⟨hnew, hnodup⟩ : peer ∉ entries ∧ entries.Nodup := List.nodup_cons.mp hok.queue_nodup
  have hlink : peer ∈ (w id).links := hok.queue_sub peer List.mem_cons_self
  have hsignal : ∀ b p, ActorOk w x r b (s.cells b) p →
      ActorOk w x r b (s.cells.modify peer (makeSignal here id r) b) p := by
    intro b p hb
    rw [Cells.modify_apply]
    split_ifs with he
    · exact hb.signal hends (he ▸ hlink)
    · exact hb
  -- the signal to `peer` is the only one that is given
  have hsent : ∀ d y, (Function.update s.phase id (.exiting r (.dropSelf entries)) d).Sent y ↔
      (s.phase d).Sent y ∨ d = id ∧ y = peer := by
    intro d y
    by_cases hd : d = id
    · subst hd
      simp only [Function.update_self, hphase, Phase.Sent, Phase.drained, Phase.queue, List.mem_cons]
      by_cases hy : y = peer
      · subst hy; simp [hnew]
      · simp [hy]
    · simp [hd]
  refine ⟨origin_update h (.inl ⟨_, rfl⟩), actor_update (fun b _ => hsignal b _ (h.actor b)) ?_, fun d y hu hy => ?_,
    fun y hu ht => ?_⟩
  · exact hsignal id _ (hok.advance (by simp) (by simp) hnodup fun b hb => hok.queue_sub b (List.mem_cons_of_mem _ hb))
  · obtain ⟨hwait, hcancel⟩ := h.pair d y (unresolved_update hu).2 hy
    refine ⟨fun hd => ?_, fun hs hf => ?_⟩
    · have hdrained : (s.phase d).drained = false := by
        by_cases hdi : d = id
        · subst hdi
          simp [Phase.drained] at hd
        · simpa [hdi] using hd
      have hlinks := Cells.modify_keeps (·.links) s.cells peer d (makeSignal here id r) (makeSignal_links here id r)
      exact hlinks ▸ hwait hdrained
    · simp only [Cells.modify_apply]
      split_ifs with he
      · subst he
        rcases makeSignal_cases here id r (s.cells y) with ⟨-, hnot⟩ | ⟨-, hc⟩
        · rw [(h.actor y).trapExit] at hnot
          exact absurd hf hnot
        · rw [hc]
      · refine hcancel (((hsent d y).mp hs).resolve_right ?_) hf
        exact fun hboth => he hboth.2
  · have hun := (unresolved_update hu).2
    by_cases hy : y = peer
    · subst hy
      simp only [Cells.modify_self]
      have hunsent : ¬(s.phase id).Sent y := by
        rw [hphase]
        exact fun hs => hs.2 List.mem_cons_self
      exact (h.lane y).signalled (h.actor y).trapExit hlink hunsent (fun d => by simp [hsent]) hun ht
    · obtain ⟨hopen, exits, hlane, hexits, hmem⟩ := h.lane y hun ht
      simp only [Cells.modify_ne _ _ hy]
      refine ⟨hopen, exits, hlane, hexits, fun e => ?_⟩
      rw [hmem]
      simp only [hsent, hy, and_false, or_false]

theorem CascadeStep.inv {a : CascadeAct} (hstep : CascadeStep here s a s') (h : s.Inv here w x r) :
    s'.Inv here w x r := by
  cases hstep with
  | stop hphase hcancel => exact h.stop hphase hcancel
  | resolve hphase => exact h.resolve hphase
  | @exit id reason pc hphase hpc =>
    obtain rfl : reason = r := (h.actor id).reason reason pc hphase
    cases pc with
    | drain => exact h.drain hphase
    | dropSelf entries =>
      cases entries with
      | nil => exact h.skip hphase (by simp) (by simp [exitStep]) rfl rfl
      | cons peer entries => exact h.dropSelf hphase
    | signalPeer peer entries => exact h.signalPeer hphase
    | remoteLinks => exact h.skip hphase (by simp) (by simp [exitStep]) rfl rfl
    | removeActor => exact h.skip hphase (by simp) (by simp [exitStep]) rfl rfl
    | complete => exact h.complete hphase
    | done => exact absurd rfl hpc

end Steps

/-! ## The end of the cascade -/

section Quiet

variable {actors : Finset ActorId}

/-- The steps all actors together still take. -/
def Cascade.work (actors : Finset ActorId) (s : Cascade) : Nat :=
  ∑ a ∈ actors, (s.phase a).work actors.card

/-- One actor's phase moves on. -/
theorem Cascade.work_lt {id : ActorId} {p' : Phase} {w' : Cells} (hid : id ∈ actors)
    (hlt : p'.work actors.card < (s.phase id).work actors.card) :
    Cascade.work actors ⟨w', Function.update s.phase id p'⟩ < s.work actors := by
  refine Finset.sum_lt_sum (fun a _ => ?_) ⟨id, hid, by simpa using hlt⟩
  by_cases ha : a = id
  · subst ha
    simpa using hlt.le
  · simp [ha]

theorem CascadeStep.work_lt {a : CascadeAct} (hg : LinkGraph actors w) (hx : x ∈ actors) (h : s.Inv here w x r)
    (hstep : CascadeStep here s a s') : s'.work actors < s.work actors := by
  have hactor : ∀ id, s.phase id ≠ .running ∨ (s.cells id).cancelled = true → id ∈ actors :=
    fun id hid => hg.mem_of_ends hx ((h.actor id).ends hid)
  cases hstep with
  | @stop id hphase hcancel =>
    refine Cascade.work_lt (hactor id (.inr hcancel)) ?_
    rw [hphase]
    simp [Phase.work]
  | @resolve id hphase =>
    refine Cascade.work_lt (hactor id (.inl (by simp [hphase]))) ?_
    rw [hphase]
    simp [Phase.work]
  | @exit id reason pc hphase hpc =>
    refine Cascade.work_lt (hactor id (.inl (by simp [hphase]))) ?_
    rw [hphase]
    cases pc with
    | drain =>
      have hok := h.actor id
      have hlen : (s.cells id).links.length ≤ actors.card := by
        rw [← List.toFinset_card_of_nodup hok.links_nodup]
        refine Finset.card_le_card fun b hb => ?_
        exact hg.inside id b (hok.links_sub b (List.mem_toFinset.mp hb))
      simp only [exitStep, Phase.work]
      omega
    | dropSelf entries =>
      cases entries with
      | nil => simp [exitStep, Phase.work]
      | cons peer entries =>
        simp only [exitStep, Phase.work, List.length_cons]
        omega
    | signalPeer peer entries => simp [exitStep, Phase.work]
    | done => exact absurd rfl hpc
    | _ => simp [exitStep, Phase.work]

/-- Where nothing changes any more, an actor is running, not cancelled, or done. -/
theorem Quiescent.phase (h : Quiescent here s) (a : ActorId) :
    s.phase a = .running ∧ (s.cells a).cancelled = false ∨ ∃ reason, s.phase a = .exiting reason .done := by
  cases hp : s.phase a with
  | running =>
    left
    refine ⟨rfl, ?_⟩
    by_contra hc
    exact h _ _ (.stop hp (by simpa using hc))
  | stopping => exact absurd (.resolve hp) (h _ _)
  | exiting reason pc =>
    right
    by_cases hpc : pc = .done
    · exact ⟨reason, by rw [hpc]⟩
    · exact absurd (.exit hp hpc) (h _ _)

/-- The actors that end are those the exit reaches. -/
theorem Cascade.Inv.completion_isSome (h : s.Inv here w x r) (hq : Quiescent here s) (y : ActorId) :
    (s.cells y).completion = some r ↔ Ends w r x y := by
  have hdone : ∀ b, s.phase b ≠ .running → s.phase b = .exiting r .done := by
    intro b hb
    rcases hq.phase b with ⟨hrun, -⟩ | ⟨reason, hp⟩
    · exact absurd hrun hb
    · rw [hp, (h.actor b).reason _ _ hp]
  constructor
  · intro hc
    rw [(h.actor y).completion] at hc
    split_ifs at hc with hp
    exact (h.actor y).ends (.inl (by simp [hp]))
  · intro hends
    -- along the path: a peer that could go on running would have been cancelled
    have hp : s.phase y ≠ .running := by
      induction hends with
      | refl =>
        obtain ⟨pc, hpc⟩ := h.origin
        simp [hpc]
      | @tail d y _ hstep ih =>
        intro hrun
        have hsent : (s.phase d).Sent y := by
          rw [hdone d ih]
          simp [Phase.Sent, Phase.drained, Phase.queue]
        have hcancel := (h.pair d y (by rw [hrun]; rfl) hstep.1).2 hsent hstep.2
        rcases hq.phase y with ⟨-, hc⟩ | ⟨reason, hp⟩
        · simp [hc] at hcancel
        · simp [hrun] at hp
    rw [(h.actor y).completion, if_pos (hdone y hp)]

/-- A survivor that traps exits has an `Exit` from each ended neighbour. -/
theorem Cascade.Inv.received (hg : LinkGraph actors w) (h : s.Inv here w x r) (hq : Quiescent here s)
    (hsurvives : (s.cells y).completion = none) (ht : (w y).trapExit = true) :
    ∃ exits, (s.cells y).lane = (w y).lane ++ exits ∧
      exits.Perm (((w y).links.filter fun d => (s.cells d).completion.isSome).map fun d => ⟨⟨here, d⟩, r⟩) := by
  have hdone : ∀ d, (s.cells d).completion.isSome = true ↔ s.phase d = .exiting r .done := by
    intro d
    rw [(h.actor d).completion]
    split_ifs with hp <;> simp [hp]
  have hrun : s.phase y = .running := by
    rcases hq.phase y with ⟨hrun, -⟩ | ⟨reason, hp⟩
    · exact hrun
    · rw [(h.actor y).reason _ _ hp] at hp
      simp [(h.actor y).completion, hp] at hsurvives
  obtain ⟨-, exits, hlane, hnodup, hmem⟩ := h.lane y (by rw [hrun]; rfl) ht
  refine ⟨exits, hlane, (List.perm_ext_iff_of_nodup hnodup ?_).mpr fun e => ?_⟩
  · refine List.Nodup.map (fun d d' he => ?_) ((hg.nodup y).filter _)
    simpa using he
  · rw [hmem]
    simp only [List.mem_map, List.mem_filter, hdone]
    constructor
    · rintro ⟨-, d, hd, hs, rfl⟩
      refine ⟨d, ⟨hg.symm d y hd, ?_⟩, rfl⟩
      rcases hq.phase d with ⟨hp, -⟩ | ⟨reason, hp⟩
      · simp [Phase.Sent, Phase.drained, hp] at hs
      · rw [hp, (h.actor d).reason _ _ hp]
    · rintro ⟨d, ⟨hd, hp⟩, rfl⟩
      have hlink : y ∈ (w d).links := hg.symm y d hd
      have hsent : (s.phase d).Sent y := by
        rw [hp]
        simp [Phase.Sent, Phase.drained, Phase.queue]
      refine ⟨?_, d, hlink, hsent, rfl⟩
      -- a Kill would have ended `y`
      rintro rfl
      have hcancel := (h.pair d y (by rw [hrun]; rfl) hlink).2 hsent (.inl rfl)
      rcases hq.phase y with ⟨-, hc⟩ | ⟨reason, hp'⟩
      · simp [hc] at hcancel
      · simp [hrun] at hp'

/-- From every state of the cascade some steps lead to the end. -/
theorem Cascade.Inv.exists_quiescent (hg : LinkGraph actors w) (hx : x ∈ actors) (h : s.Inv here w x r) :
    ∃ τ s', Run (CascadeStep here) s τ s' ∧ Quiescent here s' := by
  induction hn : s.work actors using Nat.strong_induction_on generalizing s with
  | _ n ih =>
    by_cases hq : Quiescent here s
    · exact ⟨[], s, .nil, hq⟩
    · simp only [Quiescent, not_forall, not_not] at hq
      obtain ⟨a, s₁, hstep⟩ := hq
      obtain ⟨τ, s', hrun, hend⟩ := ih _ (hn ▸ hstep.work_lt hg hx h) (hstep.inv h) rfl
      exact ⟨(s, a) :: τ, s', Run.cons hstep hrun, hend⟩

/-- What is left when `x` has exited with `r` among actors with the cells `w`. -/
structure CascadeOutcome (here : NodeId) (w : Cells) (x : ActorId) (r : ExitReason) (cells : Cells) : Prop where
  /-- the actors reached through actors that do not trap exits have ended, -/
  abnormal : r ≠ .normal → r ≠ .kill → ∀ y, (cells y).completion.isSome = true ↔
    Relation.ReflTransGen (fun d y => y ∈ (w d).links ∧ (w y).trapExit = false) x y
  /-- by a Kill the connected component, -/
  kill : r = .kill → ∀ y, (cells y).completion.isSome = true ↔ Relation.ReflTransGen (fun d y => y ∈ (w d).links) x y
  /-- by a normal exit nobody else, -/
  normal : r = .normal → ∀ y, (cells y).completion.isSome = true ↔ y = x
  /-- all with the same reason, -/
  reason : ∀ y reason, (cells y).completion = some reason → reason = r
  /-- and whoever traps exits and survives has received one `Exit` from each ended neighbour. -/
  received : ∀ y, (cells y).completion = none → (w y).trapExit = true →
    ∃ exits, (cells y).lane = (w y).lane ++ exits ∧
      exits.Perm (((w y).links.filter fun d => (cells d).completion.isSome).map fun d => ⟨⟨here, d⟩, r⟩)

theorem Cascade.Inv.reason_eq (h : s.Inv here w x r) {reason : ExitReason} (hc : (s.cells y).completion = some reason) :
    reason = r := by
  rw [(h.actor y).completion] at hc
  split_ifs at hc
  exact (Option.some.inj hc).symm

theorem Cascade.Inv.outcome (hg : LinkGraph actors w) (h : s.Inv here w x r) (hq : Quiescent here s) :
    CascadeOutcome here w x r s.cells := by
  have hsome : ∀ y, (s.cells y).completion.isSome = true ↔ Ends w r x y := by
    intro y
    rw [← h.completion_isSome hq y, Option.isSome_iff_exists]
    constructor
    · rintro ⟨reason, hc⟩
      rw [hc, h.reason_eq hc]
    · exact fun hc => ⟨r, hc⟩
  refine ⟨fun hn hk y => ?_, fun hk y => ?_, fun hn y => ?_, fun y reason => h.reason_eq, fun y => h.received hg hq⟩
  · rw [hsome, Ends, spreads_abnormal hn hk]
  · rw [hsome, Ends, hk, spreads_kill]
  · rw [hsome, hn, ends_normal]

/-- **Exit cascades compute link reachability.** Whatever order the actors act in: only so many steps can be taken,
from every state the end can be reached, and at the end the actors that ended, their reasons and the `Exit`s received
are those of `CascadeOutcome`, the same for any two orders. -/
theorem cascade_computes_reachability (hg : LinkGraph actors w) (hx : x ∈ actors)
    {τ : List (Cascade × CascadeAct)} (hrun : Run (CascadeStep here) (Cascade.start w x r) τ s) :
    τ.length ≤ actors.card * (2 * actors.card + 8) ∧
      (∃ σ u, Run (CascadeStep here) s σ u ∧ Quiescent here u) ∧
      (Quiescent here s → CascadeOutcome here w x r s.cells ∧
        ∀ τ' s', Run (CascadeStep here) (Cascade.start w x r) τ' s' → Quiescent here s' →
          (∀ y, (s'.cells y).completion = (s.cells y).completion) ∧
          ∀ y, (s.cells y).completion = none → (w y).trapExit = true →
            (s'.cells y).lane.Perm (s.cells y).lane) := by
  have hstart : (Cascade.start w x r).Inv here w x r := Cascade.inv_start hg
  have hinv : ∀ {τ s}, Run (CascadeStep here) (Cascade.start w x r) τ s → s.Inv here w x r :=
    fun h => h.inv hstart fun _ _ _ hi hstep => hstep.inv hi
  have h : s.Inv here w x r := hinv hrun
  refine ⟨?_, h.exists_quiescent hg hx, fun hq => ⟨h.outcome hg hq, fun τ' s' hrun' hq' => ?_⟩⟩
  · have hlen := Run.length_le (Cascade.work actors) hstart (fun _ _ _ hi hstep => hstep.inv hi)
      (fun _ _ _ hi hstep => hstep.work_lt hg hx hi) hrun
    have hbound : (Cascade.start w x r).work actors ≤ actors.card * (2 * actors.card + 8) := by
      refine (Finset.sum_le_card_nsmul actors _ (2 * actors.card + 8) fun a _ => ?_).trans (by simp)
      by_cases ha : a = x
      · subst ha
        simp [Cascade.start, Phase.work]
      · simp [Cascade.start, ha, Phase.work]
    omega
  · have h' : s'.Inv here w x r := hinv hrun'
    have hsame : ∀ y, (s'.cells y).completion = (s.cells y).completion := by
      intro y
      refine Option.ext fun reason => ?_
      constructor
      · intro hc
        obtain rfl := h'.reason_eq hc
        exact (h.completion_isSome hq y).mpr ((h'.completion_isSome hq' y).mp hc)
      · intro hc
        obtain rfl := h.reason_eq hc
        exact (h'.completion_isSome hq' y).mpr ((h.completion_isSome hq y).mp hc)
    refine ⟨hsame, fun y hy ht => ?_⟩
    obtain ⟨exits, hlane, hperm⟩ := h.received hg hq hy ht
    obtain ⟨exits', hlane', hperm'⟩ := h'.received hg hq' ((hsame y).trans hy) ht
    simp only [hsame] at hperm'
    rw [hlane, hlane']
    exact (hperm'.trans hperm.symm).append_left _

/-- A chain of three actors whose last one traps exits. -/
def chainCells : Cells := fun a =>
  { trapExit := a == 3, links := if a = 1 then [2] else if a = 2 then [1, 3] else if a = 3 then [2] else [] }

theorem chainGraph : LinkGraph {1, 2, 3} chainCells := by
  refine ⟨fun a b => ?_, fun a => ?_, fun a b => ?_, fun _ => rfl, fun _ => rfl, fun _ => rfl,
    fun _ => rfl, fun _ => rfl⟩ <;>
    simp only [chainCells] <;> split_ifs <;> simp_all
  rintro (rfl | rfl) <;> simp

theorem cascade_computes_reachability_chain :
    ∃ τ s, Run (CascadeStep "n") (Cascade.start chainCells 1 (.panic "boom")) τ s ∧ Quiescent "n" s ∧
      (s.cells 2).completion = some (.panic "boom") ∧ (s.cells 3).completion = none ∧
      (s.cells 3).lane = [⟨⟨"n", 2⟩, .panic "boom"⟩] := by
  have hx : (1 : ActorId) ∈ ({1, 2, 3} : Finset ActorId) := by decide
  have hnil : Run (CascadeStep "n") (Cascade.start chainCells 1 (.panic "boom")) [] _ := .nil
  obtain ⟨-, ⟨τ, s, hrun, hq⟩, -⟩ := cascade_computes_reachability chainGraph hx hnil
  obtain ⟨-, -, hend⟩ := cascade_computes_reachability chainGraph hx hrun
  have hout := (hend hq).1
  have h2 : (s.cells 2).completion.isSome = true :=
    (hout.abnormal (by simp) (by simp) 2).mpr (.single (by simp [chainCells]))
  have h3 : (s.cells 3).completion = none := by
    rw [← Option.not_isSome_iff_eq_none, hout.abnormal (by simp) (by simp) 3]
    intro hreach
    rcases hreach.cases_tail with he | ⟨d, -, -, ht⟩
    · simp at he
    · simp [chainCells] at ht
  obtain ⟨reason, hreason⟩ := Option.isSome_iff_exists.mp h2
  obtain ⟨exits, hlane, hperm⟩ := hout.received 3 h3 rfl
  have hexits : exits = [⟨⟨"n", 2⟩, .panic "boom"⟩] := by
    simpa [chainCells, h2] using hperm
  refine ⟨τ, s, hrun, hq, ?_, h3, ?_⟩
  · rw [hreason, hout.reason 2 reason hreason]
  · rw [hlane, hexits]
    rfl

end Quiet

end Spawned
