import Mathlib.Logic.Function.Iterate
import Spawned.Lib.Run
import Spawned.Link.Basic

/-!
# Link tables, operation by operation

`link_handles`, `unlink` and the exit of an actor, each run to completion before the next. `link_handles` to a target
that has exited takes the owner out of the target's table again and signals the owner, but leaves the target in the
owner's table.

* `linkHandles`, `unregisterLink`, `exitActor` : the operations, the first and the last as the atomic steps of
  `Link.Basic` run to their end (`linkHandles_steps`, `exitActor_steps`);
* `Mutual` : tables mention each other, nobody twice, and nobody that has exited;
* `Idempotent` : a repeated link changes no table and signals nobody;
* `tables_mutual_iff` : the exact condition.
-/

namespace Spawned

open Lib

/-! ## The operations -/

/-- Register a bidirectional link between two actors. -/
def registerLink (own peer : ActorId) (w : Cells) : Cells :=
  (w.modify own fun c => { c with links := pushLink c.links peer }).modify peer fun c =>
    { c with links := pushLink c.links own }

/-- Remove `own` from the table of `peer`: whether it was there. -/
def takeSelfFromPeerTable (own peer : ActorId) (w : Cells) : Bool × Cells :=
  (decide ((w peer).links.length ≠ (dropLink (w peer).links own).length),
    w.modify peer fun c => { c with links := dropLink c.links own })

/-- An exit signal that was delivered. -/
structure LinkSignal where
  sender : ActorId
  receiver : ActorId
  reason : ExitReason
deriving DecidableEq, Repr

/-- `link_handles`, with the signal it delivers if the target is already dead. -/
def linkHandles (here : NodeId) (owner target : ActorId) (w : Cells) : List LinkSignal × Cells :=
  let w := registerLink owner target w
  match (w target).completion with
  | none => ([], w)
  | some reason =>
    let (taken, w) := takeSelfFromPeerTable owner target w
    if taken then ([⟨target, owner, reason⟩], w.modify owner (makeSignal here target reason)) else ([], w)

/-- Remove a bidirectional link between two actors. -/
def unregisterLink (own peer : ActorId) (w : Cells) : Cells :=
  (w.modify own fun c => { c with links := dropLink c.links peer }).modify peer fun c =>
    { c with links := dropLink c.links own }

/-- One entry of `propagate_exit`: leave the peer's table, then signal the peer. -/
def signalEntry (here : NodeId) (own : ActorId) (reason : ExitReason) (w : Cells) (peer : ActorId) : Cells :=
  (w.modify peer fun c => { c with links := dropLink c.links own }).modify peer (makeSignal here own reason)

/-- Drain the link table and signal each peer. -/
def propagateExit (here : NodeId) (own : ActorId) (reason : ExitReason) (w : Cells) : Cells :=
  (w own).links.foldl (signalEntry here own reason) (w.modify own fun c => { c with links := [] })

/-- The exit of an actor, up to its completion value. -/
def exitActor (here : NodeId) (own : ActorId) (reason : ExitReason) (w : Cells) : Cells :=
  (propagateExit here own reason w).modify own fun c => { c with completion := some reason }

variable {here : NodeId} {w w' : Cells} {a b own peer owner target : ActorId} {reason : ExitReason}

theorem registerLink_completion : (registerLink owner target w a).completion = (w a).completion := by
  simp only [registerLink, Cells.modify_apply]
  split_ifs <;> rfl

theorem mem_registerLink (owner target : ActorId) (w : Cells) : owner ∈ (registerLink owner target w target).links := by
  simp [registerLink, mem_pushLink]

theorem linkHandles_alive (h : (w target).completion = none) :
    linkHandles here owner target w = ([], registerLink owner target w) := by
  simp only [linkHandles, registerLink_completion, h]

/-- After the two pushes the owner is in the target's table, so a dead target always signals. -/
theorem linkHandles_dead (h : (w target).completion = some reason) :
    linkHandles here owner target w =
      ([⟨target, owner, reason⟩],
        ((registerLink owner target w).modify target fun c => { c with links := dropLink c.links owner }).modify owner
          (makeSignal here target reason)) := by
  have htaken : (takeSelfFromPeerTable owner target (registerLink owner target w)).1 = true := by
    simpa [takeSelfFromPeerTable] using length_dropLink_ne.mpr (mem_registerLink owner target w)
  simp only [linkHandles, registerLink_completion, h, htaken, if_true]
  rfl

/-! ## The atomic steps, run to their end -/

/-- The next atomic steps of `link_handles` and of the exit. -/
def linkNext (here : NodeId) (owner target : ActorId) (p : LinkPc × Cells) : LinkPc × Cells :=
  linkStep here owner target p.2 p.1

def exitNext (here : NodeId) (own : ActorId) (reason : ExitReason) (p : ExitPc × Cells) : ExitPc × Cells :=
  exitStep here own reason p.2 p.1

/-- `link_handles` is done after five steps at most. -/
theorem linkHandles_steps (here : NodeId) (owner target : ActorId) (w : Cells) :
    (linkNext here owner target)^[5] (.pushOwn, w) = (.done, (linkHandles here owner target w).2) := by
  have hpushed : (linkNext here owner target)^[2] (.pushOwn, w) = (.readReason, registerLink owner target w) := rfl
  rw [Function.iterate_add_apply _ 3 2, hpushed]
  cases hc : (w target).completion with
  | none =>
    rw [linkHandles_alive hc]
    simp [linkNext, linkStep, registerLink_completion, hc]
  | some reason =>
    have hne := length_dropLink_ne.mpr (mem_registerLink owner target w)
    rw [linkHandles_dead hc]
    simp [linkNext, linkStep, registerLink_completion, hc, hne]

theorem signalEntries_steps (here : NodeId) (own : ActorId) (reason : ExitReason) (entries : List ActorId) (w : Cells) :
    (exitNext here own reason)^[2 * entries.length] (.dropSelf entries, w) =
      (.dropSelf [], entries.foldl (signalEntry here own reason) w) := by
  induction entries generalizing w with
  | nil => rfl
  | cons peer entries ih =>
    rw [List.length_cons, Nat.mul_add, Function.iterate_add_apply, List.foldl_cons, ← ih]
    rfl

/-- The exit is two steps for each entry, and five more. -/
theorem exitActor_steps (here : NodeId) (own : ActorId) (reason : ExitReason) (w : Cells) :
    (exitNext here own reason)^[4 + (2 * (w own).links.length + 1)] (.drain, w) =
      (.done, exitActor here own reason w) := by
  have hdrain : (exitNext here own reason)^[1] (.drain, w) =
      (.dropSelf (w own).links, w.modify own fun c => { c with links := [] }) := rfl
  rw [Function.iterate_add_apply, Function.iterate_add_apply, hdrain, signalEntries_steps]
  rfl

/-! ## Histories of operations -/

inductive LinkOp
  | link (owner target : ActorId)
  | unlink (owner target : ActorId)
  | exit (id : ActorId) (reason : ExitReason)
deriving DecidableEq, Repr

def LinkOp.next (here : NodeId) (w : Cells) : LinkOp → Cells
  | .link owner target => (linkHandles here owner target w).2
  | .unlink owner target => unregisterLink owner target w
  | .exit id reason => exitActor here id reason w

/-- One operation, run to completion; an actor exits once. -/
inductive OpStep (here : NodeId) (w : Cells) : LinkOp → Cells → Prop
  | link (owner target : ActorId) : OpStep here w (.link owner target) (LinkOp.next here w (.link owner target))
  | unlink (owner target : ActorId) : OpStep here w (.unlink owner target) (LinkOp.next here w (.unlink owner target))
  | exit (id : ActorId) (reason : ExitReason) (h : (w id).completion = none) :
      OpStep here w (.exit id reason) (LinkOp.next here w (.exit id reason))

/-- Actors that run and are not linked yet. -/
def Unlinked (w : Cells) : Prop := ∀ a, (w a).links = [] ∧ (w a).completion = none

/-- Tables mention each other, nobody twice, and nobody that has exited. -/
structure Mutual (w : Cells) : Prop where
  symm : ∀ a b, b ∈ (w a).links ↔ a ∈ (w b).links
  nodup : ∀ a, (w a).links.Nodup
  alive : ∀ a b, b ∈ (w a).links → (w b).completion = none

/-- An earlier link told the owner of the target's death. -/
def Told (here : NodeId) (τ : List (Cells × LinkOp)) (owner target : ActorId) : Prop :=
  ∃ x ∈ τ, x.2 = .link owner target ∧ (linkHandles here owner target x.1).1 ≠ []

/-- Linking a pair that is linked, or a target of whose death the owner was told, changes no table and signals
nobody. -/
def Idempotent (here : NodeId) (τ : List (Cells × LinkOp)) (x : Cells × LinkOp) : Prop :=
  ∀ owner target, x.2 = .link owner target → (target ∈ (x.1 owner).links ∨ Told here τ owner target) →
    (∀ a, ((linkHandles here owner target x.1).2 a).links = (x.1 a).links) ∧ (linkHandles here owner target x.1).1 = []

/-- A link between two actors that have not exited; or the first of an exited actor to itself, which leaves no entry. -/
def LinksLive (τ : List (Cells × LinkOp)) (x : Cells × LinkOp) : Prop :=
  ∀ owner target, x.2 = .link owner target →
    (x.1 owner).completion = none ∧ (x.1 target).completion = none ∨
      owner = target ∧ ∀ y ∈ τ, y.2 = .link owner owner → (y.1 owner).completion = none

/-! ## What the operations do to the tables -/

theorem linkHandles_signals_ne : (linkHandles here owner target w).1 ≠ [] ↔ (w target).completion ≠ none := by
  cases hc : (w target).completion with
  | none => simp [linkHandles_alive hc]
  | some reason => simp [linkHandles_dead hc]

theorem links_registerLink (a : ActorId) :
    b ∈ (registerLink owner target w a).links ↔ b ∈ (w a).links ∨ a = owner ∧ b = target ∨ a = target ∧ b = owner := by
  simp only [registerLink, Cells.modify_apply]
  split_ifs <;> grind [mem_pushLink]

theorem nodup_registerLink (h : ∀ a, (w a).links.Nodup) (a : ActorId) : (registerLink owner target w a).links.Nodup := by
  simp only [registerLink, Cells.modify_apply]
  split_ifs
  · exact nodup_pushLink (nodup_pushLink (h a))
  · exact nodup_pushLink (h a)
  · exact nodup_pushLink (h a)
  · exact h a

theorem registerLink_linked (h : target ∈ (w owner).links) (h' : owner ∈ (w target).links) (a : ActorId) :
    (registerLink owner target w a).links = (w a).links := by
  have hpush : ∀ {table : List ActorId} {x : ActorId}, x ∈ table → pushLink table x = table := by
    intro table x hx
    have hany : table.any (· == x) = true := List.any_eq_true.mpr ⟨x, hx, by simp⟩
    rw [pushLink, if_pos hany]
  simp only [registerLink, Cells.modify_apply]
  split_ifs with h₁ h₂ h₂
  · subst h₁ h₂
    simp only [hpush h]
  · subst h₁
    exact hpush h'
  · subst h₂
    exact hpush h
  · rfl

theorem links_unregisterLink (a : ActorId) :
    b ∈ (unregisterLink owner target w a).links ↔
      b ∈ (w a).links ∧ ¬ (a = owner ∧ b = target) ∧ ¬ (a = target ∧ b = owner) := by
  simp only [unregisterLink, Cells.modify_apply]
  split_ifs <;> grind [mem_dropLink]

theorem unregisterLink_completion : (unregisterLink owner target w a).completion = (w a).completion := by
  simp only [unregisterLink, Cells.modify_apply]
  split_ifs <;> rfl

theorem nodup_unregisterLink (h : ∀ a, (w a).links.Nodup) (a : ActorId) :
    (unregisterLink owner target w a).links.Nodup := by
  simp only [unregisterLink, Cells.modify_apply]
  split_ifs
  · exact nodup_dropLink (nodup_dropLink (h a))
  · exact nodup_dropLink (h a)
  · exact nodup_dropLink (h a)
  · exact h a

/-- The loop of `propagate_exit` takes `own` out of its entries' tables. -/
theorem links_signalEntries (entries : List ActorId) (w : Cells) (a : ActorId) :
    ((entries.foldl (signalEntry here own reason) w) a).links =
        (if a ∈ entries then dropLink (w a).links own else (w a).links) ∧
      ((entries.foldl (signalEntry here own reason) w) a).completion = (w a).completion := by
  induction entries generalizing w with
  | nil => simp
  | cons peer entries ih =>
    obtain ⟨hlinks, hcompletion⟩ := ih (signalEntry here own reason w peer)
    have htwice : ∀ table, dropLink (dropLink table own) own = dropLink table own := by
      intro table
      simp [dropLink, List.filter_filter]
    rw [List.foldl_cons, hlinks, hcompletion]
    by_cases ha : a = peer
    · subst ha
      simp [signalEntry, htwice]
    · simp [signalEntry, Cells.modify_ne _ _ ha, ha]

theorem exitActor_completion : (exitActor here own reason w a).completion =
    if a = own then some reason else (w a).completion := by
  simp only [exitActor, Cells.modify_apply]
  split_ifs with ha
  · rfl
  · rw [propagateExit, (links_signalEntries _ _ a).2, Cells.modify_ne _ _ ha]

/-- Where tables mention each other, nobody mentions an actor after its exit. -/
theorem links_exitActor (h : Mutual w) (a : ActorId) :
    (exitActor here own reason w a).links = if a = own then [] else dropLink (w a).links own := by
  have hlinks : (exitActor here own reason w a).links = (propagateExit here own reason w a).links := by
    simp only [exitActor, Cells.modify_apply]
    split_ifs <;> rfl
  rw [hlinks, propagateExit, (links_signalEntries _ _ a).1]
  by_cases ha : a = own
  · subst ha
    simp [dropLink]
  · rw [Cells.modify_ne _ _ ha, if_neg ha]
    split_ifs with hin
    · rfl
    · rw [dropLink, List.filter_eq_self.mpr]
      intro b hb
      simp only [bne_iff_ne]
      rintro rfl
      exact hin ((h.symm a b).mp hb)

/-! ## Every operation -/

theorem Mutual.unlink (h : Mutual w) : Mutual (unregisterLink owner target w) := by
  refine ⟨fun a b => ?_, nodup_unregisterLink h.nodup, fun a b hb => ?_⟩
  · rw [links_unregisterLink, links_unregisterLink, h.symm a b]
    grind
  · rw [unregisterLink_completion]
    exact h.alive a b ((links_unregisterLink a).mp hb).1

theorem Mutual.exit (h : Mutual w) : Mutual (exitActor here own reason w) := by
  have hmem : ∀ a b, b ∈ (exitActor here own reason w a).links ↔ b ∈ (w a).links ∧ a ≠ own ∧ b ≠ own := by
    intro a b
    rw [links_exitActor h]
    split_ifs with ha <;> simp [ha]
  refine ⟨fun a b => ?_, fun a => ?_, fun a b hb => ?_⟩
  · rw [hmem, hmem, h.symm a b]
    grind
  · rw [links_exitActor h]
    split_ifs
    · exact List.nodup_nil
    · exact nodup_dropLink (h.nodup a)
  · obtain ⟨hb, -, hne⟩ := (hmem a b).mp hb
    rw [exitActor_completion, if_neg hne]
    exact h.alive a b hb

theorem Mutual.link (h : Mutual w) (ho : (w owner).completion = none) (ht : (w target).completion = none) :
    Mutual (registerLink owner target w) := by
  refine ⟨fun a b => ?_, nodup_registerLink h.nodup, fun a b hb => ?_⟩
  · rw [links_registerLink, links_registerLink, h.symm a b]
    grind
  · rw [registerLink_completion]
    rcases (links_registerLink a).mp hb with hb | ⟨-, rfl⟩ | ⟨-, rfl⟩
    · exact h.alive a b hb
    · exact ht
    · exact ho

/-- An exited actor that links to itself leaves no entry. -/
theorem links_linkHandles_self (here : NodeId) (h : Mutual w) (hc : (w owner).completion = some reason) (a : ActorId) :
    ((linkHandles here owner owner w).2 a).links = (w a).links := by
  have hnot : owner ∉ (w owner).links := fun hin => by simp [h.alive owner owner hin] at hc
  rw [linkHandles_dead hc]
  by_cases ha : a = owner
  · subst ha
    have hany : (w a).links.any (· == a) = false := by
      simpa using fun b hb => by rintro rfl; exact hnot hb
    have hself : ((w a).links ++ [a]).any (· == a) = true := by simp
    simp only [registerLink, Cells.modify_self, makeSignal_links, pushLink, hany, hself, if_true,
      Bool.false_eq_true, if_false]
    rw [dropLink, List.filter_append, List.filter_eq_self.mpr]
    · simp
    · intro b hb
      simp only [bne_iff_ne]
      rintro rfl
      exact hnot hb
  · simp only [registerLink, Cells.modify_ne _ _ ha]

theorem completion_linkHandles : ((linkHandles here owner target w).2 a).completion = (w a).completion := by
  cases hc : (w target).completion with
  | none => rw [linkHandles_alive hc, registerLink_completion]
  | some reason =>
    rw [linkHandles_dead hc]
    simp only [Cells.modify_apply]
    split_ifs <;> simp [registerLink_completion]

/-- A link with an actor that has exited leaves an entry of it. -/
theorem not_mutual_of_exited (hne : owner ≠ target)
    (h : (w owner).completion ≠ none ∨ (w target).completion ≠ none) : ¬ Mutual (linkHandles here owner target w).2 := by
  intro hm
  cases hc : (w target).completion with
  | none =>
    have hin : owner ∈ ((linkHandles here owner target w).2 target).links := by
      rw [linkHandles_alive hc]
      exact mem_registerLink owner target w
    have hown := hm.alive target owner hin
    rw [completion_linkHandles] at hown
    simp [hown, hc] at h
  | some reason =>
    have hin : target ∈ ((linkHandles here owner target w).2 owner).links := by
      rw [linkHandles_dead hc]
      simp only [Cells.modify_self, makeSignal_links, Cells.modify_ne _ _ hne]
      exact (links_registerLink owner).mpr (.inr (.inl ⟨rfl, rfl⟩))
    have htarget := hm.alive owner target hin
    rw [completion_linkHandles, hc] at htarget
    cases htarget

/-- Nobody comes back: whom an earlier link told of is dead. -/
theorem OpStep.completion {op : LinkOp} (h : OpStep here w op w') (hc : (w a).completion ≠ none) :
    (w' a).completion ≠ none := by
  cases h with
  | link owner target => rw [LinkOp.next, completion_linkHandles]; exact hc
  | unlink owner target => rw [LinkOp.next, unregisterLink_completion]; exact hc
  | exit id reason _ =>
    rw [LinkOp.next, exitActor_completion]
    split_ifs
    · simp
    · exact hc

theorem told_dead {w₀ : Cells} {τ : List (Cells × LinkOp)} (h : Run (OpStep here) w₀ τ w) {x : Cells × LinkOp} (hx : x ∈ τ)
    (hc : (x.1 a).completion ≠ none) : (w a).completion ≠ none := by
  refine Run.inv_history (I := fun τ w => ∀ x ∈ τ, (x.1 a).completion ≠ none → (w a).completion ≠ none)
    (by simp) ?_ h x hx hc
  intro τ w op w' ih hstep x hx hc
  rcases List.mem_append.mp hx with hx | hx
  · exact hstep.completion (ih x hx hc)
  · obtain rfl := List.mem_singleton.mp hx
    exact hstep.completion hc

/-! ## Every history -/

section Histories

variable {w₀ : Cells} {τ : List (Cells × LinkOp)}

/-- One more operation: it keeps the tables mutual and is idempotent exactly when it links only the living. -/
theorem step_mutual_iff (hrun : Run (OpStep here) w₀ τ w) (h : Mutual w) {op : LinkOp} (hstep : OpStep here w op w') :
    Idempotent here τ (w, op) ∧ Mutual w' ↔ LinksLive τ (w, op) := by
  cases hstep with
  | unlink owner target => simp [Idempotent, LinksLive, LinkOp.next, h.unlink]
  | exit id reason halive => simp [Idempotent, LinksLive, LinkOp.next, h.exit]
  | link owner target =>
    simp only [Idempotent, LinksLive, LinkOp.next, LinkOp.link.injEq, and_imp, forall_apply_eq_imp_iff, forall_eq']
    constructor
    · rintro ⟨hidem, hm⟩
      by_cases hlive : (w owner).completion = none ∧ (w target).completion = none
      · exact .inl hlive
      · have hsame : owner = target := by
          by_contra hne
          refine not_mutual_of_exited hne ?_ hm
          by_cases ho : (w owner).completion = none
          · exact .inr fun ht => hlive ⟨ho, ht⟩
          · exact .inl ho
        subst hsame
        refine .inr ⟨rfl, fun y hy hlink => ?_⟩
        -- an earlier link of the exited actor to itself has told it, and this one tells it again
        by_contra hc
        have htold : Told here τ owner owner := ⟨y, hy, hlink, linkHandles_signals_ne.mpr hc⟩
        have hdead : (w owner).completion ≠ none := by simpa using hlive
        exact linkHandles_signals_ne.mpr hdead (hidem (.inr htold)).2
    · rintro (⟨ho, ht⟩ | ⟨rfl, hfirst⟩)
      · rw [linkHandles_alive ht]
        refine ⟨fun hlinked => ⟨?_, rfl⟩, h.link ho ht⟩
        rcases hlinked with hin | ⟨x, hx, -, hsig⟩
        · exact registerLink_linked hin ((h.symm owner target).mp hin)
        · exact absurd ht (told_dead hrun hx (linkHandles_signals_ne.mp hsig))
      · cases hc : (w owner).completion with
        | none =>
          rw [linkHandles_alive hc]
          refine ⟨fun hlinked => ⟨?_, rfl⟩, h.link hc hc⟩
          rcases hlinked with hin | ⟨x, hx, hlink, hsig⟩
          · exact registerLink_linked hin hin
          · exact absurd (hfirst x hx hlink) (linkHandles_signals_ne.mp hsig)
        | some reason =>
          have hlinks := links_linkHandles_self here h hc
          refine ⟨fun hlinked => ?_, ⟨fun a b => ?_, fun a => ?_, fun a b hb => ?_⟩⟩
          · rcases hlinked with hin | ⟨x, hx, hlink, hsig⟩
            · simp [h.alive owner owner hin] at hc
            · exact absurd (hfirst x hx hlink) (linkHandles_signals_ne.mp hsig)
          · rw [hlinks, hlinks]
            exact h.symm a b
          · rw [hlinks]
            exact h.nodup a
          · rw [completion_linkHandles]
            exact h.alive a b (by rwa [hlinks] at hb)

/-- **Link tables stay symmetric as long as only the living are linked.** After any sequence of completed operations:
every state on the way and the last have mutual tables and every repeated link was idempotent, if and only if every
`link_handles` was between actors that had not exited, or the first of an exited actor to itself. -/
theorem tables_mutual_iff (h₀ : Unlinked w₀) (hrun : Run (OpStep here) w₀ τ w) :
    EachStep (fun τ x => Mutual x.1 ∧ Idempotent here τ x) τ ∧ Mutual w ↔ EachStep LinksLive τ := by
  induction hrun with
  | nil =>
    simp only [eachStep_nil, true_and, iff_true]
    refine ⟨fun a b => ?_, fun a => ?_, fun a b hb => ?_⟩
    · simp [(h₀ a).1, (h₀ b).1]
    · simp [(h₀ a).1]
    · exact (h₀ b).2
  | @snoc τ w op w' hrun hstep ih =>
    rw [eachStep_snoc, eachStep_snoc, ← ih]
    constructor
    · rintro ⟨⟨heach, hm, hidem⟩, hm'⟩
      exact ⟨⟨heach, hm⟩, (step_mutual_iff hrun hm hstep).mp ⟨hidem, hm'⟩⟩
    · rintro ⟨⟨heach, hm⟩, hlive⟩
      obtain ⟨hidem, hm'⟩ := (step_mutual_iff hrun hm hstep).mpr hlive
      exact ⟨⟨heach, hm, hidem⟩, hm'⟩

/-- Actors nobody has linked yet. -/
def freshCells : Cells := fun _ => {}

theorem freshCells_unlinked : Unlinked freshCells := fun _ => ⟨rfl, rfl⟩

theorem tables_mutual_iff_linked_then_exit :
    Mutual (exitActor "n" 2 .shutdown (linkHandles "n" 1 2 freshCells).2) := by
  have hrun : Run (OpStep "n") freshCells _ _ := (Run.nil.snoc (.link 1 2)).snoc (.exit 2 .shutdown rfl)
  refine ((tables_mutual_iff freshCells_unlinked hrun).mpr ?_).2
  rw [eachStep_snoc, eachStep_snoc]
  refine ⟨⟨eachStep_nil, fun owner target he => ?_⟩, fun owner target he => by cases he⟩
  exact .inl ⟨rfl, rfl⟩

/-- Actor 2 has exited, and then actor 1 links to it. -/
def linkedToDead : Cells := (linkHandles "n" 1 2 (exitActor "n" 2 .shutdown freshCells)).2

/-- Linking to an exited target leaves the target in the owner's table, and linking again signals again. -/
theorem linked_to_dead_stays :
    Unlinked freshCells ∧
      Run (OpStep "n") freshCells
        [(freshCells, .exit 2 .shutdown), (exitActor "n" 2 .shutdown freshCells, .link 1 2)] linkedToDead ∧
      ¬ Mutual linkedToDead ∧ 2 ∈ (linkedToDead 1).links ∧ 1 ∉ (linkedToDead 2).links ∧
      (linkHandles "n" 1 2 linkedToDead).1 = [⟨2, 1, .shutdown⟩] := by
  have hin : 2 ∈ (linkedToDead 1).links := by decide
  have hout : 1 ∉ (linkedToDead 2).links := by decide
  refine ⟨freshCells_unlinked, ?_, fun hm => hout ((hm.symm 1 2).mp hin), hin, hout, by decide⟩
  exact (Run.single (.exit 2 .shutdown rfl)).snoc (.link 1 2)

end Histories

end Spawned
