import Mathlib.Data.List.Infix
import Spawned.Mailbox.Stopping

/-!
# Listeners

`spawn_listener` starts a thread or a task that takes the items of a stream and sends each to an actor, until the stream
ends, a send fails or the token of the actor is cancelled. Everyone else sends to the same mailbox meanwhile.

* `Listening` : the mailbox of the actor, its token and the listener; `Listening.next` : one step of any of them;
* `Handed` : what a step of the mailbox does to the messages of its calls and of its channel;
* `Listening.Inv` : at most the last item of the stream is missing from the channel;
* `listener_keeps_order` : what comes through is the stream, in its order, up to one item;
* `listener_after_cancel` : what is still sent once the token is cancelled;
* `listener_overruns` : a task that is forwarding does not look at its token before its stream is pending.

A stream may yield anything, or nothing any more. The loop of the tasks runtime and its token are one `select`, which
polls the token first and then the loop for as long as the stream is ready.
-/

namespace Spawned

open Lib

/-- A message to the actor; those of the listener are told from the others. -/
structure Posted (M : Type) where
  msg : M
  listened : Bool
deriving DecidableEq

inductive ListenerEnd
  /-- `Actor stopped` -/
  | actorStopped
  /-- `Stream finished` -/
  | streamFinished
  /-- `Failed to send message` -/
  | sendFailed (e : ActorError)
deriving DecidableEq, Repr

/-- Where a listener stands. -/
inductive ListenerPc
  | unspawned
  /-- the `select` of the task polls `is_cancelled` -/
  | poll
  /-- `iter.next()`, or a poll of `pinned_stream.next()` -/
  | next
  /-- the stream is pending and the task waits -/
  | parked
  /-- in `ctx.send(msg)`, which is call `i` of the mailbox -/
  | sending (i : Nat)
  /-- `cancellation_token.is_cancelled()` of the thread -/
  | check
  | ended (why : ListenerEnd)
deriving DecidableEq, Repr

/-- It is in no call, and none of its sends has failed. -/
def ListenerPc.isFree : ListenerPc → Bool
  | .sending _ | .ended (.sendFailed _) => false
  | _ => true

structure Listening (M : Type) where
  mailbox : Mailbox (Posted M) := {}
  cancelled : Bool := false
  pc : ListenerPc := .unspawned

inductive ListenerAct (M : Type)
  | poll
  | yields (msg : M)
  | pends
  | finishes
  /-- the task is woken, by its stream, by its token or without cause -/
  | wakes
  /-- `ctx.send` has returned -/
  | returns
  | check
deriving DecidableEq

inductive ListeningAct (M : Type)
  | spawn
  | cancel
  /-- someone else sends -/
  | send (msg : M)
  /-- a step inside the mailbox, or of the run loop that empties it -/
  | mailbox (a : MailboxAct (Posted M))
  | listener (e : ListenerAct M)

def MailboxAct.isCall {M : Type} : MailboxAct M → Bool
  | .call _ => true
  | _ => false

namespace Listening

variable {M : Type}

/-- Where the listener starts. -/
def start : MailboxRuntime → ListenerPc
  | .tasks => .poll
  | .threads => .next

/-- A new call of `send` on the mailbox. -/
def post (limits : MailboxLimits) (s : Listening M) (item : Posted M) : Mailbox (Posted M) :=
  { s.mailbox with calls := s.mailbox.calls ++ [{ pc := limits.entry, item }] }

/-- Where the listener goes when a send has returned. -/
def afterSend (runtime : MailboxRuntime) : Except ActorError Unit → ListenerPc
  | .error e => .ended (.sendFailed e)
  | .ok () =>
    match runtime with
    | .tasks => .next
    | .threads => .check

def listenerStep (limits : MailboxLimits) (s : Listening M) : ListenerAct M → Option (Listening M)
  | .poll => if s.pc = .poll then some { s with pc := if s.cancelled then .ended .actorStopped else .next } else none
  | .yields msg =>
    if s.pc = .next then
      some { s with mailbox := s.post limits ⟨msg, true⟩, pc := .sending s.mailbox.calls.length }
    else none
  | .pends => if s.pc = .next ∧ limits.runtime = .tasks then some { s with pc := .parked } else none
  | .finishes => if s.pc = .next then some { s with pc := .ended .streamFinished } else none
  | .wakes => if s.pc = .parked then some { s with pc := .poll } else none
  | .returns =>
    match s.pc with
    | .sending i =>
      match s.mailbox.pcAt i with
      | some (.returned result) => some { s with pc := afterSend limits.runtime result }
      | _ => none
    | _ => none
  | .check => if s.pc = .check then some { s with pc := if s.cancelled then .ended .actorStopped else .next } else none

def next (limits : MailboxLimits) (s : Listening M) : ListeningAct M → Option (Listening M)
  | .spawn => if s.pc = .unspawned then some { s with pc := start limits.runtime } else none
  | .cancel => some { s with cancelled := true }
  | .send msg => some { s with mailbox := s.post limits ⟨msg, false⟩ }
  | .mailbox a =>
    if a.isCall then none else (mailboxStep limits s.mailbox a).map fun mailbox => { s with mailbox }
  | .listener e => listenerStep limits s e

def Step (limits : MailboxLimits) (s : Listening M) (a : ListeningAct M) (s' : Listening M) : Prop :=
  s.next limits a = some s'

/-! ## What the stream yields, and what comes through -/

def yields (x : Listening M × ListeningAct M) : Option M :=
  match x.2 with
  | .listener (.yields msg) => some msg
  | _ => none

/-- The items of the stream so far. -/
def yielded (τ : List (Listening M × ListeningAct M)) : List M := τ.filterMap yields

/-- What the run loop takes from a mailbox by a step. -/
def taken {M : Type} (m : Mailbox M) : MailboxAct M → List M
  | .dequeue => m.user.head?.toList
  | _ => []

def dequeues (x : Listening M × ListeningAct M) : List (Posted M) :=
  match x.2 with
  | .mailbox a => taken x.1.mailbox a
  | _ => []

/-- Every message the channel has taken, oldest first: handled, dropped with the receiver, or still there. -/
def accepted (τ : List (Listening M × ListeningAct M)) (s : Listening M) : List (Posted M) :=
  τ.flatMap dequeues ++ (s.mailbox.discarded ++ s.mailbox.user)

/-- Those of them that the listener has sent. -/
def forwarded (l : List (Posted M)) : List M := (l.filter (·.listened)).map (·.msg)

/-- How many items the listener has taken from the stream that did not come through: one that is in a call, or whose
send has failed. -/
def unforwarded (s : Listening M) : Nat :=
  match s.pc with
  | .sending i => if s.mailbox.pcAt i = some (.returned (.ok ())) then 0 else 1
  | .ended (.sendFailed _) => 1
  | _ => 0

/-! ## What a step of the mailbox does to the messages -/

/-- What a step of the mailbox does, unless it is a new call: no call gets another message, a call that has returned
stays as it is, and at most one call hands its message to the channel, at the end. -/
structure Handed {M : Type} (a : MailboxAct M) (m m' : Mailbox M) : Prop where
  length : m'.calls.length = m.calls.length
  call : ∀ (j : Nat) (c : SendCall M), m.calls[j]? = some c →
    ∃ c' : SendCall M, m'.calls[j]? = some c' ∧ c'.item = c.item ∧ (c.pc.returns = true → c'.pc = c.pc)
  sent : (taken m a ++ (m'.discarded ++ m'.user) = m.discarded ++ m.user ∧
      ∀ j, m'.pcAt j = some (.returned (.ok ())) ↔ m.pcAt j = some (.returned (.ok ()))) ∨
    ∃ (i : Nat) (c : SendCall M), m.calls[i]? = some c ∧ c.pc.returns = false ∧ m'.pcAt i = some (.returned (.ok ())) ∧
      taken m a ++ (m'.discarded ++ m'.user) = m.discarded ++ m.user ++ [c.item] ∧
      ∀ j, j ≠ i → (m'.pcAt j = some (.returned (.ok ())) ↔ m.pcAt j = some (.returned (.ok ())))

section Handed

variable {limits : MailboxLimits} {m m' : Mailbox M} {a : MailboxAct M} {i : Nat} {c : SendCall M}

/-- Call `i` moves, and hands over its message only if it returns so. -/
theorem Handed.move (hi : m.calls[i]? = some c) {pc : SendPc} (hcalls : m'.calls = (m.setPc i c pc).calls)
    (hlive : c.pc.returns = false) (htaken : taken m a = []) (hdiscarded : m'.discarded = m.discarded)
    (huser : m'.user = if pc = .returned (.ok ()) then m.user ++ [c.item] else m.user) : Handed a m m' := by
  have hpcAt : ∀ j, m'.pcAt j = if j = i then some pc else m.pcAt j := by
    intro j
    rw [← Mailbox.pcAt_setPc hi pc j, Mailbox.pcAt, Mailbox.pcAt, hcalls]
  have hne : m.pcAt i ≠ some (.returned (.ok ())) := by
    rw [Mailbox.pcAt_of_calls hi]
    intro h
    rw [Option.some.inj h] at hlive
    cases hlive
  refine ⟨by rw [hcalls, Mailbox.setPc, List.length_set], fun j d hj => ?_, ?_⟩
  · rw [hcalls]
    by_cases hij : j = i
    · subst hij
      rw [hi] at hj
      cases hj
      refine ⟨_, List.getElem?_set_self (List.getElem?_eq_some_iff.mp hi).1, rfl, fun hr => ?_⟩
      rw [hlive] at hr
      cases hr
    · exact ⟨d, (List.getElem?_set_ne (Ne.symm hij)).trans hj, rfl, fun _ => rfl⟩
  · rw [htaken, hdiscarded, huser]
    by_cases hpc : pc = .returned (.ok ())
    · refine Or.inr ⟨i, c, hi, hlive, by rw [hpcAt, if_pos rfl, hpc], by simp [hpc], fun j hj => ?_⟩
      rw [hpcAt, if_neg hj]
    · refine Or.inl ⟨by simp [hpc], fun j => ?_⟩
      rw [hpcAt]
      split
      case isTrue hj =>
        subst hj
        simp [hpc, hne]
      case isFalse => rfl

theorem pcAt_ok_notifyBlockers (j : Nat) :
    (m.notifyBlockers limits).pcAt j = some (.returned (.ok ())) ↔ m.pcAt j = some (.returned (.ok ())) := by
  rcases Mailbox.pcAt_notifyBlockers limits m j with he | he
  · rw [he]
  · rw [he]
    constructor
    · intro h
      obtain ⟨pc, hpc, hwake⟩ := Option.map_eq_some_iff.mp h
      rw [hpc]
      cases pc <;> simp [SendPc.wake] at hwake ⊢
      exact hwake
    · intro h
      rw [h]
      rfl

theorem Handed.notifyBlockers (h : Handed a m m') : Handed a m (m'.notifyBlockers limits) := by
  have hget : ∀ (j : Nat) (c' : SendCall M), m'.calls[j]? = some c' →
      ∃ c'' : SendCall M, (m'.notifyBlockers limits).calls[j]? = some c'' ∧ c''.item = c'.item ∧
        (c'.pc.returns = true → c''.pc = c'.pc) := by
    intro j c' hj
    unfold Mailbox.notifyBlockers
    split
    · refine ⟨{ c' with pc := c'.pc.wake }, by simp [hj], rfl, fun hr => ?_⟩
      cases hpc : c'.pc <;> simp_all [SendPc.returns, SendPc.wake]
    · exact ⟨c', hj, rfl, fun _ => rfl⟩
  refine ⟨?_, fun j c hj => ?_, ?_⟩
  · rw [← h.length]
    unfold Mailbox.notifyBlockers
    split <;> simp
  · obtain ⟨c', hj', hitem, hpc⟩ := h.call j c hj
    obtain ⟨c'', hj'', hitem', hpc'⟩ := hget j c' hj'
    refine ⟨c'', hj'', hitem'.trans hitem, fun hr => ?_⟩
    have hsame := hpc hr
    rw [hpc' (by rw [hsame, hr]), hsame]
  · simp only [Mailbox.notifyBlockers_user, Mailbox.notifyBlockers_discarded, pcAt_ok_notifyBlockers]
    exact h.sent

/-- A step that moves no call. -/
theorem Handed.same (hcalls : m'.calls = m.calls)
    (hlists : taken m a ++ (m'.discarded ++ m'.user) = m.discarded ++ m.user) : Handed a m m' :=
  ⟨by rw [hcalls], fun j c hj => ⟨c, by rw [hcalls, hj], rfl, fun _ => rfl⟩,
    Or.inl ⟨hlists, fun j => by rw [Mailbox.pcAt, Mailbox.pcAt, hcalls]⟩⟩

theorem handed_of_step (hemptied : Emptied m) (ha : a.isCall = false) (h : MailboxStep limits m a m') :
    Handed a m m' := by
  cases h.moves with
  | call item => cases ha
  | @move _ i c pc depth user guard hi hmove hact _ _ _ =>
    refine Handed.move hi rfl hmove.not_returns ?_ rfl ?_
    · rcases hact with rfl | rfl | rfl <;> rfl
    · show user = _
      generalize c.pc = before at hmove
      cases hmove <;> rfl
  | @rolledBack i c hi hpc =>
    refine Handed.notifyBlockers (Handed.move hi rfl (by rw [hpc]; rfl) rfl rfl ?_)
    rw [if_neg (by simp)]
    rfl
  | dequeue huser hreceiver =>
    refine .same rfl ?_
    rw [taken, huser, hemptied.kept (by simp [hreceiver])]
    rfl
  | release | unlimited => exact .same rfl rfl
  | notify hreceiver =>
    have hsame : Handed .notify m m := .same rfl rfl
    have hwoken : Handed .notify m (m.notifyBlockers limits) := hsame.notifyBlockers
    exact ⟨hwoken.length, hwoken.call, hwoken.sent⟩
  | drop hreceiver =>
    refine .same rfl ?_
    show [] ++ (m.discarded ++ m.user ++ []) = _
    simp

end Handed

/-! ## What a step does -/

/-- A step, case by case. -/
inductive Moved (limits : MailboxLimits) (s : Listening M) : ListeningAct M → Listening M → Prop
  | spawn (hpc : s.pc = .unspawned) : Moved limits s .spawn { s with pc := start limits.runtime }
  | cancel : Moved limits s .cancel { s with cancelled := true }
  | send (msg : M) : Moved limits s (.send msg) { s with mailbox := s.post limits ⟨msg, false⟩ }
  | mailbox {a : MailboxAct (Posted M)} {m : Mailbox (Posted M)} (ha : a.isCall = false)
      (h : MailboxStep limits s.mailbox a m) : Moved limits s (.mailbox a) { s with mailbox := m }
  | look {e : ListenerAct M} (hpc : (s.pc = .poll ∧ e = .poll) ∨ (s.pc = .check ∧ e = .check)) :
      Moved limits s (.listener e) { s with pc := if s.cancelled then .ended .actorStopped else .next }
  | yields (msg : M) (hpc : s.pc = .next) :
      Moved limits s (.listener (.yields msg))
        { s with mailbox := s.post limits ⟨msg, true⟩, pc := .sending s.mailbox.calls.length }
  | pends (hpc : s.pc = .next) (hruntime : limits.runtime = .tasks) :
      Moved limits s (.listener .pends) { s with pc := .parked }
  | finishes (hpc : s.pc = .next) : Moved limits s (.listener .finishes) { s with pc := .ended .streamFinished }
  | wakes (hpc : s.pc = .parked) : Moved limits s (.listener .wakes) { s with pc := .poll }
  | returns {i : Nat} {result : Except ActorError Unit} (hpc : s.pc = .sending i)
      (hresult : s.mailbox.pcAt i = some (.returned result)) :
      Moved limits s (.listener .returns) { s with pc := afterSend limits.runtime result }

variable {limits : MailboxLimits} {s s' : Listening M} {τ : List (Listening M × ListeningAct M)} {a : ListeningAct M}

theorem listenerStep_moves {e : ListenerAct M} (h : listenerStep limits s e = some s') :
    Moved limits s (.listener e) s' := by
  cases e with
  | poll =>
    obtain ⟨hpc, h⟩ := Option.ite_none_right_eq_some.mp h
    cases h
    exact .look (Or.inl ⟨hpc, rfl⟩)
  | check =>
    obtain ⟨hpc, h⟩ := Option.ite_none_right_eq_some.mp h
    cases h
    exact .look (Or.inr ⟨hpc, rfl⟩)
  | yields msg =>
    obtain ⟨hpc, h⟩ := Option.ite_none_right_eq_some.mp h
    cases h
    exact .yields msg hpc
  | pends =>
    obtain ⟨hpc, h⟩ := Option.ite_none_right_eq_some.mp h
    cases h
    exact .pends hpc.1 hpc.2
  | finishes =>
    obtain ⟨hpc, h⟩ := Option.ite_none_right_eq_some.mp h
    cases h
    exact .finishes hpc
  | wakes =>
    obtain ⟨hpc, h⟩ := Option.ite_none_right_eq_some.mp h
    cases h
    exact .wakes hpc
  | returns =>
    simp only [listenerStep] at h
    split at h
    case h_2 => cases h
    case h_1 i hpc =>
      split at h
      case h_2 => cases h
      case h_1 result hresult =>
        cases h
        exact .returns hpc hresult

theorem step_moves (h : Step limits s a s') : Moved limits s a s' := by
  unfold Step at h
  cases a with
  | spawn =>
    obtain ⟨hpc, h⟩ := Option.ite_none_right_eq_some.mp h
    cases h
    exact .spawn hpc
  | cancel =>
    cases h
    exact .cancel
  | send msg =>
    cases h
    exact .send msg
  | mailbox a =>
    obtain ⟨ha, h⟩ := Option.ite_none_left_eq_some.mp h
    obtain ⟨m, hm, rfl⟩ := Option.map_eq_some_iff.mp h
    exact .mailbox (by simpa using ha) hm
  | listener e => exact listenerStep_moves h

/-! ## The invariant -/

/-- What holds of a listener and the mailbox it sends to. -/
structure Inv (τ : List (Listening M × ListeningAct M)) (s : Listening M) : Prop where
  emptied : Emptied s.mailbox
  /-- only the call the listener is in can still be under way -/
  returned : ∀ (j : Nat) (c : SendCall (Posted M)), s.mailbox.calls[j]? = some c → c.item.listened = true →
    c.pc.returns = true ∨ s.pc = .sending j
  /-- what is missing from the channel is in that call -/
  call : ∀ i, s.pc = .sending i → ∃ c : SendCall (Posted M), s.mailbox.calls[i]? = some c ∧ c.item.listened = true ∧
    (c.pc ≠ .returned (.ok ()) → yielded τ = forwarded (accepted τ s) ++ [c.item.msg])
  order : ∃ rest, yielded τ = forwarded (accepted τ s) ++ rest ∧ rest.length = unforwarded s

theorem inv_init : Inv [] ({} : Listening M) :=
  ⟨emptied_empty, fun j c hj => (by simp at hj), fun i hi => (by cases hi), [], rfl, rfl⟩

theorem yielded_snoc (x : Listening M × ListeningAct M) : yielded (τ ++ [x]) = yielded τ ++ (yields x).toList := by
  rw [yielded, List.filterMap_append, ← yielded]
  cases hx : yields x <;> simp [hx]

theorem accepted_snoc (x : Listening M × ListeningAct M) (s : Listening M) :
    accepted (τ ++ [x]) s = τ.flatMap dequeues ++ (dequeues x ++ (s.mailbox.discarded ++ s.mailbox.user)) := by
  simp [accepted]

theorem forwarded_append (l l' : List (Posted M)) : forwarded (l ++ l') = forwarded l ++ forwarded l' := by
  simp [forwarded]

theorem unforwarded_of_isFree (h : s.pc.isFree = true) : unforwarded s = 0 := by
  unfold unforwarded
  split
  case h_1 i hi =>
    rw [hi] at h
    cases h
  case h_2 e hi =>
    rw [hi] at h
    cases h
  case h_3 => rfl

/-- The count depends on the listener, and on whether its call has returned `Ok`. -/
theorem unforwarded_congr (hpc : s'.pc = s.pc) (hok : ∀ i, s.pc = .sending i →
    (s'.mailbox.pcAt i = some (.returned (.ok ())) ↔ s.mailbox.pcAt i = some (.returned (.ok ())))) :
    unforwarded s' = unforwarded s := by
  unfold unforwarded
  rw [hpc]
  split
  case h_1 i hi => rw [if_congr (hok i hi) rfl rfl]
  case h_2 => rfl
  case h_3 => rfl

/-- The listener moves on, and no call with it. -/
theorem Inv.walk (h : Inv τ s) {pc : ListenerPc} (ha : yields (s, a) = none ∧ dequeues (s, a) = [])
    (hleaves : ∀ i, s.pc = .sending i → ∃ result, s.mailbox.pcAt i = some (.returned result))
    (hpc : ∀ i, pc ≠ .sending i) (hcount : unforwarded { s with pc } = unforwarded s) :
    Inv (τ ++ [(s, a)]) { s with pc } := by
  obtain ⟨rest, horder, hrest⟩ := h.order
  refine ⟨h.emptied, fun j c hj hl => Or.inl ?_, fun i hi => absurd hi (hpc i), rest, ?_, hrest.trans hcount.symm⟩
  · rcases h.returned j c hj hl with hr | hs
    · exact hr
    · obtain ⟨result, hresult⟩ := hleaves j hs
      rw [Mailbox.pcAt_of_calls hj] at hresult
      rw [Option.some.inj hresult]
      rfl
  · rw [yielded_snoc, accepted_snoc, ha.1, ha.2, Option.toList_none, List.append_nil]
    exact horder

/-- A listener that is in no call has nothing on its way. -/
theorem Inv.walk_from (h : Inv τ s) {pc pc₀ : ListenerPc} (hpc₀ : s.pc = pc₀)
    (ha : yields (s, a) = none ∧ dequeues (s, a) = []) (hfrom : pc₀.isFree = true) (hto : pc.isFree = true) :
    Inv (τ ++ [(s, a)]) { s with pc } := by
  subst hpc₀
  refine h.walk ha (fun i hi => ?_) (fun i hi => ?_) ?_
  · rw [hi] at hfrom
    cases hfrom
  · rw [hi] at hto
    cases hto
  · rw [unforwarded_of_isFree hfrom, unforwarded_of_isFree hto]

theorem Inv.cancel (h : Inv τ s) : Inv (τ ++ [(s, .cancel)]) { s with cancelled := true } := by
  have hyielded : yielded (τ ++ [(s, .cancel)]) = yielded τ := by
    rw [yielded_snoc]
    exact List.append_nil _
  have haccepted : accepted (τ ++ [(s, .cancel)]) { s with cancelled := true } = accepted τ s := by
    rw [accepted_snoc]
    rfl
  refine ⟨h.emptied, h.returned, ?_, ?_⟩
  · rw [hyielded, haccepted]
    exact h.call
  · rw [hyielded, haccepted]
    exact h.order

theorem getElem?_post (item : Posted M) {j : Nat} (hj : j < s.mailbox.calls.length) :
    (s.post limits item).calls[j]? = s.mailbox.calls[j]? := List.getElem?_append_left hj

theorem pcAt_post (item : Posted M) {j : Nat} (hj : j < s.mailbox.calls.length) :
    (s.post limits item).pcAt j = s.mailbox.pcAt j := by
  rw [Mailbox.pcAt, getElem?_post item hj, Mailbox.pcAt]

theorem entry_not_returns (limits : MailboxLimits) : limits.entry.returns = false := by
  unfold MailboxLimits.entry
  split <;> rfl

theorem emptied_post (h : Emptied s.mailbox) (item : Posted M) : Emptied (s.post limits item) := by
  have hcall : MailboxStep limits s.mailbox (.call item) (s.post limits item) := rfl
  exact h.step hcall

theorem Inv.send (h : Inv τ s) (msg : M) :
    Inv (τ ++ [(s, .send msg)]) { s with mailbox := s.post limits ⟨msg, false⟩ } := by
  have hyielded : yielded (τ ++ [(s, .send msg)]) = yielded τ := by
    rw [yielded_snoc]
    exact List.append_nil _
  have haccepted : accepted (τ ++ [(s, .send msg)]) { s with mailbox := s.post limits ⟨msg, false⟩ } = accepted τ s := by
    rw [accepted_snoc]
    rfl
  refine ⟨emptied_post h.emptied _, fun j c hj hl => ?_, fun i hi => ?_, ?_⟩
  · rcases getElem?_snoc_cases hj with hj | ⟨-, rfl⟩
    · exact h.returned j c hj hl
    · cases hl
  · obtain ⟨c, hc, hl, hmsg⟩ := h.call i hi
    refine ⟨c, (getElem?_post _ (List.getElem?_eq_some_iff.mp hc).1).trans hc, hl, ?_⟩
    rw [hyielded, haccepted]
    exact hmsg
  · obtain ⟨rest, horder, hrest⟩ := h.order
    have hcount : unforwarded { s with mailbox := s.post limits ⟨msg, false⟩ } = unforwarded s := by
      refine unforwarded_congr rfl fun i hi => ?_
      obtain ⟨c, hc, -⟩ := h.call i hi
      rw [pcAt_post _ (List.getElem?_eq_some_iff.mp hc).1]
    exact ⟨rest, by rw [hyielded, haccepted, horder], hrest.trans hcount.symm⟩

theorem Inv.yields (h : Inv τ s) (msg : M) (hpc : s.pc = .next) :
    Inv (τ ++ [(s, .listener (.yields msg))])
      { s with mailbox := s.post limits ⟨msg, true⟩, pc := .sending s.mailbox.calls.length } := by
  have hyielded : yielded (τ ++ [(s, .listener (.yields msg))]) = yielded τ ++ [msg] := by
    rw [yielded_snoc]
    rfl
  have haccepted : accepted (τ ++ [(s, .listener (.yields msg))])
      { s with mailbox := s.post limits ⟨msg, true⟩, pc := .sending s.mailbox.calls.length } = accepted τ s := by
    rw [accepted_snoc]
    rfl
  have hnew : (s.post limits ⟨msg, true⟩).calls[s.mailbox.calls.length]? =
      some { pc := limits.entry, item := ⟨msg, true⟩ } := by
    simp [post]
  obtain ⟨rest, horder, hrest⟩ := h.order
  obtain rfl : rest = [] := by
    rw [unforwarded, hpc] at hrest
    exact List.eq_nil_of_length_eq_zero hrest
  rw [List.append_nil] at horder
  refine ⟨emptied_post h.emptied _, fun j c hj hl => ?_, fun i hi => ?_, [msg], ?_, ?_⟩
  · rcases getElem?_snoc_cases hj with hj | ⟨rfl, -⟩
    · rcases h.returned j c hj hl with hr | hs
      · exact Or.inl hr
      · rw [hpc] at hs
        cases hs
    · exact Or.inr rfl
  · cases hi
    refine ⟨_, hnew, rfl, fun _ => ?_⟩
    rw [hyielded, haccepted, horder]
  · rw [hyielded, haccepted, horder]
  · have hne : limits.entry ≠ .returned (.ok ()) := by
      intro he
      have := entry_not_returns limits
      rw [he] at this
      cases this
    simp [unforwarded, Mailbox.pcAt, hnew, hne]

theorem Inv.mailbox (h : Inv τ s) {b : MailboxAct (Posted M)} {m : Mailbox (Posted M)} (hb : b.isCall = false)
    (hstep : MailboxStep limits s.mailbox b m) : Inv (τ ++ [(s, .mailbox b)]) { s with mailbox := m } := by
  have handed := handed_of_step h.emptied hb hstep
  have hyielded : yielded (τ ++ [(s, .mailbox b)]) = yielded τ := by
    rw [yielded_snoc]
    exact List.append_nil _
  have haccepted : accepted (τ ++ [(s, .mailbox b)]) { s with mailbox := m } =
      τ.flatMap dequeues ++ (taken s.mailbox b ++ (m.discarded ++ m.user)) := accepted_snoc _ _
  have hback : ∀ (j : Nat) (c' : SendCall (Posted M)), m.calls[j]? = some c' → ∃ c : SendCall (Posted M),
      s.mailbox.calls[j]? = some c ∧ c'.item = c.item ∧ (c.pc.returns = true → c'.pc = c.pc) := by
    intro j c' hj
    have hlt := (List.getElem?_eq_some_iff.mp hj).1
    rw [handed.length] at hlt
    obtain ⟨d, hd, hitem, hpc⟩ := handed.call j _ (List.getElem?_eq_getElem hlt)
    rw [hj] at hd
    cases hd
    exact ⟨_, List.getElem?_eq_getElem hlt, hitem, hpc⟩
  have hreturned : ∀ (j : Nat) (c' : SendCall (Posted M)), m.calls[j]? = some c' → c'.item.listened = true →
      c'.pc.returns = true ∨ s.pc = .sending j := by
    intro j c' hj hl
    obtain ⟨c, hc, hitem, hpc⟩ := hback j c' hj
    rcases h.returned j c hc (hitem ▸ hl) with hr | hs
    · exact Or.inl (by rw [hpc hr, hr])
    · exact Or.inr hs
  obtain ⟨rest, horder, hrest⟩ := h.order
  -- the message of a call other than the listener's does not count
  have hkept : (∀ i, s.pc = .sending i → (m.pcAt i = some (.returned (.ok ())) ↔
        s.mailbox.pcAt i = some (.returned (.ok ())))) →
      forwarded (accepted (τ ++ [(s, .mailbox b)]) { s with mailbox := m }) = forwarded (accepted τ s) →
      Inv (τ ++ [(s, .mailbox b)]) { s with mailbox := m } := by
    intro hok hsame
    have hcount : unforwarded { s with mailbox := m } = unforwarded s := unforwarded_congr rfl hok
    refine ⟨h.emptied.step hstep, hreturned, fun i hi => ?_, rest, ?_, hrest.trans hcount.symm⟩
    · obtain ⟨c, hc, hl, hmsg⟩ := h.call i hi
      obtain ⟨c', hc', hitem, -⟩ := handed.call i c hc
      refine ⟨c', hc', by rw [hitem, hl], fun hne => ?_⟩
      rw [hyielded, hsame, hitem]
      refine hmsg fun hpc => hne ?_
      have hold := (hok i hi).mpr (by rw [Mailbox.pcAt_of_calls hc, hpc])
      rw [Mailbox.pcAt_of_calls hc'] at hold
      exact Option.some.inj hold
    · rw [hyielded, hsame, horder]
  rcases handed.sent with ⟨hlists, hok⟩ | ⟨i, c, hc, hlive, hsent, hlists, hok⟩
  · exact hkept (fun i _ => hok i) (by rw [haccepted, hlists, accepted])
  · by_cases hl : c.item.listened = true
    · have hpc : s.pc = .sending i := by
        rcases h.returned i c hc hl with hr | hs
        · rw [hlive] at hr
          cases hr
        · exact hs
      obtain ⟨d, hd, -, hmsg⟩ := h.call i hpc
      rw [hc] at hd
      cases hd
      have hne : c.pc ≠ .returned (.ok ()) := by
        rintro he
        rw [he] at hlive
        cases hlive
      have hall : yielded (τ ++ [(s, .mailbox b)]) =
          forwarded (accepted (τ ++ [(s, .mailbox b)]) { s with mailbox := m }) := by
        rw [hyielded, hmsg hne, haccepted, hlists, ← List.append_assoc, forwarded_append, accepted]
        simp [forwarded, hl]
      refine ⟨h.emptied.step hstep, hreturned, fun j hj => ?_, [], by rw [hall, List.append_nil], ?_⟩
      · obtain rfl : j = i := by
          have := hj.symm.trans hpc
          cases this
          rfl
        obtain ⟨c', hc', hitem, -⟩ := handed.call j c hc
        refine ⟨c', hc', by rw [hitem, hl], fun hno => absurd ?_ hno⟩
        rw [Mailbox.pcAt_of_calls hc'] at hsent
        exact Option.some.inj hsent
      · simp [unforwarded, hpc, hsent]
    · refine hkept (fun j hj => hok j ?_) ?_
      · rintro rfl
        obtain ⟨d, hd, hld, -⟩ := h.call j hj
        rw [hc] at hd
        cases hd
        exact hl hld
      · rw [haccepted, hlists, ← List.append_assoc, forwarded_append, accepted]
        simp [forwarded, hl]

theorem isFree_look (cancelled : Bool) :
    (if cancelled then ListenerPc.ended .actorStopped else .next).isFree = true := by
  cases cancelled <;> rfl

theorem Inv.step (h : Inv τ s) (hstep : Step limits s a s') : Inv (τ ++ [(s, a)]) s' := by
  cases step_moves hstep with
  | spawn hpc =>
    refine h.walk_from hpc ⟨rfl, rfl⟩ rfl ?_
    cases limits.runtime <;> rfl
  | cancel => exact h.cancel
  | send msg => exact h.send msg
  | mailbox ha hm => exact h.mailbox ha hm
  | look hpc =>
    rcases hpc with ⟨hpc, rfl⟩ | ⟨hpc, rfl⟩
    · exact h.walk_from hpc ⟨rfl, rfl⟩ rfl (isFree_look _)
    · exact h.walk_from hpc ⟨rfl, rfl⟩ rfl (isFree_look _)
  | yields msg hpc => exact h.yields msg hpc
  | pends hpc | finishes hpc | wakes hpc => exact h.walk_from hpc ⟨rfl, rfl⟩ rfl rfl
  | @returns i result hpc hresult =>
    refine h.walk ⟨rfl, rfl⟩ (fun j hj => ?_) (fun j => ?_) ?_
    · have hij := hpc.symm.trans hj
      cases hij
      exact ⟨result, hresult⟩
    · cases result <;> cases limits.runtime <;> simp [afterSend]
    · cases result with
      | ok u => cases limits.runtime <;> simp [unforwarded, afterSend, hpc, hresult]
      | error e => simp [unforwarded, afterSend, hpc, hresult]

theorem inv_run (h : Run (Step limits) {} τ s) : Inv τ s :=
  h.inv_history inv_init fun _ _ _ _ hinv hstep => hinv.step hstep

/-- Whoever else sends, and however the steps of all are ordered, the messages of the listener enter the channel in the
order of the stream, each once and none left out. Only the last item may be missing: while its call is under way, or for
good when its send has failed, which ends the listener. -/
theorem listener_keeps_order (h : Run (Step limits) {} τ s) :
    forwarded (accepted τ s) <+: yielded τ ∧ (yielded τ).length = (forwarded (accepted τ s)).length + unforwarded s := by
  obtain ⟨rest, horder, hrest⟩ := (inv_run h).order
  refine ⟨⟨rest, horder.symm⟩, ?_⟩
  rw [horder, List.length_append, hrest]

/-! ## After the token is cancelled -/

theorem length_yielded (τ : List (Listening M × ListeningAct M)) : (yielded τ).length = τ.countP (yields · |>.isSome) := by
  rw [yielded, List.length_filterMap_eq_countP]

/-- A listener that looks at the token before it takes another item. -/
def Looks (s : Listening M) : Prop := s.pc = .poll ∨ s.pc = .parked ∨ s.pc = .check ∨ ∃ why, s.pc = .ended why

/-- One that takes its next item before it looks at the token. -/
def Cleared (s : Listening M) : Prop := s.pc = .unspawned ∨ s.pc = .next

instance : DecidablePred (Cleared (M := M)) := fun _ => inferInstanceAs (Decidable (_ ∨ _))

theorem cancelled_step (h : Step limits s a s') (hc : s.cancelled = true) : s'.cancelled = true := by
  cases step_moves h with
  | cancel => rfl
  | _ => exact hc

/-- With the token cancelled a thread comes to its next item only by its start, and is past it when it has taken one. -/
theorem cleared_step (hruntime : limits.runtime = .threads) (hc : s.cancelled = true) (h : Step limits s a s')
    (hcleared : s'.Cleared) : s.Cleared ∧ (yields (s, a)).isSome = false := by
  cases step_moves h with
  | spawn hpc => exact ⟨Or.inl hpc, rfl⟩
  | cancel | send | mailbox => exact ⟨hcleared, rfl⟩
  | look hpc => simp [Cleared, hc] at hcleared
  | yields msg hpc => simp [Cleared] at hcleared
  | pends | finishes | wakes => simp [Cleared] at hcleared
  | @returns i result hpc hresult => cases result <;> simp [Cleared, afterSend, hruntime] at hcleared

theorem next_of_yields (h : Step limits s a s') (hy : (yields (s, a)).isSome = true) : s.pc = .next := by
  cases step_moves h with
  | yields msg hpc => exact hpc
  | look hpc => rcases hpc with ⟨-, rfl⟩ | ⟨-, rfl⟩ <;> cases hy
  | _ => cases hy

theorem looks_step (hlooks : s.cancelled = true ∧ s.Looks) (h : Step limits s a s') : s'.cancelled = true ∧ s'.Looks := by
  refine ⟨cancelled_step h hlooks.1, ?_⟩
  cases step_moves h with
  | spawn hpc => simp [Looks, hpc] at hlooks
  | cancel | send | mailbox => exact hlooks.2
  | look hpc => exact Or.inr (Or.inr (Or.inr ⟨.actorStopped, by simp [hlooks.1]⟩))
  | yields msg hpc => simp [Looks, hpc] at hlooks
  | pends hpc | finishes hpc => simp [Looks, hpc] at hlooks
  | wakes hpc => exact Or.inl rfl
  | returns hpc => simp [Looks, hpc] at hlooks

/-- Once the token is cancelled, a thread takes one item more at most, also one that waits in `next` for it; a parked task
takes none, and no listener that looks at the token before its next item. -/
theorem listener_after_cancel {s₀ : Listening M} (h : Run (Step limits) s₀ τ s) (hc : s₀.cancelled = true) :
    (limits.runtime = .threads → (yielded τ).length ≤ 1) ∧ (s₀.Looks → yielded τ = []) := by
  constructor
  · intro hruntime
    have hle : τ.countP (yields · |>.isSome) ≤ if s₀.Cleared then 1 else 0 :=
      h.countP_le (F := fun s => s.cancelled = true) (fun s a s' hc hstep => cancelled_step hstep hc)
        (fun s a s' hc hstep => cleared_step hruntime hc hstep)
        (fun s a s' hstep hy => Or.inr (next_of_yields hstep hy)) hc
    rw [length_yielded]
    split_ifs at hle <;> omega
  · intro hlooks
    have hle : τ.countP (yields · |>.isSome) ≤ if s₀.pc = .next then 1 else 0 :=
      h.countP_le (F := fun s => s.cancelled = true ∧ s.Looks) (C := fun s => s.pc = .next)
        (fun s a s' hF hstep => looks_step hF hstep)
        (fun s a s' hF hstep hnext => by
          have := (looks_step hF hstep).2
          simp [Looks, hnext] at this)
        (fun s a s' hstep hy => next_of_yields hstep hy) ⟨hc, hlooks⟩
    have hne : s₀.pc ≠ .next := by
      intro hnext
      simp [Looks, hnext] at hlooks
    rw [if_neg hne, ← length_yielded] at hle
    exact List.eq_nil_of_length_eq_zero (by omega)

/-- One item comes through, with no look at the token. -/
theorem forward_one (hruntime : limits.runtime = .tasks) (hcap : limits.capacity = none) (hpc : s.pc = .next)
    (hopen : s.mailbox.receiver ≠ .dropped) (msg : M) :
    ∃ τ s', Run (Step limits) s τ s' ∧ yielded τ = [msg] ∧ s'.pc = .next ∧ s'.cancelled = s.cancelled ∧
      s'.mailbox.receiver = s.mailbox.receiver ∧ s'.mailbox.user = s.mailbox.user ++ [⟨msg, true⟩] := by
  let posted : Posted M := ⟨msg, true⟩
  let n := s.mailbox.calls.length
  let s₁ : Listening M := { s with mailbox := s.post limits posted, pc := .sending n }
  let call : SendCall (Posted M) := { pc := limits.entry, item := posted }
  let m : Mailbox (Posted M) :=
    { s₁.mailbox.setPc n call (.returned (.ok ())) with user := s.mailbox.user ++ [posted] }
  have hentry : limits.entry = .send := by simp [MailboxLimits.entry, hcap]
  have hcall : s₁.mailbox.calls[n]? = some call := by simp [s₁, n, post, call]
  have hyields : Step limits s (.listener (.yields msg)) s₁ := if_pos hpc
  have hsends : Step limits s₁ (.mailbox (.step n)) { s₁ with mailbox := m } := by
    have hstep : mailboxStep limits s₁.mailbox (.step n) = some m := by
      rw [mailboxStep, hcall, Option.bind_some, sendStep]
      simp only [call, hentry]
      exact if_neg hopen
    show (mailboxStep limits s₁.mailbox (.step n)).map _ = _
    rw [hstep]
    rfl
  have hreturns : Step limits { s₁ with mailbox := m } (.listener .returns) { s₁ with mailbox := m, pc := .next } := by
    have hpcAt : m.pcAt n = some (.returned (.ok ())) := by
      have hset := Mailbox.pcAt_setPc hcall (.returned (.ok ())) n
      rwa [if_pos rfl] at hset
    simp only [Step, next, listenerStep, s₁, hpcAt, afterSend, hruntime]
  exact ⟨_, _, ((Run.single hyields).snoc hsends).snoc hreturns, rfl, rfl, rfl, rfl, rfl⟩

/-- Any number of items comes through like that. -/
theorem forward_all (hruntime : limits.runtime = .tasks) (hcap : limits.capacity = none) (hpc : s.pc = .next)
    (hopen : s.mailbox.receiver ≠ .dropped) (items : List M) :
    ∃ τ s', Run (Step limits) s τ s' ∧ yielded τ = items ∧ s'.pc = .next ∧ s'.cancelled = s.cancelled ∧
      s'.mailbox.user = s.mailbox.user ++ items.map fun msg => ⟨msg, true⟩ := by
  induction items generalizing s with
  | nil => exact ⟨[], s, .nil, rfl, hpc, rfl, by simp⟩
  | cons msg items ih =>
    obtain ⟨τ₁, s₁, hrun₁, hy₁, hpc₁, hc₁, hr₁, hu₁⟩ := forward_one hruntime hcap hpc hopen msg
    obtain ⟨τ₂, s₂, hrun₂, hy₂, hpc₂, hc₂, hu₂⟩ := ih hpc₁ (by rwa [hr₁])
    refine ⟨τ₁ ++ τ₂, s₂, hrun₁.append hrun₂, ?_, hpc₂, hc₂.trans hc₁, ?_⟩
    · rw [yielded, List.filterMap_append, ← yielded, ← yielded, hy₁, hy₂, List.singleton_append]
    · rw [hu₂, hu₁, List.map_cons, List.append_assoc, List.singleton_append]

/-- The listener takes items and sends them, or has ended otherwise than on its token. -/
def Forwards (s : Listening M) : Prop :=
  s.pc = .next ∨ (∃ i, s.pc = .sending i) ∨ ∃ why, s.pc = .ended why ∧ why ≠ .actorStopped

theorem forwards_step (hruntime : limits.runtime = .tasks) (h : s.Forwards) (hstep : Step limits s a s')
    (hpends : a ≠ .listener .pends) : s'.Forwards := by
  cases step_moves hstep with
  | cancel | send | mailbox => exact h
  | yields msg hpc => exact Or.inr (Or.inl ⟨_, rfl⟩)
  | finishes hpc => exact Or.inr (Or.inr ⟨_, rfl, by simp⟩)
  | pends hpc => exact absurd rfl hpends
  | spawn hpc => simp [Forwards, hpc] at h
  | look hpc => rcases hpc with ⟨hpc, -⟩ | ⟨hpc, -⟩ <;> simp [Forwards, hpc] at h
  | wakes hpc => simp [Forwards, hpc] at h
  | @returns i result hpc hresult =>
    cases result with
    | ok u => exact Or.inl (by simp [afterSend, hruntime])
    | error e => exact Or.inr (Or.inr ⟨.sendFailed e, rfl, by simp⟩)

/-- A task that is forwarding does not look at the token of its actor before its stream is pending: until then it takes
what the stream yields and ends on nothing but the end of the stream or a failed send, and that may be any number of
items, all of which enter the channel, cancelled or not. -/
theorem listener_overruns (hruntime : limits.runtime = .tasks) (hpc : s.pc = .next) :
    (∀ τ s', Run (Step limits) s τ s' → (∀ x ∈ τ, x.2 ≠ .listener .pends) → s'.Forwards) ∧
    (limits.capacity = none → s.mailbox.receiver ≠ .dropped → ∀ items : List M, ∃ τ s', Run (Step limits) s τ s' ∧
      yielded τ = items ∧ s'.pc = .next ∧ s'.cancelled = s.cancelled ∧
      s'.mailbox.user = s.mailbox.user ++ items.map fun msg => ⟨msg, true⟩) := by
  refine ⟨fun τ s' h hpends => ?_, fun hcap hopen items => forward_all hruntime hcap hpc hopen items⟩
  exact h.inv_of_steps (I := Forwards) (P := fun _ a => a ≠ .listener .pends) (Or.inl hpc)
    (fun _ _ _ hs hne hstep => forwards_step hruntime hs hstep hne) hpends

/-! ## A stream, its listener and another sender -/

def unlimited (runtime : MailboxRuntime) : MailboxLimits := { capacity := none, mode := .failFast, runtime }

/-- Two items with a message of someone else between them, then the token is cancelled. -/
def forwarding : List (ListeningAct Nat) :=
  [.spawn, .listener (.yields 1), .mailbox (.step 0), .listener .returns, .listener .check, .send 9, .mailbox (.step 1),
    .listener (.yields 2), .mailbox .dequeue, .mailbox (.step 2), .cancel]

theorem listener_keeps_order_of_forwarding :
    ∃ τ s, Run (Step (unlimited .threads)) ({} : Listening Nat) τ s ∧ yielded τ = [1, 2] ∧
      forwarded (accepted τ s) <+: yielded τ := by
  have hrun := run_tryPlay (next (unlimited .threads)) {} forwarding (by decide)
  exact ⟨_, _, hrun, rfl, (listener_keeps_order hrun).1⟩

theorem listener_after_cancel_of_next :
    ∃ τ s, Run (Step (unlimited .threads)) ({ cancelled := true, pc := .next } : Listening Nat) τ s ∧ yielded τ = [1] ∧
      (yielded τ).length ≤ 1 := by
  have hrun := run_tryPlay (next (unlimited .threads)) ({ cancelled := true, pc := .next } : Listening Nat)
    [.listener (.yields 1), .mailbox (.step 0), .listener .returns, .listener .check] (by decide)
  exact ⟨_, _, hrun, rfl, (listener_after_cancel hrun rfl).1 rfl⟩

theorem listener_overruns_hundred :
    ∃ τ s', Run (Step (unlimited .tasks)) ({ cancelled := true, pc := .next } : Listening Nat) τ s' ∧
      yielded τ = List.range 100 ∧ s'.cancelled = true := by
  have hruntime : (unlimited .tasks).runtime = .tasks := rfl
  obtain ⟨τ, s', hrun, hy, -, hc, -⟩ := (listener_overruns (M := Nat) (s := { cancelled := true, pc := .next }) hruntime
    rfl).2 rfl (by decide) (List.range 100)
  exact ⟨τ, s', hrun, hy, hc⟩

end Listening

end Spawned
