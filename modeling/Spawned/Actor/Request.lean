import Spawned.Mailbox.Wakeup

/-!
# Requests and their replies

A request puts an envelope with the sender of a oneshot channel into the mailbox and waits on the receiver. The run loop
hands the envelope to the handler and sends what that returns; an envelope that is dropped, whether refused, unread or
with a handler that panicked, drops its sender. Any number of requests and plain sends race with the run loop and its end.

* `Response` : what a caller holds, with `poll`; the blocking `request_with_timeout` is a `timedReceiver` that is polled
  until it yields;
* `Requests.next` : one step of the mailbox, of the run loop or of a caller;
* `Requests.places` : in how many places the sender of a channel is; `Inv` : in exactly one until something was sent or it
  was dropped;
* `repliesTo` : what the handler has returned for a request, in a history.
-/

namespace Spawned

open Lib

/-- Why a request has no result. -/
inductive RequestError
  | actor (error : ActorError)
  | requestTimeout
  /-- only from a node to another -/
  | remoteUnreachable
deriving DecidableEq, Repr

/-- A oneshot channel, as its receiver sees it. -/
inductive Oneshot (R : Type)
  | empty
  | sent (value : R)
  /-- the sender was dropped -/
  | closed
deriving DecidableEq, Repr

def Oneshot.isUnset {R : Type} : Oneshot R → Bool
  | .empty => true
  | _ => false

/-- A message in the mailbox, with the channel its result is sent to. -/
structure MessageEnvelope (M : Type) where
  msg : M
  tx : Option Nat := none
deriving DecidableEq, Repr

inductive Response (R : Type)
  | receiver (rx : Nat)
  | timedReceiver (rx : Nat)
  | ready (result : Except RequestError R)
  | done

namespace Response

variable {R : Type}

def ofResult : Except ActorError Nat → Response R
  | .ok rx => .receiver rx
  | .error e => .ready (.error (.actor e))

def fromWithTimeout : Except ActorError Nat → Response R
  | .ok rx => .timedReceiver rx
  | .error e => .ready (.error (.actor e))

/-- What the receiver of a channel yields when it is polled. -/
def recv : Oneshot R → Option (Except RequestError R)
  | .empty => none
  | .sent value => some (.ok value)
  | .closed => some (.error (.actor .actorStopped))

/-- One poll: the response after it, and what it yields. `none` is the panic of a poll after completion. The timer is looked
at when the channel has nothing. -/
def poll (channels : List (Oneshot R)) (elapsed : Bool) :
    Response R → Option (Response R × Option (Except RequestError R))
  | .receiver rx =>
    match recv (channels.getD rx .closed) with
    | some result => some (.done, some result)
    | none => some (.receiver rx, none)
  | .timedReceiver rx =>
    match recv (channels.getD rx .closed) with
    | some result => some (.done, some result)
    | none => if elapsed then some (.done, some (.error .requestTimeout)) else some (.timedReceiver rx, none)
  | .ready result => some (.done, some result)
  | .done => none

end Response

/-! ## The system -/

/-- A request: the call of the mailbox that sends its envelope, what `request_raw` has been made into, and what the caller
got. -/
structure RequestCall (M R : Type) where
  msg : M
  call : Nat
  timed : Bool
  response : Option (Response R) := none
  result : Option (Except RequestError R) := none

/-- An actor with its mailbox and all requests ever made to it; request `k` has channel `k`. -/
structure Requests (M R : Type) where
  mailbox : Mailbox (MessageEnvelope M) := {}
  /-- what the run loop has dequeued and not finished handling -/
  inHand : Option (MessageEnvelope M) := none
  /-- the run loop is over -/
  left : Bool := false
  channels : List (Oneshot R) := []
  requests : List (RequestCall M R) := []

/-- The steps. -/
inductive RequestAct (M R : Type)
  /-- `send` -/
  | send (msg : M)
  /-- `request_raw`; with a timeout, or the receiver by itself -/
  | request (msg : M) (timed : Bool)
  /-- a step inside the mailbox: of one of its calls, or of `on_message_dequeued` -/
  | mailbox (a : MailboxAct (MessageEnvelope M))
  | dequeue
  /-- the handler returns, and the result is sent -/
  | returns (result : R)
  | panics
  /-- the loop ends otherwise: at `recv`, or at the check after a handler -/
  | leave
  /-- the end of `run_actor`, which drops the receiver -/
  | dropReceiver
  /-- `request_raw` of request `k` returns -/
  | raw (k : Nat)
  | poll (k : Nat) (elapsed : Bool)
  /-- the caller drops its response -/
  | abandon (k : Nat)

/-- A step that the mailbox takes by itself. -/
def MailboxAct.inner {M : Type} : MailboxAct M → Bool
  | .step _ | .weakFails _ | .cvarWakes _ | .release | .notify => true
  | .call _ | .dequeue | .drop => false

namespace SendPc

def isRefused : SendPc → Bool
  | returned (.error _) => true
  | _ => false

@[simp] theorem returns_wake (pc : SendPc) : pc.wake.returns = pc.returns := by
  cases pc <;> rfl

@[simp] theorem isRefused_wake (pc : SendPc) : pc.wake.isRefused = pc.isRefused := by
  cases pc <;> rfl

end SendPc

namespace Requests

variable {M R : Type}

/-- The sender of a channel is dropped. -/
def dropTx (channels : List (Oneshot R)) : Option Nat → List (Oneshot R)
  | none => channels
  | some k => channels.set k .closed

/-- The sender of the call that a step has made return with an error. -/
def refusedTx (mailbox : Mailbox (MessageEnvelope M)) : MailboxAct (MessageEnvelope M) → Option Nat
  | .step i => mailbox.calls[i]?.bind fun c => if c.pc.isRefused then c.item.tx else none
  | _ => none

/-- A new call of the mailbox. -/
def post (limits : MailboxLimits) (s : Requests M R) (item : MessageEnvelope M) : Mailbox (MessageEnvelope M) :=
  { s.mailbox with calls := s.mailbox.calls ++ [{ pc := limits.entry, item }] }

def setRequest (s : Requests M R) (k : Nat) (r : RequestCall M R) : Requests M R :=
  { s with requests := s.requests.set k r }

def next (limits : MailboxLimits) (s : Requests M R) : RequestAct M R → Option (Requests M R)
  | .send msg => some { s with mailbox := s.post limits { msg } }
  | .request msg timed =>
    some { s with
      mailbox := s.post limits { msg, tx := some s.requests.length }
      channels := s.channels ++ [.empty]
      requests := s.requests ++ [{ msg, call := s.mailbox.calls.length, timed }] }
  | .mailbox a =>
    if a.inner then
      (mailboxStep limits s.mailbox a).map fun mailbox =>
        { s with mailbox, channels := dropTx s.channels (refusedTx mailbox a) }
    else none
  | .dequeue =>
    match s.mailbox.user with
    | [] => none
    | env :: _ =>
      if s.inHand.isNone ∧ s.left = false then
        (mailboxStep limits s.mailbox .dequeue).map fun mailbox => { s with mailbox, inHand := some env }
      else none
  | .returns result =>
    match s.inHand with
    | some env =>
      if s.mailbox.receiver = .recv then
        some { s with inHand := none, channels := env.tx.elim s.channels fun k => s.channels.set k (.sent result) }
      else none
    | none => none
  | .panics =>
    match s.inHand with
    | some env =>
      if s.mailbox.receiver = .recv then
        some { s with inHand := none, left := true, channels := dropTx s.channels env.tx }
      else none
    | none => none
  | .leave => if s.inHand.isNone then some { s with left := true } else none
  | .dropReceiver =>
    if s.left ∧ s.inHand.isNone then
      (mailboxStep limits s.mailbox .drop).map fun mailbox =>
        { s with mailbox, channels := s.mailbox.user.foldl (fun channels env => dropTx channels env.tx) s.channels }
    else none
  | .raw k =>
    s.requests[k]?.bind fun r =>
      match r.response, s.mailbox.pcAt r.call with
      | none, some (.returned result) =>
        let rx := result.map fun _ => k
        let response := if r.timed then Response.fromWithTimeout rx else Response.ofResult rx
        some (s.setRequest k { r with response := some response })
      | _, _ => none
  | .poll k elapsed =>
    s.requests[k]?.bind fun r => r.response.bind fun response =>
      (response.poll s.channels elapsed).map fun p =>
        s.setRequest k { r with response := some p.1, result := p.2 }
  | .abandon k =>
    s.requests[k]?.bind fun r => r.response.map fun _ => s.setRequest k { r with response := some .done }

def Step (limits : MailboxLimits) (s : Requests M R) (a : RequestAct M R) (s' : Requests M R) : Prop :=
  next limits s a = some s'

/-! ## Where the sender of a channel is -/

/-- The calls of the mailbox that still have the sender of channel `k`. -/
def pending (k : Nat) (m : Mailbox (MessageEnvelope M)) : Nat :=
  m.calls.countP fun c => !c.pc.returns && c.item.tx == some k

def held (k : Nat) (envs : List (MessageEnvelope M)) : Nat := envs.countP (·.tx == some k)

def places (s : Requests M R) (k : Nat) : Nat :=
  pending k s.mailbox + held k s.mailbox.user + held k s.inHand.toList

section Mailbox

variable {limits : MailboxLimits} {m m' : Mailbox (MessageEnvelope M)} {i k : Nat} {c : SendCall (MessageEnvelope M)}

theorem pending_setPc (hi : m.calls[i]? = some c) (pc : SendPc) :
    pending k (m.setPc i c pc) + (if !c.pc.returns && c.item.tx == some k then 1 else 0) =
      pending k m + (if !pc.returns && c.item.tx == some k then 1 else 0) :=
  countP_set_add (fun c : SendCall (MessageEnvelope M) => !c.pc.returns && c.item.tx == some k) hi { c with pc }

theorem pending_notifyBlockers : pending k (m.notifyBlockers limits) = pending k m := by
  unfold Mailbox.notifyBlockers pending
  split
  · simp [List.countP_map, Function.comp_def]
  · rfl

theorem items_setPc (hi : m.calls[i]? = some c) (pc : SendPc) :
    (m.setPc i c pc).calls.map (·.item) = m.calls.map (·.item) :=
  map_set_eq _ hi _ rfl

theorem items_notifyBlockers : (m.notifyBlockers limits).calls.map (·.item) = m.calls.map (·.item) := by
  unfold Mailbox.notifyBlockers
  split
  · simp [Function.comp_def]
  · rfl

/-- What a step inside the mailbox does to the envelopes: none is lost, none comes to be, and one that leaves its call is
in the channel of the mailbox or was refused. -/
structure Carried (a : MailboxAct (MessageEnvelope M)) (m m' : Mailbox (MessageEnvelope M)) : Prop where
  items : m'.calls.map (·.item) = m.calls.map (·.item)
  receiver : m'.receiver = .dropped ↔ m.receiver = .dropped
  user : ∀ env ∈ m'.user, env ∈ m.user ∨ ∃ c ∈ m.calls, c.item = env
  closed : m.receiver = .dropped → m'.user = m.user
  returned : ∀ j result, m.pcAt j = some (.returned result) → m'.pcAt j = some (.returned result)
  refused : ∀ k, refusedTx m' a = some k → 0 < pending k m
  /-- only the call that moves can come to be refused -/
  turned : ∀ j e, m'.pcAt j = some (.returned (.error e)) → m.pcAt j = some (.returned (.error e)) ∨
    refusedTx m' a = m.calls[j]?.bind (·.item.tx)
  count : ∀ k, pending k m' + held k m'.user + (if refusedTx m' a = some k then 1 else 0) = pending k m + held k m.user

/-- Call `i` moves by `a`; what it returns with tells whether its envelope was sent or refused. -/
theorem Carried.move {a : MailboxAct (MessageEnvelope M)} (hi : m.calls[i]? = some c) {pc : SendPc}
    (hcalls : m'.calls = (m.setPc i c pc).calls) (hreceiver : m'.receiver = m.receiver) (hlive : c.pc.returns = false)
    (hstep : pc.isRefused = true → a = .step i) (ha : a = .step i ∨ refusedTx m' a = none)
    (huser : m'.user = if pc = .returned (.ok ()) then m.user ++ [c.item] else m.user)
    (hopen : pc = .returned (.ok ()) → m.receiver ≠ .dropped) : Carried a m m' := by
  have hmem := List.mem_of_getElem? hi
  have hget : m'.calls[i]? = some { c with pc } := by
    rw [hcalls]
    exact List.getElem?_set_self (List.getElem?_eq_some_iff.mp hi).1
  have hrefused : refusedTx m' a = if pc.isRefused then c.item.tx else none := by
    rcases ha with rfl | hnone
    · simp only [refusedTx, hget, Option.bind_some]
    · split_ifs with hpc
      · rw [hstep hpc]
        simp only [refusedTx, hget, Option.bind_some, hpc, if_true]
      · exact hnone
  have hset : ∀ k, pending k m' + (if c.item.tx == some k then 1 else 0) =
      pending k m + (if !pc.returns && c.item.tx == some k then 1 else 0) := by
    intro k
    have h := pending_setPc (k := k) hi pc
    rw [hlive, Bool.not_false, Bool.true_and] at h
    rw [← h, pending, pending, hcalls]
  have hpcAt : ∀ j, m'.pcAt j = if j = i then some pc else m.pcAt j := by
    intro j
    rw [← Mailbox.pcAt_setPc hi pc j, Mailbox.pcAt, Mailbox.pcAt, hcalls]
  refine ⟨by rw [hcalls, items_setPc hi], by rw [hreceiver], fun env henv => ?_, fun hd => ?_, fun j result hj => ?_,
    fun k hk => ?_, fun j e hj => ?_, fun k => ?_⟩
  · rw [huser] at henv
    split_ifs at henv
    · rcases List.mem_append.mp henv with henv | henv
      · exact Or.inl henv
      · obtain rfl : env = c.item := by simpa using henv
        exact Or.inr ⟨c, hmem, rfl⟩
    · exact Or.inl henv
  · rw [huser, if_neg fun hpc => hopen hpc hd]
  · have hne : j ≠ i := by
      rintro rfl
      rw [Mailbox.pcAt_of_calls hi] at hj
      rw [Option.some.inj hj] at hlive
      cases hlive
    rw [hpcAt, if_neg hne, hj]
  · rw [hrefused] at hk
    split_ifs at hk
    exact List.countP_pos_iff.mpr ⟨c, hmem, by simp [hlive, hk]⟩
  · rw [hpcAt] at hj
    split_ifs at hj with hji
    · cases hj
      right
      rw [hrefused, hji, hi]
      rfl
    · exact Or.inl hj
  · have h := hset k
    rw [hrefused, huser]
    by_cases htx : c.item.tx = some k
    · have hheld : held k (m.user ++ [c.item]) = held k m.user + 1 := by simp [held, htx]
      simp only [htx, beq_self_eq_true, Bool.and_true, if_true] at h ⊢
      cases pc with
      | returned result =>
        cases result with
        | ok u =>
          simp only [SendPc.returns, SendPc.isRefused] at h ⊢
          simp [hheld] at h ⊢
          omega
        | error e =>
          simp [SendPc.returns, SendPc.isRefused] at h ⊢
          omega
      | _ =>
        simp [SendPc.returns, SendPc.isRefused] at h ⊢
        omega
    · have hheld : held k (m.user ++ [c.item]) = held k m.user := by simp [held, htx]
      simp only [beq_eq_false_iff_ne.mpr htx, Bool.and_false] at h
      have hnone : ¬(if pc.isRefused then c.item.tx else none) = some k := by
        split_ifs <;> simp [htx]
      rw [if_neg hnone]
      split_ifs <;> simp at h ⊢ <;> omega

/-- A step that moves no call out of its wait. -/
theorem Carried.same {a : MailboxAct (MessageEnvelope M)} (hitems : m'.calls.map (·.item) = m.calls.map (·.item))
    (hpending : ∀ k, pending k m' = pending k m) (huser : m'.user = m.user)
    (hreceiver : m'.receiver = .dropped ↔ m.receiver = .dropped)
    (hreturned : ∀ j result, m.pcAt j = some (.returned result) → m'.pcAt j = some (.returned result))
    (hturned : ∀ j e, m'.pcAt j = some (.returned (.error e)) → m.pcAt j = some (.returned (.error e)))
    (hrefused : refusedTx m' a = none) : Carried a m m' := by
  refine ⟨hitems, hreceiver, fun env henv => Or.inl (huser ▸ henv), fun _ => huser, hreturned, fun k hk => ?_,
    fun j e hj => Or.inl (hturned j e hj), fun k => ?_⟩
  · rw [hrefused] at hk
    cases hk
  · rw [hrefused, huser, hpending]
    simp

theorem returned_notifyBlockers {j : Nat} {result : Except ActorError Unit} (h : m.pcAt j = some (.returned result)) :
    (m.notifyBlockers limits).pcAt j = some (.returned result) := by
  rcases Mailbox.pcAt_notifyBlockers limits m j with he | he
  · rw [he, h]
  · rw [he, h]
    rfl

theorem Carried.notifyBlockers {a : MailboxAct (MessageEnvelope M)} (h : Carried a m m') :
    Carried a m (m'.notifyBlockers limits) := by
  have hrefused : refusedTx (m'.notifyBlockers limits) a = refusedTx m' a := by
    unfold Mailbox.notifyBlockers
    split
    · cases a with
      | step i =>
        simp only [refusedTx, List.getElem?_map]
        cases m'.calls[i]? <;> simp
      | _ => rfl
    · rfl
  refine ⟨by rw [items_notifyBlockers, h.items], by rw [Mailbox.notifyBlockers_receiver, h.receiver], fun env henv => ?_,
    fun hd => ?_, fun j result hj => returned_notifyBlockers (h.returned j result hj), fun k hk => ?_, fun j e hj => ?_,
    fun k => ?_⟩
  · exact h.user env (by simpa using henv)
  · rw [Mailbox.notifyBlockers_user, h.closed hd]
  · exact h.refused k (by rw [← hk, hrefused])
  · rw [hrefused]
    exact h.turned j e (Mailbox.pcAt_of_notifyBlockers hj)
  · rw [hrefused, pending_notifyBlockers, Mailbox.notifyBlockers_user]
    exact h.count k

/-- A move of call `i` that is its next step. -/
theorem carried_of_sendMove {pc : SendPc} {depth : UInt64} {user : List (MessageEnvelope M)} (guard : Option Nat)
    (hi : m.calls[i]? = some c) (hmove : SendMove limits m c.item c.pc pc depth user) :
    Carried (.step i) m { m.setPc i c pc with depth := depth, guard := guard, user := user } := by
  have hlive : c.pc.returns = false := by
    generalize c.pc = before at hmove
    cases hmove <;> rfl
  refine Carried.move hi rfl rfl hlive (fun _ => rfl) (Or.inl rfl) ?_ ?_
  · show user = _
    generalize c.pc = before at hmove
    cases hmove <;> rfl
  · rintro rfl
    generalize c.pc = before at hmove
    cases hmove with
    | sent hreceiver => exact hreceiver

theorem carried_of_step {a : MailboxAct (MessageEnvelope M)} (ha : a.inner = true)
    (h : mailboxStep limits m a = some m') : Carried a m m' := by
  cases a with
  | call | dequeue | drop => cases ha
  | step i =>
    obtain ⟨c, hi, hc⟩ := Option.bind_eq_some_iff.mp h
    cases sendStep_moves hi hc with
    | @move _ j c' pc depth user guard hj hmove hstep _ _ hguard =>
      obtain rfl : i = j := by simpa using hstep
      exact carried_of_sendMove guard hj hmove
    | @rolledBack _ c' hj hpc =>
      have hreturns : Carried (.step i) m (m.setPc i c' (.returned (.error .actorStopped))) :=
        Carried.move hj rfl rfl (by rw [hpc]; rfl) (fun _ => rfl) (Or.inl rfl) rfl (by simp)
      exact hreturns.notifyBlockers
  | weakFails i =>
    obtain ⟨c, hi, hc⟩ := Option.bind_eq_some_iff.mp h
    split_ifs at hc with hx
    cases hc
    have hlive : c.pc.returns = false := by
      cases hpc : c.pc <;> simp [hpc, SendPc.isCompareExchange] at hx
      rfl
    exact Carried.move hi rfl rfl hlive (by simp [SendPc.isRefused]) (Or.inr rfl) rfl (by simp)
  | cvarWakes i =>
    obtain ⟨c, hi, hc⟩ := Option.bind_eq_some_iff.mp h
    split_ifs at hc with hpc
    cases hc
    exact Carried.move hi rfl rfl (by rw [hpc]; rfl) (by simp [SendPc.isRefused]) (Or.inr rfl) rfl (by simp)
  | release =>
    simp only [mailboxStep] at h
    split_ifs at h with hreceiver hcap <;> cases h
    · exact Carried.same rfl (fun _ => rfl) rfl (by simp [hreceiver]) (fun _ _ hj => hj) (fun _ _ hj => hj) rfl
    · exact Carried.same rfl (fun _ => rfl) rfl (by simp [hreceiver]) (fun _ _ hj => hj) (fun _ _ hj => hj) rfl
  | notify =>
    simp only [mailboxStep] at h
    split_ifs at h with hreceiver
    cases h
    exact Carried.same items_notifyBlockers (fun _ => pending_notifyBlockers) (by simp) (by simp [hreceiver])
      (fun _ _ hj => returned_notifyBlockers hj) (fun _ _ hj => Mailbox.pcAt_of_notifyBlockers hj) rfl

end Mailbox

/-! ## The invariant -/

/-- The channel of the envelope is that of a request for its message. -/
def Known (s : Requests M R) (env : MessageEnvelope M) : Prop :=
  ∀ k, env.tx = some k → ∃ r, s.requests[k]? = some r ∧ r.msg = env.msg

/-- What the caller of request `k` has goes with what became of its envelope. -/
structure Responds (s : Requests M R) (k : Nat) (r : RequestCall M R) : Prop where
  waits : ∀ rx, r.response = some (.receiver rx) ∨ r.response = some (.timedReceiver rx) →
    rx = k ∧ s.mailbox.pcAt r.call = some (.returned (.ok ()))
  ready : ∀ result, r.response = some (.ready result) →
    ∃ e, result = .error (.actor e) ∧ s.mailbox.pcAt r.call = some (.returned (.error e))
  ok : ∀ v, r.result = some (.ok v) → s.channels[k]? = some (.sent v)
  failed : ∀ e, r.result = some (.error (.actor e)) → s.channels[k]? = some .closed

structure Inv (s : Requests M R) : Prop where
  channels : s.channels.length = s.requests.length
  /-- the sender of a channel is in exactly one place until the channel is settled -/
  placed : ∀ k, s.places k = if s.channels[k]?.any Oneshot.isUnset then 1 else 0
  /-- the only call with a channel is the one of its request -/
  called : ∀ (i k : Nat), s.mailbox.calls[i]?.bind (·.item.tx) = some k → ∃ r, s.requests[k]? = some r ∧ r.call = i
  queued : ∀ env ∈ s.mailbox.user, s.Known env
  handled : ∀ env ∈ s.inHand, s.Known env
  sends : ∀ (k : Nat) (r : RequestCall M R), s.requests[k]? = some r →
    s.mailbox.calls[r.call]?.map (·.item) = some ⟨r.msg, some k⟩
  responds : ∀ (k : Nat) (r : RequestCall M R), s.requests[k]? = some r → s.Responds k r
  /-- a request whose envelope was refused has a closed channel -/
  refused : ∀ (k : Nat) (r : RequestCall M R) e, s.requests[k]? = some r →
    s.mailbox.pcAt r.call = some (.returned (.error e)) → s.channels[k]? = some .closed
  gone : s.mailbox.receiver = .dropped → s.mailbox.user = [] ∧ s.inHand = none

variable {limits : MailboxLimits} {s s' : Requests M R} {k : Nat}

theorem inv_init : Inv ({} : Requests M R) := by
  refine ⟨rfl, ?_, ?_, ?_, ?_, ?_, ?_, ?_, ?_⟩
  · intro k
    simp [places, pending, held]
  · simp
  · simp
  · simp
  · simp
  · simp
  · simp
  · simp

theorem Inv.known_call (h : s.Inv) {c : SendCall (MessageEnvelope M)} (hc : c ∈ s.mailbox.calls) : s.Known c.item := by
  intro k hk
  obtain ⟨i, hi⟩ := List.getElem?_of_mem hc
  obtain ⟨r, hr, rfl⟩ := h.called i k (by rw [hi, Option.bind_some, hk])
  have hsend := h.sends k r hr
  rw [hi, Option.map_some, Option.some.injEq] at hsend
  exact ⟨r, hr, by rw [hsend]⟩

theorem Inv.places_le (h : s.Inv) (k : Nat) : s.places k ≤ 1 := by
  rw [h.placed k]
  split_ifs <;> omega

theorem Inv.empty_of_places (h : s.Inv) (hk : 0 < s.places k) : s.channels[k]? = some .empty := by
  have hplaced := h.placed k
  cases hch : s.channels[k]? with
  | none =>
    simp [hch] at hplaced
    omega
  | some ch =>
    cases ch with
    | empty => rfl
    | sent v =>
      simp [hch, Oneshot.isUnset] at hplaced
      omega
    | closed =>
      simp [hch, Oneshot.isUnset] at hplaced
      omega

/-- The senders of the channels in `D` leave their places, and settle their channels. -/
theorem Inv.settle (h : s.Inv) {D : Nat → Prop} [DecidablePred D] (ch : Nat → Oneshot R)
    (hrequests : s'.requests = s.requests)
    (hitems : s'.mailbox.calls.map (·.item) = s.mailbox.calls.map (·.item))
    (hreturned : ∀ j result, s.mailbox.pcAt j = some (.returned result) → s'.mailbox.pcAt j = some (.returned result))
    (hchannels : ∀ k, s'.channels[k]? = if D k then s.channels[k]?.map fun _ => ch k else s.channels[k]?)
    (hlength : s'.channels.length = s.channels.length) (hch : ∀ k, D k → (ch k).isUnset = false)
    (hplaces : ∀ k, s'.places k + (if D k then 1 else 0) = s.places k)
    (hrefused : ∀ j e, s'.mailbox.pcAt j = some (.returned (.error e)) → s.mailbox.pcAt j = some (.returned (.error e)) ∨
      ∀ k, s.mailbox.calls[j]?.bind (·.item.tx) = some k → D k ∧ ch k = .closed)
    (hqueued : ∀ env ∈ s'.mailbox.user, s.Known env) (hhandled : ∀ env ∈ s'.inHand, s.Known env)
    (hgone : s'.mailbox.receiver = .dropped → s'.mailbox.user = [] ∧ s'.inHand = none) : s'.Inv := by
  have hempty : ∀ k, D k → s.channels[k]? = some .empty := by
    intro k hk
    have hk' := hplaces k
    rw [if_pos hk] at hk'
    exact h.empty_of_places (by omega)
  -- a channel that is settled stays as it is
  have hkept : ∀ (k : Nat) (c : Oneshot R), s.channels[k]? = some c → c.isUnset = false → s'.channels[k]? = some c := by
    intro k c hc hne
    rw [hchannels, if_neg, hc]
    intro hk
    rw [hempty k hk] at hc
    cases hc
    cases hne
  have hknown : ∀ env, s.Known env → s'.Known env := by
    intro env henv
    unfold Known
    rw [hrequests]
    exact henv
  refine ⟨by rw [hlength, hrequests, h.channels], fun k => ?_, fun i k hk => ?_,
    fun env henv => hknown env (hqueued env henv), fun env henv => hknown env (hhandled env henv),
    fun k r hr => ?_, fun k r hr => ?_, fun k r e hr hpc => ?_, hgone⟩
  · have hk := hplaces k
    rw [hchannels]
    by_cases hD : D k
    · have hpl := h.placed k
      rw [hempty k hD] at hpl ⊢
      simp [Oneshot.isUnset] at hpl
      simp [hD, hch k hD] at hk ⊢
      omega
    · rw [if_neg hD] at hk ⊢
      rw [← h.placed k]
      omega
  · have hitem := congrArg (·[i]?.bind (·.tx)) hitems
    simp only [List.getElem?_map, Option.bind_map, Function.comp_def] at hitem
    rw [hrequests]
    exact h.called i k (hitem ▸ hk)
  · have hsend := h.sends k r (hrequests ▸ hr)
    rw [← List.getElem?_map, hitems, List.getElem?_map]
    exact hsend
  · have hresp := h.responds k r (hrequests ▸ hr)
    refine ⟨fun rx hrx => ?_, fun result hres => ?_, fun v hv => ?_, fun e he => ?_⟩
    · obtain ⟨rfl, hpc⟩ := hresp.waits rx hrx
      exact ⟨rfl, hreturned _ _ hpc⟩
    · obtain ⟨e, rfl, hpc⟩ := hresp.ready result hres
      exact ⟨e, rfl, hreturned _ _ hpc⟩
    · exact hkept k _ (hresp.ok v hv) rfl
    · exact hkept k _ (hresp.failed e he) rfl
  · rw [hrequests] at hr
    rcases hrefused _ _ hpc with hold | hnew
    · exact hkept k _ (h.refused k r e hr hold) rfl
    · have htx : s.mailbox.calls[r.call]?.bind (·.item.tx) = some k := by
        obtain ⟨c, hc, hitem⟩ := Option.map_eq_some_iff.mp (h.sends k r hr)
        rw [hc, Option.bind_some, hitem]
      obtain ⟨hk, hclosed⟩ := hnew k htx
      rw [hchannels, if_pos hk, hempty k hk, Option.map_some, hclosed]

/-- Request `k` comes to hold something else. -/
theorem Inv.setRequest (h : s.Inv) {r r' : RequestCall M R} (hr : s.requests[k]? = some r) (hmsg : r'.msg = r.msg)
    (hcall : r'.call = r.call) (hresp : s.Responds k r') : (s.setRequest k r').Inv := by
  have hback : ∀ (j : Nat) (q : RequestCall M R), (s.requests.set k r')[j]? = some q →
      ∃ p, s.requests[j]? = some p ∧ q.msg = p.msg ∧ q.call = p.call := by
    intro j q hq
    rcases getElem?_set_cases hr hq with ⟨rfl, rfl⟩ | ⟨-, hq⟩
    · exact ⟨r, hr, hmsg, hcall⟩
    · exact ⟨q, hq, rfl, rfl⟩
  have hknown : ∀ env, s.Known env → (s.setRequest k r').Known env := by
    intro env henv j hj
    obtain ⟨p, hp, hpmsg⟩ := henv j hj
    by_cases hjk : j = k
    · subst hjk
      rw [hr] at hp
      cases hp
      exact ⟨r', List.getElem?_set_self (List.getElem?_eq_some_iff.mp hr).1, by rw [hmsg, hpmsg]⟩
    · exact ⟨p, (List.getElem?_set_ne (Ne.symm hjk)).trans hp, hpmsg⟩
  refine ⟨?_, h.placed, fun i j hj => ?_, fun env henv => hknown _ (h.queued env henv),
    fun env henv => hknown _ (h.handled env henv), fun j q hq => ?_, fun j q hq => ?_, fun j q e hq hpc => ?_, h.gone⟩
  · simpa [Requests.setRequest] using h.channels
  · obtain ⟨p, hp, rfl⟩ := h.called i j hj
    by_cases hjk : j = k
    · subst hjk
      rw [hr] at hp
      cases hp
      exact ⟨r', List.getElem?_set_self (List.getElem?_eq_some_iff.mp hr).1, hcall⟩
    · exact ⟨p, (List.getElem?_set_ne (Ne.symm hjk)).trans hp, rfl⟩
  · obtain ⟨p, hp, hpmsg, hpcall⟩ := hback j q hq
    rw [hpmsg, hpcall]
    exact h.sends j p hp
  · rcases getElem?_set_cases hr hq with ⟨rfl, rfl⟩ | ⟨-, hq⟩
    · exact ⟨hresp.waits, hresp.ready, hresp.ok, hresp.failed⟩
    · have hold := h.responds j q hq
      exact ⟨hold.waits, hold.ready, hold.ok, hold.failed⟩
  · obtain ⟨p, hp, -, hpcall⟩ := hback j q hq
    rw [hpcall] at hpc
    exact h.refused j p e hp hpc

/-! ## Every step keeps it -/

theorem entry_not_returned (limits : MailboxLimits) : limits.entry.returns = false := by
  unfold MailboxLimits.entry
  split <;> rfl

@[simp] theorem post_user (item : MessageEnvelope M) : (s.post limits item).user = s.mailbox.user := rfl

theorem pending_post (item : MessageEnvelope M) :
    pending k (s.post limits item) = pending k s.mailbox + if item.tx == some k then 1 else 0 := by
  simp [pending, post, entry_not_returned, List.countP_append, List.countP_cons]

/-- A call that was there before a new one. -/
theorem Inv.call_lt (h : s.Inv) {r : RequestCall M R} (hr : s.requests[k]? = some r) : r.call < s.mailbox.calls.length := by
  obtain ⟨c, hc, -⟩ := Option.map_eq_some_iff.mp (h.sends k r hr)
  exact (List.getElem?_eq_some_iff.mp hc).1

theorem pcAt_post {i : Nat} (hi : i < s.mailbox.calls.length) (item : MessageEnvelope M) :
    (s.post limits item).pcAt i = s.mailbox.pcAt i := by
  simp [Mailbox.pcAt, post, List.getElem?_append_left hi]

/-- What an old request has is as before. -/
theorem Inv.old (h : s.Inv) (item : MessageEnvelope M) {channels : List (Oneshot R)} {requests : List (RequestCall M R)}
    (hch : ∀ ch, s.channels[k]? = some ch → channels[k]? = some ch) {r : RequestCall M R} (hr : s.requests[k]? = some r) :
    Responds { s with mailbox := s.post limits item, channels, requests } k r := by
  have hresp := h.responds k r hr
  have hpc : (s.post limits item).pcAt r.call = s.mailbox.pcAt r.call := pcAt_post (h.call_lt hr) item
  refine ⟨fun rx hrx => ?_, fun result hres => ?_, fun v hv => hch _ (hresp.ok v hv), fun e he => hch _ (hresp.failed e he)⟩
  · rw [hpc]
    exact hresp.waits rx hrx
  · rw [hpc]
    exact hresp.ready result hres

theorem Inv.send (h : s.Inv) (msg : M) : Inv { s with mailbox := s.post limits { msg } } := by
  refine ⟨h.channels, fun k => ?_, fun i k hk => ?_, h.queued, h.handled, fun k r hr => ?_,
    fun k r hr => h.old _ (fun _ hch => hch) hr, fun k r e hr hpc => ?_, h.gone⟩
  · rw [← h.placed k, places, places, pending_post]
    rfl
  · obtain ⟨c, hc, htx⟩ := Option.bind_eq_some_iff.mp hk
    rcases getElem?_snoc_cases hc with hc | ⟨rfl, rfl⟩
    · exact h.called i k (by rw [hc, Option.bind_some, htx])
    · cases htx
  · rw [post, List.getElem?_append_left (h.call_lt hr)]
    exact h.sends k r hr
  · rw [pcAt_post (h.call_lt hr)] at hpc
    exact h.refused k r e hr hpc

theorem Inv.request (h : s.Inv) (msg : M) (timed : Bool) :
    Inv { s with
      mailbox := s.post limits { msg, tx := some s.requests.length }
      channels := s.channels ++ [.empty]
      requests := s.requests ++ [{ msg, call := s.mailbox.calls.length, timed }] } := by
  have hknown : ∀ env, s.Known env → ∀ k, env.tx = some k →
      ∃ r, (s.requests ++ [({ msg, call := s.mailbox.calls.length, timed } : RequestCall M R)])[k]? = some r ∧
        r.msg = env.msg := by
    intro env henv k hk
    obtain ⟨r, hr, hmsg⟩ := henv k hk
    exact ⟨r, (List.getElem?_append_left (List.getElem?_eq_some_iff.mp hr).1).trans hr, hmsg⟩
  have hch : ∀ (k : Nat) ch, s.channels[k]? = some ch → (s.channels ++ [.empty])[k]? = some ch := by
    intro k ch hk
    exact (List.getElem?_append_left (List.getElem?_eq_some_iff.mp hk).1).trans hk
  refine ⟨?_, fun k => ?_, fun i k hk => ?_, fun env henv => hknown env (h.queued env henv),
    fun env henv => hknown env (h.handled env henv), fun k r hr => ?_, fun k r hr => ?_, fun k r e hr hpc => ?_, h.gone⟩
  · simp [h.channels]
  · have hold := h.placed k
    simp only [places, pending_post, post_user] at hold ⊢
    rcases Nat.lt_trichotomy k s.requests.length with hlt | rfl | hgt
    · rw [List.getElem?_append_left (h.channels ▸ hlt)]
      have hne : (some s.requests.length == some k) = false := by simp; omega
      simp only [hne]
      simpa using hold
    · have hnone : s.channels[s.requests.length]? = none := List.getElem?_eq_none (h.channels ▸ Nat.le_refl _)
      rw [hnone] at hold
      rw [← h.channels, List.getElem?_concat_length]
      simp [Oneshot.isUnset] at hold ⊢
      rw [h.channels]
      omega
    · have hnone : s.channels[k]? = none := List.getElem?_eq_none (by rw [h.channels]; omega)
      have hnone' : (s.channels ++ [Oneshot.empty])[k]? = none :=
        List.getElem?_eq_none (by rw [List.length_append, h.channels, List.length_singleton]; omega)
      have hne : (some s.requests.length == some k) = false := by simp; omega
      rw [hnone] at hold
      rw [hnone']
      simp only [hne]
      simpa using hold
  · obtain ⟨c, hc, htx⟩ := Option.bind_eq_some_iff.mp hk
    rcases getElem?_snoc_cases hc with hc | ⟨rfl, rfl⟩
    · obtain ⟨r, hr, hcall⟩ := h.called i k (by rw [hc, Option.bind_some, htx])
      exact ⟨r, (List.getElem?_append_left (List.getElem?_eq_some_iff.mp hr).1).trans hr, hcall⟩
    · cases htx
      exact ⟨_, List.getElem?_concat_length, rfl⟩
  · rcases getElem?_snoc_cases hr with hr | ⟨rfl, rfl⟩
    · rw [post, List.getElem?_append_left (h.call_lt hr)]
      exact h.sends k r hr
    · simp [post]
  · rcases getElem?_snoc_cases hr with hr | ⟨rfl, rfl⟩
    · exact h.old _ (hch k) hr
    · refine ⟨?_, ?_, ?_, ?_⟩ <;> simp
  · rcases getElem?_snoc_cases hr with hr | ⟨rfl, rfl⟩
    · rw [pcAt_post (h.call_lt hr)] at hpc
      exact hch k _ (h.refused k r e hr hpc)
    · -- the new call has not returned
      simp only [post, Mailbox.pcAt, List.getElem?_concat_length, Option.map_some, Option.some.injEq] at hpc
      have hentry := entry_not_returned limits
      rw [hpc] at hentry
      cases hentry

theorem getElem?_dropTx (channels : List (Oneshot R)) (tx : Option Nat) (k : Nat) :
    (dropTx channels tx)[k]? = if tx = some k then channels[k]?.map fun _ => .closed else channels[k]? := by
  cases tx with
  | none => rfl
  | some j =>
    by_cases hjk : j = k
    · subst hjk
      simp [dropTx, List.getElem?_set]
      split <;> simp_all
    · simp [dropTx, hjk]

theorem length_dropTx (channels : List (Oneshot R)) (tx : Option Nat) : (dropTx channels tx).length = channels.length := by
  cases tx <;> simp [dropTx]

/-- The channels after all envelopes of the mailbox were dropped. -/
theorem getElem?_foldl_dropTx (envs : List (MessageEnvelope M)) (channels : List (Oneshot R)) (k : Nat) :
    (envs.foldl (fun channels env => dropTx channels env.tx) channels)[k]? =
      if 0 < held k envs then channels[k]?.map fun _ => .closed else channels[k]? := by
  induction envs generalizing channels with
  | nil => simp [held]
  | cons env envs ih =>
    have hheld : held k (env :: envs) = held k envs + if env.tx = some k then 1 else 0 := by
      simp [held, List.countP_cons]
    rw [List.foldl_cons, ih, getElem?_dropTx, hheld]
    by_cases htx : env.tx = some k
    · simp [htx, Function.comp_def]
    · simp [htx]

theorem length_foldl_dropTx (envs : List (MessageEnvelope M)) (channels : List (Oneshot R)) :
    (envs.foldl (fun channels env => dropTx channels env.tx) channels).length = channels.length := by
  induction envs generalizing channels with
  | nil => rfl
  | cons env envs ih => rw [List.foldl_cons, ih, length_dropTx]

theorem Inv.mailbox (h : s.Inv) {a : MailboxAct (MessageEnvelope M)} {m : Mailbox (MessageEnvelope M)}
    (ha : a.inner = true) (hstep : mailboxStep limits s.mailbox a = some m) :
    Inv { s with mailbox := m, channels := dropTx s.channels (refusedTx m a) } := by
  have hc := carried_of_step ha hstep
  refine h.settle (D := fun k => refusedTx m a = some k) (fun _ => .closed) rfl hc.items hc.returned
    (getElem?_dropTx _ _) (length_dropTx _ _) (fun _ _ => rfl) (fun k => ?_) (fun j e hj => ?_) (fun env henv => ?_)
    h.handled fun hd => ?_
  · have hcount := hc.count k
    simp only [places]
    omega
  · rcases hc.turned j e hj with hold | hnew
    · exact Or.inl hold
    · exact Or.inr fun k hk => ⟨hnew.trans hk, rfl⟩
  · rcases hc.user env henv with henv | ⟨c, hcall, rfl⟩
    · exact h.queued env henv
    · exact h.known_call hcall
  · have hold := hc.receiver.mp hd
    refine ⟨?_, (h.gone hold).2⟩
    rw [hc.closed hold]
    exact (h.gone hold).1

theorem Inv.dequeue (h : s.Inv) {env : MessageEnvelope M} {rest : List (MessageEnvelope M)} {m : Mailbox (MessageEnvelope M)}
    (huser : s.mailbox.user = env :: rest) (hnone : s.inHand = none)
    (hstep : mailboxStep limits s.mailbox .dequeue = some m) : Inv { s with mailbox := m, inHand := some env } := by
  simp only [mailboxStep, huser] at hstep
  split_ifs at hstep with hreceiver
  cases hstep
  refine h.settle (D := fun _ => False) (fun _ => .closed) rfl rfl (fun _ _ hj => hj) (fun k => by simp) rfl (by simp)
    (fun k => ?_) (fun _ _ hj => Or.inl hj) (fun e he => h.queued e (huser ▸ List.mem_cons_of_mem _ he)) (fun e he => ?_)
    (by simp)
  · simp [places, huser, hnone, held, pending, List.countP_cons]
    omega
  · obtain rfl : env = e := by simpa using he
    exact h.queued env (huser ▸ List.mem_cons_self)

/-- The handler is done with the envelope in hand, and its channel is settled by `ch`. -/
theorem Inv.finish (h : s.Inv) {env : MessageEnvelope M} (left : Bool) {channels : List (Oneshot R)} (ch : Oneshot R)
    (hhand : s.inHand = some env) (hreceiver : s.mailbox.receiver = .recv) (hch : ch.isUnset = false)
    (hchannels : ∀ k, channels[k]? = if env.tx = some k then s.channels[k]?.map fun _ => ch else s.channels[k]?)
    (hlength : channels.length = s.channels.length) : Inv { s with inHand := none, left, channels } := by
  refine h.settle (D := fun k => env.tx = some k) (fun _ => ch) rfl rfl (fun _ _ hj => hj) hchannels hlength
    (fun _ _ => hch) (fun k => ?_) (fun _ _ hj => Or.inl hj) h.queued (by simp) fun hd => ?_
  · simp [places, hhand, held, List.countP_cons]
  · rw [hreceiver] at hd
    cases hd

theorem Inv.dropReceiver (h : s.Inv) {m : Mailbox (MessageEnvelope M)} (hnone : s.inHand = none)
    (hstep : mailboxStep limits s.mailbox .drop = some m) :
    Inv { s with
      mailbox := m
      channels := s.mailbox.user.foldl (fun channels env => dropTx channels env.tx) s.channels } := by
  simp only [mailboxStep] at hstep
  split_ifs at hstep with hreceiver
  cases hstep
  refine h.settle (D := fun k => 0 < held k s.mailbox.user) (fun _ => .closed) rfl rfl (fun _ _ hj => hj)
    (getElem?_foldl_dropTx _ _) (length_foldl_dropTx _ _) (fun _ _ => rfl) (fun k => ?_) (fun _ _ hj => Or.inl hj) (by simp)
    h.handled fun _ => ⟨rfl, hnone⟩
  -- no channel has its sender in the mailbox twice
  have hle := h.places_le k
  by_cases hpos : 0 < held k s.mailbox.user
  · rw [if_pos hpos]
    simp only [places, hnone, Option.toList_none, held, pending, List.countP_nil] at hle hpos ⊢
    omega
  · rw [if_neg hpos]
    simp only [places, hnone, Option.toList_none, held, pending, List.countP_nil] at hpos ⊢
    omega

/-- `request_raw` has returned, and the caller made a response of it. -/
theorem Inv.raw (h : s.Inv) {r : RequestCall M R} {result : Except ActorError Unit} (hr : s.requests[k]? = some r)
    (hpc : s.mailbox.pcAt r.call = some (.returned result)) (timed : Bool) :
    Responds s k { r with
      response := some (if timed then Response.fromWithTimeout (result.map fun _ => k)
        else Response.ofResult (result.map fun _ => k)) } := by
  have hresp := h.responds k r hr
  refine ⟨fun rx hrx => ?_, fun res hres => ?_, hresp.ok, hresp.failed⟩
  · cases result with
    | ok u =>
      refine ⟨?_, hpc⟩
      cases timed <;> simpa [Response.fromWithTimeout, Response.ofResult, Except.map, eq_comm] using hrx
    | error e => cases timed <;> simp [Response.fromWithTimeout, Response.ofResult, Except.map] at hrx
  · cases result with
    | ok u => cases timed <;> simp [Response.fromWithTimeout, Response.ofResult, Except.map] at hres
    | error e =>
      refine ⟨e, ?_, hpc⟩
      cases timed <;> simpa [Response.fromWithTimeout, Response.ofResult, Except.map, eq_comm] using hres

/-- What a poll yields, and that nothing is yielded twice: a response that has yielded is done. -/
theorem poll_cases {channels : List (Oneshot R)} {elapsed : Bool} {response response' : Response R}
    {out : Option (Except RequestError R)} (h : response.poll channels elapsed = some (response', out)) :
    (response' = response ∧ out = none) ∨
      (response' = .done ∧ ((∃ result, response = .ready result ∧ out = some result) ∨
        ∃ rx, (response = .receiver rx ∨ response = .timedReceiver rx) ∧
          (out = Response.recv (channels.getD rx .closed) ∨ out = some (.error .requestTimeout)))) := by
  cases response with
  | receiver rx =>
    simp only [Response.poll] at h
    split at h
    case h_1 result hrecv =>
      cases h
      exact Or.inr ⟨rfl, Or.inr ⟨rx, Or.inl rfl, Or.inl hrecv.symm⟩⟩
    case h_2 =>
      cases h
      exact Or.inl ⟨rfl, rfl⟩
  | timedReceiver rx =>
    simp only [Response.poll] at h
    split at h
    case h_1 result hrecv =>
      cases h
      exact Or.inr ⟨rfl, Or.inr ⟨rx, Or.inr rfl, Or.inl hrecv.symm⟩⟩
    case h_2 =>
      split_ifs at h
      · cases h
        exact Or.inr ⟨rfl, Or.inr ⟨rx, Or.inr rfl, Or.inr rfl⟩⟩
      · cases h
        exact Or.inl ⟨rfl, rfl⟩
  | ready result =>
    cases h
    exact Or.inr ⟨rfl, Or.inl ⟨result, rfl, rfl⟩⟩
  | done => cases h

theorem Inv.poll (h : s.Inv) {r : RequestCall M R} {response response' : Response R} {elapsed : Bool}
    {out : Option (Except RequestError R)} (hr : s.requests[k]? = some r) (hresponse : r.response = some response)
    (hpoll : response.poll s.channels elapsed = some (response', out)) :
    Responds s k { r with response := some response', result := out } := by
  have hresp := h.responds k r hr
  rcases poll_cases hpoll with ⟨rfl, rfl⟩ | ⟨rfl, ⟨result, rfl, rfl⟩ | ⟨rx, hrx, hout⟩⟩
  · refine ⟨fun rx hrx => hresp.waits rx ?_, fun result hres => hresp.ready result ?_, by simp, by simp⟩
    · rw [hresponse]
      exact hrx
    · rw [hresponse]
      exact hres
  · obtain ⟨e, rfl, hpc⟩ := hresp.ready result hresponse
    exact ⟨by simp, by simp, by simp, fun _ _ => h.refused k r e hr hpc⟩
  · obtain ⟨rfl, -⟩ := hresp.waits rx (by rw [hresponse]; simpa using hrx)
    have hlt : rx < s.channels.length := by
      rw [h.channels]
      exact (List.getElem?_eq_some_iff.mp hr).1
    refine ⟨by simp, by simp, fun v hv => ?_, fun e he => ?_⟩
    · cases hch : s.channels[rx] <;> rcases hout with rfl | rfl <;>
        simp_all [List.getD_eq_getElem?_getD, Response.recv]
    · cases hch : s.channels[rx] <;> rcases hout with rfl | rfl <;>
        simp_all [List.getD_eq_getElem?_getD, Response.recv]

/-- A step, case by case. The last case is for all that a caller does with its response. -/
inductive Moved (limits : MailboxLimits) (s : Requests M R) : RequestAct M R → Requests M R → Prop
  | send (msg : M) : Moved limits s (.send msg) { s with mailbox := s.post limits { msg } }
  | request (msg : M) (timed : Bool) :
      Moved limits s (.request msg timed) { s with
        mailbox := s.post limits { msg, tx := some s.requests.length }
        channels := s.channels ++ [.empty]
        requests := s.requests ++ [{ msg, call := s.mailbox.calls.length, timed }] }
  | mailbox {a : MailboxAct (MessageEnvelope M)} {m : Mailbox (MessageEnvelope M)} (ha : a.inner = true)
      (hm : mailboxStep limits s.mailbox a = some m) :
      Moved limits s (.mailbox a) { s with mailbox := m, channels := dropTx s.channels (refusedTx m a) }
  | dequeue {env : MessageEnvelope M} {rest : List (MessageEnvelope M)} {m : Mailbox (MessageEnvelope M)}
      (huser : s.mailbox.user = env :: rest) (hfree : s.inHand = none)
      (hm : mailboxStep limits s.mailbox .dequeue = some m) :
      Moved limits s .dequeue { s with mailbox := m, inHand := some env }
  | returns (result : R) {env : MessageEnvelope M} (hhand : s.inHand = some env) (hreceiver : s.mailbox.receiver = .recv) :
      Moved limits s (.returns result) { s with
        inHand := none
        channels := env.tx.elim s.channels fun k => s.channels.set k (.sent result) }
  | panics {env : MessageEnvelope M} (hhand : s.inHand = some env) (hreceiver : s.mailbox.receiver = .recv) :
      Moved limits s .panics { s with inHand := none, left := true, channels := dropTx s.channels env.tx }
  | leave : Moved limits s .leave { s with left := true }
  | dropReceiver {m : Mailbox (MessageEnvelope M)} (hfree : s.inHand = none)
      (hm : mailboxStep limits s.mailbox .drop = some m) :
      Moved limits s .dropReceiver { s with
        mailbox := m
        channels := s.mailbox.user.foldl (fun channels env => dropTx channels env.tx) s.channels }
  | caller {a : RequestAct M R} {k : Nat} {r r' : RequestCall M R} (hr : s.requests[k]? = some r) (hmsg : r'.msg = r.msg)
      (hcall : r'.call = r.call) (hresp : s.Inv → s.Responds k r') (ha : ∀ result, a ≠ .returns result) :
      Moved limits s a (s.setRequest k r')

theorem step_moves {a : RequestAct M R} (hstep : Step limits s a s') : Moved limits s a s' := by
  unfold Step at hstep
  cases a with
  | send msg =>
    cases hstep
    exact .send msg
  | request msg timed =>
    cases hstep
    exact .request msg timed
  | mailbox a =>
    obtain ⟨ha, hstep⟩ := Option.ite_none_right_eq_some.mp hstep
    obtain ⟨m, hm, rfl⟩ := Option.map_eq_some_iff.mp hstep
    exact .mailbox ha hm
  | dequeue =>
    simp only [next] at hstep
    split at hstep
    case h_1 => cases hstep
    case h_2 env rest huser =>
      obtain ⟨hfree, hstep⟩ := Option.ite_none_right_eq_some.mp hstep
      obtain ⟨m, hm, rfl⟩ := Option.map_eq_some_iff.mp hstep
      exact .dequeue huser (Option.isNone_iff_eq_none.mp hfree.1) hm
  | returns result =>
    simp only [next] at hstep
    split at hstep
    case h_1 env hhand =>
      obtain ⟨hreceiver, hstep⟩ := Option.ite_none_right_eq_some.mp hstep
      cases hstep
      exact .returns result hhand hreceiver
    case h_2 => cases hstep
  | panics =>
    simp only [next] at hstep
    split at hstep
    case h_1 env hhand =>
      obtain ⟨hreceiver, hstep⟩ := Option.ite_none_right_eq_some.mp hstep
      cases hstep
      exact .panics hhand hreceiver
    case h_2 => cases hstep
  | leave =>
    obtain ⟨-, hstep⟩ := Option.ite_none_right_eq_some.mp hstep
    cases hstep
    exact .leave
  | dropReceiver =>
    obtain ⟨hfree, hstep⟩ := Option.ite_none_right_eq_some.mp hstep
    obtain ⟨m, hm, rfl⟩ := Option.map_eq_some_iff.mp hstep
    exact .dropReceiver (Option.isNone_iff_eq_none.mp hfree.2) hm
  | raw k =>
    obtain ⟨r, hr, hstep⟩ := Option.bind_eq_some_iff.mp hstep
    split at hstep
    case h_1 result hnone hpc =>
      cases hstep
      exact .caller hr rfl rfl (fun h => h.raw hr hpc r.timed) (by simp)
    case h_2 => cases hstep
  | poll k elapsed =>
    obtain ⟨r, hr, hstep⟩ := Option.bind_eq_some_iff.mp hstep
    obtain ⟨response, hresponse, hstep⟩ := Option.bind_eq_some_iff.mp hstep
    obtain ⟨⟨response', out⟩, hpoll, rfl⟩ := Option.map_eq_some_iff.mp hstep
    exact .caller hr rfl rfl (fun h => h.poll hr hresponse hpoll) (by simp)
  | abandon k =>
    obtain ⟨r, hr, hstep⟩ := Option.bind_eq_some_iff.mp hstep
    obtain ⟨response, -, rfl⟩ := Option.map_eq_some_iff.mp hstep
    refine .caller hr rfl rfl (fun h => ?_) (by simp)
    exact ⟨by simp, by simp, (h.responds k r hr).ok, (h.responds k r hr).failed⟩

/-- The channels when the handler has returned. -/
theorem getElem?_sent (channels : List (Oneshot R)) (tx : Option Nat) (result : R) (k : Nat) :
    (tx.elim channels fun j => channels.set j (.sent result))[k]? =
      if tx = some k then channels[k]?.map fun _ => .sent result else channels[k]? := by
  cases tx with
  | none => rfl
  | some j =>
    by_cases hjk : j = k
    · subst hjk
      simp only [Option.elim_some, if_true, List.getElem?_set]
      split <;> simp_all
    · simp [hjk]

theorem Inv.step (h : s.Inv) {a : RequestAct M R} (hstep : Step limits s a s') : s'.Inv := by
  cases step_moves hstep with
  | send msg => exact h.send msg
  | request msg timed => exact h.request msg timed
  | mailbox ha hm => exact h.mailbox ha hm
  | dequeue huser hfree hm => exact h.dequeue huser hfree hm
  | @returns result env hhand hreceiver =>
    exact h.finish s.left (.sent result) hhand hreceiver rfl (getElem?_sent _ _ _) (by cases env.tx <;> simp)
  | panics hhand hreceiver =>
    exact h.finish true .closed hhand hreceiver rfl (getElem?_dropTx _ _) (length_dropTx _ _)
  | leave =>
    refine ⟨h.channels, h.placed, h.called, h.queued, h.handled, h.sends, fun k r hr => ?_, h.refused, h.gone⟩
    have hresp := h.responds k r hr
    exact ⟨hresp.waits, hresp.ready, hresp.ok, hresp.failed⟩
  | dropReceiver hfree hm => exact h.dropReceiver hfree hm
  | caller hr hmsg hcall hresp _ => exact h.setRequest hr hmsg hcall (hresp h)

theorem inv_run {τ : List (Requests M R × RequestAct M R)} (h : Run (Step limits) {} τ s) : s.Inv :=
  h.inv inv_init fun _ _ _ hs hstep => hs.step hstep

/-! ## What the handler has replied -/

/-- What a step sends to channel `k`. -/
def replyTo (k : Nat) (x : Requests M R × RequestAct M R) : Option R :=
  match x.2 with
  | .returns result => if x.1.inHand.bind (·.tx) = some k then some result else none
  | _ => none

/-- What the handler has returned for request `k`. -/
def repliesTo (τ : List (Requests M R × RequestAct M R)) (k : Nat) : List R := τ.filterMap (replyTo k)

/-- What is in a channel, if there is one. -/
def content : Option (Oneshot R) → List R
  | some (.sent v) => [v]
  | _ => []

/-- Dropping the senders of channels that are not settled leaves what is in the channels. -/
theorem content_closed {D : Prop} [Decidable D] {ch : Option (Oneshot R)} (h : D → ch = some .empty) :
    content (if D then ch.map fun _ => .closed else ch) = content ch := by
  split_ifs with hD
  · rw [h hD]
    rfl
  · rfl

theorem Inv.empty_of_hand (h : s.Inv) {env : MessageEnvelope M} (hhand : s.inHand = some env) (htx : env.tx = some k) :
    s.channels[k]? = some .empty := by
  refine h.empty_of_places ?_
  simp [places, hhand, held, htx]

/-- A step puts its reply into the channel, and no step takes one out. -/
theorem Inv.content_step (h : s.Inv) {a : RequestAct M R} (hstep : Step limits s a s') (k : Nat) :
    content s'.channels[k]? = content s.channels[k]? ++ (replyTo k (s, a)).toList := by
  cases step_moves hstep with
  | send | dequeue | leave => simp [replyTo]
  | request msg timed =>
    simp only [replyTo, Option.toList_none, List.append_nil]
    rcases Nat.lt_or_ge k s.channels.length with hlt | hge
    · rw [List.getElem?_append_left hlt]
    · rw [List.getElem?_append_right hge, List.getElem?_eq_none hge, List.getElem?_singleton]
      split_ifs <;> rfl
  | mailbox ha hm =>
    simp only [replyTo, Option.toList_none, List.append_nil]
    rw [getElem?_dropTx]
    refine content_closed fun htx => h.empty_of_places ?_
    have hpos := (carried_of_step ha hm).refused k htx
    simp only [places]
    omega
  | @returns result env hhand =>
    rw [getElem?_sent]
    by_cases htx : env.tx = some k
    · rw [h.empty_of_hand hhand htx]
      simp [replyTo, hhand, htx, content]
    · simp [replyTo, hhand, htx]
  | panics hhand =>
    simp only [replyTo, Option.toList_none, List.append_nil]
    rw [getElem?_dropTx]
    exact content_closed fun htx => h.empty_of_hand hhand htx
  | dropReceiver =>
    simp only [replyTo, Option.toList_none, List.append_nil]
    rw [getElem?_foldl_dropTx]
    refine content_closed fun hpos => h.empty_of_places ?_
    simp only [places]
    omega
  | caller _ _ _ _ ha =>
    have hnone : replyTo k (s, a) = none := by
      unfold replyTo
      split
      case h_1 result hresult => exact absurd hresult (ha result)
      case h_2 => rfl
    rw [hnone, Option.toList_none, List.append_nil]
    rfl

/-- Requests stay, with their message. -/
theorem known_step {a : RequestAct M R} (hstep : Step limits s a s') {env : MessageEnvelope M} (h : s.Known env) :
    s'.Known env := by
  intro k hk
  obtain ⟨r, hr, hmsg⟩ := h k hk
  cases step_moves hstep with
  | request msg timed => exact ⟨r, (List.getElem?_append_left (List.getElem?_eq_some_iff.mp hr).1).trans hr, hmsg⟩
  | @caller _ j p q hp hq _ _ _ =>
    by_cases hjk : j = k
    · subst hjk
      rw [hp] at hr
      cases hr
      exact ⟨q, List.getElem?_set_self (List.getElem?_eq_some_iff.mp hp).1, by rw [hq, hmsg]⟩
    · exact ⟨r, (List.getElem?_set_ne hjk).trans hr, hmsg⟩
  | _ => exact ⟨r, hr, hmsg⟩

/-- What a run has replied is what is in the channels, and what was in hand was the message of its request. -/
theorem content_run {τ : List (Requests M R × RequestAct M R)} (h : Run (Step limits) {} τ s) :
    (∀ k, content s.channels[k]? = repliesTo τ k) ∧ ∀ x ∈ τ, ∀ env ∈ x.1.inHand, s.Known env := by
  refine (h.inv_history (I := fun τ s => s.Inv ∧ (∀ k, content s.channels[k]? = repliesTo τ k) ∧
    ∀ x ∈ τ, ∀ env ∈ x.1.inHand, s.Known env) ⟨inv_init, fun k => rfl, by simp⟩ ?_).2
  rintro τ s a s' ⟨hinv, hcontent, hknown⟩ hstep
  refine ⟨hinv.step hstep, fun k => ?_, fun x hx env henv => ?_⟩
  · rw [hinv.content_step hstep k, hcontent k]
    simp [repliesTo, List.filterMap_append, List.filterMap_cons]
    cases replyTo k (s, a) <;> rfl
  · rcases List.mem_append.mp hx with hx | hx
    · exact known_step hstep (hknown x hx env henv)
    · obtain rfl : x = (s, a) := by simpa using hx
      exact known_step hstep (hinv.handled env henv)

/-- **A reply is the handler's, for the caller's own message.** Whatever calls, callers and the end of the actor do: the
handler returns at most once for a request; a caller that gets `Ok(v)` gets what the handler returned for the message of
that very request; and a caller that is told `ActorStopped` or `MailboxFull` has a message that was never answered. -/
theorem caller_gets_own_reply {τ : List (Requests M R × RequestAct M R)} (h : Run (Step limits) {} τ s) {r : RequestCall M R}
    (hr : s.requests[k]? = some r) :
    (repliesTo τ k).length ≤ 1 ∧
      (∀ v, r.result = some (.ok v) → repliesTo τ k = [v] ∧
        ∃ x ∈ τ, x.2 = .returns v ∧ x.1.inHand = some { msg := r.msg, tx := some k }) ∧
      ∀ e, r.result = some (.error (.actor e)) → repliesTo τ k = [] := by
  have hresp := (inv_run h).responds k r hr
  obtain ⟨hcontent, hknown⟩ := content_run h
  refine ⟨?_, fun v hv => ?_, fun e he => ?_⟩
  · rw [← hcontent k]
    unfold content
    split <;> simp
  · have hreplies : repliesTo τ k = [v] := by
      rw [← hcontent k, hresp.ok v hv]
      rfl
    refine ⟨hreplies, ?_⟩
    have hmem : v ∈ repliesTo τ k := by simp [hreplies]
    obtain ⟨x, hx, hreply⟩ := List.mem_filterMap.mp hmem
    unfold replyTo at hreply
    split at hreply
    case h_2 => cases hreply
    case h_1 result hact =>
      split_ifs at hreply with htx
      cases hreply
      obtain ⟨⟨msg, tx⟩, henv, rfl⟩ := Option.bind_eq_some_iff.mp htx
      obtain ⟨p, hp, hmsg⟩ := hknown x hx _ henv k rfl
      rw [hr] at hp
      cases hp
      exact ⟨x, hx, hact, by rw [henv, hmsg]⟩
  · rw [← hcontent k, hresp.failed e he]
    rfl

/-- **No request is left waiting.** Once `run_actor` has dropped its receiver, however it ended, every response that is
still held yields at its next poll: the handler's result if it had returned one, `ActorStopped` if not. -/
theorem response_after_exit {τ : List (Requests M R × RequestAct M R)} (h : Run (Step limits) {} τ s)
    (hgone : s.mailbox.receiver = .dropped) {r : RequestCall M R} (hr : s.requests[k]? = some r) {rx : Nat}
    (hwaits : r.response = some (.receiver rx) ∨ r.response = some (.timedReceiver rx)) (elapsed : Bool) :
    r.response.bind (·.poll s.channels elapsed) =
      some (.done, some ((repliesTo τ k).head?.elim (.error (.actor .actorStopped)) .ok)) := by
  have hinv := inv_run h
  obtain ⟨rfl, hsent⟩ := (hinv.responds k r hr).waits rx hwaits
  obtain ⟨huser, hhand⟩ := hinv.gone hgone
  have hlt : rx < s.channels.length := by
    rw [hinv.channels]
    exact (List.getElem?_eq_some_iff.mp hr).1
  -- the sender is no longer anywhere: the call has returned, and neither the mailbox nor the run loop has anything
  have hunset : (s.channels[rx]).isUnset = false := by
    by_contra hset
    have hempty : s.channels[rx]?.any Oneshot.isUnset = true := by
      rw [List.getElem?_eq_getElem hlt]
      simpa using hset
    have hplaced := hinv.placed rx
    rw [if_pos hempty, places, huser, hhand] at hplaced
    have hpending : 0 < pending rx s.mailbox := by
      simp [held] at hplaced
      omega
    obtain ⟨c, hc, hlive⟩ := List.countP_pos_iff.mp hpending
    simp only [Bool.and_eq_true, Bool.not_eq_true', beq_iff_eq] at hlive
    obtain ⟨i, hi⟩ := List.getElem?_of_mem hc
    obtain ⟨p, hp, rfl⟩ := hinv.called i rx (by rw [hi, Option.bind_some, hlive.2])
    rw [hr] at hp
    cases hp
    rw [Mailbox.pcAt_of_calls hi] at hsent
    rw [Option.some.inj hsent] at hlive
    cases hlive.1
  have hcontent := (content_run h).1 rx
  rw [List.getElem?_eq_getElem hlt] at hcontent
  rw [← hcontent]
  have hget : s.channels.getD rx .closed = s.channels[rx] := by simp [hlt]
  rcases hwaits with hw | hw <;> rw [hw] <;> simp only [Option.bind_some, Response.poll, hget] <;>
    cases hch : s.channels[rx] with
    | empty => simp [hch, Oneshot.isUnset] at hunset
    | sent v => rfl
    | closed => rfl

/-- Two requests: the first is answered, then the actor stops. -/
def answeredAndLeft : List (RequestAct Nat Nat) :=
  [.request 7 true, .request 8 true, .mailbox (.step 0), .mailbox (.step 1), .dequeue, .mailbox .release, .returns 70, .leave,
    .dropReceiver, .raw 0, .raw 1, .poll 0 false]

theorem caller_gets_own_reply_of_answered :
    ∃ τ s, Run (Step ⟨none, .failFast, .tasks⟩) ({} : Requests Nat Nat) τ s ∧
      s.requests[0]?.map (·.result) = some (some (.ok 70)) ∧ repliesTo τ 0 = [70] := by
  have hrun := run_tryPlay (next ⟨none, .failFast, .tasks⟩) ({} : Requests Nat Nat) answeredAndLeft (by decide)
  refine ⟨_, _, hrun, rfl, ?_⟩
  exact ((caller_gets_own_reply hrun (k := 0) rfl).2.1 70 rfl).1

theorem response_after_exit_of_left :
    ∃ τ s r, Run (Step ⟨none, .failFast, .tasks⟩) ({} : Requests Nat Nat) τ s ∧ s.requests[1]? = some r ∧
      r.response.bind (·.poll s.channels false) = some (.done, some (.error (.actor .actorStopped))) := by
  have hrun := run_tryPlay (next ⟨none, .failFast, .tasks⟩) ({} : Requests Nat Nat) answeredAndLeft (by decide)
  refine ⟨_, _, _, hrun, rfl, ?_⟩
  exact response_after_exit hrun rfl (k := 1) rfl (Or.inr rfl) false

end Requests

end Spawned
