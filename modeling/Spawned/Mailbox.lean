import Mathlib.Data.List.Count
import Mathlib.Tactic.Common
import Spawned.ChildSpec
import Spawned.Lib.Calls
import Spawned.Lib.Run

/-!
# Bounded mailboxes

`MailboxLimits` and the sends that go through it, one atomic step at a time: the load and the compare-exchange of
`try_acquire` and `acquire_async_tasks`, the mutex section of `acquire_blocking_threads`, the channel send,
`rollback_acquire`, and on the other side the dequeue and `on_message_dequeued` of the run loop.

* `SendPc` : where a call of `send_user_threads` or `send_user_tasks_sync` stands;
* `mailboxStep` : one step of some call, of the receiver, or a new call; `MailboxMove` : the same, case by case;
* `Accounted` : the invariant; every step keeps it (`Accounted.step`);
* `depth_eq_permits` : what `depth` counts, its bound, and when a send may fail with `MailboxFull`.

`depth` is a `usize` of 64 bits and wraps. The channels are lists; a channel whose receiver is gone refuses sends.
-/

namespace Spawned

inductive ActorError
  | actorStopped
  | mailboxFull
deriving DecidableEq, Repr

/-- Which runtime an actor mailbox is bound to. -/
inductive MailboxRuntime
  | tasks
  | threads
deriving DecidableEq, Repr

/-- What the calls on one mailbox share and never change. -/
structure MailboxLimits where
  capacity : Option UInt64
  mode : BackpressureMode
  runtime : MailboxRuntime
deriving DecidableEq, Repr

/-- Where a call that sends a user message stands. -/
inductive SendPc
  /-- `depth.load` of `try_acquire` or `acquire_async_tasks` -/
  | load
  /-- `depth.compare_exchange_weak(current, current + 1)` -/
  | compareExchange (current : UInt64)
  /-- `acquire_async_tasks` found the mailbox full and comes to `notify.notified()` -/
  | toNotified
  /-- awaiting the future of `notify.notified()` -/
  | notified
  /-- `lock.lock()` of `acquire_blocking_threads`, also on the way out of `cvar.wait` -/
  | lock
  /-- `depth.load` with the guard held -/
  | lockedLoad
  /-- `depth.fetch_add` with the guard held -/
  | lockedAdd
  /-- the guard is dropped -/
  | unlock
  /-- `acquire_blocking_threads` found the mailbox full and comes to `cvar.wait`, the guard held -/
  | toCvarWait
  /-- in `cvar.wait`, the guard given up -/
  | cvarWait
  /-- `sender.send(item)` -/
  | send
  /-- `rollback_acquire`, at its `fetch_sub` -/
  | rollback
  /-- `rollback_acquire`, at its `notify_blockers` -/
  | notifyBlockers
  | returned (result : Except ActorError Unit)
deriving DecidableEq

namespace SendPc

/-- The call has counted itself in `depth` and has neither sent nor taken it back. -/
def holdsPermit : SendPc → Bool
  | unlock | send | rollback => true
  | _ => false

/-- The call holds the guard of the block mutex. -/
def holdsGuard : SendPc → Bool
  | lockedLoad | lockedAdd | unlock | toCvarWait => true
  | _ => false

def isCompareExchange : SendPc → Bool
  | compareExchange _ => true
  | _ => false

/-- `notify_all` and `notify_waiters`: who waits goes on. -/
def wake : SendPc → SendPc
  | notified => load
  | cvarWait => lock
  | pc => pc

@[simp] theorem holdsPermit_wake (pc : SendPc) : pc.wake.holdsPermit = pc.holdsPermit := by
  cases pc <;> rfl

@[simp] theorem holdsGuard_wake (pc : SendPc) : pc.wake.holdsGuard = pc.holdsGuard := by
  cases pc <;> rfl

end SendPc

/-- `depth` has reached the capacity. -/
def MailboxLimits.full (limits : MailboxLimits) (depth : UInt64) : Bool := limits.capacity.any (· ≤ depth)

/-- Where a call of `send_user_threads` or `send_user_tasks_sync` starts that does not panic. -/
def MailboxLimits.entry (limits : MailboxLimits) : SendPc :=
  match limits.capacity, limits.mode, limits.runtime with
  | none, _, _ => .send
  | some _, .failFast, _ => .load
  | some _, .block, .tasks => .load
  | some _, .block, .threads => .lock

/-- What `Handle::try_current` finds where a message is sent. -/
inductive Caller
  | absent
  | multiThread
  | other
deriving DecidableEq, Repr

/-- Whether a send panics on its way to `entry`: `block_in_place` does in any runtime that is not multi-threaded, and
`block_on` where there is none. Such a call has done nothing to the mailbox, and is not among its calls. -/
def MailboxLimits.panics (limits : MailboxLimits) (caller : Caller) : Bool :=
  limits.capacity.isSome && limits.mode = .block && limits.runtime = .tasks && caller ≠ .multiThread

/-- Where the run loop of the actor stands. -/
inductive RecvPc
  /-- at `rx.recv()`, or handling something else -/
  | recv
  /-- a user message was dequeued; `on_message_dequeued` is at its `fetch_sub` -/
  | dequeued
  /-- `on_message_dequeued` is at its `notify_blockers` -/
  | notifyBlockers
  /-- the receiver is gone -/
  | dropped
deriving DecidableEq, Repr

/-- A message was dequeued and is not yet taken off `depth`. -/
def RecvPc.pending : RecvPc → Nat
  | .dequeued => 1
  | _ => 0

/-- A call that sends `item`. -/
structure SendCall (M : Type) where
  pc : SendPc
  item : M

/-- A mailbox and every call ever made on it. -/
structure Mailbox (M : Type) where
  depth : UInt64 := 0
  /-- the call that holds the block mutex -/
  guard : Option Nat := none
  calls : List (SendCall M) := []
  /-- the user channel, oldest first -/
  user : List M := []
  /-- what the channel held when its receiver was dropped -/
  discarded : List M := []
  receiver : RecvPc := .recv

namespace Mailbox

variable {M : Type}

def setPc (s : Mailbox M) (i : Nat) (c : SendCall M) (pc : SendPc) : Mailbox M :=
  { s with calls := s.calls.set i { c with pc } }

/-- `notify_blockers`: only in block mode is there anyone to wake. -/
def notifyBlockers (limits : MailboxLimits) (s : Mailbox M) : Mailbox M :=
  if limits.mode = .block then { s with calls := s.calls.map fun c => { c with pc := c.pc.wake } } else s

/-- How many calls hold a permit. -/
def permitsHeld (s : Mailbox M) : Nat := s.calls.countP (·.pc.holdsPermit)

/-- How many messages were dequeued and not yet taken off `depth`. -/
def dequeuedPending (s : Mailbox M) : Nat := s.receiver.pending

/-- Where call `i` stands. -/
def pcAt (s : Mailbox M) (i : Nat) : Option SendPc := s.calls[i]?.map (·.pc)

end Mailbox

/-! ## One atomic step -/

/-- The steps of a mailbox. -/
inductive MailboxAct (M : Type)
  /-- a new call -/
  | call (item : M)
  /-- the next step of call `i` -/
  | step (i : Nat)
  /-- `compare_exchange_weak` of call `i` fails without cause -/
  | weakFails (i : Nat)
  /-- `cvar.wait` of call `i` ends without cause -/
  | cvarWakes (i : Nat)
  | dequeue
  /-- `fetch_sub` of `on_message_dequeued` -/
  | release
  /-- `notify_blockers` of `on_message_dequeued` -/
  | notify
  | drop

/-- The next step of call `i`; `none` where it waits or has returned. -/
def sendStep {M : Type} (limits : MailboxLimits) (s : Mailbox M) (i : Nat) (c : SendCall M) : Option (Mailbox M) :=
  match c.pc with
  | .load =>
    if limits.full s.depth then
      if limits.mode = .failFast then some (s.setPc i c (.returned (.error .mailboxFull)))
      else some (s.setPc i c .toNotified)
    else some (s.setPc i c (.compareExchange s.depth))
  | .compareExchange current =>
    if s.depth = current then some { s.setPc i c .send with depth := current + 1 } else some (s.setPc i c .load)
  | .toNotified => some (s.setPc i c .notified)
  | .notified => none
  | .lock => if s.guard = none then some { s.setPc i c .lockedLoad with guard := some i } else none
  | .lockedLoad =>
    if limits.full s.depth then some (s.setPc i c .toCvarWait) else some (s.setPc i c .lockedAdd)
  | .lockedAdd => some { s.setPc i c .unlock with depth := s.depth + 1 }
  | .unlock => some { s.setPc i c .send with guard := none }
  | .toCvarWait => some { s.setPc i c .cvarWait with guard := none }
  | .cvarWait => none
  | .send =>
    if s.receiver = .dropped then some (s.setPc i c .rollback)
    else some { s.setPc i c (.returned (.ok ())) with user := s.user ++ [c.item] }
  | .rollback =>
    -- without a capacity nothing was acquired, and nothing is taken back
    if limits.capacity.isSome then some { s.setPc i c .notifyBlockers with depth := s.depth - 1 }
    else some (s.setPc i c (.returned (.error .actorStopped)))
  | .notifyBlockers => some ((s.setPc i c (.returned (.error .actorStopped))).notifyBlockers limits)
  | .returned _ => none

/-- One step of a mailbox. -/
def mailboxStep {M : Type} (limits : MailboxLimits) (s : Mailbox M) : MailboxAct M → Option (Mailbox M)
  | .call item => some { s with calls := s.calls ++ [{ pc := limits.entry, item }] }
  | .step i => s.calls[i]?.bind (sendStep limits s i)
  | .weakFails i => s.calls[i]?.bind fun c => if c.pc.isCompareExchange then some (s.setPc i c .load) else none
  | .cvarWakes i => s.calls[i]?.bind fun c => if c.pc = .cvarWait then some (s.setPc i c .lock) else none
  | .dequeue =>
    match s.user with
    | [] => none
    | _ :: rest => if s.receiver = .recv then some { s with user := rest, receiver := .dequeued } else none
  | .release =>
    if s.receiver = .dequeued then
      if limits.capacity.isSome then some { s with depth := s.depth - 1, receiver := .notifyBlockers }
      else some { s with receiver := .recv }
    else none
  | .notify => if s.receiver = .notifyBlockers then some { s.notifyBlockers limits with receiver := .recv } else none
  | .drop =>
    if s.receiver = .recv then some { s with user := [], discarded := s.discarded ++ s.user, receiver := .dropped }
    else none

/-- The steps of a mailbox as a relation. -/
def MailboxStep {M : Type} (limits : MailboxLimits) (s : Mailbox M) (a : MailboxAct M) (s' : Mailbox M) : Prop :=
  mailboxStep limits s a = some s'

/-! ## What a step does -/

/-- A step of a call with `item`: from where to where it goes, and what then are the counter and the channel. -/
inductive SendMove {M : Type} (limits : MailboxLimits) (s : Mailbox M) (item : M) :
    SendPc → SendPc → UInt64 → List M → Prop
  | mailboxFull (hfull : limits.full s.depth = true) (hmode : limits.mode = .failFast) :
      SendMove limits s item .load (.returned (.error .mailboxFull)) s.depth s.user
  | loadFull (hfull : limits.full s.depth = true) (hmode : limits.mode ≠ .failFast) :
      SendMove limits s item .load .toNotified s.depth s.user
  | loadRoom (hroom : limits.full s.depth = false) :
      SendMove limits s item .load (.compareExchange s.depth) s.depth s.user
  | exchange {current : UInt64} (hdepth : s.depth = current) :
      SendMove limits s item (.compareExchange current) .send (current + 1) s.user
  | retry {current : UInt64} : SendMove limits s item (.compareExchange current) .load s.depth s.user
  | notified : SendMove limits s item .toNotified .notified s.depth s.user
  | lock (hguard : s.guard = none) : SendMove limits s item .lock .lockedLoad s.depth s.user
  | lockedFull (hfull : limits.full s.depth = true) : SendMove limits s item .lockedLoad .toCvarWait s.depth s.user
  | lockedRoom (hroom : limits.full s.depth = false) : SendMove limits s item .lockedLoad .lockedAdd s.depth s.user
  | add : SendMove limits s item .lockedAdd .unlock (s.depth + 1) s.user
  | unlock : SendMove limits s item .unlock .send s.depth s.user
  | wait : SendMove limits s item .toCvarWait .cvarWait s.depth s.user
  | wakes : SendMove limits s item .cvarWait .lock s.depth s.user
  | sent (hreceiver : s.receiver ≠ .dropped) :
      SendMove limits s item .send (.returned (.ok ())) s.depth (s.user ++ [item])
  | refused (hreceiver : s.receiver = .dropped) : SendMove limits s item .send .rollback s.depth s.user
  | giveBack (hcap : limits.capacity.isSome = true) :
      SendMove limits s item .rollback .notifyBlockers (s.depth - 1) s.user
  | uncounted (hcap : limits.capacity.isSome = false) :
      SendMove limits s item .rollback (.returned (.error .actorStopped)) s.depth s.user

/-- What a move of call `i` makes of the guard: it stays with who has it, is taken, or is given up. -/
inductive GuardMove (i : Nat) (guard : Option Nat) (pc pc' : SendPc) : Option Nat → Prop
  | kept (hsame : pc'.holdsGuard = pc.holdsGuard) : GuardMove i guard pc pc' guard
  | taken (hfree : guard = none) : GuardMove i guard pc pc' (some i)
  | given (hheld : pc.holdsGuard = true) (hgone : pc'.holdsGuard = false) : GuardMove i guard pc pc' none

/-- A step of a mailbox, with its guards. -/
inductive MailboxMove {M : Type} (limits : MailboxLimits) (s : Mailbox M) : MailboxAct M → Mailbox M → Prop
  | call (item : M) :
      MailboxMove limits s (.call item) { s with calls := s.calls ++ [{ pc := limits.entry, item }] }
  | move {a : MailboxAct M} {i : Nat} {c : SendCall M} {pc : SendPc} {depth : UInt64} {user : List M}
      (guard : Option Nat) (hi : s.calls[i]? = some c) (hmove : SendMove limits s c.item c.pc pc depth user)
      (ha : a = .step i ∨ a = .weakFails i ∨ a = .cvarWakes i) (hload : c.pc = .load → a = .step i)
      (hpc : c.pc ≠ .notifyBlockers) (hguard : GuardMove i s.guard c.pc pc guard) :
      MailboxMove limits s a { s.setPc i c pc with depth := depth, guard := guard, user := user }
  | rolledBack {i : Nat} {c : SendCall M} (hi : s.calls[i]? = some c) (hpc : c.pc = .notifyBlockers) :
      MailboxMove limits s (.step i) ((s.setPc i c (.returned (.error .actorStopped))).notifyBlockers limits)
  | dequeue {item : M} {rest : List M} (huser : s.user = item :: rest) (hreceiver : s.receiver = .recv) :
      MailboxMove limits s .dequeue { s with user := rest, receiver := .dequeued }
  | release (hreceiver : s.receiver = .dequeued) (hcap : limits.capacity.isSome = true) :
      MailboxMove limits s .release { s with depth := s.depth - 1, receiver := .notifyBlockers }
  | unlimited (hreceiver : s.receiver = .dequeued) (hcap : limits.capacity.isSome = false) :
      MailboxMove limits s .release { s with receiver := .recv }
  | notify (hreceiver : s.receiver = .notifyBlockers) :
      MailboxMove limits s .notify { s.notifyBlockers limits with receiver := .recv }
  | drop (hreceiver : s.receiver = .recv) :
      MailboxMove limits s .drop { s with user := [], discarded := s.discarded ++ s.user, receiver := .dropped }

section Moves

variable {M : Type} {limits : MailboxLimits} {s s' : Mailbox M}

theorem sendStep_moves {i : Nat} {c : SendCall M} (hi : s.calls[i]? = some c) (hs : sendStep limits s i c = some s') :
    MailboxMove limits s (.step i) s' := by
  have move : ∀ {pc depth user guard}, SendMove limits s c.item c.pc pc depth user → c.pc ≠ .notifyBlockers →
      GuardMove i s.guard c.pc pc guard →
      MailboxMove limits s (.step i) { s.setPc i c pc with depth := depth, guard := guard, user := user } :=
    fun hmove hpc hguard => .move _ hi hmove (Or.inl rfl) (fun _ => rfl) hpc hguard
  unfold sendStep at hs
  cases hc : c.pc <;> simp only [hc] at hs move
  case load =>
    split_ifs at hs with hfull hmode <;> cases hs
    · exact move (.mailboxFull hfull hmode) (by simp) (.kept rfl)
    · exact move (.loadFull hfull hmode) (by simp) (.kept rfl)
    · exact move (.loadRoom (by simpa using hfull)) (by simp) (.kept rfl)
  case compareExchange current =>
    split_ifs at hs with hdepth <;> cases hs
    · exact move (.exchange hdepth) (by simp) (.kept rfl)
    · exact move .retry (by simp) (.kept rfl)
  case toNotified =>
    cases hs
    exact move .notified (by simp) (.kept rfl)
  case notified => simp at hs
  case lock =>
    split_ifs at hs with hguard
    cases hs
    exact move (.lock hguard) (by simp) (.taken hguard)
  case lockedLoad =>
    split_ifs at hs with hfull <;> cases hs
    · exact move (.lockedFull hfull) (by simp) (.kept rfl)
    · exact move (.lockedRoom (by simpa using hfull)) (by simp) (.kept rfl)
  case lockedAdd =>
    cases hs
    exact move .add (by simp) (.kept rfl)
  case unlock =>
    cases hs
    exact move .unlock (by simp) (.given rfl rfl)
  case toCvarWait =>
    cases hs
    exact move .wait (by simp) (.given rfl rfl)
  case cvarWait => simp at hs
  case send =>
    split_ifs at hs with hreceiver <;> cases hs
    · exact move (.refused hreceiver) (by simp) (.kept rfl)
    · exact move (.sent hreceiver) (by simp) (.kept rfl)
  case rollback =>
    split_ifs at hs with hcap <;> cases hs
    · exact move (.giveBack hcap) (by simp) (.kept rfl)
    · exact move (.uncounted (by simpa using hcap)) (by simp) (.kept rfl)
  case notifyBlockers =>
    cases hs
    exact .rolledBack hi hc
  case returned result => simp at hs

/-- Every step of a mailbox is one of the moves. -/
theorem MailboxStep.moves {a : MailboxAct M} (hs : MailboxStep limits s a s') : MailboxMove limits s a s' := by
  unfold MailboxStep at hs
  cases a with
  | call item =>
    cases hs
    exact .call item
  | step i =>
    obtain ⟨c, hi, hc⟩ := Option.bind_eq_some_iff.mp hs
    exact sendStep_moves hi hc
  | weakFails i =>
    obtain ⟨c, hi, hc⟩ := Option.bind_eq_some_iff.mp hs
    split_ifs at hc with hx
    cases hc
    cases hpc : c.pc <;> simp [hpc, SendPc.isCompareExchange] at hx
    exact .move s.guard hi (hpc ▸ .retry) (by simp) (by simp [hpc]) (by simp [hpc])
      (.kept (by simp [hpc, SendPc.holdsGuard]))
  | cvarWakes i =>
    obtain ⟨c, hi, hc⟩ := Option.bind_eq_some_iff.mp hs
    split_ifs at hc with hpc
    cases hc
    exact .move s.guard hi (hpc ▸ .wakes) (by simp) (by simp [hpc]) (by simp [hpc])
      (.kept (by simp [hpc, SendPc.holdsGuard]))
  | dequeue =>
    simp only [mailboxStep] at hs
    split at hs
    · cases hs
    · rename_i item rest huser
      split_ifs at hs with hreceiver
      cases hs
      exact .dequeue huser hreceiver
  | release =>
    simp only [mailboxStep] at hs
    split_ifs at hs with hreceiver hcap <;> cases hs
    · exact .release hreceiver hcap
    · exact .unlimited hreceiver (by simpa using hcap)
  | notify =>
    simp only [mailboxStep] at hs
    split_ifs at hs with hreceiver
    cases hs
    exact .notify hreceiver
  | drop =>
    simp only [mailboxStep] at hs
    split_ifs at hs with hreceiver
    cases hs
    exact .drop hreceiver

end Moves

/-! ## Calls that move -/

namespace Mailbox

variable {M : Type} {limits : MailboxLimits} {s : Mailbox M} {i : Nat} {c : SendCall M}

@[simp] theorem setPc_depth (pc : SendPc) : (s.setPc i c pc).depth = s.depth := rfl
@[simp] theorem setPc_guard (pc : SendPc) : (s.setPc i c pc).guard = s.guard := rfl
@[simp] theorem setPc_user (pc : SendPc) : (s.setPc i c pc).user = s.user := rfl
@[simp] theorem setPc_discarded (pc : SendPc) : (s.setPc i c pc).discarded = s.discarded := rfl
@[simp] theorem setPc_receiver (pc : SendPc) : (s.setPc i c pc).receiver = s.receiver := rfl

theorem pcAt_of_calls (hi : s.calls[i]? = some c) : s.pcAt i = some c.pc := by
  simp [pcAt, hi]

theorem pcAt_setPc (hi : s.calls[i]? = some c) (pc : SendPc) (j : Nat) :
    (s.setPc i c pc).pcAt j = if j = i then some pc else s.pcAt j := by
  have hlt : i < s.calls.length := (List.getElem?_eq_some_iff.mp hi).1
  by_cases hj : j = i
  · subst hj
    simp [pcAt, setPc, hlt]
  · simp [pcAt, setPc, List.getElem?_set_ne (Ne.symm hj), hj]

/-- A call that moves changes the permits by its own. -/
theorem permitsHeld_setPc (hi : s.calls[i]? = some c) (pc : SendPc) :
    (s.setPc i c pc).permitsHeld + (if c.pc.holdsPermit then 1 else 0) =
      s.permitsHeld + (if pc.holdsPermit then 1 else 0) :=
  Lib.countP_set_add (fun c : SendCall M => c.pc.holdsPermit) hi { c with pc }

theorem permitsHeld_pos {i : Nat} {pc : SendPc} (hi : s.pcAt i = some pc) (hp : pc.holdsPermit = true) :
    0 < s.permitsHeld := by
  obtain ⟨c, hc, rfl⟩ := Option.map_eq_some_iff.mp hi
  exact List.countP_pos_iff.mpr ⟨c, List.mem_of_getElem? hc, hp⟩

@[simp] theorem notifyBlockers_depth : (s.notifyBlockers limits).depth = s.depth := by
  unfold notifyBlockers; split <;> rfl
@[simp] theorem notifyBlockers_guard : (s.notifyBlockers limits).guard = s.guard := by
  unfold notifyBlockers; split <;> rfl
@[simp] theorem notifyBlockers_user : (s.notifyBlockers limits).user = s.user := by
  unfold notifyBlockers; split <;> rfl
@[simp] theorem notifyBlockers_discarded : (s.notifyBlockers limits).discarded = s.discarded := by
  unfold notifyBlockers; split <;> rfl
@[simp] theorem notifyBlockers_receiver : (s.notifyBlockers limits).receiver = s.receiver := by
  unfold notifyBlockers; split <;> rfl

@[simp] theorem notifyBlockers_permitsHeld : (s.notifyBlockers limits).permitsHeld = s.permitsHeld := by
  unfold notifyBlockers
  split
  · simp [permitsHeld, List.countP_map, Function.comp_def]
  · rfl

/-- A wake-up moves the calls that wait, and no others. -/
theorem pcAt_notifyBlockers (limits : MailboxLimits) (s : Mailbox M) (j : Nat) :
    (s.notifyBlockers limits).pcAt j = s.pcAt j ∨ (s.notifyBlockers limits).pcAt j = (s.pcAt j).map SendPc.wake := by
  unfold notifyBlockers
  split
  · right
    simp [pcAt, Function.comp_def]
  · exact Or.inl rfl

end Mailbox

/-! ## What `depth` counts -/

/-- Calls of `acquire_blocking_threads` are the only ones of their mailbox, and so are the calls of the others. A
compare-exchange is tried only from below the capacity. -/
def SendPc.Allowed (limits : MailboxLimits) (cap : UInt64) : SendPc → Prop
  | .load | .toNotified | .notified => limits.mode = .failFast ∨ limits.runtime = .tasks
  | .compareExchange current => (limits.mode = .failFast ∨ limits.runtime = .tasks) ∧ current < cap
  | .lock | .lockedLoad | .lockedAdd | .unlock | .toCvarWait | .cvarWait => limits.mode = .block ∧ limits.runtime = .threads
  | _ => True

theorem SendPc.Allowed.wake {limits : MailboxLimits} {cap : UInt64} {pc : SendPc} (h : pc.Allowed limits cap) :
    pc.wake.Allowed limits cap := by
  cases pc <;> exact h

/-- The invariant of a mailbox of capacity `cap`. -/
structure Accounted {M : Type} (limits : MailboxLimits) (cap : UInt64) (s : Mailbox M) : Prop where
  count : s.depth.toNat = s.user.length + s.discarded.length + s.permitsHeld + s.dequeuedPending
  bound : s.depth.toNat ≤ cap.toNat
  allowed : ∀ j pc, s.pcAt j = some pc → pc.Allowed limits cap
  guarded : ∀ j pc, s.pcAt j = some pc → pc.holdsGuard = true → s.guard = some j
  /-- who loaded under the guard finds the counter no higher at its `fetch_add` -/
  room : ∀ j, s.pcAt j = some .lockedAdd → s.depth.toNat < cap.toNat

namespace Accounted

variable {M : Type} {limits : MailboxLimits} {cap : UInt64} {s s' : Mailbox M} {i : Nat} {c : SendCall M}

theorem empty : Accounted limits cap ({} : Mailbox M) where
  count := by simp [Mailbox.permitsHeld, Mailbox.dequeuedPending, RecvPc.pending]
  bound := by simp
  allowed := by simp [Mailbox.pcAt]
  guarded := by simp [Mailbox.pcAt]
  room := by simp [Mailbox.pcAt]

/-- No two calls hold the guard. -/
theorem holdsGuard_unique (h : Accounted limits cap s) {j : Nat} {pc pc' : SendPc} (hi : s.pcAt i = some pc)
    (hj : s.pcAt j = some pc') (hp : pc.holdsGuard = true) (hp' : pc'.holdsGuard = true) : j = i := by
  have hgi := h.guarded i pc hi hp
  have hgj := h.guarded j pc' hj hp'
  rw [hgi] at hgj
  exact (Option.some.inj hgj).symm

/-- Call `i` moves to `pc`, and with it the counter, the channel and the guard may change. -/
theorem move (h : Accounted limits cap s) (hi : s.calls[i]? = some c) (pc : SendPc)
    (hcalls : s'.calls = (s.setPc i c pc).calls)
    (hcount : s'.depth.toNat + (if c.pc.holdsPermit then 1 else 0) +
        (s.user.length + s.discarded.length + s.dequeuedPending) =
      s.depth.toNat + (if pc.holdsPermit then 1 else 0) +
        (s'.user.length + s'.discarded.length + s'.dequeuedPending))
    (hbound : s'.depth.toNat ≤ cap.toNat) (hallowed : pc.Allowed limits cap)
    (hguard : pc.holdsGuard = true → s'.guard = some i)
    (hguards : ∀ j pc', j ≠ i → s.pcAt j = some pc' → pc'.holdsGuard = true → s'.guard = some j)
    (hroom : pc = .lockedAdd → s'.depth.toNat < cap.toNat)
    (hrooms : ∀ j, j ≠ i → s.pcAt j = some .lockedAdd → s'.depth.toNat < cap.toNat) : Accounted limits cap s' := by
  have hpcAt : ∀ j, s'.pcAt j = if j = i then some pc else s.pcAt j := by
    intro j
    rw [← Mailbox.pcAt_setPc hi pc j, Mailbox.pcAt, Mailbox.pcAt, hcalls]
  have hheld : s'.permitsHeld + (if c.pc.holdsPermit then 1 else 0) =
      s.permitsHeld + (if pc.holdsPermit then 1 else 0) := by
    rw [← Mailbox.permitsHeld_setPc hi pc, Mailbox.permitsHeld, Mailbox.permitsHeld, hcalls]
  have hold := h.count
  refine ⟨by omega, hbound, ?_, ?_, ?_⟩
  · intro j pc' hj
    rw [hpcAt] at hj
    split at hj
    · cases hj; exact hallowed
    · exact h.allowed j pc' hj
  · intro j pc' hj hp
    rw [hpcAt] at hj
    split at hj
    case isTrue hji => cases hj; rw [hji]; exact hguard hp
    case isFalse hji => exact hguards j pc' hji hj hp
  · intro j hj
    rw [hpcAt] at hj
    split at hj
    · cases hj; exact hroom rfl
    · rename_i hji
      exact hrooms j hji hj

theorem notifyBlockers (h : Accounted limits cap s) : Accounted limits cap (s.notifyBlockers limits) := by
  have hback : ∀ j pc, (s.notifyBlockers limits).pcAt j = some pc →
      ∃ pc₀, s.pcAt j = some pc₀ ∧ (pc = pc₀ ∨ pc = pc₀.wake) := by
    intro j pc hj
    rcases Mailbox.pcAt_notifyBlockers limits s j with he | he
    · exact ⟨pc, he ▸ hj, Or.inl rfl⟩
    · rw [he] at hj
      obtain ⟨pc₀, h₀, rfl⟩ := Option.map_eq_some_iff.mp hj
      exact ⟨pc₀, h₀, Or.inr rfl⟩
  refine ⟨?_, ?_, ?_, ?_, ?_⟩
  · simpa [Mailbox.dequeuedPending] using h.count
  · simpa using h.bound
  · intro j pc hj
    obtain ⟨pc₀, h₀, rfl | rfl⟩ := hback j pc hj
    · exact h.allowed j pc h₀
    · exact (h.allowed j pc₀ h₀).wake
  · intro j pc hj hp
    rw [Mailbox.notifyBlockers_guard]
    obtain ⟨pc₀, h₀, rfl | rfl⟩ := hback j pc hj
    · exact h.guarded j pc h₀ hp
    · exact h.guarded j pc₀ h₀ (by simpa using hp)
  · intro j hj
    rw [Mailbox.notifyBlockers_depth]
    obtain ⟨pc₀, h₀, he | he⟩ := hback j _ hj
    · exact h.room j (he ▸ h₀)
    · -- nobody is woken into the mutex section past its load
      cases pc₀ <;> simp [SendPc.wake] at he
      exact h.room j h₀

theorem not_full (hcap : limits.capacity = some cap) (hf : limits.full s.depth = false) :
    s.depth.toNat < cap.toNat := by
  have hlt : ¬cap ≤ s.depth := by simpa [MailboxLimits.full, hcap] using hf
  exact UInt64.lt_iff_toNat_lt.mp (UInt64.not_le.mp hlt)

theorem toNat_add_one {d : UInt64} (h : d.toNat < cap.toNat) : (d + 1).toNat = d.toNat + 1 := by
  have hcap := cap.toNat_lt
  rw [UInt64.toNat_add, UInt64.toNat_one, Nat.mod_eq_of_lt (by omega)]

theorem toNat_sub_one {d : UInt64} (h : 0 < d.toNat) : (d - 1).toNat = d.toNat - 1 :=
  UInt64.toNat_sub_of_le _ _ (UInt64.le_iff_toNat_le.mpr h)

/-- The counter is above zero while a permit is held. -/
theorem depth_pos (h : Accounted limits cap s) {pc : SendPc} (hi : s.pcAt i = some pc) (hp : pc.holdsPermit = true) :
    0 < s.depth.toNat := by
  have hpos := Mailbox.permitsHeld_pos hi hp
  have hcount := h.count
  omega

/-- The call goes on to where it may be. -/
theorem allowed_move (hcap : limits.capacity = some cap) {item : M} {pc pc' : SendPc} {depth : UInt64} {user : List M}
    (hmove : SendMove limits s item pc pc' depth user) (h : pc.Allowed limits cap) : pc'.Allowed limits cap := by
  cases hmove with
  | loadRoom hroom => exact ⟨h, UInt64.lt_iff_toNat_lt.mpr (not_full hcap hroom)⟩
  | retry => exact h.1
  | mailboxFull | exchange | unlock | sent | refused | giveBack | uncounted => trivial
  | loadFull | notified | lock | lockedFull | lockedRoom | add | wait | wakes => exact h

/-- A move changes the counter as it changes the permits and the channel. It goes up by one from below the capacity, at an
exchange or under the guard. -/
theorem count_move (hcap : limits.capacity = some cap) {item : M} {pc pc' : SendPc} {depth : UInt64} {user : List M}
    (hmove : SendMove limits s item pc pc' depth user) (hallowed : pc.Allowed limits cap)
    (hheld : pc.holdsPermit = true → 0 < s.depth.toNat) (hroom : pc = .lockedAdd → s.depth.toNat < cap.toNat) :
    depth.toNat + (if pc.holdsPermit then 1 else 0) + s.user.length =
        s.depth.toNat + (if pc'.holdsPermit then 1 else 0) + user.length ∧
      (depth.toNat ≤ s.depth.toNat ∨
        depth.toNat = s.depth.toNat + 1 ∧ s.depth.toNat < cap.toNat ∧ (pc.isCompareExchange = true ∨ pc = .lockedAdd)) := by
  cases hmove with
  | exchange hdepth =>
    subst hdepth
    have hlt := UInt64.lt_iff_toNat_lt.mp hallowed.2
    rw [toNat_add_one hlt]
    exact ⟨rfl, Or.inr ⟨rfl, hlt, Or.inl rfl⟩⟩
  | add =>
    have hlt := hroom rfl
    rw [toNat_add_one hlt]
    exact ⟨rfl, Or.inr ⟨rfl, hlt, Or.inr rfl⟩⟩
  | sent hreceiver =>
    refine ⟨?_, Or.inl (Nat.le_refl _)⟩
    simp only [SendPc.holdsPermit, List.length_append, List.length_singleton]
    simp
    omega
  | giveBack =>
    have hpos := hheld rfl
    rw [toNat_sub_one hpos]
    refine ⟨?_, Or.inl (by omega)⟩
    simp only [SendPc.holdsPermit]
    simp
    omega
  | uncounted hnone => simp [hcap] at hnone
  | _ => exact ⟨rfl, Or.inl (Nat.le_refl _)⟩

/-- Who holds the guard after a move, and that nobody else does. -/
theorem guard_move (h : Accounted limits cap s) (hi : s.calls[i]? = some c) {pc : SendPc} {guard : Option Nat}
    (hguard : GuardMove i s.guard c.pc pc guard) :
    (pc.holdsGuard = true → guard = some i) ∧
      ∀ j pc', j ≠ i → s.pcAt j = some pc' → pc'.holdsGuard = true → guard = some j := by
  have hpc := Mailbox.pcAt_of_calls hi
  cases hguard with
  | kept hsame => exact ⟨fun hp => h.guarded i c.pc hpc (hsame ▸ hp), fun j pc' _ hj hp => h.guarded j pc' hj hp⟩
  | taken hfree =>
    refine ⟨fun _ => rfl, fun j pc' _ hj hp => ?_⟩
    rw [h.guarded j pc' hj hp] at hfree
    cases hfree
  | given hheld hgone =>
    refine ⟨fun hp => ?_, fun j pc' hji hj hp => absurd (h.holdsGuard_unique hpc hj hheld hp) hji⟩
    rw [hgone] at hp
    cases hp

/-- One move of a call. -/
theorem sendMove (hcap : limits.capacity = some cap) (h : Accounted limits cap s) (hi : s.calls[i]? = some c) {pc : SendPc}
    {depth : UInt64} {guard : Option Nat} {user : List M} (hmove : SendMove limits s c.item c.pc pc depth user)
    (hguard : GuardMove i s.guard c.pc pc guard) :
    Accounted limits cap { s.setPc i c pc with depth := depth, guard := guard, user := user } := by
  have hpc := Mailbox.pcAt_of_calls hi
  have hallowed := h.allowed i c.pc hpc
  have hbound := h.bound
  obtain ⟨hcount, hdepth⟩ := count_move hcap hmove hallowed (h.depth_pos hpc) fun hc => h.room i (by rw [hpc, hc])
  obtain ⟨hmine, hothers⟩ := h.guard_move hi hguard
  refine h.move hi pc rfl ?_ ?_ (allowed_move hcap hmove hallowed) hmine hothers ?_ ?_
  · show depth.toNat + _ + (_ + s.discarded.length + s.dequeuedPending) =
      _ + (user.length + s.discarded.length + s.dequeuedPending)
    omega
  · show depth.toNat ≤ cap.toNat
    omega
  · rintro rfl
    generalize c.pc = before at hmove
    cases hmove with
    | lockedRoom hroom => exact not_full hcap hroom
  · intro j hji hj
    have hlt := h.room j hj
    show depth.toNat < cap.toNat
    rcases hdepth with hle | ⟨-, -, hx | hx⟩
    · omega
    · -- nobody is in the mutex section of a mailbox that exchanges
      obtain ⟨hmode, hruntime⟩ : limits.mode = .block ∧ limits.runtime = .threads := h.allowed j _ hj
      cases hc : c.pc <;> simp [hc, SendPc.isCompareExchange] at hx
      rw [hc] at hallowed
      rcases hallowed.1 with hm | hm <;> simp [hm] at hmode hruntime
    · exact absurd (h.holdsGuard_unique hpc hj (by rw [hx]; rfl) rfl) hji

/-- A new call holds nothing. -/
theorem call (hcap : limits.capacity = some cap) (h : Accounted limits cap s) (item : M) :
    Accounted limits cap { s with calls := s.calls ++ [{ pc := limits.entry, item }] } := by
  have hentry : limits.entry.Allowed limits cap ∧ limits.entry.holdsPermit = false ∧
      limits.entry.holdsGuard = false := by
    unfold MailboxLimits.entry
    rw [hcap]
    cases hm : limits.mode with
    | failFast => exact ⟨Or.inl hm, rfl, rfl⟩
    | block =>
      cases hr : limits.runtime with
      | tasks => exact ⟨Or.inr hr, rfl, rfl⟩
      | threads => exact ⟨⟨hm, hr⟩, rfl, rfl⟩
  have hpcAt : ∀ j pc, Mailbox.pcAt { s with calls := s.calls ++ [{ pc := limits.entry, item }] } j = some pc →
      s.pcAt j = some pc ∨ pc = limits.entry := by
    intro j pc hj
    by_cases hlt : j < s.calls.length
    · left
      simpa [Mailbox.pcAt, List.getElem?_append_left hlt] using hj
    · right
      simp only [Mailbox.pcAt, List.getElem?_append_right (Nat.le_of_not_lt hlt), List.getElem?_singleton] at hj
      split at hj
      · simpa using hj.symm
      · simp at hj
  refine ⟨?_, h.bound, ?_, ?_, ?_⟩
  · simpa [Mailbox.permitsHeld, hentry.2.1, Mailbox.dequeuedPending] using h.count
  · intro j pc hj
    rcases hpcAt j pc hj with hj | rfl
    · exact h.allowed j pc hj
    · exact hentry.1
  · intro j pc hj hp
    rcases hpcAt j pc hj with hj | rfl
    · exact h.guarded j pc hj hp
    · simp [hentry.2.2] at hp
  · intro j hj
    rcases hpcAt j _ hj with hj | he
    · exact h.room j hj
    · rw [← he] at hentry
      simp [SendPc.holdsGuard] at hentry

/-- A step of the receiver: no call moves, and the counter does not rise. -/
theorem receive (h : Accounted limits cap s) (hcalls : s'.calls = s.calls) (hguard : s'.guard = s.guard)
    (hcount : s'.depth.toNat + (s.user.length + s.discarded.length + s.dequeuedPending) =
      s.depth.toNat + (s'.user.length + s'.discarded.length + s'.dequeuedPending))
    (hdepth : s'.depth.toNat ≤ s.depth.toNat) : Accounted limits cap s' := by
  have hpcAt : ∀ j, s'.pcAt j = s.pcAt j := by
    intro j
    rw [Mailbox.pcAt, hcalls, Mailbox.pcAt]
  have hheld : s'.permitsHeld = s.permitsHeld := by
    rw [Mailbox.permitsHeld, hcalls, Mailbox.permitsHeld]
  have hold := h.count
  have hbound := h.bound
  refine ⟨by omega, by omega, ?_, ?_, ?_⟩
  · intro j pc hj
    exact h.allowed j pc (hpcAt j ▸ hj)
  · intro j pc hj hp
    rw [hguard]
    exact h.guarded j pc (hpcAt j ▸ hj) hp
  · intro j hj
    have hlt := h.room j (hpcAt j ▸ hj)
    omega

/-- Every step of the mailbox keeps the accounts. -/
theorem step (hcap : limits.capacity = some cap) (h : Accounted limits cap s) {a : MailboxAct M}
    (hs : MailboxStep limits s a s') : Accounted limits cap s' := by
  cases hs.moves with
  | call item => exact h.call hcap item
  | move guard hi hmove _ _ _ hguard => exact h.sendMove hcap hi hmove hguard
  | @rolledBack i c hi hpc =>
    have hret : Accounted limits cap (s.setPc i c (.returned (.error .actorStopped))) := by
      refine h.move hi _ rfl ?_ h.bound trivial (by simp [SendPc.holdsGuard])
        (fun j pc' _ hj hp => h.guarded j pc' hj hp) (by simp) fun j _ hj => h.room j hj
      rw [hpc]
      rfl
    exact hret.notifyBlockers
  | dequeue huser hreceiver =>
    refine h.receive rfl rfl ?_ (Nat.le_refl _)
    simp only [Mailbox.dequeuedPending, huser, hreceiver, RecvPc.pending, List.length_cons]
    omega
  | release hreceiver =>
    have hpos : 0 < s.depth.toNat := by
      have hcount := h.count
      simp only [Mailbox.dequeuedPending, hreceiver, RecvPc.pending] at hcount
      omega
    have hsub := toNat_sub_one hpos
    refine h.receive rfl rfl ?_ ?_
    · show (s.depth - 1).toNat + _ = _
      rw [hsub]
      simp only [Mailbox.dequeuedPending, hreceiver, RecvPc.pending]
      omega
    · show (s.depth - 1).toNat ≤ s.depth.toNat
      omega
  | unlimited hreceiver hnone => simp [hcap] at hnone
  | notify hreceiver =>
    refine h.notifyBlockers.receive rfl rfl ?_ (Nat.le_refl _)
    simp [Mailbox.dequeuedPending, hreceiver, RecvPc.pending]
  | drop hreceiver =>
    refine h.receive rfl rfl ?_ (Nat.le_refl _)
    simp only [Mailbox.dequeuedPending, hreceiver, RecvPc.pending, List.length_append, List.length_nil]
    omega

/-- The accounts of a mailbox hold after every run. -/
theorem run (hcap : limits.capacity = some cap) {τ : List (Mailbox M × MailboxAct M)}
    (h : Lib.Run (MailboxStep limits) {} τ s) : Accounted limits cap s :=
  h.inv empty fun _ _ _ hs hstep => hs.step hcap hstep

end Accounted

/-! ## Full mailboxes -/

namespace Mailbox

variable {M : Type} {limits : MailboxLimits} {s s' : Mailbox M} {i : Nat}

/-- The answer of a call that found the mailbox full. -/
abbrev fullAnswer : SendPc := .returned (.error .mailboxFull)

/-- When one call moves, only that one can turn to a new answer. -/
theorem turns_of_setPc {j : Nat} {c : SendCall M} {pc pc' : SendPc} (hj : s.calls[j]? = some c)
    (hcalls : s'.calls = (s.setPc j c pc).calls) (hbefore : s.pcAt i ≠ some pc') (hafter : s'.pcAt i = some pc') :
    j = i ∧ pc = pc' := by
  have hpcAt : s'.pcAt i = if i = j then some pc else s.pcAt i := by
    rw [← pcAt_setPc hj pc i, pcAt, pcAt, hcalls]
  rw [hpcAt] at hafter
  split at hafter
  case isTrue h => exact ⟨h.symm, Option.some.inj hafter⟩
  case isFalse => exact absurd hafter hbefore

/-- Nobody is woken into an answer. -/
theorem pcAt_of_notifyBlockers {result : Except ActorError Unit}
    (h : (s.notifyBlockers limits).pcAt i = some (.returned result)) : s.pcAt i = some (.returned result) := by
  rcases pcAt_notifyBlockers limits s i with he | he
  · rw [← he, h]
  · rw [he] at h
    obtain ⟨pc, hpc, hw⟩ := Option.map_eq_some_iff.mp h
    rw [hpc]
    cases pc <;> simp [SendPc.wake] at hw ⊢
    exact hw

end Mailbox

/-- Of all the steps of a mailbox only a `FailFast` load that finds the capacity reached turns a call to `MailboxFull`. -/
theorem mailboxStep_full {M : Type} {limits : MailboxLimits} {s s' : Mailbox M} {a : MailboxAct M} {i : Nat}
    (hs : MailboxStep limits s a s') (hbefore : s.pcAt i ≠ some Mailbox.fullAnswer)
    (hafter : s'.pcAt i = some Mailbox.fullAnswer) :
    s.pcAt i = some .load ∧ limits.mode = .failFast ∧ limits.full s.depth = true := by
  cases hs.moves with
  | call item =>
    exfalso
    by_cases hlt : i < s.calls.length
    · apply hbefore
      simpa [Mailbox.pcAt, List.getElem?_append_left hlt] using hafter
    · simp only [Mailbox.pcAt, List.getElem?_append_right (Nat.le_of_not_lt hlt), List.getElem?_singleton] at hafter
      split at hafter
      · have hentry : limits.entry = Mailbox.fullAnswer := by simpa using hafter
        unfold MailboxLimits.entry at hentry
        split at hentry <;> cases hentry
      · simp at hafter
  | move guard hj hmove =>
    obtain ⟨rfl, rfl⟩ := Mailbox.turns_of_setPc hj rfl hbefore hafter
    rw [Mailbox.pcAt_of_calls hj]
    generalize SendCall.pc _ = before at hmove ⊢
    cases hmove with
    | mailboxFull hfull hmode => exact ⟨rfl, hmode, hfull⟩
  | rolledBack hj hpc =>
    obtain ⟨-, hfull⟩ := Mailbox.turns_of_setPc hj rfl hbefore (Mailbox.pcAt_of_notifyBlockers hafter)
    cases hfull
  | notify => exact absurd (Mailbox.pcAt_of_notifyBlockers hafter) hbefore
  | dequeue | release | unlimited | drop => exact absurd hafter hbefore

/-- **Bounded mailboxes neither overrun nor leak.** In every reachable state of a mailbox of capacity `cap`, in either
mode and on either runtime, `depth` counts the messages in the channel (with those discarded unread), the permits held
and the message dequeued but not yet released; it stays within the capacity; whoever is about to subtract from it finds
it above zero; and a call turns to `MailboxFull` only at a `FailFast` load that reads the capacity itself. -/
theorem depth_eq_permits {M : Type} (limits : MailboxLimits) (cap : UInt64) (hcap : limits.capacity = some cap)
    {τ : List (Mailbox M × MailboxAct M)} {s : Mailbox M} (h : Lib.Run (MailboxStep limits) {} τ s) :
    s.depth.toNat = (s.user.length + s.discarded.length) + s.permitsHeld + s.dequeuedPending ∧
      s.depth ≤ cap ∧
      (∀ i, s.pcAt i = some .rollback → 0 < s.depth) ∧ (s.receiver = .dequeued → 0 < s.depth) ∧
      ∀ i a s', MailboxStep limits s a s' → s.pcAt i ≠ some (.returned (.error .mailboxFull)) →
        s'.pcAt i = some (.returned (.error .mailboxFull)) →
        s.pcAt i = some .load ∧ limits.mode = .failFast ∧ s.depth = cap := by
  have hacc := Accounted.run hcap h
  have hle : s.depth ≤ cap := UInt64.le_iff_toNat_le.mpr hacc.bound
  refine ⟨hacc.count, hle, ?_, ?_, ?_⟩
  · intro i hi
    exact UInt64.lt_iff_toNat_lt.mpr (hacc.depth_pos hi rfl)
  · intro hr
    have hcount := hacc.count
    simp only [Mailbox.dequeuedPending, hr, RecvPc.pending] at hcount
    refine UInt64.lt_iff_toNat_lt.mpr ?_
    rw [UInt64.toNat_zero]
    omega
  · intro i a s' hs hbefore hafter
    obtain ⟨hload, hm, hf⟩ := mailboxStep_full hs hbefore hafter
    have hge : cap ≤ s.depth := by simpa [MailboxLimits.full, hcap] using hf
    exact ⟨hload, hm, UInt64.le_antisymm hle hge⟩

/-- Two calls on a `FailFast` mailbox of capacity one: the first has sent, the second loads and finds it full. -/
theorem depth_eq_permits_of_two_calls :
    ∃ s s' : Mailbox Nat, MailboxStep ⟨some 1, .failFast, .tasks⟩ s (.step 1) s' ∧
      s'.pcAt 1 = some (.returned (.error .mailboxFull)) ∧ s.depth = 1 ∧
      s.depth.toNat = (s.user.length + s.discarded.length) + s.permitsHeld + s.dequeuedPending := by
  let limits : MailboxLimits := ⟨some 1, .failFast, .tasks⟩
  let acts : List (MailboxAct Nat) := [.call 7, .call 8, .step 0, .step 0, .step 0]
  have hrun := Lib.run_tryPlay (mailboxStep limits) ({} : Mailbox Nat) acts (by decide)
  have h := depth_eq_permits limits 1 rfl hrun
  have hnext : MailboxStep limits ((Lib.tryPlay (mailboxStep limits) {} acts).get (by decide)).2 (.step 1)
      (((Lib.tryPlay (mailboxStep limits) {} (acts ++ [.step 1])).get (by decide)).2 : Mailbox Nat) := by
    rfl
  exact ⟨_, _, hnext, by decide, (h.2.2.2.2 1 _ _ hnext (by decide) (by decide)).2.2, h.1⟩

end Spawned
