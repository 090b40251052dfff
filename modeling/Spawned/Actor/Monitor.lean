import Mathlib.Data.Finset.Basic
import Spawned.Lib.Table
import Spawned.Mailbox.Stopping

/-!
# Monitors

`Context::monitor` and `Context::demonitor` of one owner, the same on both runtimes: each monitor has a task that waits for
the exit of its target, takes the monitor from the table, reads its flag and sends a `Down` to the owner, through the
owner's mailbox like any other message. The owner is alive throughout. On the tasks runtime the monitor tasks run where the
owner does, and a send that panics there ends the task.

* `State.next` : a monitor or demonitor call, the exit of a target, a step of a monitor task, or a step of the mailbox;
  `State.Move` : the same, case by case;
* `Open` : what the mailbox of an owner that is alive keeps;
* `Watching` : where each monitor task stands; every step keeps it (`Watching.step`);
* `Unhindered` : a `Down` never loads a full counter in `FailFast` mode, and in `Block` mode no wake-up is lost and no send
  of a `Down` panics;
* `monitor_delivers_once` : one `Down` for each monitor whose target exits, and none for one demonitored before.
-/

namespace Spawned.Monitoring

open Lib

/-- The number `MonitorRef::next` drew. -/
abbrev MonitorRef := Nat

/-- What the user lane carries. -/
inductive UserItem (M : Type)
  | message (m : M)
  | down (ref : MonitorRef) (reason : ExitReason)
deriving DecidableEq

def UserItem.isDown {M : Type} : UserItem M → Bool
  | down _ _ => true
  | message _ => false

/-- Where a monitor task stands. -/
inductive TaskPc
  /-- in `wait_exit` -/
  | waitExit
  /-- to take the monitor from the table -/
  | remove (reason : ExitReason)
  /-- to read `active` -/
  | load (reason : ExitReason)
  /-- in `actor_ref.send`, the call of that number on the mailbox -/
  | send (call : Nat)
  /-- `active` was cleared -/
  | inactive
  /-- `actor_ref.send` has panicked -/
  | panicked
deriving DecidableEq

structure MonitorTask where
  ref : MonitorRef
  target : ActorId
  active : Bool := true
  pc : TaskPc := .waitExit
deriving DecidableEq

/-- An owner, its monitors and the targets. -/
structure State (M : Type) where
  mailbox : Mailbox (UserItem M) := {}
  nextRef : MonitorRef := 1
  /-- the keys of the table `monitors` -/
  monitors : Finset MonitorRef := ∅
  tasks : List MonitorTask := []
  exits : Table ActorId ExitReason := Table.empty
  /-- the demonitor calls between the table and their store to `active` -/
  storing : List MonitorRef := []
  /-- what was passed to `demonitor` -/
  demonitored : List MonitorRef := []

inductive Act (M : Type)
  | monitor (target : ActorId)
  /-- another actor draws a number -/
  | otherMonitor
  /-- `demonitor`, its removal from the table -/
  | demonitor (ref : MonitorRef)
  /-- `demonitor`, its `active.store(false)` -/
  | store (ref : MonitorRef)
  | exit (target : ActorId) (reason : ExitReason)
  /-- the next step of a monitor task -/
  | task (i : Nat)
  /-- a step of the mailbox, or of another sender -/
  | mailbox (a : MailboxAct (UserItem M))

/-- Steps of the mailbox that are not of a monitor: others send messages, and the owner keeps its receiver. -/
def ofOthers {M : Type} : MailboxAct (UserItem M) → Bool
  | .drop => false
  | .call (.down _ _) => false
  | _ => true

namespace State

variable {M : Type}

def setPc (s : State M) (i : Nat) (task : MonitorTask) (pc : TaskPc) : State M :=
  { s with tasks := s.tasks.set i { task with pc } }

/-- `active.store(false)` -/
def clear (s : State M) (ref : MonitorRef) : State M :=
  { s with tasks := s.tasks.map fun task => if task.ref = ref then { task with active := false } else task }

/-- The next step of the monitor task `i`; `caller` is the runtime of the tasks. -/
def taskStep (limits : MailboxLimits) (caller : Caller) (s : State M) (i : Nat) (task : MonitorTask) :
    Option (State M) :=
  match task.pc with
  | .waitExit => (s.exits task.target).map fun reason => s.setPc i task (.remove reason)
  | .remove reason => some { s.setPc i task (.load reason) with monitors := s.monitors.erase task.ref }
  | .load reason =>
    if task.active then
      if limits.panics caller then some (s.setPc i task .panicked)
      else (mailboxStep limits s.mailbox (.call (.down task.ref reason))).map fun mailbox =>
        { s.setPc i task (.send s.mailbox.calls.length) with mailbox }
    else some (s.setPc i task .inactive)
  | .send _ => none
  | .inactive => none
  | .panicked => none

def next (limits : MailboxLimits) (caller : Caller) (s : State M) : Act M → Option (State M)
  | .monitor target =>
    some { s with
      nextRef := s.nextRef + 1
      monitors := insert s.nextRef s.monitors
      tasks := s.tasks ++ [{ ref := s.nextRef, target }] }
  | .otherMonitor => some { s with nextRef := s.nextRef + 1 }
  | .demonitor ref =>
    -- only a number that was drawn can be passed
    if ref < s.nextRef then
      some { s with
        monitors := s.monitors.erase ref
        storing := if ref ∈ s.monitors then ref :: s.storing else s.storing
        demonitored := ref :: s.demonitored }
    else none
  | .store ref => if ref ∈ s.storing then some { s.clear ref with storing := s.storing.erase ref } else none
  | .exit target reason =>
    if s.exits target = none then some { s with exits := s.exits.insert target reason } else none
  | .task i => s.tasks[i]?.bind (taskStep limits caller s i)
  | .mailbox a =>
    if ofOthers a then (mailboxStep limits s.mailbox a).map fun mailbox => { s with mailbox } else none

/-- The steps of an owner as a relation. -/
def Step (limits : MailboxLimits) (caller : Caller) (s : State M) (a : Act M) (s' : State M) : Prop :=
  s.next limits caller a = some s'

/-- A step of an owner, with its guards. -/
inductive Move (limits : MailboxLimits) (caller : Caller) (s : State M) : Act M → State M → Prop
  | monitor (target : ActorId) :
      Move limits caller s (.monitor target)
        { s with
          nextRef := s.nextRef + 1
          monitors := insert s.nextRef s.monitors
          tasks := s.tasks ++ [{ ref := s.nextRef, target }] }
  | otherMonitor : Move limits caller s .otherMonitor { s with nextRef := s.nextRef + 1 }
  | demonitor {ref : MonitorRef} (hlt : ref < s.nextRef) :
      Move limits caller s (.demonitor ref)
        { s with
          monitors := s.monitors.erase ref
          storing := if ref ∈ s.monitors then ref :: s.storing else s.storing
          demonitored := ref :: s.demonitored }
  | store {ref : MonitorRef} (href : ref ∈ s.storing) :
      Move limits caller s (.store ref) { s.clear ref with storing := s.storing.erase ref }
  | exit {target : ActorId} (halive : s.exits target = none) (reason : ExitReason) :
      Move limits caller s (.exit target reason) { s with exits := s.exits.insert target reason }
  | exited {i : Nat} {task : MonitorTask} {reason : ExitReason} (hi : s.tasks[i]? = some task)
      (hpc : task.pc = .waitExit) (hexit : s.exits task.target = some reason) :
      Move limits caller s (.task i) (s.setPc i task (.remove reason))
  | remove {i : Nat} {task : MonitorTask} {reason : ExitReason} (hi : s.tasks[i]? = some task)
      (hpc : task.pc = .remove reason) :
      Move limits caller s (.task i) { s.setPc i task (.load reason) with monitors := s.monitors.erase task.ref }
  | send {i : Nat} {task : MonitorTask} {reason : ExitReason} {mailbox : Mailbox (UserItem M)}
      (hi : s.tasks[i]? = some task) (hpc : task.pc = .load reason) (hactive : task.active = true)
      (hsends : limits.panics caller = false)
      (hcall : MailboxStep limits s.mailbox (.call (.down task.ref reason)) mailbox) :
      Move limits caller s (.task i) { s.setPc i task (.send s.mailbox.calls.length) with mailbox }
  | skip {i : Nat} {task : MonitorTask} {reason : ExitReason} (hi : s.tasks[i]? = some task)
      (hpc : task.pc = .load reason) (hactive : task.active = false) :
      Move limits caller s (.task i) (s.setPc i task .inactive)
  | panic {i : Nat} {task : MonitorTask} {reason : ExitReason} (hi : s.tasks[i]? = some task)
      (hpc : task.pc = .load reason) (hactive : task.active = true) (hpanics : limits.panics caller = true) :
      Move limits caller s (.task i) (s.setPc i task .panicked)
  | mailbox {a : MailboxAct (UserItem M)} {mailbox : Mailbox (UserItem M)} (ha : ofOthers a = true)
      (hstep : MailboxStep limits s.mailbox a mailbox) : Move limits caller s (.mailbox a) { s with mailbox }

theorem Step.moves {limits : MailboxLimits} {caller : Caller} {s s' : State M} {a : Act M}
    (hs : s.Step limits caller a s') : s.Move limits caller a s' := by
  unfold Step at hs
  cases a with
  | monitor target =>
    cases hs
    exact .monitor target
  | otherMonitor =>
    cases hs
    exact .otherMonitor
  | demonitor ref =>
    simp only [next] at hs
    by_cases hlt : ref < s.nextRef
    · rw [if_pos hlt] at hs
      cases hs
      exact .demonitor hlt
    · rw [if_neg hlt] at hs
      cases hs
  | store ref =>
    simp only [next] at hs
    split_ifs at hs with href
    cases hs
    exact .store href
  | exit target reason =>
    simp only [next] at hs
    split_ifs at hs with halive
    cases hs
    exact .exit halive reason
  | task i =>
    obtain ⟨task, hi, hs⟩ := Option.bind_eq_some_iff.mp hs
    unfold taskStep at hs
    cases hpc : task.pc <;> simp only [hpc] at hs
    case waitExit =>
      obtain ⟨reason, hexit, rfl⟩ := Option.map_eq_some_iff.mp hs
      exact .exited hi hpc hexit
    case remove reason =>
      cases hs
      exact .remove hi hpc
    case load reason =>
      split_ifs at hs with hactive hpanics
      · cases hs
        exact .panic hi hpc hactive hpanics
      · obtain ⟨mailbox, hcall, rfl⟩ := Option.map_eq_some_iff.mp hs
        exact .send hi hpc hactive (by simpa using hpanics) hcall
      · cases hs
        exact .skip hi hpc (by simpa using hactive)
    case send => cases hs
    case inactive => cases hs
    case panicked => cases hs
  | mailbox a =>
    simp only [next] at hs
    split_ifs at hs with ha
    obtain ⟨mailbox, hstep, rfl⟩ := Option.map_eq_some_iff.mp hs
    exact .mailbox ha hstep

/-- The reasons of the `Down`s enqueued under a reference. -/
def downs (s : State M) (ref : MonitorRef) : List ExitReason :=
  s.mailbox.calls.filterMap fun c =>
    match c.item, c.pc with
    | .down ref' reason, .returned (.ok ()) => if ref' = ref then some reason else none
    | _, _ => none

/-- Nothing is left to run: no monitor task moves, no send is under way, and the owner has read all there was. -/
def Settled (limits : MailboxLimits) (caller : Caller) (s : State M) : Prop :=
  (∀ i < s.tasks.length, (s.next limits caller (.task i)).isNone = true) ∧ s.mailbox.Quiet ∧ s.mailbox.user.isEmpty = true

instance (limits : MailboxLimits) (caller : Caller) (s : State M) : Decidable (s.Settled limits caller) :=
  inferInstanceAs (Decidable (_ ∧ _))

end State

/-- A `Down` does not load a full counter in `FailFast` mode. -/
def Delivers {M : Type} (limits : MailboxLimits) (s : Mailbox (UserItem M)) : MailboxAct (UserItem M) → Prop
  | .step i =>
    ∀ c ∈ s.calls[i]?, c.item.isDown = true → c.pc = .load → limits.mode = .failFast → limits.full s.depth = false
  | _ => True

instance {M : Type} (limits : MailboxLimits) (s : Mailbox (UserItem M)) :
    (a : MailboxAct (UserItem M)) → Decidable (Delivers limits s a)
  | .step i => inferInstanceAs (Decidable (∀ c ∈ s.calls[i]?, _))
  | .call _ | .weakFails _ | .cvarWakes _ | .dequeue | .release | .notify | .drop => isTrue trivial

/-- The task comes to its send. -/
def MonitorTask.comesToSend (task : MonitorTask) : Bool :=
  match task.pc with
  | .load _ => task.active
  | _ => false

/-- The step neither refuses a `Down` for a full mailbox nor loses a wake-up, and no send of a `Down` panics. -/
def Unhindered {M : Type} (limits : MailboxLimits) (caller : Caller) (s : State M) : Act M → Prop
  | .mailbox a => Delivers limits s.mailbox a ∧ (limits.mode = .block → Heard limits s.mailbox a)
  | .task i => ∀ task ∈ s.tasks[i]?, task.comesToSend = true → limits.panics caller = false
  | _ => True

instance {M : Type} (limits : MailboxLimits) (caller : Caller) (s : State M) :
    (a : Act M) → Decidable (Unhindered limits caller s a)
  | .mailbox _ => inferInstanceAs (Decidable (_ ∧ _))
  | .task i => inferInstanceAs (Decidable (∀ task ∈ s.tasks[i]?, _))
  | .monitor _ | .otherMonitor | .demonitor _ | .store _ | .exit _ _ => isTrue trivial

/-! ## The mailbox of an owner that is alive -/

/-- What is seen of a call: nobody rolls back, who waits does so in a bounded `Block` mailbox, and a `Down` that has an
answer was sent. -/
def Sends {M : Type} (limits : MailboxLimits) (item : UserItem M) : SendPc → Prop
  | .rollback | .notifyBlockers => False
  | .lock | .lockedLoad | .lockedAdd | .unlock | .toCvarWait | .cvarWait | .toNotified | .notified =>
    limits.mode = .block ∧ limits.capacity.isSome = true
  | .returned result => item.isDown = true → result = .ok ()
  | .load | .compareExchange _ | .send => True

/-- What the mailbox keeps while its receiver is there. -/
structure Open {M : Type} (limits : MailboxLimits) (s : Mailbox (UserItem M)) : Prop where
  receiver : s.receiver ≠ .dropped
  emptied : Emptied s
  calls : ∀ c ∈ s.calls, Sends limits c.item c.pc
  accounted : ∀ cap, limits.capacity = some cap → Accounted limits cap s
  waking : limits.mode = .block → limits.capacity.isSome = true → Waking limits s

section Open

variable {M : Type} {limits : MailboxLimits} {s s' : Mailbox (UserItem M)}

theorem full_isSome {depth : UInt64} (h : limits.full depth = true) : limits.capacity.isSome = true := by
  unfold MailboxLimits.full at h
  cases hcap : limits.capacity with
  | none => simp [hcap] at h
  | some cap => rfl

theorem sends_entry (limits : MailboxLimits) (item : UserItem M) : Sends limits item limits.entry := by
  unfold MailboxLimits.entry
  split
  · trivial
  · trivial
  · trivial
  · rename_i cap hcap hmode hruntime
    exact ⟨hmode, by rw [hcap]; rfl⟩

theorem sends_move {item : UserItem M} {pc pc' : SendPc} {depth : UInt64} {user : List (UserItem M)}
    (hreceiver : s.receiver ≠ .dropped) (h : Sends limits item pc) (hmove : SendMove limits s item pc pc' depth user)
    (hdelivers : item.isDown = true → pc = .load → limits.mode = .failFast → limits.full s.depth = false) :
    Sends limits item pc' := by
  cases hmove with
  | mailboxFull hfull hmode =>
    intro hdown
    rw [hdelivers hdown rfl hmode] at hfull
    cases hfull
  | loadFull hfull hmode =>
    refine ⟨?_, full_isSome hfull⟩
    cases hm : limits.mode with
    | failFast => exact absurd hm hmode
    | block => rfl
  | sent => exact fun _ => rfl
  | refused hdropped => exact absurd hdropped hreceiver
  | giveBack => exact h.elim
  | uncounted => exact h.elim
  | loadRoom | exchange | retry | unlock => trivial
  | notified | lock | lockedFull | lockedRoom | add | wait | wakes => exact h

theorem sends_wake {item : UserItem M} {pc : SendPc} (h : Sends limits item pc) : Sends limits item pc.wake := by
  cases pc with
  | notified => trivial
  | _ => exact h

theorem open_empty : Open limits ({} : Mailbox (UserItem M)) where
  receiver := by simp
  emptied := ⟨fun _ => rfl, fun hdropped => (by cases hdropped)⟩
  calls := by simp
  accounted := fun _ _ => .empty
  waking := fun _ _ => .empty

theorem receiver_step (hreceiver : s.receiver ≠ .dropped) {a : MailboxAct (UserItem M)}
    (ha : ofOthers a = true ∨ ∃ item, a = .call item) (hs : MailboxStep limits s a s') : s'.receiver ≠ .dropped := by
  cases hs.moves with
  | call | move => exact hreceiver
  | rolledBack => simpa using hreceiver
  | dequeue | release | unlimited | notify => simp
  | drop =>
    rcases ha with ha | ⟨item, ha⟩ <;> cases ha

theorem sends_step (hreceiver : s.receiver ≠ .dropped) (h : ∀ c ∈ s.calls, Sends limits c.item c.pc)
    {a : MailboxAct (UserItem M)} (hdelivers : Delivers limits s a) (hs : MailboxStep limits s a s') :
    ∀ c ∈ s'.calls, Sends limits c.item c.pc := by
  cases hs.moves with
  | call item =>
    intro c hc
    rcases List.mem_append.mp hc with hc | hc
    · exact h c hc
    · obtain rfl := List.mem_singleton.mp hc
      exact sends_entry limits item
  | @move _ i c pc depth user guard hi hmove ha hload hpc =>
    intro c' hc'
    rcases List.mem_or_eq_of_mem_set hc' with hc' | rfl
    · exact h c' hc'
    · refine sends_move hreceiver (h c (List.mem_of_getElem? hi)) hmove fun hdown hpc hmode => ?_
      obtain rfl := hload hpc
      exact hdelivers c hi hdown hpc hmode
  | @rolledBack i c hi hpc =>
    have hsends := h c (List.mem_of_getElem? hi)
    rw [hpc] at hsends
    exact hsends.elim
  | dequeue | release | unlimited | drop => exact h
  | notify =>
    intro c' hc'
    unfold Mailbox.notifyBlockers at hc'
    split at hc'
    · obtain ⟨c, hc, rfl⟩ := List.mem_map.mp hc'
      exact sends_wake (h c hc)
    · exact h c' hc'

theorem Open.step (h : Open limits s) {a : MailboxAct (UserItem M)} (ha : ofOthers a = true ∨ ∃ item, a = .call item)
    (hdelivers : Delivers limits s a) (hheard : limits.mode = .block → Heard limits s a)
    (hs : MailboxStep limits s a s') : Open limits s' where
  receiver := receiver_step h.receiver ha hs
  emptied := h.emptied.step hs
  calls := sends_step h.receiver h.calls hdelivers hs
  accounted := fun cap hcap => (h.accounted cap hcap).step hcap hs
  waking := by
    intro hmode hsome
    obtain ⟨cap, hcap⟩ := Option.isSome_iff_exists.mp hsome
    exact (h.waking hmode hsome).step (h.accounted cap hcap) hcap hmode (hheard hmode) hs

/-- When nothing runs and the owner has read all there was, no send waits. -/
theorem Open.returned (h : Open limits s) (hpos : ∀ cap, limits.capacity = some cap → 0 < cap) (hquiet : s.Quiet)
    (huser : s.user = []) : ∀ c ∈ s.calls, c.pc.returns = true := by
  intro c hc
  rcases hquiet.1 c hc with hreturns | hparked
  · exact hreturns
  · have hsends := h.calls c hc
    have hblock : limits.mode = .block ∧ limits.capacity.isSome = true := by
      cases hpc : c.pc <;> simp_all [SendPc.parked, Sends]
    obtain ⟨cap, hcap⟩ := Option.isSome_iff_exists.mp hblock.2
    have hheld : s.permitsHeld = 0 := Mailbox.permitsHeld_of_quiet hquiet
    have hpending : s.dequeuedPending = 0 := by
      have hidle := hquiet.2
      unfold Mailbox.dequeuedPending
      cases hr : s.receiver <;> simp_all [RecvPc.idle, RecvPc.pending]
    have hcount := (h.accounted cap hcap).count
    rw [huser, h.emptied.kept h.receiver, hheld, hpending] at hcount
    have hlt := UInt64.lt_iff_toNat_lt.mp (hpos cap hcap)
    have hroom := Waking.room_of_lt hcap (d := s.depth) (by simp at hcount hlt; omega)
    exact absurd ⟨hquiet, hroom, c, hc, hparked⟩ (h.waking hblock.1 hblock.2).not_stalled

end Open

/-! ## The monitor tasks -/

/-- The items of the calls made on a mailbox. -/
def items {M : Type} (m : Mailbox (UserItem M)) : List (UserItem M) := m.calls.map (·.item)

/-- What a step adds to them. -/
def called {M : Type} : MailboxAct (UserItem M) → List (UserItem M)
  | .call item => [item]
  | _ => []

theorem items_step {M : Type} {limits : MailboxLimits} {m m' : Mailbox (UserItem M)} {a : MailboxAct (UserItem M)}
    (hs : MailboxStep limits m a m') : items m' = items m ++ called a := by
  have hset : ∀ {i c} (pc : SendPc), m.calls[i]? = some c → items (m.setPc i c pc) = items m := fun {i c} pc hi =>
    map_set_eq (fun c : SendCall (UserItem M) => c.item) hi { c with pc } rfl
  have hwoken : ∀ m : Mailbox (UserItem M), items (m.notifyBlockers limits) = items m := by
    intro m
    unfold items Mailbox.notifyBlockers
    split <;> simp [Function.comp_def]
  cases hs.moves with
  | call item => simp [items, called]
  | @move a i c pc depth user guard hi hmove ha hload hpc =>
    have hnone : called a = [] := by
      rcases ha with rfl | rfl | rfl <;> rfl
    rw [hnone, List.append_nil]
    exact hset pc hi
  | rolledBack hi hpc => simp [hwoken, hset _ hi, called]
  | notify => exact (hwoken m).trans (List.append_nil _).symm
  | dequeue | release | unlimited | drop => simp [items, called]

/-- What is known where a monitor task stands. -/
def TaskPc.Holds {M : Type} (s : State M) (task : MonitorTask) : TaskPc → Prop
  | .waitExit => task.ref ∈ s.monitors ∨ task.ref ∈ s.storing ∨ task.active = false
  | .remove reason => s.exits task.target = some reason
  | .load reason => s.exits task.target = some reason
  | .send k => ∃ reason, s.exits task.target = some reason ∧ (items s.mailbox)[k]? = some (.down task.ref reason)
  | .inactive => task.active = false ∧ (s.exits task.target).isSome = true
  | .panicked => (s.exits task.target).isSome = true

/-- Where each monitor task stands, what the tables know of it, and whose `Down`s are in the mailbox. -/
structure Watching {M : Type} (s : State M) : Prop where
  drawn : ∀ task ∈ s.tasks, task.ref < s.nextRef
  distinct : (s.tasks.map (·.ref)).Nodup
  passed : ∀ ref ∈ s.demonitored, ref < s.nextRef
  stored : ∀ ref ∈ s.storing, ref ∈ s.demonitored
  unlisted : ∀ ref ∈ s.demonitored, ref ∉ s.monitors
  cleared : ∀ task ∈ s.tasks, task.active = false → task.ref ∈ s.demonitored
  holds : ∀ task ∈ s.tasks, task.pc.Holds s task
  owned : ∀ k ref reason, (items s.mailbox)[k]? = some (.down ref reason) →
    ∃ task ∈ s.tasks, task.ref = ref ∧ task.pc = .send k

namespace Watching

variable {M : Type} {limits : MailboxLimits} {caller : Caller} {s s' : State M} {i : Nat} {task : MonitorTask}

theorem init : Watching ({} : State M) := by
  constructor <;> simp [items]

/-- A reference is used by one task. -/
theorem task_unique (h : Watching s) {task' : MonitorTask} (ht : task ∈ s.tasks) (ht' : task' ∈ s.tasks)
    (href : task.ref = task'.ref) : task = task' :=
  List.inj_on_of_nodup_map h.distinct ht ht' href

/-- The tasks after one of them moved. -/
theorem mem_setPc (h : Watching s) (hi : s.tasks[i]? = some task) {pc : TaskPc} {task' : MonitorTask}
    (ht : task' ∈ (s.setPc i task pc).tasks) :
    task' = { task with pc } ∨ (task' ∈ s.tasks ∧ task'.ref ≠ task.ref) := by
  obtain ⟨j, hj⟩ := List.getElem?_of_mem ht
  rcases getElem?_set_cases hi hj with ⟨-, rfl⟩ | ⟨hji, hj⟩
  · exact Or.inl rfl
  · refine Or.inr ⟨List.mem_of_getElem? hj, fun href => hji ?_⟩
    have hlt : j < (s.tasks.map (·.ref)).length := by simpa using (List.getElem?_eq_some_iff.mp hj).1
    refine (List.getElem?_inj hlt h.distinct).mp ?_
    rw [List.getElem?_map, List.getElem?_map, hj, hi, Option.map_some, Option.map_some, href]

theorem monitor (h : Watching s) (target : ActorId) :
    Watching { s with
      nextRef := s.nextRef + 1
      monitors := insert s.nextRef s.monitors
      tasks := s.tasks ++ [{ ref := s.nextRef, target }] } where
  drawn := by
    intro task ht
    rcases List.mem_append.mp ht with ht | ht
    · exact Nat.lt_succ_of_lt (h.drawn task ht)
    · obtain rfl := List.mem_singleton.mp ht
      exact Nat.lt_succ_self _
  distinct := by
    rw [List.map_append, List.map_singleton]
    refine List.nodup_append'.mpr ⟨h.distinct, List.nodup_singleton _, ?_⟩
    intro ref hmem hnew
    obtain ⟨task, ht, rfl⟩ := List.mem_map.mp hmem
    exact Nat.ne_of_lt (h.drawn task ht) (List.mem_singleton.mp hnew)
  passed := fun ref href => Nat.lt_succ_of_lt (h.passed ref href)
  stored := h.stored
  unlisted := by
    intro ref href hmem
    rcases Finset.mem_insert.mp hmem with rfl | hmem
    · exact Nat.lt_irrefl _ (h.passed _ href)
    · exact h.unlisted ref href hmem
  cleared := by
    intro task ht hactive
    rcases List.mem_append.mp ht with ht | ht
    · exact h.cleared task ht hactive
    · obtain rfl := List.mem_singleton.mp ht
      cases hactive
  holds := by
    intro task ht
    rcases List.mem_append.mp ht with ht | ht
    · have hold := h.holds task ht
      cases hpc : task.pc with
      | waitExit =>
        rw [hpc] at hold
        exact hold.imp (Finset.mem_insert_of_mem ·) id
      | _ => simpa only [hpc, TaskPc.Holds] using hold
    · obtain rfl := List.mem_singleton.mp ht
      exact Or.inl (Finset.mem_insert_self _ _)
  owned := by
    intro k ref reason hk
    obtain ⟨task, ht, hown⟩ := h.owned k ref reason hk
    exact ⟨task, List.mem_append_left _ ht, hown⟩

theorem otherMonitor (h : Watching s) : Watching { s with nextRef := s.nextRef + 1 } where
  drawn := fun task ht => Nat.lt_succ_of_lt (h.drawn task ht)
  distinct := h.distinct
  passed := fun ref href => Nat.lt_succ_of_lt (h.passed ref href)
  stored := h.stored
  unlisted := h.unlisted
  cleared := h.cleared
  holds := h.holds
  owned := h.owned

/-- What was in the table is now on its way to the store. -/
theorem demonitor (h : Watching s) {ref : MonitorRef} (hlt : ref < s.nextRef) :
    Watching { s with
      monitors := s.monitors.erase ref
      storing := if ref ∈ s.monitors then ref :: s.storing else s.storing
      demonitored := ref :: s.demonitored } where
  drawn := h.drawn
  distinct := h.distinct
  passed := by
    intro ref' href
    rcases List.mem_cons.mp href with rfl | href
    · exact hlt
    · exact h.passed ref' href
  stored := by
    intro ref' href
    dsimp only at href
    split_ifs at href
    · rcases List.mem_cons.mp href with rfl | href
      · exact List.mem_cons_self
      · exact List.mem_cons_of_mem _ (h.stored ref' href)
    · exact List.mem_cons_of_mem _ (h.stored ref' href)
  unlisted := by
    intro ref' href hmem
    obtain ⟨hne, hmem⟩ := Finset.mem_erase.mp hmem
    rcases List.mem_cons.mp href with rfl | href
    · exact hne rfl
    · exact h.unlisted ref' href hmem
  cleared := fun task ht hactive => List.mem_cons_of_mem _ (h.cleared task ht hactive)
  holds := by
    intro task ht
    have hold := h.holds task ht
    cases hpc : task.pc with
    | waitExit =>
      rw [hpc] at hold
      show task.ref ∈ s.monitors.erase ref ∨ task.ref ∈ (if ref ∈ s.monitors then ref :: s.storing else s.storing) ∨ _
      rcases hold with hmem | hmem | hactive
      · by_cases href : task.ref = ref
        · rw [← href, if_pos hmem]
          exact Or.inr (Or.inl List.mem_cons_self)
        · exact Or.inl (Finset.mem_erase.mpr ⟨href, hmem⟩)
      · refine Or.inr (Or.inl ?_)
        split_ifs
        · exact List.mem_cons_of_mem _ hmem
        · exact hmem
      · exact Or.inr (Or.inr hactive)
    | _ => simpa only [hpc, TaskPc.Holds] using hold
  owned := h.owned

theorem store (h : Watching s) {ref : MonitorRef} (href : ref ∈ s.storing) :
    Watching { s.clear ref with storing := s.storing.erase ref } := by
  -- every task after the store is one before it, with the same place and perhaps its flag cleared
  have hback : ∀ task' ∈ (s.clear ref).tasks, ∃ task ∈ s.tasks, task'.ref = task.ref ∧ task'.target = task.target ∧
      task'.pc = task.pc ∧ (task'.active = task.active ∨ task.ref = ref) ∧ (task.ref = ref → task'.active = false) := by
    intro task' ht'
    obtain ⟨task, ht, rfl⟩ := List.mem_map.mp ht'
    refine ⟨task, ht, ?_⟩
    split_ifs with heq <;> simp [heq]
  constructor
  case drawn =>
    intro task' ht
    obtain ⟨task, ht, hr, -⟩ := hback task' ht
    rw [hr]
    exact h.drawn task ht
  case distinct =>
    have hrefs : (s.clear ref).tasks.map (·.ref) = s.tasks.map (·.ref) := by
      simp only [State.clear, List.map_map]
      refine List.map_congr_left fun task _ => ?_
      simp only [Function.comp_apply]
      split_ifs <;> rfl
    exact hrefs ▸ h.distinct
  case passed => exact h.passed
  case stored => exact fun ref' href' => h.stored ref' (List.mem_of_mem_erase href')
  case unlisted => exact h.unlisted
  case cleared =>
    intro task' ht hactive
    obtain ⟨task, ht, hr, -, -, hflag, -⟩ := hback task' ht
    show task'.ref ∈ s.demonitored
    rw [hr]
    rcases hflag with hflag | heq
    · exact h.cleared task ht (hflag ▸ hactive)
    · exact heq ▸ h.stored ref href
  case holds =>
    intro task' ht
    obtain ⟨task, ht, hr, htarget, hpc, hflag, hcleared⟩ := hback task' ht
    have hold := h.holds task ht
    rw [hpc]
    cases hpc' : task.pc with
    | waitExit =>
      rw [hpc'] at hold
      show task'.ref ∈ s.monitors ∨ task'.ref ∈ s.storing.erase ref ∨ task'.active = false
      by_cases heq : task.ref = ref
      · exact Or.inr (Or.inr (hcleared heq))
      · have hsame : task'.active = task.active := hflag.resolve_right heq
        rw [hr, List.mem_erase_of_ne heq, hsame]
        exact hold
    | inactive =>
      rw [hpc'] at hold
      refine ⟨?_, by rw [htarget]; exact hold.2⟩
      rcases hflag with hflag | heq
      · exact hflag.trans hold.1
      · exact hcleared heq
    | remove reason =>
      rw [hpc'] at hold
      show s.exits task'.target = some reason
      rw [htarget]
      exact hold
    | load reason =>
      rw [hpc'] at hold
      show s.exits task'.target = some reason
      rw [htarget]
      exact hold
    | send k =>
      rw [hpc'] at hold
      show ∃ reason, s.exits task'.target = some reason ∧ (items s.mailbox)[k]? = some (.down task'.ref reason)
      rw [htarget, hr]
      exact hold
    | panicked =>
      rw [hpc'] at hold
      show (s.exits task'.target).isSome = true
      rw [htarget]
      exact hold
  case owned =>
    intro k ref' reason hk
    obtain ⟨task, ht, hr, hpc⟩ := h.owned k ref' reason hk
    refine ⟨_, List.mem_map.mpr ⟨task, ht, rfl⟩, ?_, ?_⟩
    · split_ifs <;> exact hr
    · split_ifs <;> exact hpc

theorem exit (h : Watching s) {target : ActorId} (halive : s.exits target = none) (reason : ExitReason) :
    Watching { s with exits := s.exits.insert target reason } where
  drawn := h.drawn
  distinct := h.distinct
  passed := h.passed
  stored := h.stored
  unlisted := h.unlisted
  cleared := h.cleared
  holds := by
    intro task ht
    have hkept : ∀ {reason'}, s.exits task.target = some reason' →
        s.exits.insert target reason task.target = some reason' := by
      intro reason' hexit
      rw [Table.insert_ne _ _ fun heq => ?_, hexit]
      rw [heq, halive] at hexit
      cases hexit
    have hstays : (s.exits task.target).isSome = true → (s.exits.insert target reason task.target).isSome = true := by
      intro hsome
      obtain ⟨reason', hexit⟩ := Option.isSome_iff_exists.mp hsome
      rw [hkept hexit]
      rfl
    have hold := h.holds task ht
    cases hpc : task.pc with
    | waitExit => simpa only [hpc, TaskPc.Holds] using hold
    | remove reason' => exact hkept (by simpa only [hpc, TaskPc.Holds] using hold)
    | load reason' => exact hkept (by simpa only [hpc, TaskPc.Holds] using hold)
    | send k =>
      rw [hpc] at hold
      obtain ⟨reason', hexit, hk⟩ := hold
      exact ⟨reason', hkept hexit, hk⟩
    | inactive =>
      rw [hpc] at hold
      exact ⟨hold.1, hstays hold.2⟩
    | panicked =>
      rw [hpc] at hold
      exact hstays hold
  owned := h.owned

/-- A step of a monitor task, with what it may do to the table and the mailbox. -/
theorem move (h : Watching s) (hi : s.tasks[i]? = some task) (pc : TaskPc) {monitors : Finset MonitorRef}
    {mailbox : Mailbox (UserItem M)} (hrunning : ∀ k, task.pc ≠ .send k) (hsub : monitors ⊆ s.monitors)
    (hothers : ∀ ref, ref ≠ task.ref → ref ∈ s.monitors → ref ∈ monitors)
    (hitems : items mailbox = items s.mailbox ∨
      ∃ reason, items mailbox = items s.mailbox ++ [.down task.ref reason] ∧ pc = .send (items s.mailbox).length)
    (hholds : pc.Holds { s.setPc i task pc with monitors, mailbox } { task with pc }) :
    Watching { s.setPc i task pc with monitors, mailbox } := by
  have hkept : ∀ {k : Nat} {item}, (items s.mailbox)[k]? = some item → (items mailbox)[k]? = some item := by
    intro k item hk
    rcases hitems with he | ⟨reason, he, -⟩
    · rw [he, hk]
    · rw [he, List.getElem?_append_left (List.getElem?_eq_some_iff.mp hk).1, hk]
  have hstill : ∀ task' ∈ s.tasks, task'.ref ≠ task.ref → task' ∈ (s.setPc i task pc).tasks := fun task' ht hne =>
    mem_set_of_ne hi _ ht fun he => hne (congrArg MonitorTask.ref he)
  constructor
  case drawn =>
    intro task' ht
    rcases h.mem_setPc hi ht with rfl | ⟨ht, -⟩
    · exact h.drawn task (List.mem_of_getElem? hi)
    · exact h.drawn task' ht
  case distinct =>
    have hrefs := map_set_eq (fun task : MonitorTask => task.ref) hi { task with pc } rfl
    show ((s.tasks.set i { task with pc }).map (·.ref)).Nodup
    rw [hrefs]
    exact h.distinct
  case passed => exact h.passed
  case stored => exact h.stored
  case unlisted => exact fun ref href hmem => h.unlisted ref href (hsub hmem)
  case cleared =>
    intro task' ht hactive
    rcases h.mem_setPc hi ht with rfl | ⟨ht, -⟩
    · exact h.cleared task (List.mem_of_getElem? hi) hactive
    · exact h.cleared task' ht hactive
  case holds =>
    intro task' ht
    rcases h.mem_setPc hi ht with rfl | ⟨ht, hne⟩
    · exact hholds
    · have hold := h.holds task' ht
      cases hpc : task'.pc with
      | waitExit =>
        rw [hpc] at hold
        exact hold.imp (hothers _ hne) id
      | send k =>
        rw [hpc] at hold
        obtain ⟨reason, hexit, hk⟩ := hold
        exact ⟨reason, hexit, hkept hk⟩
      | _ =>
        rw [hpc] at hold
        exact hold
  case owned =>
    intro k ref reason hk
    by_cases hold : (items s.mailbox)[k]? = some (.down ref reason)
    · obtain ⟨task', ht, hr, hpc⟩ := h.owned k ref reason hold
      refine ⟨task', hstill task' ht fun hr' => ?_, hr, hpc⟩
      rw [h.task_unique ht (List.mem_of_getElem? hi) hr'] at hpc
      exact hrunning k hpc
    · rcases hitems with he | ⟨reason', he, rfl⟩
      · rw [← he] at hold
        exact absurd hk hold
      · have hlast : k = (items s.mailbox).length ∧ ref = task.ref := by
          change (items mailbox)[k]? = _ at hk
          rw [he] at hk
          by_cases hlt : k < (items s.mailbox).length
          · rw [List.getElem?_append_left hlt] at hk
            exact absurd hk hold
          · rw [List.getElem?_append_right (Nat.le_of_not_lt hlt), List.getElem?_singleton] at hk
            split_ifs at hk with hzero
            have hdown := UserItem.down.inj (Option.some.inj hk)
            exact ⟨by omega, hdown.1.symm⟩
        refine ⟨_, mem_set_self hi _, hlast.2.symm, ?_⟩
        rw [hlast.1]

/-- A step of the mailbox that is not of a monitor. -/
theorem mailboxStep (h : Watching s) {a : MailboxAct (UserItem M)} (ha : ofOthers a = true)
    {mailbox : Mailbox (UserItem M)} (hs : MailboxStep limits s.mailbox a mailbox) : Watching { s with mailbox } := by
  have hitems := items_step hs
  have hmessages : ∀ ref reason, UserItem.down ref reason ∉ called a := by
    intro ref reason hmem
    cases a with
    | call item =>
      obtain rfl := List.mem_singleton.mp hmem
      cases ha
    | _ => cases hmem
  refine ⟨h.drawn, h.distinct, h.passed, h.stored, h.unlisted, h.cleared, ?_, ?_⟩
  · intro task ht
    have hold := h.holds task ht
    cases hpc : task.pc with
    | send k =>
      rw [hpc] at hold
      obtain ⟨reason, hexit, hk⟩ := hold
      refine ⟨reason, hexit, ?_⟩
      show (items mailbox)[k]? = _
      rw [hitems, List.getElem?_append_left (List.getElem?_eq_some_iff.mp hk).1, hk]
    | _ => simpa only [hpc, TaskPc.Holds] using hold
  · intro k ref reason hk
    change (items mailbox)[k]? = _ at hk
    rw [hitems] at hk
    by_cases hlt : k < (items s.mailbox).length
    · rw [List.getElem?_append_left hlt] at hk
      exact h.owned k ref reason hk
    · rw [List.getElem?_append_right (Nat.le_of_not_lt hlt)] at hk
      exact absurd (List.mem_of_getElem? hk) (hmessages ref reason)

/-- Every step of the owner keeps the invariant. -/
theorem step (h : Watching s) {a : Act M} (hs : s.Step limits caller a s') : Watching s' := by
  have hold : ∀ {i : Nat} {task : MonitorTask}, s.tasks[i]? = some task → task.pc.Holds s task :=
    fun hi => h.holds _ (List.mem_of_getElem? hi)
  cases hs.moves with
  | monitor target => exact h.monitor target
  | otherMonitor => exact h.otherMonitor
  | demonitor hlt => exact h.demonitor hlt
  | store href => exact h.store href
  | exit halive reason => exact h.exit halive reason
  | @exited i task reason hi hpc hexit =>
    exact h.move hi (.remove reason) (by simp [hpc]) (Finset.Subset.refl _) (fun _ _ hmem => hmem) (Or.inl rfl) hexit
  | @remove i task reason hi hpc =>
    have hexit := hold hi
    rw [hpc] at hexit
    exact h.move hi (.load reason) (by simp [hpc]) (Finset.erase_subset _ _)
      (fun ref hne hmem => Finset.mem_erase.mpr ⟨hne, hmem⟩) (Or.inl rfl) hexit
  | @send i task reason mailbox hi hpc hactive _ hcall =>
    have hexit := hold hi
    rw [hpc] at hexit
    have hitems := items_step hcall
    have hlength : s.mailbox.calls.length = (items s.mailbox).length := by simp [items]
    rw [hlength]
    refine h.move hi _ (by simp [hpc]) (Finset.Subset.refl _) (fun _ _ hmem => hmem) (Or.inr ⟨reason, hitems, rfl⟩) ?_
    refine ⟨reason, hexit, ?_⟩
    show (items mailbox)[(items s.mailbox).length]? = _
    rw [hitems, List.getElem?_append_right (Nat.le_refl _), Nat.sub_self]
    rfl
  | @skip i task reason hi hpc hactive =>
    have hexit := hold hi
    rw [hpc] at hexit
    refine h.move hi .inactive (by simp [hpc]) (Finset.Subset.refl _) (fun _ _ hmem => hmem) (Or.inl rfl) ⟨hactive, ?_⟩
    exact Option.isSome_iff_exists.mpr ⟨reason, hexit⟩
  | @panic i task reason hi hpc =>
    have hexit := hold hi
    rw [hpc] at hexit
    refine h.move hi .panicked (by simp [hpc]) (Finset.Subset.refl _) (fun _ _ hmem => hmem) (Or.inl rfl) ?_
    exact Option.isSome_iff_exists.mpr ⟨reason, hexit⟩
  | mailbox ha hstep => exact h.mailboxStep ha hstep

/-! ### What was enqueued -/

/-- The one `Down` of a monitor, once it is enqueued. -/
theorem downs_of_send (h : Watching s) (ht : task ∈ s.tasks) {k : Nat} (hpc : task.pc = .send k) :
    ∃ reason c, s.exits task.target = some reason ∧ s.mailbox.calls[k]? = some c ∧ c.item = .down task.ref reason ∧
      s.downs task.ref = if c.pc = .returned (.ok ()) then [reason] else [] := by
  have hold := h.holds task ht
  rw [hpc] at hold
  obtain ⟨reason, hexit, hk⟩ := hold
  obtain ⟨c, hc, hitem⟩ := Option.map_eq_some_iff.mp ((List.getElem?_map ..).symm.trans hk)
  refine ⟨reason, c, hexit, hc, hitem, ?_⟩
  unfold State.downs
  rw [filterMap_of_unique hc]
  · rw [hitem]
    split
    · rename_i hdown hok
      cases hdown
      simp [hok]
    · rename_i hne
      rw [if_neg fun hok => hne _ _ rfl hok]
      rfl
  · intro j c' hj hsome
    have hdown : ∃ reason', c'.item = .down task.ref reason' := by
      split at hsome
      · rename_i ref reason' hitem' hok
        split_ifs at hsome with href
        · exact ⟨reason', href ▸ hitem'⟩
        · cases hsome
      · cases hsome
    obtain ⟨reason', hitem'⟩ := hdown
    have hj' : (items s.mailbox)[j]? = some (.down task.ref reason') := by
      rw [items, List.getElem?_map, hj, Option.map_some, hitem']
    obtain ⟨task', ht', href, hpc'⟩ := h.owned j task.ref reason' hj'
    rw [h.task_unique ht' ht href, hpc] at hpc'
    exact (TaskPc.send.inj hpc').symm

/-- A monitor that did not come to its send has enqueued nothing. -/
theorem downs_of_not_send (h : Watching s) {ref : MonitorRef}
    (hpc : ∀ task ∈ s.tasks, task.ref = ref → ∀ k, task.pc ≠ .send k) : s.downs ref = [] := by
  refine List.filterMap_eq_nil_iff.mpr fun c hc => ?_
  split
  · rename_i ref' reason hitem hok
    split_ifs with href
    · obtain ⟨k, hk⟩ := List.getElem?_of_mem hc
      have hk' : (items s.mailbox)[k]? = some (.down ref' reason) := by
        rw [items, List.getElem?_map, hk, Option.map_some, hitem]
      obtain ⟨task, ht, href', hpc'⟩ := h.owned k ref' reason hk'
      exact absurd hpc' (hpc task ht (href'.trans href) k)
    · rfl
  · rfl

/-- At most one `Down`, and with the reason of the target. -/
theorem downs_cases (h : Watching s) (ht : task ∈ s.tasks) :
    s.downs task.ref = [] ∨ ∃ reason, s.exits task.target = some reason ∧ s.downs task.ref = [reason] := by
  by_cases hsend : ∃ k, task.pc = .send k
  · obtain ⟨k, hpc⟩ := hsend
    obtain ⟨reason, c, hexit, -, -, hdowns⟩ := h.downs_of_send ht hpc
    rw [hdowns]
    split_ifs
    · exact Or.inr ⟨reason, hexit, rfl⟩
    · exact Or.inl rfl
  · refine Or.inl (h.downs_of_not_send fun task' ht' href k hpc => hsend ⟨k, ?_⟩)
    rw [h.task_unique ht ht' href.symm, hpc]

/-- When nothing is left to run, a monitor whose target exited and that was never passed to `demonitor` is in its send. -/
theorem send_of_settled (h : Watching s) (hsettled : s.Settled limits caller) (ht : task ∈ s.tasks)
    {reason : ExitReason} (hexit : s.exits task.target = some reason) (hnever : task.ref ∉ s.demonitored)
    (hcalm : task.pc ≠ .panicked) : ∃ k, task.pc = .send k := by
  obtain ⟨i, hi⟩ := List.getElem?_of_mem ht
  have hstuck : s.taskStep limits caller i task = none := by
    have hnone := hsettled.1 i (List.getElem?_eq_some_iff.mp hi).1
    rw [Option.isNone_iff_eq_none, State.next, hi] at hnone
    exact hnone
  have hactive : task.active = true := by
    by_contra hne
    exact hnever (h.cleared task ht (by simpa using hne))
  have hold := h.holds task ht
  unfold State.taskStep at hstuck
  cases hpc : task.pc <;> simp only [hpc] at hstuck hold
  case waitExit => simp [hexit] at hstuck
  case remove => cases hstuck
  case load =>
    rw [if_pos hactive] at hstuck
    split at hstuck <;> simp [Spawned.mailboxStep] at hstuck
  case send k => exact ⟨k, rfl⟩
  case inactive => exact absurd hold.1 (by simp [hactive])
  case panicked => exact absurd hpc hcalm

end Watching

/-! ## Runs -/

section Runs

variable {M : Type} {limits : MailboxLimits} {caller : Caller} {s s' : State M} {a : Act M}

theorem open_step (h : Open limits s.mailbox) (hun : Unhindered limits caller s a) (hs : s.Step limits caller a s') :
    Open limits s'.mailbox := by
  cases hs.moves with
  | send hi hpc hactive hsends hcall =>
    refine h.step (Or.inr ⟨_, rfl⟩) trivial (fun _ hnotifies => ?_) hcall
    cases hnotifies
  | mailbox ha hstep => exact h.step (Or.inl ha) hun.1 hun.2 hstep
  | _ => exact h

/-- No monitor task has panicked. -/
def Calm (s : State M) : Prop := ∀ task ∈ s.tasks, task.pc ≠ .panicked

theorem calm_step (h : Calm s) (hun : Unhindered limits caller s a) (hs : s.Step limits caller a s') : Calm s' := by
  have hset : ∀ {i : Nat} {task : MonitorTask} {pc : TaskPc}, pc ≠ .panicked →
      ∀ task' ∈ (s.setPc i task pc).tasks, task'.pc ≠ .panicked := by
    intro i task pc hpc task' ht'
    rcases List.mem_or_eq_of_mem_set ht' with ht' | rfl
    · exact h task' ht'
    · exact hpc
  cases hs.moves with
  | monitor target =>
    intro task ht
    rcases List.mem_append.mp ht with ht | ht
    · exact h task ht
    · rw [List.mem_singleton.mp ht]
      simp
  | store href =>
    intro task' ht'
    obtain ⟨task, ht, rfl⟩ := List.mem_map.mp ht'
    have hpc := h task ht
    split_ifs <;> exact hpc
  | exited | remove | send | skip => exact hset (by simp)
  | @panic i task reason hi hpc hactive hpanics =>
    have hnot := hun task hi (by simp [MonitorTask.comesToSend, hpc, hactive])
    rw [hpanics] at hnot
    cases hnot
  | otherMonitor | demonitor | exit | mailbox => exact h

theorem open_run {τ : List (State M × Act M)} (h : Run (State.Step limits caller) {} τ s)
    (hun : ∀ x ∈ τ, Unhindered limits caller x.1 x.2) : Open limits s.mailbox ∧ Calm s :=
  h.inv_of_steps (I := fun s => Open limits s.mailbox ∧ Calm s) ⟨open_empty, by simp [Calm]⟩
    (fun _ _ _ hs hun hstep => ⟨open_step hs.1 hun hstep, calm_step hs.2 hun hstep⟩) hun

/-- The flag of the monitor is cleared, and it has not come to its send. -/
def Muted (ref : MonitorRef) (s : State M) : Prop :=
  ref < s.nextRef ∧ ∀ task ∈ s.tasks, task.ref = ref → task.active = false ∧ ∀ k, task.pc ≠ .send k

/-- A monitor that was demonitored, the call having returned, while its target was alive. -/
theorem muted_of_alive (h : Watching s) {task : MonitorTask} (ht : task ∈ s.tasks) (halive : s.exits task.target = none)
    (hpassed : task.ref ∈ s.demonitored) (hstored : task.ref ∉ s.storing) : Muted task.ref s := by
  refine ⟨h.drawn task ht, fun task' ht' href => ?_⟩
  obtain rfl := h.task_unique ht ht' href.symm
  have hold := h.holds task ht
  cases hpc : task.pc <;> simp only [hpc, TaskPc.Holds] at hold
  case waitExit =>
    rcases hold with hmem | hmem | hactive
    · exact absurd hmem (h.unlisted _ hpassed)
    · exact absurd hmem hstored
    · exact ⟨hactive, by simp⟩
  case remove => rw [halive] at hold; cases hold
  case load => rw [halive] at hold; cases hold
  case send =>
    obtain ⟨reason, hexit, -⟩ := hold
    rw [halive] at hexit
    cases hexit
  case inactive => rw [halive] at hold; cases hold.2
  case panicked => rw [halive] at hold; cases hold

theorem Muted.step {ref : MonitorRef} (h : Muted ref s) (hs : s.Step limits caller a s') : Muted ref s' := by
  obtain ⟨hlt, hmuted⟩ := h
  have hmove : ∀ {i : Nat} {task : MonitorTask} (pc : TaskPc), s.tasks[i]? = some task → (∀ k, pc ≠ .send k) →
      ∀ task' ∈ (s.setPc i task pc).tasks, task'.ref = ref → task'.active = false ∧ ∀ k, task'.pc ≠ .send k := by
    intro i task pc hi hpc task' ht' href
    rcases List.mem_or_eq_of_mem_set ht' with ht' | rfl
    · exact hmuted task' ht' href
    · exact ⟨(hmuted task (List.mem_of_getElem? hi) href).1, hpc⟩
  cases hs.moves with
  | monitor target =>
    refine ⟨Nat.lt_succ_of_lt hlt, fun task ht href => ?_⟩
    rcases List.mem_append.mp ht with ht | ht
    · exact hmuted task ht href
    · obtain rfl := List.mem_singleton.mp ht
      exact absurd href.symm (Nat.ne_of_lt hlt)
  | otherMonitor => exact ⟨Nat.lt_succ_of_lt hlt, hmuted⟩
  | store href' =>
    refine ⟨hlt, fun task' ht' href => ?_⟩
    obtain ⟨task, ht, rfl⟩ := List.mem_map.mp ht'
    split_ifs at href ⊢
    · exact ⟨rfl, (hmuted task ht href).2⟩
    · exact hmuted task ht href
  | exited hi => exact ⟨hlt, hmove _ hi (by simp)⟩
  | remove hi => exact ⟨hlt, hmove _ hi (by simp)⟩
  | @send i task reason mailbox hi hpc hactive _ hcall =>
    -- a task that sends has its flag set
    refine ⟨hlt, fun task' ht' href => ?_⟩
    rcases List.mem_or_eq_of_mem_set ht' with ht' | rfl
    · exact hmuted task' ht' href
    · have hcleared := (hmuted task (List.mem_of_getElem? hi) href).1
      rw [hactive] at hcleared
      cases hcleared
  | skip hi => exact ⟨hlt, hmove _ hi (by simp)⟩
  | panic hi => exact ⟨hlt, hmove _ hi (by simp)⟩
  | demonitor | exit | mailbox => exact ⟨hlt, hmuted⟩

/-- Demonitored while the target was alive. -/
def DemonitoredAlive (s : State M) (task : MonitorTask) : Prop :=
  task ∈ s.tasks ∧ s.exits task.target = none ∧ task.ref ∈ s.demonitored ∧ task.ref ∉ s.storing

/-- The tasks of a run, and those muted in it. -/
theorem watching_run {τ : List (State M × Act M)} (h : Run (State.Step limits caller) {} τ s) :
    Watching s ∧ ∀ x ∈ τ, ∀ task, DemonitoredAlive x.1 task → Muted task.ref s := by
  refine h.inv_history (I := fun τ s => Watching s ∧ ∀ x ∈ τ, ∀ task, DemonitoredAlive x.1 task → Muted task.ref s)
    ⟨Watching.init, by simp⟩ ?_
  rintro τ s a s' ⟨hwatching, hmuted⟩ hstep
  refine ⟨hwatching.step hstep, fun x hx task hdem => ?_⟩
  rcases List.mem_append.mp hx with hx | hx
  · exact (hmuted x hx task hdem).step hstep
  · obtain rfl := List.mem_singleton.mp hx
    obtain ⟨ht, halive, hpassed, hstored⟩ := hdem
    exact (muted_of_alive hwatching ht halive hpassed hstored).step hstep

end Runs

/-- **Monitors deliver exactly one `Down`.** For every mailbox of the owner, every traffic on it and every order of the
exits, the monitor tasks and the demonitor calls: in a run that neither refuses a `Down` for a full mailbox nor loses a
wake-up, and in which no send of a `Down` panics, when nothing is left to run, each monitor whose target exited and that
was never passed to `demonitor` has led to one `Down` with the reason of the target. In every run there is never more than
that one, and none for a monitor demonitored while its target was alive. -/
theorem monitor_delivers_once {M : Type} (limits : MailboxLimits) (caller : Caller)
    (hpos : ∀ cap, limits.capacity = some cap → 0 < cap) {τ : List (State M × Act M)} {s : State M}
    (h : Run (State.Step limits caller) {} τ s) :
    ((∀ x ∈ τ, Unhindered limits caller x.1 x.2) → s.Settled limits caller → ∀ task ∈ s.tasks, ∀ reason,
      s.exits task.target = some reason → task.ref ∉ s.demonitored → s.downs task.ref = [reason]) ∧
    (∀ task ∈ s.tasks,
      s.downs task.ref = [] ∨ ∃ reason, s.exits task.target = some reason ∧ s.downs task.ref = [reason]) ∧
    ∀ x ∈ τ, ∀ task, DemonitoredAlive x.1 task → s.downs task.ref = [] := by
  obtain ⟨hwatching, hmuted⟩ := watching_run h
  refine ⟨?_, fun task ht => hwatching.downs_cases ht, ?_⟩
  · intro hun hsettled task ht reason hexit hnever
    obtain ⟨hopen, hcalm⟩ := open_run h hun
    obtain ⟨k, hpc⟩ := hwatching.send_of_settled hsettled ht hexit hnever (hcalm task ht)
    obtain ⟨reason', c, hexit', hc, hitem, hdowns⟩ := hwatching.downs_of_send ht hpc
    obtain rfl := Option.some.inj (hexit.symm.trans hexit')
    have hmem := List.mem_of_getElem? hc
    have hreturns := hopen.returned hpos hsettled.2.1 (List.isEmpty_iff.mp hsettled.2.2) c hmem
    have hsent := hopen.calls c hmem
    rw [hdowns]
    cases hcpc : c.pc <;> simp only [hcpc, SendPc.returns] at hreturns hsent
    case returned result =>
      rw [hsent (by rw [hitem]; rfl), if_pos rfl]
    all_goals cases hreturns
  · intro x hx task hdem
    exact hwatching.downs_of_not_send fun task' ht' href => ((hmuted x hx task hdem).2 task' ht' href).2

/-- A monitor of actor 5 on an owner whose mailbox takes one message, and has one: the owner reads it, actor 5 exits, and
the `Down` is sent. -/
theorem monitor_delivers_once_after_read :
    ∃ s : State Nat, s.Settled ⟨some 1, .failFast, .tasks⟩ .multiThread ∧ s.downs 1 = [.normal] := by
  let limits : MailboxLimits := ⟨some 1, .failFast, .tasks⟩
  let acts : List (Act Nat) :=
    [.monitor 5, .mailbox (.call (.message 0)), .mailbox (.step 0), .mailbox (.step 0), .mailbox (.step 0),
      .mailbox .dequeue, .mailbox .release, .mailbox .notify, .exit 5 .normal, .task 0, .task 0, .task 0,
      .mailbox (.step 1), .mailbox (.step 1), .mailbox (.step 1), .mailbox .dequeue, .mailbox .release, .mailbox .notify]
  have hrun := run_tryPlay (State.next limits .multiThread) ({} : State Nat) acts (by decide)
  have hpos : ∀ cap, limits.capacity = some cap → 0 < cap := by
    intro cap hcap
    obtain rfl := Option.some.inj hcap
    decide
  refine ⟨_, by decide, (monitor_delivers_once limits .multiThread hpos hrun).1 (by decide) (by decide) ⟨1, 5, true, .send 1⟩
    (by decide) .normal (by decide) (by decide)⟩

/-- The same owner, with the message unread when actor 5 exits: the `Down` is refused, and nothing is left to run. -/
theorem down_is_dropped :
    ∃ τ, ∃ s : State Nat, Run (State.Step ⟨some 1, .failFast, .tasks⟩ .multiThread) {} τ s ∧
      s.Settled ⟨some 1, .failFast, .tasks⟩ .multiThread ∧ (⟨1, 5, true, .send 1⟩ : MonitorTask) ∈ s.tasks ∧
      s.exits 5 = some .normal ∧ 1 ∉ s.demonitored ∧ s.downs 1 = [] := by
  let acts : List (Act Nat) :=
    [.monitor 5, .mailbox (.call (.message 0)), .mailbox (.step 0), .mailbox (.step 0), .mailbox (.step 0),
      .exit 5 .normal, .task 0, .task 0, .task 0, .mailbox (.step 1), .mailbox .dequeue, .mailbox .release,
      .mailbox .notify]
  exact ⟨_, _, run_tryPlay (State.next ⟨some 1, .failFast, .tasks⟩ .multiThread) {} acts (by decide), by decide,
    by decide, by decide, by decide, by decide⟩

end Spawned.Monitoring
