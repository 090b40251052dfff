import Spawned.Mailbox

/-!
# Waking the senders of a full mailbox

In `Block` mode a sender that reads a full counter goes on to wait, and whoever takes one off the counter then calls
`notify_blockers`, which wakes those that already wait. The load and the start of the wait are two steps, and the
release takes no lock, so that a release may fall between them.

* `SendPc.waits` : a call that read a full counter, waiting or on its way to it;
* `Mailbox.announcements` : the releases that have still to notify;
* `Heard` : a `notify_blockers` passes nobody on the way to its wait while there is room, or is not the last;
* `Waking` : with room and a call that waits, some release has still to notify; every step that is heard keeps it;
* `no_lost_wakeup` : then no sender is left parked before a mailbox with room.
-/

namespace Spawned

namespace SendPc

/-- In `Condvar::wait`, or awaiting a `Notified` future that was created. -/
def parked : SendPc → Bool
  | notified | cvarWait => true
  | _ => false

/-- The call has read a full counter and comes to its wait. -/
def comesToWait : SendPc → Bool
  | toNotified | toCvarWait => true
  | _ => false

def waits (pc : SendPc) : Bool := pc.parked || pc.comesToWait

def returns : SendPc → Bool
  | returned _ => true
  | _ => false

@[simp] theorem waits_wake (pc : SendPc) : pc.wake.waits = pc.comesToWait := by
  cases pc <;> rfl

@[simp] theorem wake_eq_notifyBlockers (pc : SendPc) : pc.wake = .notifyBlockers ↔ pc = .notifyBlockers := by
  cases pc <;> simp [wake]

end SendPc

namespace RecvPc

/-- `on_message_dequeued` has still to notify. -/
def announces : RecvPc → Nat
  | notifyBlockers => 1
  | _ => 0

/-- The run loop is not inside `on_message_dequeued`. -/
def idle : RecvPc → Bool
  | recv | dropped => true
  | _ => false

end RecvPc

namespace Mailbox

variable {M : Type}

/-- How many releases were taken off the counter and have still to notify. -/
def announcements (s : Mailbox M) : Nat := s.receiver.announces + s.calls.countP (·.pc = .notifyBlockers)

/-- Some call waits or comes to its wait. -/
def someWaits (s : Mailbox M) : Prop := ∃ c ∈ s.calls, c.pc.waits = true

/-- Nothing runs: every call has returned or is parked, and no release is under way. -/
def Quiet (s : Mailbox M) : Prop :=
  (∀ c ∈ s.calls, c.pc.returns = true ∨ c.pc.parked = true) ∧ s.receiver.idle = true

/-- Nothing runs, there is room, and a sender is parked. -/
def Stalled (limits : MailboxLimits) (s : Mailbox M) : Prop :=
  s.Quiet ∧ limits.full s.depth = false ∧ ∃ c ∈ s.calls, c.pc.parked = true

instance (s : Mailbox M) : Decidable s.Quiet := inferInstanceAs (Decidable (_ ∧ _))

instance (limits : MailboxLimits) (s : Mailbox M) : Decidable (s.Stalled limits) :=
  inferInstanceAs (Decidable (_ ∧ _))

end Mailbox

/-- The step is a call of `notify_blockers`. -/
def MailboxAct.notifies {M : Type} (s : Mailbox M) : MailboxAct M → Bool
  | .notify => true
  | .step i => s.pcAt i = some .notifyBlockers
  | _ => false

/-- If the step calls `notify_blockers` while there is room and some call has read a full counter and comes to its wait,
then another release has still to notify. -/
def Heard {M : Type} (limits : MailboxLimits) (s : Mailbox M) (a : MailboxAct M) : Prop :=
  a.notifies s = true → limits.full s.depth = false → (∃ c ∈ s.calls, c.pc.comesToWait = true) → 1 < s.announcements

instance {M : Type} (limits : MailboxLimits) (s : Mailbox M) (a : MailboxAct M) : Decidable (Heard limits s a) :=
  inferInstanceAs (Decidable (_ → _))

/-! ## One step -/

namespace Mailbox

variable {M : Type} {limits : MailboxLimits} {s s' : Mailbox M} {i : Nat} {c : SendCall M}

theorem announcements_setPc (hi : s.calls[i]? = some c) (pc : SendPc) :
    (s.setPc i c pc).announcements + (if c.pc = .notifyBlockers then 1 else 0) =
      s.announcements + (if pc = .notifyBlockers then 1 else 0) := by
  have hcount := Lib.countP_set_add (fun c : SendCall M => decide (c.pc = .notifyBlockers)) hi { c with pc }
  simp only [decide_eq_true_eq] at hcount
  unfold announcements
  rw [setPc_receiver]
  show _ + List.countP _ (s.calls.set i { c with pc }) + _ = _
  omega

theorem permitsHeld_of_quiet (h : s.Quiet) : s.permitsHeld = 0 := by
  refine List.countP_eq_zero.mpr fun c hc => ?_
  have hidle := h.1 c hc
  cases hpc : c.pc <;> simp_all [SendPc.returns, SendPc.parked, SendPc.holdsPermit]

theorem announcements_wake (hmode : limits.mode = .block) (s : Mailbox M) :
    (s.notifyBlockers limits).announcements = s.announcements := by
  unfold announcements
  rw [notifyBlockers_receiver]
  congr 1
  simp [notifyBlockers, hmode, List.countP_map, Function.comp_def]

/-- Only those that come to their wait are passed by `notify_blockers`. -/
theorem comesToWait_of_notified (hmode : limits.mode = .block) (h : (s.notifyBlockers limits).someWaits) :
    ∃ c ∈ s.calls, c.pc.comesToWait = true := by
  obtain ⟨c, hc, hwaits⟩ := h
  simp only [notifyBlockers, hmode, if_true, List.mem_map] at hc
  obtain ⟨c₀, hc₀, rfl⟩ := hc
  exact ⟨c₀, hc₀, by simpa using hwaits⟩

end Mailbox

/-- With room and a call that waits, some release has still to notify. -/
def Waking {M : Type} (limits : MailboxLimits) (s : Mailbox M) : Prop :=
  limits.full s.depth = false → s.someWaits → 0 < s.announcements

namespace Waking

variable {M : Type} {limits : MailboxLimits} {cap : UInt64} {s s' : Mailbox M} {i : Nat} {c : SendCall M}

theorem empty : Waking limits ({} : Mailbox M) := by
  rintro - ⟨c, hc, -⟩
  simp at hc

theorem room_of_lt (hcap : limits.capacity = some cap) {d : UInt64} (hlt : d.toNat < cap.toNat) :
    limits.full d = false := by
  simpa [MailboxLimits.full, hcap] using UInt64.lt_iff_toNat_lt.mpr hlt

/-- A call that moves into its wait does so from a full counter, or came to it before. -/
theorem waits_of_move {item : M} {pc pc' : SendPc} {depth : UInt64} {user : List M}
    (hmove : SendMove limits s item pc pc' depth user) (hroom : limits.full depth = false) (hwaits : pc'.waits = true) :
    pc.waits = true := by
  cases hmove with
  | loadFull hfull => rw [hfull] at hroom; cases hroom
  | lockedFull hfull => rw [hfull] at hroom; cases hroom
  | notified => rfl
  | wait => rfl
  | _ => simp [SendPc.waits, SendPc.parked, SendPc.comesToWait] at hwaits

/-- There was room before a move after which there is, but for the one that has now to notify. -/
theorem room_of_move (hacc : Accounted limits cap s) (hcap : limits.capacity = some cap) (hi : s.calls[i]? = some c)
    {pc : SendPc} {depth : UInt64} {user : List M} (hmove : SendMove limits s c.item c.pc pc depth user)
    (hroom : limits.full depth = false) : limits.full s.depth = false ∨ pc = .notifyBlockers := by
  have hpc := Mailbox.pcAt_of_calls hi
  generalize hc : c.pc = pc₀ at hmove
  cases hmove with
  | @exchange current hdepth =>
    have hlt := (hacc.allowed i (.compareExchange current) (hc ▸ hpc)).2
    rw [hdepth]
    exact Or.inl (room_of_lt hcap (UInt64.lt_iff_toNat_lt.mp hlt))
  | add => exact Or.inl (room_of_lt hcap (hacc.room i (hc ▸ hpc)))
  | giveBack => exact Or.inr rfl
  | _ => exact Or.inl hroom

theorem move (h : Waking limits s) (hacc : Accounted limits cap s) (hcap : limits.capacity = some cap)
    (hi : s.calls[i]? = some c) {pc : SendPc} {depth : UInt64} {user : List M} (guard : Option Nat)
    (hmove : SendMove limits s c.item c.pc pc depth user) (hpc : c.pc ≠ .notifyBlockers) :
    Waking limits { s.setPc i c pc with depth := depth, guard := guard, user := user } := by
  intro hroom hwaits
  have hcount := Mailbox.announcements_setPc hi pc
  rw [if_neg hpc] at hcount
  show 0 < (s.setPc i c pc).announcements
  rcases room_of_move hacc hcap hi hmove hroom with hroom₀ | rfl
  · have hbefore : s.someWaits := by
      obtain ⟨c', hc', hw⟩ := hwaits
      rcases List.mem_or_eq_of_mem_set hc' with hc' | rfl
      · exact ⟨c', hc', hw⟩
      · exact ⟨c, List.mem_of_getElem? hi, waits_of_move hmove hroom hw⟩
    have hpos := h hroom₀ hbefore
    omega
  · rw [if_pos rfl] at hcount
    omega

/-- `notify_blockers` by the last release to notify finds nobody on the way to its wait, or no room. -/
theorem notified (hmode : limits.mode = .block) (hheard : limits.full s.depth = false →
      (∃ c ∈ s.calls, c.pc.comesToWait = true) → 0 < s.announcements) :
    Waking limits (s.notifyBlockers limits) := by
  intro hroom hwaits
  rw [Mailbox.notifyBlockers_depth] at hroom
  rw [Mailbox.announcements_wake hmode]
  exact hheard hroom (Mailbox.comesToWait_of_notified hmode hwaits)

/-- Every step whose notification is heard keeps the invariant. -/
theorem step (h : Waking limits s) (hacc : Accounted limits cap s) (hcap : limits.capacity = some cap)
    (hmode : limits.mode = .block) {a : MailboxAct M} (hheard : Heard limits s a) (hs : MailboxStep limits s a s') :
    Waking limits s' := by
  cases hs.moves with
  | call item =>
    rintro hroom ⟨c, hc, hw⟩
    have hentry : limits.entry.waits = false := by
      unfold MailboxLimits.entry
      split <;> rfl
    have hcount : Mailbox.announcements { s with calls := s.calls ++ [{ pc := limits.entry, item }] } ≥
        s.announcements := by
      simp only [Mailbox.announcements, List.countP_append]
      omega
    rcases List.mem_append.mp hc with hc | hc
    · exact Nat.lt_of_lt_of_le (h hroom ⟨c, hc, hw⟩) hcount
    · obtain rfl := List.mem_singleton.mp hc
      rw [hentry] at hw
      cases hw
  | move guard hi hmove ha hload hpc => exact h.move hacc hcap hi guard hmove hpc
  | @rolledBack i c hi hpc =>
    have hcount := Mailbox.announcements_setPc hi (.returned (.error .actorStopped))
    rw [if_pos hpc, if_neg (by simp)] at hcount
    refine notified hmode fun hroom hcomes => ?_
    have hbefore : ∃ c ∈ s.calls, c.pc.comesToWait = true := by
      obtain ⟨c', hc', hw⟩ := hcomes
      rcases List.mem_or_eq_of_mem_set hc' with hc' | rfl
      · exact ⟨c', hc', hw⟩
      · simp [SendPc.comesToWait] at hw
    have hlt := hheard (by simp [MailboxAct.notifies, Mailbox.pcAt_of_calls hi, hpc]) hroom hbefore
    omega
  | dequeue huser hreceiver =>
    intro hroom hwaits
    have hpos := h hroom hwaits
    simp only [Mailbox.announcements, hreceiver] at hpos ⊢
    exact hpos
  | release hreceiver =>
    intro _ _
    simp only [Mailbox.announcements, RecvPc.announces]
    omega
  | unlimited hreceiver hnone => simp [hcap] at hnone
  | notify hreceiver =>
    have hwoken : Waking limits (s.notifyBlockers limits) := by
      refine notified hmode fun hroom hcomes => ?_
      exact Nat.zero_lt_of_lt (hheard rfl hroom hcomes)
    intro hroom hwaits
    have hlt := hheard rfl (by simpa using hroom) (Mailbox.comesToWait_of_notified hmode hwaits)
    have hcount := Mailbox.announcements_wake hmode s
    simp only [Mailbox.announcements, Mailbox.notifyBlockers_receiver, hreceiver, RecvPc.announces] at hlt hcount ⊢
    omega
  | drop hreceiver =>
    intro hroom hwaits
    have hpos := h hroom hwaits
    simp only [Mailbox.announcements, hreceiver] at hpos ⊢
    exact hpos

theorem run (hcap : limits.capacity = some cap) (hmode : limits.mode = .block) {τ : List (Mailbox M × MailboxAct M)}
    (h : Lib.Run (MailboxStep limits) {} τ s) (hheard : ∀ x ∈ τ, Heard limits x.1 x.2) :
    Accounted limits cap s ∧ Waking limits s := by
  refine h.inv_of_steps (I := fun s => Accounted limits cap s ∧ Waking limits s) ⟨.empty, empty⟩ ?_ hheard
  rintro s a s' ⟨hacc, hwaking⟩ hheard hstep
  exact ⟨hacc.step hcap hstep, hwaking.step hacc hcap hmode hheard hstep⟩

/-- Nothing that runs has still to notify. -/
theorem not_stalled (h : Waking limits s) : ¬s.Stalled limits := by
  rintro ⟨⟨hcalls, hreceiver⟩, hroom, c, hc, hparked⟩
  have hpos := h hroom ⟨c, hc, by simp [SendPc.waits, hparked]⟩
  have hzero : s.calls.countP (·.pc = .notifyBlockers) = 0 := by
    refine List.countP_eq_zero.mpr fun c hc => ?_
    have hidle := hcalls c hc
    cases hpc : c.pc <;> simp_all [SendPc.returns, SendPc.parked]
  unfold Mailbox.announcements at hpos
  cases hr : s.receiver <;> simp_all [RecvPc.idle, RecvPc.announces]

end Waking

/-- **No lost wake-up.** On either runtime and for every capacity of a `Block` mailbox: in every run in which each
`notify_blockers` is heard, no state is reached in which nothing runs, the counter is below the capacity and a sender is
parked. -/
theorem no_lost_wakeup {M : Type} (limits : MailboxLimits) (cap : UInt64) (hcap : limits.capacity = some cap)
    (hmode : limits.mode = .block) {τ : List (Mailbox M × MailboxAct M)} {s : Mailbox M}
    (h : Lib.Run (MailboxStep limits) {} τ s) (hheard : ∀ x ∈ τ, Heard limits x.1 x.2) : ¬s.Stalled limits :=
  (Waking.run hcap hmode h hheard).2.not_stalled

/-- Two senders on a mailbox of capacity one: the second waits for the dequeue of the first message, is woken by it and
sends. -/
theorem no_lost_wakeup_of_two_senders :
    ∃ s : Mailbox Nat, s.pcAt 1 = some (.returned (.ok ())) ∧ ¬s.Stalled ⟨some 1, .block, .threads⟩ := by
  let limits : MailboxLimits := ⟨some 1, .block, .threads⟩
  let acts : List (MailboxAct Nat) :=
    [.call 7, .call 8, .step 0, .step 0, .step 0, .step 0, .step 0, .step 1, .step 1, .step 1, .dequeue, .release,
      .notify, .step 1, .step 1, .step 1, .step 1, .step 1]
  have hrun := Lib.run_tryPlay (mailboxStep limits) ({} : Mailbox Nat) acts (by decide)
  exact ⟨_, by decide, no_lost_wakeup limits 1 rfl rfl hrun (by decide)⟩

/-- The same two senders on either runtime, with the dequeue between the load of the second and its wait: the mailbox is
empty, and the second sender is parked with nobody left to wake it. -/
theorem wakeup_is_lost :
    (∃ τ, ∃ s : Mailbox Nat, Lib.Run (MailboxStep ⟨some 1, .block, .threads⟩) {} τ s ∧
      s.Stalled ⟨some 1, .block, .threads⟩ ∧ s.depth = 0 ∧ s.user = []) ∧
    ∃ τ, ∃ s : Mailbox Nat, Lib.Run (MailboxStep ⟨some 1, .block, .tasks⟩) {} τ s ∧
      s.Stalled ⟨some 1, .block, .tasks⟩ ∧ s.depth = 0 ∧ s.user = [] := by
  constructor
  · let acts : List (MailboxAct Nat) :=
      [.call 7, .call 8, .step 0, .step 0, .step 0, .step 0, .step 0, .step 1, .step 1, .dequeue, .release, .notify,
        .step 1]
    exact ⟨_, _, Lib.run_tryPlay (mailboxStep ⟨some 1, .block, .threads⟩) {} acts (by decide), by decide, by decide,
      by decide⟩
  · let acts : List (MailboxAct Nat) :=
      [.call 7, .call 8, .step 0, .step 0, .step 0, .step 1, .dequeue, .release, .notify, .step 1]
    exact ⟨_, _, Lib.run_tryPlay (mailboxStep ⟨some 1, .block, .tasks⟩) {} acts (by decide), by decide, by decide,
      by decide⟩

end Spawned
