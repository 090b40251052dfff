import Spawned.Mailbox.Wakeup

/-!
# Senders of an actor that stops

When `run_actor` returns, whichever way the actor ends (a stop or a signal item, a panic of a callback or of a handler, a
cancelled token), its receiver is dropped with the messages still in the channel. Nothing takes these off the counter,
and nobody is notified. What wakes a sender after that is the rollback of another.

* `Mailbox.Stranded` : the receiver is gone, nothing runs, and a sender is parked;
* `Frees` : the receiver goes with less than the capacity in the channel or when no call is under way, and no call starts
  after a receiver that went otherwise;
* `stop_releases_senders` : then nobody is stranded; and whoever leaves its wait after the drop returns `ActorStopped`,
  its permit given back.
-/

namespace Spawned

namespace Mailbox

variable {M : Type}

/-- The receiver is gone, nothing else runs, and a sender is parked. -/
def Stranded (s : Mailbox M) : Prop := s.receiver = .dropped ∧ s.Quiet ∧ ∃ c ∈ s.calls, c.pc.parked = true

instance (s : Mailbox M) : Decidable s.Stranded := inferInstanceAs (Decidable (_ ∧ _))

/-- Every call has returned. -/
def AllReturned (s : Mailbox M) : Prop := ∀ c ∈ s.calls, c.pc.returns = true

instance (s : Mailbox M) : Decidable s.AllReturned := inferInstanceAs (Decidable (∀ _ ∈ _, _))

end Mailbox

/-- The receiver is dropped with room in the channel or with no call under way, and a call that starts after the drop
finds room. -/
def Frees {M : Type} (cap : UInt64) (s : Mailbox M) : MailboxAct M → Prop
  | .drop => s.user.length < cap.toNat ∨ s.AllReturned
  | .call _ => s.receiver = .dropped → s.discarded.length < cap.toNat
  | _ => True

instance {M : Type} (cap : UInt64) (s : Mailbox M) (a : MailboxAct M) : Decidable (Frees cap s a) :=
  match a with
  | .drop => inferInstanceAs (Decidable (_ ∨ _))
  | .call _ => inferInstanceAs (Decidable (_ → _))
  | .step _ | .weakFails _ | .cvarWakes _ | .dequeue | .release | .notify => isTrue trivial

/-! ## After the drop -/

/-- Messages are discarded by the drop alone, and after it the channel takes no more. -/
structure Emptied {M : Type} (s : Mailbox M) : Prop where
  kept : s.receiver ≠ .dropped → s.discarded = []
  gone : s.receiver = .dropped → s.user = []

/-- The drop left room on the counter, or nobody to wait for it. -/
def Roomy {M : Type} (cap : UInt64) (s : Mailbox M) : Prop :=
  s.receiver = .dropped → s.discarded.length < cap.toNat ∨ s.AllReturned

section Drop

variable {M : Type} {limits : MailboxLimits} {cap : UInt64} {s s' : Mailbox M} {i : Nat} {c : SendCall M}

theorem SendMove.not_returns {item : M} {pc pc' : SendPc} {depth : UInt64} {user : List M}
    (hmove : SendMove limits s item pc pc' depth user) : pc.returns = false := by
  cases hmove <;> rfl

theorem SendMove.user_of_dropped {item : M} {pc pc' : SendPc} {depth : UInt64} {user : List M}
    (hmove : SendMove limits s item pc pc' depth user) (hdropped : s.receiver = .dropped) : user = s.user := by
  cases hmove with
  | sent hreceiver => exact absurd hdropped hreceiver
  | _ => rfl

theorem Emptied.step (h : Emptied s) {a : MailboxAct M} (hs : MailboxStep limits s a s') : Emptied s' := by
  cases hs.moves with
  | call item => exact ⟨h.kept, h.gone⟩
  | move guard hi hmove ha hload hpc =>
    refine ⟨h.kept, fun hdropped => ?_⟩
    show _ = []
    rw [hmove.user_of_dropped hdropped, h.gone hdropped]
  | rolledBack hi hpc => exact ⟨by simpa using h.kept, by simpa using h.gone⟩
  | dequeue huser hreceiver => exact ⟨fun _ => h.kept (by simp [hreceiver]), fun hdropped => (by cases hdropped)⟩
  | release hreceiver => exact ⟨fun _ => h.kept (by simp [hreceiver]), fun hdropped => (by cases hdropped)⟩
  | unlimited hreceiver => exact ⟨fun _ => h.kept (by simp [hreceiver]), fun hdropped => (by cases hdropped)⟩
  | notify hreceiver =>
    have hkept := h.kept (by simp [hreceiver])
    exact ⟨fun _ => by simpa using hkept, fun hdropped => (by cases hdropped)⟩
  | drop hreceiver => exact ⟨fun hne => absurd rfl hne, fun _ => rfl⟩

theorem emptied_empty : Emptied ({} : Mailbox M) := ⟨fun _ => rfl, fun hdropped => (by cases hdropped)⟩

theorem Emptied.run {τ : List (Mailbox M × MailboxAct M)} (h : Lib.Run (MailboxStep limits) {} τ s) : Emptied s :=
  h.inv emptied_empty fun _ _ _ hs hstep => hs.step hstep

/-- A call that goes on after the drop had not returned, so that the drop left room. -/
theorem Roomy.of_running (h : Roomy cap s) (hi : s.calls[i]? = some c) (hrunning : c.pc.returns = false)
    (hdropped : s.receiver = .dropped) : s.discarded.length < cap.toNat := by
  rcases h hdropped with hlt | hall
  · exact hlt
  · have hreturned := hall c (List.mem_of_getElem? hi)
    rw [hrunning] at hreturned
    cases hreturned

theorem Roomy.step (h : Roomy cap s) (hemptied : Emptied s) {a : MailboxAct M} (hfrees : Frees cap s a)
    (hs : MailboxStep limits s a s') : Roomy cap s' := by
  cases hs.moves with
  | call item => exact fun hdropped => Or.inl (hfrees hdropped)
  | move guard hi hmove ha hload hpc => exact fun hdropped => Or.inl (h.of_running hi hmove.not_returns hdropped)
  | rolledBack hi hpc =>
    intro hdropped
    have hlt := h.of_running hi (by rw [hpc]; rfl) (by simpa using hdropped)
    exact Or.inl (by simpa using hlt)
  | drop hreceiver =>
    intro _
    rw [hemptied.kept (by simp [hreceiver]), List.nil_append]
    exact hfrees
  | dequeue | release | unlimited | notify => exact fun hdropped => (by cases hdropped)

theorem Roomy.run {τ : List (Mailbox M × MailboxAct M)} (h : Lib.Run (MailboxStep limits) {} τ s)
    (hfrees : ∀ x ∈ τ, Frees cap x.1 x.2) : Roomy cap s := by
  refine (h.inv_of_steps (I := fun s => Emptied s ∧ Roomy cap s) ⟨?_, ?_⟩ ?_ hfrees).2
  · exact emptied_empty
  · exact fun hdropped => (by cases hdropped)
  · rintro s a s' ⟨hemptied, hroomy⟩ hfrees hstep
    exact ⟨hemptied.step hstep, hroomy.step hemptied hfrees hstep⟩

/-- After the drop the counter holds what was discarded and the permits of those still to be refused. -/
theorem depth_of_dropped (hacc : Accounted limits cap s) (hemptied : Emptied s) (hdropped : s.receiver = .dropped) :
    s.depth.toNat = s.discarded.length + s.permitsHeld := by
  have hcount := hacc.count
  simp only [hemptied.gone hdropped, Mailbox.dequeuedPending, hdropped, RecvPc.pending, List.length_nil] at hcount
  omega

/-- When nothing runs, only what was discarded counts, and it leaves room. -/
theorem Roomy.not_stranded (h : Roomy cap s) (hacc : Accounted limits cap s) (hemptied : Emptied s)
    (hcap : limits.capacity = some cap) (hwaking : Waking limits s) : ¬s.Stranded := by
  rintro ⟨hdropped, hquiet, c, hc, hparked⟩
  rcases h hdropped with hlt | hall
  · have hheld := Mailbox.permitsHeld_of_quiet hquiet
    have hdepth := depth_of_dropped hacc hemptied hdropped
    have hroom := Waking.room_of_lt hcap (d := s.depth) (by omega)
    exact hwaking.not_stalled ⟨hquiet, hroom, c, hc, hparked⟩
  · have hreturned := hall c hc
    cases hpc : c.pc <;> simp_all [SendPc.returns, SendPc.parked]

end Drop

/-! ## What a sender is told -/

/-- The call has no answer yet, or is told that the actor stopped. -/
def SendPc.OnlyStopped (pc : SendPc) : Prop := ∀ result, pc = .returned result → result = .error .actorStopped

section Answers

variable {M : Type} {limits : MailboxLimits} {s s' : Mailbox M} {i : Nat}

theorem onlyStopped_move {item : M} {pc pc' : SendPc} {depth : UInt64} {user : List M} (hmode : limits.mode = .block)
    (hdropped : s.receiver = .dropped) (hmove : SendMove limits s item pc pc' depth user) : pc'.OnlyStopped := by
  rintro result rfl
  cases hmove with
  | mailboxFull hfull hfast => rw [hmode] at hfast; cases hfast
  | sent hreceiver => exact absurd hdropped hreceiver
  | uncounted => rfl

theorem SendPc.OnlyStopped.wake {pc : SendPc} (h : pc.OnlyStopped) : pc.wake.OnlyStopped := by
  intro result hresult
  refine h result ?_
  cases pc <;> simp_all [SendPc.wake]

/-- The receiver stays gone, and from then on no call ends in anything but `ActorStopped`. -/
theorem onlyStopped_step (hmode : limits.mode = .block) (hdropped : s.receiver = .dropped) {pc : SendPc}
    (hi : s.pcAt i = some pc) (hpc : pc.OnlyStopped) {a : MailboxAct M} (hs : MailboxStep limits s a s') :
    s'.receiver = .dropped ∧ ∃ pc', s'.pcAt i = some pc' ∧ pc'.OnlyStopped := by
  cases hs.moves with
  | call item =>
    refine ⟨hdropped, pc, ?_, hpc⟩
    obtain ⟨c, hc, rfl⟩ := Option.map_eq_some_iff.mp hi
    have hlt := (List.getElem?_eq_some_iff.mp hc).1
    simp [Mailbox.pcAt, List.getElem?_append_left hlt, hc]
  | @move _ j c pc' depth user guard hj hmove ha hload hne =>
    refine ⟨hdropped, ?_⟩
    have hat := Mailbox.pcAt_setPc hj pc' i
    show ∃ pc₀, (s.setPc j c pc').pcAt i = some pc₀ ∧ _
    rw [hat]
    split_ifs
    · exact ⟨pc', rfl, onlyStopped_move hmode hdropped hmove⟩
    · exact ⟨pc, hi, hpc⟩
  | @rolledBack j c hj hne =>
    refine ⟨by simpa using hdropped, ?_⟩
    have hset : ∃ pc', (s.setPc j c (.returned (.error .actorStopped))).pcAt i = some pc' ∧ pc'.OnlyStopped := by
      rw [Mailbox.pcAt_setPc hj]
      split_ifs
      · exact ⟨_, rfl, fun result hresult => (SendPc.returned.inj hresult).symm⟩
      · exact ⟨pc, hi, hpc⟩
    obtain ⟨pc', hpc', honly⟩ := hset
    rcases Mailbox.pcAt_notifyBlockers limits (s.setPc j c (.returned (.error .actorStopped))) i with he | he
    · exact ⟨pc', by rw [he, hpc'], honly⟩
    · exact ⟨pc'.wake, by rw [he, hpc', Option.map_some], honly.wake⟩
  | dequeue huser hreceiver => rw [hdropped] at hreceiver; cases hreceiver
  | release hreceiver => rw [hdropped] at hreceiver; cases hreceiver
  | unlimited hreceiver => rw [hdropped] at hreceiver; cases hreceiver
  | notify hreceiver => rw [hdropped] at hreceiver; cases hreceiver
  | drop hreceiver => rw [hdropped] at hreceiver; cases hreceiver

theorem onlyStopped_run (hmode : limits.mode = .block) (hdropped : s.receiver = .dropped) {pc : SendPc}
    (hi : s.pcAt i = some pc) (hpc : pc.OnlyStopped) {σ : List (Mailbox M × MailboxAct M)}
    (h : Lib.Run (MailboxStep limits) s σ s') :
    s'.receiver = .dropped ∧ ∃ pc', s'.pcAt i = some pc' ∧ pc'.OnlyStopped := by
  refine h.inv (I := fun s => s.receiver = .dropped ∧ ∃ pc, s.pcAt i = some pc ∧ pc.OnlyStopped)
    ⟨hdropped, pc, hi, hpc⟩ ?_
  rintro s a s' ⟨hdropped, pc, hi, hpc⟩ hstep
  exact onlyStopped_step hmode hdropped hi hpc hstep

end Answers

/-- **Stopping an actor releases its senders.** For every `Block` mailbox on either runtime: in every run in which each
`notify_blockers` is heard and the drop of the receiver leaves room, nobody is stranded; and in every run a sender that
waits when the receiver is gone and returns later returns `ActorStopped`, with no permit of it left on the counter. -/
theorem stop_releases_senders {M : Type} (limits : MailboxLimits) (cap : UInt64) (hcap : limits.capacity = some cap)
    (hmode : limits.mode = .block) {τ : List (Mailbox M × MailboxAct M)} {s : Mailbox M}
    (h : Lib.Run (MailboxStep limits) {} τ s) :
    ((∀ x ∈ τ, Heard limits x.1 x.2 ∧ Frees cap x.1 x.2) → ¬s.Stranded) ∧
      ∀ i pc σ s' result, s.receiver = .dropped → s.pcAt i = some pc → pc.waits = true →
        Lib.Run (MailboxStep limits) s σ s' → s'.pcAt i = some (.returned result) →
        result = .error .actorStopped ∧ s'.depth.toNat = s'.discarded.length + s'.permitsHeld := by
  constructor
  · intro hsteps
    obtain ⟨hacc, hwaking⟩ := Waking.run hcap hmode h fun x hx => (hsteps x hx).1
    exact (Roomy.run h fun x hx => (hsteps x hx).2).not_stranded hacc (Emptied.run h) hcap hwaking
  · intro i pc σ s' result hdropped hi hwaits hrun hanswer
    have honly : pc.OnlyStopped := by
      rintro result rfl
      cases hwaits
    obtain ⟨hdropped', pc', hi', honly'⟩ := onlyStopped_run hmode hdropped hi honly hrun
    obtain rfl := Option.some.inj (hi'.symm.trans hanswer)
    have hwhole := h.append hrun
    exact ⟨honly' result rfl, depth_of_dropped (Accounted.run hcap hwhole) (Emptied.run hwhole) hdropped'⟩

/-- Two senders on a mailbox of capacity one: the actor stops while the first holds the permit, and its rollback wakes the
second. -/
theorem stop_releases_senders_of_rollback :
    ∃ s : Mailbox Nat, s.receiver = .dropped ∧ s.pcAt 1 = some (.returned (.error .actorStopped)) ∧ ¬s.Stranded := by
  let limits : MailboxLimits := ⟨some 1, .block, .tasks⟩
  let acts : List (MailboxAct Nat) :=
    [.call 7, .call 8, .step 0, .step 0, .step 1, .step 1, .drop, .step 0, .step 0, .step 0, .step 1, .step 1, .step 1,
      .step 1, .step 1]
  have hrun := Lib.run_tryPlay (mailboxStep limits) ({} : Mailbox Nat) acts (by decide)
  exact ⟨_, by decide, by decide, (stop_releases_senders limits 1 rfl rfl hrun).1 (by decide)⟩

/-- One message in a mailbox of capacity one and a sender that waits, on either runtime: the actor stops, and the sender
is parked with nobody left to wake it. -/
theorem stop_strands_sender :
    (∃ τ, ∃ s : Mailbox Nat, Lib.Run (MailboxStep ⟨some 1, .block, .threads⟩) {} τ s ∧ s.Stranded) ∧
    ∃ τ, ∃ s : Mailbox Nat, Lib.Run (MailboxStep ⟨some 1, .block, .tasks⟩) {} τ s ∧ s.Stranded := by
  constructor
  · let acts : List (MailboxAct Nat) :=
      [.call 7, .call 8, .step 0, .step 0, .step 0, .step 0, .step 0, .step 1, .step 1, .step 1, .drop]
    exact ⟨_, _, Lib.run_tryPlay (mailboxStep ⟨some 1, .block, .threads⟩) {} acts (by decide), by decide⟩
  · let acts : List (MailboxAct Nat) := [.call 7, .call 8, .step 0, .step 0, .step 0, .step 1, .step 1, .drop]
    exact ⟨_, _, Lib.run_tryPlay (mailboxStep ⟨some 1, .block, .tasks⟩) {} acts (by decide), by decide⟩

end Spawned
