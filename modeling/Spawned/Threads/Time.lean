import Spawned.Threads.Cancellation

/-!
# Timers of the threads runtime

`send_after` and `send_interval` register a callback with two tokens, their own and that of the actor, and start a thread
that waits for the callback to wake it. When the period is over first, it looks at both tokens and sends.

* `Timers` : the token of an actor and all timers ever started for it;
* `Timers.next` : one step of a token, of a thread, or a new timer; `Timers.Moved` : the same, case by case;
* `Timers.Inv` : both callbacks of a timer are registered before its thread starts;
* `timer_sends_after_cancel`, `timer_ends_after_cancel` : what a timer does after either token is cancelled;
* `timers_stay_registered` : what stays behind in the token of the actor.

A callback of a timer sends and drops its sender of the wake-up channel. It is dropped unsent when another callback on the
token of the timer panics before it; the thread finds the channel disconnected when both are.
-/

namespace Spawned

open Lib

/-- Where a timer stands. -/
inductive TimerPc
  /-- `on_cancel` of the actor's token has not returned; there is no thread yet -/
  | registering
  /-- in `wake_rx.recv_timeout(period)` -/
  | waiting
  /-- it timed out: `timer_token.is_cancelled()` -/
  | checkTimer
  /-- `actor_token.is_cancelled()` -/
  | checkActor
  /-- in `ctx.send(msg)`, which waits where the mailbox of the actor is full and in `Block` mode -/
  | sending
  | ended
deriving DecidableEq, Repr

/-- A timer. Of its own token call 0 is the `on_cancel` of the timer itself. -/
structure Timer where
  interval : Bool
  token : CancellationToken
  /-- the call of `on_cancel` on the token of the actor -/
  actorCall : Nat
  pc : TimerPc

structure Timers where
  actor : CancellationToken := {}
  timers : List Timer := []

inductive TimersAct
  | start (interval : Bool)
  /-- any call on the token of the actor, or a step of one -/
  | actor (a : TokenAct)
  /-- the same for the token of timer `k` -/
  | token (k : Nat) (a : TokenAct)
  /-- the thread of timer `k` is spawned, and the handle returned -/
  | launch (k : Nat)
  | timeout (k : Nat)
  | wake (k : Nat)
  | check (k : Nat)
  /-- `ctx.send` returns to the thread of timer `k` -/
  | send (k : Nat)
deriving DecidableEq

/-- A new token with one callback, which nobody else has seen. -/
def CancellationToken.registered : CancellationToken := { callbacks := [0], calls := [.onCancel .returned] }

namespace Timers

/-- `recv_timeout` has something to return: a callback of the timer was called, or both were dropped. -/
def woken (s : Timers) (t : Timer) : Bool :=
  t.token.ran.contains 0 || s.actor.ran.contains t.actorCall ||
    (t.token.dropped.contains 0 && s.actor.dropped.contains t.actorCall)

def setTimer (s : Timers) (k : Nat) (t : Timer) : Timers := { s with timers := s.timers.set k t }

/-- The thread of a timer goes on by itself. -/
def threadStep (s : Timers) (t : Timer) : TimersAct → Option TimerPc
  | .timeout _ => if t.pc = .waiting ∧ s.woken t = false then some .checkTimer else none
  | .wake _ => if t.pc = .waiting ∧ s.woken t then some .ended else none
  | .check _ =>
    match t.pc with
    | .checkTimer => some (if t.token.isCancelled then .ended else .checkActor)
    | .checkActor => some (if s.actor.isCancelled then .ended else .sending)
    | _ => none
  | .send _ => if t.pc = .sending then some (if t.interval then .waiting else .ended) else none
  | _ => none

def next (s : Timers) (a : TimersAct) : Option Timers :=
  match a with
  | .start interval =>
    some {
      actor := { s.actor with calls := s.actor.calls ++ [.onCancel .lock] }
      timers := s.timers ++
        [{ interval, token := .registered, actorCall := s.actor.calls.length, pc := .registering }] }
  | .actor b => (s.actor.next b).map fun actor => { s with actor }
  | .token k b =>
    s.timers[k]?.bind fun t =>
      if t.pc = .registering then none else (t.token.next b).map fun token => s.setTimer k { t with token }
  | .launch k =>
    s.timers[k]?.bind fun t =>
      if t.pc = .registering ∧ s.actor.calls[t.actorCall]? = some (.onCancel .returned) then
        some (s.setTimer k { t with pc := .waiting })
      else none
  | .timeout k | .wake k | .check k | .send k =>
    s.timers[k]?.bind fun t => (s.threadStep t a).map fun pc => s.setTimer k { t with pc }

def Step (s : Timers) (a : TimersAct) (s' : Timers) : Prop := s.next a = some s'

/-- A step of the thread of timer `k`. -/
def own (k : Nat) (x : Timers × TimersAct) : Bool :=
  match x.2 with
  | .timeout j | .wake j | .check j | .send j => j == k
  | _ => false

def sends (k : Nat) (x : Timers × TimersAct) : Bool :=
  match x.2 with
  | .send j => j == k
  | _ => false

/-! ## What a step does -/

/-- A step, case by case. -/
inductive Moved (s : Timers) : TimersAct → Timers → Prop
  | start (interval : Bool) :
      Moved s (.start interval) {
        actor := { s.actor with calls := s.actor.calls ++ [.onCancel .lock] }
        timers := s.timers ++
          [{ interval, token := .registered, actorCall := s.actor.calls.length, pc := .registering }] }
  | actor {b : TokenAct} {actor : CancellationToken} (h : CancellationToken.Step s.actor b actor) :
      Moved s (.actor b) { s with actor }
  | token {k : Nat} {b : TokenAct} {t : Timer} {token : CancellationToken} (ht : s.timers[k]? = some t)
      (hpc : t.pc ≠ .registering) (h : CancellationToken.Step t.token b token) :
      Moved s (.token k b) (s.setTimer k { t with token })
  | launch {k : Nat} {t : Timer} (ht : s.timers[k]? = some t) (hpc : t.pc = .registering)
      (hcall : s.actor.calls[t.actorCall]? = some (.onCancel .returned)) :
      Moved s (.launch k) (s.setTimer k { t with pc := .waiting })
  | thread {k : Nat} {a : TimersAct} {t : Timer} {pc : TimerPc} (ht : s.timers[k]? = some t)
      (ha : ∀ j, own j (s, a) = true ↔ j = k) (h : s.threadStep t a = some pc) : Moved s a (s.setTimer k { t with pc })

variable {s s' : Timers} {a : TimersAct} {k : Nat} {t : Timer}

theorem step_moves (h : Step s a s') : Moved s a s' := by
  unfold Step at h
  cases a with
  | start interval =>
    cases h
    exact .start interval
  | actor b =>
    obtain ⟨actor, hb, rfl⟩ := Option.map_eq_some_iff.mp h
    exact .actor hb
  | token k b =>
    obtain ⟨t, ht, h⟩ := Option.bind_eq_some_iff.mp h
    split_ifs at h with hpc
    obtain ⟨token, hb, rfl⟩ := Option.map_eq_some_iff.mp h
    exact .token ht hpc hb
  | launch k =>
    obtain ⟨t, ht, h⟩ := Option.bind_eq_some_iff.mp h
    split_ifs at h with hpc
    cases h
    exact .launch ht hpc.1 hpc.2
  | timeout k | wake k | check k | send k =>
    obtain ⟨t, ht, h⟩ := Option.bind_eq_some_iff.mp h
    obtain ⟨pc, hpc, rfl⟩ := Option.map_eq_some_iff.mp h
    exact .thread ht (fun j => by simpa [own] using eq_comm) hpc

/-- What a step of a thread does: it is never at its registration, and it sends only when it is past both checks. -/
theorem threadStep_cases {pc : TimerPc} (h : s.threadStep t a = some pc) :
    (t.pc = .waiting ∧ s.woken t = false ∧ pc = .checkTimer) ∨ (t.pc = .waiting ∧ s.woken t = true ∧ pc = .ended) ∨
      (t.pc = .checkTimer ∧ pc = if t.token.isCancelled then .ended else .checkActor) ∨
      (t.pc = .checkActor ∧ pc = if s.actor.isCancelled then .ended else .sending) ∨
      (t.pc = .sending ∧ (∃ j, a = .send j) ∧ pc = if t.interval then .waiting else .ended) := by
  unfold threadStep at h
  split at h
  case h_1 =>
    split_ifs at h with hw
    cases h
    exact Or.inl ⟨hw.1, hw.2, rfl⟩
  case h_2 =>
    split_ifs at h with hw
    cases h
    exact Or.inr (Or.inl ⟨hw.1, hw.2, rfl⟩)
  case h_3 =>
    split at h
    case h_1 hpc =>
      cases h
      exact Or.inr (Or.inr (Or.inl ⟨hpc, rfl⟩))
    case h_2 hpc =>
      cases h
      exact Or.inr (Or.inr (Or.inr (Or.inl ⟨hpc, rfl⟩)))
    case h_3 => cases h
  case h_4 j =>
    obtain ⟨hpc, h⟩ := Option.ite_none_right_eq_some.mp h
    cases h
    exact Or.inr (Or.inr (Or.inr (Or.inr ⟨hpc, ⟨j, rfl⟩, rfl⟩)))
  case h_5 => cases h

/-- A step that sends for timer `k` finds it at its send. -/
theorem sends_pc (h : Step s a s') (hsend : sends k (s, a) = true) : s.timers[k]?.map (·.pc) = some .sending := by
  unfold sends at hsend
  split at hsend
  case h_2 => cases hsend
  case h_1 j hact =>
    obtain rfl : j = k := by simpa using hsend
    obtain rfl : a = .send j := hact
    obtain ⟨t, ht, h⟩ := Option.bind_eq_some_iff.mp h
    obtain ⟨pc, hpc, rfl⟩ := Option.map_eq_some_iff.mp h
    obtain ⟨hp, -⟩ := Option.ite_none_right_eq_some.mp hpc
    rw [ht, Option.map_some, hp]

/-! ## Tokens -/

theorem isCancelled_step {c c' : CancellationToken} {b : TokenAct} (h : CancellationToken.Step c b c')
    (hc : c.isCancelled = true) : c'.isCancelled = true := by
  rcases CancellationToken.step_cases h with ⟨d, -, -, rfl⟩ | ⟨i, d, p, hi, ⟨-, hp⟩ | ⟨-, hp⟩, rfl⟩
  · exact hc
  · revert hp
    fun_cases CancellationToken.callStep c i d <;> intro hp <;> cases hp <;> first | exact hc | rfl
  · exact (CancellationToken.unwind_effect hp).1.trans hc

theorem ran_step {c c' : CancellationToken} {b : TokenAct} (h : CancellationToken.Step c b c') {cb : Nat}
    (hc : cb ∈ c.ran) : cb ∈ c'.ran := by
  rcases CancellationToken.step_cases h with ⟨d, -, -, rfl⟩ | ⟨i, d, p, hi, ⟨-, hp⟩ | ⟨-, hp⟩, rfl⟩
  · exact hc
  · show cb ∈ p.1.ran
    rw [(CancellationToken.callStep_effect hi hp).2.1]
    exact List.mem_append_left _ hc
  · exact (CancellationToken.unwind_effect hp).2.1 ▸ hc

theorem dropped_step {c c' : CancellationToken} {b : TokenAct} (h : CancellationToken.Step c b c') {cb : Nat}
    (hc : cb ∈ c.dropped) : cb ∈ c'.dropped := by
  rcases CancellationToken.step_cases h with ⟨d, -, -, rfl⟩ | ⟨i, d, p, hi, ⟨-, hp⟩ | ⟨-, hp⟩, rfl⟩
  · exact hc
  · exact (CancellationToken.callStep_effect hi hp).2.2 ▸ hc
  · show cb ∈ p.1.dropped
    rw [(CancellationToken.unwind_effect hp).2.2]
    exact List.mem_append_left _ hc

/-- A call of `on_cancel` stays one, and stays returned. -/
theorem onCancel_step {c c' : CancellationToken} {b : TokenAct} (h : CancellationToken.Step c b c') {i : Nat}
    {pc : OnCancelPc} (hi : c.calls[i]? = some (.onCancel pc)) :
    ∃ pc', c'.calls[i]? = some (.onCancel pc') ∧ (pc = .returned → pc' = .returned) := by
  rcases CancellationToken.step_cases h with ⟨d, -, -, rfl⟩ | ⟨j, d, p, hj, ⟨-, hp⟩ | ⟨-, hp⟩, rfl⟩
  · exact ⟨pc, (List.getElem?_append_left (List.getElem?_eq_some_iff.mp hi).1).trans hi, id⟩
  · by_cases hij : i = j
    · subst hij
      rw [hi] at hj
      cases hj
      have hset := List.getElem?_set_self (a := p.2) (List.getElem?_eq_some_iff.mp hi).1
      cases pc with
      | returned | unwound => cases hp
      | lock =>
        obtain ⟨-, hp⟩ := Option.ite_none_right_eq_some.mp hp
        cases hp
        exact ⟨_, hset, by simp⟩
      | load =>
        simp only [CancellationToken.callStep] at hp
        split_ifs at hp <;> cases hp <;> exact ⟨_, hset, by simp⟩
      | push | unlock | fire | running =>
        cases hp
        exact ⟨_, hset, by simp⟩
    · exact ⟨pc, (List.getElem?_set_ne (Ne.symm hij)).trans hi, id⟩
  · by_cases hij : i = j
    · subst hij
      rw [hi] at hj
      cases hj
      cases pc with
      | running =>
        cases hp
        exact ⟨_, List.getElem?_set_self (List.getElem?_eq_some_iff.mp hi).1, by simp⟩
      | lock | load | push | unlock | fire | returned | unwound => cases hp
    · exact ⟨pc, (List.getElem?_set_ne (Ne.symm hij)).trans hi, id⟩

/-- All calls of `cancel` on the token have returned, and there was one. -/
def CancelReturned (c : CancellationToken) : Prop :=
  .cancel .returned ∈ c.calls ∧ ∀ pc, .cancel pc ∈ c.calls → pc = .returned

/-- Then a callback whose registration has returned was called. -/
theorem ran_of_cancelReturned {c : CancellationToken} (hinv : c.Inv) (hc : CancelReturned c) {i : Nat}
    (hi : c.calls[i]? = some (.onCancel .returned)) : i ∈ c.ran := by
  have hplaced := hinv.placed i
  have hgave : c.gave i = true := by
    rw [CancellationToken.gave, hi]
    rfl
  have hempty := (hinv.drained ⟨_, hc.1, rfl⟩).1
  have hsum : (c.calls.map fun d => d.taken.count i).sum = 0 := by
    refine List.sum_eq_zero fun n hn => ?_
    obtain ⟨d, hd, rfl⟩ := List.mem_map.mp hn
    cases d with
    | cancel pc =>
      rw [hc.2 pc hd]
      rfl
    | onCancel pc => rfl
  have hdropped : c.dropped = [] := by
    by_contra hne
    cases hc.2 _ (hinv.unwound hne)
  rw [hgave, if_pos rfl, CancellationToken.places, hempty, hsum, hdropped, List.count_nil] at hplaced
  exact List.count_pos_iff.mp (by omega)

/-! ## One timer -/

/-- What a timer keeps from one step to the next. -/
structure Kept (t t' : Timer) : Prop where
  interval : t'.interval = t.interval
  actorCall : t'.actorCall = t.actorCall
  cancelled : t.token.isCancelled = true → t'.token.isCancelled = true
  ran : ∀ cb ∈ t.token.ran, cb ∈ t'.token.ran
  dropped : ∀ cb ∈ t.token.dropped, cb ∈ t'.token.dropped

theorem Kept.refl (t : Timer) (pc : TimerPc) : Kept t { t with pc } := ⟨rfl, rfl, id, fun _ h => h, fun _ h => h⟩

/-- What a step does to timer `k`: its thread goes on, or it keeps its place unless it is launched. -/
theorem timer_step (h : Step s a s') (ht : s.timers[k]? = some t) :
    ∃ t', s'.timers[k]? = some t' ∧ Kept t t' ∧
      ((own k (s, a) = false ∧ (t'.pc = t.pc ∨ t.pc = .registering ∧ t'.pc = .waiting)) ∨
        (own k (s, a) = true ∧ t'.token = t.token ∧ s.threadStep t a = some t'.pc)) := by
  have hlt := (List.getElem?_eq_some_iff.mp ht).1
  have hset : ∀ t', (s.setTimer k t').timers[k]? = some t' := fun t' => List.getElem?_set_self hlt
  have hother : ∀ {j t'}, j ≠ k → (s.setTimer j t').timers[k]? = some t := fun hj => (List.getElem?_set_ne hj).trans ht
  cases step_moves h with
  | start interval => exact ⟨t, (List.getElem?_append_left hlt).trans ht, .refl t t.pc, Or.inl ⟨rfl, Or.inl rfl⟩⟩
  | actor => exact ⟨t, ht, .refl t t.pc, Or.inl ⟨rfl, Or.inl rfl⟩⟩
  | @token j b u token hu _ hb =>
    by_cases hj : j = k
    · subst hj
      rw [ht] at hu
      cases hu
      exact ⟨_, hset _, ⟨rfl, rfl, isCancelled_step hb, fun _ => ran_step hb, fun _ => dropped_step hb⟩,
        Or.inl ⟨rfl, Or.inl rfl⟩⟩
    · exact ⟨t, hother hj, .refl t t.pc, Or.inl ⟨rfl, Or.inl rfl⟩⟩
  | @launch j u hu hpc _ =>
    by_cases hj : j = k
    · subst hj
      rw [ht] at hu
      cases hu
      exact ⟨_, hset _, .refl t .waiting, Or.inl ⟨rfl, Or.inr ⟨hpc, rfl⟩⟩⟩
    · exact ⟨t, hother hj, .refl t t.pc, Or.inl ⟨rfl, Or.inl rfl⟩⟩
  | @thread j _ u pc hu ha hpc =>
    by_cases hj : j = k
    · subst hj
      rw [ht] at hu
      cases hu
      exact ⟨_, hset _, .refl t pc, Or.inr ⟨(ha j).mpr rfl, rfl, hpc⟩⟩
    · refine ⟨t, hother hj, .refl t t.pc, Or.inl ⟨?_, Or.inl rfl⟩⟩
      by_contra hown
      exact hj ((ha k).mp (by simpa using hown)).symm

theorem own_of_sends (h : own k (s, a) = false) : sends k (s, a) = false := by
  unfold own at h
  unfold sends
  split
  case h_1 j hact =>
    obtain rfl : a = .send j := hact
    exact h
  case h_2 => rfl

theorem actor_step (h : Step s a s') (hc : s.actor.isCancelled = true) : s'.actor.isCancelled = true := by
  cases step_moves h with
  | actor hb => exact isCancelled_step hb hc
  | start | token | launch | thread => exact hc

/-- A timer that will send although a token is cancelled: it has looked at that token before. -/
def Cleared (s : Timers) (k : Nat) : Prop :=
  ∃ t, s.timers[k]? = some t ∧ (t.pc = .sending ∨ (t.pc = .checkActor ∧ s.actor.isCancelled = false))

theorem not_cleared_of_step (h : Step s a s') (ht : s.timers[k]? = some t)
    (hc : t.token.isCancelled = true ∨ s.actor.isCancelled = true) (hcleared : Cleared s' k) :
    Cleared s k ∧ sends k (s, a) = false := by
  obtain ⟨t', ht', hpc'⟩ := hcleared
  have hactor : s'.actor.isCancelled = false → s.actor.isCancelled = false := by
    intro hf
    by_contra hs
    rw [actor_step h (by simpa using hs)] at hf
    cases hf
  obtain ⟨u, hu, hkept, hmove⟩ := timer_step h ht
  rw [ht'] at hu
  cases hu
  rcases hmove with ⟨hown, hpc | ⟨-, hpc⟩⟩ | ⟨-, -, hstep⟩
  · refine ⟨⟨t, ht, ?_⟩, own_of_sends hown⟩
    rw [hpc] at hpc'
    exact hpc'.imp_right fun hx => ⟨hx.1, hactor hx.2⟩
  · simp [hpc] at hpc'
  · rcases threadStep_cases hstep with ⟨-, -, hpc⟩ | ⟨-, -, hpc⟩ | ⟨-, hpc⟩ | ⟨hat, hpc⟩ | ⟨-, -, hpc⟩
    · simp [hpc] at hpc'
    · simp [hpc] at hpc'
    · -- past the check of its own token only if that is not cancelled, but then the actor's is
      split_ifs at hpc with hset
      · simp [hpc] at hpc'
      · have hset' := hc.resolve_left hset
        have hx := hpc'.resolve_left (by simp [hpc])
        rw [hactor hx.2] at hset'
        cases hset'
    · split_ifs at hpc with hset
      · simp [hpc] at hpc'
      · refine ⟨⟨t, ht, Or.inr ⟨hat, by simpa using hset⟩⟩, ?_⟩
        by_contra hsend
        have hsending := sends_pc h (by simpa using hsend)
        simp [ht, hat] at hsending
    · split_ifs at hpc <;> simp [hpc] at hpc'

/-- **At most one message after a cancel.** From any state on in which the timer's own token or the actor's is cancelled,
a timer sends at most one more message, and none at all unless its thread has looked at the cancelled token before that
and not sent since. A timer of `send_after` sends at most one message in any case. -/
theorem timer_sends_after_cancel {σ : List (Timers × TimersAct)} (h : Run Step s σ s') (ht : s.timers[k]? = some t) :
    (t.token.isCancelled = true ∨ s.actor.isCancelled = true →
      σ.countP (sends k) ≤ if t.pc = .sending ∨ (t.pc = .checkActor ∧ s.actor.isCancelled = false) then 1 else 0) ∧
      (t.interval = false → σ.countP (sends k) ≤ if t.pc = .ended then 0 else 1) := by
  classical
  constructor
  · intro hc
    have hle := h.countP_le
      (F := fun s => ∃ t, s.timers[k]? = some t ∧ (t.token.isCancelled = true ∨ s.actor.isCancelled = true))
      (C := fun s => Cleared s k) (E := sends k) ?_ ?_ ?_ ⟨t, ht, hc⟩
    · have hiff : Cleared s k ↔ t.pc = .sending ∨ (t.pc = .checkActor ∧ s.actor.isCancelled = false) := by
        simp [Cleared, ht]
      simpa only [hiff] using hle
    · rintro s a s' ⟨t, ht, hc⟩ hstep
      obtain ⟨t', ht', hkept, -⟩ := timer_step hstep ht
      exact ⟨t', ht', hc.imp hkept.cancelled (actor_step hstep)⟩
    · rintro s a s' ⟨t, ht, hc⟩ hstep hcleared
      exact not_cleared_of_step hstep ht hc hcleared
    · intro s a s' hstep hsend
      obtain ⟨t, ht, hpc⟩ := Option.map_eq_some_iff.mp (sends_pc hstep hsend)
      exact ⟨t, ht, Or.inl hpc⟩
  · intro hinterval
    have hle := h.countP_le (F := fun s => ∃ t, s.timers[k]? = some t ∧ t.interval = false)
      (C := fun s => ∃ t, s.timers[k]? = some t ∧ t.pc ≠ .ended) (E := sends k) ?_ ?_ ?_ ⟨t, ht, hinterval⟩
    · have hiff : (∃ u, s.timers[k]? = some u ∧ u.pc ≠ .ended) ↔ ¬t.pc = .ended := by simp [ht]
      simpa only [hiff, ite_not] using hle
    · rintro s a s' ⟨t, ht, hi⟩ hstep
      obtain ⟨t', ht', hkept, -⟩ := timer_step hstep ht
      exact ⟨t', ht', hkept.interval.trans hi⟩
    · rintro s a s' ⟨t, ht, hi⟩ hstep ⟨t', ht', hpc'⟩
      obtain ⟨u, hu, hkept, hmove⟩ := timer_step hstep ht
      rw [ht'] at hu
      cases hu
      rcases hmove with ⟨hown, hpc | ⟨hpc, -⟩⟩ | ⟨-, -, hthread⟩
      · exact ⟨⟨t, ht, hpc ▸ hpc'⟩, own_of_sends hown⟩
      · exact ⟨⟨t, ht, by simp [hpc]⟩, own_of_sends hown⟩
      · have hsending : sends k (s, a) = true → t.pc = .sending := by
          intro hsend
          simpa [ht] using sends_pc hstep hsend
        rcases threadStep_cases hthread with ⟨hat, -⟩ | ⟨hat, -⟩ | ⟨hat, -⟩ | ⟨hat, -⟩ | ⟨-, -, hpc⟩
        · exact ⟨⟨t, ht, by simp [hat]⟩, by simpa [hat] using hsending⟩
        · exact ⟨⟨t, ht, by simp [hat]⟩, by simpa [hat] using hsending⟩
        · exact ⟨⟨t, ht, by simp [hat]⟩, by simpa [hat] using hsending⟩
        · exact ⟨⟨t, ht, by simp [hat]⟩, by simpa [hat] using hsending⟩
        · simp [hi] at hpc
          exact absurd hpc hpc'
    · intro s a s' hstep hsend
      obtain ⟨t, ht, hpc⟩ := Option.map_eq_some_iff.mp (sends_pc hstep hsend)
      exact ⟨t, ht, by simp [hpc]⟩

/-- A timer is registered, launched, times out and passes both checks. -/
def upToSend (interval : Bool) : List TimersAct :=
  [.start interval, .actor (.step 0), .actor (.step 0), .actor (.step 0), .launch 0, .timeout 0, .check 0, .check 0]

/-- A timer that is cancelled right before it sends. -/
theorem timer_sends_after_cancel_of_late :
    ∃ s σ s', Run Step s σ s' ∧ s.timers[0]?.map (·.token.isCancelled) = some true ∧ σ.countP (sends 0) ≤ 1 ∧
      0 < σ.countP (sends 0) := by
  let s := ((tryPlay next {} (upToSend true ++ [.token 0 .cancel, .token 0 (.step 1)])).get (by decide)).2
  have hrun := run_tryPlay next s [.send 0, .timeout 0, .check 0] (by decide)
  exact ⟨s, _, _, hrun, by decide, (timer_sends_after_cancel hrun (k := 0) rfl).1 (Or.inl rfl), by decide⟩

/-! ## The end of a thread -/

theorem inv_registered : CancellationToken.registered.Inv := by
  have hrun := run_tryPlay CancellationToken.next {} [.onCancel, .step 0, .step 0, .step 0] (by decide)
  exact CancellationToken.inv_run hrun

structure Inv (s : Timers) : Prop where
  actor : s.actor.Inv
  tokens : ∀ t ∈ s.timers, t.token.Inv ∧ t.token.calls[0]? = some (.onCancel .returned)
  /-- a thread is spawned when both callbacks are registered -/
  calls : ∀ t ∈ s.timers, ∃ pc, s.actor.calls[t.actorCall]? = some (.onCancel pc) ∧ (t.pc ≠ .registering → pc = .returned)
  distinct : (s.timers.map (·.actorCall)).Nodup

theorem inv_init : Inv {} := ⟨CancellationToken.inv_init, by simp, by simp, by simp⟩

/-- Timer `k` comes to be `t'`, with the same calls. -/
theorem Inv.setTimer (h : s.Inv) (ht : s.timers[k]? = some t) {t' : Timer} (hcall : t'.actorCall = t.actorCall)
    (htoken : t'.token.Inv ∧ t'.token.calls[0]? = some (.onCancel .returned))
    (hpc : t'.pc ≠ .registering → t.pc ≠ .registering ∨ s.actor.calls[t.actorCall]? = some (.onCancel .returned)) :
    (s.setTimer k t').Inv := by
  have hmem := List.mem_of_getElem? ht
  have hback : ∀ u ∈ (s.setTimer k t').timers, u = t' ∨ u ∈ s.timers := fun u hu => (List.mem_or_eq_of_mem_set hu).symm
  refine ⟨h.actor, fun u hu => ?_, fun u hu => ?_, ?_⟩
  · rcases hback u hu with rfl | hu
    · exact htoken
    · exact h.tokens u hu
  · rcases hback u hu with rfl | hu
    · obtain ⟨pc, hc, hret⟩ := h.calls t hmem
      refine ⟨pc, hcall ▸ hc, fun hu => ?_⟩
      rcases hpc hu with hne | hreturned
      · exact hret hne
      · rw [hc] at hreturned
        cases hreturned
        rfl
    · exact h.calls u hu
  · show ((s.timers.set k t').map (·.actorCall)).Nodup
    rw [map_set_eq _ ht t' hcall]
    exact h.distinct

theorem Inv.step (h : s.Inv) (hstep : Step s a s') : s'.Inv := by
  cases step_moves hstep with
  | start interval =>
    have hnew : ∀ t ∈ s.timers, t.actorCall ≠ s.actor.calls.length := by
      intro t ht hlt
      obtain ⟨pc, hc, -⟩ := h.calls t ht
      rw [hlt, List.getElem?_eq_none (Nat.le_refl _)] at hc
      cases hc
    refine ⟨h.actor.call (Or.inr rfl), fun t ht => ?_, fun t ht => ?_, ?_⟩
    · rcases List.mem_append.mp ht with ht | ht
      · exact h.tokens t ht
      · obtain rfl := List.mem_singleton.mp ht
        exact ⟨inv_registered, rfl⟩
    · rcases List.mem_append.mp ht with ht | ht
      · obtain ⟨pc, hc, hret⟩ := h.calls t ht
        exact ⟨pc, (List.getElem?_append_left (List.getElem?_eq_some_iff.mp hc).1).trans hc, hret⟩
      · obtain rfl := List.mem_singleton.mp ht
        exact ⟨.lock, List.getElem?_concat_length, by simp⟩
    · rw [List.map_append, List.nodup_append]
      refine ⟨h.distinct, by simp, ?_⟩
      rintro i hi j hj rfl
      obtain ⟨t, ht, rfl⟩ := List.mem_map.mp hi
      exact hnew t ht (by simpa using hj)
  | actor hb =>
    refine ⟨h.actor.step hb, h.tokens, fun t ht => ?_, h.distinct⟩
    obtain ⟨pc, hc, hret⟩ := h.calls t ht
    obtain ⟨pc', hc', hret'⟩ := onCancel_step hb hc
    exact ⟨pc', hc', fun hne => hret' (hret hne)⟩
  | token ht hpc hb =>
    obtain ⟨hinv, hzero⟩ := h.tokens _ (List.mem_of_getElem? ht)
    obtain ⟨pc', hc', hret'⟩ := onCancel_step hb hzero
    exact h.setTimer ht rfl ⟨hinv.step hb, by rw [hc', hret' rfl]⟩ fun hne => Or.inl hne
  | launch ht hpc hcall =>
    have htoken := h.tokens _ (List.mem_of_getElem? ht)
    exact h.setTimer ht rfl htoken fun _ => Or.inr hcall
  | thread ht ha hthread =>
    have htoken := h.tokens _ (List.mem_of_getElem? ht)
    refine h.setTimer ht rfl htoken fun _ => Or.inl ?_
    rcases threadStep_cases hthread with ⟨hat, -⟩ | ⟨hat, -⟩ | ⟨hat, -⟩ | ⟨hat, -⟩ | ⟨hat, -⟩ <;> simp [hat]

theorem inv_run {τ : List (Timers × TimersAct)} (h : Run Step {} τ s) : s.Inv :=
  h.inv inv_init fun _ _ _ hs hstep => hs.step hstep

theorem woken_iff : s.woken t = true ↔
    (0 ∈ t.token.ran ∨ t.actorCall ∈ s.actor.ran) ∨ 0 ∈ t.token.dropped ∧ t.actorCall ∈ s.actor.dropped := by
  simp only [woken, Bool.or_eq_true, Bool.and_eq_true, List.contains_iff_mem]

/-- When a cancel of either token is over, there is a wake-up for the thread. -/
theorem Inv.woken (h : s.Inv) (ht : s.timers[k]? = some t) (hpc : t.pc ≠ .registering)
    (hc : CancelReturned t.token ∨ CancelReturned s.actor) : s.woken t = true := by
  have hmem := List.mem_of_getElem? ht
  obtain ⟨hinv, hzero⟩ := h.tokens t hmem
  obtain ⟨pc, hcall, hret⟩ := h.calls t hmem
  rw [hret hpc] at hcall
  rw [woken_iff]
  exact Or.inl (hc.imp (fun hc => ran_of_cancelReturned hinv hc hzero) fun hc => ran_of_cancelReturned h.actor hc hcall)

/-- How many steps the thread of a timer takes at most until it ends, once it was woken. -/
def rank : TimerPc → Nat
  | .registering => 5
  | .checkTimer => 4
  | .checkActor => 3
  | .sending => 2
  | .waiting => 1
  | .ended => 0

theorem woken_step (h : Step s a s') {t' : Timer} (hkept : Kept t t') (hw : s.woken t = true) : s'.woken t' = true := by
  have hran : t.actorCall ∈ s.actor.ran → t'.actorCall ∈ s'.actor.ran := by
    intro hran
    rw [hkept.actorCall]
    cases step_moves h with
    | actor hb => exact ran_step hb hran
    | start | token | launch | thread => exact hran
  have hdropped : t.actorCall ∈ s.actor.dropped → t'.actorCall ∈ s'.actor.dropped := by
    intro hdropped
    rw [hkept.actorCall]
    cases step_moves h with
    | actor hb => exact dropped_step hb hdropped
    | start | token | launch | thread => exact hdropped
  rw [woken_iff] at hw ⊢
  exact hw.imp (Or.imp (hkept.ran 0) hran) (And.imp (hkept.dropped 0) hdropped)

/-- A thread that was woken comes nearer to its end with each step. -/
theorem rank_threadStep {pc : TimerPc} (hw : s.woken t = true) (h : s.threadStep t a = some pc) : rank pc < rank t.pc := by
  rcases threadStep_cases h with ⟨-, hnot, -⟩ | ⟨hat, -, rfl⟩ | ⟨hat, rfl⟩ | ⟨hat, rfl⟩ | ⟨hat, -, rfl⟩
  · rw [hw] at hnot
    cases hnot
  · rw [hat]
    decide
  · rw [hat]
    split_ifs <;> decide
  · rw [hat]
    split_ifs <;> decide
  · rw [hat]
    split_ifs <;> decide

/-- **A cancelled timer ends.** Once all calls of `cancel` on the timer's own token or on the actor's have returned, its
thread can go on until it has ended, but for a send that it is in, which returns when the mailbox lets it; and it takes at
most four steps more, the return of that send among them. -/
theorem timer_ends_after_cancel {τ : List (Timers × TimersAct)} (h : Run Step {} τ s) (ht : s.timers[k]? = some t)
    (hpc : t.pc ≠ .registering) (hc : CancelReturned t.token ∨ CancelReturned s.actor) :
    (t.pc = .ended ∨ t.pc = .sending ∨ ∃ a s', own k (s, a) = true ∧ sends k (s, a) = false ∧ Step s a s') ∧
      ∀ σ s', Run Step s σ s' → σ.countP (own k) ≤ 4 := by
  have hw := (inv_run h).woken ht hpc hc
  constructor
  · have hgo : ∀ a, (s.threadStep t a).isSome = true → a = .wake k ∨ a = .check k →
        ∃ a s', own k (s, a) = true ∧ sends k (s, a) = false ∧ Step s a s' := by
      intro a hstep ha
      obtain ⟨pc, hpc⟩ := Option.isSome_iff_exists.mp hstep
      refine ⟨a, s.setTimer k { t with pc }, ?_, ?_, ?_⟩
      · rcases ha with rfl | rfl <;> simp [own]
      · rcases ha with rfl | rfl <;> rfl
      · rcases ha with rfl | rfl <;> simp [Step, next, ht, hpc]
    cases hat : t.pc with
    | registering => exact absurd hat hpc
    | ended => exact Or.inl rfl
    | sending => exact Or.inr (Or.inl rfl)
    | waiting => exact Or.inr (Or.inr (hgo (.wake k) (by simp [threadStep, hat, hw]) (Or.inl rfl)))
    | checkTimer => exact Or.inr (Or.inr (hgo (.check k) (by simp [threadStep, hat]) (Or.inr rfl)))
    | checkActor => exact Or.inr (Or.inr (hgo (.check k) (by simp [threadStep, hat]) (Or.inr rfl)))
  · intro σ s' hσ
    have hle := hσ.countP_add_le (I := fun s => ∃ t, s.timers[k]? = some t ∧ t.pc ≠ .registering ∧ s.woken t = true)
      (fun s => (s.timers[k]?.map fun t => rank t.pc).getD 0) (E := own k) ⟨t, ht, hpc, hw⟩ ?_ ?_ ?_
    · have hrank : rank t.pc ≤ 4 := by
        cases hat : t.pc <;> first | exact absurd hat hpc | decide
      simp only [ht, Option.map_some, Option.getD_some] at hle
      omega
    · rintro s a s' ⟨t, ht, hpc, hw⟩ hstep
      obtain ⟨t', ht', hkept, hmove⟩ := timer_step hstep ht
      refine ⟨t', ht', ?_, woken_step hstep hkept hw⟩
      rcases hmove with ⟨-, heq | ⟨hreg, -⟩⟩ | ⟨-, -, hthread⟩
      · rw [heq]
        exact hpc
      · exact absurd hreg hpc
      · intro hreg
        have hlt := rank_threadStep hw hthread
        rw [hreg] at hlt
        cases hat : t.pc <;> simp [hat, rank] at hlt hpc
    · rintro s a s' ⟨t, ht, hpc, hw⟩ hstep
      obtain ⟨t', ht', -, hmove⟩ := timer_step hstep ht
      simp only [ht, ht', Option.map_some, Option.getD_some]
      rcases hmove with ⟨-, heq | ⟨hreg, -⟩⟩ | ⟨-, -, hthread⟩
      · exact Nat.le_of_eq (congrArg rank heq)
      · exact absurd hreg hpc
      · exact Nat.le_of_lt (rank_threadStep hw hthread)
    · rintro s a s' ⟨t, ht, hpc, hw⟩ hstep hown
      obtain ⟨t', ht', -, hmove⟩ := timer_step hstep ht
      simp only [ht, ht', Option.map_some, Option.getD_some]
      rcases hmove with ⟨hnot, -⟩ | ⟨-, -, hthread⟩
      · rw [hown] at hnot
        cases hnot
      · exact rank_threadStep hw hthread

/-- A timer whose token was cancelled while it was waiting. -/
theorem timer_ends_after_cancel_of_waiting :
    ∃ τ s, Run Step {} τ s ∧ s.timers[0]?.map (·.pc) = some .waiting ∧
      (∃ a s', own 0 (s, a) = true ∧ Step s a s') ∧ ∀ σ s', Run Step s σ s' → σ.countP (own 0) ≤ 4 := by
  have hrun := run_tryPlay next {} ((upToSend true).take 5 ++ [.token 0 .cancel, .token 0 (.step 1), .token 0 (.step 1),
    .token 0 (.step 1), .token 0 (.step 1), .token 0 (.step 1), .token 0 (.step 1)]) (by decide)
  have hreturned : CancelReturned { CancellationToken.registered with
      isCancelled := true, callbacks := [], calls := [.onCancel .returned, .cancel .returned], ran := [0] } :=
    ⟨by decide, by simp⟩
  obtain ⟨hgo, hfew⟩ := timer_ends_after_cancel hrun (k := 0) rfl (by decide) (Or.inl hreturned)
  refine ⟨_, _, hrun, rfl, ?_, hfew⟩
  rcases hgo with hended | hsending | ⟨a, s', hown, -, hstep⟩
  · cases hended
  · cases hsending
  · exact ⟨a, s', hown, hstep⟩

/-- **The token of the actor keeps every timer.** As long as the actor is not cancelled, the callback of every timer that
was launched is registered with its token, whether the timer still runs, was cancelled or has long ended: the token has
at least as many callbacks as there were timers. -/
theorem timers_stay_registered {τ : List (Timers × TimersAct)} (h : Run Step {} τ s) (hc : s.actor.isCancelled = false) :
    (∀ t ∈ s.timers, t.pc ≠ .registering → t.actorCall ∈ s.actor.callbacks) ∧
      s.timers.countP (fun t => t.pc != .registering) ≤ s.actor.callbacks.length := by
  have hinv := inv_run h
  -- nothing was called or taken, since that comes after the flag
  have hran : s.actor.ran = [] := by
    by_contra hne
    rw [hinv.actor.flagged (Or.inr hne)] at hc
    cases hc
  have hdropped : s.actor.dropped = [] := by
    by_contra hne
    rw [hinv.actor.flagged (Or.inl ⟨_, hinv.actor.unwound hne, rfl⟩)] at hc
    cases hc
  have htaken : ∀ i, (s.actor.calls.map fun d => d.taken.count i).sum = 0 := by
    intro i
    refine List.sum_eq_zero fun n hn => ?_
    obtain ⟨d, hd, rfl⟩ := List.mem_map.mp hn
    by_contra hne
    have hpast : d.pastFlag = true := by
      cases d with
      | cancel pc => cases pc <;> simp at hne ⊢
      | onCancel pc => simp at hne
    rw [hinv.actor.flagged (Or.inl ⟨d, hd, hpast⟩)] at hc
    cases hc
  have hall : ∀ t ∈ s.timers, t.pc ≠ .registering → t.actorCall ∈ s.actor.callbacks := by
    intro t ht hpc
    obtain ⟨pc, hcall, hret⟩ := hinv.calls t ht
    have hplaced := hinv.actor.placed t.actorCall
    have hgave : s.actor.gave t.actorCall = true := by
      rw [CancellationToken.gave, hcall, hret hpc]
      rfl
    rw [hgave, if_pos rfl, CancellationToken.places, htaken, hran, hdropped, List.count_nil] at hplaced
    exact List.count_pos_iff.mp (by omega)
  refine ⟨hall, ?_⟩
  have hnodup : ((s.timers.filter fun t => t.pc != .registering).map (·.actorCall)).Nodup :=
    hinv.distinct.sublist (List.filter_sublist.map _)
  have hsub : (s.timers.filter fun t => t.pc != .registering).map (·.actorCall) ⊆ s.actor.callbacks := by
    intro i hi
    obtain ⟨t, ht, rfl⟩ := List.mem_map.mp hi
    obtain ⟨ht, hpc⟩ := List.mem_filter.mp ht
    exact hall t ht (by simpa using hpc)
  have hle := (List.subperm_of_subset hnodup hsub).length_le
  rwa [List.length_map, ← List.countP_eq_length_filter] at hle

/-- A timer of `send_after` that has sent and ended. -/
theorem timers_stay_registered_of_ended :
    ∃ τ s, Run Step {} τ s ∧ s.timers.map (·.pc) = [.ended] ∧ 1 ≤ s.actor.callbacks.length := by
  have hrun := run_tryPlay next {} (upToSend false ++ [.send 0]) (by decide)
  exact ⟨_, _, hrun, rfl, (timers_stay_registered hrun rfl).2⟩

end Timers

end Spawned
