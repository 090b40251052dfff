import Spawned.Lib.Run

/-!
# Messages to be sent later

The timers of the tasks runtime and `send_message_on` of both race something that takes its time against cancellation. A
task polls its tokens before the sleep or the future it waits for, and sends right after that was ready; the thread of
`send_message_on` looks at the token once, when its closure has returned.

* `Deferring` : the token of an actor and all such tasks ever started for it; `Deferring.next` : one step of any of them;
* `Deferring.task_step` : what a step does to one task;
* `deferred_sends_after_cancel` : how many messages come after a cancel;
* `deferred_ends_after_cancel` : how many steps.

A token is a flag, and `cancelled()` is ready once it is set.
-/

namespace Spawned

open Lib

inductive DeferredKind
  /-- `send_after` -/
  | after
  /-- `send_interval` -/
  | interval
  /-- `send_message_on` with a future, -/
  | future
  /-- and with a closure, in the threads runtime -/
  | closure
deriving DecidableEq, Repr

/-- Where a task stands. -/
inductive DeferredPc
  /-- not polled at the moment; the closure runs -/
  | pending
  /-- `cloned_token.cancelled()` -/
  | pollTimer
  /-- `cancelled()` of the actor's token, or `is_cancelled()` -/
  | pollActor
  /-- the `sleep`, or the future -/
  | pollBody
  /-- `ctx.send(msg)` -/
  | sending
  | ended
deriving DecidableEq, Repr

structure Deferred where
  kind : DeferredKind
  /-- the token of its `TimerHandle` is cancelled -/
  cancelled : Bool := false
  pc : DeferredPc := .pending
deriving DecidableEq, Repr

structure Deferring where
  actorCancelled : Bool := false
  tasks : List Deferred := []
deriving DecidableEq, Repr

inductive DeferringAct
  | start (kind : DeferredKind)
  | cancelActor
  /-- `timer.cancellation_token.cancel()` -/
  | cancel (k : Nat)
  /-- task `k` is polled; the closure returns -/
  | poll (k : Nat)
  /-- the result of one of its tokens -/
  | token (k : Nat)
  /-- the result of what it waits for -/
  | body (k : Nat) (ready : Bool)
  | send (k : Nat)
deriving DecidableEq

/-- There is a handle with a token. -/
def DeferredKind.timer : DeferredKind → Bool
  | .after | .interval => true
  | .future | .closure => false

namespace Deferring

def setTask (s : Deferring) (k : Nat) (t : Deferred) : Deferring := { s with tasks := s.tasks.set k t }

/-- A task goes on by itself. -/
def taskStep (s : Deferring) (t : Deferred) : DeferringAct → Option DeferredPc
  | .poll _ => if t.pc = .pending then some (if t.kind.timer then .pollTimer else .pollActor) else none
  | .token _ =>
    match t.pc with
    | .pollTimer => some (if t.cancelled then .ended else .pollActor)
    | .pollActor =>
      some (if s.actorCancelled then .ended else if t.kind = .closure then .sending else .pollBody)
    | _ => none
  | .body _ ready => if t.pc = .pollBody then some (if ready then .sending else .pending) else none
  -- the next round of `send_interval` is polled at once
  | .send _ => if t.pc = .sending then some (if t.kind = .interval then .pollTimer else .ended) else none
  | _ => none

def next (s : Deferring) (a : DeferringAct) : Option Deferring :=
  match a with
  | .start kind => some { s with tasks := s.tasks ++ [{ kind }] }
  | .cancelActor => some { s with actorCancelled := true }
  | .cancel k =>
    s.tasks[k]?.bind fun t => if t.kind.timer then some (s.setTask k { t with cancelled := true }) else none
  | .poll k | .token k | .body k _ | .send k =>
    s.tasks[k]?.bind fun t => (s.taskStep t a).map fun pc => s.setTask k { t with pc }

def Step (s : Deferring) (a : DeferringAct) (s' : Deferring) : Prop := s.next a = some s'

/-- A step of task `k` itself. -/
def own (k : Nat) (x : Deferring × DeferringAct) : Bool :=
  match x.2 with
  | .poll j | .token j | .body j _ | .send j => j == k
  | _ => false

def sends (k : Nat) (x : Deferring × DeferringAct) : Bool :=
  match x.2 with
  | .send j => j == k
  | _ => false

/-! ## What a step does -/

variable {s s' : Deferring} {a : DeferringAct} {k : Nat} {t : Deferred} {σ : List (Deferring × DeferringAct)}

/-- What a task that goes on does. -/
theorem taskStep_cases {pc : DeferredPc} (h : s.taskStep t a = some pc) :
    (t.pc = .pending ∧ pc = if t.kind.timer then .pollTimer else .pollActor) ∨
      (t.pc = .pollTimer ∧ pc = if t.cancelled then .ended else .pollActor) ∨
      (t.pc = .pollActor ∧ pc = if s.actorCancelled then .ended else if t.kind = .closure then .sending else .pollBody) ∨
      (t.pc = .pollBody ∧ (pc = .sending ∨ pc = .pending)) ∨
      (t.pc = .sending ∧ pc = if t.kind = .interval then .pollTimer else .ended) := by
  unfold taskStep at h
  split at h
  case h_1 =>
    obtain ⟨hpc, h⟩ := Option.ite_none_right_eq_some.mp h
    cases h
    exact Or.inl ⟨hpc, rfl⟩
  case h_2 =>
    split at h
    case h_1 hpc =>
      cases h
      exact Or.inr (Or.inl ⟨hpc, rfl⟩)
    case h_2 hpc =>
      cases h
      exact Or.inr (Or.inr (Or.inl ⟨hpc, rfl⟩))
    case h_3 => cases h
  case h_3 j ready =>
    obtain ⟨hpc, h⟩ := Option.ite_none_right_eq_some.mp h
    cases h
    refine Or.inr (Or.inr (Or.inr (Or.inl ⟨hpc, ?_⟩)))
    cases ready
    · exact Or.inr rfl
    · exact Or.inl rfl
  case h_4 =>
    obtain ⟨hpc, h⟩ := Option.ite_none_right_eq_some.mp h
    cases h
    exact Or.inr (Or.inr (Or.inr (Or.inr ⟨hpc, rfl⟩)))
  case h_5 => cases h

/-- What a task keeps from one step to the next. -/
structure Kept (t t' : Deferred) : Prop where
  kind : t'.kind = t.kind
  cancelled : t.cancelled = true → t'.cancelled = true

/-- What a step does to task `k`: it goes on, or it keeps its place. -/
theorem task_step (h : Step s a s') (ht : s.tasks[k]? = some t) :
    ∃ t', s'.tasks[k]? = some t' ∧ Kept t t' ∧
      ((own k (s, a) = false ∧ t'.pc = t.pc) ∨
        (own k (s, a) = true ∧ s.taskStep t a = some t'.pc)) := by
  have hlt := (List.getElem?_eq_some_iff.mp ht).1
  have hset : ∀ t', (s.setTask k t').tasks[k]? = some t' := fun t' => List.getElem?_set_self hlt
  have hother : ∀ {j t'}, j ≠ k → (s.setTask j t').tasks[k]? = some t := fun hj => (List.getElem?_set_ne hj).trans ht
  unfold Step at h
  cases a with
  | start kind =>
    cases h
    exact ⟨t, (List.getElem?_append_left hlt).trans ht, ⟨rfl, id⟩, Or.inl ⟨rfl, rfl⟩⟩
  | cancelActor =>
    cases h
    exact ⟨t, ht, ⟨rfl, id⟩, Or.inl ⟨rfl, rfl⟩⟩
  | cancel j =>
    obtain ⟨u, hu, h⟩ := Option.bind_eq_some_iff.mp h
    obtain ⟨-, h⟩ := Option.ite_none_right_eq_some.mp h
    cases h
    by_cases hj : j = k
    · subst hj
      rw [ht] at hu
      cases hu
      exact ⟨_, hset _, ⟨rfl, fun _ => rfl⟩, Or.inl ⟨rfl, rfl⟩⟩
    · exact ⟨t, hother hj, ⟨rfl, id⟩, Or.inl ⟨rfl, rfl⟩⟩
  | poll j | token j | body j | send j =>
    obtain ⟨u, hu, h⟩ := Option.bind_eq_some_iff.mp h
    obtain ⟨pc, hpc, rfl⟩ := Option.map_eq_some_iff.mp h
    by_cases hj : j = k
    · subst hj
      rw [ht] at hu
      cases hu
      exact ⟨_, hset _, ⟨rfl, id⟩, Or.inr ⟨by simp [own], hpc⟩⟩
    · exact ⟨t, hother hj, ⟨rfl, id⟩, Or.inl ⟨by simpa [own] using hj, rfl⟩⟩

theorem actor_step (h : Step s a s') (hc : s.actorCancelled = true) : s'.actorCancelled = true := by
  unfold Step at h
  cases a with
  | start | cancelActor =>
    cases h
    first | exact hc | rfl
  | cancel j =>
    obtain ⟨u, hu, h⟩ := Option.bind_eq_some_iff.mp h
    obtain ⟨-, h⟩ := Option.ite_none_right_eq_some.mp h
    cases h
    exact hc
  | poll j | token j | body j | send j =>
    obtain ⟨u, hu, h⟩ := Option.bind_eq_some_iff.mp h
    obtain ⟨pc, hpc, rfl⟩ := Option.map_eq_some_iff.mp h
    exact hc

/-- A step that sends for task `k` finds it at its send. -/
theorem sends_pc (h : Step s a s') (hsend : sends k (s, a) = true) : s.tasks[k]?.map (·.pc) = some .sending := by
  unfold sends at hsend
  split at hsend
  case h_2 => cases hsend
  case h_1 j hact =>
    obtain rfl : j = k := by simpa using hsend
    obtain rfl : a = .send j := hact
    obtain ⟨t, ht, h⟩ := Option.bind_eq_some_iff.mp h
    obtain ⟨pc, hpc, rfl⟩ := Option.map_eq_some_iff.mp h
    obtain ⟨hp, -⟩ := Option.ite_none_right_eq_some.mp hpc
    rw [ht, Option.map_some, hp]

theorem not_sends_of_not_own (h : own k (s, a) = false) : sends k (s, a) = false := by
  unfold own at h
  unfold sends
  split
  case h_1 j hact =>
    obtain rfl : a = .send j := hact
    exact h
  case h_2 => rfl

/-! ## After a cancel -/

/-- A token that the task polls is cancelled. -/
def Stopped (s : Deferring) (t : Deferred) : Prop := (t.kind.timer = true ∧ t.cancelled = true) ∨ s.actorCancelled = true

/-- The task may send before it polls its tokens again. -/
def Past (s : Deferring) (t : Deferred) : Prop :=
  t.pc = .sending ∨ t.pc = .pollBody ∨ (t.pc = .pollActor ∧ s.actorCancelled = false)

instance : Decidable (Past s t) := inferInstanceAs (Decidable (_ ∨ _))

theorem Past.at_token (h : s.Past t) (hsending : t.pc ≠ .sending) (hbody : t.pc ≠ .pollBody) :
    t.pc = .pollActor ∧ s.actorCancelled = false :=
  (h.resolve_left hsending).resolve_left hbody

theorem stopped_step {t' : Deferred} (h : Step s a s') (hkept : Kept t t') (hs : s.Stopped t) : s'.Stopped t' :=
  hs.imp (fun ⟨htimer, hc⟩ => ⟨hkept.kind ▸ htimer, hkept.cancelled hc⟩) (actor_step h)

/-- Nothing gets past a cancelled token, and a send takes the task back before its tokens. -/
theorem past_of_step (h : Step s a s') (ht : s.tasks[k]? = some t) (hs : s.Stopped t) {t' : Deferred}
    (ht' : s'.tasks[k]? = some t') (hpast : s'.Past t') : s.Past t ∧ sends k (s, a) = false := by
  have hactor : s'.actorCancelled = false → s.actorCancelled = false := by
    intro hf
    by_contra hc
    rw [actor_step h (by simpa using hc)] at hf
    cases hf
  have hnot : t.pc ≠ .sending → sends k (s, a) = false := by
    intro hpc
    by_contra hsend
    have hsending := sends_pc h (by simpa using hsend)
    simp [ht, hpc] at hsending
  obtain ⟨u, hu, -, hmove⟩ := task_step h ht
  rw [ht'] at hu
  cases hu
  rcases hmove with ⟨hown, hpc⟩ | ⟨-, hstep⟩
  · refine ⟨?_, not_sends_of_not_own hown⟩
    rw [Past, hpc] at hpast
    exact hpast.imp_right fun hx => hx.imp_right fun hx => ⟨hx.1, hactor hx.2⟩
  · rcases taskStep_cases hstep with ⟨hat, hpc⟩ | ⟨hat, hpc⟩ | ⟨hat, hpc⟩ | ⟨hat, hpc⟩ | ⟨hat, hpc⟩
    · -- before its first token; without a handle that is the actor's
      have hx := hpast.at_token (by rw [hpc]; split_ifs <;> simp) (by rw [hpc]; split_ifs <;> simp)
      rw [hx.1] at hpc
      split_ifs at hpc with htimer
      exact absurd (hs.resolve_right (by simp [hactor hx.2])).1 htimer
    · have hx := hpast.at_token (by rw [hpc]; split_ifs <;> simp) (by rw [hpc]; split_ifs <;> simp)
      rw [hx.1] at hpc
      split_ifs at hpc with hcancelled
      exact absurd (hs.resolve_right (by simp [hactor hx.2])).2 hcancelled
    · refine ⟨Or.inr (Or.inr ⟨hat, ?_⟩), hnot (by simp [hat])⟩
      by_contra hc
      rw [if_pos (by simpa using hc)] at hpc
      simp [Past, hpc] at hpast
    · exact ⟨Or.inr (Or.inl hat), hnot (by simp [hat])⟩
    · split_ifs at hpc <;> simp [Past, hpc] at hpast

/-- **At most one message after a cancel.** From any state on in which a token that a task polls is cancelled it sends at
most one more message, and none at all unless it has got past that token and has not sent since. What is not an interval
sends at most one message in any case. -/
theorem deferred_sends_after_cancel (h : Run Step s σ s') (ht : s.tasks[k]? = some t) :
    (s.Stopped t → σ.countP (sends k) ≤ if s.Past t then 1 else 0) ∧
      (t.kind ≠ .interval → σ.countP (sends k) ≤ if t.pc = .ended then 0 else 1) := by
  classical
  constructor
  · intro hstopped
    have hle := h.countP_le (F := fun s => ∃ t, s.tasks[k]? = some t ∧ s.Stopped t)
      (C := fun s => ∃ t, s.tasks[k]? = some t ∧ s.Past t) (E := sends k) ?_ ?_ ?_ ⟨t, ht, hstopped⟩
    · have hiff : (∃ u, s.tasks[k]? = some u ∧ s.Past u) ↔ s.Past t := by simp [ht]
      simpa only [hiff] using hle
    · rintro s a s' ⟨t, ht, hs⟩ hstep
      obtain ⟨t', ht', hkept, -⟩ := task_step hstep ht
      exact ⟨t', ht', stopped_step hstep hkept hs⟩
    · rintro s a s' ⟨t, ht, hs⟩ hstep ⟨t', ht', hpast⟩
      obtain ⟨hbefore, hnot⟩ := past_of_step hstep ht hs ht' hpast
      exact ⟨⟨t, ht, hbefore⟩, hnot⟩
    · intro s a s' hstep hsend
      obtain ⟨t, ht, hpc⟩ := Option.map_eq_some_iff.mp (sends_pc hstep hsend)
      exact ⟨t, ht, Or.inl hpc⟩
  · intro hkind
    have hle := h.countP_le (F := fun s => ∃ t, s.tasks[k]? = some t ∧ t.kind ≠ .interval)
      (C := fun s => ∃ t, s.tasks[k]? = some t ∧ t.pc ≠ .ended) (E := sends k) ?_ ?_ ?_ ⟨t, ht, hkind⟩
    · have hiff : (∃ u, s.tasks[k]? = some u ∧ u.pc ≠ .ended) ↔ ¬t.pc = .ended := by simp [ht]
      simpa only [hiff, ite_not] using hle
    · rintro s a s' ⟨t, ht, hk⟩ hstep
      obtain ⟨t', ht', hkept, -⟩ := task_step hstep ht
      exact ⟨t', ht', hkept.kind ▸ hk⟩
    · rintro s a s' ⟨t, ht, hk⟩ hstep ⟨t', ht', hpc'⟩
      obtain ⟨u, hu, -, hmove⟩ := task_step hstep ht
      rw [ht'] at hu
      cases hu
      rcases hmove with ⟨hown, hpc⟩ | ⟨-, htask⟩
      · exact ⟨⟨t, ht, hpc ▸ hpc'⟩, not_sends_of_not_own hown⟩
      · have hsending : sends k (s, a) = true → t.pc = .sending := by
          intro hsend
          simpa [ht] using sends_pc hstep hsend
        rcases taskStep_cases htask with ⟨hat, -⟩ | ⟨hat, -⟩ | ⟨hat, -⟩ | ⟨hat, -⟩ | ⟨-, hpc⟩
        · exact ⟨⟨t, ht, by simp [hat]⟩, by simpa [hat] using hsending⟩
        · exact ⟨⟨t, ht, by simp [hat]⟩, by simpa [hat] using hsending⟩
        · exact ⟨⟨t, ht, by simp [hat]⟩, by simpa [hat] using hsending⟩
        · exact ⟨⟨t, ht, by simp [hat]⟩, by simpa [hat] using hsending⟩
        · rw [if_neg hk] at hpc
          exact absurd hpc hpc'
    · intro s a s' hstep hsend
      obtain ⟨t, ht, hpc⟩ := Option.map_eq_some_iff.mp (sends_pc hstep hsend)
      exact ⟨t, ht, by simp [hpc]⟩

/-- An interval that is cancelled when its sleep is about to be polled. -/
theorem deferred_sends_after_cancel_of_late :
    ∃ s σ s', Run Step s σ s' ∧ s.tasks[0]?.map (·.cancelled) = some true ∧ σ.countP (sends 0) ≤ 1 ∧
      0 < σ.countP (sends 0) := by
  let s := ((tryPlay next {} [.start .interval, .poll 0, .token 0, .token 0, .cancel 0]).get (by decide)).2
  have hrun := run_tryPlay next s [.body 0 true, .send 0, .token 0] (by decide)
  exact ⟨s, _, _, hrun, by decide, (deferred_sends_after_cancel hrun (k := 0) rfl).1 (Or.inl (by decide)), by decide⟩

/-! ## The end of a task -/

/-- How far a task is from its end once a token is cancelled. -/
def rank (s : Deferring) (t : Deferred) : Nat :=
  match t.pc with
  | .pollActor => if s.actorCancelled then 1 else 5
  | .pollBody => 4
  | .pending | .sending => 3
  | .pollTimer => if t.cancelled then 1 else 2
  | .ended => 0

theorem rank_le (s : Deferring) (t : Deferred) : s.rank t ≤ 5 := by
  unfold rank
  split <;> (try split_ifs) <;> decide

theorem rank_kept {t' : Deferred} (h : Step s a s') (hkept : Kept t t') (hpc : t'.pc = t.pc) : s'.rank t' ≤ s.rank t := by
  unfold rank
  rw [hpc]
  cases t.pc with
  | pollActor =>
    by_cases hc : s.actorCancelled = true
    · simp [hc, actor_step h hc]
    · simp only [if_neg hc]
      split_ifs <;> decide
  | pollTimer =>
    by_cases hc : t.cancelled = true
    · simp [hc, hkept.cancelled hc]
    · simp only [if_neg hc]
      split_ifs <;> decide
  | pending | pollBody | sending | ended => exact Nat.le_refl _

/-- It comes nearer with each step of its own. -/
theorem rank_own (h : Step s a s') (hs : s.Stopped t) {t' : Deferred} (hstep : s.taskStep t a = some t'.pc) :
    s'.rank t' < s.rank t := by
  have hpollActor : s.actorCancelled = true → t'.pc = .pollActor → s'.rank t' = 1 := by
    intro hc hpc
    simp [rank, hpc, actor_step h hc]
  rcases taskStep_cases hstep with ⟨hat, hpc⟩ | ⟨hat, hpc⟩ | ⟨hat, hpc⟩ | ⟨hat, hpc⟩ | ⟨hat, hpc⟩
  · have hrank : s.rank t = 3 := by simp [rank, hat]
    split_ifs at hpc with htimer
    · rw [hrank, rank, hpc]
      split_ifs <;> decide
    · rw [hrank, hpollActor (hs.resolve_left fun hx => htimer hx.1) hpc]
      decide
  · split_ifs at hpc with hc
    · simp [rank, hat, hpc, hc]
    · have hrank : s.rank t = 2 := by simp [rank, hat, hc]
      rw [hrank, hpollActor (hs.resolve_left fun hx => hc hx.2) hpc]
      decide
  · split_ifs at hpc with hc hclosure
    · simp [rank, hat, hpc, hc]
    · simp [rank, hat, hpc, hc]
    · simp [rank, hat, hpc, hc]
  · rcases hpc with hpc | hpc <;> simp [rank, hat, hpc]
  · have hrank : s.rank t = 3 := by simp [rank, hat]
    split_ifs at hpc
    · rw [hrank, rank, hpc]
      split_ifs <;> decide
    · simp [rank, hat, hpc]

/-- **A stopped task ends.** It takes at most five steps more, even if it is polled for no reason. -/
theorem deferred_ends_after_cancel (h : Run Step s σ s') (ht : s.tasks[k]? = some t) (hs : s.Stopped t) :
    σ.countP (own k) ≤ 5 := by
  have hle := h.countP_add_le (I := fun s => ∃ t, s.tasks[k]? = some t ∧ s.Stopped t)
    (fun s => (s.tasks[k]?.map s.rank).getD 0) (E := own k) ⟨t, ht, hs⟩ ?_ ?_ ?_
  · have hrank := rank_le s t
    simp only [ht, Option.map_some, Option.getD_some] at hle
    omega
  · rintro s a s' ⟨t, ht, hs⟩ hstep
    obtain ⟨t', ht', hkept, -⟩ := task_step hstep ht
    exact ⟨t', ht', stopped_step hstep hkept hs⟩
  · rintro s a s' ⟨t, ht, hs⟩ hstep
    obtain ⟨t', ht', hkept, hmove⟩ := task_step hstep ht
    simp only [ht, ht', Option.map_some, Option.getD_some]
    rcases hmove with ⟨-, hpc⟩ | ⟨-, htask⟩
    · exact rank_kept hstep hkept hpc
    · exact Nat.le_of_lt (rank_own hstep hs htask)
  · rintro s a s' ⟨t, ht, hs⟩ hstep hown
    obtain ⟨t', ht', -, hmove⟩ := task_step hstep ht
    simp only [ht, ht', Option.map_some, Option.getD_some]
    rcases hmove with ⟨hnot, -⟩ | ⟨-, htask⟩
    · rw [hown] at hnot
      cases hnot
    · exact rank_own hstep hs htask

/-- A future of an actor that was cancelled first. -/
theorem deferred_ends_after_cancel_of_future :
    ∃ s σ s', Run Step s σ s' ∧ s.actorCancelled = true ∧ σ.countP (own 0) ≤ 5 ∧ s'.tasks[0]?.map (·.pc) = some .ended := by
  let s := ((tryPlay next {} [.start .future, .cancelActor]).get (by decide)).2
  have hrun := run_tryPlay next s [.poll 0, .token 0] (by decide)
  exact ⟨s, _, _, hrun, by decide, deferred_ends_after_cancel hrun (k := 0) rfl (Or.inr rfl), by decide⟩

end Deferring

end Spawned
