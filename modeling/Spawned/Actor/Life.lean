import Spawned.Actor.Parity
import Spawned.Lib.Run

/-!
# Lives of an actor

`Lives c s₀ τ₀ hist p` : an actor with the callbacks `c` was started in `s₀`, with the calls `τ₀`, and has handled the
events of `hist` since; it is now between two callbacks in `p`. The answers are arbitrary, so a statement about all
lives is about everything the children and the environment may do. A handler that has called `ctx.stop()` is the last.
-/

namespace Spawned

open Lib

/-- The two runtimes. -/
inductive Runtime
  | tasks
  | threads
deriving DecidableEq, Repr

namespace Runtime

def supervisor : Runtime → Context → Callbacks Supervisor Empty Empty
  | .tasks => Tasks.supervisor
  | .threads => Threads.supervisor

def dynamicSupervisor : Runtime → Context → Callbacks DynamicSupervisor DynMsg DynReply
  | .tasks => Tasks.dynamicSupervisor
  | .threads => Threads.dynamicSupervisor

theorem supervisor_eq (rt : Runtime) (ctx : Context) : rt.supervisor ctx = Tasks.supervisor ctx := by
  cases rt with
  | tasks => rfl
  | threads => exact threads_supervisor_eq ctx

theorem dynamicSupervisor_eq (rt : Runtime) (ctx : Context) :
    rt.dynamicSupervisor ctx = Tasks.dynamicSupervisor ctx := by
  cases rt with
  | tasks => rfl
  | threads => exact threads_dynamicSupervisor_eq ctx

end Runtime

namespace Callbacks

variable {S M R : Type}

/-- The handler of the turn's event runs with the turn's calls. -/
def Handles (c : Callbacks S M R) (p : Serving S) (turn : Turn M R) (q : Serving S) : Prop :=
  p.stopped = false ∧ (c.onEvent p.state turn.event).Exec turn.calls (q.state, turn.reply) ∧
    q.stopped = decide (CalledStop turn.calls)

/-- A life so far. -/
def Lives (c : Callbacks S M R) (s₀ : S) (τ₀ : SupTrace) (hist : List (Serving S × Turn M R)) (p : Serving S) : Prop :=
  ∃ s, (c.started s₀).Exec τ₀ s ∧ Run c.Handles ⟨s, false⟩ hist p

variable {c : Callbacks S M R} {p q : Serving S} {turn : Turn M R}

theorem Handles.exit {exit : Exit} (h : c.Handles p turn q) (he : turn.event = .exit exit) :
    (c.exitReceived p.state exit).Exec turn.calls q.state := by
  obtain ⟨-, h, -⟩ := h
  rw [he] at h
  obtain ⟨s, h₁, hq⟩ := Prog.exec_bind_pure.mp h
  obtain ⟨rfl, -⟩ := Prod.mk.inj hq
  exact h₁

theorem Handles.message {msg : M} (h : c.Handles p turn q) (he : turn.event = .message msg) :
    ∃ reply, turn.reply = some reply ∧ (c.handle p.state msg).Exec turn.calls (q.state, reply) := by
  obtain ⟨-, h, -⟩ := h
  rw [he] at h
  obtain ⟨⟨s, r⟩, h₁, hq⟩ := Prog.exec_bind_pure.mp h
  obtain ⟨rfl, hreply⟩ := Prod.mk.inj hq
  exact ⟨r, hreply, h₁⟩

theorem Lives.snoc {s₀ : S} {τ₀ : SupTrace} {hist : List (Serving S × Turn M R)} (h : c.Lives s₀ τ₀ hist p)
    (hturn : c.Handles p turn q) : c.Lives s₀ τ₀ (hist ++ [(p, turn)]) q := by
  obtain ⟨s, hstarted, hserve⟩ := h
  exact ⟨s, hstarted, hserve.snoc hturn⟩

/-- The last turn of a life. -/
theorem Lives.last {s₀ : S} {τ₀ : SupTrace} {hist : List (Serving S × Turn M R)}
    (h : c.Lives s₀ τ₀ (hist ++ [(p, turn)]) q) : c.Lives s₀ τ₀ hist p ∧ c.Handles p turn q := by
  obtain ⟨s, hstarted, hserve⟩ := h
  obtain ⟨hrun, hturn⟩ := hserve.snoc_inv
  exact ⟨⟨s, hstarted, hrun⟩, hturn⟩

theorem run_serve (c : Callbacks S M R) (ora : Prog.Strategy SupOp SupOp.Ans) (p : Serving S) (τ : SupTrace)
    (events : List (Event M)) :
    Run c.Handles p (c.serve ora p τ events).1 (c.serve ora p τ events).2.1 := by
  induction events generalizing p τ with
  | nil => exact .nil
  | cons event events ih =>
    rw [serve]
    cases hs : p.stopped with
    | true => exact .nil
    | false =>
      obtain ⟨calls, hτ, hexec⟩ := Prog.exec_run ora (c.onEvent p.state event) τ
      have hcalls : ((c.onEvent p.state event).run ora τ).2.drop τ.length = calls := by simp [hτ]
      simp only [Bool.false_eq_true, if_false, hcalls]
      exact .cons ⟨hs, hexec, rfl⟩ (ih _ _)

/-- The turns are about the events that were handed in. -/
theorem event_serve (c : Callbacks S M R) (ora : Prog.Strategy SupOp SupOp.Ans) (p : Serving S) (τ : SupTrace)
    (events : List (Event M)) {x : Serving S × Turn M R} (hx : x ∈ (c.serve ora p τ events).1) :
    x.2.event ∈ events := by
  induction events generalizing p τ with
  | nil => cases hx
  | cons event events ih =>
    rw [serve] at hx
    split_ifs at hx with hs
    · cases hx
    · rcases List.mem_cons.mp hx with rfl | hx
      · exact List.mem_cons_self
      · exact List.mem_cons_of_mem _ (ih _ _ hx)

theorem event_life (c : Callbacks S M R) (ora : Prog.Strategy SupOp SupOp.Ans) (s : S) (events : List (Event M))
    {x : Serving S × Turn M R} (hx : x ∈ (c.life ora s events).turns) : x.2.event ∈ events :=
  event_serve c ora _ _ events hx

/-- The life against a strategy is one of the lives. -/
theorem lives_life (c : Callbacks S M R) (ora : Prog.Strategy SupOp SupOp.Ans) (s : S) (events : List (Event M)) :
    c.Lives s (c.life ora s events).startCalls (c.life ora s events).turns (c.life ora s events).last := by
  obtain ⟨τ₀, hτ, hexec⟩ := Prog.exec_run ora (c.started s) []
  rw [List.nil_append] at hτ
  refine ⟨((c.started s).run ora []).1, ?_, run_serve _ _ _ _ _⟩
  show (c.started s).Exec ((c.started s).run ora []).2 _
  rw [hτ]
  exact hexec

end Callbacks

/-- A simple environment: every started actor gets a fresh id (the number of calls made so far), every actor asked has
exited normally, no node is reachable. -/
def calmAnswers : Prog.Strategy SupOp SupOp.Ans
  | τ, .startChild _ => ⟨τ.length⟩
  | _, .exitReason _ => some .normal
  | _, .waitExit _ => .normal
  | _, .waitExitWithTimeout _ _ => some .normal
  | _, .requestSpawnWithRetry _ _ _ _ _ => .error .invalidReply
  | _, .shutdownRemoteAndWait _ _ => .ok ()
  | _, .now => (0 : Nat)
  | _, .register _ _ => .ok ()
  | _, .shutdown _ | _, .kill _ | _, .sleep _ | _, .unregister _ | _, .trapExit _ | _, .registerSupervisionActor
  | _, .stop => ()

end Spawned
