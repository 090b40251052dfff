import Spawned.Lib.Run
import Spawned.Supervisor.Ops

/-!
# Waiting for a child that is shut down

`shutdown_child_blocking` and `shutdown_child_async` send the requests of a policy and wait on the completion of the
child, which is a watch channel or a mutex with a condvar. The waits are loops with their own fast paths and timers, and
an async wait on a condvar runs on a blocking thread that another wait stands behind.

* `WaitPc.next` : one step of a wait, for either function and either completion;
* `State.next` : one call of a function, step by step, with a child that may exit at any moment;
* `WaitInv` : what a wait knows is true, and it is notified once the child has exited;
* `Inv` : the calls made so far are those of the program, and what they were told is the exit of the child;
* `shutdown_child_ends_with_exit` : the function returns with the exit of the child, and with the requests of its policy.
-/

namespace Spawned

open Lib

namespace ShutdownChild

/-- How a handle learns of the exit. -/
inductive Completion
  | tasks
  | threads
deriving DecidableEq, Repr

/-- What `Handle::try_current` and `runtime_flavor` find where a blocking function is called. -/
inductive Runtime
  | absent
  | multiThread
  | other
deriving DecidableEq, Repr

inductive Flavour
  | blocking (runtime : Runtime)
  | async
deriving DecidableEq, Repr

/-- The function that is called. -/
def Flavour.program (handle : ChildHandle) (policy : ShutdownType) : Flavour → SupProg ExitReason
  | .blocking _ => shutdownChildBlocking handle policy
  | .async => shutdownChildAsync handle policy

/-! ## Waits -/

/-- Where the closure of `spawn_blocking` is, which waits on the condvar. -/
inductive HelperPc
  | queued
  | poll
  | lock
  | asleep (notified : Bool)
  | finished (report : Option ExitReason)
  /-- the runtime shut down before it ran -/
  | cancelled
deriving DecidableEq, Repr

/-- Where a wait is. -/
inductive WaitPc
  /-- `exit_reason()`, at the start of the waits with a timeout -/
  | poll
  /-- `rx.borrow()`, before a runtime is entered -/
  | peek
  /-- `Handle::try_current()` -/
  | enter
  /-- `rx.borrow_and_update()` in `wait_loop` -/
  | borrow
  /-- `rx.changed()`, when it is polled -/
  | changed
  | parked (notified : Bool)
  /-- the guard of the mutex is looked at; it is held until the condvar waits -/
  | lock
  | asleep (notified : Bool)
  /-- the handle of `spawn_blocking` is awaited -/
  | join (helper : HelperPc)
  | panicked
deriving DecidableEq, Repr

inductive HelperAct
  | step
  | wake
  | timeout
  | cancel
deriving DecidableEq, Repr

inductive WaitAct
  /-- the function goes on; where it sleeps, it has been notified -/
  | step
  /-- a wake-up without a notification -/
  | wake
  /-- the timer of the wait fires -/
  | timeout
  | helper (act : HelperAct)
deriving DecidableEq, Repr

inductive Outcome
  | waits (pc : WaitPc)
  | reports (report : Option ExitReason)
deriving DecidableEq, Repr

/-- The wait behind the fast path of `exit_reason()`. -/
def Flavour.begin : Flavour → Completion → WaitPc
  | .blocking _, .tasks => .peek
  | .async, .tasks => .borrow
  | .blocking _, .threads => .lock
  | .async, .threads => .join .queued

/-- `wait_exit_blocking` or, `timed`, `wait_exit_blocking_with_timeout` on a condvar, on a blocking thread. A condvar that
timed out reports so whatever the guard holds. -/
def HelperPc.next (timed : Bool) (exit : Option ExitReason) : HelperAct → HelperPc → Option HelperPc
  | .step, .queued => some (if timed then .poll else .lock)
  | .step, .poll => some (exit.elim .lock fun reason => .finished (some reason))
  | .step, .lock => some (exit.elim (.asleep false) fun reason => .finished (some reason))
  | .step, .asleep true => some .lock
  | .wake, .asleep _ => some .lock
  | .timeout, .asleep _ => if timed then some (.finished none) else none
  | .cancel, .queued => some .cancelled
  | _, _ => none

/-- One step of a wait. `closed` : the sender of the watch channel is gone. A future under a timeout is polled before the
timer, so that the timer is looked at only where the future waits. -/
def WaitPc.next (flavour : Flavour) (completion : Completion) (timed : Bool) (exit : Option ExitReason) (closed : Bool) :
    WaitAct → WaitPc → Option Outcome
  | .step, .poll => some (exit.elim (.waits (flavour.begin completion)) fun reason => .reports (some reason))
  | .step, .peek => some (exit.elim (.waits .enter) fun reason => .reports (some reason))
  | .step, .enter => some (.waits (if flavour = .blocking .other then .panicked else .borrow))
  | .step, .borrow => some (exit.elim (.waits .changed) fun reason => .reports (some reason))
  | .step, .changed =>
    -- a value not seen yet comes before the end of the channel
    if exit.isSome then some (.waits .borrow)
    else if closed then some (.reports (some .kill))
    else some (.waits (.parked false))
  | .step, .parked true => some (.waits .changed)
  | .step, .lock => some (exit.elim (.waits (.asleep false)) fun reason => .reports (some reason))
  | .step, .asleep true => some (.waits .lock)
  | .step, .join (.finished report) => some (.reports report)
  | .step, .join .cancelled => some (.reports (if timed then none else some .kill))
  | .wake, .parked _ => some (.waits .changed)
  | .wake, .asleep _ => some (.waits .lock)
  | .timeout, .parked _ | .timeout, .asleep _ | .timeout, .join _ => if timed then some (.reports none) else none
  | .helper act, .join helper => (helper.next timed exit act).map fun helper => .waits (.join helper)
  | _, _ => none

/-- The child's exit, or the end of its channel, notifies those that wait. -/
def HelperPc.notify : HelperPc → HelperPc
  | .asleep _ => .asleep true
  | helper => helper

def WaitPc.notify : WaitPc → WaitPc
  | .parked _ => .parked true
  | .asleep _ => .asleep true
  | .join helper => .join helper.notify
  | pc => pc

/-! ## Calls -/

/-- A call with the child it is about: the value of the completion, the calls on the handle with their answers, what is
left of the function, and where its present wait is. -/
structure State where
  exit : Option ExitReason := none
  closed : Bool := false
  trace : SupTrace := []
  rest : SupProg ExitReason
  wait : Option WaitPc := none

inductive Act
  | own (act : WaitAct)
  /-- the child sets its completion -/
  | exit (reason : ExitReason)
  /-- the task of the child ends, and with it the sender of its channel -/
  | close
deriving DecidableEq, Repr

namespace State

variable (flavour : Flavour) (completion : Completion) (s : State)

/-- A call on the handle returns. -/
def answer (e : SupOp) (ans : e.Ans) (rest : SupProg ExitReason) : State :=
  { s with trace := s.trace ++ [⟨e, ans⟩], rest, wait := none }

def settle (finish : Option ExitReason → Option State) : Outcome → Option State
  | .waits pc => some { s with wait := some pc }
  | .reports report => finish report

/-- The function goes on. -/
def own (act : WaitAct) : Option State :=
  match s.rest, s.wait, act with
  | .call (.exitReason handle) k, _, .step => some (s.answer (.exitReason handle) s.exit (k s.exit))
  | .call (.shutdown handle) k, _, .step => some (s.answer (.shutdown handle) () (k ()))
  | .call (.kill handle) k, _, .step => some (s.answer (.kill handle) () (k ()))
  | .call (.waitExit _) _, none, .step => some { s with wait := some (flavour.begin completion) }
  | .call (.waitExitWithTimeout _ _) _, none, .step => some { s with wait := some .poll }
  | .call (.waitExit handle) k, some pc, act =>
    (pc.next flavour completion false s.exit s.closed act).bind <|
      s.settle fun report => report.map fun reason => s.answer (.waitExit handle) reason (k reason)
  | .call (.waitExitWithTimeout handle timeout) k, some pc, act =>
    (pc.next flavour completion true s.exit s.closed act).bind <|
      s.settle fun report => some (s.answer (.waitExitWithTimeout handle timeout) report (k report))
  | _, _, _ => none

def next : Act → Option State
  | .own act => s.own flavour completion act
  | .exit reason =>
    if s.exit.isNone && !s.closed then some { s with exit := some reason, wait := s.wait.map WaitPc.notify } else none
  | .close =>
    if completion = .tasks then some { s with closed := true, wait := s.wait.map WaitPc.notify } else none

end State

def Step (flavour : Flavour) (completion : Completion) (s : State) (a : Act) (s' : State) : Prop :=
  s.next flavour completion a = some s'

/-- Nothing is aborted in this step: the task of the child ends with its completion set, and the runtime runs the blocking
thread. -/
def Unaborted (s : State) (a : Act) : Prop := (a = .close → s.exit.isSome = true) ∧ a ≠ .own (.helper .cancel)

def NotAborted (τ : List (State × Act)) : Prop := ∀ x ∈ τ, Unaborted x.1 x.2

variable {flavour : Flavour} {completion : Completion} {timed closed : Bool} {exit : Option ExitReason}

/-! ## What a wait knows -/

/-- How many steps the blocking thread has still to take at most, once the child has exited. -/
def HelperPc.left : HelperPc → Nat
  | .queued => 3
  | .asleep _ => 2
  | .poll | .lock => 1
  | .finished _ | .cancelled => 0

/-- And the wait. -/
def WaitPc.left : WaitPc → Nat
  | .parked _ => 3
  | .changed | .enter | .asleep _ => 2
  | .poll | .peek | .borrow | .lock => 1
  | .join helper => helper.left + 1
  | .panicked => 0

/-- What the blocking thread reports is the exit, or that the time is over. -/
def HelperPc.Told (timed : Bool) (exit : Option ExitReason) : HelperPc → Prop
  | .finished (some reason) => exit = some reason
  | .finished none => timed = true
  | .cancelled => False
  | _ => True

def WaitPc.Told (timed : Bool) (exit : Option ExitReason) : WaitPc → Prop
  | .join helper => helper.Told timed exit
  | _ => True

/-- A wait knows nothing false, and is notified once the child has exited. -/
structure WaitInv (timed : Bool) (exit : Option ExitReason) (pc : WaitPc) : Prop where
  told : pc.Told timed exit
  awake : exit.isSome = true → pc.notify = pc

theorem WaitInv.of_told {pc : WaitPc} (h : pc.Told timed none) : WaitInv timed none pc := ⟨h, nofun⟩

theorem waitInv_poll : WaitInv timed exit .poll := ⟨trivial, fun _ => rfl⟩

theorem waitInv_begin : WaitInv timed exit (flavour.begin completion) := by
  cases flavour <;> cases completion <;> exact ⟨trivial, fun _ => rfl⟩

theorem HelperPc.next_told {act : HelperAct} {helper helper' : HelperPc} (hact : act ≠ .cancel)
    (h : helper.next timed exit act = some helper') :
    helper'.Told timed exit ∧ (exit.isSome = true → helper'.notify = helper' ∧ helper'.left < helper.left) := by
  unfold HelperPc.next at h
  split at h
  · cases h
    cases timed <;> exact ⟨trivial, fun _ => ⟨rfl, by decide⟩⟩
  · cases h
    cases exit with
    | none => exact ⟨trivial, nofun⟩
    | some reason => exact ⟨rfl, fun _ => ⟨rfl, Nat.one_pos⟩⟩
  · cases h
    cases exit with
    | none => exact ⟨trivial, nofun⟩
    | some reason => exact ⟨rfl, fun _ => ⟨rfl, Nat.one_pos⟩⟩
  · cases h
    exact ⟨trivial, fun _ => ⟨rfl, Nat.one_lt_two⟩⟩
  · cases h
    exact ⟨trivial, fun _ => ⟨rfl, Nat.one_lt_two⟩⟩
  · obtain ⟨htimed, hs⟩ := Option.ite_none_right_eq_some.mp h
    cases hs
    exact ⟨htimed, fun _ => ⟨rfl, Nat.two_pos⟩⟩
  · exact absurd rfl hact
  · cases h

/-- What a step of a wait comes to: it goes on with nothing false, nearer to its end once the child has exited, or it
reports the exit, or, if it is timed, nothing. -/
def Outcome.Sound (timed : Bool) (exit : Option ExitReason) (pc : WaitPc) : Outcome → Prop
  | .waits pc' => WaitInv timed exit pc' ∧ (exit.isSome = true → pc'.left < pc.left)
  | .reports (some reason) => exit = some reason
  | .reports none => timed = true

theorem sound_seen {pc pc' : WaitPc} (h : pc'.Told timed none) :
    Outcome.Sound timed exit pc (exit.elim (.waits pc') fun reason => .reports (some reason)) := by
  cases exit with
  | none => exact ⟨.of_told h, nofun⟩
  | some reason => rfl

/-- One step of a wait. -/
theorem WaitInv.next {act : WaitAct} {pc : WaitPc} {outcome : Outcome} (hinv : WaitInv timed exit pc)
    (hclosed : closed = true → exit.isSome = true) (hact : act ≠ .helper .cancel)
    (h : pc.next flavour completion timed exit closed act = some outcome) : outcome.Sound timed exit pc := by
  have hover : (if timed then some (Outcome.reports none) else none) = some outcome → outcome.Sound timed exit pc := by
    intro h
    obtain ⟨htimed, hs⟩ := Option.ite_none_right_eq_some.mp h
    cases hs
    exact htimed
  have htold := hinv.told
  unfold WaitPc.next at h
  split at h
  · cases h
    exact sound_seen waitInv_begin.told
  · cases h
    exact sound_seen trivial
  · cases h
    split_ifs <;> exact ⟨⟨trivial, fun _ => rfl⟩, fun _ => by decide⟩
  · cases h
    exact sound_seen trivial
  · split_ifs at h with hexit hend
    · cases h
      exact ⟨⟨trivial, fun _ => rfl⟩, fun _ => Nat.one_lt_two⟩
    · exact absurd (hclosed hend) hexit
    · cases h
      exact ⟨⟨trivial, fun hsome => absurd hsome hexit⟩, fun hsome => absurd hsome hexit⟩
  · cases h
    exact ⟨⟨trivial, fun _ => rfl⟩, fun _ => Nat.lt_succ_self 2⟩
  · cases h
    exact sound_seen trivial
  · cases h
    exact ⟨⟨trivial, fun _ => rfl⟩, fun _ => Nat.one_lt_two⟩
  · rename_i report
    cases h
    cases report with
    | none => exact htold
    | some reason => exact htold
  · exact htold.elim
  · cases h
    exact ⟨⟨trivial, fun _ => rfl⟩, fun _ => Nat.lt_succ_self 2⟩
  · cases h
    exact ⟨⟨trivial, fun _ => rfl⟩, fun _ => Nat.one_lt_two⟩
  · exact hover h
  · exact hover h
  · exact hover h
  · obtain ⟨helper', hnext, hpc'⟩ := Option.map_eq_some_iff.mp h
    cases hpc'
    obtain ⟨htold, hafter⟩ := HelperPc.next_told (fun heq => hact (congrArg WaitAct.helper heq)) hnext
    refine ⟨⟨htold, fun hsome => congrArg WaitPc.join (hafter hsome).1⟩, fun hsome => ?_⟩
    exact Nat.succ_lt_succ (hafter hsome).2
  · cases h

theorem HelperPc.Told.notify {helper : HelperPc} (h : helper.Told timed none) (reason : ExitReason) :
    helper.notify.Told timed (some reason) := by
  cases helper with
  | finished report =>
    cases report with
    | none => exact h
    | some reason => cases h
  | cancelled => exact h
  | _ => trivial

theorem HelperPc.notify_notify (helper : HelperPc) : helper.notify.notify = helper.notify := by
  cases helper <;> rfl

theorem WaitPc.notify_notify (pc : WaitPc) : pc.notify.notify = pc.notify := by
  cases pc with
  | join helper => exact congrArg WaitPc.join helper.notify_notify
  | _ => rfl

/-- The child exits. -/
theorem WaitInv.exited {pc : WaitPc} (h : WaitInv timed none pc) (reason : ExitReason) :
    WaitInv timed (some reason) pc.notify := by
  refine ⟨?_, fun _ => pc.notify_notify⟩
  cases pc with
  | join helper => exact HelperPc.Told.notify h.told reason
  | _ => trivial

/-- The channel of a child that has exited ends. -/
theorem WaitInv.close {pc : WaitPc} (h : WaitInv timed exit pc) (hexit : exit.isSome = true) :
    WaitInv timed exit pc.notify := by
  rw [h.awake hexit]
  exact h

/-! ## The calls of a function -/

/-- The wait that the function is in has a timeout. -/
def timedCall : SupProg ExitReason → Bool
  | .call (.waitExitWithTimeout _ _) _ => true
  | _ => false

namespace State

variable {s s' : State}

/-- Where an answer comes from. -/
inductive Answers (flavour : Flavour) (completion : Completion) (s : State) (act : WaitAct) : (e : SupOp) → e.Ans → Prop
  | exitReason (handle : ChildHandle) : Answers flavour completion s act (.exitReason handle) s.exit
  | shutdown (handle : ChildHandle) : Answers flavour completion s act (.shutdown handle) ()
  | kill (handle : ChildHandle) : Answers flavour completion s act (.kill handle) ()
  | waitExit (handle : ChildHandle) (pc : WaitPc) (reason : ExitReason) (hwait : s.wait = some pc)
      (hnext : pc.next flavour completion false s.exit s.closed act = some (.reports (some reason))) :
      Answers flavour completion s act (.waitExit handle) reason
  | waitExitWithTimeout (handle : ChildHandle) (timeout : Duration) (pc : WaitPc) (report : Option ExitReason)
      (hwait : s.wait = some pc)
      (hnext : pc.next flavour completion true s.exit s.closed act = some (.reports report)) :
      Answers flavour completion s act (.waitExitWithTimeout handle timeout) report

/-- A step of the function: a call on the handle returns, or the function is in a wait. -/
inductive Owns (flavour : Flavour) (completion : Completion) (s : State) (act : WaitAct) : State → Prop
  | answer (e : SupOp) (k : e.Ans → SupProg ExitReason) (ans : e.Ans) (hrest : s.rest = .call e k)
      (hans : Answers flavour completion s act e ans) : Owns flavour completion s act (s.answer e ans (k ans))
  | starts (pc : WaitPc) (hwait : s.wait = none) (hpc : pc = .poll ∨ pc = flavour.begin completion) :
      Owns flavour completion s act { s with wait := some pc }
  | waits (pc pc' : WaitPc) (hwait : s.wait = some pc)
      (hnext : pc.next flavour completion (timedCall s.rest) s.exit s.closed act = some (.waits pc')) :
      Owns flavour completion s act { s with wait := some pc' }

theorem own_owns {act : WaitAct} (h : s.own flavour completion act = some s') : Owns flavour completion s act s' := by
  unfold own at h
  split at h
  · rename_i handle k hrest
    cases h
    exact .answer _ k _ hrest (.exitReason handle)
  · rename_i handle k hrest
    cases h
    exact .answer _ k _ hrest (.shutdown handle)
  · rename_i handle k hrest
    cases h
    exact .answer _ k _ hrest (.kill handle)
  · rename_i hwait
    cases h
    exact .starts _ hwait (Or.inr rfl)
  · rename_i hwait
    cases h
    exact .starts _ hwait (Or.inl rfl)
  · rename_i handle k pc hrest hwait
    obtain ⟨outcome, hnext, h⟩ := Option.bind_eq_some_iff.mp h
    cases outcome with
    | waits pc' =>
      cases h
      exact .waits pc pc' hwait (by rw [hrest]; exact hnext)
    | reports report =>
      obtain ⟨reason, rfl, rfl⟩ := Option.map_eq_some_iff.mp h
      exact .answer _ k reason hrest (.waitExit handle pc reason hwait hnext)
  · rename_i handle timeout k pc hrest hwait
    obtain ⟨outcome, hnext, h⟩ := Option.bind_eq_some_iff.mp h
    cases outcome with
    | waits pc' =>
      cases h
      exact .waits pc pc' hwait (by rw [hrest]; exact hnext)
    | reports report =>
      cases h
      exact .answer _ k report hrest (.waitExitWithTimeout handle timeout pc report hwait hnext)
  · cases h

/-- The exit that a call on the handle was told of. -/
def reported : SupCall → Option ExitReason
  | ⟨.exitReason _, report⟩ => report
  | ⟨.waitExit _, reason⟩ => some reason
  | ⟨.waitExitWithTimeout _ _, report⟩ => report
  | _ => none

theorem reported_of_reports {handle : ChildHandle} {reason : ExitReason} {c : SupCall} (h : Reports handle reason c) :
    reported c = some reason := by
  rcases h with rfl | rfl | ⟨d, rfl⟩ <;> rfl

/-- What is made of the program so far, and what its calls were told. -/
structure Inv (program : SupProg ExitReason) (s : State) : Prop where
  reaches : program.Reaches s.trace s.rest
  truthful : ∀ call ∈ s.trace, ∀ reason, reported call = some reason → s.exit = some reason
  wait : ∀ pc, s.wait = some pc → WaitInv (timedCall s.rest) s.exit pc
  closed : s.closed = true → s.exit.isSome = true

theorem Inv.told {program : SupProg ExitReason} (h : Inv program s) {act : WaitAct} (hact : act ≠ .helper .cancel)
    {e : SupOp} {k : e.Ans → SupProg ExitReason} {ans : e.Ans} (hrest : s.rest = .call e k)
    (hans : Answers flavour completion s act e ans) {reason : ExitReason} (hreported : reported ⟨e, ans⟩ = some reason) :
    s.exit = some reason := by
  cases hans with
  | exitReason handle => exact hreported
  | shutdown handle => cases hreported
  | kill handle => cases hreported
  | waitExit handle pc reason' hwait hnext =>
    have hinv := h.wait pc hwait
    rw [hrest] at hinv
    cases hreported
    exact hinv.next h.closed hact hnext
  | waitExitWithTimeout handle timeout pc report hwait hnext =>
    have hinv := h.wait pc hwait
    rw [hrest] at hinv
    cases hreported
    exact hinv.next h.closed hact hnext

theorem Inv.own {program : SupProg ExitReason} (h : Inv program s) {act : WaitAct} (hact : act ≠ .helper .cancel)
    (hown : Owns flavour completion s act s') : Inv program s' := by
  cases hown with
  | answer e k ans hrest hans =>
    refine ⟨?_, ?_, nofun, h.closed⟩
    · exact (hrest ▸ h.reaches).answer ans
    · intro call hcall reason hreported
      rcases List.mem_append.mp hcall with hcall | hcall
      · exact h.truthful call hcall reason hreported
      · rw [List.mem_singleton.mp hcall] at hreported
        exact h.told hact hrest hans hreported
  | starts pc hwait hpc =>
    refine ⟨h.reaches, h.truthful, ?_, h.closed⟩
    rintro pc' ⟨⟩
    rcases hpc with rfl | rfl
    · exact waitInv_poll
    · exact waitInv_begin
  | waits pc pc' hwait hnext =>
    refine ⟨h.reaches, h.truthful, ?_, h.closed⟩
    rintro pc'' ⟨⟩
    exact ((h.wait pc hwait).next h.closed hact hnext).1

theorem Inv.step {program : SupProg ExitReason} {a : Act} (h : Inv program s)
    (ha : Unaborted s a) (hstep : Step flavour completion s a s') : Inv program s' := by
  unfold Step next at hstep
  cases a with
  | own act => exact h.own (fun hact => ha.2 (congrArg Act.own hact)) (own_owns hstep)
  | exit reason =>
    obtain ⟨hnone, hs'⟩ := Option.ite_none_right_eq_some.mp hstep
    cases hs'
    obtain ⟨hexit, -⟩ : s.exit = none ∧ s.closed = false := by simpa using hnone
    refine ⟨h.reaches, fun call hcall reason' hreported => ?_, ?_, fun _ => rfl⟩
    · cases hexit.symm.trans (h.truthful call hcall reason' hreported)
    · intro pc hpc
      obtain ⟨pc₀, hpc₀, rfl⟩ := Option.map_eq_some_iff.mp hpc
      have hinv := h.wait pc₀ hpc₀
      rw [hexit] at hinv
      exact hinv.exited reason
  | close =>
    obtain ⟨-, hs'⟩ := Option.ite_none_right_eq_some.mp hstep
    cases hs'
    refine ⟨h.reaches, h.truthful, ?_, fun _ => ha.1 rfl⟩
    intro pc hpc
    obtain ⟨pc₀, hpc₀, rfl⟩ := Option.map_eq_some_iff.mp hpc
    exact (h.wait pc₀ hpc₀).close (ha.1 rfl)

theorem inv_of_run {program : SupProg ExitReason} {τ : List (State × Act)}
    (h : Run (Step flavour completion) { rest := program } τ s) (hτ : NotAborted τ) : Inv program s := by
  refine h.inv_of_steps (I := Inv program) (P := Unaborted) ⟨Prog.Reaches.refl program, by simp, ?_, ?_⟩ ?_ hτ
  · rintro pc ⟨⟩
  · rintro ⟨⟩
  intro s a s' hs ha hstep
  exact hs.step ha hstep

end State

/-! ## The traces of the program -/

inductive Request
  | shutdown
  | kill
deriving DecidableEq, Repr

/-- The requests among the calls on the handle. -/
def requests (τ : SupTrace) : List Request :=
  τ.filterMap fun c =>
    match c.op with
    | .shutdown _ => some .shutdown
    | .kill _ => some .kill
    | _ => none

/-- The requests of a policy, if the child lives long enough. -/
def escalation : ShutdownType → List Request
  | .brutalKill => [.kill]
  | .infinity => [.shutdown]
  | .timeout _ => [.shutdown, .kill]

/-- The look before any request found the child alive. -/
def sawAlive : SupCall → Bool
  | ⟨.exitReason _, none⟩ => true
  | _ => false

/-- A timed wait reported no exit. -/
def timedOut : SupCall → Bool
  | ⟨.waitExitWithTimeout _ _, none⟩ => true
  | _ => false

section Traces

variable {handle : ChildHandle} {policy : ShutdownType} {reason : ExitReason} {τ σ : SupTrace}

theorem requests_prefix_of_follows (h : FollowsPolicy handle policy reason σ) : requests σ <+: escalation policy := by
  cases policy with
  | brutalKill =>
    obtain rfl := h
    exact List.prefix_rfl
  | infinity =>
    obtain rfl := h
    exact List.prefix_rfl
  | timeout d =>
    rcases h with rfl | rfl
    · exact ⟨[.kill], rfl⟩
    · exact List.prefix_rfl

theorem kill_iff_of_follows (h : FollowsPolicy handle policy reason σ) :
    .kill ∈ requests σ ↔ policy = .brutalKill ∨ σ.any timedOut = true := by
  cases policy with
  | brutalKill =>
    obtain rfl := h
    simp [requests]
  | infinity =>
    obtain rfl := h
    simp [requests, timedOut]
  | timeout d => rcases h with rfl | rfl <;> simp [requests, timedOut]

/-- A call that is not among the first ones is made after them. -/
theorem prefix_of_mem {A : Type} {p l l₁ : List A} {a : A} (hp : p <+: l) (hl : l₁ <+: l) (ha : a ∈ p) (hnot : a ∉ l₁) :
    l₁ <+: p :=
  (List.prefix_or_prefix_of_prefix hp hl).resolve_left fun h => hnot (h.subset ha)

/-- Requests are sent only after the child was seen alive. -/
theorem sawAlive_of_requests (h : (shutdownChildAsync handle policy).Exec (τ ++ σ) reason) (hne : requests τ ≠ []) :
    τ.any sawAlive = true := by
  rcases exec_shutdownChildAsync_shape h with hshape | ⟨ρ, hshape, -⟩
  · rcases List.append_eq_singleton_iff.mp hshape with ⟨rfl, -⟩ | ⟨rfl, -⟩ <;> exact absurd rfl hne
  · cases τ with
    | nil => exact absurd rfl hne
    | cons c τ =>
      obtain ⟨rfl, -⟩ := List.cons.inj hshape
      rfl

theorem requests_prefix (h : (shutdownChildAsync handle policy).Exec (τ ++ σ) reason) :
    requests τ <+: escalation policy := by
  have hpart : requests τ <+: requests (τ ++ σ) := (List.prefix_append τ σ).filterMap _
  rcases exec_shutdownChildAsync_shape h with hshape | ⟨ρ, hshape, hfollowed⟩
  · rw [hshape] at hpart
    exact hpart.trans List.nil_prefix
  · rw [hshape] at hpart
    have hpolicy : requests ρ <+: escalation policy := requests_prefix_of_follows hfollowed
    exact hpart.trans hpolicy

/-- A kill that is sent is that of `BrutalKill`, or follows a timed wait that reported no exit. -/
theorem timedOut_of_kill (h : (shutdownChildAsync handle policy).Exec (τ ++ σ) reason) (hkill : .kill ∈ requests τ) :
    policy = .brutalKill ∨ τ.any timedOut = true := by
  have hsent := requests_prefix h
  obtain ⟨c, hc, hop⟩ := List.mem_filterMap.mp hkill
  cases policy with
  | brutalKill => exact Or.inl rfl
  | infinity => simpa [escalation] using hsent.subset hkill
  | timeout d =>
    refine Or.inr ?_
    rcases exec_shutdownChildAsync_shape h with hshape | ⟨ρ, hshape, hfollowed⟩
    · have hmem : c ∈ τ ++ σ := List.mem_append_left _ hc
      rw [hshape, List.mem_singleton] at hmem
      rw [hmem] at hop
      cases hop
    · rcases hfollowed with rfl | rfl
      · have hmem : c ∈ τ ++ σ := List.mem_append_left _ hc
        rw [hshape] at hmem
        simp only [List.mem_cons, List.not_mem_nil, or_false] at hmem
        rcases hmem with rfl | rfl | rfl <;> cases hop
      · have hbefore :
            [⟨.exitReason handle, none⟩, ⟨.shutdown handle, ()⟩, ⟨.waitExitWithTimeout handle d, none⟩] <+: τ := by
          refine prefix_of_mem (List.prefix_append τ σ) (hshape ▸ ⟨_, rfl⟩) hc ?_
          simp only [List.mem_cons, List.not_mem_nil, or_false]
          rintro (rfl | rfl | rfl) <;> cases hop
        exact List.any_eq_true.mpr ⟨⟨.waitExitWithTimeout handle d, none⟩, hbefore.subset (by simp), rfl⟩

/-- A call that returned sent a kill if its policy or its timed wait asked for one. -/
theorem kill_of_timedOut (h : (shutdownChildAsync handle policy).Exec τ reason) (halive : τ.any sawAlive = true)
    (hcause : policy = .brutalKill ∨ τ.any timedOut = true) : .kill ∈ requests τ := by
  rcases exec_shutdownChildAsync_shape h with rfl | ⟨ρ, rfl, hfollowed⟩
  · simp [sawAlive] at halive
  · exact (kill_iff_of_follows hfollowed).mpr (by simpa [timedOut] using hcause)

theorem length_le_five (h : (shutdownChildAsync handle policy).Exec τ reason) : τ.length ≤ 5 := by
  rcases exec_shutdownChildAsync_shape h with rfl | ⟨ρ, rfl, hfollowed⟩
  · simp
  · cases policy with
    | brutalKill =>
      obtain rfl := hfollowed
      simp
    | infinity =>
      obtain rfl := hfollowed
      simp
    | timeout d => rcases hfollowed with rfl | rfl <;> simp

end Traces

/-! ## Runs -/

/-- The two functions are one program. -/
theorem program_eq (flavour : Flavour) (handle : ChildHandle) (policy : ShutdownType) :
    flavour.program handle policy = shutdownChildAsync handle policy := by
  cases flavour <;> rfl

/-- An answer to every call, for a program to run to its end. -/
def anyAnswer : (e : SupOp) → e.Ans
  | .startChild _ => ⟨0⟩
  | .exitReason _ => none
  | .waitExit _ => .normal
  | .waitExitWithTimeout _ _ => none
  | .requestSpawnWithRetry .. => .error .invalidReply
  | .shutdownRemoteAndWait .. => .ok ()
  | .now => (0 : Nat)
  | .register .. => .ok ()
  | .shutdown _ | .kill _ | .sleep _ | .unregister _ | .trapExit _ | .registerSupervisionActor | .stop => ()

/-- The act is one of the function. -/
def Act.isOwn : Act → Bool
  | .own _ => true
  | .exit _ | .close => false

namespace State

section Runs

variable {handle : ChildHandle} {policy : ShutdownType} {s s' : State} {a : Act} {τ : List (State × Act)}

/-- The calls made so far begin those of an execution of the program. -/
theorem Inv.exec (h : Inv (flavour.program handle policy) s) :
    ∃ σ reason, (shutdownChildAsync handle policy).Exec (s.trace ++ σ) reason := by
  obtain ⟨σ, reason, hexec, -⟩ := Prog.exec_answers anyAnswer s.rest
  rw [program_eq] at h
  exact ⟨σ, reason, h.reaches σ reason hexec⟩

/-- A function that returned has executed the program. -/
theorem Inv.exec_of_returned (h : Inv (flavour.program handle policy) s) {reason : ExitReason}
    (hrest : s.rest = .pure reason) : (shutdownChildAsync handle policy).Exec s.trace reason := by
  have hreaches := h.reaches
  rw [hrest, program_eq] at hreaches
  exact hreaches.exec

/-- Only the child sets the completion, and the calls that returned stay as they are. -/
theorem step_keeps (hstep : Step flavour completion s a s') :
    (∀ reason, s.exit = some reason → s'.exit = some reason) ∧
      (s.exit.isSome = true → ∀ c ∈ s'.trace, sawAlive c = true → c ∈ s.trace) ∧ s.trace <+: s'.trace := by
  unfold Step next at hstep
  cases a with
  | own act =>
    cases own_owns hstep with
    | answer e k ans hrest hans =>
      refine ⟨fun _ h => h, fun hexit c hc halive => ?_, List.prefix_append _ _⟩
      rcases List.mem_append.mp hc with hc | hc
      · exact hc
      · rw [List.mem_singleton.mp hc] at halive
        obtain ⟨reason, hreason⟩ := Option.isSome_iff_exists.mp hexit
        cases hans with
        | exitReason handle =>
          rw [hreason] at halive
          cases halive
        | _ => cases halive
    | starts pc hwait hpc => exact ⟨fun _ h => h, fun _ c hc _ => hc, List.prefix_rfl⟩
    | waits pc pc' hwait hnext => exact ⟨fun _ h => h, fun _ c hc _ => hc, List.prefix_rfl⟩
  | exit reason =>
    obtain ⟨hnone, hs'⟩ := Option.ite_none_right_eq_some.mp hstep
    cases hs'
    refine ⟨fun reason' h => ?_, fun _ c hc _ => hc, List.prefix_rfl⟩
    simp [h] at hnone
  | close =>
    obtain ⟨-, hs'⟩ := Option.ite_none_right_eq_some.mp hstep
    cases hs'
    exact ⟨fun _ h => h, fun _ c hc _ => hc, List.prefix_rfl⟩

/-- After the exit the completion holds its reason, and the child is not seen alive any more. -/
theorem after_exit {s₀ : State} (h : Run (Step flavour completion) s₀ τ s) {x : State × Act} (hx : x ∈ τ)
    {reason : ExitReason} (hexit : x.2 = .exit reason) :
    s.exit = some reason ∧ (s.trace.any sawAlive = true ↔ x.1.trace.any sawAlive = true) := by
  induction h with
  | nil => cases hx
  | @snoc τ s a s' hr hstep ih =>
    obtain ⟨hkeep, halive, hgrow⟩ := step_keeps hstep
    rcases List.mem_append.mp hx with hx | hx
    · obtain ⟨hreason, hany⟩ := ih hx
      refine ⟨hkeep reason hreason, ?_⟩
      rw [← hany]
      constructor
      · intro h
        obtain ⟨c, hc, hsaw⟩ := List.any_eq_true.mp h
        exact List.any_eq_true.mpr ⟨c, halive (by simp [hreason]) c hc hsaw, hsaw⟩
      · intro h
        obtain ⟨c, hc, hsaw⟩ := List.any_eq_true.mp h
        exact List.any_eq_true.mpr ⟨c, hgrow.subset hc, hsaw⟩
    · rw [List.mem_singleton.mp hx] at hexit ⊢
      dsimp only at hexit ⊢
      subst hexit
      obtain ⟨-, hs'⟩ := Option.ite_none_right_eq_some.mp hstep
      cases hs'
      exact ⟨rfl, Iff.rfl⟩

/-! ### A function whose child has exited returns -/

/-- The function has returned, or it has panicked. -/
def isOver (s : State) : Bool :=
  match s.rest, s.wait with
  | .pure _, _ => true
  | _, some .panicked => true
  | _, _ => false

theorem rest_calls (h : Run (Step flavour completion) { rest := flavour.program handle policy } τ s) :
    s.rest.Calls (OnHandle handle) := by
  refine h.inv (I := fun s => s.rest.Calls (OnHandle handle)) ?_ ?_
  · rw [program_eq]
    exact calls_shutdownChildAsync handle policy
  · intro s a s' hcalls hstep
    unfold Step next at hstep
    cases a with
    | own act =>
      cases own_owns hstep with
      | answer e k ans hrest hans =>
        rw [hrest] at hcalls
        exact hcalls.2 ans
      | starts pc hwait hpc => exact hcalls
      | waits pc pc' hwait hnext => exact hcalls
    | exit reason =>
      obtain ⟨-, hs'⟩ := Option.ite_none_right_eq_some.mp hstep
      cases hs'
      exact hcalls
    | close =>
      obtain ⟨-, hs'⟩ := Option.ite_none_right_eq_some.mp hstep
      cases hs'
      exact hcalls

/-- The steps that need no wake-up of their own and no timer. -/
def Prompt (act : WaitAct) : Prop := act = .step ∨ act = .helper .step

variable (flavour completion closed) in
/-- No wait sleeps through the exit. -/
theorem wait_goes_on {pc : WaitPc} (h : WaitInv timed exit pc) (hexit : exit.isSome = true) (hpc : pc ≠ .panicked) :
    ∃ act, Prompt act ∧ ∃ outcome, pc.next flavour completion timed exit closed act = some outcome := by
  have hawake := h.awake hexit
  cases pc with
  | parked notified =>
    cases hawake
    exact ⟨.step, Or.inl rfl, _, rfl⟩
  | asleep notified =>
    cases hawake
    exact ⟨.step, Or.inl rfl, _, rfl⟩
  | changed => exact ⟨.step, Or.inl rfl, _, if_pos hexit⟩
  | join helper =>
    cases helper with
    | asleep notified =>
      cases hawake
      exact ⟨.helper .step, Or.inr rfl, _, rfl⟩
    | finished report => exact ⟨.step, Or.inl rfl, _, rfl⟩
    | cancelled => exact ⟨.step, Or.inl rfl, _, rfl⟩
    | _ => exact ⟨.helper .step, Or.inr rfl, _, rfl⟩
  | panicked => exact absurd rfl hpc
  | _ => exact ⟨.step, Or.inl rfl, _, rfl⟩

variable (flavour completion) in
/-- And so the call does not either, whatever it makes of the report. -/
theorem settles {pc : WaitPc} {finish : Option ExitReason → Option State} (h : WaitInv timed s.exit pc)
    (hclosed : s.closed = true → s.exit.isSome = true) (hexit : s.exit.isSome = true) (hpc : pc ≠ .panicked)
    (hfinish : ∀ report, (report = none → timed = true) → ∃ s', finish report = some s') :
    ∃ act, Prompt act ∧ ∃ s',
      (pc.next flavour completion timed s.exit s.closed act).bind (s.settle finish) = some s' := by
  obtain ⟨act, hact, outcome, hnext⟩ := wait_goes_on flavour completion s.closed h hexit hpc
  have hsound := h.next hclosed (by rcases hact with rfl | rfl <;> simp) hnext
  refine ⟨act, hact, ?_⟩
  rw [hnext, Option.bind_some]
  cases outcome with
  | waits pc' => exact ⟨_, rfl⟩
  | reports report =>
    refine hfinish report ?_
    rintro rfl
    exact hsound

theorem goes_on (h : Run (Step flavour completion) { rest := flavour.program handle policy } τ s) (hτ : NotAborted τ)
    (hexit : s.exit.isSome = true) (hover : s.isOver = false) :
    ∃ act, Prompt act ∧ ∃ s', Step flavour completion s (.own act) s' := by
  have hinv := inv_of_run h hτ
  have hcalls := rest_calls h
  unfold Step next own
  cases hrest : s.rest with
  | pure reason => simp [isOver, hrest] at hover
  | call e k =>
    rw [hrest] at hcalls
    rcases hcalls.1 with rfl | rfl | rfl | rfl | ⟨d, rfl⟩
    · exact ⟨.step, Or.inl rfl, _, rfl⟩
    · exact ⟨.step, Or.inl rfl, _, rfl⟩
    · exact ⟨.step, Or.inl rfl, _, rfl⟩
    · cases hwait : s.wait with
      | none => exact ⟨.step, Or.inl rfl, _, rfl⟩
      | some pc =>
        have hpc : pc ≠ .panicked := by
          rintro rfl
          simp [isOver, hrest, hwait] at hover
        have hwaits : WaitInv false s.exit pc := by
          have hwaits := hinv.wait pc hwait
          rw [hrest] at hwaits
          exact hwaits
        refine settles flavour completion hwaits hinv.closed hexit hpc fun report hreport => ?_
        cases report with
        | some reason => exact ⟨_, rfl⟩
        | none => cases hreport rfl
    · cases hwait : s.wait with
      | none => exact ⟨.step, Or.inl rfl, _, rfl⟩
      | some pc =>
        have hpc : pc ≠ .panicked := by
          rintro rfl
          simp [isOver, hrest, hwait] at hover
        have hwaits : WaitInv true s.exit pc := by
          have hwaits := hinv.wait pc hwait
          rw [hrest] at hwaits
          exact hwaits
        exact settles flavour completion hwaits hinv.closed hexit hpc fun report _ => ⟨_, rfl⟩

/-- A function makes at most five calls on the handle, and a wait takes at most four steps and one to begin. -/
def left (s : State) : Nat := 6 * (5 - s.trace.length) + s.wait.elim 5 WaitPc.left

theorem left_le (pc : WaitPc) : pc.left ≤ 4 := by
  cases pc with
  | join helper => cases helper <;> simp [WaitPc.left, HelperPc.left]
  | _ => simp [WaitPc.left]

theorem left_notify (pc : WaitPc) : pc.notify.left = pc.left := by
  cases pc with
  | join helper => cases helper <;> rfl
  | _ => rfl

/-- Every step of a function whose child has exited brings it nearer to its end. -/
theorem left_step (hinv : Inv (flavour.program handle policy) s) (ha : Unaborted s a) (hexit : s.exit.isSome = true)
    (hstep : Step flavour completion s a s') : s'.left + (if a.isOwn then 1 else 0) ≤ s.left := by
  unfold Step next at hstep
  have hnotify : (s.wait.map WaitPc.notify).elim 5 WaitPc.left = s.wait.elim 5 WaitPc.left := by
    cases s.wait with
    | none => rfl
    | some pc => exact left_notify pc
  cases a with
  | own act =>
    simp only [Act.isOwn, if_true]
    cases own_owns hstep with
    | answer e k ans hrest hans =>
      have hlen : s.trace.length < 5 := by
        obtain ⟨σ, reason, hexec, -⟩ := Prog.exec_answers anyAnswer (k ans)
        rw [program_eq] at hinv
        have hcall : s.rest.Exec (⟨e, ans⟩ :: σ) reason := by
          rw [hrest]
          exact ⟨ans, σ, rfl, hexec⟩
        have hfull := length_le_five (hinv.reaches _ reason hcall)
        simp only [List.length_append, List.length_cons] at hfull
        omega
      simp only [left, answer, List.length_append, List.length_singleton, Option.elim_none]
      omega
    | starts pc hwait hpc =>
      have hle := left_le pc
      simp only [left, hwait, Option.elim_none, Option.elim_some]
      omega
    | waits pc pc' hwait hnext =>
      have hact : act ≠ .helper .cancel := fun hact => ha.2 (congrArg Act.own hact)
      have hlt := ((hinv.wait pc hwait).next hinv.closed hact hnext).2 hexit
      simp only [left, hwait, Option.elim_some]
      omega
  | exit reason =>
    obtain ⟨-, hs'⟩ := Option.ite_none_right_eq_some.mp hstep
    cases hs'
    simp [left, hnotify, Act.isOwn]
  | close =>
    obtain ⟨-, hs'⟩ := Option.ite_none_right_eq_some.mp hstep
    cases hs'
    simp [left, hnotify, Act.isOwn]

/-- Once the child has exited the function takes no more than thirty-five steps. -/
theorem own_steps_le (h : Run (Step flavour completion) { rest := flavour.program handle policy } τ s)
    (hτ : NotAborted τ) (hexit : s.exit.isSome = true) {σ : List (State × Act)} {u : State}
    (h' : Run (Step flavour completion) s σ u) (hσ : NotAborted σ) : σ.countP (fun x => x.2.isOwn) ≤ 35 := by
  have hstart : s.left ≤ 35 := by
    have hwait : s.wait.elim 5 WaitPc.left ≤ 5 := by
      cases s.wait with
      | none => exact le_refl 5
      | some pc => exact Nat.le_succ_of_le (left_le pc)
    simp only [left]
    omega
  have hcount : Inv (flavour.program handle policy) u ∧ u.exit.isSome = true ∧
      σ.countP (fun x => x.2.isOwn) + u.left ≤ s.left := by
    induction h' with
    | nil => exact ⟨inv_of_run h hτ, hexit, by simp⟩
    | @snoc σ u a u' hr hstep ih =>
      obtain ⟨hinv, hset, hle⟩ := ih fun x hx => hσ x (List.mem_append_left _ hx)
      obtain ⟨reason, hreason⟩ := Option.isSome_iff_exists.mp hset
      refine ⟨hinv.step (hσ (u, a) (by simp)) hstep, by simp [(step_keeps hstep).1 reason hreason], ?_⟩
      have hnext : u'.left + (if a.isOwn then 1 else 0) ≤ u.left :=
        left_step hinv (hσ (u, a) (by simp)) hset hstep
      rw [List.countP_append, List.countP_singleton]
      dsimp only
      omega
  omega

/-! ### The two functions -/

variable (flavour completion handle policy) in
/-- What holds at any moment of a call: the steps `τ` have been taken, and `s` is the state. -/
structure EndsWithExit (τ : List (State × Act)) (s : State) : Prop where
  /-- The function returns the reason that the completion holds. -/
  returns : ∀ reason, s.rest = .pure reason → s.exit = some reason
  /-- To a child that had exited before the first look no request is sent. -/
  spares : (∃ x ∈ τ, x.1.trace = [] ∧ ∃ reason, x.2 = .exit reason) → requests s.trace = []
  killsOnce : (requests s.trace).count .kill ≤ 1
  kills : .kill ∈ requests s.trace → policy = .brutalKill ∨ s.trace.any timedOut = true
  killed : ∀ reason, s.rest = .pure reason → requests s.trace ≠ [] → policy = .brutalKill ∨ s.trace.any timedOut = true →
    .kill ∈ requests s.trace
  neverAfterKill : ∀ before after, requests s.trace = before ++ .kill :: after → .shutdown ∉ after
  neverUnderBrutalKill : policy = .brutalKill → .shutdown ∉ requests s.trace
  /-- Once the child has exited the function goes on by itself until it is over, and that is soon. -/
  goesOn : s.exit.isSome = true → s.isOver = false → ∃ act, Prompt act ∧ ∃ s', Step flavour completion s (.own act) s'
  soon : s.exit.isSome = true → ∀ σ u, Run (Step flavour completion) s σ u → NotAborted σ →
    σ.countP (fun x => x.2.isOwn) ≤ 35

theorem sawAlive_iff_requests {reason : ExitReason} (hexec : (shutdownChildAsync handle policy).Exec s.trace reason) :
    s.trace.any sawAlive = true ↔ requests s.trace ≠ [] := by
  constructor
  · intro halive
    rcases exec_shutdownChildAsync_shape hexec with hshape | ⟨ρ, hshape, hfollowed⟩
    · simp [hshape, sawAlive] at halive
    · rw [hshape]
      cases policy with
      | brutalKill =>
        obtain rfl := hfollowed
        simp [requests]
      | infinity =>
        obtain rfl := hfollowed
        simp [requests]
      | timeout d => rcases hfollowed with rfl | rfl <;> simp [requests]
  · intro hne
    have hwhole : (shutdownChildAsync handle policy).Exec (s.trace ++ []) reason := by rwa [List.append_nil]
    exact sawAlive_of_requests hwhole hne

theorem endsWithExit (h : Run (Step flavour completion) { rest := flavour.program handle policy } τ s)
    (hτ : NotAborted τ) : EndsWithExit flavour completion policy τ s := by
  have hinv := inv_of_run h hτ
  obtain ⟨σ, r, hexec⟩ := hinv.exec
  have hsent := requests_prefix hexec
  refine ⟨?_, ?_, ?_, timedOut_of_kill hexec, ?_, ?_, ?_, goes_on h hτ, fun hexit σ u => own_steps_le h hτ hexit⟩
  · intro reason hrest
    obtain ⟨call, hcall, hreports⟩ := exec_shutdownChildAsync (hinv.exec_of_returned hrest)
    exact hinv.truthful call hcall reason (reported_of_reports hreports)
  · rintro ⟨x, hx, hempty, reason, hexit⟩
    by_contra hne
    have halive := (after_exit h hx hexit).2.mp (sawAlive_of_requests hexec hne)
    simp [hempty] at halive
  · refine (hsent.sublist.count_le _).trans ?_
    cases policy <;> simp [escalation]
  · intro reason hrest hne hcause
    have hreturned := hinv.exec_of_returned hrest
    exact kill_of_timedOut hreturned ((sawAlive_iff_requests hreturned).mpr hne) hcause
  · intro before after hsplit hmem
    rw [hsplit] at hsent
    obtain ⟨tail, htail⟩ := hsent
    cases policy <;> rcases before with _ | ⟨_, _ | ⟨_, before⟩⟩ <;> simp_all [escalation]
  · rintro rfl hmem
    simpa [escalation] using hsent.subset hmem

/-- Two executions of the program with the same look, the same report of a timed wait and the same reason. -/
theorem exec_unique {reason : ExitReason} {σ₁ σ₂ : SupTrace} (h₁ : (shutdownChildAsync handle policy).Exec σ₁ reason)
    (h₂ : (shutdownChildAsync handle policy).Exec σ₂ reason) (halive : σ₁.any sawAlive = true ↔ σ₂.any sawAlive = true)
    (htimed : σ₁.any timedOut = true ↔ σ₂.any timedOut = true) : σ₁ = σ₂ := by
  rcases exec_shutdownChildAsync_shape h₁ with rfl | ⟨ρ₁, rfl, hρ₁⟩ <;>
    rcases exec_shutdownChildAsync_shape h₂ with rfl | ⟨ρ₂, rfl, hρ₂⟩
  · rfl
  · simp [sawAlive] at halive
  · simp [sawAlive] at halive
  · cases policy with
    | brutalKill => rw [hρ₁, hρ₂]
    | infinity => rw [hρ₁, hρ₂]
    | timeout d =>
      rcases hρ₁ with rfl | rfl <;> rcases hρ₂ with rfl | rfl
      · rfl
      · simp [timedOut] at htimed
      · simp [timedOut] at htimed
      · rfl

/-- The exit of the child falls at the same point of two calls: the same calls on the handle have returned, and a timed
wait that reports no exit in one of them does so in the other. -/
def SamePoint (τ₁ τ₂ : List (State × Act)) (s₁ s₂ : State) : Prop :=
  (∃ x₁ ∈ τ₁, ∃ x₂ ∈ τ₂, x₁.1.trace = x₂.1.trace ∧ ∃ reason, x₁.2 = .exit reason ∧ x₂.2 = .exit reason) ∧
    (s₁.trace.any timedOut = true ↔ s₂.trace.any timedOut = true)

end Runs

end State

open State in
/-- **Child shutdown ends with the child's own exit.** In every call of either function, for every policy, a child of
either kind and any moment of its exit, the function returns only the reason that the completion holds, it sends the
requests of its policy and no others, and once the child has exited it returns. Two calls in which the exit falls at the
same point send the same requests and return the same reason. -/
theorem shutdown_child_ends_with_exit (handle : ChildHandle) (policy : ShutdownType) :
    (∀ flavour completion τ s, Run (Step flavour completion) { rest := flavour.program handle policy } τ s →
      NotAborted τ → EndsWithExit flavour completion policy τ s) ∧
    ∀ flavour₁ flavour₂ completion₁ completion₂ τ₁ τ₂ s₁ s₂ r₁ r₂,
      Run (Step flavour₁ completion₁) { rest := flavour₁.program handle policy } τ₁ s₁ → NotAborted τ₁ →
      Run (Step flavour₂ completion₂) { rest := flavour₂.program handle policy } τ₂ s₂ → NotAborted τ₂ →
      s₁.rest = .pure r₁ → s₂.rest = .pure r₂ → SamePoint τ₁ τ₂ s₁ s₂ →
      requests s₁.trace = requests s₂.trace ∧ r₁ = r₂ := by
  refine ⟨fun flavour completion τ s h hτ => endsWithExit h hτ, ?_⟩
  intro flavour₁ flavour₂ completion₁ completion₂ τ₁ τ₂ s₁ s₂ r₁ r₂ h₁ hτ₁ h₂ hτ₂ hr₁ hr₂ hpoint
  obtain ⟨⟨x₁, hx₁, x₂, hx₂, htrace, reason, hexit₁, hexit₂⟩, htimed⟩ := hpoint
  obtain ⟨hset₁, halive₁⟩ := after_exit h₁ hx₁ hexit₁
  obtain ⟨hset₂, halive₂⟩ := after_exit h₂ hx₂ hexit₂
  have hexec₁ := (inv_of_run h₁ hτ₁).exec_of_returned hr₁
  have hexec₂ := (inv_of_run h₂ hτ₂).exec_of_returned hr₂
  obtain rfl : r₁ = reason := by
    have hreturns := (endsWithExit h₁ hτ₁).returns r₁ hr₁
    rw [hset₁] at hreturns
    exact (Option.some.inj hreturns).symm
  obtain rfl : r₂ = r₁ := by
    have hreturns := (endsWithExit h₂ hτ₂).returns r₂ hr₂
    rw [hset₂] at hreturns
    exact (Option.some.inj hreturns).symm
  refine ⟨?_, rfl⟩
  rw [exec_unique hexec₁ hexec₂ ?_ htimed]
  rw [halive₁, halive₂, htrace]

/-- A child that stops only for a kill, waited for on a condvar by the async function. -/
def slowThread : List Act :=
  List.flatten
    [List.replicate 4 (.own .step), List.replicate 3 (.own (.helper .step)), [.own .timeout, .own .step, .own .step],
      [.own (.helper .step), .exit .kill, .own (.helper .step), .own .step]]

/-- The same child, waited for on a watch channel by the blocking function. -/
def slowTask : List Act :=
  List.flatten [List.replicate 8 (.own .step), [.own .timeout, .own .step, .own .step, .exit .kill, .own .step]]

theorem slow_child_is_killed_by_both :
    ∃ τ₁ τ₂ s₁ s₂,
      Run (Step .async .threads) { rest := shutdownChildAsync ⟨7⟩ (.timeout 20) } τ₁ s₁ ∧
      Run (Step (.blocking .absent) .tasks) { rest := shutdownChildBlocking ⟨7⟩ (.timeout 20) } τ₂ s₂ ∧
      s₁.rest = .pure .kill ∧ s₁.exit = some .kill ∧ requests s₁.trace = [.shutdown, .kill] ∧
      s₂.rest = .pure .kill ∧ requests s₁.trace = requests s₂.trace := by
  have hrun₁ : Run (Step .async .threads) { rest := Flavour.async.program ⟨7⟩ (.timeout 20) } _ _ :=
    run_tryPlay (State.next .async .threads) { rest := shutdownChildAsync ⟨7⟩ (.timeout 20) } slowThread (by decide)
  have hrun₂ : Run (Step (.blocking .absent) .tasks)
      { rest := (Flavour.blocking .absent).program ⟨7⟩ (.timeout 20) } _ _ :=
    run_tryPlay (State.next (.blocking .absent) .tasks) { rest := shutdownChildBlocking ⟨7⟩ (.timeout 20) } slowTask
      (by decide)
  have hunaborted : ∀ x : State × Act, x.2 ≠ .close ∧ x.2 ≠ .own (.helper .cancel) → Unaborted x.1 x.2 :=
    fun x hx => ⟨fun hclose => absurd hclose hx.1, hx.2⟩
  have hτ₁ : NotAborted _ := fun x hx => hunaborted x (forall_mem_tryPlay (State.next .async .threads)
    { rest := shutdownChildAsync ⟨7⟩ (.timeout 20) } slowThread (P := fun a => a ≠ .close ∧ a ≠ .own (.helper .cancel))
    (by decide) (by decide) x hx)
  have hτ₂ : NotAborted _ := fun x hx => hunaborted x (forall_mem_tryPlay (State.next (.blocking .absent) .tasks)
    { rest := shutdownChildBlocking ⟨7⟩ (.timeout 20) } slowTask (P := fun a => a ≠ .close ∧ a ≠ .own (.helper .cancel))
    (by decide) (by decide) x hx)
  obtain ⟨hends, hagree⟩ := shutdown_child_ends_with_exit ⟨7⟩ (.timeout 20)
  obtain ⟨hrequests, -⟩ := hagree _ _ _ _ _ _ _ _ .kill .kill hrun₁ hτ₁ hrun₂ hτ₂ rfl rfl
    ⟨⟨_, List.mem_of_getElem? (i := 11) rfl, _, List.mem_of_getElem? (i := 11) rfl, rfl, .kill, rfl, rfl⟩,
      by decide⟩
  exact ⟨_, _, _, _, hrun₁, hrun₂, rfl, (hends _ _ _ _ hrun₁ hτ₁).returns .kill rfl, rfl, rfl, hrequests⟩

end ShutdownChild

end Spawned
