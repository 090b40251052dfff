import Spawned.Actor.System

/-!
# The run loop and the requests that race with it

`run_actor` of any actor, one access at a time, and the calls of `ChildHandle::stop`, `shutdown` and `kill`, each the
sequence of its writes. The two runtimes have the same text; they differ in when the item of a cancelled token comes to be
in the stop lane, and here it may be taken at any time after.

* `Ask.writes` : the writes of a request, of which `Request.apply` is the whole;
* `RunActor.next` : one access of the run loop, one write of a call, or one thing a callback does;
* `RunActor.Moved` : the same, case by case.
-/

namespace Spawned

open Lib

namespace RunActor

/-! ## Requests -/

/-- One access of a request to the cells of an actor. -/
inductive Write
  | reason (r : ExitReason)
  | skipStopped
  | linked (r : ExitReason)
  | cancel
deriving DecidableEq, Repr

def Write.apply (cell : ActorCell) : Write → ActorCell
  | .reason r => { cell with requestedExit := some r }
  | .skipStopped => { cell with skipStopped := true }
  | .linked r => { cell with linkedReason := cell.linkedReason.or (some r) }
  | .cancel => { cell with cancelled := true }

/-- What is asked of an actor: a request of a handle, or an exit signal that cancels it. -/
inductive Ask
  | request (request : Request)
  | linked (reason : ExitReason)
deriving DecidableEq, Repr

def Ask.writes : Ask → List Write
  | .request .stop => [.cancel]
  | .request .shutdown => [.reason .shutdown, .cancel]
  | .request .kill => [.reason .kill, .skipStopped, .cancel]
  | .linked reason => [.linked reason, .cancel]

/-- With nothing in between, the writes of a request are the request. -/
theorem foldl_writes (request : Request) (cell : ActorCell) :
    (Ask.request request).writes.foldl Write.apply cell = request.apply cell := by
  cases request <;> rfl

/-- Nor does an exit signal that is not trapped do anything else. -/
theorem foldl_linked {here : NodeId} {sender : ActorId} {reason : ExitReason} {cell : ActorCell}
    (h : reason = .kill ∨ (reason ≠ .normal ∧ cell.trapExit = false)) :
    (Ask.linked reason).writes.foldl Write.apply cell = makeSignal here sender reason cell := by
  rcases h with rfl | ⟨hreason, htrap⟩
  · rfl
  · unfold makeSignal
    by_cases hkill : reason = .kill
    · subst hkill
      rfl
    · simp [hkill, hreason, htrap, Ask.writes, Write.apply]

/-! ## The run loop -/

inductive Callback
  | started
  | handler
  | exitReceived
  /-- with the reason so far, and whether the token was cancelled before the loop -/
  | stopped (early : Bool) (reason : ExitReason)
deriving DecidableEq, Repr

/-- What a panic in a callback is reported as. -/
def Callback.panicReason (msg : String) : Callback → ExitReason
  | .started => .panic ("panic in started(): " ++ msg)
  | .handler => .panic ("panic in handler: " ++ msg)
  | .exitReceived => .panic ("panic in exit_received: " ++ msg)
  | .stopped _ _ => .panic ("panic in stopped(): " ++ msg)

/-- Where `run_actor` is. -/
inductive Pc
  | running (callback : Callback)
  /-- `started` has returned -/
  | launched
  | recv
  /-- `recv` has returned an OS signal -/
  | signalled
  /-- a handler has returned -/
  | handled
  /-- out of the loop -/
  | cancel (reason : ExitReason)
  | stopCheck (early : Bool) (reason : ExitReason)
  /-- the two halves of `resolve_exit_reason` -/
  | resolve (reason : ExitReason)
  | resolveLinked
  | exited (reason : ExitReason)
deriving DecidableEq, Repr

/-- An actor that runs, with the calls on its handles: what each has still to write. -/
structure State where
  cell : ActorCell := {}
  pc : Pc := .running .started
  calls : List (List Write) := []
  /-- OS signals in the signal lane -/
  signals : Nat := 0
deriving DecidableEq, Repr

inductive Act
  | ask (ask : Ask)
  /-- call `i` goes on -/
  | write (i : Nat)
  | osSignal
  /-- `run_actor` goes on by itself -/
  | step
  /-- the running callback calls `ctx.stop()`, returns or panics -/
  | ctxStop
  | returns
  | panic (msg : String)
  /-- what `recv` returns -/
  | takeMessage
  | takeExit
  | takeSignal
  | takeStop
  | disconnect
deriving DecidableEq, Repr

/-- Where the run loop goes when a callback returns. -/
def Callback.after : Callback → Pc
  | .started => .launched
  | .handler | .exitReceived => .handled
  | .stopped _ reason => .resolve reason

/-- Where it goes when a callback panics. A panic of `stopped` counts only after the loop, and only if it is the first. -/
def Callback.unwind (msg : String) : Callback → Pc
  | .started => .exited (Callback.started.panicReason msg)
  | .handler => .cancel (Callback.handler.panicReason msg)
  | .exitReceived => .cancel (Callback.exitReceived.panicReason msg)
  | .stopped early reason =>
    .resolve (if early || reason.isAbnormal then reason else (Callback.stopped early reason).panicReason msg)

/-- One access of `run_actor` that is not a call of a callback or of `recv`. -/
def loopStep (cell : ActorCell) : Pc → Option (ActorCell × Pc)
  | .launched => some (cell, if cell.cancelled then .stopCheck true .normal else .recv)
  | .signalled => some ({ cell with requestedExit := some .shutdown }, .cancel .normal)
  | .handled => some (cell, if cell.cancelled then .cancel .normal else .recv)
  | .cancel reason => some ({ cell with cancelled := true }, .stopCheck false reason)
  | .stopCheck early reason =>
    some (cell, if cell.skipStopped then .resolve reason else .running (.stopped early reason))
  | .resolve reason =>
    match cell.requestedExit with
    | some requested => some ({ cell with requestedExit := none }, .exited requested)
    | none => some (cell, if reason = .normal then .resolveLinked else .exited reason)
  | .resolveLinked => some ({ cell with linkedReason := none }, .exited (cell.linkedReason.getD .normal))
  | .running _ | .recv | .exited _ => none

def next (s : State) : Act → Option State
  | .ask ask => some { s with calls := s.calls ++ [ask.writes] }
  | .write i =>
    match s.calls[i]? with
    | some (w :: rest) => some { s with cell := w.apply s.cell, calls := s.calls.set i rest }
    | _ => none
  | .osSignal => some { s with signals := s.signals + 1 }
  | .step => (loopStep s.cell s.pc).map fun p => { s with cell := p.1, pc := p.2 }
  | .ctxStop =>
    match s.pc with
    | .running _ => some { s with cell := s.cell.stop }
    | _ => none
  | .returns =>
    match s.pc with
    | .running callback => some { s with pc := callback.after }
    | _ => none
  | .panic msg =>
    match s.pc with
    | .running .started => some { s with cell := s.cell.stop, pc := Callback.started.unwind msg }
    | .running callback => some { s with pc := callback.unwind msg }
    | _ => none
  | .takeMessage => if s.pc = .recv then some { s with pc := .running .handler } else none
  | .takeExit => if s.pc = .recv then some { s with pc := .running .exitReceived } else none
  | .takeSignal =>
    if s.pc = .recv ∧ s.signals ≠ 0 then some { s with pc := .signalled, signals := s.signals - 1 } else none
  | .takeStop => if s.pc = .recv ∧ s.cell.cancelled then some { s with pc := .cancel .normal } else none
  | .disconnect => if s.pc = .recv then some { s with pc := .cancel .normal } else none

def Step (s : State) (a : Act) (s' : State) : Prop := next s a = some s'

/-! ## What a step does -/

variable {s s' : State} {a : Act}

/-- The steps of `run_actor` by itself. -/
inductive Loop (cell : ActorCell) : Pc → ActorCell → Pc → Prop
  | early (h : cell.cancelled = true) : Loop cell .launched cell (.stopCheck true .normal)
  | serve (pc : Pc) (h : pc = .launched ∨ pc = .handled) : Loop cell pc cell .recv
  | signalled : Loop cell .signalled { cell with requestedExit := some .shutdown } (.cancel .normal)
  | leave (h : cell.cancelled = true) : Loop cell .handled cell (.cancel .normal)
  | cancel (reason : ExitReason) : Loop cell (.cancel reason) { cell with cancelled := true } (.stopCheck false reason)
  | skip (early : Bool) (reason : ExitReason) (h : cell.skipStopped = true) :
      Loop cell (.stopCheck early reason) cell (.resolve reason)
  | stopped (early : Bool) (reason : ExitReason) (h : cell.skipStopped = false) :
      Loop cell (.stopCheck early reason) cell (.running (.stopped early reason))
  | requested (reason requested : ExitReason) (h : cell.requestedExit = some requested) :
      Loop cell (.resolve reason) { cell with requestedExit := none } (.exited requested)
  | unrequested (h : cell.requestedExit = none) : Loop cell (.resolve .normal) cell .resolveLinked
  | own (reason : ExitReason) (h : cell.requestedExit = none) (hreason : reason ≠ .normal) :
      Loop cell (.resolve reason) cell (.exited reason)
  | linked : Loop cell .resolveLinked { cell with linkedReason := none } (.exited (cell.linkedReason.getD .normal))

theorem loopStep_cases {cell cell' : ActorCell} {pc pc' : Pc} (h : loopStep cell pc = some (cell', pc')) :
    Loop cell pc cell' pc' := by
  cases pc with
  | launched =>
    simp only [loopStep, Option.some.injEq, Prod.mk.injEq] at h
    obtain ⟨rfl, rfl⟩ := h
    split
    case isTrue hc => exact .early hc
    case isFalse => exact .serve _ (Or.inl rfl)
  | signalled =>
    cases h
    exact .signalled
  | handled =>
    simp only [loopStep, Option.some.injEq, Prod.mk.injEq] at h
    obtain ⟨rfl, rfl⟩ := h
    split
    case isTrue hc => exact .leave hc
    case isFalse => exact .serve _ (Or.inr rfl)
  | cancel reason =>
    cases h
    exact .cancel reason
  | stopCheck early reason =>
    simp only [loopStep, Option.some.injEq, Prod.mk.injEq] at h
    obtain ⟨rfl, rfl⟩ := h
    split
    case isTrue hskip => exact .skip early reason hskip
    case isFalse hskip => exact .stopped early reason (by simpa using hskip)
  | resolve reason =>
    simp only [loopStep] at h
    split at h
    case h_1 requested hreq =>
      cases h
      exact .requested reason requested hreq
    case h_2 hreq =>
      simp only [Option.some.injEq, Prod.mk.injEq] at h
      obtain ⟨rfl, rfl⟩ := h
      split
      case isTrue hnormal =>
        subst hnormal
        exact .unrequested hreq
      case isFalse hnormal => exact .own reason hreq hnormal
  | resolveLinked =>
    cases h
    exact .linked
  | running callback => cases h
  | recv => cases h
  | exited reason => cases h

/-- A step, case by case. -/
inductive Moved (s : State) : Act → State → Prop
  | ask (ask : Ask) : Moved s (.ask ask) { s with calls := s.calls ++ [ask.writes] }
  | write (i : Nat) (w : Write) (rest : List Write) (h : s.calls[i]? = some (w :: rest)) :
      Moved s (.write i) { s with cell := w.apply s.cell, calls := s.calls.set i rest }
  | osSignal : Moved s .osSignal { s with signals := s.signals + 1 }
  | loop {cell : ActorCell} {pc : Pc} (h : Loop s.cell s.pc cell pc) : Moved s .step { s with cell, pc }
  | ctxStop (callback : Callback) (hpc : s.pc = .running callback) : Moved s .ctxStop { s with cell := s.cell.stop }
  | returns (callback : Callback) (hpc : s.pc = .running callback) : Moved s .returns { s with pc := callback.after }
  | panic (msg : String) (callback : Callback) (cell : ActorCell) (hpc : s.pc = .running callback)
      (hcell : cell = s.cell ∨ cell = s.cell.stop) : Moved s (.panic msg) { s with cell, pc := callback.unwind msg }
  | takeMessage (hpc : s.pc = .recv) : Moved s .takeMessage { s with pc := .running .handler }
  | takeExit (hpc : s.pc = .recv) : Moved s .takeExit { s with pc := .running .exitReceived }
  | takeSignal (hpc : s.pc = .recv) : Moved s .takeSignal { s with pc := .signalled, signals := s.signals - 1 }
  | leave (a : Act) (ha : a = .takeStop ∨ a = .disconnect) (hpc : s.pc = .recv) : Moved s a { s with pc := .cancel .normal }

theorem step_cases (h : Step s a s') : Moved s a s' := by
  unfold Step at h
  cases a with
  | ask ask =>
    cases h
    exact .ask ask
  | write i =>
    simp only [next] at h
    split at h
    case h_1 w rest hcall =>
      cases h
      exact .write i w rest hcall
    case h_2 => cases h
  | osSignal =>
    cases h
    exact .osSignal
  | step =>
    obtain ⟨⟨cell, pc⟩, hloop, rfl⟩ := Option.map_eq_some_iff.mp h
    exact .loop (loopStep_cases hloop)
  | ctxStop =>
    simp only [next] at h
    split at h
    case h_1 callback hpc =>
      cases h
      exact .ctxStop callback hpc
    case h_2 => cases h
  | returns =>
    simp only [next] at h
    split at h
    case h_1 callback hpc =>
      cases h
      exact .returns callback hpc
    case h_2 => cases h
  | panic msg =>
    simp only [next] at h
    split at h
    case h_1 hpc =>
      cases h
      exact .panic msg .started _ hpc (Or.inr rfl)
    case h_2 callback _ hpc =>
      cases h
      exact .panic msg callback _ hpc (Or.inl rfl)
    case h_3 => cases h
  | takeMessage =>
    obtain ⟨hpc, h⟩ := Option.ite_none_right_eq_some.mp h
    cases h
    exact .takeMessage hpc
  | takeExit =>
    obtain ⟨hpc, h⟩ := Option.ite_none_right_eq_some.mp h
    cases h
    exact .takeExit hpc
  | takeSignal =>
    obtain ⟨hpc, h⟩ := Option.ite_none_right_eq_some.mp h
    cases h
    exact .takeSignal hpc.1
  | takeStop =>
    obtain ⟨hpc, h⟩ := Option.ite_none_right_eq_some.mp h
    cases h
    exact .leave _ (Or.inl rfl) hpc.1
  | disconnect =>
    obtain ⟨hpc, h⟩ := Option.ite_none_right_eq_some.mp h
    cases h
    exact .leave _ (Or.inr rfl) hpc

end RunActor

end Spawned
