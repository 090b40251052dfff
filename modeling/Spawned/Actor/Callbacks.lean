import Spawned.Tasks.Supervisor
import Spawned.Tasks.DynamicSupervisor
import Spawned.Threads.Supervisor
import Spawned.Threads.DynamicSupervisor

/-!
# The callbacks of an actor, and its life between them

`Callbacks` are the functions `run_actor` calls: `started`, `exit_received`, the message handlers and `stopped`.
`life` runs them against a strategy for the answers: `started`, then one handler per event until the events end or a
handler has called `ctx.stop()`, then `stopped`. It returns every state between callbacks, the replies and all answered
calls.
-/

namespace Spawned

open Lib

/-- The callbacks of an actor with state `S`, messages `M` and replies `R`. -/
structure Callbacks (S M R : Type) where
  started : S → SupProg S
  exitReceived : S → Exit → SupProg S
  handle : S → M → SupProg (S × R)
  stopped : S → SupProg S

/-- What the run loop takes from the mailbox and hands to a callback. -/
inductive Event (M : Type)
  | exit (exit : Exit)
  | message (msg : M)

/-- The supervisors of the two runtimes; a static supervisor handles no messages. -/
def Tasks.supervisor (ctx : Context) : Callbacks Supervisor Empty Empty where
  started := Tasks.Supervisor.started ctx
  exitReceived := Tasks.Supervisor.exitReceived ctx
  handle := fun _ msg => nomatch msg
  stopped := Tasks.Supervisor.stopped

def Threads.supervisor (ctx : Context) : Callbacks Supervisor Empty Empty where
  started := Threads.Supervisor.started ctx
  exitReceived := Threads.Supervisor.exitReceived ctx
  handle := fun _ msg => nomatch msg
  stopped := Threads.Supervisor.stopped

def Tasks.dynamicSupervisor (ctx : Context) : Callbacks DynamicSupervisor DynMsg DynReply where
  started := Tasks.DynamicSupervisor.started
  exitReceived := Tasks.DynamicSupervisor.exitReceived ctx
  handle := Tasks.DynamicSupervisor.handle ctx
  stopped := Tasks.DynamicSupervisor.stopped

def Threads.dynamicSupervisor (ctx : Context) : Callbacks DynamicSupervisor DynMsg DynReply where
  started := Threads.DynamicSupervisor.started
  exitReceived := Threads.DynamicSupervisor.exitReceived ctx
  handle := Threads.DynamicSupervisor.handle ctx
  stopped := Threads.DynamicSupervisor.stopped

/-- `ctx.stop()` is among the calls. -/
def CalledStop (τ : SupTrace) : Prop := ∃ c ∈ τ, c.op = .stop

instance (τ : SupTrace) : Decidable (CalledStop τ) :=
  inferInstanceAs (Decidable (∃ c ∈ τ, c.op = SupOp.stop))

/-- One turn of the run loop: the event, the answered calls of its handler, and the reply if it has one. -/
structure Turn (M R : Type) where
  event : Event M
  calls : SupTrace
  reply : Option R

/-- An actor between two callbacks, and whether a handler has called `ctx.stop()`. -/
structure Serving (S : Type) where
  state : S
  stopped : Bool

/-- A whole life: the calls of `started`, every turn with the state it began in, and how it ended. -/
structure Life (S M R : Type) where
  startCalls : SupTrace
  turns : List (Serving S × Turn M R)
  last : Serving S
  stopCalls : SupTrace
  final : S

namespace Callbacks

variable {S M R : Type}

/-- The handler of an event, with the reply if it has one. -/
def onEvent (c : Callbacks S M R) (s : S) : Event M → SupProg (S × Option R)
  | .exit exit => do
    let s ← c.exitReceived s exit
    pure (s, none)
  | .message msg => do
    let (s, reply) ← c.handle s msg
    pure (s, some reply)

/-- The run loop against a strategy, which sees all calls `τ` so far: the turns, the state after them and all calls. A
handler that has called `ctx.stop()` is the last. -/
def serve (c : Callbacks S M R) (ora : Prog.Strategy SupOp SupOp.Ans) :
    Serving S → SupTrace → List (Event M) → List (Serving S × Turn M R) × Serving S × SupTrace
  | p, τ, [] => ([], p, τ)
  | p, τ, event :: events =>
    if p.stopped then ([], p, τ)
    else
      let ((s, reply), τ') := (c.onEvent p.state event).run ora τ
      let calls := τ'.drop τ.length
      let (turns, rest) := c.serve ora { state := s, stopped := decide (CalledStop calls) } τ' events
      ((p, { event, calls, reply }) :: turns, rest)

/-- A life against a strategy: `started`, the run loop, `stopped`. -/
def life (c : Callbacks S M R) (ora : Prog.Strategy SupOp SupOp.Ans) (s : S) (events : List (Event M)) :
    Life S M R :=
  let (s₀, τ₀) := (c.started s).run ora []
  let (turns, last, τ₁) := c.serve ora { state := s₀, stopped := false } τ₀ events
  let (final, τ₂) := (c.stopped last.state).run ora τ₁
  { startCalls := τ₀, turns, last, stopCalls := τ₂.drop τ₁.length, final }

end Callbacks

end Spawned
