import Mathlib.Computability.StateTransition
import Spawned.Cluster.Broker
import Spawned.Cluster.ShutdownWait

/-!
# The two remote shutdown functions

`shutdown_remote_and_wait` and `shutdown_remote_and_wait_blocking` apply one policy. The blocking function keeps its
receiver until the end and clears the wait on every path. The async function returns at once when a signal fails, with
its wait registered, and after the kill it clears the wait and registers again, so that an exit which comes after the
first wait and before the second registration is lost.

* `Scenario` : the policy, the answers to the two signals, and the point of the call at which the `ChildExit` is applied;
* `Scenario.Ends` : one call of either function, alone, played to its end on the steps of `shutdownNext`;
* `Scenario.Outcome` : how it ends, case by case: the result, the wait it leaves, and whether the exit came in time;
* `remote_shutdowns_agree_iff` : the exact condition.
-/

namespace Spawned

open Lib

/-- `remote_signal`, and the first signal of `run_shutdown_policy_blocking`. -/
def remoteSignal : ShutdownType → SupervisionSignal
  | .brutalKill => .kill
  | .infinity | .timeout _ => .shutdown

namespace ShutdownWait

/-- Where the async call is when the `ChildExit` is applied. -/
inductive Point
  | register
  | signal
  | wait
  | kill
  | clearAgain
  | registerAgain
  | waitKilled
  | clear
deriving DecidableEq, Repr

/-- The same point in the blocking call, which goes from the kill to the wait for the killed child. -/
def Point.inBlocking : Point → Point
  | .clearAgain | .registerAgain => .waitKilled
  | point => point

/-- After the first registration, and before the last wait is over. -/
def Point.inTime : Point → Bool
  | .register | .clear => false
  | _ => true

def ShutdownPc.point : ShutdownPc → Option Point
  | .register => some .register
  | .signal => some .signal
  | .wait => some .wait
  | .kill => some .kill
  | .clearAgain => some .clearAgain
  | .registerAgain => some .registerAgain
  | .waitKilled => some .waitKilled
  | .clear _ => some .clear
  | .returned _ => none

/-- All that the result of a lone call depends on. -/
structure Scenario where
  address : ActorAddress
  shutdown : ShutdownType
  /-- what `remote.shutdown()` and `remote.kill()` return -/
  answer : SupervisionSignal → Except String Unit
  /-- where the call is when the `ChildExit` is applied, if it is -/
  exitAt : Option Point

/-- A lone call in progress. -/
structure Play where
  state : State
  /-- where the call was when the `ChildExit` was applied -/
  exitedAt : Option Point := none

/-- The `ChildExit` was applied between the first registration and the end of the last wait. -/
def Play.exitedInTime (p : Play) : Bool := p.exitedAt.any Point.inTime

/-- What the call has returned. -/
def Play.result (p : Play) : Option (Except RemoteShutdownError Unit) :=
  p.state.calls[0]?.bind fun c =>
    match c.pc with
    | .returned result => some result
    | _ => none

namespace Scenario

variable (sc : Scenario)

def start (blocking : Bool) : Play where
  state := { calls := [{ address := sc.address, shutdown := sc.shutdown, blocking }] }

/-- The point of the call at which its `ChildExit` is applied. -/
def pointIn (blocking : Bool) : Option Point :=
  if blocking then sc.exitAt.map Point.inBlocking else sc.exitAt

/-- The call as its next step finds it: the `ChildExit` has been applied, if this is the point. -/
def reach (p : Play) (c : Call) : Option Play :=
  if c.pc.point ≠ none ∧ c.pc.point = sc.pointIn c.blocking then
    (shutdownNext p.state (.childExit sc.address)).map fun state => { state, exitedAt := c.pc.point }
  else some p

/-- What the call does next, if it can take a step. -/
def act (s : State) (c : Call) : Option Act :=
  match c.pc with
  | .register | .registerAgain => some (.register 0)
  | .signal => some (.signal 0 (sc.answer (remoteSignal c.shutdown)))
  | .kill => some (.signal 0 (sc.answer .kill))
  | .wait | .waitKilled =>
    if s.waitEnds 0 c (.ok ()) then some (.waited 0 (.ok ()))
    else if s.waitEnds 0 c (.error .timeout) then some (.waited 0 (.error .timeout))
    else none
  | .clearAgain | .clear _ => some (.clear 0)
  | .returned _ => none

def move (s : State) : Option State := do
  let c ← s.calls[0]?
  let a ← sc.act s c
  shutdownNext s a

def step (p : Play) : Option Play := do
  let c ← p.state.calls[0]?
  let p ← sc.reach p c
  let state ← sc.move p.state
  some { p with state }

/-- The call ends in `q`: it has returned, or waits for ever. -/
def Ends (blocking : Bool) (q : Play) : Prop := q ∈ StateTransition.eval sc.step (sc.start blocking)

/-- A played step is one of the call, or a `ChildExit` and one of the call. -/
theorem run_of_step {p p' : Play} (h : sc.step p = some p') : ∃ τ, Run Step p.state τ p'.state := by
  obtain ⟨c, -, h⟩ := Option.bind_eq_some_iff.mp h
  obtain ⟨p₁, hreach, h⟩ := Option.bind_eq_some_iff.mp h
  obtain ⟨s', hmove, h⟩ := Option.bind_eq_some_iff.mp h
  cases h
  obtain ⟨c', -, hmove⟩ := Option.bind_eq_some_iff.mp hmove
  obtain ⟨a, -, hnext⟩ := Option.bind_eq_some_iff.mp hmove
  unfold reach at hreach
  split at hreach
  · obtain ⟨s₁, hexit, rfl⟩ := Option.map_eq_some_iff.mp hreach
    exact ⟨_, (Run.single hexit).snoc hnext⟩
  · cases hreach
    exact ⟨_, Run.single hnext⟩

/-- What is played is a run of the calls of a node. -/
theorem run_of_ends {blocking : Bool} {q : Play} (h : sc.Ends blocking q) : ∃ τ, Run Step {} τ q.state := by
  have hcall : Step {} (.call sc.address sc.shutdown blocking) (sc.start blocking).state := rfl
  have hruns : ∃ τ, Run Step (sc.start blocking).state τ q.state := by
    have hreaches := (StateTransition.mem_eval.mp h).1
    clear h
    induction hreaches with
    | refl => exact ⟨[], Run.nil⟩
    | tail _ hstep ih =>
      obtain ⟨τ, hrun⟩ := ih
      obtain ⟨σ, hrun'⟩ := sc.run_of_step hstep
      exact ⟨τ ++ σ, hrun.append hrun'⟩
  obtain ⟨τ, hrun⟩ := hruns
  exact ⟨_, Run.cons hcall hrun⟩

/-! ## The steps of a lone call -/

/-- The record of a lone call. -/
def call (blocking : Bool) (pc : ShutdownPc) (round : Nat) : Call :=
  { address := sc.address, shutdown := sc.shutdown, blocking, pc, round }

/-- A lone call: `wait` is the round that is in the table, `sent` the rounds that got their message. -/
def lone (blocking : Bool) (pc : ShutdownPc) (round : Nat) (wait : Option Nat) (sent : List Nat) : State where
  calls := [sc.call blocking pc round]
  waits := fun id => if id = sc.address.actorId then wait.map (Prod.mk 0) else none
  sent := sent.map (Prod.mk 0)

variable {sc} {b : Bool} {pc : ShutdownPc} {round : Nat} {wait : Option Nat} {sent : List Nat} {e : Option Point}

theorem start_eq : sc.start b = ⟨sc.lone b .register 0 none [], none⟩ := by
  have hempty : (Table.empty : Table ActorId Channel) =
      fun id => if id = sc.address.actorId then (none : Option Nat).map (Prod.mk 0) else none := by
    funext id
    simp
  simp only [start, lone, List.map_nil, ← hempty, call]

theorem insert_lone (r : Nat) : (sc.lone b pc round wait sent).waits.insert sc.address.actorId (0, r) =
    (sc.lone b pc round (some r) sent).waits := by
  funext id
  simp only [lone, Table.insert_apply]
  split_ifs <;> rfl

theorem remove_lone : (sc.lone b pc round wait sent).waits.remove sc.address.actorId =
    (sc.lone b pc round none sent).waits := by
  funext id
  simp only [lone, Table.remove_apply]
  split_ifs <;> rfl

theorem complete_lone : (sc.lone b pc round wait sent).complete sc.address.actorId =
    sc.lone b pc round none (sent ++ wait.toList) := by
  cases wait with
  | none => simp [State.complete, lone]
  | some r =>
    have hwait : (sc.lone b pc round (some r) sent).waits sc.address.actorId = some (0, r) := by simp [lone]
    simp only [State.complete, hwait, remove_lone]
    simp [lone]

theorem move_lone : sc.move (sc.lone b pc round wait sent) =
    (sc.act (sc.lone b pc round wait sent) (sc.call b pc round)).bind
      (shutdownNext (sc.lone b pc round wait sent)) := rfl

theorem move_register :
    sc.move (sc.lone b .register round wait sent) = some (sc.lone b .signal round (some round) sent) := by
  have hnext : shutdownNext (sc.lone b .register round wait sent) (.register 0) =
      some { sc.lone b .signal round wait sent with
        waits := (sc.lone b .register round wait sent).waits.insert sc.address.actorId (0, round) } := rfl
  rw [insert_lone] at hnext
  exact hnext

theorem move_registerAgain : sc.move (sc.lone b .registerAgain round wait sent) =
    some (sc.lone b .waitKilled (round + 1) (some (round + 1)) sent) := by
  have hnext : shutdownNext (sc.lone b .registerAgain round wait sent) (.register 0) =
      some { sc.lone b .waitKilled (round + 1) wait sent with
        waits := (sc.lone b .registerAgain round wait sent).waits.insert sc.address.actorId (0, round + 1) } := rfl
  rw [insert_lone] at hnext
  exact hnext

theorem move_clearAgain :
    sc.move (sc.lone b .clearAgain round wait sent) = some (sc.lone b .registerAgain round none sent) := by
  have hnext : shutdownNext (sc.lone b .clearAgain round wait sent) (.clear 0) =
      some { sc.lone b .registerAgain round wait sent with
        waits := (sc.lone b .clearAgain round wait sent).waits.remove sc.address.actorId } := rfl
  rw [remove_lone] at hnext
  exact hnext

theorem move_clear {result : Except RemoteShutdownError Unit} :
    sc.move (sc.lone b (.clear result) round wait sent) = some (sc.lone b (.returned result) round none sent) := by
  have hnext : shutdownNext (sc.lone b (.clear result) round wait sent) (.clear 0) =
      some { sc.lone b (.returned result) round wait sent with
        waits := (sc.lone b (.clear result) round wait sent).waits.remove sc.address.actorId } := rfl
  rw [remove_lone] at hnext
  exact hnext

theorem move_returned {result : Except RemoteShutdownError Unit} :
    sc.move (sc.lone b (.returned result) round wait sent) = none := rfl

/-! The two signals. -/

theorem move_signal_ok (h : sc.answer (remoteSignal sc.shutdown) = .ok ()) :
    sc.move (sc.lone b .signal round wait sent) = some (sc.lone b .wait round wait sent) := by
  rw [move_lone, act, call, h]
  rfl

theorem move_kill_ok (h : sc.answer .kill = .ok ()) : sc.move (sc.lone b .kill round wait sent) =
    some (sc.lone b (if b then .waitKilled else .clearAgain) round wait sent) := by
  rw [move_lone, act, call, h]
  rfl

/-- Where a call goes when a signal has failed. -/
def failedPc (b : Bool) (err : String) : ShutdownPc :=
  if b then .clear (.error (.signal err)) else .returned (.error (.signal err))

theorem move_signal_error {err : String} (h : sc.answer (remoteSignal sc.shutdown) = .error err) :
    sc.move (sc.lone b .signal round wait sent) = some (sc.lone b (failedPc b err) round wait sent) := by
  rw [move_lone, act, call, h]
  rfl

theorem move_kill_error {err : String} (h : sc.answer .kill = .error err) :
    sc.move (sc.lone b .kill round wait sent) = some (sc.lone b (failedPc b err) round wait sent) := by
  rw [move_lone, act, call, h]
  rfl

/-! The two waits. -/

/-- A wait whose message is there returns it. -/
theorem waitEnds_ok (h : round ∈ sent) :
    (sc.lone b pc round wait sent).waitEnds 0 (sc.call b pc round) (.ok ()) = true := by
  simp [State.waitEnds, lone, call, h]

theorem waitEnds_ok_false (h : round ∉ sent) :
    (sc.lone b pc round wait sent).waitEnds 0 (sc.call b pc round) (.ok ()) = false := by
  simp [State.waitEnds, lone, call, h]

/-- Without a message, a wait ends when its time is over, if it has one. -/
theorem waitEnds_timeout (h : round ∉ sent) :
    (sc.lone b pc round wait sent).waitEnds 0 (sc.call b pc round) (.error .timeout) =
      (pc == .waitKilled || sc.shutdown != .infinity) := by
  simp [State.waitEnds, lone, call, h]

theorem next_wait {result : Except RemoteShutdownError Unit}
    (h : (sc.lone b .wait round wait sent).waitEnds 0 (sc.call b .wait round) result = true) :
    shutdownNext (sc.lone b .wait round wait sent) (.waited 0 result) =
      some (sc.lone b (State.afterWait (sc.call b .wait round) result) round wait sent) := by
  show (if _ then _ else _) = _
  rw [if_pos h]
  rfl

theorem next_waitKilled {result : Except RemoteShutdownError Unit}
    (h : (sc.lone b .waitKilled round wait sent).waitEnds 0 (sc.call b .waitKilled round) result = true) :
    shutdownNext (sc.lone b .waitKilled round wait sent) (.waited 0 result) =
      some (sc.lone b (.clear result) round wait sent) := by
  show (if _ then _ else _) = _
  rw [if_pos h]
  rfl

theorem move_wait_told (h : round ∈ sent) :
    sc.move (sc.lone b .wait round wait sent) = some (sc.lone b (.clear (.ok ())) round wait sent) := by
  have hact : sc.act (sc.lone b .wait round wait sent) (sc.call b .wait round) = some (.waited 0 (.ok ())) :=
    if_pos (waitEnds_ok h)
  rw [move_lone, hact, Option.bind_some, next_wait (waitEnds_ok h)]
  cases hshutdown : sc.shutdown <;> simp [State.afterWait, call, hshutdown]

/-- The first wait ends without a message. -/
theorem move_wait_untold (h : round ∉ sent) :
    sc.move (sc.lone b .wait round wait sent) =
      match sc.shutdown with
      | .infinity => none
      | .brutalKill => some (sc.lone b (.clear (.error .timeout)) round wait sent)
      | .timeout _ => some (sc.lone b .kill round wait sent) := by
  have hact : sc.act (sc.lone b .wait round wait sent) (sc.call b .wait round) =
      if sc.shutdown != .infinity then some (.waited 0 (.error .timeout)) else none := by
    show (if _ then _ else if _ then _ else _) = _
    rw [waitEnds_ok_false h, waitEnds_timeout h]
    rfl
  rw [move_lone, hact]
  cases hshutdown : sc.shutdown with
  | infinity => rfl
  | brutalKill =>
    rw [if_pos (by rfl), Option.bind_some, next_wait (by rw [waitEnds_timeout h, hshutdown]; rfl)]
    simp [State.afterWait, call, hshutdown]
  | timeout d =>
    rw [if_pos (by rfl), Option.bind_some, next_wait (by rw [waitEnds_timeout h, hshutdown]; rfl)]
    simp [State.afterWait, call, hshutdown]

theorem move_waitKilled_told (h : round ∈ sent) :
    sc.move (sc.lone b .waitKilled round wait sent) = some (sc.lone b (.clear (.ok ())) round wait sent) := by
  have hact : sc.act (sc.lone b .waitKilled round wait sent) (sc.call b .waitKilled round) =
      some (.waited 0 (.ok ())) := if_pos (waitEnds_ok h)
  rw [move_lone, hact, Option.bind_some, next_waitKilled (waitEnds_ok h)]

theorem move_waitKilled_untold (h : round ∉ sent) : sc.move (sc.lone b .waitKilled round wait sent) =
    some (sc.lone b (.clear (.error .timeout)) round wait sent) := by
  have hends : (sc.lone b .waitKilled round wait sent).waitEnds 0 (sc.call b .waitKilled round) (.error .timeout) =
      true := by
    rw [waitEnds_timeout h]
    rfl
  have hact : sc.act (sc.lone b .waitKilled round wait sent) (sc.call b .waitKilled round) =
      some (.waited 0 (.error .timeout)) := by
    show (if _ then _ else if _ then _ else _) = _
    rw [waitEnds_ok_false h, hends]
    rfl
  rw [move_lone, hact, Option.bind_some, next_waitKilled hends]

/-! ## How a lone call ends -/

variable (sc b) in
/-- The call comes to `s`; `told` says whether the `ChildExit` was applied in time. -/
def Reaches (s : State) (told : Bool) : Prop :=
  ∃ p, StateTransition.Reaches sc.step (sc.start b) p ∧ p.state = s ∧ p.exitedInTime = told

variable {told : Bool}

theorem reaches_start : sc.Reaches b (sc.lone b .register 0 none []) false :=
  ⟨sc.start b, Relation.ReflTransGen.refl, by rw [start_eq], rfl⟩

theorem step_elsewhere (hpoint : pc.point = none ∨ pc.point ≠ sc.pointIn b) :
    sc.step ⟨sc.lone b pc round wait sent, e⟩ =
      (sc.move (sc.lone b pc round wait sent)).map fun s => ⟨s, e⟩ := by
  have hreach : sc.reach ⟨sc.lone b pc round wait sent, e⟩ (sc.call b pc round) =
      some ⟨sc.lone b pc round wait sent, e⟩ := by
    refine if_neg ?_
    rintro ⟨hsome, heq⟩
    exact hpoint.elim hsome fun hne => hne heq
  show (sc.reach _ _).bind _ = _
  rw [hreach, Option.map_eq_bind]
  rfl

theorem step_exit {point : Point} (hpc : pc.point = some point) (hpoint : sc.pointIn b = some point) :
    sc.step ⟨sc.lone b pc round wait sent, e⟩ =
      (sc.move (sc.lone b pc round none (sent ++ wait.toList))).map fun s => ⟨s, some point⟩ := by
  have hreach : sc.reach ⟨sc.lone b pc round wait sent, e⟩ (sc.call b pc round) =
      some ⟨sc.lone b pc round none (sent ++ wait.toList), some point⟩ := by
    rw [reach, if_pos ⟨by rw [call, hpc]; simp, by rw [call, hpc, hpoint]⟩, ← complete_lone, call, hpc]
    rfl
  show (sc.reach _ _).bind _ = _
  rw [hreach, Option.map_eq_bind]
  rfl

/-- The call takes a step where the `ChildExit` does not come. -/
theorem Reaches.pass {s' : State} (h : sc.Reaches b (sc.lone b pc round wait sent) told)
    (hmove : sc.move (sc.lone b pc round wait sent) = some s')
    (hpoint : sc.pointIn b ≠ pc.point) : sc.Reaches b s' told := by
  obtain ⟨⟨s, e⟩, h, rfl, htold⟩ := h
  have hstep : sc.step ⟨sc.lone b pc round wait sent, e⟩ = some ⟨s', e⟩ := by
    rw [step_elsewhere (Or.inr (Ne.symm hpoint)), hmove]
    rfl
  exact ⟨⟨s', e⟩, h.tail hstep, rfl, htold⟩

/-- The `ChildExit` comes, and the call takes a step. -/
theorem Reaches.exit {s' : State} {point : Point} (h : sc.Reaches b (sc.lone b pc round wait sent) told)
    (hpoint : sc.pointIn b = some point) (hpc : pc.point = some point)
    (hmove : sc.move (sc.lone b pc round none (sent ++ wait.toList)) = some s') : sc.Reaches b s' point.inTime := by
  obtain ⟨⟨s, e⟩, h, rfl, -⟩ := h
  have hstep : sc.step ⟨sc.lone b pc round wait sent, e⟩ = some ⟨s', some point⟩ := by
    rw [step_exit hpc hpoint, hmove]
    rfl
  exact ⟨⟨s', some point⟩, h.tail hstep, rfl, rfl⟩

variable (sc b) in
/-- The call ends with this result (`none` if it waits for ever) and this wait of it in the table. -/
def Outcome (result : Option (Except RemoteShutdownError Unit)) (wait : Option Nat) (told : Bool) : Prop :=
  ∃ q, sc.Ends b q ∧ q.result = result ∧ q.state.waits sc.address.actorId = wait.map (Prod.mk 0) ∧
    q.exitedInTime = told

/-- There is no other end. -/
theorem Outcome.of_ends {result : Option (Except RemoteShutdownError Unit)} {q : Play}
    (h : sc.Outcome b result wait told) (hq : sc.Ends b q) :
    q.result = result ∧ q.state.waits sc.address.actorId = wait.map (Prod.mk 0) ∧ q.exitedInTime = told := by
  obtain ⟨p, hp, hresult⟩ := h
  rwa [Part.mem_unique hp hq] at hresult

/-- The call can take no step. -/
theorem Reaches.stop (h : sc.Reaches b (sc.lone b pc round wait sent) told)
    (hmove : sc.move (sc.lone b pc round wait sent) = none) (hpoint : pc.point = none ∨ pc.point ≠ sc.pointIn b) :
    sc.Outcome b (Play.result ⟨sc.lone b pc round wait sent, none⟩) wait told := by
  obtain ⟨⟨s, e⟩, h, rfl, htold⟩ := h
  have hstop : sc.step ⟨sc.lone b pc round wait sent, e⟩ = none := by
    rw [step_elsewhere hpoint, hmove]
    rfl
  exact ⟨⟨_, e⟩, StateTransition.mem_eval.mpr ⟨h, hstop⟩, rfl, if_pos rfl, htold⟩

theorem Reaches.returned {result : Except RemoteShutdownError Unit}
    (h : sc.Reaches b (sc.lone b (.returned result) round wait sent) told) : sc.Outcome b (some result) wait told :=
  h.stop move_returned (Or.inl rfl)

/-- The last `clear_shutdown_wait`; an exit that comes here comes too late. -/
theorem Reaches.clear {result : Except RemoteShutdownError Unit}
    (h : sc.Reaches b (sc.lone b (.clear result) round wait sent) told) (htold : told = true → sc.pointIn b ≠ some .clear) :
    sc.Outcome b (some result) none told := by
  by_cases hpoint : sc.pointIn b = some .clear
  · obtain rfl : told = false := by
      cases told with
      | false => rfl
      | true => exact absurd hpoint (htold rfl)
    exact (h.exit hpoint rfl move_clear).returned
  · exact (h.pass move_clear hpoint).returned

/-- A signal has failed: the blocking call clears, the async one does not. -/
theorem Reaches.failed {err : String} (h : sc.Reaches b (sc.lone b (failedPc b err) round wait sent) told)
    (htold : told = true → sc.pointIn b ≠ some .clear) :
    sc.Outcome b (some (.error (.signal err))) (if b then none else wait) told := by
  cases b with
  | true => exact h.clear htold
  | false => exact h.returned

theorem reaches_signal : sc.Reaches b (sc.lone b .signal 0 (some 0) []) false := by
  by_cases hpoint : sc.pointIn b = some .register
  · exact reaches_start.exit hpoint rfl move_register
  · exact reaches_start.pass move_register hpoint

/-- The first signal has failed. If the child has exited before it, the wait is gone, and else the async call leaves
it. -/
theorem outcome_signal_error {err : String} (h : sc.answer (remoteSignal sc.shutdown) = .error err) :
    sc.Outcome b (some (.error (.signal err))) none true ∨
      sc.Outcome b (some (.error (.signal err))) (if b then none else some 0) false := by
  by_cases hpoint : sc.pointIn b = some .signal
  · have hfailed := (reaches_signal.exit hpoint rfl (move_signal_error h)).failed fun _ => by simp [hpoint]
    exact Or.inl (by simpa [Point.inTime] using hfailed)
  · have hfailed := (reaches_signal.pass (move_signal_error h) hpoint).failed (by simp)
    exact Or.inr hfailed

section Signalled

variable (hsignal : sc.answer (remoteSignal sc.shutdown) = .ok ())

include hsignal

/-- The `ChildExit` comes before the first wait is over. -/
theorem outcome_told (h : sc.pointIn b = some .signal ∨ sc.pointIn b = some .wait) :
    sc.Outcome b (some (.ok ())) none true := by
  rcases h with h | h
  · have hwait := reaches_signal.exit h rfl (move_signal_ok hsignal)
    have hclear := hwait.pass (move_wait_told (by simp)) (by simp [h, ShutdownPc.point])
    exact hclear.clear fun _ => by simp [h]
  · have hne : sc.pointIn b ≠ ShutdownPc.signal.point := by simp [h, ShutdownPc.point]
    have hwait := reaches_signal.pass (move_signal_ok hsignal) hne
    have hclear := hwait.exit h rfl (move_wait_told (by simp))
    exact hclear.clear fun _ => by simp [h]

variable (huntold : sc.pointIn b ≠ some .signal ∧ sc.pointIn b ≠ some .wait)

include huntold

theorem reaches_wait : sc.Reaches b (sc.lone b .wait 0 (some 0) []) false :=
  reaches_signal.pass (move_signal_ok hsignal) huntold.1

/-- Nothing ends the wait. -/
theorem outcome_infinity (hshutdown : sc.shutdown = .infinity) : sc.Outcome b none (some 0) false := by
  refine (reaches_wait hsignal huntold).stop ?_ (Or.inr (Ne.symm huntold.2))
  rw [move_wait_untold List.not_mem_nil, hshutdown]

theorem outcome_brutalKill (hshutdown : sc.shutdown = .brutalKill) :
    sc.Outcome b (some (.error .timeout)) none false := by
  have hclear : sc.Reaches b (sc.lone b (.clear (.error .timeout)) 0 (some 0) []) false := by
    refine (reaches_wait hsignal huntold).pass ?_ huntold.2
    rw [move_wait_untold List.not_mem_nil, hshutdown]
  exact hclear.clear (by simp)

variable {d : Duration} (hshutdown : sc.shutdown = .timeout d)

include hshutdown

theorem reaches_kill : sc.Reaches b (sc.lone b .kill 0 (some 0) []) false := by
  refine (reaches_wait hsignal huntold).pass ?_ huntold.2
  rw [move_wait_untold List.not_mem_nil, hshutdown]

/-- The kill has failed. -/
theorem outcome_kill_error {err : String} (h : sc.answer .kill = .error err) :
    sc.Outcome b (some (.error (.signal err))) none true ∨
      sc.Outcome b (some (.error (.signal err))) (if b then none else some 0) false := by
  have hkill := reaches_kill hsignal huntold hshutdown
  by_cases hpoint : sc.pointIn b = some .kill
  · have hfailed := (hkill.exit hpoint rfl (move_kill_error h)).failed fun _ => by simp [hpoint]
    exact Or.inl (by simpa [Point.inTime] using hfailed)
  · have hfailed := (hkill.pass (move_kill_error h) hpoint).failed (by simp)
    exact Or.inr hfailed

variable (hkill : sc.answer .kill = .ok ())

include hkill

/-- The blocking call hears of an exit until the grace period is over. -/
theorem outcome_killed_blocking (hb : b = true) :
    sc.Outcome b (some (.ok ())) none true ∧ (sc.pointIn b = some .kill ∨ sc.pointIn b = some .waitKilled) ∨
      sc.Outcome b (some (.error .timeout)) none false ∧ sc.pointIn b ≠ some .kill ∧
        sc.pointIn b ≠ some .waitKilled := by
  subst hb
  have hreach := reaches_kill hsignal huntold hshutdown
  by_cases hpoint : sc.pointIn true = some .kill
  · have hwait := hreach.exit hpoint rfl (move_kill_ok hkill)
    have hne : sc.pointIn true ≠ ShutdownPc.waitKilled.point := by simp [hpoint, ShutdownPc.point]
    have hclear := hwait.pass (move_waitKilled_told (by simp)) hne
    exact Or.inl ⟨hclear.clear fun _ => by simp [hpoint], Or.inl hpoint⟩
  · have hwait := hreach.pass (move_kill_ok hkill) hpoint
    by_cases hpoint' : sc.pointIn true = some .waitKilled
    · have hclear := hwait.exit hpoint' rfl (move_waitKilled_told (by simp))
      exact Or.inl ⟨hclear.clear fun _ => by simp [hpoint'], Or.inr hpoint'⟩
    · have hclear := hwait.pass (move_waitKilled_untold (by simp)) hpoint'
      exact Or.inr ⟨hclear.clear (by simp), hpoint, hpoint'⟩

/-- The async call has a new wait after the kill, whatever came to the old one. -/
theorem reaches_waitKilled_async (hb : b = false) :
    ∃ sent told, sc.Reaches b (sc.lone b .waitKilled 1 (some 1) sent) told ∧ 1 ∉ sent ∧
      (told = true ↔ sc.pointIn b = some .kill ∨ sc.pointIn b = some .clearAgain ∨
        sc.pointIn b = some .registerAgain) := by
  subst hb
  have hreach := reaches_kill hsignal huntold hshutdown
  by_cases hpoint : sc.pointIn false = some .kill
  · have hclear := hreach.exit hpoint rfl (move_kill_ok hkill)
    have hregister := hclear.pass move_clearAgain (by simp [hpoint, ShutdownPc.point])
    have hwait := hregister.pass move_registerAgain (by simp [hpoint, ShutdownPc.point])
    exact ⟨_, _, hwait, by simp, by simp [hpoint, Point.inTime]⟩
  · have hclear := hreach.pass (move_kill_ok hkill) hpoint
    by_cases hpoint' : sc.pointIn false = some .clearAgain
    · have hregister := hclear.exit hpoint' rfl move_clearAgain
      have hwait := hregister.pass move_registerAgain (by simp [hpoint', ShutdownPc.point])
      exact ⟨_, _, hwait, by simp, by simp [hpoint', Point.inTime]⟩
    · have hregister := hclear.pass move_clearAgain hpoint'
      by_cases hpoint'' : sc.pointIn false = some .registerAgain
      · have hwait := hregister.exit hpoint'' rfl move_registerAgain
        exact ⟨_, _, hwait, by simp, by simp [hpoint'', Point.inTime]⟩
      · have hwait := hregister.pass move_registerAgain hpoint''
        exact ⟨_, _, hwait, by simp, by simp [hpoint, hpoint', hpoint'']⟩

/-- The async call hears of an exit in the grace period only if it has registered again. -/
theorem outcome_killed_async (hb : b = false) :
    sc.Outcome b (some (.ok ())) none true ∧ sc.pointIn b = some .waitKilled ∨
      (∃ told, sc.Outcome b (some (.error .timeout)) none told ∧ (told = true ↔ sc.pointIn b = some .kill ∨
        sc.pointIn b = some .clearAgain ∨ sc.pointIn b = some .registerAgain)) ∧
        sc.pointIn b ≠ some .waitKilled := by
  obtain ⟨sent, told, hwait, hsent, htold⟩ := reaches_waitKilled_async hsignal huntold hshutdown hkill hb
  by_cases hpoint : sc.pointIn b = some .waitKilled
  · have hclear := hwait.exit hpoint rfl (move_waitKilled_told (by simp))
    exact Or.inl ⟨hclear.clear fun _ => by simp [hpoint], hpoint⟩
  · have hclear := hwait.pass (move_waitKilled_untold hsent) hpoint
    refine Or.inr ⟨⟨told, hclear.clear fun h => ?_, htold⟩, hpoint⟩
    rcases htold.mp h with h | h | h <;> simp [h]

end Signalled

/-! ## The two functions -/

variable (sc)

/-- The two calls of a scenario agree: they return the same or neither returns, they return `Ok` if the `ChildExit` was
applied in time, and no call that has returned leaves a wait for the child. -/
structure Agree : Prop where
  same : ∀ p q, sc.Ends false p → sc.Ends true q → p.result = q.result
  ok : ∀ blocking q, sc.Ends blocking q → q.exitedInTime = true → q.result = some (.ok ())
  cleared : ∀ blocking q, sc.Ends blocking q → q.result ≠ none → q.state.waits sc.address.actorId = none

/-- The first wait of a `Timeout` policy runs out. -/
def Escalates : Prop := (∃ d, sc.shutdown = .timeout d) ∧ sc.exitAt ≠ some .signal ∧ sc.exitAt ≠ some .wait

/-- Every signal that is sent succeeds, and the child does not exit between the end of a first wait that has run out and
the second registration. -/
structure Clean : Prop where
  signal : sc.answer (remoteSignal sc.shutdown) = .ok ()
  kill : sc.Escalates → sc.answer .kill = .ok ()
  exit : sc.Escalates →
    sc.exitAt ≠ some .kill ∧ sc.exitAt ≠ some .clearAgain ∧ sc.exitAt ≠ some .registerAgain

variable {sc}

theorem pointIn_false : sc.pointIn false = sc.exitAt := rfl

/-- The points before the escalation are those of both calls. -/
theorem pointIn_early_iff : sc.pointIn b = some .signal ∨ sc.pointIn b = some .wait ↔
    sc.exitAt = some .signal ∨ sc.exitAt = some .wait := by
  cases b with
  | false => exact Iff.rfl
  | true =>
    cases hexit : sc.exitAt with
    | none => simp [pointIn, hexit]
    | some point => cases point <;> simp [pointIn, hexit, Point.inBlocking]

/-- A failed signal: the async call tells neither of an exit before it nor clears its wait. -/
theorem not_agree_of_failed {err : String}
    (h : sc.Outcome false (some (.error (.signal err))) none true ∨
      sc.Outcome false (some (.error (.signal err))) (some 0) false) : ¬sc.Agree := by
  intro hagree
  rcases h with ⟨q, hq, hresult, -, htold⟩ | ⟨q, hq, hresult, hwait, -⟩
  · have hok := hagree.ok false q hq htold
    rw [hresult] at hok
    cases hok
  · have hcleared := hagree.cleared false q hq (by simp [hresult])
    rw [hwait] at hcleared
    cases hcleared

/-- Both calls have the one result. -/
theorem agree_of_outcomes (result : Option (Except RemoteShutdownError Unit))
    (h : ∀ b, ∃ wait told, sc.Outcome b result wait told ∧ (told = true → result = some (.ok ())) ∧
      (result ≠ none → wait = none)) : sc.Agree := by
  refine ⟨?_, ?_, ?_⟩
  · intro p q hp hq
    obtain ⟨_, _, ha, -⟩ := h false
    obtain ⟨_, _, hb, -⟩ := h true
    rw [(ha.of_ends hp).1, (hb.of_ends hq).1]
  · intro b q hq htold
    obtain ⟨_, _, hb, hok, -⟩ := h b
    obtain ⟨hresult, -, htold'⟩ := hb.of_ends hq
    rw [hresult]
    exact hok (htold'.symm.trans htold)
  · intro b q hq hreturned
    obtain ⟨wait, _, hb, -, hwait⟩ := h b
    obtain ⟨hresult, hwaits, -⟩ := hb.of_ends hq
    rw [hresult] at hreturned
    rw [hwaits, hwait hreturned]
    rfl

/-- The blocking call is in its last wait from the kill on. -/
theorem pointIn_killed_iff : sc.pointIn true = some .kill ∨ sc.pointIn true = some .waitKilled ↔
    sc.exitAt = some .waitKilled ∨
      sc.exitAt = some .kill ∨ sc.exitAt = some .clearAgain ∨ sc.exitAt = some .registerAgain := by
  cases hexit : sc.exitAt with
  | none => simp [pointIn, hexit]
  | some point => cases point <;> simp [pointIn, hexit, Point.inBlocking]

theorem Clean.agree_of_escalates (h : sc.Clean) (hescalates : sc.Escalates) : sc.Agree := by
  obtain ⟨⟨d, hshutdown⟩, hnot⟩ := hescalates
  have huntold : ∀ b, sc.pointIn b ≠ some .signal ∧ sc.pointIn b ≠ some .wait := by
    intro b
    rw [← not_or, pointIn_early_iff, not_or]
    exact hnot
  have hkill := h.kill ⟨⟨d, hshutdown⟩, hnot⟩
  have hlost : ¬(sc.exitAt = some .kill ∨ sc.exitAt = some .clearAgain ∨ sc.exitAt = some .registerAgain) := by
    rw [not_or, not_or]
    exact h.exit ⟨⟨d, hshutdown⟩, hnot⟩
  have hblocking := outcome_killed_blocking h.signal (huntold true) hshutdown hkill rfl
  have hasync := outcome_killed_async h.signal (huntold false) hshutdown hkill rfl
  rw [← not_or, pointIn_killed_iff] at hblocking
  rw [pointIn_false] at hasync
  by_cases hexit : sc.exitAt = some .waitKilled
  · refine agree_of_outcomes (some (.ok ())) fun b => ⟨none, true, ?_, fun _ => rfl, fun _ => rfl⟩
    cases b with
    | false => exact hasync.elim (fun h => h.1) fun h => absurd hexit h.2
    | true => exact hblocking.elim (fun h => h.1) fun h => absurd (Or.inl hexit) h.2
  · refine agree_of_outcomes (some (.error .timeout)) fun b => ⟨none, false, ?_, by simp, fun _ => rfl⟩
    cases b with
    | false =>
      rcases hasync with ⟨-, h⟩ | ⟨⟨told, houtcome, htold⟩, -⟩
      · exact absurd h hexit
      · obtain rfl : told = false := Bool.eq_false_iff.mpr fun h => hlost (htold.mp h)
        exact houtcome
    | true =>
      refine hblocking.elim (fun h => ?_) fun h => h.1
      exact absurd h.2 (not_or.mpr ⟨hexit, hlost⟩)

theorem Clean.agree (h : sc.Clean) : sc.Agree := by
  by_cases hearly : sc.exitAt = some .signal ∨ sc.exitAt = some .wait
  · exact agree_of_outcomes (some (.ok ())) fun b =>
      ⟨none, true, outcome_told h.signal (pointIn_early_iff.mpr hearly), fun _ => rfl, fun _ => rfl⟩
  · have huntold : ∀ b, sc.pointIn b ≠ some .signal ∧ sc.pointIn b ≠ some .wait := by
      intro b
      rw [← not_or, pointIn_early_iff]
      exact hearly
    cases hshutdown : sc.shutdown with
    | infinity =>
      exact agree_of_outcomes none fun b =>
        ⟨some 0, false, outcome_infinity h.signal (huntold b) hshutdown, by simp, by simp⟩
    | brutalKill =>
      exact agree_of_outcomes (some (.error .timeout)) fun b =>
        ⟨none, false, outcome_brutalKill h.signal (huntold b) hshutdown, by simp, fun _ => rfl⟩
    | timeout d => exact h.agree_of_escalates ⟨⟨d, hshutdown⟩, not_or.mp hearly⟩

/-- A signal that fails, or an exit before the second registration, shows in the async call alone. -/
theorem Agree.clean (h : sc.Agree) : sc.Clean := by
  have hsignal : sc.answer (remoteSignal sc.shutdown) = .ok () := by
    cases hanswer : sc.answer (remoteSignal sc.shutdown) with
    | ok u => rfl
    | error err => exact absurd h (not_agree_of_failed (outcome_signal_error hanswer))
  have huntold : sc.Escalates → sc.pointIn false ≠ some .signal ∧ sc.pointIn false ≠ some .wait := fun he => he.2
  have hkill : sc.Escalates → sc.answer .kill = .ok () := by
    intro he
    obtain ⟨d, hshutdown⟩ := he.1
    cases hanswer : sc.answer .kill with
    | ok u => rfl
    | error err =>
      exact absurd h (not_agree_of_failed (outcome_kill_error hsignal (huntold he) hshutdown hanswer))
  refine ⟨hsignal, hkill, ?_⟩
  intro he
  obtain ⟨d, hshutdown⟩ := he.1
  rw [← not_or, ← not_or]
  intro hlost
  rcases outcome_killed_async hsignal (huntold he) hshutdown (hkill he) rfl with ⟨-, hexit⟩ | ⟨⟨told, houtcome, htold⟩, -⟩
  · rw [pointIn_false] at hexit
    simp [hexit] at hlost
  · obtain ⟨q, hq, hresult, -, hq'⟩ := houtcome
    have hok := h.ok false q hq (hq'.trans (htold.mpr hlost))
    rw [hresult] at hok
    cases hok

/-- Every call comes to an end, or waits for ever. -/
theorem exists_ends (sc : Scenario) (b : Bool) : ∃ q, sc.Ends b q := by
  suffices h : ∃ result wait told, sc.Outcome b result wait told by
    obtain ⟨_, _, _, q, hq, -⟩ := h
    exact ⟨q, hq⟩
  cases hsignal : sc.answer (remoteSignal sc.shutdown) with
  | error err =>
    rcases outcome_signal_error hsignal with h | h <;> exact ⟨_, _, _, h⟩
  | ok u =>
    by_cases hearly : sc.pointIn b = some .signal ∨ sc.pointIn b = some .wait
    · exact ⟨_, _, _, outcome_told hsignal hearly⟩
    · have huntold := not_or.mp hearly
      cases hshutdown : sc.shutdown with
      | infinity => exact ⟨_, _, _, outcome_infinity hsignal huntold hshutdown⟩
      | brutalKill => exact ⟨_, _, _, outcome_brutalKill hsignal huntold hshutdown⟩
      | timeout d =>
        cases hkill : sc.answer .kill with
        | error err =>
          rcases outcome_kill_error hsignal huntold hshutdown hkill with h | h <;> exact ⟨_, _, _, h⟩
        | ok u =>
          cases b with
          | true =>
            rcases outcome_killed_blocking hsignal huntold hshutdown hkill rfl with ⟨h, -⟩ | ⟨h, -⟩ <;>
              exact ⟨_, _, _, h⟩
          | false =>
            rcases outcome_killed_async hsignal huntold hshutdown hkill rfl with ⟨h, -⟩ | ⟨⟨_, h, -⟩, -⟩ <;>
              exact ⟨_, _, _, h⟩

/-- **When the two remote shutdown functions agree**: if every signal that is sent succeeds, and the child does not exit
between the end of a first wait that has run out and the second registration. Each call has one end. -/
theorem remote_shutdowns_agree_iff (sc : Scenario) :
    (∀ blocking, ∃! q, sc.Ends blocking q) ∧ (sc.Agree ↔ sc.Clean) := by
  refine ⟨?_, Agree.clean, Clean.agree⟩
  intro blocking
  obtain ⟨q, hq⟩ := sc.exists_ends blocking
  exact ⟨q, hq, fun p hp => Part.mem_unique hp hq⟩

/-- The child does not stop in time and is killed, and its `ChildExit` comes when the async call is about to clear its
wait. -/
def exitWhileClearing : Scenario where
  address := ⟨"b", 5⟩
  shutdown := .timeout 1
  answer := fun _ => .ok ()
  exitAt := some .clearAgain

/-- The blocking call returns `Ok` then, and the async call times out. -/
theorem exit_lost_between_registrations :
    (∃ p, exitWhileClearing.Ends false p ∧ p.result = some (.error .timeout) ∧ p.exitedInTime = true) ∧
      (∃ q, exitWhileClearing.Ends true q ∧ q.result = some (.ok ())) ∧ ¬exitWhileClearing.Agree := by
  have hsignal : exitWhileClearing.answer (remoteSignal exitWhileClearing.shutdown) = .ok () := rfl
  have huntold : ∀ b, exitWhileClearing.pointIn b ≠ some .signal ∧ exitWhileClearing.pointIn b ≠ some .wait := by
    decide
  refine ⟨?_, ?_, ?_⟩
  · rcases outcome_killed_async hsignal (huntold false) rfl rfl rfl with
      ⟨-, h⟩ | ⟨⟨told, ⟨p, hp, hresult, -, htold⟩, hlost⟩, -⟩
    · cases h
    · exact ⟨p, hp, hresult, htold.trans (hlost.mpr (by decide))⟩
  · rcases outcome_killed_blocking hsignal (huntold true) rfl rfl rfl with ⟨⟨q, hq, hresult, -⟩, -⟩ | ⟨-, -, h⟩
    · exact ⟨q, hq, hresult⟩
    · exact absurd rfl h
  · intro hagree
    exact (hagree.clean.exit ⟨⟨1, rfl⟩, by decide, by decide⟩).2.1 rfl

end Scenario

end ShutdownWait

end Spawned
