import Mathlib.Data.List.Nodup
import Spawned.Lib.Calls
import Spawned.Lib.Run
import Spawned.Mailbox.Receive

/-!
# Applications and shutdown signals

A process has one registry of actors to be told of a shutdown signal, and one dispatcher, started by whoever asks first,
that waits for a signal of the system and hands it to all that are registered. An application registers its roots and
waits for them; then its cluster node is dropped, if it has one, and after it the guards.

* `Process` : the registry, the dispatcher and all applications ever started; `Process.next` : one step of any of them;
* `Process.calls` : what the registry has called, `Process.calls_step` : the calls of a step;
* `Process.live` : the guards that are held, `Process.Inv` : what the registry has to do with them;
* `registry_holds_guards` : an actor is registered once for each guard, until it is found dead, and called once for each
  signal;
* `os_signal_once` : the dispatcher hands out one signal, and none after that;
* `run_waits_for_roots` : what has happened when `run` returns, and when the application is gone.

A `SendSignalFn` is the number of its actor, as `ChildHandle::shutdown_on_signal` registers it; whether it returns `Ok` is
decided by the actor, which is alive or not. The thread of a node (`accept_loop`, or the one of the swarm) is a number too.
-/

namespace Spawned

open Lib

/-- A `SignalGuard`, or an entry of the registry: its id, and the actor it was made for. -/
structure SignalGuard where
  id : Nat
  actor : ActorId
deriving DecidableEq, Repr

/-- Where the dispatcher stands. -/
inductive DispatcherPc
  | unspawned
  /-- in `wait_shutdown_signal()` -/
  | waiting
  /-- at `dispatch_shutdown_signal(signal)` -/
  | dispatching (signal : OsSignal)
  | ended
deriving DecidableEq, Repr

/-- Where an application stands. -/
inductive AppPc
  /-- `spawn_shutdown_signal_dispatcher` -/
  | spawnDispatcher
  /-- `shutdown_on_signal` of root `k` -/
  | register (k : Nat)
  /-- `run` waits for root `k` -/
  | waitExit (k : Nat)
  /-- it is being dropped, first its node -/
  | dropNode
  /-- the drop of its node joins the thread -/
  | joinNode (thread : Nat)
  /-- and then its guards one by one -/
  | dropGuards
  | ended
deriving DecidableEq, Repr

/-- The backend of a `Node`, with the number of the thread that it runs. -/
inductive ClusterBackend
  /-- with a listener or without one -/
  | tcp (listener : Option Nat)
  | libp2p (runtime : Nat)
  | none
deriving DecidableEq, Repr

/-- The thread that the drop of a `Node` tells to shut down and joins. -/
def ClusterBackend.joined : ClusterBackend → Option Nat
  | .tcp listener => listener
  | .libp2p runtime => some runtime
  | .none => .none

structure Application where
  /-- the `backend` of the `node` -/
  node : Option ClusterBackend
  /-- `shutdown_handles` -/
  roots : List ActorId
  guards : List SignalGuard := []
  pc : AppPc
  /-- `run` has returned -/
  ran : Bool := false
deriving DecidableEq, Repr

/-- `start` with a node and roots, up to the registration; without roots there is none. -/
def Application.started (node : Option ClusterBackend) (roots : List ActorId) : Application :=
  { node, roots, pc := if roots.isEmpty then .waitExit 0 else .spawnDispatcher }

/-- The thread that its drop waits for. -/
def Application.joined (app : Application) : Option Nat := app.node.bind ClusterBackend.joined

/-- An upper bound for the steps an application still takes. -/
def Application.left (app : Application) : Nat :=
  match app.pc with
  | .spawnDispatcher => 3 * app.roots.length + 6
  | .register k => (app.roots.length - k) + 2 * app.roots.length + 5
  | .waitExit k => (app.roots.length - k) + app.roots.length + 4
  | .dropNode => app.guards.length + 3
  | .joinNode _ => app.guards.length + 2
  | .dropGuards => app.guards.length + 1
  | .ended => 0

structure Process where
  /-- `DISPATCHER_STARTED` -/
  started : Bool := false
  dispatcher : DispatcherPc := .unspawned
  nextId : Nat := 1
  entries : List SignalGuard := []
  /-- the calls `send(signal)` made so far, with the entries they were made for -/
  calls : List (SignalGuard × OsSignal) := []
  /-- the guards that applications do not hold -/
  held : List SignalGuard := []
  apps : List Application := []
  /-- the actors that have exited -/
  exited : List ActorId := []
  /-- the threads of nodes that have been told to shut down, -/
  shutdown : List Nat := []
  /-- and those that have ended -/
  finished : List Nat := []
deriving DecidableEq, Repr

inductive ProcessAct
  /-- `start` of an application, whose node has been built and whose startup has returned the roots -/
  | start (node : Option ClusterBackend) (roots : List ActorId)
  /-- the next step of application `j` -/
  | app (j : Nat)
  /-- application `j` is dropped without a `run`, or in the midst of it -/
  | dropApp (j : Nat)
  | exit (actor : ActorId)
  /-- the thread of a node ends -/
  | threadEnd (thread : Nat)
  /-- a signal of the system comes in while the dispatcher waits -/
  | osSignal (signal : OsSignal)
  /-- the dispatcher hands it out; `alive` are the actors whose send returns `Ok` -/
  | osDispatch (alive : List ActorId)
  /-- someone calls `dispatch_shutdown_signal`, -/
  | dispatch (signal : OsSignal) (alive : List ActorId)
  /-- `spawn_shutdown_signal_dispatcher`, -/
  | spawnDispatcher
  /-- `shutdown_on_signal`, -/
  | register (actor : ActorId)
  /-- or drops a guard -/
  | dropGuard (guard : SignalGuard)
deriving DecidableEq

namespace Process

/-! ## The registry -/

/-- `Registry::register`. -/
def registered (s : Process) (actor : ActorId) : Process :=
  { s with nextId := s.nextId + 1, entries := s.entries ++ [⟨s.nextId, actor⟩] }

/-- `Registry::unregister`. -/
def unregistered (s : Process) (id : Nat) : Process := { s with entries := s.entries.filter (·.id ≠ id) }

/-- The `retain` of `Registry::dispatch`: it calls one entry after the other, and takes out who fails. -/
def retain (signal : OsSignal) (alive : List ActorId) : List SignalGuard → List SignalGuard × List (SignalGuard × OsSignal)
  | [] => ([], [])
  | entry :: entries =>
    let (kept, calls) := retain signal alive entries
    (if entry.actor ∈ alive then entry :: kept else kept, (entry, signal) :: calls)

/-- `Registry::dispatch`. -/
def dispatched (s : Process) (signal : OsSignal) (alive : List ActorId) : Process :=
  let (entries, calls) := retain signal alive s.entries
  { s with entries, calls := s.calls ++ calls }

/-- `spawn_shutdown_signal_dispatcher_tasks` and `_threads`. -/
def spawned (s : Process) : Process := if s.started then s else { s with started := true, dispatcher := .waiting }

/-! ## One step -/

def setApp (s : Process) (j : Nat) (app : Application) : Process := { s with apps := s.apps.set j app }

def appStep (s : Process) (j : Nat) (app : Application) : Option Process :=
  match app.pc with
  | .spawnDispatcher => some (s.spawned.setApp j { app with pc := .register 0 })
  | .register k =>
    match app.roots[k]? with
    | some actor =>
      some ((s.registered actor).setApp j
        { app with guards := app.guards ++ [⟨s.nextId, actor⟩], pc := .register (k + 1) })
    | none => some (s.setApp j { app with pc := .waitExit 0 })
  | .waitExit k =>
    match app.roots[k]? with
    | some actor => if actor ∈ s.exited then some (s.setApp j { app with pc := .waitExit (k + 1) }) else none
    | none => some (s.setApp j { app with pc := .dropNode, ran := true })
  | .dropNode =>
    match app.joined with
    | some thread => some ({ s with shutdown := thread :: s.shutdown }.setApp j { app with pc := .joinNode thread })
    | none => some (s.setApp j { app with pc := .dropGuards })
  | .joinNode thread => if thread ∈ s.finished then some (s.setApp j { app with pc := .dropGuards }) else none
  | .dropGuards =>
    match app.guards with
    | guard :: guards => some ((s.unregistered guard.id).setApp j { app with guards })
    | [] => some (s.setApp j { app with pc := .ended })
  | .ended => none

def next (s : Process) : ProcessAct → Option Process
  | .start node roots => some { s with apps := s.apps ++ [Application.started node roots] }
  | .app j => s.apps[j]?.bind (s.appStep j)
  | .dropApp j =>
    s.apps[j]?.bind fun app =>
      match app.pc with
      | .waitExit _ => some (s.setApp j { app with pc := .dropNode })
      | _ => none
  | .exit actor => some { s with exited := actor :: s.exited }
  | .threadEnd thread => some { s with finished := thread :: s.finished }
  | .osSignal signal => if s.dispatcher = .waiting then some { s with dispatcher := .dispatching signal } else none
  | .osDispatch alive =>
    match s.dispatcher with
    | .dispatching signal => some { s.dispatched signal alive with dispatcher := .ended }
    | _ => none
  | .dispatch signal alive => some (s.dispatched signal alive)
  | .spawnDispatcher => some s.spawned
  | .register actor => some { s.registered actor with held := s.held ++ [⟨s.nextId, actor⟩] }
  | .dropGuard guard =>
    if guard ∈ s.held then some { s.unregistered guard.id with held := s.held.erase guard } else none

def Step (s : Process) (a : ProcessAct) (s' : Process) : Prop := s.next a = some s'

/-- The guards that somebody holds. -/
def live (s : Process) : List SignalGuard := s.held ++ s.apps.flatMap (·.guards)

/-- The signal that a step hands out, and who is alive then. -/
def told (x : Process × ProcessAct) : Option (OsSignal × List ActorId) :=
  match x.2, x.1.dispatcher with
  | .osDispatch alive, .dispatching signal => some (signal, alive)
  | .dispatch signal alive, _ => some (signal, alive)
  | _, _ => none

variable {s s' : Process} {a : ProcessAct} {τ : List (Process × ProcessAct)} {j : Nat} {app : Application}

/-- A step, by what it does to the guards that are held and to the registry. -/
inductive Books (s : Process) : Option (OsSignal × List ActorId) → Process → Prop
  | kept {s' : Process} (hlive : s'.live.Perm s.live) (hentries : s'.entries = s.entries) (hid : s'.nextId = s.nextId)
      (hcalls : s'.calls = s.calls) : Books s none s'
  | registered {s' : Process} {actor : ActorId} (hlive : s'.live.Perm (⟨s.nextId, actor⟩ :: s.live))
      (hentries : s'.entries = s.entries ++ [⟨s.nextId, actor⟩]) (hid : s'.nextId = s.nextId + 1)
      (hcalls : s'.calls = s.calls) : Books s none s'
  | dropped {s' : Process} {guard : SignalGuard} (hlive : s.live.Perm (guard :: s'.live))
      (hentries : s'.entries = s.entries.filter (·.id ≠ guard.id)) (hid : s'.nextId = s.nextId)
      (hcalls : s'.calls = s.calls) : Books s none s'
  | dispatched {s' : Process} {signal : OsSignal} {alive : List ActorId} (hlive : s'.live = s.live)
      (hentries : s'.entries = s.entries.filter fun entry => entry.actor ∈ alive) (hid : s'.nextId = s.nextId)
      (hcalls : s'.calls = s.calls ++ s.entries.map fun entry => (entry, signal)) : Books s (some (signal, alive)) s'

/-- The registry calls each of its entries once, in their order. -/
theorem retain_eq (signal : OsSignal) (alive : List ActorId) (entries : List SignalGuard) :
    retain signal alive entries =
      (entries.filter fun entry => entry.actor ∈ alive, entries.map fun entry => (entry, signal)) := by
  induction entries with
  | nil => rfl
  | cons entry entries ih => by_cases halive : entry.actor ∈ alive <;> simp [retain, ih, halive]

theorem dispatched_eq (s : Process) (signal : OsSignal) (alive : List ActorId) :
    s.dispatched signal alive =
      { s with
        entries := s.entries.filter fun entry => entry.actor ∈ alive
        calls := s.calls ++ s.entries.map fun entry => (entry, signal) } := by
  unfold dispatched
  rw [retain_eq]

/-- What is held when the guards of an application change. -/
theorem live_setApp (h : s.apps[j]? = some app) (app' : Application) :
    ((s.setApp j app').live ++ app.guards).Perm (s.live ++ app'.guards) := by
  unfold live setApp
  rw [List.append_assoc, List.append_assoc]
  exact (flatMap_set_perm (fun app : Application => app.guards) h app').append_left _

theorem live_setApp_same (h : s.apps[j]? = some app) {app' : Application} (hg : app'.guards = app.guards) :
    (s.setApp j app').live.Perm s.live := by
  have hperm := live_setApp h app'
  rw [hg] at hperm
  exact (List.perm_append_right_iff _).mp hperm

theorem live_setApp_snoc (h : s.apps[j]? = some app) {app' : Application} {guard : SignalGuard}
    (hg : app'.guards = app.guards ++ [guard]) : (s.setApp j app').live.Perm (guard :: s.live) := by
  have hperm := live_setApp h app'
  rw [hg, ← List.append_assoc] at hperm
  exact (List.perm_append_right_iff _).mp (hperm.trans (List.perm_append_singleton guard _))

theorem live_setApp_tail (h : s.apps[j]? = some app) {app' : Application} {guard : SignalGuard}
    (hg : app.guards = guard :: app'.guards) : s.live.Perm (guard :: (s.setApp j app').live) := by
  have hperm := live_setApp h app'
  rw [hg] at hperm
  exact (List.perm_append_right_iff _).mp (hperm.symm.trans List.perm_middle)

theorem spawned_cases (s : Process) : s.spawned = s ∨ s.spawned = { s with started := true, dispatcher := .waiting } := by
  unfold spawned
  split
  · exact Or.inl rfl
  · exact Or.inr rfl

theorem books_appStep (hj : s.apps[j]? = some app) (h : s.appStep j app = some s') : Books s none s' := by
  unfold appStep at h
  split at h
  case h_1 =>
    cases h
    rcases spawned_cases s with he | he
    · rw [he]
      exact .kept (live_setApp_same hj rfl) rfl rfl rfl
    · rw [he]
      exact .kept (live_setApp_same (s := { s with started := true, dispatcher := .waiting }) hj rfl) rfl rfl rfl
  case h_2 k _ =>
    split at h
    case h_1 actor hk =>
      cases h
      exact .registered (live_setApp_snoc (s := s.registered actor) hj rfl) rfl rfl rfl
    case h_2 =>
      cases h
      exact .kept (live_setApp_same hj rfl) rfl rfl rfl
  case h_3 k _ =>
    split at h
    case h_1 =>
      obtain ⟨-, h⟩ := Option.ite_none_right_eq_some.mp h
      cases h
      exact .kept (live_setApp_same hj rfl) rfl rfl rfl
    case h_2 =>
      cases h
      exact .kept (live_setApp_same hj rfl) rfl rfl rfl
  case h_4 =>
    split at h
    case h_1 thread _ =>
      cases h
      exact .kept (live_setApp_same (s := { s with shutdown := thread :: s.shutdown }) hj rfl) rfl rfl rfl
    case h_2 =>
      cases h
      exact .kept (live_setApp_same hj rfl) rfl rfl rfl
  case h_5 =>
    obtain ⟨-, h⟩ := Option.ite_none_right_eq_some.mp h
    cases h
    exact .kept (live_setApp_same hj rfl) rfl rfl rfl
  case h_6 =>
    split at h
    case h_1 guard guards hguards =>
      cases h
      exact .dropped (live_setApp_tail (s := s.unregistered guard.id) hj hguards) rfl rfl rfl
    case h_2 =>
      cases h
      exact .kept (live_setApp_same hj rfl) rfl rfl rfl
  case h_7 => cases h

theorem step_books (h : Step s a s') : Books s (told (s, a)) s' := by
  unfold Step at h
  cases a with
  | start node roots =>
    cases h
    refine .kept (List.Perm.of_eq ?_) rfl rfl rfl
    simp [live, Application.started]
  | app j =>
    obtain ⟨app, hj, h⟩ := Option.bind_eq_some_iff.mp h
    exact books_appStep hj h
  | dropApp j =>
    obtain ⟨app, hj, h⟩ := Option.bind_eq_some_iff.mp h
    split at h
    case h_1 =>
      cases h
      exact .kept (live_setApp_same hj rfl) rfl rfl rfl
    case h_2 => cases h
  | osSignal signal =>
    obtain ⟨-, h⟩ := Option.ite_none_right_eq_some.mp h
    cases h
    exact .kept (.refl _) rfl rfl rfl
  | osDispatch alive =>
    simp only [next] at h
    split at h
    case h_1 signal hd =>
      rw [dispatched_eq] at h
      cases h
      have htold : told (s, .osDispatch alive) = some (signal, alive) := by simp only [told, hd]
      rw [htold]
      exact .dispatched rfl rfl rfl rfl
    case h_2 => cases h
  | dispatch signal alive =>
    simp only [next, dispatched_eq] at h
    cases h
    exact .dispatched rfl rfl rfl rfl
  | spawnDispatcher =>
    cases h
    rcases spawned_cases s with he | he
    · rw [he]
      exact .kept (.refl _) rfl rfl rfl
    · rw [he]
      exact .kept (.refl _) rfl rfl rfl
  | register actor =>
    cases h
    refine .registered ?_ rfl rfl rfl
    exact (List.perm_append_singleton (⟨s.nextId, actor⟩ : SignalGuard) s.held).append_right _
  | dropGuard guard =>
    obtain ⟨hmem, h⟩ := Option.ite_none_right_eq_some.mp h
    cases h
    exact .dropped ((List.perm_cons_erase hmem).append_right _) rfl rfl rfl
  | exit | threadEnd =>
    cases h
    exact .kept (.refl _) rfl rfl rfl

/-- Nobody is called but by a step that hands out a signal, and then each entry once with this signal. -/
theorem calls_step (h : Step s a s') :
    s'.calls = s.calls ++ (told (s, a)).elim [] fun handed => s.entries.map fun entry => (entry, handed.1) := by
  have hbooks := step_books h
  generalize told (s, a) = handed at hbooks
  cases hbooks with
  | kept _ _ _ hcalls | registered _ _ _ hcalls | dropped _ _ _ hcalls => simpa using hcalls
  | dispatched _ _ _ hcalls => exact hcalls

/-! ## The registry and the guards -/

/-- Every dispatch has found the actor alive. -/
def NeverDead (τ : List (Process × ProcessAct)) (actor : ActorId) : Prop :=
  ∀ x ∈ τ, ∀ signal alive, told x = some (signal, alive) → actor ∈ alive

/-- The guards have ids of their own, and the registry holds an entry for each of them, except for actors found dead. -/
structure Inv (τ : List (Process × ProcessAct)) (s : Process) : Prop where
  distinct : (s.live.map (·.id)).Nodup
  drawn : ∀ guard ∈ s.live, guard.id < s.nextId
  entries : ∀ entry ∈ s.entries, entry ∈ s.live
  once : s.entries.Nodup
  held : ∀ guard ∈ s.live, NeverDead τ guard.actor → guard ∈ s.entries

theorem inv_init : Inv [] {} := ⟨List.nodup_nil, by simp [live], by simp, List.nodup_nil, by simp [live]⟩

theorem neverDead_snoc {x : Process × ProcessAct} {actor : ActorId} :
    NeverDead (τ ++ [x]) actor ↔
      NeverDead τ actor ∧ ∀ signal alive, told x = some (signal, alive) → actor ∈ alive := by
  simp [NeverDead, or_imp, forall_and]

theorem Inv.step (h : Inv τ s) (hstep : Step s a s') : Inv (τ ++ [(s, a)]) s' := by
  have hbooks := step_books hstep
  have hnever : ∀ {actor : ActorId}, NeverDead (τ ++ [(s, a)]) actor → NeverDead τ actor :=
    fun hn => (neverDead_snoc.mp hn).1
  generalize htold : told (s, a) = handed at hbooks
  cases hbooks with
  | kept hlive hentries hid =>
    refine ⟨(hlive.map _).nodup_iff.mpr h.distinct, fun guard hg => ?_, fun entry he => ?_, hentries ▸ h.once,
      fun guard hg hn => ?_⟩
    · rw [hid]
      exact h.drawn guard (hlive.mem_iff.mp hg)
    · exact hlive.mem_iff.mpr (h.entries entry (hentries ▸ he))
    · rw [hentries]
      exact h.held guard (hlive.mem_iff.mp hg) (hnever hn)
  | @registered _ actor hlive hentries hid =>
    have hnew : (⟨s.nextId, actor⟩ : SignalGuard) ∉ s.live := fun hmem => Nat.lt_irrefl _ (h.drawn _ hmem)
    refine ⟨(hlive.map _).nodup_iff.mpr (List.nodup_cons.mpr ⟨fun hmem => ?_, h.distinct⟩), fun guard hg => ?_,
      fun entry he => ?_, ?_, fun guard hg hn => ?_⟩
    · obtain ⟨guard, hg, hgid⟩ := List.mem_map.mp hmem
      have hlt := h.drawn guard hg
      rw [hgid] at hlt
      exact Nat.lt_irrefl _ hlt
    · rw [hid]
      rcases List.mem_cons.mp (hlive.mem_iff.mp hg) with rfl | hg
      · exact Nat.lt_succ_self _
      · exact Nat.lt_succ_of_lt (h.drawn guard hg)
    · rw [hentries] at he
      refine hlive.mem_iff.mpr (List.mem_cons.mpr ?_)
      rcases List.mem_append.mp he with he | he
      · exact Or.inr (h.entries entry he)
      · exact Or.inl (List.mem_singleton.mp he)
    · rw [hentries]
      refine List.nodup_append_comm.mp (List.nodup_cons.mpr ⟨fun hmem => hnew (h.entries _ hmem), h.once⟩)
    · rw [hentries]
      rcases List.mem_cons.mp (hlive.mem_iff.mp hg) with rfl | hg
      · simp
      · exact List.mem_append_left _ (h.held guard hg (hnever hn))
  | @dropped _ guard hlive hentries hid =>
    have hsub : ∀ {other : SignalGuard}, other ∈ s'.live → other ∈ s.live :=
      fun hmem => hlive.mem_iff.mpr (List.mem_cons_of_mem _ hmem)
    have hdistinct := List.nodup_cons.mp ((hlive.map (·.id)).nodup_iff.mp h.distinct)
    refine ⟨hdistinct.2, fun other hmem => ?_, fun entry he => ?_, ?_, fun other hmem hn => ?_⟩
    · rw [hid]
      exact h.drawn other (hsub hmem)
    · rw [hentries, List.mem_filter] at he
      have hne : entry.id ≠ guard.id := by simpa using he.2
      rcases List.mem_cons.mp (hlive.mem_iff.mp (h.entries entry he.1)) with rfl | hmem
      · exact absurd rfl hne
      · exact hmem
    · rw [hentries]
      exact h.once.filter _
    · rw [hentries, List.mem_filter]
      refine ⟨h.held other (hsub hmem) (hnever hn), ?_⟩
      have hne : other.id ≠ guard.id := fun heq => hdistinct.1 (List.mem_map.mpr ⟨other, hmem, heq⟩)
      simpa using hne
  | @dispatched _ signal alive hlive hentries hid =>
    refine ⟨hlive ▸ h.distinct, fun guard hg => ?_, fun entry he => ?_, ?_, fun guard hg hn => ?_⟩
    · rw [hid]
      exact h.drawn guard (hlive ▸ hg)
    · rw [hentries, List.mem_filter] at he
      rw [hlive]
      exact h.entries entry he.1
    · rw [hentries]
      exact h.once.filter _
    · rw [hentries, List.mem_filter]
      refine ⟨h.held guard (hlive ▸ hg) (hnever hn), ?_⟩
      simpa using (neverDead_snoc.mp hn).2 signal alive htold

theorem inv_run (h : Run Step {} τ s) : Inv τ s := h.inv_history inv_init fun _ _ _ _ hinv hstep => hinv.step hstep

/-- The entries of the registry are guards that somebody holds, no two of them with one id, and each guard that is held is
among them unless its actor was found dead before: dropping a guard takes nobody else out. A step that hands out a signal,
by the dispatcher or by a call, calls each entry with it once, in their order, and no other step calls anyone. -/
theorem registry_holds_guards (h : Run Step {} τ s) :
    s.entries.Nodup ∧ (s.live.map (·.id)).Nodup ∧ (∀ entry ∈ s.entries, entry ∈ s.live) ∧
      (∀ guard ∈ s.live, NeverDead τ guard.actor → s.entries.count guard = 1) ∧
      ∀ a s', Step s a s' →
        s'.calls = s.calls ++ (told (s, a)).elim [] fun handed => s.entries.map fun entry => (entry, handed.1) := by
  have hinv := inv_run h
  refine ⟨hinv.once, hinv.distinct, hinv.entries, fun guard hg hn => ?_, fun a s' hstep => calls_step hstep⟩
  exact List.count_eq_one_of_mem hinv.once (hinv.held guard hg hn)

/-! ## The dispatcher -/

/-- A step of an application, case by case. -/
inductive AppMove (s : Process) (app : Application) : Application → Prop
  | spawns (hpc : app.pc = .spawnDispatcher) : AppMove s app { app with pc := .register 0 }
  | registers {k : Nat} {actor : ActorId} (hpc : app.pc = .register k) (hk : app.roots[k]? = some actor) :
      AppMove s app { app with guards := app.guards ++ [⟨s.nextId, actor⟩], pc := .register (k + 1) }
  | starts {k : Nat} (hpc : app.pc = .register k) (hk : app.roots[k]? = none) : AppMove s app { app with pc := .waitExit 0 }
  | waits {k : Nat} {actor : ActorId} (hpc : app.pc = .waitExit k) (hk : app.roots[k]? = some actor)
      (hexited : actor ∈ s.exited) : AppMove s app { app with pc := .waitExit (k + 1) }
  | returns {k : Nat} (hpc : app.pc = .waitExit k) (hk : app.roots[k]? = none) :
      AppMove s app { app with pc := .dropNode, ran := true }
  | tells {thread : Nat} (hpc : app.pc = .dropNode) (hjoined : app.joined = some thread) :
      AppMove s app { app with pc := .joinNode thread }
  | passes (hpc : app.pc = .dropNode) (hjoined : app.joined = none) : AppMove s app { app with pc := .dropGuards }
  | joins {thread : Nat} (hpc : app.pc = .joinNode thread) (hfinished : thread ∈ s.finished) :
      AppMove s app { app with pc := .dropGuards }
  | drops {guard : SignalGuard} {guards : List SignalGuard} (hpc : app.pc = .dropGuards)
      (hguards : app.guards = guard :: guards) : AppMove s app { app with guards }
  | ends (hpc : app.pc = .dropGuards) (hguards : app.guards = []) : AppMove s app { app with pc := .ended }

/-- What no step undoes: an actor has exited, the thread of a node was told to shut down, or has ended. -/
structure Grown (s s' : Process) : Prop where
  exited : s.exited ⊆ s'.exited
  shutdown : s.shutdown ⊆ s'.shutdown
  finished : s.finished ⊆ s'.finished

theorem Grown.of_eq (he : s'.exited = s.exited) (hs : s'.shutdown = s.shutdown) (hf : s'.finished = s.finished) :
    Grown s s' :=
  ⟨he ▸ List.Subset.refl _, hs ▸ List.Subset.refl _, hf ▸ List.Subset.refl _⟩

theorem apps_spawned (s : Process) : s.spawned.apps = s.apps ∧ Grown s s.spawned := by
  rcases spawned_cases s with he | he
  · rw [he]
    exact ⟨rfl, .of_eq rfl rfl rfl⟩
  · rw [he]
    exact ⟨rfl, .of_eq rfl rfl rfl⟩

theorem appStep_moves (h : s.appStep j app = some s') :
    ∃ app', AppMove s app app' ∧ s'.apps = s.apps.set j app' ∧ Grown s s' ∧
      ∀ thread, app'.pc = .joinNode thread → thread ∈ s'.shutdown := by
  unfold appStep at h
  split at h
  case h_1 hpc =>
    cases h
    obtain ⟨happs, hgrown⟩ := apps_spawned s
    refine ⟨_, .spawns hpc, ?_, ⟨hgrown.exited, hgrown.shutdown, hgrown.finished⟩, by simp⟩
    rw [← happs]
    rfl
  case h_2 k hpc =>
    split at h
    case h_1 actor hk =>
      cases h
      exact ⟨_, .registers hpc hk, rfl, .of_eq rfl rfl rfl, by simp⟩
    case h_2 hk =>
      cases h
      exact ⟨_, .starts hpc hk, rfl, .of_eq rfl rfl rfl, by simp⟩
  case h_3 k hpc =>
    split at h
    case h_1 actor hk =>
      obtain ⟨hexited, h⟩ := Option.ite_none_right_eq_some.mp h
      cases h
      exact ⟨_, .waits hpc hk hexited, rfl, .of_eq rfl rfl rfl, by simp⟩
    case h_2 hk =>
      cases h
      exact ⟨_, .returns hpc hk, rfl, .of_eq rfl rfl rfl, by simp⟩
  case h_4 hpc =>
    split at h
    case h_1 thread hjoined =>
      cases h
      refine ⟨_, .tells hpc hjoined, rfl, ⟨List.Subset.refl _, List.subset_cons_self .., List.Subset.refl _⟩, ?_⟩
      intro other hother
      cases hother
      exact List.mem_cons_self
    case h_2 hjoined =>
      cases h
      exact ⟨_, .passes hpc hjoined, rfl, .of_eq rfl rfl rfl, by simp⟩
  case h_5 thread hpc =>
    obtain ⟨hfinished, h⟩ := Option.ite_none_right_eq_some.mp h
    cases h
    exact ⟨_, .joins hpc hfinished, rfl, .of_eq rfl rfl rfl, by simp⟩
  case h_6 hpc =>
    split at h
    case h_1 guard guards hguards =>
      cases h
      exact ⟨_, .drops hpc hguards, rfl, .of_eq rfl rfl rfl, by simp [hpc]⟩
    case h_2 hguards =>
      cases h
      exact ⟨_, .ends hpc hguards, rfl, .of_eq rfl rfl rfl, by simp⟩
  case h_7 => cases h

/-- A step of application `j`. -/
def isOf (j : Nat) (x : Process × ProcessAct) : Bool := x.2 == .app j

/-- What a step does to the applications. -/
theorem apps_step (h : Step s a s') :
    Grown s s' ∧
      ((s'.apps = s.apps ∧ ∀ j, isOf j (s, a) = false) ∨
        (∃ node roots, s'.apps = s.apps ++ [Application.started node roots] ∧ ∀ j, isOf j (s, a) = false) ∨
        (∃ j app k, s.apps[j]? = some app ∧ app.pc = .waitExit k ∧ s'.apps = s.apps.set j { app with pc := .dropNode } ∧
          ∀ j, isOf j (s, a) = false) ∨
        ∃ j app app', a = .app j ∧ s.apps[j]? = some app ∧ AppMove s app app' ∧ s'.apps = s.apps.set j app' ∧
          ∀ thread, app'.pc = .joinNode thread → thread ∈ s'.shutdown) := by
  unfold Step at h
  cases a with
  | start node roots =>
    cases h
    exact ⟨.of_eq rfl rfl rfl, Or.inr (Or.inl ⟨node, roots, rfl, fun _ => rfl⟩)⟩
  | app j =>
    obtain ⟨app, hj, h⟩ := Option.bind_eq_some_iff.mp h
    obtain ⟨app', hmove, happs, hgrown, htold⟩ := appStep_moves h
    exact ⟨hgrown, Or.inr (Or.inr (Or.inr ⟨j, app, app', rfl, hj, hmove, happs, htold⟩))⟩
  | dropApp j =>
    obtain ⟨app, hj, h⟩ := Option.bind_eq_some_iff.mp h
    split at h
    case h_1 k hpc =>
      cases h
      exact ⟨.of_eq rfl rfl rfl, Or.inr (Or.inr (Or.inl ⟨j, app, k, hj, hpc, rfl, fun _ => rfl⟩))⟩
    case h_2 => cases h
  | exit actor =>
    cases h
    exact ⟨⟨List.subset_cons_self .., List.Subset.refl _, List.Subset.refl _⟩, Or.inl ⟨rfl, fun _ => rfl⟩⟩
  | threadEnd thread =>
    cases h
    exact ⟨⟨List.Subset.refl _, List.Subset.refl _, List.subset_cons_self ..⟩, Or.inl ⟨rfl, fun _ => rfl⟩⟩
  | osSignal signal =>
    obtain ⟨-, h⟩ := Option.ite_none_right_eq_some.mp h
    cases h
    exact ⟨.of_eq rfl rfl rfl, Or.inl ⟨rfl, fun _ => rfl⟩⟩
  | osDispatch alive =>
    simp only [next] at h
    split at h
    case h_1 =>
      cases h
      exact ⟨.of_eq rfl rfl rfl, Or.inl ⟨rfl, fun _ => rfl⟩⟩
    case h_2 => cases h
  | spawnDispatcher =>
    cases h
    exact ⟨(apps_spawned s).2, Or.inl ⟨(apps_spawned s).1, fun _ => rfl⟩⟩
  | dropGuard guard =>
    obtain ⟨-, h⟩ := Option.ite_none_right_eq_some.mp h
    cases h
    exact ⟨.of_eq rfl rfl rfl, Or.inl ⟨rfl, fun _ => rfl⟩⟩
  | dispatch | register =>
    cases h
    exact ⟨.of_eq rfl rfl rfl, Or.inl ⟨rfl, fun _ => rfl⟩⟩

/-- Its guards are for its roots in their order, and it is past the roots that have exited. Its guards stay until the thread
of its node, told to shut down, has ended. -/
structure AppInv (s : Process) (app : Application) : Prop where
  registering : ∀ k, app.pc = .register k → app.guards.map (·.actor) = app.roots.take k
  spawning : app.pc = .spawnDispatcher → app.guards = []
  waiting : ∀ k, app.pc = .waitExit k → app.guards.map (·.actor) = app.roots ∧ ∀ actor ∈ app.roots.take k, actor ∈ s.exited
  dropping : app.pc = .dropNode → app.guards.map (·.actor) = app.roots
  joining : ∀ thread, app.pc = .joinNode thread →
    app.guards.map (·.actor) = app.roots ∧ app.joined = some thread ∧ thread ∈ s.shutdown
  guards : app.guards.length ≤ app.roots.length
  joined : app.pc = .dropGuards ∨ app.pc = .ended → ∀ thread, app.joined = some thread →
    thread ∈ s.shutdown ∧ thread ∈ s.finished
  ended : app.pc = .ended → app.guards = []
  ran : app.ran = true → ∀ actor ∈ app.roots, actor ∈ s.exited

theorem AppInv.mono (h : AppInv s app) (hgrown : Grown s s') : AppInv s' app where
  registering := h.registering
  spawning := h.spawning
  waiting k hk := ⟨(h.waiting k hk).1, fun actor ha => hgrown.exited ((h.waiting k hk).2 actor ha)⟩
  dropping := h.dropping
  joining thread ht :=
    have hjoining := h.joining thread ht
    ⟨hjoining.1, hjoining.2.1, hgrown.shutdown hjoining.2.2⟩
  guards := h.guards
  joined hpc thread ht :=
    have hjoined := h.joined hpc thread ht
    ⟨hgrown.shutdown hjoined.1, hgrown.finished hjoined.2⟩
  ended := h.ended
  ran hran actor ha := hgrown.exited (h.ran hran actor ha)

theorem appInv_started (s : Process) (node : Option ClusterBackend) (roots : List ActorId) :
    AppInv s (Application.started node roots) := by
  unfold Application.started
  cases roots with
  | nil => constructor <;> simp
  | cons actor roots => constructor <;> simp

theorem take_succ_of_getElem? {l : List ActorId} {k : Nat} {actor : ActorId} (hk : l[k]? = some actor) :
    l.take (k + 1) = l.take k ++ [actor] := by
  rw [List.take_add_one, hk, Option.toList_some]

theorem take_of_getElem?_none {l : List ActorId} {k : Nat} (hk : l[k]? = none) : l.take k = l :=
  List.take_of_length_le (List.getElem?_eq_none_iff.mp hk)

theorem AppInv.move (h : AppInv s app) {app' : Application} (hmove : AppMove s app app') (hgrown : Grown s s')
    (htold : ∀ thread, app'.pc = .joinNode thread → thread ∈ s'.shutdown) : AppInv s' app' := by
  have h := h.mono hgrown
  have hran := h.ran
  have hlen := h.guards
  cases hmove with
  | spawns hpc =>
    exact ⟨by simp [h.spawning hpc], by simp, by simp, by simp, by simp, hlen, by simp, by simp, hran⟩
  | @registers k actor hpc hk =>
    let guard : SignalGuard := ⟨s.nextId, actor⟩
    have hguards : (app.guards ++ [guard]).map (·.actor) = app.roots.take (k + 1) := by
      rw [List.map_append, h.registering k hpc, take_succ_of_getElem? hk, List.map_singleton]
    refine ⟨fun k' hk' => ?_, by simp, by simp, by simp, by simp, ?_, by simp, by simp, hran⟩
    · cases hk'
      exact hguards
    · have hlength := congrArg List.length hguards
      rw [List.length_map, List.length_take] at hlength
      show (app.guards ++ [guard]).length ≤ app.roots.length
      omega
  | @starts k hpc hk =>
    have hguards := (h.registering k hpc).trans (take_of_getElem?_none hk)
    refine ⟨by simp, by simp, fun k' hk' => ⟨hguards, ?_⟩, by simp, by simp, hlen, by simp, by simp, hran⟩
    cases hk'
    simp
  | @waits k actor hpc hk hexited =>
    obtain ⟨hguards, hpast⟩ := h.waiting k hpc
    refine ⟨by simp, by simp, fun k' hk' => ⟨hguards, fun other ho => ?_⟩, by simp, by simp, hlen, by simp, by simp, hran⟩
    cases hk'
    rw [take_succ_of_getElem? hk] at ho
    rcases List.mem_append.mp ho with ho | ho
    · exact hpast other ho
    · rw [List.mem_singleton.mp ho]
      exact hgrown.exited hexited
  | @returns k hpc hk =>
    obtain ⟨hguards, hpast⟩ := h.waiting k hpc
    rw [take_of_getElem?_none hk] at hpast
    exact ⟨by simp, by simp, by simp, fun _ => hguards, by simp, hlen, by simp, by simp, fun _ => hpast⟩
  | @tells thread hpc hjoined =>
    refine ⟨by simp, by simp, by simp, by simp, fun other ho => ?_, hlen, by simp, by simp, hran⟩
    cases ho
    exact ⟨h.dropping hpc, hjoined, htold thread rfl⟩
  | passes hpc hjoined =>
    refine ⟨by simp, by simp, by simp, by simp, by simp, hlen, fun _ thread ht => ?_, by simp, hran⟩
    cases hjoined.symm.trans ht
  | @joins thread hpc hfinished =>
    obtain ⟨-, hjoined, hshutdown⟩ := h.joining thread hpc
    refine ⟨by simp, by simp, by simp, by simp, by simp, hlen, fun _ other ho => ?_, by simp, hran⟩
    cases hjoined.symm.trans ho
    exact ⟨hshutdown, hgrown.finished hfinished⟩
  | @drops guard guards hpc hguards =>
    refine ⟨by simp [hpc], by simp [hpc], by simp [hpc], by simp [hpc], by simp [hpc], ?_, fun _ => h.joined (Or.inl hpc),
      by simp [hpc], hran⟩
    rw [hguards, List.length_cons] at hlen
    exact Nat.le_of_succ_le hlen
  | ends hpc hguards =>
    exact ⟨by simp, by simp, by simp, by simp, by simp, hlen, fun _ => h.joined (Or.inl hpc), fun _ => hguards, hran⟩

theorem AppMove.left_lt (h : AppInv s app) {app' : Application} (hmove : AppMove s app app') :
    app'.roots = app.roots ∧ app'.left < app.left := by
  have hle := h.guards
  have hlt : ∀ {k : Nat} {actor : ActorId}, app.roots[k]? = some actor → k < app.roots.length :=
    fun hk => (List.getElem?_eq_some_iff.mp hk).1
  cases hmove with
  | registers hpc hk | waits hpc hk =>
    have hk := hlt hk
    simp only [Application.left, hpc, true_and]
    omega
  | spawns hpc | starts hpc | returns hpc | tells hpc | passes hpc | joins hpc | ends hpc =>
    simp only [Application.left, hpc, true_and]
    omega
  | drops hpc hguards =>
    simp only [Application.left, hpc, hguards, List.length_cons, true_and]
    omega

/-- What holds of all applications, and how many steps each of them has taken. -/
structure AppsInv (τ : List (Process × ProcessAct)) (s : Process) : Prop where
  each : ∀ (j : Nat) (app : Application), s.apps[j]? = some app →
    AppInv s app ∧ τ.countP (isOf j) + app.left ≤ 3 * app.roots.length + 6
  unborn : ∀ j, s.apps.length ≤ j → τ.countP (isOf j) = 0

theorem countP_isOf_snoc (j : Nat) (x : Process × ProcessAct) :
    (τ ++ [x]).countP (isOf j) = τ.countP (isOf j) + if isOf j x then 1 else 0 := by
  rw [List.countP_append, List.countP_singleton]

/-- An application changes without a step of its own. -/
theorem AppsInv.set (h : AppsInv τ s) (hno : ∀ j, isOf j (s, a) = false) (hgrown : Grown s s') {app' : Application}
    (happs : s'.apps = s.apps.set j app') (hj : s.apps[j]? = some app) (hinv : AppInv s app')
    (hroots : app'.roots = app.roots) (hleft : app'.left ≤ app.left) : AppsInv (τ ++ [(s, a)]) s' := by
  refine ⟨fun i other hi => ?_, fun i hi => ?_⟩
  · rw [happs] at hi
    rw [countP_isOf_snoc, hno i, if_neg (by simp), Nat.add_zero]
    rcases getElem?_set_cases hj hi with ⟨rfl, rfl⟩ | ⟨-, hi⟩
    · have hcount := (h.each i app hj).2
      refine ⟨hinv.mono hgrown, ?_⟩
      rw [hroots]
      omega
    · exact ⟨(h.each i other hi).1.mono hgrown, (h.each i other hi).2⟩
  · rw [countP_isOf_snoc, hno i, if_neg (by simp), Nat.add_zero]
    exact h.unborn i (by simpa [happs] using hi)

theorem AppsInv.step (h : AppsInv τ s) (hstep : Step s a s') : AppsInv (τ ++ [(s, a)]) s' := by
  obtain ⟨hgrown, ⟨happs, hno⟩ | ⟨node, roots, happs, hno⟩ | ⟨j, app, k, hj, hpc, happs, hno⟩ |
    ⟨j, app, app', rfl, hj, hmove, happs, htold⟩⟩ := apps_step hstep
  · refine ⟨fun i app hi => ?_, fun i hi => ?_⟩
    · rw [countP_isOf_snoc, hno i, if_neg (by simp), Nat.add_zero]
      rw [happs] at hi
      exact ⟨(h.each i app hi).1.mono hgrown, (h.each i app hi).2⟩
    · rw [countP_isOf_snoc, hno i, if_neg (by simp), Nat.add_zero]
      exact h.unborn i (happs ▸ hi)
  · refine ⟨fun i app hi => ?_, fun i hi => ?_⟩
    · rw [countP_isOf_snoc, hno i, if_neg (by simp), Nat.add_zero]
      rw [happs] at hi
      rcases getElem?_snoc_cases hi with hi | ⟨rfl, rfl⟩
      · exact ⟨(h.each i app hi).1.mono hgrown, (h.each i app hi).2⟩
      · refine ⟨appInv_started _ _ _, ?_⟩
        rw [h.unborn _ (Nat.le_refl _)]
        unfold Application.started Application.left
        cases roots <;> simp
    · rw [countP_isOf_snoc, hno i, if_neg (by simp), Nat.add_zero]
      refine h.unborn i ?_
      rw [happs, List.length_append] at hi
      omega
  · have hinv := (h.each j app hj).1
    obtain ⟨hguards, -⟩ := hinv.waiting k hpc
    refine h.set hno hgrown happs hj ?_ rfl ?_
    · exact ⟨by simp, by simp, by simp, fun _ => hguards, by simp, hinv.guards, by simp, by simp, hinv.ran⟩
    · have hle := hinv.guards
      simp only [Application.left, hpc]
      omega
  · have hinv := (h.each j app hj).1
    obtain ⟨hroots, hlt⟩ := hmove.left_lt hinv
    refine ⟨fun i other hi => ?_, fun i hi => ?_⟩
    · rw [happs] at hi
      rw [countP_isOf_snoc]
      rcases getElem?_set_cases hj hi with ⟨rfl, rfl⟩ | ⟨hne, hi⟩
      · have hcount := (h.each i app hj).2
        refine ⟨hinv.move hmove hgrown htold, ?_⟩
        rw [hroots, if_pos (by simp [isOf])]
        omega
      · rw [if_neg (by simpa [isOf] using Ne.symm hne), Nat.add_zero]
        exact ⟨(h.each i other hi).1.mono hgrown, (h.each i other hi).2⟩
    · have hlen : s.apps.length ≤ i := by simpa [happs] using hi
      have hne : i ≠ j := by
        have := (List.getElem?_eq_some_iff.mp hj).1
        omega
      rw [countP_isOf_snoc, if_neg (by simpa [isOf] using Ne.symm hne), Nat.add_zero]
      exact h.unborn i hlen

theorem appsInv_run (h : Run Step {} τ s) : AppsInv τ s :=
  h.inv_history ⟨by simp, by simp⟩ fun _ _ _ _ hinv hstep => hinv.step hstep

/-- An application goes on unless it waits for a root that has not exited, or the drop of its node for the thread. -/
theorem app_goes_on (hj : s.apps[j]? = some app) (hpc : app.pc ≠ .ended) (hexited : ∀ actor ∈ app.roots, actor ∈ s.exited)
    (hfinished : ∀ thread, app.pc = .joinNode thread → thread ∈ s.finished) : (s.next (.app j)).isSome = true := by
  simp only [next, hj, Option.bind_some, appStep]
  split
  case h_1 => rfl
  case h_2 => split <;> rfl
  case h_3 =>
    split
    case h_1 actor hk => rw [if_pos (hexited actor (List.mem_of_getElem? hk)), Option.isSome_some]
    case h_2 => rfl
  case h_4 => split <;> rfl
  case h_5 thread hjoin => rw [if_pos (hfinished thread hjoin), Option.isSome_some]
  case h_6 => split <;> rfl
  case h_7 hended => exact absurd hended hpc

/-- When `run` has returned, all roots have exited; while it waits, or its node is being dropped, each root has a guard; and
when the application is gone, the thread of its node was told to shut down and has ended, and its guards are gone too. It
takes a bounded number of steps in all, and waits for nothing but its roots and then that thread. -/
theorem run_waits_for_roots (h : Run Step {} τ s) (hj : s.apps[j]? = some app) :
    (app.ran = true → ∀ actor ∈ app.roots, actor ∈ s.exited) ∧
      ((∃ k, app.pc = .waitExit k) ∨ app.pc = .dropNode ∨ (∃ thread, app.pc = .joinNode thread) →
        app.guards.map (·.actor) = app.roots) ∧
      (app.pc = .ended → app.guards = [] ∧
        ∀ thread, app.joined = some thread → thread ∈ s.shutdown ∧ thread ∈ s.finished) ∧
      τ.countP (isOf j) ≤ 3 * app.roots.length + 6 ∧
      (∀ thread, app.pc = .joinNode thread → app.joined = some thread ∧ thread ∈ s.shutdown) ∧
      (app.pc ≠ .ended → (∀ actor ∈ app.roots, actor ∈ s.exited) →
        (∀ thread, app.pc = .joinNode thread → thread ∈ s.finished) → (s.next (.app j)).isSome = true) := by
  obtain ⟨hinv, hcount⟩ := (appsInv_run h).each j app hj
  refine ⟨hinv.ran, ?_, fun hpc => ⟨hinv.ended hpc, hinv.joined (Or.inr hpc)⟩, by omega,
    fun thread ht => (hinv.joining thread ht).2, app_goes_on hj⟩
  rintro (⟨k, hk⟩ | hpc | ⟨thread, ht⟩)
  · exact (hinv.waiting k hk).1
  · exact hinv.dropping hpc
  · exact (hinv.joining thread ht).1

/-! ## Two applications and one signal -/

/-- The first application, with a node, gets the signal; the second is started after it. -/
def twoApplications : List ProcessAct :=
  [.start (some (.libp2p 7)) [1, 2], .app 0, .app 0, .app 0, .app 0, .osSignal .ctrlC, .osDispatch [1], .start none [3],
    .app 1, .app 1, .app 1, .exit 2, .exit 1, .app 0, .app 0, .app 0, .app 0]

theorem registry_holds_guards_of_two :
    ∃ τ s, Run Step {} τ s ∧ s.entries = [⟨1, 1⟩, ⟨3, 3⟩] ∧ s.entries.Nodup ∧
      s.calls = [(⟨1, 1⟩, .ctrlC), (⟨2, 2⟩, .ctrlC)] := by
  have hrun := run_tryPlay next {} twoApplications (by decide)
  exact ⟨_, _, hrun, by decide, (registry_holds_guards hrun).1, by decide⟩

theorem run_waits_for_roots_of_two :
    ∃ τ s app, Run Step {} τ s ∧ s.apps[0]? = some app ∧ app.ran = true ∧ (∀ actor ∈ app.roots, actor ∈ s.exited) ∧
      app.pc = .joinNode 7 ∧ app.guards.map (·.actor) = app.roots := by
  have hrun := run_tryPlay next {} twoApplications (by decide)
  have happ : ((tryPlay next {} twoApplications).get (by decide)).2.apps[0]? =
      some ⟨some (.libp2p 7), [1, 2], [⟨1, 1⟩, ⟨2, 2⟩], .joinNode 7, true⟩ := by decide
  have hwaits := run_waits_for_roots hrun happ
  exact ⟨_, _, _, hrun, by decide, rfl, hwaits.1 rfl, rfl, hwaits.2.1 (Or.inr (Or.inr ⟨7, rfl⟩))⟩

end Process

end Spawned
