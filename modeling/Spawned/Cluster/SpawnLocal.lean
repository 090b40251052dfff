import Spawned.Supervisor.Machine

/-!
# Starting a child from a spec, here or on its placement node

`start_child` runs the start closure of a spec: it starts the actor and joins it to the spec's process group. A remote
child is started on its placement node instead, from the wire form of its spec: `spawn_local` finds the worker type or
the named spec registered there, merges the overrides of a named spec into the registered template, and starts that.

* `ChildSpec.startChild`, `spawnLocal` : programs whose calls start actors and join groups;
* `joined_startChild` : a local start joins the group of its spec and no other;
* `applyOverrides_pgMembership` : the membership the wire carries replaces the template's;
* `SpawnsFrom` : every remote spawn a static supervisor requests, first or again, carries the wire form of one of its
  specs, linked (`spawnsFrom_of_lives`);
* `remote_start_joins_iff` : a worker's membership is lost on the wire, that of a named spec is not.
-/

namespace Spawned

open Lib

/-! ## The calls of a start -/

/-- The calls of a start. A `start` is answered with the new actor, or with nothing when starting it panics. -/
inductive SpawnOp
  /-- start the actor, linked to `parent` if there is one -/
  | start (parent : Option ChildHandle) (mailbox : MailboxConfig)
  /-- `pg::join_scoped(scope, group, actor.child_handle())` -/
  | join (pg : PgMembership) (handle : ChildHandle)
  /-- `pg::typed_join(scope, group, actor.id(), actor)` -/
  | typedJoin (pg : PgMembership) (handle : ChildHandle)
  /-- `postcard::from_bytes` at the type the worker was registered with -/
  | decodeInit (workerType : String) (init : List UInt8)
  /-- the factory registered under this name -/
  | factory (name : String)
  /-- `Handle::try_current().is_ok()` -/
  | tryCurrent
  /-- `TASKS_RUNTIME.get().is_some()` -/
  | tasksRuntime
  /-- a panic leaves `spawn_local` -/
  | unwind
deriving DecidableEq

abbrev SpawnOp.Ans : SpawnOp → Type
  | .start _ _ => Option ChildHandle
  | .join _ _ | .typedJoin _ _ => Unit
  | .decodeInit _ _ => Except String Unit
  | .factory _ => ChildSpec
  | .tryCurrent | .tasksRuntime => Bool
  | .unwind => Empty

abbrev SpawnProg := Prog SpawnOp SpawnOp.Ans

abbrev SpawnTrace := Trace SpawnOp SpawnOp.Ans

/-- Make one call. -/
abbrev perform (e : SpawnOp) : SpawnProg e.Ans := Prog.op e

/-- `join_scoped` of the typed process groups. -/
def joinScoped (pg : PgMembership) (handle : ChildHandle) : SpawnProg Unit := do
  perform (.join pg handle)
  perform (.typedJoin pg handle)

/-- `start_child`: the start closure of the spec. That of a remote spec is `unreachable_start`, which panics. -/
def ChildSpec.startChild (spec : ChildSpec) (parent : ChildHandle) : SpawnProg (Option ChildHandle) :=
  match spec.remote with
  | some _ => pure none
  | none => do
    match ← perform (.start (some parent) spec.mailbox) with
    | none => pure none
    | some handle => do
      match spec.pgMembership with
      | some pg => joinScoped pg handle
      | none => pure ()
      pure (some handle)

/-! ## The placement node -/

/-- What is registered on a node for one runtime: the closures are told apart by their names. -/
structure RuntimeRegistry where
  workers : List String := []
  namedSpecs : List String := []

structure RemoteSpawnStore where
  tasks : RuntimeRegistry := {}
  threads : RuntimeRegistry := {}

/-- Run `start` on the installed tasks runtime; a panic there only closes the channel. -/
def dispatchTasksSpawn (start : SpawnProg (Option ChildHandle)) : SpawnProg (Except String ChildHandle) := do
  if ← perform .tasksRuntime then
    match ← start with
    | some handle => pure (.ok handle)
    | none => pure (.error "remote worker spawn failed: receiving on a closed channel")
  else
    pure (.error "tasks runtime not installed for remote spawn")

/-- Run `start` on this thread, where a panic unwinds. -/
def startHere (start : SpawnProg (Option ChildHandle)) : SpawnProg (Except String ChildHandle) := do
  match ← start with
  | some handle => pure (.ok handle)
  | none => do
    let never ← perform .unwind
    nomatch never

def startOnRuntime (start : SpawnProg (Option ChildHandle)) : SpawnProg (Except String ChildHandle) := do
  if ← perform .tryCurrent then startHere start else dispatchTasksSpawn start

/-- The start of a decoded worker. -/
def startWorker (parent : Option ChildHandle) : SpawnProg (Option ChildHandle) :=
  match parent with
  | some parent => perform (.start (some parent) .defaultWorker)
  | none => perform (.start none .unbounded)

/-- The closure `tasks::register_remote_worker` registers. -/
def Tasks.remoteWorker (workerType : String) (init : List UInt8) (parent : Option ChildHandle) :
    SpawnProg (Except String ChildHandle) := do
  match ← perform (.decodeInit workerType init) with
  | .error e => pure (.error ("decode init: " ++ e))
  | .ok _ => startOnRuntime (startWorker parent)

/-- The closure `threads::register_remote_worker` registers. -/
def Threads.remoteWorker (workerType : String) (init : List UInt8) (parent : Option ChildHandle) :
    SpawnProg (Except String ChildHandle) := do
  match ← perform (.decodeInit workerType init) with
  | .error e => pure (.error ("decode init: " ++ e))
  | .ok _ => startHere (startWorker parent)

def spawnWorker (store : RemoteSpawnStore) (workerType : String) (init : List UInt8) (link : Bool)
    (parent : Option ChildHandle) : SpawnProg (Except String ChildHandle) :=
  let parentForLink := if link then parent else none
  if workerType ∈ store.tasks.workers then Tasks.remoteWorker workerType init parentForLink
  else if workerType ∈ store.threads.workers then Threads.remoteWorker workerType init parentForLink
  else pure (.error ("unknown worker type: " ++ workerType))

def resolveNamedSpec (store : RemoteSpawnStore) (name : String) : SpawnProg (Except String (ChildSpec × Runtime)) :=
  if name ∈ store.tasks.namedSpecs then do
    let spec ← perform (.factory name)
    pure (.ok (spec, .tasks))
  else if name ∈ store.threads.namedSpecs then do
    let spec ← perform (.factory name)
    pure (.ok (spec, .threads))
  else pure (.error ("unknown named spec: " ++ name))

def applyOverrides (spec : ChildSpec) (overrides : RemoteSpecOverrides) : ChildSpec :=
  let spec := match overrides.restart with
    | some restart => { spec with restart := restart }
    | none => spec
  match overrides.pgScope, overrides.pgGroup with
  | some scope, some group => { spec with pgMembership := some { scope, group } }
  | _, _ => spec

def spawnNamedSpec (store : RemoteSpawnStore) (name : String) (overrides : RemoteSpecOverrides) (link : Bool)
    (parent : Option ChildHandle) : SpawnProg (Except String ChildHandle) :=
  match parent with
  | none => pure (.error "named remote spec requires link=true (parent handle)")
  | some parent =>
    if !link then pure (.error "named remote spec requires link=true")
    else do
      match ← resolveNamedSpec store name with
      | .error e => pure (.error e)
      | .ok (inner, runtime) =>
        let inner := applyOverrides inner overrides
        match runtime with
        | .tasks => dispatchTasksSpawn (inner.startChild parent)
        | .threads => startHere (inner.startChild parent)

/-- Spawn a child on this node from a wire spec. -/
def spawnLocal (store : RemoteSpawnStore) (spec : RemoteSpawnSpec) (link : Bool) (parent : Option ChildHandle) :
    SpawnProg (Except String ChildHandle) :=
  match spec with
  | .worker workerType init => spawnWorker store workerType init link parent
  | .namedSpec name overrides => spawnNamedSpec store name overrides link parent

/-! ## What a start joins -/

/-- The memberships the calls took out, and for which actor. -/
def joins (τ : SpawnTrace) : List (PgMembership × ChildHandle) :=
  τ.filterMap fun call =>
    match call.op with
    | .join pg handle => some (pg, handle)
    | _ => none

/-- Those of them for typed dispatch. -/
def typedJoins (τ : SpawnTrace) : List (PgMembership × ChildHandle) :=
  τ.filterMap fun call =>
    match call.op with
    | .typedJoin pg handle => some (pg, handle)
    | _ => none

/-- The calls joined `handle` to the group of `pg` and to no other; to none where there is no `pg`. -/
def JoinedExactly (pg : Option PgMembership) (handle : ChildHandle) (τ : SpawnTrace) : Prop :=
  joins τ = pg.toList.map (·, handle) ∧ typedJoins τ = pg.toList.map (·, handle)

/-- The call joins no group. -/
def Unjoining (e : SpawnOp) : Prop := (∀ pg handle, e ≠ .join pg handle) ∧ ∀ pg handle, e ≠ .typedJoin pg handle

section Joins

variable {spec : ChildSpec} {store : RemoteSpawnStore} {parent : Option ChildHandle} {handle : ChildHandle}
  {τ : SpawnTrace} {link : Bool} {start : SpawnProg (Option ChildHandle)}

theorem joinedExactly_cons {pg : Option PgMembership} {e : SpawnOp} {x : e.Ans} (he : Unjoining e) :
    JoinedExactly pg handle (⟨e, x⟩ :: τ) ↔ JoinedExactly pg handle τ := by
  obtain ⟨hj, ht⟩ := he
  cases e with
  | join pg' handle' => exact absurd rfl (hj pg' handle')
  | typedJoin pg' handle' => exact absurd rfl (ht pg' handle')
  | _ => exact Iff.rfl

theorem joinedExactly_none (h : ∀ c ∈ τ, Unjoining c.op) : JoinedExactly none handle τ := by
  induction τ with
  | nil => exact ⟨rfl, rfl⟩
  | cons c τ ih =>
    rw [joinedExactly_cons (h c (by simp))]
    exact ih fun c hc => h c (by simp [hc])

/-- What was joined tells which membership it was. -/
theorem JoinedExactly.unique {pg pg' : Option PgMembership} (h : JoinedExactly pg handle τ)
    (h' : JoinedExactly pg' handle τ) : pg = pg' := by
  have heq := h.1.symm.trans h'.1
  cases pg with
  | none => cases pg' with
    | none => rfl
    | some m => simp at heq
  | some m => cases pg' with
    | none => simp at heq
    | some m' => simpa using heq

/-- The two calls that join an actor to a group, if there is one to join. -/
def joinCalls (pg : Option PgMembership) (handle : ChildHandle) : SpawnTrace :=
  pg.toList.flatMap fun pg => [⟨.join pg handle, ()⟩, ⟨.typedJoin pg handle, ()⟩]

/-- A local start starts the actor, then joins it. -/
theorem exec_startChild {parent : ChildHandle} (h : (spec.startChild parent).Exec τ (some handle)) :
    τ = ⟨.start (some parent) spec.mailbox, some handle⟩ :: joinCalls spec.pgMembership handle := by
  unfold ChildSpec.startChild at h
  cases hremote : spec.remote with
  | some remote =>
    rw [hremote] at h
    exact absurd h.2 (by simp)
  | none =>
    rw [hremote] at h
    obtain ⟨started, σ, rfl, h⟩ := h
    cases started with
    | none => exact absurd h.2 (by simp)
    | some child =>
      cases hpg : spec.pgMembership with
      | none =>
        simp only [hpg] at h
        obtain ⟨rfl, hc⟩ := h
        cases hc
        rfl
      | some pg =>
        simp only [hpg] at h
        obtain ⟨_, _, rfl, _, _, rfl, rfl, hc⟩ := h
        cases hc
        rfl

/-- **A local start** joins the group of its spec and no other. -/
theorem joined_startChild {parent : ChildHandle} (h : (spec.startChild parent).Exec τ (some handle)) :
    JoinedExactly spec.pgMembership handle τ := by
  rw [exec_startChild h, joinedExactly_cons (by simp [Unjoining])]
  cases spec.pgMembership with
  | none => exact ⟨rfl, rfl⟩
  | some pg => exact ⟨rfl, rfl⟩

/-- Where a start runs adds no membership. -/
theorem exec_startHere (h : (startHere start).Exec τ (.ok handle)) : start.Exec τ (some handle) := by
  obtain ⟨τ₁, started, τ₂, rfl, hstart, h⟩ := Prog.exec_bind.mp h
  cases started with
  | none =>
    obtain ⟨never, -⟩ := h
    exact nomatch never
  | some child =>
    obtain ⟨rfl, hc⟩ := h
    cases hc
    rwa [List.append_nil]

theorem exec_dispatchTasksSpawn (h : (dispatchTasksSpawn start).Exec τ (.ok handle)) :
    ∃ x σ, τ = ⟨.tasksRuntime, x⟩ :: σ ∧ start.Exec σ (some handle) := by
  replace h := Prog.exec_op_bind.mp h
  obtain ⟨installed, σ, rfl, h⟩ := h
  refine ⟨installed, σ, rfl, ?_⟩
  cases installed with
  | false => exact absurd h.2 (by simp)
  | true =>
    rw [if_pos rfl] at h
    obtain ⟨τ₁, started, τ₂, rfl, hstart, h⟩ := Prog.exec_bind.mp h
    cases started with
    | none => exact absurd h.2 (by simp)
    | some child =>
      obtain ⟨rfl, hc⟩ := h
      cases hc
      rwa [List.append_nil]

/-! ### A worker -/

theorem calls_startWorker : (startWorker parent).Calls Unjoining := by
  cases parent with
  | none => simp [startWorker, Unjoining]
  | some parent => simp [startWorker, Unjoining]

theorem calls_startHere (h : start.Calls Unjoining) : (startHere start).Calls Unjoining := by
  refine h.bind fun started => ?_
  cases started with
  | none => exact .bind (by simp [Unjoining]) fun never => nomatch never
  | some child => trivial

theorem calls_dispatchTasksSpawn (h : start.Calls Unjoining) : (dispatchTasksSpawn start).Calls Unjoining := by
  refine .bind (by simp [Unjoining]) fun installed => ?_
  cases installed with
  | false => trivial
  | true => exact h.bind fun started => by cases started <;> trivial

/-- **Spawning a worker joins no group**, whatever it is spawned with. -/
theorem calls_spawnWorker {workerType : String} {init : List UInt8} :
    (spawnWorker store workerType init link parent).Calls Unjoining := by
  simp only [spawnWorker]
  generalize (if link then parent else none) = parentForLink
  split_ifs with htasks hthreads
  · refine .bind (by simp [Unjoining]) fun decoded => ?_
    cases decoded with
    | error e => trivial
    | ok _ =>
      refine .bind (by simp [Unjoining]) fun current => ?_
      cases current with
      | false => exact calls_dispatchTasksSpawn calls_startWorker
      | true => exact calls_startHere calls_startWorker
  · refine .bind (by simp [Unjoining]) fun decoded => ?_
    cases decoded with
    | error e => trivial
    | ok _ => exact calls_startHere calls_startWorker
  · trivial

/-! ### A named spec -/

/-- The membership the wire carries replaces the template's; without one the template's stands. -/
theorem applyOverrides_pgMembership (template : ChildSpec) :
    (applyOverrides template (overridesFromSpec spec)).pgMembership =
      spec.pgMembership.or template.pgMembership := by
  cases hpg : spec.pgMembership with
  | none => simp [applyOverrides, overridesFromSpec, hpg]
  | some pg => simp [applyOverrides, overridesFromSpec, hpg]

/-- Spawning a named spec starts the template the factory gave, with the overrides applied. -/
theorem exec_spawnNamedSpec {name : String} {overrides : RemoteSpecOverrides}
    (h : (spawnNamedSpec store name overrides link parent).Exec τ (.ok handle)) :
    ∃ template, JoinedExactly (applyOverrides template overrides).pgMembership handle τ := by
  unfold spawnNamedSpec at h
  cases parent with
  | none => exact absurd h.2 (by simp)
  | some parent =>
    cases link with
    | false => exact absurd h.2 (by simp)
    | true =>
      simp only [Bool.not_true, Bool.false_eq_true, if_false] at h
      obtain ⟨τ₁, resolved, τ₂, rfl, hresolve, h⟩ := Prog.exec_bind.mp h
      unfold resolveNamedSpec at hresolve
      split_ifs at hresolve with htasks hthreads
      · obtain ⟨template, _, rfl, rfl, rfl⟩ := hresolve
        obtain ⟨x, σ, rfl, hstart⟩ := exec_dispatchTasksSpawn h
        refine ⟨template, ?_⟩
        rw [List.cons_append, List.nil_append, joinedExactly_cons (by simp [Unjoining]),
          joinedExactly_cons (by simp [Unjoining])]
        exact joined_startChild hstart
      · obtain ⟨template, _, rfl, rfl, rfl⟩ := hresolve
        refine ⟨template, ?_⟩
        rw [List.cons_append, List.nil_append, joinedExactly_cons (by simp [Unjoining])]
        exact joined_startChild (exec_startHere h)
      · obtain ⟨rfl, rfl⟩ := hresolve
        exact absurd h.2 (by simp)

/-! ### From the spec to the placement node -/

/-- The spec of a local child with the same description. -/
def ChildSpec.asLocal (spec : ChildSpec) : ChildSpec := { spec with placement := .local, remote := none }

/-- The spec names a spec registered on the placement node. -/
def ChildSpec.IsNamed (spec : ChildSpec) : Prop := ∃ name, spec.remote = some (.named name)

/-- A spec with a membership, lowered to the wire and spawned on its placement node, joins its group exactly if it names
a registered spec. -/
theorem joined_spawnLocal_iff {wire : RemoteSpawnSpec} {m : PgMembership}
    (hwire : remoteSpawnSpecFromInner spec = some wire) (hm : spec.pgMembership = some m)
    (h : (spawnLocal store wire link parent).Exec τ (.ok handle)) :
    JoinedExactly spec.pgMembership handle τ ↔ spec.IsNamed := by
  unfold remoteSpawnSpecFromInner at hwire
  cases hremote : spec.remote with
  | none => simp [hremote] at hwire
  | some remote =>
    cases remote with
    | named name =>
      obtain rfl : _ = wire := by simpa [hremote] using hwire
      obtain ⟨template, hjoined⟩ := exec_spawnNamedSpec h
      rw [applyOverrides_pgMembership, hm, Option.some_or] at hjoined
      exact ⟨fun _ => ⟨name, hremote⟩, fun _ => hm ▸ hjoined⟩
    | worker workerType init =>
      obtain rfl : _ = wire := by simpa [hremote] using hwire
      have hnone : JoinedExactly none handle τ := joinedExactly_none (calls_spawnWorker.of_exec h)
      constructor
      · intro hjoined
        have heq := hjoined.unique hnone
        rw [hm] at heq
        cases heq
      · rintro ⟨name, hname⟩
        rw [hremote] at hname
        cases hname

end Joins

/-! ## Every spawn a static supervisor requests -/

namespace Supervisor

/-- The wire spec is that of one of the specs, under its id and for its node. -/
def WireOf (specs : List ChildSpec) (id : String) (placement : NodeId) (wire : RemoteSpawnSpec) (link : Bool) : Prop :=
  ∃ spec ∈ specs, spec.id = id ∧ spec.placement = .remote placement ∧ remoteSpawnSpecFromInner spec = some wire ∧
    link = true

/-- A request to spawn remotely is made from one of the specs. -/
def SpawnsFrom (specs : List ChildSpec) (call : SupCall) : Prop :=
  ∀ id placement parent wire link, call.op = .requestSpawnWithRetry id placement parent wire link →
    WireOf specs id placement wire link

/-- What is stored for the restarts comes from the specs, and so does what is still to be started. -/
structure MetaOf (specs : List ChildSpec) (c : Conf) : Prop where
  stored : ∀ id spawned, c.sup.remoteSpawnMeta id = some spawned →
    WireOf specs id spawned.placement spawned.spec spawned.link
  todo : ∀ index rest, c.todo = .start index rest → rest ⊆ specs

section SpawnsFrom

variable {ctx : Context} {specs : List ChildSpec} {c c' : Conf} {act : Act}

theorem MetaOf.of_meta {s : Supervisor} {todo : Todo} (h : MetaOf specs c)
    (hmeta : s.remoteSpawnMeta = c.sup.remoteSpawnMeta) (htodo : ∀ index rest, todo ≠ .start index rest) :
    MetaOf specs ⟨s, todo⟩ :=
  ⟨fun id spawned hs => h.stored id spawned (hmeta ▸ hs), fun index rest hr => absurd hr (htodo index rest)⟩

/-- The start loop goes on to the next spec. -/
theorem MetaOf.next {s s' : Supervisor} {spec : ChildSpec} {rest : List ChildSpec} {index : Nat}
    (h : MetaOf specs ⟨s, .start index (spec :: rest)⟩) (hmeta : s'.remoteSpawnMeta = s.remoteSpawnMeta) :
    MetaOf specs ⟨s', .start (index + 1) rest⟩ := by
  refine ⟨fun id spawned hs => h.stored id spawned (hmeta ▸ hs), fun index' rest' hr => ?_⟩
  obtain ⟨-, rfl⟩ := Todo.start.inj hr
  exact fun x hx => h.todo _ _ rfl (List.mem_cons_of_mem _ hx)

theorem metaOf_step (h : MetaOf specs c) (hstep : Micro ctx c act c') : MetaOf specs c' := by
  cases hstep with
  | startLocal handle hspec => exact h.next rfl
  | startNoWire hspec hwire => exact h.next rfl
  | startFailed error hwire hplace => exact h.next rfl
  | @startRemote s spec rest index wire placement address hwire hplace =>
    have hnext : MetaOf specs ⟨s, .start (index + 1) rest⟩ := h.next rfl
    refine ⟨fun id spawned hs => ?_, hnext.todo⟩
    rw [remoteStarted_remoteSpawnMeta, Table.insert_apply] at hs
    split_ifs at hs with hid
    · obtain rfl := Option.some.inj hs
      exact ⟨spec, h.todo _ _ rfl (by simp), hid.symm, hplace, hwire, rfl⟩
    · exact h.stored id spawned hs
  | @relaunchFailed s id ids spawned error hmeta =>
    refine ⟨fun id' spawned' hs => ?_, fun index rest hr => nomatch hr⟩
    rw [remoteDropped_remoteSpawnMeta, Table.remove_apply] at hs
    split_ifs at hs with hid
    exact h.stored id' spawned' hs
  | _ => exact h.of_meta rfl (by simp)

/-- One transition requests only spawns of the specs. -/
theorem spawnsFrom_step (h : MetaOf specs c) (hstep : Micro ctx c act c') : ∀ call ∈ act.calls, SpawnsFrom specs call := by
  have hlocal : ∀ (handle : ChildHandle) (τ : SupTrace) (policy : ShutdownType) (reason : ExitReason),
      (shutdownChildAsync handle policy).Exec τ reason → ∀ call ∈ τ, SpawnsFrom specs call := by
    intro handle τ policy reason hτ call hcall id placement parent wire link hop
    have hon := (calls_shutdownChildAsync handle policy).of_exec hτ call hcall
    simp [OnHandle, hop] at hon
  cases hstep with
  | @startFailed s spec rest index wire placement error hwire hplace =>
    intro call hcall id placement' parent wire' link hop
    obtain rfl := List.mem_singleton.mp hcall
    cases hop
    exact ⟨spec, h.todo _ _ rfl (by simp), rfl, hplace, hwire, rfl⟩
  | @startRemote s spec rest index wire placement address hwire hplace =>
    intro call hcall id placement' parent wire' link hop
    obtain rfl := List.mem_singleton.mp hcall
    cases hop
    exact ⟨spec, h.todo _ _ rfl (by simp), rfl, hplace, hwire, rfl⟩
  | terminateLocal reason hremote hhandle hτ => exact hlocal _ _ _ _ hτ
  | @backoff s id ids delay logic hdelay =>
    intro call hcall id placement parent wire link hop
    simp only [sleepCalls] at hcall
    split_ifs at hcall with hd
    · obtain rfl := List.mem_singleton.mp hcall
      cases hop
    · cases hcall
  | @relaunchFailed s id ids spawned error hmeta =>
    intro call hcall id' placement parent wire link hop
    obtain rfl := List.mem_singleton.mp hcall
    cases hop
    exact h.stored _ _ hmeta
  | @relaunchRemote s id ids spawned address hmeta =>
    intro call hcall id' placement parent wire link hop
    obtain rfl := List.mem_singleton.mp hcall
    cases hop
    exact h.stored _ _ hmeta
  | _ => simp [SpawnsFrom]

theorem spawnsFrom_run {hist : List (Conf × Act)} (h : MetaOf specs c) (hrun : Run (Micro ctx) c hist c') :
    MetaOf specs c' ∧ ∀ call ∈ hist.flatMap (·.2.calls), SpawnsFrom specs call := by
  induction hrun with
  | nil => exact ⟨h, by simp⟩
  | @snoc hist c act c' _ hstep ih =>
    refine ⟨metaOf_step ih.1 hstep, fun call hcall => ?_⟩
    rw [List.flatMap_append, List.mem_append] at hcall
    rcases hcall with hcall | hcall
    · exact ih.2 call hcall
    · exact spawnsFrom_step ih.1 hstep call (by simpa using hcall)

/-- **Every remote spawn a supervisor requests**, the first of a child and every restart, is made from one of its specs,
linked. -/
theorem spawnsFrom_of_lives {rt : Runtime} {b : SupervisorBuilder} {τ₀ : SupTrace}
    {hist : List (Serving Supervisor × Turn Empty Empty)} {p : Serving Supervisor}
    (h : (rt.supervisor ctx).Lives b.build τ₀ hist p) :
    ∀ call ∈ τ₀ ++ hist.flatMap (·.2.calls), SpawnsFrom b.specs call := by
  have hinit : MetaOf b.specs ⟨b.build, .start 0 b.specs⟩ := by
    refine ⟨fun id spawned hs => (by cases hs), fun index rest hr => ?_⟩
    obtain ⟨-, rfl⟩ := Todo.start.inj hr
    exact fun x hx => hx
  obtain ⟨s₀, start, turns, hstart, -, hcalls₀, hturns, hcalls, -⟩ := machine_of_lives h
  obtain ⟨hmeta, hfirst⟩ := spawnsFrom_run hinit hstart
  intro call hcall
  rcases List.mem_append.mp hcall with hcall | hcall
  · obtain ⟨s, hstarted, -⟩ := h
    rw [Runtime.supervisor_eq] at hstarted
    obtain ⟨_, _, rfl, _, _, rfl, -⟩ := hstarted
    rcases List.mem_cons.mp hcall with rfl | hcall
    · exact fun _ _ _ _ _ hop => nomatch hop
    · rcases List.mem_cons.mp hcall with rfl | hcall
      · exact fun _ _ _ _ _ hop => nomatch hop
      · exact hfirst call (hcalls₀ ▸ hcall)
  · exact (spawnsFrom_run hmeta hturns).2 call (hcalls ▸ hcall)

end SpawnsFrom

/-- **Remote starts and group membership.** Every remote spawn a supervisor requests in its life, on the first start and
on every restart, comes from one of its specs. A local start of that spec joins its group; a spawn of it that succeeds on
the placement node does so exactly if the spec names a registered spec or has no membership to lose: the wire form of a
worker has no place for one. -/
theorem remote_start_joins_iff (rt : Runtime) (ctx : Context) (b : SupervisorBuilder) (τ₀ : SupTrace)
    (hist : List (Serving Supervisor × Turn Empty Empty)) (p : Serving Supervisor)
    (h : (rt.supervisor ctx).Lives b.build τ₀ hist p) (id : String) (placement : NodeId) (parent : ActorAddress)
    (wire : RemoteSpawnSpec) (link : Bool) (answer : Except RemoteSpawnError ActorAddress)
    (hcall : ⟨.requestSpawnWithRetry id placement parent wire link, answer⟩ ∈ τ₀ ++ hist.flatMap (·.2.calls)) :
    ∃ spec ∈ b.specs, spec.id = id ∧ spec.placement = .remote placement ∧ remoteSpawnSpecFromInner spec = some wire ∧
      (∀ supervisor σ handle, (spec.asLocal.startChild supervisor).Exec σ (some handle) →
        JoinedExactly spec.pgMembership handle σ) ∧
      ∀ store broker τ handle, (spawnLocal store wire link broker).Exec τ (.ok handle) →
        ((∀ m, spec.pgMembership = some m → JoinedExactly (some m) handle τ) ↔
          spec.IsNamed ∨ spec.pgMembership = none) := by
  obtain ⟨spec, hspec, hid, hplace, hwire, -⟩ := spawnsFrom_of_lives h _ hcall _ _ _ _ _ rfl
  have hlocal : ∀ supervisor σ handle, (spec.asLocal.startChild supervisor).Exec σ (some handle) →
      JoinedExactly spec.asLocal.pgMembership handle σ := fun _ _ _ hexec => joined_startChild hexec
  refine ⟨spec, hspec, hid, hplace, hwire, hlocal, ?_⟩
  intro store broker τ handle hexec
  cases hm : spec.pgMembership with
  | none => simp
  | some m =>
    have hiff := joined_spawnLocal_iff hwire hm hexec
    rw [hm] at hiff
    simpa using hiff

end Supervisor

/-! ## A worker and a named spec on another node -/

namespace Supervisor

/-- Every node is reachable. -/
def reachableAnswers : Prog.Strategy SupOp SupOp.Ans
  | τ, .requestSpawnWithRetry _ placement _ _ _ => .ok ⟨placement, τ.length⟩
  | τ, op => calmAnswers τ op

/-- A worker and a named spec on the node `m`, each with a membership. -/
def fleetBuilder : SupervisorBuilder where
  specs := [(ChildSpec.remoteWorker "w" "worker" [] "m" .permanent).withPgGroup "workers",
    (ChildSpec.remoteNamed "d" "db" "m" .permanent).withPgGroupScoped "eu" "dbs"]

/-- The child of the named spec panics and is started again. -/
def fleetLife : Life Supervisor Empty Empty :=
  (Runtime.supervisor .tasks ⟨⟨"n", 0⟩⟩).life reachableAnswers fleetBuilder.build [.exit ⟨⟨"m", 3⟩, .panic "boom"⟩]

/-- What is registered on `m`. -/
def fleetStore : RemoteSpawnStore where
  tasks := { namedSpecs := ["db"] }
  threads := { workers := ["worker"] }

def dbWire : RemoteSpawnSpec :=
  .namedSpec "db" { restart := some .permanent, pgScope := some "eu", pgGroup := some "dbs" }

/-- The calls on `m` when the named spec is spawned. -/
def dbTrace : SpawnTrace :=
  [⟨.factory "db", { id := "db", restart := .temporary }⟩, ⟨.tasksRuntime, true⟩,
    ⟨.start (some ⟨9⟩) .defaultWorker, some ⟨5⟩⟩, ⟨.join ⟨"eu", "dbs"⟩ ⟨5⟩, ()⟩, ⟨.typedJoin ⟨"eu", "dbs"⟩ ⟨5⟩, ()⟩]

theorem dbTrace_exec : (spawnLocal fleetStore dbWire true (some ⟨9⟩)).Exec dbTrace (.ok ⟨5⟩) :=
  ⟨_, _, rfl, _, _, rfl, _, _, rfl, _, _, rfl, _, _, rfl, rfl, rfl⟩

/-- The restart of the named spec, and the group it joined. -/
theorem remote_start_joins_iff_restart : JoinedExactly (some ⟨"eu", "dbs"⟩) ⟨5⟩ dbTrace := by
  have hcall : (⟨.requestSpawnWithRetry "d" "m" ⟨"n", 0⟩ dbWire true, .ok ⟨"m", 5⟩⟩ : SupCall) ∈
      fleetLife.startCalls ++ fleetLife.turns.flatMap (·.2.calls) := by
    refine List.mem_append_right _ ?_
    rw [show fleetLife.turns.flatMap (·.2.calls) = [⟨.now, (0 : Nat)⟩,
      ⟨.requestSpawnWithRetry "d" "m" ⟨"n", 0⟩ dbWire true, .ok ⟨"m", 5⟩⟩] from rfl]
    exact List.mem_cons_of_mem _ (List.mem_singleton_self _)
  obtain ⟨spec, hspec, hid, -, -, -, hiff⟩ := remote_start_joins_iff .tasks ⟨⟨"n", 0⟩⟩ fleetBuilder _ _ _
    (Callbacks.lives_life _ reachableAnswers _ _) _ _ _ _ _ _ hcall
  have hd : spec = (ChildSpec.remoteNamed "d" "db" "m" .permanent).withPgGroupScoped "eu" "dbs" := by
    rcases List.mem_cons.mp hspec with rfl | hspec
    · exact absurd hid (by decide)
    · exact List.mem_singleton.mp hspec
  have hnamed : spec.IsNamed := ⟨"db", hd ▸ rfl⟩
  exact (hiff fleetStore (some ⟨9⟩) dbTrace ⟨5⟩ dbTrace_exec).mpr (Or.inl hnamed) _ (hd ▸ rfl)

/-- The worker's spec asks for the group `workers`, its spawn on `m` succeeds, and the child is in no group. -/
theorem remote_worker_loses_membership :
    ¬ ∀ (spec : ChildSpec) (wire : RemoteSpawnSpec) (store : RemoteSpawnStore) (broker handle : ChildHandle)
      (τ : SpawnTrace) (m : PgMembership), remoteSpawnSpecFromInner spec = some wire → spec.pgMembership = some m →
      (spawnLocal store wire true (some broker)).Exec τ (.ok handle) → JoinedExactly (some m) handle τ := by
  intro h
  have hjoined := h ((ChildSpec.remoteWorker "w" "worker" [] "m" .permanent).withPgGroup "workers")
    (.worker "worker" []) fleetStore ⟨9⟩ ⟨5⟩
    [⟨.decodeInit "worker" [], .ok ()⟩, ⟨.start (some ⟨9⟩) .defaultWorker, some ⟨5⟩⟩] ⟨"default", "workers"⟩ rfl rfl
    ⟨_, _, rfl, _, _, rfl, rfl, rfl⟩
  exact absurd hjoined.1 (by decide)

end Supervisor

end Spawned
