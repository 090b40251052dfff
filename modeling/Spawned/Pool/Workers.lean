import Spawned.Cluster.SpawnLocal
import Spawned.Pg.JoinOrder
import Spawned.Pg.Refcount
import Spawned.Pool
import Spawned.Supervisor.DynamicTables

/-!
# A pool and its workers

`ActorPoolBuilder::start` starts a dynamic supervisor, asks it for the workers one after the other, and returns a
dispatcher. A spec without a membership is given that of the pool's group in the default scope, while the dispatcher
looks in the scope of the builder.

* `ActorPoolBuilder.start` : the program; both runtimes have it, one of them with `.await`;
* `instance_started` : every actor the supervisor ever holds for a child, first or after any restart, was started from
  the spec the child was requested with;
* `PoolStep` : turns of the supervisor and group operations of anybody, interleaved. A turn ends after the starts it made,
  and these have joined their actors;
* `InGroup.step` : an actor that has joined stays in its group and bucket, whatever the others do, until it leaves or
  exits;
* `dispatches_to_workers` : the dispatcher finds the workers if it looks in the default scope, and otherwise only those
  that somebody else has joined to its group.
-/

namespace Spawned

open Lib

/-! ## The builder -/

/-- A supervised worker pool. -/
structure ActorPool where
  supervisor : ChildHandle
  dispatcher : PoolDispatcher

/-- Configures an `ActorPool`. -/
structure ActorPoolBuilder where
  group : String
  strategy : PoolStrategy := .roundRobin
  maxChildren : Option Nat := none
  scope : Option String := none

/-- The calls of `start`: it starts a supervisor and sends it requests. -/
inductive PoolOp
  | startSupervisor (builder : DynamicSupervisorBuilder)
  | startChild (spec : ChildSpec) (regName : Option String)

abbrev PoolOp.Ans : PoolOp → Type
  | .startSupervisor _ => ChildHandle
  | .startChild _ _ => Except ActorError (Except DynamicSupervisorError ChildHandle)

abbrev PoolProg := Prog PoolOp PoolOp.Ans

abbrev PoolTrace := Trace PoolOp PoolOp.Ans

/-- Make one call. -/
abbrev request (e : PoolOp) : PoolProg e.Ans := Prog.op e

namespace ActorPoolBuilder

def supervisorBuilder (b : ActorPoolBuilder) : DynamicSupervisorBuilder :=
  match b.maxChildren with
  | some max => { maxChildren := some max }
  | none => {}

/-- The spec of a worker, with a membership. -/
def pooled (b : ActorPoolBuilder) (s : ChildSpec) : ChildSpec :=
  if s.hasPgMembership then s else s.withPgGroup b.group

/-- The loop of `start`; false where an `expect` panics. -/
def startEach (b : ActorPoolBuilder) (specFor : Nat → ChildSpec) : List Nat → PoolProg Bool
  | [] => pure true
  | i :: is => do
    match ← request (.startChild (b.pooled (specFor i)) none) with
    | .ok (.ok _) => b.startEach specFor is
    | .ok (.error _) | .error _ => pure false

def dispatcher (b : ActorPoolBuilder) : PoolDispatcher :=
  match b.scope with
  | some scope => (PoolDispatcher.new b.group b.strategy).withScope scope
  | none => PoolDispatcher.new b.group b.strategy

/-- `start`; nothing is returned where it panics. -/
def start (b : ActorPoolBuilder) (count : Nat) (specFor : Nat → ChildSpec) : PoolProg (Option ActorPool) := do
  let supervisor ← request (.startSupervisor b.supervisorBuilder)
  if ← b.startEach specFor (List.range count) then pure (some { supervisor, dispatcher := b.dispatcher }) else pure none

/-- The scope the dispatcher looks in. -/
def dispatchScope (b : ActorPoolBuilder) : String := b.scope.getD defaultScope

theorem dispatcher_key (b : ActorPoolBuilder) : b.dispatcher.key = ⟨b.dispatchScope, b.group⟩ := by
  unfold dispatcher dispatchScope
  cases b.scope <;> rfl

theorem pooled_pgMembership (b : ActorPoolBuilder) {s : ChildSpec} (h : s.hasPgMembership = false) :
    (b.pooled s).pgMembership = some ⟨defaultScope, b.group⟩ := by
  rw [pooled, if_neg (by simp [h])]
  rfl

variable {b : ActorPoolBuilder} {specFor : Nat → ChildSpec} {σ : PoolTrace}

/-- The loop has returned with every request granted. -/
theorem exec_startEach {is : List Nat} (h : (b.startEach specFor is).Exec σ true) :
    ∀ i ∈ is, ∃ handle, ⟨.startChild (b.pooled (specFor i)) none, .ok (.ok handle)⟩ ∈ σ := by
  induction is generalizing σ with
  | nil => simp
  | cons i is ih =>
    replace h := Prog.exec_op_bind.mp h
    obtain ⟨answer, σ', rfl, h⟩ := h
    match answer, h with
    | .error _, h => exact absurd h.2 (by simp)
    | .ok (.error _), h => exact absurd h.2 (by simp)
    | .ok (.ok handle), h =>
      intro j hj
      rcases List.mem_cons.mp hj with rfl | hj
      · exact ⟨handle, List.mem_cons_self⟩
      · obtain ⟨handle', hmem⟩ := ih h j hj
        exact ⟨handle', List.mem_cons_of_mem _ hmem⟩

/-- **What `start` has done when it returns**: every worker was requested and granted, and the dispatcher is that of the
builder. -/
theorem exec_start {count : Nat} {pool : ActorPool} (h : (b.start count specFor).Exec σ (some pool)) :
    pool.dispatcher = b.dispatcher ∧
      ∀ i < count, ∃ handle, ⟨.startChild (b.pooled (specFor i)) none, .ok (.ok handle)⟩ ∈ σ := by
  replace h := Prog.exec_op_bind.mp h
  obtain ⟨supervisor, σ', rfl, h⟩ := h
  obtain ⟨σ₁, granted, σ₂, rfl, hloop, h⟩ := Prog.exec_bind.mp h
  cases granted with
  | false => exact absurd h.2 (by simp)
  | true =>
    rw [if_pos rfl] at h
    obtain ⟨rfl, hpool⟩ := h
    cases hpool
    refine ⟨rfl, fun i hi => ?_⟩
    obtain ⟨handle, hmem⟩ := exec_startEach hloop i (List.mem_range.mpr hi)
    exact ⟨handle, List.mem_cons_of_mem _ (List.mem_append_left _ hmem)⟩

end ActorPoolBuilder

/-! ## What the supervisor starts -/

namespace DynamicSupervisor

variable {ctx : Context} {s s' : DynamicSupervisor} {τ : SupTrace}

/-- What the handles hold was there before, or it was started, from the spec the child has now. -/
def HandlesFrom (τ : SupTrace) (s s' : DynamicSupervisor) : Prop :=
  ∀ childId handle, s'.handles childId = some handle →
    s.handles childId = some handle ∨ ∃ spec, ⟨.startChild spec, handle⟩ ∈ τ ∧ s'.specs childId = some spec

theorem handlesFrom_of_sub (h : ∀ childId handle, s'.handles childId = some handle → s.handles childId = some handle) :
    HandlesFrom τ s s' := fun childId handle hh => Or.inl (h childId handle hh)

theorem handles_cleaned {childId id : String} {handle : ChildHandle} (h : (s.cleaned childId).handles id = some handle) :
    s.handles id = some handle ∧ id ≠ childId := by
  rw [cleaned_handles, Table.remove_apply] at h
  split_ifs at h with hid
  exact ⟨h, hid⟩

theorem handlesFrom_localAdded {childId : String} {spec : ChildSpec} {handle : ChildHandle}
    (hstarted : ⟨.startChild spec, handle⟩ ∈ τ) : HandlesFrom τ s (s.localAdded childId spec handle) := by
  intro id handle' hh
  rw [localAdded_handles, Table.insert_apply] at hh
  split_ifs at hh with hid
  · cases hh
    exact Or.inr ⟨spec, hstarted, by rw [localAdded_specs, hid, Table.insert_self]⟩
  · exact Or.inl hh

theorem StartStep.handlesFrom {spec : ChildSpec} {regName : Option String}
    {result : Except DynamicSupervisorError ChildHandle} (h : StartStep s spec regName τ s' result) :
    HandlesFrom τ s s' := by
  have hadded : ∀ {handle : ChildHandle} {τ' : SupTrace}, HandlesFrom (⟨.startChild spec, handle⟩ :: τ') s
      (s.drawn.localAdded (s.nextId spec.id) spec handle) :=
    handlesFrom_localAdded (s := s.drawn) List.mem_cons_self
  cases h with
  | refused => exact handlesFrom_of_sub fun _ _ hh => hh
  | duplicate => exact handlesFrom_of_sub fun _ _ hh => hh
  | added => exact hadded
  | named => exact hadded
  | @unnamed name handle err τ' _ _ _ hclean =>
    obtain ⟨rfl, -⟩ := exec_cleanupChild hclean
    -- the new child is gone again
    intro id handle' hh
    obtain ⟨hh, hid⟩ := handles_cleaned (s := s.drawn.localAdded (s.nextId spec.id) spec handle) hh
    exact Or.inl ((Table.insert_ne _ _ hid).symm.trans hh)

theorem handlesFrom_handleExit {exit : Exit} (hx : (Tasks.DynamicSupervisor.handleExit ctx s exit).Exec τ s') :
    HandlesFrom τ s s' := by
  obtain ⟨now, τ', action, l, rfl, -, hcases⟩ := exec_handleExit hx
  rcases hcases with ⟨-, -, rfl, rfl⟩ | ⟨childId, -, -, hx⟩ | ⟨childId, -, hx⟩ | ⟨-, -, rfl, rfl⟩
  · exact handlesFrom_of_sub fun _ _ hh => hh
  · obtain ⟨rfl, -⟩ := exec_cleanupChild hx
    exact handlesFrom_of_sub fun _ _ hh => (handles_cleaned (s := s.withLogic l) hh).1
  · rcases exec_restartChildWithBackoff hx with ⟨-, -, rfl⟩ | ⟨address, -, -, rfl⟩ | ⟨-, -, -, rfl⟩ |
      ⟨spec, handle, -, hspec, -, hstarted, rfl⟩
    · exact handlesFrom_of_sub fun _ _ hh => (handles_cleaned hh).1
    · exact handlesFrom_of_sub fun _ _ hh => hh
    · exact handlesFrom_of_sub fun _ _ hh => hh
    · intro id handle' hh
      rw [localRestarted_handles, Table.insert_apply] at hh
      split_ifs at hh with hid
      · cases hh
        exact Or.inr ⟨spec, List.mem_cons_of_mem _ hstarted, hid ▸ hspec⟩
      · exact Or.inl hh
  · exact handlesFrom_of_sub fun _ _ hh => hh

/-- A request other than `start_child` starts nothing here. -/
theorem handlesFrom_of_message {msg : DynMsg} {reply : Option DynReply} {effs : List Effect}
    (hstep : DynStep ctx s (.message msg) reply effs s') (hmsg : ∀ spec regName, msg ≠ .startChild spec regName) :
    HandlesFrom τ s s' := by
  refine handlesFrom_of_sub fun id handle hh => ?_
  cases hstep with
  | idle => exact hh
  | drawn => exact hh
  | added | named | unnamed => exact absurd rfl (hmsg _ _)
  | spawned => exact hh
  | terminated => exact (handles_cleaned hh).1
  | released => exact hh
  | stuck => exact hh

theorem handlesFrom_of_handles {rt : Runtime} {p q : Serving DynamicSupervisor} {turn : Turn DynMsg DynReply}
    (h : (rt.dynamicSupervisor ctx).Handles p turn q) : HandlesFrom turn.calls p.state q.state := by
  have hstep := (dynStep_of_handles h).1
  cases hevent : turn.event with
  | exit exit =>
    rw [Runtime.dynamicSupervisor_eq] at h
    exact handlesFrom_handleExit (h.exit hevent)
  | message msg =>
    rw [hevent] at hstep
    obtain ⟨reply, -, hhandle⟩ := handleStep_of_handles h hevent
    generalize q.state = s', turn.calls = τ at hstep hhandle ⊢
    cases hhandle with
    | startChild hstart => exact hstart.handlesFrom
    | _ => exact handlesFrom_of_message hstep (by simp)

/-- A spec that is there after a step was there, or it is that of the next id. -/
theorem specs_step {event : Event DynMsg} {reply : Option DynReply} {effs : List Effect}
    (hstep : DynStep ctx s event reply effs s') {id : String} {spec : ChildSpec} (h : s'.specs id = some spec) :
    s.specs id = some spec ∨ ∃ template, id = s.nextId template := by
  have hadded : ∀ {new : ChildSpec}, s.specs.insert (s.nextId new.id) new id = some spec →
      s.specs id = some spec ∨ ∃ template, id = s.nextId template := by
    intro new hh
    rw [Table.insert_apply] at hh
    split_ifs at hh with hid
    · exact Or.inr ⟨_, hid⟩
    · exact Or.inl hh
  have hremove : ∀ {t : Table String ChildSpec} {childId : String}, t.remove childId id = some spec →
      t id = some spec := by
    intro t childId hh
    rw [Table.remove_apply] at hh
    split_ifs at hh
    exact hh
  cases hstep with
  | added => exact hadded h
  | named => exact hadded h
  | unnamed => exact hadded (hremove h)
  | terminated | removed | lost => exact Or.inl (hremove h)
  | _ => exact Or.inl h

/-! ### The instances of a child -/

/-- A request to start a child from this spec, without a name, was granted. -/
def Granted (spec : ChildSpec) (turn : Turn DynMsg DynReply) : Prop :=
  turn.event = .message (.startChild spec none) ∧ ∃ handle, turn.reply = some (.startChild (.ok handle))

/-- The id is that of a child that was requested with `spec`: it has no other spec since, and its actors were started
from it. -/
structure RequestedWith (spec : ChildSpec) (counter : Nat) (turns : List DynTurn) (p : Serving DynamicSupervisor) : Prop where
  le_counter : counter ≤ p.state.idCounter
  specs : ∀ spec', p.state.specs (instanceId spec.id counter) = some spec' → spec' = spec
  handles : ∀ handle, p.state.handles (instanceId spec.id counter) = some handle →
    ∃ y ∈ turns, ⟨.startChild spec, handle⟩ ∈ y.2.calls

section Instances

variable {rt : Runtime} {p₀ p q : Serving DynamicSupervisor} {turn : Turn DynMsg DynReply} {turns : List DynTurn}
  {spec : ChildSpec}

theorem state_of_granted (h : (rt.dynamicSupervisor ctx).Handles p turn q) {handle : ChildHandle}
    (hevent : turn.event = .message (.startChild spec none)) (hreply : turn.reply = some (.startChild (.ok handle))) :
    ⟨.startChild spec, handle⟩ ∈ turn.calls ∧
      q.state = p.state.drawn.localAdded (p.state.nextId spec.id) spec handle := by
  obtain ⟨reply, hreply', hhandle⟩ := handleStep_of_handles h hevent
  obtain rfl := Option.some.inj (hreply.symm.trans hreply')
  generalize q.state = s', turn.calls = τ at hhandle ⊢
  cases hhandle with
  | startChild hstart =>
    cases hstart with
    | added => exact ⟨List.mem_cons_self, rfl⟩

/-- The request itself. -/
theorem requestedWith_granted (h : (rt.dynamicSupervisor ctx).Handles p turn q) (hgranted : Granted spec turn) :
    RequestedWith spec (p.state.idCounter + 1) (turns ++ [(p, turn)]) q := by
  obtain ⟨hevent, handle, hreply⟩ := hgranted
  obtain ⟨hstarted, hstate⟩ := state_of_granted h hevent hreply
  refine ⟨by rw [hstate]; exact le_rfl, fun spec' hspec' => ?_, fun handle' hhandle' => ⟨(p, turn), by simp, ?_⟩⟩
  · rw [hstate] at hspec'
    exact (Option.some.inj ((Table.insert_self _ _ _).symm.trans hspec')).symm
  · rw [hstate] at hhandle'
    obtain rfl : handle = handle' := Option.some.inj ((Table.insert_self _ _ _).symm.trans hhandle')
    exact hstarted

/-- Every turn after it. -/
theorem RequestedWith.step {counter : Nat} (hf : RequestedWith spec counter turns p)
    (h : (rt.dynamicSupervisor ctx).Handles p turn q) : RequestedWith spec counter (turns ++ [(p, turn)]) q := by
  have hstep := (dynStep_of_handles h).1
  have hspecs : ∀ spec', q.state.specs (instanceId spec.id counter) = some spec' → spec' = spec := by
    intro spec' hspec'
    rcases specs_step hstep hspec' with hbefore | ⟨template, hid⟩
    · exact hf.specs spec' hbefore
    · -- the ids drawn from now on are new
      have hcounter := instanceId_counter hid
      have hle := hf.le_counter
      omega
  refine ⟨hf.le_counter.trans (counter_step hstep), hspecs, fun handle hhandle => ?_⟩
  rcases handlesFrom_of_handles h _ handle hhandle with hbefore | ⟨spec', hstarted, hspec'⟩
  · obtain ⟨y, hy, hcall⟩ := hf.handles handle hbefore
    exact ⟨y, List.mem_append_left _ hy, hcall⟩
  · obtain rfl := hspecs spec' hspec'
    exact ⟨(p, turn), by simp, hstarted⟩

theorem requestedWith_of_run (h : Run (rt.dynamicSupervisor ctx).Handles p₀ turns p) {before after : List DynTurn} {x : DynTurn}
    (hturns : turns = before ++ x :: after) (hgranted : Granted spec x.2) :
    RequestedWith spec (x.1.state.idCounter + 1) turns p := by
  induction h generalizing after with
  | nil => simp at hturns
  | @snoc turns p turn q _ hstep ih =>
    rcases List.eq_nil_or_concat after with rfl | ⟨after, y, rfl⟩
    · obtain ⟨rfl, hx⟩ := List.append_inj' hturns rfl
      obtain rfl := List.singleton_inj.mp hx
      exact requestedWith_granted hstep hgranted
    · rw [List.concat_eq_append, ← List.cons_append, ← List.append_assoc] at hturns
      exact (ih (List.append_inj' hturns rfl).1).step hstep

/-- An actor the supervisor has held for a child that was requested with this spec: the first, or one started later. -/
def InstanceOf (turns : List DynTurn) (p : Serving DynamicSupervisor) (spec : ChildSpec) (id : ActorId) : Prop :=
  ∃ before x after, turns = before ++ x :: after ∧ Granted spec x.2 ∧
    ∃ q ∈ after.map (·.1) ++ [p], q.state.handles (x.1.state.nextId spec.id) = some ⟨id⟩

/-- **Every instance of a child was started from the spec the child was requested with.** -/
theorem instance_started (h : Run (rt.dynamicSupervisor ctx).Handles p₀ turns p) {id : ActorId}
    (hinstance : InstanceOf turns p spec id) : ∃ y ∈ turns, ⟨.startChild spec, ⟨id⟩⟩ ∈ y.2.calls := by
  obtain ⟨before, x, after, hturns, hgranted, q, hq, hhandle⟩ := hinstance
  rcases List.mem_append.mp hq with hq | hq
  · obtain ⟨y, hy, rfl⟩ := List.mem_map.mp hq
    obtain ⟨σ₁, σ₂, rfl⟩ := List.append_of_mem hy
    rw [hturns, ← List.cons_append, ← List.append_assoc] at h
    obtain ⟨z, hz, hcall⟩ := (requestedWith_of_run h.before.1 rfl hgranted).handles _ hhandle
    rw [hturns, ← List.cons_append, ← List.append_assoc]
    exact ⟨z, List.mem_append_left _ hz, hcall⟩
  · obtain rfl := List.mem_singleton.mp hq
    exact (requestedWith_of_run h hturns hgranted).handles _ hhandle

end Instances

end DynamicSupervisor

/-! ## An actor in its group -/

section Joined

open PgTables

variable {here : NodeId} {key : GroupKey} {type : TypeId} {id : ActorId} {s s' : PgNode ActorId} {op : PgCall ActorId}
  {τ : List (PgNode ActorId × PgCall ActorId)}

/-- The call does not take this actor out of the group: it does not leave, and its exit does not begin. -/
def Keeps (key : GroupKey) (id : ActorId) : PgCall ActorId → Prop
  | .leaveScoped k i => ¬(k = key ∧ i = id)
  | .removeActor i _ => i ≠ id
  | .complete i => i ≠ id
  | _ => True

/-- The actor is a member of the group. -/
def InGroup (here : NodeId) (key : GroupKey) (id : ActorId) (s : PgNode ActorId) : Prop :=
  ∃ joins, s.tables.groups.get key ⟨here, id⟩ = some ⟨id, joins⟩

/-- It is in the bucket of its type. -/
def InTyped (here : NodeId) (key : GroupKey) (type : TypeId) (id : ActorId) (s : PgNode ActorId) : Prop :=
  s.tables.typed.get (key, type) ⟨here, id⟩ = some id

/-- All entries but those of this actor in this group. -/
def Beside (key : GroupKey) (address : ActorAddress) (k : GroupKey) (a : ActorAddress) : Prop := ¬At key address k a

theorem InGroup.bucketed (h : InGroup here key id s) : BucketedBut (Beside key ⟨here, id⟩) s.tables := by
  intro k type a hk ha
  obtain ⟨rfl, rfl⟩ := not_not.mp hk
  obtain ⟨joins, hget⟩ := h
  exact Nested.has_iff_holds.mpr ⟨_, Nested.get_eq_some.mp hget⟩

/-- A call of somebody else leaves the actor's entries alone, and so does a query while the actor is alive. -/
theorem InGroup.frame (h : InGroup here key id s) (halive : s.alive id = true) (hstep : PgNode.Step here s op s')
    (hkeeps : Keeps key id op) (hjoin : op ≠ .joinScoped key id) (htyped : ∀ type value, op ≠ .typedJoin key type id value) :
    Frame (Beside key ⟨here, id⟩) s.tables s'.tables := by
  have hb := h.bucketed
  have hquery : ∀ k a member, ¬Beside key ⟨here, id⟩ k a → s.tables.groups.Holds k a member →
      s.alive member.handle = true := by
    intro k a member hk hm
    obtain ⟨rfl, rfl⟩ := not_not.mp hk
    obtain ⟨joins, hget⟩ := h
    rw [← Nested.get_eq_some, hget] at hm
    cases hm
    exact halive
  unfold PgNode.Step at hstep
  cases op with
  | joinScoped k handle =>
    cases hstep
    refine (frame_joinScoped handle).mono ?_
    rintro _ _ ⟨rfl, rfl⟩ ⟨rfl, hid⟩
    cases hid
    exact hjoin rfl
  | typedJoin k t i value =>
    cases hstep
    refine (frame_typedJoin t ⟨here, i⟩ value).mono ?_
    rintro _ _ ⟨rfl, rfl⟩ ⟨rfl, hid⟩
    cases hid
    exact htyped t value rfl
  | leaveScoped k i =>
    cases hstep
    refine hb.leaveScoped ?_
    rintro ⟨rfl, hid⟩
    cases hid
    exact hkeeps ⟨rfl, rfl⟩
  | removeActor i keys =>
    obtain ⟨-, hs'⟩ := Option.ite_none_right_eq_some.mp hstep
    cases hs'
    refine hb.removeActor ?_ keys
    rintro k ⟨-, hid⟩
    cases hid
    exact hkeeps rfl
  | applyRemotePgEvent event =>
    cases hstep
    exact hb.applyRemotePgEvent event
  | memberAddressesScoped k =>
    cases hstep
    exact hb.memberAddressesScoped (hquery k)
  | getLocalMembersScoped k =>
    cases hstep
    exact hb.getLocalMembersScoped (hquery k)
  | complete i =>
    cases hstep
    exact Frame.refl _

/-- **One step** keeps the actor in its group, and in its bucket. -/
theorem InGroup.step (h : InGroup here key id s) (halive : s.alive id = true) (hstep : PgNode.Step here s op s')
    (hkeeps : Keeps key id op) (hown : OwnValue op) :
    InGroup here key id s' ∧ (InTyped here key type id s → InTyped here key type id s') := by
  have hothers : ¬Beside key ⟨here, id⟩ key ⟨here, id⟩ := not_not.mpr ⟨rfl, rfl⟩
  by_cases hjoin : op = .joinScoped key id
  · subst hjoin
    cases hstep
    obtain ⟨joins, hget⟩ := h
    refine ⟨⟨joins + 1, ?_⟩, fun ht => ht⟩
    rw [get_joinScoped, hget]
    rfl
  · by_cases htyped : ∃ t value, op = .typedJoin key t id value
    · obtain ⟨t, value, rfl⟩ := htyped
      obtain rfl : value = id := hown
      cases hstep
      refine ⟨h, fun ht => ?_⟩
      unfold InTyped PgTables.typedJoin
      rw [Nested.get_upsertIn]
      split_ifs with hkey
      · cases s.tables.typed.get (key, t) ⟨here, value⟩ <;> rfl
      · exact ht
    · have hframe := h.frame halive hstep hkeeps hjoin fun t value he => htyped ⟨t, value, he⟩
      obtain ⟨joins, hget⟩ := h
      refine ⟨⟨joins, (hframe.groups _ _ hothers).trans hget⟩, fun ht => ?_⟩
      exact (hframe.typed _ _ _ hothers).trans ht

theorem alive_of_keeps (h : Run (PgNode.Step here) {} τ s) (hkeeps : ∀ x ∈ τ, Keeps key id x.2) : s.alive id = true := by
  refine h.inv_of_steps (I := fun s => s.alive id = true) (P := fun _ op => Keeps key id op) rfl
    (fun s op s' hs hop hstep => ?_) hkeeps
  unfold PgNode.Step at hstep
  cases op with
  | complete i =>
    cases hstep
    simp only [PgNode.alive, List.contains_cons, Bool.not_eq_true', Bool.or_eq_false_iff, beq_eq_false_iff_ne] at hs ⊢
    exact ⟨fun he => hop he.symm, hs⟩
  | removeActor i keys =>
    obtain ⟨-, hs'⟩ := Option.ite_none_right_eq_some.mp hstep
    cases hs'
    exact hs
  | _ =>
    cases hstep
    exact hs

/-- **A whole history**: an actor that was joined, and joined to a bucket after that, is in both as long as it neither
leaves nor exits. -/
theorem inTyped_of_joins (h : Run (PgNode.Step here) {} τ s) (hkeeps : ∀ x ∈ τ, Keeps key id x.2)
    (hown : ∀ x ∈ τ, OwnValue x.2) :
    (.joinScoped key id ∈ τ.map (·.2) → InGroup here key id s) ∧
      ([.joinScoped key id, .typedJoin key type id id].Sublist (τ.map (·.2)) → InTyped here key type id s) := by
  induction h with
  | nil => simp
  | @snoc τ s op s' hr hstep ih =>
    have hkeeps' : ∀ x ∈ τ, Keeps key id x.2 := fun x hx => hkeeps x (List.mem_append_left _ hx)
    obtain ⟨hgroup, htyped⟩ := ih hkeeps' fun x hx => hown x (List.mem_append_left _ hx)
    have halive := alive_of_keeps hr hkeeps'
    have hlast : (s, op) ∈ τ ++ [(s, op)] := by simp
    have hstays : InGroup here key id s →
        InGroup here key id s' ∧ (InTyped here key type id s → InTyped here key type id s') :=
      fun hin => hin.step halive hstep (hkeeps _ hlast) (hown _ hlast)
    rw [List.map_append, List.map_singleton]
    constructor
    · intro hmem
      rcases List.mem_append.mp hmem with hmem | hmem
      · exact (hstays (hgroup hmem)).1
      · -- the join itself; an entry that was there is the actor's own
        obtain rfl := List.mem_singleton.mp hmem
        cases hstep
        unfold InGroup
        rw [get_joinScoped]
        cases hget : s.tables.groups.get key ⟨here, id⟩ with
        | none => exact ⟨1, rfl⟩
        | some member =>
          have hid : id = member.handle := congrArg ActorAddress.actorId (handle_of_member hr hget)
          exact ⟨member.joins + 1, by simp [hid]⟩
    · intro hsub
      obtain ⟨σ₁, σ₂, hσ, h₁, h₂⟩ := List.sublist_append_iff.mp hsub
      rcases List.sublist_singleton.mp h₂ with rfl | rfl
      · rw [List.append_nil] at hσ
        subst hσ
        exact (hstays (hgroup (h₁.subset (by simp)))).2 (htyped h₁)
      · -- the typed join itself
        have hσ : [PgCall.joinScoped key id] ++ [.typedJoin key type id id] = σ₁ ++ [op] := hσ
        obtain ⟨-, hop⟩ := List.append_inj' hσ rfl
        obtain rfl := List.singleton_inj.mp hop
        cases hstep
        unfold InTyped PgTables.typedJoin
        rw [Nested.get_upsertIn, if_pos ⟨rfl, rfl⟩]
        cases s.tables.typed.get (key, type) ⟨here, id⟩ <;> rfl

end Joined

/-! ## The node of a pool -/

section Node

open DynamicSupervisor

/-- The supervisor of a pool with its turns so far, and the process groups with the calls so far. -/
structure PoolNode where
  sup : Serving DynamicSupervisor
  turns : List DynTurn := []
  pg : PgNode ActorId := {}
  ops : List (PgCall ActorId) := []

/-- The supervisor of the builder as it begins to serve: its `started` changes nothing (`started_state`). -/
def PoolNode.new (b : ActorPoolBuilder) : PoolNode where
  sup := ⟨b.supervisorBuilder.build, false⟩

/-- What a call of a start does to the process groups; an actor is joined under its own type. -/
def pgCall (typeOf : ActorId → TypeId) (call : Call SpawnOp SpawnOp.Ans) : Option (PgCall ActorId) :=
  match call.op with
  | .join pg handle => some (.joinScoped ⟨pg.scope, pg.group⟩ handle.id)
  | .typedJoin pg handle => some (.typedJoin ⟨pg.scope, pg.group⟩ (typeOf handle.id) handle.id handle.id)
  | _ => none

/-- A start from the spec has returned this actor, and what it did to the groups is among `ops`. -/
def StartDone (typeOf : ActorId → TypeId) (ops : List (PgCall ActorId)) (spec : ChildSpec) (handle : ChildHandle) : Prop :=
  ∃ parent σ, (spec.startChild parent).Exec σ (some handle) ∧ (σ.filterMap (pgCall typeOf)).Sublist ops

inductive PoolAct
  | turn (turn : Turn DynMsg DynReply)
  | pg (op : PgCall ActorId)

/-- A turn of the supervisor ends, after the starts it called; or somebody calls into the process groups. -/
inductive PoolStep (rt : Runtime) (ctx : Context) (here : NodeId) (typeOf : ActorId → TypeId) :
    PoolNode → PoolAct → PoolNode → Prop
  | turn {s : PoolNode} {turn : Turn DynMsg DynReply} {p : Serving DynamicSupervisor}
      (h : (rt.dynamicSupervisor ctx).Handles s.sup turn p)
      (hstarts : ∀ spec handle, ⟨.startChild spec, handle⟩ ∈ turn.calls → StartDone typeOf s.ops spec handle) :
      PoolStep rt ctx here typeOf s (.turn turn) { s with sup := p, turns := s.turns ++ [(s.sup, turn)] }
  | pg {s : PoolNode} {op : PgCall ActorId} {pg : PgNode ActorId} (h : PgNode.Step here s.pg op pg) :
      PoolStep rt ctx here typeOf s (.pg op) { s with pg, ops := s.ops ++ [op] }

variable {rt : Runtime} {ctx : Context} {here : NodeId} {typeOf : ActorId → TypeId} {p₀ : Serving DynamicSupervisor}
  {τ : List (PoolNode × PoolAct)} {s s' : PoolNode} {a : PoolAct}

/-- Each part of the node has a run of its own, and the actors the supervisor started are joined. -/
structure Parts (rt : Runtime) (ctx : Context) (here : NodeId) (typeOf : ActorId → TypeId)
    (p₀ : Serving DynamicSupervisor) (s : PoolNode) : Prop where
  turns : Run (rt.dynamicSupervisor ctx).Handles p₀ s.turns s.sup
  pg : ∃ σ, Run (PgNode.Step here) {} σ s.pg ∧ σ.map (·.2) = s.ops
  starts : ∀ y ∈ s.turns, ∀ spec handle, ⟨.startChild spec, handle⟩ ∈ y.2.calls → StartDone typeOf s.ops spec handle

theorem Parts.step (h : Parts rt ctx here typeOf p₀ s) (hstep : PoolStep rt ctx here typeOf s a s') :
    Parts rt ctx here typeOf p₀ s' := by
  cases hstep with
  | turn hturn hstarts =>
    refine ⟨h.turns.snoc hturn, h.pg, fun y hy spec handle hcall => ?_⟩
    rcases List.mem_append.mp hy with hy | hy
    · exact h.starts y hy spec handle hcall
    · obtain rfl := List.mem_singleton.mp hy
      exact hstarts spec handle hcall
  | @pg op pg hpg =>
    obtain ⟨σ, hσ, hops⟩ := h.pg
    refine ⟨h.turns, ⟨_, hσ.snoc hpg, by simp [hops]⟩, fun y hy spec handle hcall => ?_⟩
    obtain ⟨parent, σ', hexec, hsub⟩ := h.starts y hy spec handle hcall
    exact ⟨parent, σ', hexec, hsub.trans (List.sublist_append_left _ _)⟩

theorem parts_of_run (h : Run (PoolStep rt ctx here typeOf) { sup := p₀ } τ s) : Parts rt ctx here typeOf p₀ s :=
  h.inv ⟨.nil, ⟨[], .nil, rfl⟩, by simp⟩ fun _ _ _ hs hstep => hs.step hstep

/-- The process groups go on by themselves while the supervisor waits. -/
theorem poolRun_pg (rt : Runtime) (ctx : Context) (typeOf : ActorId → TypeId)
    {σ : List (PgNode ActorId × PgCall ActorId)} {pg : PgNode ActorId} (h : Run (PgNode.Step here) s.pg σ pg) :
    ∃ τ, Run (PoolStep rt ctx here typeOf) s τ { s with pg, ops := s.ops ++ σ.map (·.2) } := by
  induction h with
  | nil => exact ⟨[], by simpa using Run.nil⟩
  | @snoc σ pg op pg' _ hstep ih =>
    obtain ⟨τ, hrun⟩ := ih
    exact ⟨_, by simpa using hrun.snoc (.pg hstep)⟩

/-- The exit of the actor has not begun. -/
def PoolNode.Live (s : PoolNode) (id : ActorId) : Prop :=
  (∀ keys, .removeActor id keys ∉ s.ops) ∧ .complete id ∉ s.ops

/-- The requests that `start` saw granted were granted in these turns. -/
def GrantedIn (σ : PoolTrace) (turns : List DynTurn) : Prop :=
  ∀ spec regName handle, ⟨.startChild spec regName, .ok (.ok handle)⟩ ∈ σ →
    ∃ x ∈ turns, x.2.event = .message (.startChild spec regName) ∧ x.2.reply = some (.startChild (.ok handle))

/-- The actor a request was granted with is an instance. -/
theorem instance_of_granted (h : Parts rt ctx here typeOf p₀ s) {x : DynTurn} {spec : ChildSpec} {handle : ChildHandle}
    (hx : x ∈ s.turns) (hevent : x.2.event = .message (.startChild spec none))
    (hreply : x.2.reply = some (.startChild (.ok handle))) : InstanceOf s.turns s.sup spec handle.id := by
  obtain ⟨before, after, hturns⟩ := List.append_of_mem hx
  have hrun := h.turns
  rw [hturns] at hrun
  obtain ⟨q, hq, hstep⟩ := hrun.after
  refine ⟨before, x, after, hturns, ⟨hevent, handle, hreply⟩, q, hq, ?_⟩
  exact (state_of_granted hstep hevent hreply).2 ▸ Table.insert_self _ _ _

/-- A started worker is joined to the pool's group in the default scope. -/
theorem joined_of_instance (h : Parts rt ctx here typeOf p₀ s) {spec : ChildSpec} {m : PgMembership} {id : ActorId}
    (hm : spec.pgMembership = some m) (hinstance : InstanceOf s.turns s.sup spec id) :
    [.joinScoped ⟨m.scope, m.group⟩ id, .typedJoin ⟨m.scope, m.group⟩ (typeOf id) id id].Sublist s.ops := by
  obtain ⟨y, hy, hcall⟩ := instance_started h.turns hinstance
  obtain ⟨parent, σ, hexec, hsub⟩ := h.starts y hy _ _ hcall
  rw [exec_startChild hexec, hm] at hsub
  exact hsub

/-- While an actor is live, only a leave can take it out of the group. -/
theorem keeps_of_live {key : GroupKey} {id : ActorId} {op : PgCall ActorId} (hlive : s.Live id)
    (hleave : .leaveScoped key id ∉ s.ops) (hop : op ∈ s.ops) : Keeps key id op := by
  cases op with
  | leaveScoped k i =>
    rintro ⟨rfl, rfl⟩
    exact hleave hop
  | removeActor i keys =>
    rintro rfl
    exact hlive.1 keys hop
  | complete i =>
    rintro rfl
    exact hlive.2 hop
  | _ => trivial

/-- A selection among members has a target, by either strategy. -/
theorem selectLocalTarget_ne_noMembers {d : PoolDispatcher} {members : List ActorId} {depth : ActorId → UInt64}
    (hmembers : members ≠ []) : (selectLocalTarget d members depth).1 ≠ .error .noMembers := by
  cases hd : d.strategy with
  | roundRobin =>
    have hlen : members.length ≠ 0 := by simpa using hmembers
    have hlt : d.next.toNat % members.length < members.length := Nat.mod_lt _ (Nat.pos_of_ne_zero hlen)
    simp [selectLocalTarget, selectMemberIndex, hd, hmembers, hlen, List.getElem?_eq_getElem hlt]
  | leastLoaded =>
    obtain ⟨target, -, hselect, -⟩ := selectLocalTarget_leastLoaded hd hmembers depth
    rw [hselect]
    simp

/-- Who is in a bucket was joined to it. -/
theorem mem_ops_of_typed {σ : List (PgNode ActorId × PgCall ActorId)} {t : PgNode ActorId} {key : GroupKey} {type : TypeId}
    {id v : ActorId} (h : Run (PgNode.Step here) {} σ t) (hget : t.tables.typed.get (key, type) ⟨here, id⟩ = some v) :
    .typedJoin key type id v ∈ σ.map (·.2) := by
  induction h with
  | nil => simp [Nested.get] at hget
  | @snoc σ t op t' _ hstep ih =>
    rw [List.map_append, List.mem_append]
    rcases hstep.typed_cases hget with hbefore | ⟨id', rfl, hid⟩
    · exact Or.inl (ih hbefore)
    · obtain rfl : id = id' := congrArg ActorAddress.actorId hid
      exact Or.inr (by simp)

/-- **A pool and its workers.** Let `start` have returned, and let the supervisor, the workers and everybody else have gone
on in any order. Every worker that was requested has an instance. Any instance of a worker, the first or one that replaced
it, whose exit has not begun:

* is among the members the dispatcher selects from if the builder names no scope or the default one and nobody made it
  leave the group, and then no selection fails for want of members;
* is not among them if the builder names another scope, unless somebody else joined it to the group there. -/
theorem dispatches_to_workers (rt : Runtime) (ctx : Context) (here : NodeId) (typeOf : ActorId → TypeId)
    (b : ActorPoolBuilder) (count : Nat) (specFor : Nat → ChildSpec)
    (hspecs : ∀ i < count, (specFor i).hasPgMembership = false) (σ : PoolTrace) (pool : ActorPool)
    (hstart : (b.start count specFor).Exec σ (some pool)) (τ : List (PoolNode × PoolAct)) (s : PoolNode)
    (h : Run (PoolStep rt ctx here typeOf) (.new b) τ s) (hgranted : GrantedIn σ s.turns)
    (hown : ∀ op ∈ s.ops, OwnValue op) :
    (∀ i < count, ∃ id, InstanceOf s.turns s.sup (b.pooled (specFor i)) id) ∧
      ∀ i < count, ∀ id, InstanceOf s.turns s.sup (b.pooled (specFor i)) id → s.Live id →
        ∀ values, s.pg.tables.TypedMembers pool.dispatcher.key (typeOf id) values →
          (b.dispatchScope = defaultScope → .leaveScoped ⟨defaultScope, b.group⟩ id ∉ s.ops →
            id ∈ membersScoped values s.pg.alive ∧ ∀ next depth,
              (selectLocalTarget { pool.dispatcher with next } (membersScoped values s.pg.alive) depth).1 ≠
                .error .noMembers) ∧
          (b.dispatchScope ≠ defaultScope → (∀ type value, .typedJoin pool.dispatcher.key type id value ∉ s.ops) →
            id ∉ membersScoped values s.pg.alive) := by
  have hparts := parts_of_run h
  obtain ⟨hdispatcher, hrequests⟩ := ActorPoolBuilder.exec_start hstart
  have hkey : pool.dispatcher.key = ⟨b.dispatchScope, b.group⟩ := hdispatcher ▸ b.dispatcher_key
  obtain ⟨ρ, hρ, hops⟩ := hparts.pg
  have hownρ : ∀ x ∈ ρ, OwnValue x.2 := fun x hx => hown x.2 (hops ▸ List.mem_map_of_mem hx)
  constructor
  · intro i hi
    obtain ⟨handle, hmem⟩ := hrequests i hi
    obtain ⟨x, hx, hevent, hreply⟩ := hgranted _ _ _ hmem
    exact ⟨handle.id, instance_of_granted hparts hx hevent hreply⟩
  · intro i hi id hinstance hlive values hvalues
    constructor
    · intro hscope hleave
      have hjoins := joined_of_instance hparts (b.pooled_pgMembership (hspecs i hi)) hinstance
      have hkeeps : ∀ x ∈ ρ, Keeps ⟨defaultScope, b.group⟩ id x.2 :=
        fun x hx => keeps_of_live hlive hleave (hops ▸ List.mem_map_of_mem hx)
      rw [← hops] at hjoins
      have htyped := (inTyped_of_joins hρ hkeeps hownρ).2 hjoins
      have hmember : id ∈ membersScoped values s.pg.alive := by
        refine (mem_membersScoped hvalues).mpr ⟨⟨⟨here, id⟩, ?_⟩, alive_of_keeps hρ hkeeps⟩
        rw [hkey, hscope]
        exact Nested.get_eq_some.mp htyped
      exact ⟨hmember, fun next depth => selectLocalTarget_ne_noMembers (List.ne_nil_of_mem hmember)⟩
    · intro _ hforeign hmember
      obtain ⟨⟨address, hholds⟩, -⟩ := (mem_membersScoped hvalues).mp hmember
      have hget := Nested.get_eq_some.mpr hholds
      rw [address_of_value hρ hownρ hget] at hget
      exact hforeign _ _ (hops ▸ mem_ops_of_typed hρ hget)

end Node

/-! ## A worker that is started again -/

section OneWorker

open DynamicSupervisor

def workerSpec : ChildSpec := { id := "w", restart := .permanent }

/-- The worker's spec in the pool of the group `g`. -/
def pooledSpec : ChildSpec := workerSpec.withPgGroup "g"

/-- The actor 1 is started for the worker. -/
def firstTurn : Turn DynMsg DynReply where
  event := .message (.startChild pooledSpec none)
  calls := [⟨.startChild pooledSpec, ⟨1⟩⟩]
  reply := some (.startChild (.ok ⟨1⟩))

/-- It has panicked, and the actor 2 is started in its place. -/
def secondTurn : Turn DynMsg DynReply where
  event := .exit ⟨⟨"n", 1⟩, .panic "boom"⟩
  calls := [⟨.now, (0 : Nat)⟩, ⟨.startChild pooledSpec, ⟨2⟩⟩]
  reply := none

def joinsOf (id : ActorId) : List (PgCall ActorId) :=
  [.joinScoped ⟨"default", "g"⟩ id, .typedJoin ⟨"default", "g"⟩ "A" id id]

theorem startDone_pooledSpec {ops : List (PgCall ActorId)} {spec : ChildSpec} {handle : ChildHandle} {id : ActorId}
    (hcall : (⟨.startChild spec, handle⟩ : SupCall) = ⟨.startChild pooledSpec, ⟨id⟩⟩) (hops : (joinsOf id).Sublist ops) :
    StartDone (fun _ => "A") ops spec handle := by
  cases hcall
  refine ⟨⟨0⟩, [⟨.start (some ⟨0⟩) pooledSpec.mailbox, some ⟨id⟩⟩, ⟨.join ⟨"default", "g"⟩ ⟨id⟩, ()⟩,
    ⟨.typedJoin ⟨"default", "g"⟩ ⟨id⟩, ()⟩], ?_, hops⟩
  exact ⟨_, _, rfl, _, _, rfl, _, _, rfl, rfl, rfl⟩

/-- The exit of the first actor, and the start of the second. -/
def replaceOps : List (PgCall ActorId) := [.removeActor 1 [⟨"default", "g"⟩], .complete 1] ++ joinsOf 2

/-- The supervisor after the first turn, -/
def firstState : DynamicSupervisor := (DynamicSupervisorBuilder.build {}).drawn.localAdded (instanceId "w" 1) pooledSpec ⟨1⟩

/-- and the process groups, -/
def firstPg : PgNode ActorId := ((tryPlay (PgNode.next "n") {} (joinsOf 1)).get (by decide)).2

/-- and these at the end. -/
def lastPg : PgNode ActorId := ((tryPlay (PgNode.next "n") firstPg replaceOps).get (by decide)).2

/-- The supervisor of a pool starts the worker, which panics, and starts it again; whatever the scope of the pool. -/
theorem restarted_worker (scope : Option String) :
    ∃ τ s, Run (PoolStep .tasks ⟨⟨"n", 0⟩⟩ "n" fun _ => "A") (.new { group := "g", scope }) τ s ∧ s.pg = lastPg ∧
      s.ops = joinsOf 1 ++ replaceOps ∧ s.turns.map (·.2) = [firstTurn, secondTurn] ∧
      InstanceOf s.turns s.sup pooledSpec 2 := by
  have hfirst : (Runtime.dynamicSupervisor .tasks ⟨⟨"n", 0⟩⟩).Handles ⟨DynamicSupervisorBuilder.build {}, false⟩ firstTurn
      ⟨firstState, false⟩ := ⟨rfl, ⟨_, _, rfl, rfl, rfl⟩, by decide⟩
  have hsecond : ∃ q, (Runtime.dynamicSupervisor .tasks ⟨⟨"n", 0⟩⟩).Handles ⟨firstState, false⟩ secondTurn q ∧
      q.state.handles (instanceId "w" 1) = some ⟨2⟩ :=
    ⟨⟨_, false⟩, ⟨rfl, ⟨_, _, rfl, _, _, rfl, rfl, rfl⟩, by decide⟩, rfl⟩
  obtain ⟨q, hsecond, hhandle⟩ := hsecond
  have hpg₁ : Run (PgNode.Step "n") ({} : PgNode ActorId) _ firstPg := run_tryPlay _ _ _ (by decide)
  have hpg₂ : Run (PgNode.Step "n") firstPg _ lastPg := run_tryPlay _ _ _ (by decide)
  obtain ⟨τ₁, hrun₁⟩ := poolRun_pg .tasks ⟨⟨"n", 0⟩⟩ (fun _ => "A") (s := .new { group := "g", scope }) hpg₁
  have hrun₂ := hrun₁.snoc (.turn hfirst fun spec handle hcall =>
    startDone_pooledSpec (List.mem_singleton.mp hcall) (List.Sublist.refl _))
  obtain ⟨τ₃, hrun₃⟩ := poolRun_pg .tasks ⟨⟨"n", 0⟩⟩ (fun _ => "A")
    (s := { sup := ⟨firstState, false⟩, turns := _, pg := firstPg, ops := _ }) hpg₂
  have hjoins : (joinsOf 2).Sublist (joinsOf 1 ++ replaceOps) :=
    List.sublist_append_right (joinsOf 1 ++ [.removeActor 1 [⟨"default", "g"⟩], .complete 1]) (joinsOf 2)
  have hrun₄ := (hrun₂.append hrun₃).snoc (.turn hsecond fun spec handle hcall => by
    rcases List.mem_cons.mp hcall with hnow | hcall
    · cases hnow
    · exact startDone_pooledSpec (List.mem_singleton.mp hcall) hjoins)
  exact ⟨_, _, hrun₄, rfl, rfl, rfl, [], _, [_], rfl, ⟨rfl, _, rfl⟩, q, by simp, hhandle⟩

/-- What `start` did: it was granted the actor 1. -/
def startCalls : PoolTrace := [⟨.startSupervisor {}, ⟨0⟩⟩, ⟨.startChild pooledSpec none, .ok (.ok ⟨1⟩)⟩]

theorem grantedIn_startCalls {turns : List DynTurn} (h : turns.map (·.2) = [firstTurn, secondTurn]) :
    GrantedIn startCalls turns := by
  intro spec regName handle hmem
  obtain ⟨x, hx, hfirst⟩ : ∃ x ∈ turns, x.2 = firstTurn := by
    have hmem : firstTurn ∈ turns.map (·.2) := by simp [h]
    simpa using hmem
  refine ⟨x, hx, ?_⟩
  rcases List.mem_cons.mp hmem with hmem | hmem
  · cases hmem
  · cases List.mem_singleton.mp hmem
    rw [hfirst]
    exact ⟨rfl, rfl⟩

theorem live_of_ops {s : PoolNode} (h : s.ops = joinsOf 1 ++ replaceOps) : s.Live 2 := by
  rw [PoolNode.Live, h]
  simp [joinsOf, replaceOps]

/-- Without a scope, the second actor is among the members. -/
theorem dispatches_to_workers_restarted :
    ∃ s : PoolNode, s.turns.map (·.2) = [firstTurn, secondTurn] ∧ InstanceOf s.turns s.sup pooledSpec 2 ∧
      2 ∈ membersScoped [2] s.pg.alive := by
  obtain ⟨τ, s, hrun, hpg, hops, hturns, hinstance⟩ := restarted_worker none
  have hown : ∀ op ∈ s.ops, OwnValue op := by
    rw [hops]
    decide
  have hmember := (dispatches_to_workers .tasks ⟨⟨"n", 0⟩⟩ "n" (fun _ => "A") { group := "g" } 1 (fun _ => workerSpec)
    (fun _ _ => rfl) startCalls _ ⟨_, _, rfl, _, _, rfl, rfl, rfl⟩ τ s hrun (grantedIn_startCalls hturns) hown).2 0
    (by decide) 2 hinstance (live_of_ops hops) [2] (by rw [hpg]; unfold PgTables.TypedMembers; decide)
  refine ⟨s, hturns, hinstance, (hmember.1 rfl ?_).1⟩
  rw [hops]
  simp [joinsOf, replaceOps]

/-- With the scope `eu` it is alive too, but the dispatcher finds no members. -/
theorem scoped_pool_finds_nobody :
    ∃ pool τ s, (ActorPoolBuilder.start { group := "g", scope := some "eu" } 1 fun _ => workerSpec).Exec startCalls
        (some pool) ∧
      Run (PoolStep .tasks ⟨⟨"n", 0⟩⟩ "n" fun _ => "A") (.new { group := "g", scope := some "eu" }) τ s ∧
      GrantedIn startCalls s.turns ∧ InstanceOf s.turns s.sup pooledSpec 2 ∧ s.Live 2 ∧ s.pg.alive 2 = true ∧
      s.pg.tables.TypedMembers pool.dispatcher.key "A" [] ∧
      (selectLocalTarget pool.dispatcher (membersScoped [] s.pg.alive) fun _ => 0).1 = .error .noMembers := by
  obtain ⟨τ, s, hrun, hpg, hops, hturns, hinstance⟩ := restarted_worker (some "eu")
  refine ⟨_, τ, s, ⟨_, _, rfl, _, _, rfl, rfl, rfl⟩, hrun, grantedIn_startCalls hturns, hinstance, live_of_ops hops, ?_, ?_,
    rfl⟩
  · rw [hpg]
    decide
  · rw [hpg]
    unfold PgTables.TypedMembers
    decide

end OneWorker

end Spawned
