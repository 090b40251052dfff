import Spawned.Registry
import Spawned.Supervisor.DynamicService

/-!
# Requests of a dynamic supervisor that fail

`start_child` starts and links the actor, enters it into four tables and registers its name last; when the registry refuses
the name, `cleanup_child` clears the tables. `terminate_child_by_actor` takes the handle of a remote child out of its table
before it waits for the exit of the child.

* `RegStore.Serves` : the registry answers the calls of a trace, nobody else using it meanwhile;
* `LeftRunning` : an actor that was started and linked in a trace, and not asked to exit in it;
* `start_child_clean_iff` : a failed `start_child` leaves nothing behind exactly when it did not fail for the name;
* `terminate_retryable_iff` : a failed `terminate_child` leaves the child exactly when it is not a remote one.
-/

namespace Spawned

open Lib

/-- The registry answers the calls of the trace, from `store` to `store'`. -/
def RegStore.Serves : RegStore → SupTrace → RegStore → Prop
  | store, [], store' => store' = store
  | store, ⟨.register name handle, answer⟩ :: τ, store' =>
    answer = (store.register name (.handle handle)).1 ∧ Serves (store.register name (.handle handle)).2 τ store'
  | store, ⟨.unregister name, _⟩ :: τ, store' => Serves (store.unregister name) τ store'
  | store, _ :: τ, store' => Serves store τ store'

/-- The call unregisters a name. -/
def SupOp.Unregisters (e : SupOp) : Prop := ∃ name, e = .unregister name

theorem RegStore.serves_unregisters {τ : SupTrace} (h : ∀ c ∈ τ, c.op.Unregisters) (store : RegStore) :
    ∃ store', store.Serves τ store' := by
  induction τ generalizing store with
  | nil => exact ⟨store, rfl⟩
  | cons c τ ih =>
    obtain ⟨op, answer⟩ := c
    obtain ⟨name, rfl⟩ := h ⟨op, answer⟩ (by simp)
    exact ih (fun c hc => h c (by simp [hc])) (store.unregister name)

/-- The actor was started, and with that linked, and nothing asked it to exit. -/
def LeftRunning (τ : SupTrace) (handle : ChildHandle) : Prop :=
  (∃ spec, (⟨.startChild spec, handle⟩ : SupCall) ∈ τ) ∧ ∀ c ∈ τ, c.op ≠ .shutdown handle ∧ c.op ≠ .kill handle

namespace DynamicSupervisor

variable {rt : Runtime} {ctx : Context} {s s' : DynamicSupervisor}

/-! ## Starting a child -/

/-- The tables of the local children and names are as they were. -/
structure Undone (s s' : DynamicSupervisor) : Prop where
  logic : s'.logic = s.logic
  specs : s'.specs = s.specs
  handles : s'.handles = s.handles
  actorToId : s'.actorToId = s.actorToId
  regNames : s'.regNames = s.regNames

/-- If `start_child` returns an error, it leaves no actor behind, and the tables and the registry as they were. -/
def FailsClean (rt : Runtime) (ctx : Context) (s : DynamicSupervisor) (spec : ChildSpec) (regName : Option String)
    (store : RegStore) : Prop :=
  ∀ τ s' err store', ((rt.dynamicSupervisor ctx).handle s (.startChild spec regName)).Exec τ
      (s', .startChild (.error err)) → store.Serves τ store' →
    (∀ handle, ¬LeftRunning τ handle) ∧ Undone s s' ∧ store' = store

/-- A handler runs its method and wraps up the result. -/
theorem exec_reply_iff {α : Type} {method : SupProg (DynamicSupervisor × α)} {wrap : α → DynReply}
    (hwrap : Function.Injective wrap) {τ : SupTrace} {result : α} :
    Prog.Exec (method >>= fun x => pure (x.1, wrap x.2)) τ (s', wrap result) ↔ method.Exec τ (s', result) := by
  rw [Prog.exec_bind_pure]
  constructor
  · rintro ⟨⟨s₁, result₁⟩, h₁, heq⟩
    obtain ⟨rfl, hresult⟩ := Prod.mk.inj heq
    rwa [hwrap hresult]
  · intro h
    exact ⟨(s', result), h, rfl⟩

theorem exec_startChild_iff {spec : ChildSpec} {regName : Option String} {τ : SupTrace}
    {result : Except DynamicSupervisorError ChildHandle} :
    ((rt.dynamicSupervisor ctx).handle s (.startChild spec regName)).Exec τ (s', .startChild result) ↔
      (Tasks.DynamicSupervisor.startChild s spec regName).Exec τ (s', result) := by
  rw [Runtime.dynamicSupervisor_eq]
  exact exec_reply_iff fun _ _ h => DynReply.startChild.inj h

theorem calls_cleanupChild (s : DynamicSupervisor) (childId : String) :
    (Tasks.DynamicSupervisor.cleanupChild s childId).Calls SupOp.Unregisters := by
  unfold Tasks.DynamicSupervisor.cleanupChild
  cases s.nameOf childId with
  | none => exact Prog.calls_pure _ _
  | some name => exact ⟨⟨name, rfl⟩, fun _ => Prog.calls_pure _ _⟩

/-- A name that is taken: the actor that was started is left running. -/
theorem left_running_of_taken (rt : Runtime) (ctx : Context) (spec : ChildSpec) {name : String} {store : RegStore}
    {value : RegValue} (hstop : s.stopping = false) (hroom : s.atCapacity = false)
    (hfresh : s.logic.hasChildId (s.nextId spec.id) = false) (htaken : store name = some value) (handle : ChildHandle) :
    ∃ τ s' err store', ((rt.dynamicSupervisor ctx).handle s (.startChild spec (some name))).Exec τ
        (s', .startChild (.error err)) ∧ store.Serves τ store' ∧ LeftRunning τ handle := by
  have hanswer : store.register name (.handle handle) = (.error (.alreadyRegistered name), store) := by
    simp [RegStore.register, htaken]
  -- the tables are cleared with calls to the registry only
  obtain ⟨τ, -, hclean⟩ := Prog.exec_run calmAnswers (Tasks.DynamicSupervisor.cleanupChild
    (s.drawn.localAdded (s.nextId spec.id) spec handle) (s.nextId spec.id)) []
  rw [(exec_cleanupChild hclean).1] at hclean
  have hunregisters := (calls_cleanupChild _ _).of_exec hclean
  obtain ⟨store', hserves⟩ := RegStore.serves_unregisters hunregisters store
  refine ⟨⟨.startChild spec, handle⟩ :: ⟨.register name handle, .error (.alreadyRegistered name)⟩ :: τ,
    (s.drawn.localAdded (s.nextId spec.id) spec handle).cleaned (s.nextId spec.id),
    .registry (RegistryError.alreadyRegistered name).toString, store', exec_startChild_iff.mpr ?_, ?_,
    ⟨spec, by simp⟩, ?_⟩
  · unfold Tasks.DynamicSupervisor.startChild
    rw [if_neg (by simp [hstop]), if_neg (by simp [hroom]), if_neg (by simpa [nextId] using hfresh)]
    refine ⟨handle, _, rfl, ?_⟩
    refine Prog.exec_op_bind.mpr ⟨.error (.alreadyRegistered name), τ, rfl, ?_⟩
    exact Prog.exec_bind_pure.mpr ⟨_, hclean, rfl⟩
  · exact ⟨by rw [hanswer], by rw [hanswer]; exact hserves⟩
  · intro c hc
    rcases List.mem_cons.mp hc with rfl | hc
    · simp
    · rcases List.mem_cons.mp hc with rfl | hc
      · simp
      · obtain ⟨name', hop⟩ := hunregisters c hc
        rw [hop]
        simp

/-- **A failed `start_child` leaves nothing behind** exactly when it does not come to a name that is taken: the supervisor
is stopping or at its capacity, the id exists, no name was asked for, or the name is vacant. -/
theorem start_child_clean_iff (rt : Runtime) (ctx : Context) (s : DynamicSupervisor) (spec : ChildSpec)
    (regName : Option String) (store : RegStore) :
    FailsClean rt ctx s spec regName store ↔
      s.stopping = true ∨ s.atCapacity = true ∨ s.logic.hasChildId (s.nextId spec.id) = true ∨
        ∀ name, regName = some name → store name = none := by
  constructor
  · intro hclean
    by_contra hneg
    simp only [not_or, Bool.not_eq_true, not_forall] at hneg
    obtain ⟨hstop, hroom, hfresh, name, rfl, htaken⟩ := hneg
    obtain ⟨value, htaken⟩ := Option.ne_none_iff_exists'.mp htaken
    obtain ⟨τ, s', err, store', hexec, hserves, hleft⟩ :=
      left_running_of_taken rt ctx spec hstop hroom hfresh htaken ⟨0⟩
    exact (hclean τ s' err store' hexec hserves).1 _ hleft
  · intro hcond τ s' err store' hexec hserves
    have hquiet : ∀ {s₁ : DynamicSupervisor}, τ = [] → s' = s₁ → Undone s s₁ →
        (∀ handle, ¬LeftRunning τ handle) ∧ Undone s s' ∧ store' = store := by
      rintro s₁ rfl rfl hundone
      refine ⟨fun handle hleft => ?_, hundone, hserves⟩
      obtain ⟨⟨spec, hmem⟩, -⟩ := hleft
      cases hmem
    cases exec_startChild (exec_startChild_iff.mp hexec) with
    | refused => exact hquiet rfl rfl ⟨rfl, rfl, rfl, rfl, rfl⟩
    | duplicate => exact hquiet rfl rfl ⟨rfl, rfl, rfl, rfl, rfl⟩
    | @unnamed name handle err τ' _ hdraws hnew hclean =>
      simp only [draws, Bool.and_eq_true, Bool.not_eq_true'] at hdraws
      have hvacant : store name = none := by
        rcases hcond with h | h | h | h
        · simp [h] at hdraws
        · simp [h] at hdraws
        · simp [h] at hnew
        · exact h name rfl
      -- the registry would have taken the name
      have hanswer := hserves.1
      simp [RegStore.register, hvacant] at hanswer

/-- A fresh supervisor, and the name `db` taken by somebody else: `start_child` returns an error, and the actor it started
runs on, linked to a supervisor that does not know it. -/
theorem start_child_leaves_orphan :
    ¬∀ (rt : Runtime) (ctx : Context) (b : DynamicSupervisorBuilder) (τ₀ : SupTrace) (hist : List DynTurn)
      (p : Serving DynamicSupervisor) (spec : ChildSpec) (regName : Option String) (store : RegStore),
      (rt.dynamicSupervisor ctx).Lives b.build τ₀ hist p → FailsClean rt ctx p.state spec regName store := by
  intro h
  have hlives := Callbacks.lives_life (Runtime.dynamicSupervisor .tasks ⟨⟨"n", 0⟩⟩) calmAnswers
    ({} : DynamicSupervisorBuilder).build []
  let spec : ChildSpec := { id := "work", restart := .permanent }
  let store : RegStore := Table.empty.insert "db" .other
  have htaken : store "db" = some .other := Table.insert_self _ _ _
  obtain ⟨τ, s', err, store', hexec, hserves, hleft⟩ := left_running_of_taken .tasks ⟨⟨"n", 0⟩⟩ spec
    (s := ({} : DynamicSupervisorBuilder).build) rfl rfl rfl htaken ⟨1⟩
  exact (h .tasks ⟨⟨"n", 0⟩⟩ {} _ _ _ spec (some "db") store hlives τ s' err store' hexec hserves).1 _ hleft

/-! ## Terminating a child -/

/-- The tables of the children, local and remote, are as they were. -/
structure ChildrenKept (s s' : DynamicSupervisor) : Prop where
  logic : s'.logic = s.logic
  handles : s'.handles = s.handles
  specs : s'.specs = s.specs
  actorToId : s'.actorToId = s.actorToId
  remoteHandles : s'.remoteHandles = s.remoteHandles
  remoteActorToId : s'.remoteActorToId = s.remoteActorToId
  remoteSpawnMeta : s'.remoteSpawnMeta = s.remoteSpawnMeta

/-- `terminate_child` finds a child. -/
def Finds (s : DynamicSupervisor) (actorId : ActorId) : Prop :=
  s.RemoteChild actorId ∨ ∃ childId handle, s.actorToId actorId = some childId ∧ s.handles childId = some handle

/-- If `terminate_child` returns an error, the tables are as they were, and it finds the child again. -/
def Retryable (rt : Runtime) (ctx : Context) (s : DynamicSupervisor) (actorId : ActorId) : Prop :=
  ∀ τ s' err, ((rt.dynamicSupervisor ctx).handle s (.terminateChild actorId)).Exec τ
      (s', .terminateChild (.error err)) → ChildrenKept s s' ∧ (s.Finds actorId → s'.Finds actorId)

theorem exec_terminateChild_iff {actorId : ActorId} {τ : SupTrace} {result : Except DynamicSupervisorError Unit} :
    ((rt.dynamicSupervisor ctx).handle s (.terminateChild actorId)).Exec τ (s', .terminateChild result) ↔
      (Tasks.DynamicSupervisor.terminateChildByActor s actorId).Exec τ (s', result) := by
  rw [Runtime.dynamicSupervisor_eq]
  exact exec_reply_iff fun _ _ h => DynReply.terminateChild.inj h

/-- The wait for a remote child that fails: its handle is gone. -/
theorem handle_lost_of_remote (rt : Runtime) (ctx : Context) {actorId : ActorId} {childId : String}
    {remote : RemoteChildHandle} (hid : s.remoteActorToId actorId = some childId)
    (hremote : s.remoteHandles childId = some remote) (err : RemoteShutdownError) :
    ∃ τ, ((rt.dynamicSupervisor ctx).handle s (.terminateChild actorId)).Exec τ
      (s.remoteTaken childId, .terminateChild (.error (.remoteSpawn err.toString))) := by
  refine ⟨[⟨.shutdownRemoteAndWait remote (s.shutdownFor childId), .error err⟩], exec_terminateChild_iff.mpr ?_⟩
  simp only [Tasks.DynamicSupervisor.terminateChildByActor, hid, hremote]
  exact ⟨.error err, [], rfl, rfl, rfl⟩

theorem remoteHandles_remoteTaken (s : DynamicSupervisor) (childId : String) :
    (s.remoteTaken childId).remoteHandles childId = none :=
  Table.remove_self _ _

/-- **A failed `terminate_child` is retryable** exactly when the actor is not a remote child. -/
theorem terminate_retryable_iff (rt : Runtime) (ctx : Context) (s : DynamicSupervisor) (actorId : ActorId) :
    Retryable rt ctx s actorId ↔ ¬s.RemoteChild actorId := by
  constructor
  · rintro hretry ⟨childId, remote, hid, hremote⟩
    obtain ⟨τ, hexec⟩ := handle_lost_of_remote rt ctx hid hremote .timeout
    have hkept := (hretry τ _ _ hexec).1.remoteHandles
    have hnone := remoteHandles_remoteTaken s childId
    rw [hkept, hremote] at hnone
    cases hnone
  · intro hlocal τ s' err hexec
    have hsame : s' = s := by
      cases exec_terminateChildByActor (exec_terminateChild_iff.mp hexec) with
      | unknown => rfl
      | stuck hid hr => exact absurd ⟨_, _, hid, hr⟩ hlocal
    subst hsame
    exact ⟨⟨rfl, rfl, rfl, rfl, rfl, rfl, rfl⟩, id⟩

/-- A supervisor with a worker on node `m`, actor 2 there, whose shutdown is not confirmed in time: the worker is in no
table in which `terminate_child` would find it again. -/
theorem terminate_is_not_retryable :
    ¬∀ (rt : Runtime) (ctx : Context) (b : DynamicSupervisorBuilder) (τ₀ : SupTrace) (hist : List DynTurn)
      (p : Serving DynamicSupervisor) (actorId : ActorId),
      (rt.dynamicSupervisor ctx).Lives b.build τ₀ hist p → Retryable rt ctx p.state actorId := by
  intro h
  have hlives := Callbacks.lives_life (Runtime.dynamicSupervisor .tasks ⟨⟨"n", 0⟩⟩) placedAnswers
    ({} : DynamicSupervisorBuilder).build [.message (.startChildRemote (.worker "work" []) "m" true)]
  have hid : ((Runtime.dynamicSupervisor .tasks ⟨⟨"n", 0⟩⟩).life placedAnswers ({} : DynamicSupervisorBuilder).build
    [.message (.startChildRemote (.worker "work" []) "m" true)]).last.state.remoteActorToId 2 = some "remote#1" := by
    decide
  have hremote : ((Runtime.dynamicSupervisor .tasks ⟨⟨"n", 0⟩⟩).life placedAnswers ({} : DynamicSupervisorBuilder).build
    [.message (.startChildRemote (.worker "work" []) "m" true)]).last.state.remoteHandles "remote#1" =
      some ⟨⟨"m", 2⟩, ⟨"n", 0⟩⟩ := by
    decide
  obtain ⟨τ, hexec⟩ := handle_lost_of_remote .tasks ⟨⟨"n", 0⟩⟩ hid hremote .timeout
  have hfinds := (h .tasks ⟨⟨"n", 0⟩⟩ {} _ _ _ 2 hlives τ _ _ hexec).2 (Or.inl ⟨_, _, hid, hremote⟩)
  rcases hfinds with ⟨childId, remote, hid', hremote'⟩ | ⟨childId, handle, hid', -⟩
  · obtain rfl := Option.some.inj (hid.symm.trans hid')
    rw [remoteHandles_remoteTaken] at hremote'
    cases hremote'
  · cases hid'

end DynamicSupervisor

end Spawned
