import Spawned.Supervisor.Batch

/-!
# Temporary children

`should_restart` never answers for a Temporary child, but it is asked for the exiting child only: the batch strategies
restart every id of their scope, whatever its restart type.

* `SparesTemporary` : no id in the restart scope of an exit belongs to a Temporary spec;
* `temporary_never_restarted` : when every exit that calls for a restart is such, no handler, and not `stopped` either,
  starts a Temporary child; its only instance is the one `started` made.
-/

namespace Spawned

open Lib

/-- The ids restarted when `child` exits and is to be restarted. -/
def SupervisorLogic.restartScope (l : SupervisorLogic) (child : SupervisedChild) : List String :=
  match l.strategy with
  | .oneForOne => [child.policy.id]
  | .oneForAll => allChildIds l.children
  | .restForOne => restForOneIds l.children child.policy.startIndex

/-- No Temporary spec has this id. -/
def Spared (specs : List ChildSpec) (id : String) : Prop :=
  ∀ spec ∈ specs, spec.id = id → spec.restart ≠ .temporary

instance (specs : List ChildSpec) (id : String) : Decidable (Spared specs id) :=
  inferInstanceAs (Decidable (∀ spec ∈ specs, spec.id = id → spec.restart ≠ .temporary))

/-- The call starts an instance of a Temporary child. -/
def StartsTemporary (specs : List ChildSpec) : SupOp → Prop
  | .startChild spec => spec.restart = .temporary
  | .requestSpawnWithRetry childId _ _ _ _ => ¬Spared specs childId
  | _ => False

/-- If the exit calls for a restart, no id of its scope belongs to a Temporary spec. -/
def SupervisorLogic.SparesTemporary (specs : List ChildSpec) (l : SupervisorLogic) (exit : Exit) (now : Instant) :
    Prop :=
  ∀ p child, l.Restarts exit.from.actorId exit.reason now p child → ∀ id ∈ l.restartScope child, Spared specs id

namespace Supervisor

/-- The ids a callback is going to restart. -/
def Todo.toRestart : Todo → List String
  | .restart ids => ids
  | .relaunch id ids => id :: ids
  | _ => []

/-- Everything that is going to be restarted is spared. -/
structure TemporaryInv (specs : List ChildSpec) (c : Conf) : Prop where
  specs_eq : c.sup.specs = specs
  pending : ∀ b, c.sup.logic.pendingBatchRestart = some b → ∀ id ∈ c.sup.logic.batchIds b, Spared specs id
  todo : ∀ id ∈ c.todo.toRestart, Spared specs id

/-- The condition on a transition. -/
def TemporaryAligned (specs : List ChildSpec) (c : Conf) (act : Act) : Prop :=
  ∀ exit now, act.exit = some exit → ⟨.now, now⟩ ∈ act.calls → c.sup.logic.SparesTemporary specs exit now

theorem batchIds_congr {l l' : SupervisorLogic} (h : l'.children.map (·.policy) = l.children.map (·.policy))
    (b : BatchRestart) : l'.batchIds b = l.batchIds b := by
  cases b with
  | all => exact SupervisorLogic.allChildIds_congr h
  | fromIndex k => exact SupervisorLogic.restForOneIds_congr k h

/-- Engine operations that keep the policies and the pending batch keep what the batch restarts. -/
theorem TemporaryInv.of_policies {specs : List ChildSpec} {c : Conf} (h : TemporaryInv specs c) {s : Supervisor}
    {todo : Todo} (hspecs : s.specs = c.sup.specs)
    (hp : s.logic.children.map (·.policy) = c.sup.logic.children.map (·.policy))
    (hb : s.logic.pendingBatchRestart = c.sup.logic.pendingBatchRestart)
    (ht : ∀ id ∈ todo.toRestart, Spared specs id) : TemporaryInv specs ⟨s, todo⟩ := by
  refine ⟨hspecs.trans h.specs_eq, fun b hb' id hid => ?_, ht⟩
  rw [batchIds_congr hp] at hid
  exact h.pending b (hb ▸ hb') id hid

theorem TemporaryInv.of_none {specs : List ChildSpec} {s : Supervisor} {todo : Todo} (hspecs : s.specs = specs)
    (hp : s.logic.pendingBatchRestart = none) (ht : ∀ id ∈ todo.toRestart, Spared specs id) :
    TemporaryInv specs ⟨s, todo⟩ := by
  refine ⟨hspecs, fun b hb => ?_, ht⟩
  rw [hp] at hb
  cases hb

theorem temporaryInv_init (b : SupervisorBuilder) : TemporaryInv b.specs ⟨b.build, .start 0 b.specs⟩ :=
  .of_none rfl rfl (by simp [Todo.toRestart])

/-- The scope of an exit is read off the policies, which marking does not change. -/
theorem batchIds_recorded {l : SupervisorLogic} {actorId : ActorId} {now : Instant} (b : BatchRestart) :
    SupervisorLogic.batchIds { l.recorded actorId now with
      suppressRestarts := true, pendingBatchRestart := some b } b = l.batchIds b :=
  batchIds_congr (by simp [SupervisorLogic.recorded]) b

theorem temporaryInv_step {ctx : Context} {specs : List ChildSpec} {c c' : Conf} {act : Act} (hpc : PendingInv c)
    (h : TemporaryInv specs c) (ha : TemporaryAligned specs c act) (hstep : Micro ctx c act c') :
    TemporaryInv specs c' := by
  have hpc' := pendingInv_step hpc hstep
  have hidle : ∀ id ∈ Todo.idle.toRestart, Spared specs id := by simp [Todo.toRestart]
  have hterm : ∀ ids, ∀ id ∈ (Todo.terminate ids).toRestart, Spared specs id := by simp [Todo.toRestart]
  have htodo := h.todo
  cases hstep with
  | startLocal handle hspec => exact .of_none h.specs_eq (hpc'.quiet trivial) (by simp [Todo.toRestart])
  | startNoWire hspec hwire => exact .of_none h.specs_eq (hpc'.quiet trivial) (by simp [Todo.toRestart])
  | startFailed error hwire hplace => exact .of_none h.specs_eq (hpc'.quiet trivial) (by simp [Todo.toRestart])
  | startRemote address hwire hplace => exact .of_none h.specs_eq (hpc'.quiet trivial) (by simp [Todo.toRestart])
  | started => exact h.of_policies rfl rfl rfl hidle
  | note exit hsup =>
    exact h.of_policies rfl (by simp [SupervisorLogic.noteExitDuringBatch])
      (by simp [SupervisorLogic.noteExitDuringBatch]) (hterm _)
  | ignore exit now hsup hact =>
    cases SupervisorLogic.decides_of_onChildExit hact with
    | suppressed hs => exact h.of_policies rfl rfl rfl hidle
    | unknown hs => exact h.of_policies rfl rfl rfl hidle
    | final hidx hchild hr =>
      exact h.of_policies rfl (by simp [SupervisorLogic.resetBackoff]) (by simp [SupervisorLogic.resetBackoff]) hidle
  | restartOne exit now hsup hact =>
    have hspare := ha exit now rfl (by simp)
    cases SupervisorLogic.decides_of_onChildExit hact with
    | restartOne hr hst =>
      refine .of_none h.specs_eq (hpc'.quiet trivial) fun id hid => ?_
      obtain rfl : id = _ := by simpa [Todo.toRestart] using hid
      exact hspare _ _ hr _ (by simp [SupervisorLogic.restartScope, hst])
  | @terminateBatch s logic ids exit now hsup hact =>
    have hspare := ha exit now rfl (by simp)
    cases SupervisorLogic.decides_of_onChildExit hact with
    | all hr hst =>
      refine ⟨h.specs_eq, fun b hb id hid => ?_, hterm _⟩
      obtain rfl : BatchRestart.all = b := by simpa using hb
      rw [withLogic_logic, batchIds_recorded] at hid
      exact hspare _ _ hr id (by simpa only [SupervisorLogic.restartScope, hst, SupervisorLogic.batchIds] using hid)
    | rest hr hst =>
      refine ⟨h.specs_eq, fun b hb id hid => ?_, hterm _⟩
      obtain rfl : BatchRestart.fromIndex _ = b := by simpa using hb
      rw [withLogic_logic, batchIds_recorded] at hid
      exact hspare _ _ hr id (by simpa only [SupervisorLogic.restartScope, hst, SupervisorLogic.batchIds] using hid)
  | meltdown exit now hsup hact =>
    cases SupervisorLogic.decides_of_onChildExit hact with
    | meltdown hidx hchild hr hi =>
      exact h.of_policies rfl (by simp [SupervisorLogic.recorded]) (by simp [SupervisorLogic.recorded]) hidle
  | terminateRemote answer hremote halive => exact h.of_policies rfl (by simp) (by simp) (hterm _)
  | terminateRemoteDead hremote halive => exact h.of_policies rfl rfl rfl (hterm _)
  | terminateLocal reason hremote hlocal hτ => exact h.of_policies rfl (by simp) (by simp) (hterm _)
  | terminateNone hremote hlocal => exact h.of_policies rfl rfl rfl (hterm _)
  | incomplete hdone => exact h.of_policies rfl rfl rfl hidle
  | @complete s ids logic hdone htake =>
    refine .of_none h.specs_eq (hpc'.quiet trivial) fun id hid => ?_
    -- the restart loop runs over the ids of the pending batch
    cases hp : s.logic.pendingBatchRestart with
    | none => simp [SupervisorLogic.takePendingRestartIds, hp] at htake
    | some b =>
      obtain ⟨rfl, -⟩ : _ ∧ _ := by simpa [SupervisorLogic.takePendingRestartIds, hp] using htake
      have hmem : id ∈ s.logic.batchIds b := by
        rcases List.mem_append.mp hid with hid | hid
        · exact List.mem_of_mem_filter hid
        · exact List.mem_of_mem_filter hid
      exact h.pending b hp id hmem
  | backoff hdelay => exact .of_none h.specs_eq (hpc'.quiet trivial) (by simpa [Todo.toRestart] using htodo)
  | relaunchNone hmeta hspec =>
    exact .of_none h.specs_eq (hpc'.quiet trivial) fun id hid => htodo id (List.mem_cons_of_mem _ hid)
  | relaunchLocal handle hmeta hspec =>
    exact .of_none h.specs_eq (hpc'.quiet trivial) fun id hid => htodo id (List.mem_cons_of_mem _ hid)
  | relaunchFailed error hmeta =>
    exact .of_none h.specs_eq (hpc'.quiet trivial) fun id hid => htodo id (List.mem_cons_of_mem _ hid)
  | relaunchRemote address hmeta =>
    exact .of_none h.specs_eq (hpc'.quiet trivial) fun id hid => htodo id (List.mem_cons_of_mem _ hid)
  | restarted => exact h.of_policies rfl rfl rfl hidle

/-- A transition after the start loop starts only what is going to be restarted. -/
theorem calls_not_temporary {ctx : Context} {specs : List ChildSpec} {c c' : Conf} {act : Act}
    (h : TemporaryInv specs c) (hstart : ∀ index specs, c.todo ≠ .start index specs) (hstep : Micro ctx c act c') :
    ∀ call ∈ act.calls, ¬StartsTemporary specs call.op := by
  cases hstep with
  | startLocal => exact absurd rfl (hstart _ _)
  | startFailed => exact absurd rfl (hstart _ _)
  | startRemote => exact absurd rfl (hstart _ _)
  | @relaunchLocal s id ids spec handle hmeta hspec =>
    have hfound : spec ∈ specs ∧ spec.id = id := by
      rw [← h.specs_eq]
      exact ⟨List.mem_of_find?_eq_some hspec, by simpa using List.find?_some hspec⟩
    have hspared := h.todo id (by simp [Todo.toRestart]) spec hfound.1 hfound.2
    simpa [StartsTemporary] using hspared
  | @relaunchFailed s id ids spawned error hmeta =>
    simpa [StartsTemporary] using h.todo id (by simp [Todo.toRestart])
  | @relaunchRemote s id ids spawned address hmeta =>
    simpa [StartsTemporary] using h.todo id (by simp [Todo.toRestart])
  | @terminateLocal s id ids handle τ reason hremote hlocal hτ =>
    intro call hcall
    have hon := (calls_shutdownChildAsync handle (s.shutdownFor id)).of_exec hτ call hcall
    rcases hon with hop | hop | hop | hop | ⟨d, hop⟩ <;> simp [hop, StartsTemporary]
  | @backoff s id ids delay logic hdelay =>
    intro call hcall
    unfold sleepCalls at hcall
    split_ifs at hcall with hd
    · obtain rfl : call = _ := List.mem_singleton.mp hcall
      simp [StartsTemporary]
    · cases hcall
  | _ => simp [StartsTemporary]

/-! ## Stopping starts nothing -/

/-- The call starts no child at all. -/
def StartsNothing : SupOp → Prop
  | .startChild _ | .requestSpawnWithRetry _ _ _ _ _ => False
  | _ => True

theorem StartsNothing.not_temporary {specs : List ChildSpec} {e : SupOp} (h : StartsNothing e) :
    ¬StartsTemporary specs e := by
  cases e <;> simp_all [StartsNothing, StartsTemporary]

theorem calls_shutdown_startsNothing (handle : ChildHandle) (shutdown : ShutdownType) :
    (shutdownChildAsync handle shutdown).Calls StartsNothing := by
  refine (calls_shutdownChildAsync handle shutdown).mono fun e he => ?_
  rcases he with rfl | rfl | rfl | rfl | ⟨d, rfl⟩ <;> trivial

theorem calls_shutdownEach (s : Supervisor) (ids : List String) :
    (Tasks.Supervisor.shutdownEach s ids).Calls StartsNothing := by
  induction ids with
  | nil => trivial
  | cons id ids ih =>
    rw [Tasks.Supervisor.shutdownEach]
    cases hr : s.remoteHandles id with
    | none =>
      cases hh : s.handles id with
      | none => exact ih
      | some handle => exact .bind (calls_shutdown_startsNothing _ _) fun _ => ih
    | some remote =>
      have hrest : (do
          let _ ← ask (.shutdownRemoteAndWait remote (s.shutdownFor id))
          Tasks.Supervisor.shutdownEach s ids : SupProg Unit).Calls StartsNothing :=
        .bind (by simp [StartsNothing]) fun _ => ih
      cases hh : s.handles id with
      | none => exact hrest
      | some handle => exact .bind (calls_shutdown_startsNothing _ _) fun _ => hrest

theorem calls_stopped (s : Supervisor) : (Tasks.Supervisor.stopped s).Calls StartsNothing :=
  .bind (calls_shutdownEach _ _) fun _ => trivial

/-! ## Whole lives -/

/-- **A Temporary child is never restarted while no restart scope holds one.** If every exit that calls for a restart
has no Temporary child in its scope, then no handler of the life starts a Temporary child, and neither does
`stopped`. -/
theorem temporary_never_restarted (rt : Runtime) (ctx : Context) (b : SupervisorBuilder) (τ₀ : SupTrace)
    (hist : List (Serving Supervisor × Turn Empty Empty)) (p : Serving Supervisor)
    (h : (rt.supervisor ctx).Lives b.build τ₀ hist p)
    (ha : ∀ x ∈ hist, ∀ exit now, x.2.event = .exit exit → ⟨.now, now⟩ ∈ x.2.calls →
      x.1.state.logic.SparesTemporary b.specs exit now) :
    (∀ x ∈ hist, ∀ call ∈ x.2.calls, ¬StartsTemporary b.specs call.op) ∧
      ((rt.supervisor ctx).stopped p.state).Calls (fun e => ¬StartsTemporary b.specs e) := by
  obtain ⟨s₀, start, turns, hstart, hsilent, -, hturns, hcalls, hexits⟩ := machine_of_lives h
  have haligned : ∀ x ∈ start ++ turns, TemporaryAligned b.specs x.1 x.2 := by
    intro x hx exit now he hnow
    rcases List.mem_append.mp hx with hx | hx
    · rw [hsilent x hx] at he
      cases he
    · obtain ⟨y, hy, hstate, hev, hsub⟩ := hexits x hx exit he
      rw [← hstate]
      exact ha y hy exit now hev (hsub _ hnow)
  refine ⟨fun x hx call hcall => ?_, ?_⟩
  · have hmem : call ∈ turns.flatMap (·.2.calls) := by
      rw [hcalls]
      exact List.mem_flatMap.mpr ⟨x, hx, hcall⟩
    obtain ⟨y, hy, hycall⟩ := List.mem_flatMap.mp hmem
    obtain ⟨τ₁, τ₂, c', rfl, hrun, hstep⟩ := hturns.mem_split hy
    have hinv : PendingInv y.1 ∧ TemporaryInv b.specs y.1 := by
      refine (hstart.append hrun).inv_of_steps (P := TemporaryAligned b.specs)
        (I := fun c => PendingInv c ∧ TemporaryInv b.specs c) ⟨pendingInv_init b, temporaryInv_init b⟩ ?_ ?_
      · exact fun c act c' hi hP hs => ⟨pendingInv_step hi.1 hs, temporaryInv_step hi.1 hi.2 hP hs⟩
      · intro z hz
        refine haligned z ?_
        rcases List.mem_append.mp hz with hz | hz
        · exact List.mem_append_left _ hz
        · exact List.mem_append_right _ (List.mem_append_left _ hz)
    exact calls_not_temporary hinv.2 (not_start_of_idle hrun) hstep call hycall
  · rw [Runtime.supervisor_eq]
    exact (calls_stopped p.state).mono fun e he => he.not_temporary

/-- A Temporary job beside a Permanent worker. -/
def jobSpec : ChildSpec := { id := "job", restart := .temporary }

def workSpec : ChildSpec := { id := "work", restart := .permanent }

def jobBuilder (strategy : SupervisorStrategy) : SupervisorBuilder where
  strategy := strategy
  specs := [jobSpec, workSpec]

/-- The supervisor of the two, in a calm environment: the job is actor 2, the worker actor 3. -/
def jobLife (strategy : SupervisorStrategy) (exits : List Exit) : Life Supervisor Empty Empty :=
  (Runtime.supervisor .tasks ⟨⟨"n", 0⟩⟩).life calmAnswers (jobBuilder strategy).build (exits.map .exit)

/-- Under `OneForOne` the worker's panic restarts the worker only. -/
theorem temporary_never_restarted_oneForOne :
    ¬∃ x ∈ (jobLife .oneForOne [⟨⟨"n", 3⟩, .panic "boom"⟩]).turns, ∃ call ∈ x.2.calls,
      StartsTemporary (jobBuilder .oneForOne).specs call.op := by
  rintro ⟨x₀, hx₀, call, hcall, hstarts⟩
  refine (temporary_never_restarted .tasks ⟨⟨"n", 0⟩⟩ (jobBuilder .oneForOne) _ _ _
    (Callbacks.lives_life _ calmAnswers _ _) ?_).1 x₀ hx₀ call hcall hstarts
  intro x hx exit now he _ p child hr
  obtain rfl := List.mem_singleton.mp (show x ∈ [_] from hx)
  cases (show Event.exit ⟨⟨"n", 3⟩, .panic "boom"⟩ = Event.exit exit from he)
  cases (show some 1 = some p from hr.index)
  cases hr.child_eq
  intro id hid
  obtain rfl : id = "work" := List.mem_singleton.mp hid
  decide

/-- **A Temporary child restarted.** Under `OneForAll` the job ends normally, then the worker panics, and the batch
starts the job again. -/
theorem temporary_restarted_by_batch :
    ¬∀ (rt : Runtime) (ctx : Context) (b : SupervisorBuilder) (τ₀ : SupTrace)
      (hist : List (Serving Supervisor × Turn Empty Empty)) (p : Serving Supervisor),
      (rt.supervisor ctx).Lives b.build τ₀ hist p →
      ∀ before x after, hist = before ++ x :: after → ∀ spec ∈ b.specs, spec.restart = .temporary →
        (∃ exit, x.2.event = .exit exit ∧ x.1.state.handles spec.id = some ⟨exit.from.actorId⟩) →
        ∀ y ∈ after, ∀ call ∈ y.2.calls, call.op ≠ .startChild spec := by
  intro h
  have hlife := Callbacks.lives_life (Runtime.supervisor .tasks ⟨⟨"n", 0⟩⟩) calmAnswers (jobBuilder .oneForAll).build
    [.exit ⟨⟨"n", 2⟩, .normal⟩, .exit ⟨⟨"n", 3⟩, .panic "boom"⟩]
  have hnever := h .tasks ⟨⟨"n", 0⟩⟩ (jobBuilder .oneForAll) _ _ _ hlife [] _ _ rfl jobSpec (by decide) rfl
    ⟨_, rfl, rfl⟩ _ (List.mem_singleton_self _)
  exact absurd hnever (by decide)

end Supervisor

end Spawned
