import Spawned.Supervisor.DynamicService

/-!
# Terminating a child of a dynamic supervisor

`terminate_child` takes the child out of the engine, waits for its exit and cleans up. The actor's own `Exit` is handled
later, against tables that do not know the child any more.

* `Starts` : the child ids under which a turn starts an actor;
* `terminate_child_final` : a terminated child is never started again, its termination adds no timestamp, and its late
  exits change nothing.
-/

namespace Spawned

open Lib

namespace DynamicSupervisor

variable {ctx : Context} {s s' : DynamicSupervisor}

/-- The turn starts an actor as an instance of the child `id`: a new child under the next id, or the child an exit
restarts. -/
inductive Starts (s : DynamicSupervisor) (turn : Turn DynMsg DynReply) : String → Prop
  | added {spec : ChildSpec} {regName : Option String} {handle : ChildHandle}
      (hevent : turn.event = .message (.startChild spec regName)) (hs : Effect.started handle ∈ effects turn.calls) :
      Starts s turn (s.nextId spec.id)
  | restarted {exit : Exit} {now : Instant} {id : String} {handle : ChildHandle} (hevent : turn.event = .exit exit)
      (hnow : Effect.read now ∈ effects turn.calls)
      (hact : (s.logic.onChildExit exit.from.actorId exit.reason now).1 = .restartOne id)
      (hs : Effect.started handle ∈ effects turn.calls) : Starts s turn id

/-- The child that is restarted is registered. -/
theorem mentions_of_restartOne {actorId : ActorId} {reason : ExitReason} {now : Instant} {id : String}
    (h : (s.logic.onChildExit actorId reason now).1 = .restartOne id) : s.Mentions id := by
  rcases hact : s.logic.onChildExit actorId reason now with ⟨action, l⟩
  rw [hact] at h
  obtain rfl : action = .restartOne id := h
  cases SupervisorLogic.decides_of_onChildExit hact with
  | restartOne hr => exact Or.inl ⟨_, List.mem_of_getElem? hr.child_eq, rfl⟩

theorem Starts.mentions {turn : Turn DynMsg DynReply} {id : String} (h : Starts s turn id) :
    s.Mentions id ∨ ∃ template, id = s.nextId template := by
  cases h with
  | added => exact Or.inr ⟨_, rfl⟩
  | restarted _ _ hact => exact Or.inl (mentions_of_restartOne hact)

/-- An id that was drawn from the counter and is mentioned nowhere. -/
structure Gone (s : DynamicSupervisor) (id : String) : Prop where
  drawn : ∃ template k, id = instanceId template k ∧ k ≤ s.idCounter
  nowhere : ¬s.Mentions id

/-- The next id is another one. -/
theorem Gone.next {id template : String} (h : Gone s id) : id ≠ s.nextId template := by
  rintro rfl
  obtain ⟨template', k, heq, hk⟩ := h.drawn
  have := instanceId_counter heq
  omega

theorem Gone.not_starts {turn : Turn DynMsg DynReply} {id : String} (h : Gone s id) : ¬Starts s turn id := by
  intro hs
  rcases hs.mentions with hm | ⟨template, he⟩
  · exact h.nowhere hm
  · exact h.next he

theorem Gone.step {event : Event DynMsg} {reply : Option DynReply} {effs : List Effect} {id : String} (h : Gone s id)
    (hi : Indexed s) (hstep : DynStep ctx s event reply effs s') : Gone s' id := by
  obtain ⟨template, k, heq, hk⟩ := h.drawn
  refine ⟨⟨template, k, heq, hk.trans (counter_step hstep)⟩, fun hm => ?_⟩
  rcases hi.mentions_step hstep hm with hm | ⟨template, he⟩
  · exact h.nowhere hm
  · exact h.next he

/-- A cleaned up local child is mentioned nowhere. -/
theorem Indexed.gone_cleaned (h : Indexed s) {id : String} (hlocal : ∀ n, s.remoteActorToId n ≠ some id)
    (hin : s.Mentions id) : Gone (s.cleaned id) id := by
  refine ⟨h.old id hin, ?_⟩
  rintro (⟨child, hchild, hid⟩ | hh | hm | hsp | ⟨n, hn⟩)
  · have hmem : id ∈ allChildIds (s.logic.removeChildById id).children := List.mem_map.mpr ⟨child, hchild, hid⟩
    exact ((mem_ids_removed h).mp hmem).2 rfl
  · exact hh (Table.remove_self _ _)
  · exact hm (Table.remove_self _ _)
  · exact hsp (Table.remove_self _ _)
  · exact hlocal n hn

/-- An `Ok` of `terminate_child` for a local child. -/
theorem terminated_of_ok {actorId : ActorId} {effs : List Effect} (hl : LocalOnly s)
    (hstep : DynStep ctx s (.message (.terminateChild actorId)) (some (.terminateChild (.ok ()))) effs s') :
    ∃ childId, s.actorToId actorId = some childId ∧
      s' = (s.withLogic (s.logic.removeChildById childId)).cleaned childId := by
  cases hstep with
  | idle hok => exact absurd rfl hok
  | drawn hok => exact absurd rfl hok
  | terminated hid => exact ⟨_, hid, rfl⟩
  | released hid => exact absurd hid (by simp [hl.remote])

/-- No child has the actor. -/
def Without (s : DynamicSupervisor) (n : ActorId) : Prop := ∀ id handle, s.handles id = some handle → handle.id ≠ n

theorem Without.step {event : Event DynMsg} {reply : Option DynReply} {effs : List Effect} {n : ActorId}
    (h : Without s n) (hstep : DynStep ctx s event reply effs s') (hnew : n ∉ startedIds effs) : Without s' n := by
  intro id handle hh
  rcases handles_step hstep hh with hh | hs
  · exact h id handle hh
  · rintro rfl
    exact hnew (mem_startedIds hs)

/-- An exit of an actor no child has changes nothing. -/
theorem Without.exit {exit : Exit} {reply : Option DynReply} {effs : List Effect} (h : Without s exit.from.actorId)
    (hi : Indexed s) (hc : Complete s) (hs : InService s) (hl : LocalOnly s)
    (hstep : DynStep ctx s (.exit exit) reply effs s') : s' = s := by
  have hmiss : ∀ {child : SupervisedChild} {l : SupervisorLogic}, ¬Hit s exit child l := by
    intro child l hit
    have hin := (hc.children child.policy.id).mp (List.mem_map_of_mem hit.mem)
    obtain ⟨handle, hh⟩ := Option.ne_none_iff_exists'.mp (hin.resolve_right (by simp [hl.spawned]))
    have hslot := (hi.handle _ handle hh).2 child hit.mem rfl
    exact h _ handle hh (Option.some.inj (hslot.symm.trans hit.slot))
  obtain ⟨now, hexit⟩ := hs.exitStep hc hstep
  cases hexit with
  | unknown => rfl
  | final hit => exact absurd hit hmiss
  | meltdown hit => exact absurd hit hmiss
  | restarted hit => exact absurd hit hmiss
  | respawned hit => exact absurd hit hmiss
  | lost hit => exact absurd hit hmiss

/-- Right after a termination: the child is gone, nobody has its actor, and no timestamp was added. -/
theorem terminated_lives {rt : Runtime} {b : DynamicSupervisorBuilder} {τ₀ : SupTrace} {hist : List DynTurn}
    {p q : Serving DynamicSupervisor} {turn : Turn DynMsg DynReply} {childId : String} {handle : ChildHandle}
    (h : (rt.dynamicSupervisor ctx).Lives b.build τ₀ (hist ++ [(p, turn)]) q) (hlocal : ∀ x ∈ hist, LocalTurn x)
    (hfresh : (startedIn hist).Nodup) (hchild : p.state.handles childId = some handle)
    (hevent : turn.event = .message (.terminateChild handle.id)) (hok : turn.reply = some (.terminateChild (.ok ()))) :
    q.state.logic.intensity = p.state.logic.intensity ∧ Gone q.state childId ∧ Without q.state handle.id := by
  obtain ⟨hlives, hturn⟩ := h.last
  have hi := indexed_lives hlives
  have hl := localOnly_lives hlives hlocal
  obtain ⟨hinv, -⟩ := inverse_lives hlives hfresh
  have hstep := (dynStep_of_handles hturn).1
  rw [hevent, hok] at hstep
  obtain ⟨childId', hid, hq⟩ := terminated_of_ok hl hstep
  obtain rfl : childId = childId' := by
    have hrev := (hinv handle.id childId).mpr ⟨handle, hchild, rfl⟩
    exact Option.some.inj (hrev.symm.trans hid)
  rw [hi.removed_cleaned] at hq
  rw [hq]
  refine ⟨rfl, hi.gone_cleaned (by simp [hl.remote]) (Or.inr (Or.inl (by simp [hchild]))), fun id handle' hh heq => ?_⟩
  rw [cleaned_handles, Table.remove_apply] at hh
  split_ifs at hh with hne
  exact hne (hinv.key_unique hh hchild heq)

/-- **`terminate_child` is final.** When `terminate_child` has answered `Ok` for a local child, the termination has added
no timestamp to the intensity window; whatever is handled later, no turn starts another instance of the child; and a
late or duplicated `Exit` of its actor, with any reason, changes nothing. -/
theorem terminate_child_final (rt : Runtime) (ctx : Context) (b : DynamicSupervisorBuilder) (τ₀ : SupTrace)
    (hist : List DynTurn) (p q : Serving DynamicSupervisor) (turn : Turn DynMsg DynReply) (childId : String)
    (handle : ChildHandle) (h : (rt.dynamicSupervisor ctx).Lives b.build τ₀ (hist ++ [(p, turn)]) q)
    (hlocal : ∀ x ∈ hist, LocalTurn x) (hfresh : (startedIn hist).Nodup) (hchild : p.state.handles childId = some handle)
    (hevent : turn.event = .message (.terminateChild handle.id)) (hok : turn.reply = some (.terminateChild (.ok ()))) :
    q.state.logic.intensity = p.state.logic.intensity ∧
    (∀ later r, Run (rt.dynamicSupervisor ctx).Handles q later r → ∀ x ∈ later, ¬Starts x.1.state x.2 childId) ∧
    ∀ later r last r' exit, Run (rt.dynamicSupervisor ctx).Handles q (later ++ [(r, last)]) r' →
      (∀ x ∈ later, LocalTurn x) → (startedIn (hist ++ later)).Nodup → last.event = .exit exit →
      exit.from.actorId = handle.id → r'.state = r.state := by
  obtain ⟨hintensity, hgone, hwithout⟩ := terminated_lives h hlocal hfresh hchild hevent hok
  have hturn : LocalTurn (p, turn) := fun spec placement link he => by
    rw [show turn.event = _ from he] at hevent
    cases hevent
  -- a later run continues the life
  have hgrow : ∀ {later : List DynTurn} {r : Serving DynamicSupervisor},
      Run (rt.dynamicSupervisor ctx).Handles q later r →
      (rt.dynamicSupervisor ctx).Lives b.build τ₀ (hist ++ [(p, turn)] ++ later) r := by
    intro later r hrun
    obtain ⟨s₀, hstarted, hserve⟩ := h
    exact ⟨s₀, hstarted, hserve.append hrun⟩
  refine ⟨hintensity, fun later r hrun x hx => ?_, fun later r last r' exit hrun hlater hnodup he hfrom => ?_⟩
  · obtain ⟨before, -, -, -, hbefore, -⟩ := hrun.mem_split hx
    refine Gone.not_starts (hbefore.inv_history (I := fun before y => Run (rt.dynamicSupervisor ctx).Handles q before y ∧
      Gone y.state childId) ⟨.nil, hgone⟩ ?_).2
    rintro before y t z ⟨hy, hg⟩ hstep
    exact ⟨hy.snoc hstep, hg.step (indexed_lives (hgrow hy)) (dynStep_of_handles hstep).1⟩
  · obtain ⟨hr, hlast⟩ := hrun.snoc_inv
    -- the actor was started before, so nobody else was started with its id since
    have hmem := (inverse_lives h.last.1 hfresh).2 childId handle hchild
    rw [startedIn_append] at hnodup
    have hnew : handle.id ∉ startedIn later := fun hin => (List.nodup_append.mp hnodup).2.2 _ hmem _ hin rfl
    have hnone : handle.id ∉ startedIn later → Without r.state handle.id := by
      refine hr.inv_history (I := fun later r => handle.id ∉ startedIn later → Without r.state handle.id)
        (fun _ => hwithout) fun before y t z ih hstep hn => ?_
      rw [startedIn_append, startedIn_singleton, List.mem_append, not_or] at hn
      exact (ih hn.1).step (dynStep_of_handles hstep).1 hn.2
    have hlives := hgrow hr
    have hl : LocalOnly r.state := by
      refine localOnly_lives hlives fun x hx => ?_
      rcases List.mem_append.mp hx with hx | hx
      · rcases List.mem_append.mp hx with hx | hx
        · exact hlocal x hx
        · rw [List.mem_singleton.mp hx]
          exact hturn
      · exact hlater x hx
    have hstep := (dynStep_of_handles hlast).1
    rw [he] at hstep
    refine Without.exit ?_ (indexed_lives hlives) (complete_lives hlives) (inService_lives hlives hlast.1) hl hstep
    rw [hfrom]
    exact hnone hnew

/-- The mixed life up to the termination of the second worker (actor 4). -/
def terminatedLife : Life DynamicSupervisor DynMsg DynReply :=
  (Runtime.dynamicSupervisor .tasks ⟨⟨"n", 0⟩⟩).life calmAnswers ({} : DynamicSupervisorBuilder).build
    (mixedEvents.take 4)

theorem terminate_child_final_mixed :
    terminatedLife.last.state.handles "temp#2" = none ∧
      ∀ later r, Run (Runtime.dynamicSupervisor .tasks ⟨⟨"n", 0⟩⟩).Handles terminatedLife.last later r →
        ∀ x ∈ later, ¬Starts x.1.state x.2 "temp#2" := by
  refine ⟨by decide, ?_⟩
  have hne : terminatedLife.turns ≠ [] := by decide
  have hlives : (Runtime.dynamicSupervisor .tasks ⟨⟨"n", 0⟩⟩).Lives ({} : DynamicSupervisorBuilder).build
      terminatedLife.startCalls (terminatedLife.turns.dropLast ++ [terminatedLife.turns.getLast hne])
      terminatedLife.last := by
    rw [List.dropLast_concat_getLast]
    exact Callbacks.lives_life ..
  refine (terminate_child_final .tasks ⟨⟨"n", 0⟩⟩ {} _ _ _ _ _ "temp#2" ⟨4⟩ hlives ?_ (by decide) (by decide)
    rfl rfl).2.1
  intro x hx spec placement link
  have hevent := Callbacks.event_life (Runtime.dynamicSupervisor .tasks ⟨⟨"n", 0⟩⟩) calmAnswers _
    (mixedEvents.take 4) (List.dropLast_subset _ hx)
  simp only [mixedEvents, List.take_succ_cons, List.take_zero, List.mem_cons, List.not_mem_nil, or_false] at hevent
  rcases hevent with he | he | he | he <;> simp [he]

end DynamicSupervisor

end Spawned
