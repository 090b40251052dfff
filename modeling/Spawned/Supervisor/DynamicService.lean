import Mathlib.Data.List.Find
import Spawned.Supervisor.DynamicTables

/-!
# A dynamic supervisor in service

Until a handler has called `ctx.stop()`, every child registered in the engine is marked alive: an exit that marks one
dead restarts it, drops it or stops the supervisor in the same handler. The limit on children is checked only when a
child is started and rests on that.

* `InService` : restarts are enabled, one for one, and nobody is dead;
* `ExitStep` : what an exit can lead to in service, and which child it is about;
* `max_children_respected` : the limit holds in every life;
* `remote_tables_agree` : when the tables of the remote children agree.
-/

namespace Spawned

open Lib

namespace SupervisorLogic

variable {l l' : SupervisorLogic} {actorId : ActorId}

/-- Which child holds an actor depends on policies and slot ids only. -/
theorem childIdByActorAny_of_faces (h : l'.children.map (·.face) = l.children.map (·.face)) :
    l'.childIdByActorAny actorId = l.childIdByActorAny actorId := by
  have hany : ∀ l : SupervisorLogic, l.childIdByActorAny actorId =
      ((l.children.map (·.face)).find? (fun face => face.2 == some actorId)).map (·.1.id) := by
    intro l
    rw [childIdByActorAny, List.find?_map, Option.map_map]
    congr 1
    refine congrArg (fun f => l.children.find? f) (funext fun child => ?_)
    cases hh : child.handle <;>
      simp [SupervisedChild.hasActor, SupervisedChild.face, SupervisedChild.slotId, hh]
  rw [hany, hany, h]

/-- Among children that are all alive, the actor's child is found whichever way it is looked up. -/
theorem childIdByActorAny_of_alive (halive : ∀ child ∈ l.children, child.isAlive = true) :
    l.childIdByActorAny actorId = ((l.childIndexByActor actorId).bind (l.children[·]?)).map (·.policy.id) := by
  have hsame : ∀ child ∈ l.children, child.hasActor actorId =
      child.handle.any (fun slot => slot.id == actorId && slot.alive) := by
    intro child hchild
    have ha := halive child hchild
    unfold SupervisedChild.isAlive at ha
    cases hh : child.handle with
    | none => simp [SupervisedChild.hasActor, hh]
    | some slot => simp_all [SupervisedChild.hasActor]
  rw [childIdByActorAny, childIndexByActor, List.find?_congr hsame, List.find?_eq_bind_findIdx?_getElem?]

end SupervisorLogic

namespace DynamicSupervisor

variable {ctx : Context} {s s' : DynamicSupervisor} {exit : Exit} {effs : List Effect}

/-- Restarts are enabled, one for one, and every registered child is marked alive. -/
structure InService (s : DynamicSupervisor) : Prop where
  strategy : s.logic.strategy = .oneForOne
  enabled : s.logic.suppressRestarts = false
  alive : ∀ child ∈ s.logic.children, child.isAlive = true

theorem inService_build (b : DynamicSupervisorBuilder) : InService b.build := ⟨rfl, rfl, nofun⟩

/-! ## What an exit leads to -/

/-- The exit is about `child`, and `l` is the engine after `child` was marked. -/
structure Hit (s : DynamicSupervisor) (exit : Exit) (child : SupervisedChild) (l : SupervisorLogic) : Prop where
  mem : child ∈ s.logic.children
  slot : child.slotId = some exit.from.actorId
  any : s.logic.childIdByActorAny exit.from.actorId = some child.policy.id
  faces : l.children.map (·.face) = s.logic.children.map (·.face)
  others : ∀ other ∈ l.children, other.policy.id ≠ child.policy.id → other ∈ s.logic.children
  strategy : l.strategy = s.logic.strategy
  enabled : l.suppressRestarts = s.logic.suppressRestarts

theorem InService.hit (h : InService s) {p : Nat} {child : SupervisedChild} {l : SupervisorLogic}
    (hp : s.logic.childIndexByActor exit.from.actorId = some p) (hc : s.logic.children[p]? = some child)
    (hl : l.children = (s.logic.markChildDead exit.from.actorId).children) (hst : l.strategy = s.logic.strategy)
    (hen : l.suppressRestarts = s.logic.suppressRestarts) : Hit s exit child l := by
  obtain ⟨child', hc', hslot⟩ := SupervisorLogic.childIndexByActor_eq_some hp
  obtain rfl : child = child' := Option.some.inj (hc.symm.trans hc')
  refine ⟨List.mem_of_getElem? hc, ?_, ?_, ?_, fun other ho hne => ?_, hst, hen⟩
  · rw [SupervisedChild.slotId, hslot]
    rfl
  · rw [SupervisorLogic.childIdByActorAny_of_alive h.alive, hp]
    simp [hc]
  · rw [hl, SupervisorLogic.markChildDead_faces]
  · rw [hl] at ho
    obtain ⟨j, hj⟩ := List.mem_iff_getElem?.mp ho
    rw [SupervisorLogic.markChildDead_getElem?, hp] at hj
    split_ifs at hj with hpj
    · -- the marked child itself
      obtain rfl := Option.some.inj hpj
      rw [hc] at hj
      obtain rfl := Option.some.inj hj
      exact absurd rfl hne
    · exact List.mem_of_getElem? hj

theorem InService.hit_of_final (h : InService s) {p : Nat} {child : SupervisedChild}
    (hp : s.logic.childIndexByActor exit.from.actorId = some p) (hc : s.logic.children[p]? = some child) :
    Hit s exit child ((s.logic.markChildDead exit.from.actorId).resetBackoff child.policy.id) :=
  h.hit hp hc rfl (by simp [SupervisorLogic.resetBackoff]) (by simp [SupervisorLogic.resetBackoff])

theorem InService.hit_of_recorded (h : InService s) {p : Nat} {child : SupervisedChild} (now : Instant)
    (hp : s.logic.childIndexByActor exit.from.actorId = some p) (hc : s.logic.children[p]? = some child) :
    Hit s exit child (s.logic.recorded exit.from.actorId now) :=
  h.hit hp hc rfl (by simp [SupervisorLogic.recorded]) (by simp [SupervisorLogic.recorded])

variable (ctx s exit) in
/-- What the handler of an exit can do in service. -/
inductive ExitStep (now : Instant) : List Effect → DynamicSupervisor → Prop
  /-- of nobody supervised -/
  | unknown (hany : s.logic.childIdByActorAny exit.from.actorId = none) : ExitStep now [.read now] s
  | final {child : SupervisedChild} {l : SupervisorLogic} (hit : Hit s exit child l)
      (hr : shouldRestart child.policy.restart exit.reason = false) :
      ExitStep now (.read now :: s.unnaming child.policy.id) ((s.withLogic l).cleaned child.policy.id)
  | meltdown {child : SupervisedChild} {l : SupervisorLogic} (hit : Hit s exit child l)
      (hr : shouldRestart child.policy.restart exit.reason = true)
      (hi : (s.logic.intensity.recordRestart now).1 = false) : ExitStep now [.read now, .stop] (s.withLogic l)
  | restarted {child : SupervisedChild} {l : SupervisorLogic} {spec : ChildSpec} {handle : ChildHandle}
      (hit : Hit s exit child l) (hr : shouldRestart child.policy.restart exit.reason = true)
      (hi : (s.logic.intensity.recordRestart now).1 = true) (hmeta : s.remoteSpawnMeta child.policy.id = none)
      (hspec : s.specs child.policy.id = some spec) :
      ExitStep now [.read now, .started handle]
        (((s.withLogic l).delayed child.policy.id).localRestarted child.policy.id handle)
  | respawned {child : SupervisedChild} {l : SupervisorLogic} {address : ActorAddress} (hit : Hit s exit child l)
      (hr : shouldRestart child.policy.restart exit.reason = true)
      (hi : (s.logic.intensity.recordRestart now).1 = true) (hmeta : s.remoteSpawnMeta child.policy.id ≠ none) :
      ExitStep now [.read now, .spawned child.policy.id address]
        ((((s.withLogic l).delayed child.policy.id).remoteForgotten child.policy.id).remoteRestarted child.policy.id
          address ctx.actorAddress)
  | lost {child : SupervisedChild} {l : SupervisorLogic} (hit : Hit s exit child l)
      (hr : shouldRestart child.policy.restart exit.reason = true)
      (hi : (s.logic.intensity.recordRestart now).1 = true) (hmeta : s.remoteSpawnMeta child.policy.id ≠ none) :
      ExitStep now (.read now :: s.unnaming child.policy.id)
        ((((s.withLogic l).delayed child.policy.id).remoteForgotten child.policy.id).cleaned child.policy.id)

/-- The child a restart is about. -/
theorem InService.hit_of_restartOne (h : InService s) {now : Instant} {childId : String} {l : SupervisorLogic}
    (hd : s.logic.Decides exit.from.actorId exit.reason now (.restartOne childId) l) :
    ∃ child, Hit s exit child l ∧ childId = child.policy.id ∧ shouldRestart child.policy.restart exit.reason = true ∧
      (s.logic.intensity.recordRestart now).1 = true := by
  cases hd with
  | restartOne hr => exact ⟨_, h.hit_of_recorded now hr.index hr.child_eq, rfl, hr.should, hr.accepted⟩

/-- **An exit in service.** -/
theorem InService.exitStep (h : InService s) (hc : Complete s) {reply : Option DynReply}
    (hstep : DynStep ctx s (.exit exit) reply effs s') : ∃ now, ExitStep ctx s exit now effs s' := by
  have hon := h.enabled
  have hone := h.strategy
  cases hstep with
  | @ignored _ now l hd hany =>
    refine ⟨now, ?_⟩
    cases hd with
    | suppressed hs => simp [hs] at hon
    | unknown => exact .unknown hany
    | final hp hch hr =>
      have hit := h.hit_of_final hp hch
      rw [SupervisorLogic.childIdByActorAny_of_faces hit.faces, hit.any] at hany
      cases hany
  | @removed _ now l childId hd hany =>
    refine ⟨now, ?_⟩
    cases hd with
    | suppressed hs => simp [hs] at hon
    | unknown hn =>
      rw [SupervisorLogic.childIdByActorAny_of_alive h.alive, hn] at hany
      cases hany
    | final hp hch hr =>
      have hit := h.hit_of_final hp hch
      rw [SupervisorLogic.childIdByActorAny_of_faces hit.faces, hit.any] at hany
      obtain rfl := Option.some.inj hany
      exact .final hit hr
  | @stopped _ now action l hd hignore hnot =>
    refine ⟨now, ?_⟩
    cases hd with
    | suppressed | unknown | final => exact absurd rfl hignore
    | restartOne => exact absurd rfl (hnot _)
    | all hr hst | rest hr hst => simp [hst] at hone
    | meltdown hp hch hr hi => exact .meltdown (h.hit_of_recorded now hp hch) hr hi
  | @restarted _ now l childId spec handle hd hmeta hspec =>
    obtain ⟨child, hit, rfl, hr, hi⟩ := h.hit_of_restartOne hd
    exact ⟨now, .restarted hit hr hi hmeta hspec⟩
  | @respawned _ now l childId address hd hmeta =>
    obtain ⟨child, hit, rfl, hr, hi⟩ := h.hit_of_restartOne hd
    exact ⟨now, .respawned hit hr hi hmeta⟩
  | @lost _ now l childId hd hmeta =>
    obtain ⟨child, hit, rfl, hr, hi⟩ := h.hit_of_restartOne hd
    exact ⟨now, .lost hit hr hi hmeta⟩
  | @orphaned _ now l childId hd hmeta hspec =>
    -- a registered child that is not remote has a spec
    obtain ⟨child, hit, rfl, hr, hi⟩ := h.hit_of_restartOne hd
    have hin := (hc.children child.policy.id).mp (List.mem_map_of_mem hit.mem)
    exact absurd hspec ((hc.specs _).mpr (hin.resolve_right (by simp [hmeta])))

/-! ## Staying in service -/

/-- In service but for one child, which an exit may have marked. -/
structure Wounded (s : DynamicSupervisor) (childId : String) : Prop where
  strategy : s.logic.strategy = .oneForOne
  enabled : s.logic.suppressRestarts = false
  alive : ∀ child ∈ s.logic.children, child.policy.id ≠ childId → child.isAlive = true

theorem InService.wounded (h : InService s) {child : SupervisedChild} {l : SupervisorLogic} (hit : Hit s exit child l) :
    Wounded (s.withLogic l) child.policy.id :=
  ⟨hit.strategy.trans h.strategy, hit.enabled.trans h.enabled, fun other ho hne => h.alive other (hit.others other ho hne)⟩

theorem Wounded.delayed {childId : String} (h : Wounded s childId) (id : String) : Wounded (s.delayed id) childId := by
  refine ⟨?_, ?_, ?_⟩ <;> simp only [DynamicSupervisor.delayed, withLogic_logic, SupervisorLogic.backoffDelay_strategy,
    SupervisorLogic.backoffDelay_suppressRestarts, SupervisorLogic.backoffDelay_children]
  · exact h.strategy
  · exact h.enabled
  · exact h.alive

theorem Wounded.remoteForgotten {childId : String} (h : Wounded s childId) (id : String) :
    Wounded (s.remoteForgotten id) childId := ⟨h.strategy, h.enabled, h.alive⟩

/-- The child is dropped, -/
theorem Wounded.cleaned {childId : String} (h : Wounded s childId) (hi : Indexed s) : InService (s.cleaned childId) := by
  refine ⟨h.strategy, h.enabled, fun child hchild => ?_⟩
  rw [cleaned_logic, SupervisorLogic.removeChildById_children hi.ids] at hchild
  obtain ⟨hmem, hne⟩ := List.mem_filter.mp hchild
  exact h.alive child hmem (by simpa using hne)

/-- or a new actor takes its place. -/
theorem Wounded.alive_replaced {childId : String} (h : Wounded s childId) (hi : Indexed s) (n : ActorId) :
    ∀ child ∈ (s.logic.replaceChildHandle childId { id := n, alive := true }).children, child.isAlive = true := by
  intro child hchild
  rw [Supervisor.replaceChildHandle_children hi.ids] at hchild
  obtain ⟨old, hold, rfl⟩ := List.mem_map.mp hchild
  split_ifs with hid
  · rfl
  · exact h.alive old hold hid

theorem Wounded.localRestarted {childId : String} (h : Wounded s childId) (hi : Indexed s) (handle : ChildHandle) :
    InService (s.localRestarted childId handle) :=
  ⟨by simp [h.strategy], by simp [h.enabled], h.alive_replaced hi handle.id⟩

theorem Wounded.remoteRestarted {childId : String} (h : Wounded s childId) (hi : Indexed s)
    (address parent : ActorAddress) : InService (s.remoteRestarted childId address parent) :=
  ⟨by simp [h.strategy], by simp [h.enabled], h.alive_replaced hi address.actorId⟩

theorem Indexed.withHit (h : Indexed s) {child : SupervisedChild} {l : SupervisorLogic} (hit : Hit s exit child l) :
    Indexed (s.withLogic l) := h.withLogic hit.faces

theorem InService.step_exit (h : InService s) (hi : Indexed s) {now : Instant} (hstep : ExitStep ctx s exit now effs s')
    (hstop : Effect.stop ∉ effs) : InService s' := by
  cases hstep with
  | unknown => exact h
  | final hit => exact (h.wounded hit).cleaned (hi.withHit hit)
  | meltdown => simp at hstop
  | restarted hit => exact ((h.wounded hit).delayed _).localRestarted ((hi.withHit hit).delayed _) _
  | respawned hit =>
    exact (((h.wounded hit).delayed _).remoteForgotten _).remoteRestarted (((hi.withHit hit).delayed _).remoteForgotten _)
      _ _
  | lost hit =>
    exact (((h.wounded hit).delayed _).remoteForgotten _).cleaned (((hi.withHit hit).delayed _).remoteForgotten _)

/-- A child was added, alive. -/
theorem InService.register (h : InService s) {policy : ChildPolicy} {n : ActorId} :
    ∀ child ∈ (s.logic.registerChild policy { id := n, alive := true }).children, child.isAlive = true := by
  intro child hchild
  rcases mem_register hchild with hchild | rfl
  · exact h.alive child hchild
  · rfl

/-- Fewer children. -/
theorem InService.removed (h : InService s) (childId : String) :
    ∀ child ∈ (s.logic.removeChildById childId).children, child.isAlive = true :=
  fun child hchild => h.alive child (List.eraseP_subset hchild)

/-- **A step that does not stop the supervisor leaves it in service.** -/
theorem InService.step (h : InService s) (hi : Indexed s) (hc : Complete s) {event : Event DynMsg}
    {reply : Option DynReply} (hstep : DynStep ctx s event reply effs s') (hstop : Effect.stop ∉ effs) :
    InService s' := by
  cases event with
  | exit exit =>
    obtain ⟨now, hexit⟩ := h.exitStep hc hstep
    exact h.step_exit hi hexit hstop
  | message msg =>
    cases hstep with
    | idle => exact h
    | drawn => exact ⟨h.strategy, h.enabled, h.alive⟩
    | added => exact ⟨h.strategy, h.enabled, h.register⟩
    | named => exact ⟨h.strategy, h.enabled, h.register⟩
    | unnamed =>
      refine ⟨h.strategy, h.enabled, fun child hchild => ?_⟩
      exact h.register child (List.eraseP_subset hchild)
    | spawned => exact ⟨h.strategy, h.enabled, h.register⟩
    | terminated =>
      rw [hi.removed_cleaned]
      exact ⟨h.strategy, h.enabled, h.removed _⟩
    | released => exact ⟨h.strategy, h.enabled, h.removed _⟩
    | stuck => exact ⟨h.strategy, h.enabled, h.alive⟩

theorem inService_lives {rt : Runtime} {b : DynamicSupervisorBuilder} {τ₀ : SupTrace} {hist : List DynTurn}
    {p : Serving DynamicSupervisor} (h : (rt.dynamicSupervisor ctx).Lives b.build τ₀ hist p) (hp : p.stopped = false) :
    InService p.state := by
  have hinv : Indexed p.state ∧ Complete p.state ∧ (p.stopped = false → InService p.state) := by
    refine lives_inv (I := fun p => Indexed p.state ∧ Complete p.state ∧ (p.stopped = false → InService p.state)) h
      ⟨indexed_build b, complete_build b, fun _ => inService_build b⟩ ?_
    rintro p turn q ⟨hi, hc, hs⟩ hturn
    obtain ⟨hstep, hstopped⟩ := dynStep_of_handles hturn
    refine ⟨hi.step hstep, hc.step hi hstep, fun hq => (hs hturn.1).step hi hc hstep fun hmem => ?_⟩
    rw [hstopped.mpr hmem] at hq
    cases hq
  exact hinv.2.2 hp

/-! ## The limit on children -/

theorem maxChildren_step {event : Event DynMsg} {reply : Option DynReply} (hstep : DynStep ctx s event reply effs s') :
    s'.maxChildren = s.maxChildren := by
  cases hstep <;> rfl

theorem length_of_faces {l l' : SupervisorLogic} (hf : l'.children.map (·.face) = l.children.map (·.face)) :
    l'.children.length = l.children.length := by
  simpa using congrArg List.length hf

theorem length_replaced (l : SupervisorLogic) (childId : String) (slot : ChildHandleSlot) :
    (l.replaceChildHandle childId slot).children.length = l.children.length := by
  have hlen := congrArg List.length (SupervisorLogic.replaceChildHandle_policies l childId slot)
  rwa [List.length_map, List.length_map] at hlen

theorem length_removed (l : SupervisorLogic) (childId : String) :
    (l.removeChildById childId).children.length ≤ l.children.length := List.length_eraseP_le

/-- The engine gets one child more only when there was room. -/
theorem length_step {event : Event DynMsg} {reply : Option DynReply} (hstep : DynStep ctx s event reply effs s') :
    s'.logic.children.length ≤ s.logic.children.length ∨
      (s.atCapacity = false ∧ s'.logic.children.length ≤ s.logic.children.length + 1) := by
  have hregister : ∀ (policy : ChildPolicy) (slot : ChildHandleSlot),
      (s.logic.registerChild policy slot).children.length = s.logic.children.length + 1 := fun _ _ => by
    simp [SupervisorLogic.registerChild]
  cases hstep with
  | idle | drawn | stuck => exact Or.inl le_rfl
  | added hroom => exact Or.inr ⟨hroom, (hregister _ _).le⟩
  | named hroom => exact Or.inr ⟨hroom, (hregister _ _).le⟩
  | unnamed hroom => exact Or.inr ⟨hroom, (length_removed _ _).trans (hregister _ _).le⟩
  | spawned hroom => exact Or.inr ⟨hroom, (hregister _ _).le⟩
  | terminated => exact Or.inl ((length_removed _ _).trans (length_removed _ _))
  | released => exact Or.inl (length_removed _ _)
  | ignored hd => exact Or.inl (length_of_faces (faces_of_decides hd)).le
  | removed hd => exact Or.inl ((length_removed _ _).trans (length_of_faces (faces_of_decides hd)).le)
  | stopped hd => exact Or.inl (length_of_faces (faces_of_decides hd)).le
  | restarted hd | respawned hd =>
    refine Or.inl ((length_replaced _ _ _).trans ?_).le
    simpa [DynamicSupervisor.delayed] using length_of_faces (faces_of_decides hd)
  | lost hd =>
    refine Or.inl ((length_removed _ _).trans ?_)
    simpa [DynamicSupervisor.delayed] using (length_of_faces (faces_of_decides hd)).le
  | orphaned hd => exact Or.inl (by simpa [DynamicSupervisor.delayed] using (length_of_faces (faces_of_decides hd)).le)

/-- In service everybody counts. -/
theorem InService.childCount (h : InService s) : s.logic.childCount = s.logic.children.length :=
  List.countP_eq_length.mpr h.alive

/-- The registered children, dead or alive, are at most `max`. -/
theorem length_lives {rt : Runtime} {b : DynamicSupervisorBuilder} {τ₀ : SupTrace} {hist : List DynTurn}
    {p : Serving DynamicSupervisor} {max : Nat} (h : (rt.dynamicSupervisor ctx).Lives b.build τ₀ hist p)
    (hmax : b.maxChildren = some max) : p.state.logic.children.length ≤ max := by
  obtain ⟨s₀, hstarted, hserve⟩ := h
  refine (hserve.inv_history (I := fun hist p => (rt.dynamicSupervisor ctx).Lives b.build τ₀ hist p ∧
    p.state.maxChildren = some max ∧ p.state.logic.children.length ≤ max) ?_ ?_).2.2
  · refine ⟨⟨s₀, hstarted, .nil⟩, ?_⟩
    obtain rfl := started_state hstarted
    exact ⟨hmax, Nat.zero_le _⟩
  · rintro hist p turn q ⟨hlives, hm, hlen⟩ hturn
    obtain ⟨hstep, -⟩ := dynStep_of_handles hturn
    refine ⟨hlives.snoc hturn, (maxChildren_step hstep).trans hm, ?_⟩
    rcases length_step hstep with hle | ⟨hroom, hle⟩
    · exact hle.trans hlen
    · have hcount := (inService_lives hlives hturn.1).childCount
      have hlt : p.state.logic.childCount < max := by simpa [atCapacity, hm] using hroom
      omega

/-- What `count_children()` replies. -/
theorem count_reply {event : Event DynMsg} {n : Nat}
    (hstep : DynStep ctx s event (some (.countChildren n)) effs s') : n = s.logic.childCount := by
  cases hstep with
  | idle _ hreply => exact hreply n rfl
  | drawn _ hreply => exact absurd rfl (hreply n)

/-- **`max_children` is never exceeded.** In every life, between any two handlers, at most `max` children are counted,
and so says every reply to `count_children()`. -/
theorem max_children_respected (rt : Runtime) (ctx : Context) (b : DynamicSupervisorBuilder) (max : Nat) (τ₀ : SupTrace)
    (hist : List DynTurn) (p : Serving DynamicSupervisor) (hmax : b.maxChildren = some max)
    (h : (rt.dynamicSupervisor ctx).Lives b.build τ₀ hist p) :
    p.state.logic.childCount ≤ max ∧ ∀ x ∈ hist, ∀ n, x.2.reply = some (.countChildren n) → n ≤ max := by
  have hcount : ∀ {hist : List DynTurn} {p : Serving DynamicSupervisor},
      (rt.dynamicSupervisor ctx).Lives b.build τ₀ hist p → p.state.logic.childCount ≤ max :=
    fun hlives => List.countP_le_length.trans (length_lives hlives hmax)
  refine ⟨hcount h, fun x hx n hn => ?_⟩
  obtain ⟨s₀, hstarted, hserve⟩ := h
  obtain ⟨before, -, q, -, hrun, hturn⟩ := hserve.mem_split hx
  have hstep := (dynStep_of_handles hturn).1
  rw [hn] at hstep
  rw [count_reply hstep]
  exact hcount ⟨s₀, hstarted, hrun⟩

/-- Two workers where one is allowed: the second is refused, also after the first was restarted. -/
def cappedEvents : List (Event DynMsg) :=
  [.message (.startChild { id := "work", restart := .permanent } none), .exit ⟨⟨"n", 2⟩, .panic "boom"⟩,
    .message (.startChild { id := "work", restart := .permanent } none), .message .countChildren]

def cappedLife : Life DynamicSupervisor DynMsg DynReply :=
  (Runtime.dynamicSupervisor .tasks ⟨⟨"n", 0⟩⟩).life calmAnswers
    ({ maxChildren := some 1 } : DynamicSupervisorBuilder).build cappedEvents

theorem max_children_respected_capped :
    cappedLife.last.state.logic.childCount ≤ 1 ∧
      ∀ x ∈ cappedLife.turns, ∀ n, x.2.reply = some (.countChildren n) → n ≤ 1 :=
  max_children_respected .tasks ⟨⟨"n", 0⟩⟩ { maxChildren := some 1 } 1 _ _ _ rfl
    (Callbacks.lives_life _ calmAnswers _ cappedEvents)

/-! ## The remote tables -/

/-- The tables of the remote children hold the same children: those registered in the engine without a spec. -/
structure RemoteTables (s : DynamicSupervisor) : Prop where
  handles : ∀ id, s.remoteHandles id ≠ none ↔ id ∈ allChildIds s.logic.children ∧ s.specs id = none
  spawned : ∀ id, s.remoteSpawnMeta id ≠ none ↔ id ∈ allChildIds s.logic.children ∧ s.specs id = none
  inverse : InverseOf s.remoteActorToId s.remoteHandles (·.address.actorId)

/-- The condition on a turn: no remote child's exit is final, every wait for a terminated remote child's exit succeeds,
and no remote child gets the bare id of another one. -/
def KeepsRemote (x : DynTurn) : Prop :=
  (∀ exit, x.2.event = .exit exit → ∀ child ∈ x.1.state.logic.children,
    x.1.state.logic.childIdByActorAny exit.from.actorId = some child.policy.id →
    shouldRestart child.policy.restart exit.reason = false → x.1.state.remoteSpawnMeta child.policy.id = none) ∧
  (∀ remote, Effect.unstopped remote ∉ effects x.2.calls) ∧
  ∀ childId address, Effect.spawned childId address ∈ effects x.2.calls → ∀ id remote,
    x.1.state.remoteHandles id = some remote → id ≠ childId → remote.address.actorId ≠ address.actorId

/-- What is left of the agreement, given what always holds. -/
structure Paired (s : DynamicSupervisor) : Prop where
  keys : ∀ id, s.remoteHandles id ≠ none ↔ s.remoteSpawnMeta id ≠ none
  inverse : InverseOf s.remoteActorToId s.remoteHandles (·.address.actorId)

theorem remoteTables_iff (hi : Indexed s) (hc : Complete s) : RemoteTables s ↔ Paired s := by
  have hremote : ∀ id, s.remoteSpawnMeta id ≠ none ↔ id ∈ allChildIds s.logic.children ∧ s.specs id = none := by
    intro id
    rw [hc.children id]
    constructor
    · exact fun hm => ⟨Or.inr hm, hi.spawned id hm⟩
    · rintro ⟨hh | hm, hspec⟩
      · exact absurd hspec ((hc.specs id).mpr hh)
      · exact hm
  exact ⟨fun h => ⟨fun id => (h.handles id).trans (hremote id).symm, h.inverse⟩,
    fun h => ⟨fun id => (h.keys id).trans (hremote id), hremote, h.inverse⟩⟩

theorem paired_build (b : DynamicSupervisorBuilder) : Paired b.build :=
  ⟨fun id => by simp [DynamicSupervisorBuilder.build], fun n id => by simp [DynamicSupervisorBuilder.build]⟩

/-- Cleaning up a child that is not remote. -/
theorem Paired.cleaned (h : Paired s) {childId : String} (hmeta : s.remoteSpawnMeta childId = none) :
    Paired (s.cleaned childId) :=
  ⟨fun id => by rw [cleaned_remoteSpawnMeta, Table.remove_eq_self hmeta]; exact h.keys id, h.inverse⟩

theorem Paired.none_of_meta (h : Paired s) {id : String} (hmeta : s.remoteSpawnMeta id = none) :
    s.remoteHandles id = none := by
  by_contra hne
  exact (h.keys id).mp hne hmeta

/-- A remote child is put in under an id that had none; the reverse map stays exact when its bare id is new. -/
theorem paired_insert_iff {handles : Table String RemoteChildHandle} {rev : Table ActorId String} {childId : String}
    {remote : RemoteChildHandle} (hinv : InverseOf rev handles (·.address.actorId)) (hnone : handles childId = none)
    (hh : s'.remoteHandles = handles.insert childId remote)
    (hr : s'.remoteActorToId = rev.insert remote.address.actorId childId)
    (hm : ∀ id, s'.remoteSpawnMeta id ≠ none ↔ handles id ≠ none ∨ id = childId) :
    Paired s' ↔ ∀ id old, handles id = some old → old.address.actorId ≠ remote.address.actorId := by
  constructor
  · intro h' id old hold
    have hinv' := h'.inverse
    rw [hh, hr] at hinv'
    have hne : id ≠ childId := by
      rintro rfl
      rw [hnone] at hold
      cases hold
    exact InverseOf.new_of_insert (f := fun remote : RemoteChildHandle => remote.address.actorId) hinv' hold hne
  · intro hnew
    refine ⟨fun id => ?_, ?_⟩
    · rw [hm id, hh, Table.insert_ne_none]
    · rw [hh, hr]
      exact hinv.insert hnone hnew

/-- The handle and the reverse entries of a remote child go. -/
theorem Paired.forgotten (h : Paired s) (childId : String) :
    InverseOf (s.remoteForgotten childId).remoteActorToId (s.remoteForgotten childId).remoteHandles
      (·.address.actorId) := h.inverse.retain childId

/-- **An exit keeps the remote tables paired exactly under the condition.** -/
theorem Paired.exit_iff (h : Paired s) (hi : Indexed s) {now : Instant} (hstep : ExitStep ctx s exit now effs s') :
    Paired s' ↔
      (∀ child ∈ s.logic.children, s.logic.childIdByActorAny exit.from.actorId = some child.policy.id →
        shouldRestart child.policy.restart exit.reason = false → s.remoteSpawnMeta child.policy.id = none) ∧
      ∀ childId address, Effect.spawned childId address ∈ effs → ∀ id remote,
        s.remoteHandles id = some remote → id ≠ childId → remote.address.actorId ≠ address.actorId := by
  -- the child the engine found is the only one the condition is about
  have honly : ∀ {child other : SupervisedChild} {l : SupervisorLogic}, Hit s exit child l → other ∈ s.logic.children →
      s.logic.childIdByActorAny exit.from.actorId = some other.policy.id → other = child := by
    intro child other l hit ho hany
    rw [hit.any] at hany
    exact List.inj_on_of_nodup_map hi.ids ho hit.mem (Option.some.inj hany).symm
  have hrestart : ∀ {child : SupervisedChild} {l : SupervisorLogic}, Hit s exit child l →
      shouldRestart child.policy.restart exit.reason = true → ∀ other ∈ s.logic.children,
      s.logic.childIdByActorAny exit.from.actorId = some other.policy.id →
      shouldRestart other.policy.restart exit.reason = false → s.remoteSpawnMeta other.policy.id = none := by
    intro child l hit hr other ho hany hno
    rw [honly hit ho hany, hr] at hno
    cases hno
  have hunnaming : ∀ (gone childId : String) (address : ActorAddress),
      Effect.spawned childId address ∈ Effect.read now :: s.unnaming gone → ∀ id remote,
        s.remoteHandles id = some remote → id ≠ childId → remote.address.actorId ≠ address.actorId := by
    intro gone childId address hmem
    simp [unnaming] at hmem
  cases hstep with
  | unknown hany =>
    refine iff_of_true h ⟨fun child _ hsome => ?_, fun childId address hmem => by simp at hmem⟩
    rw [hany] at hsome
    cases hsome
  | @final child l hit hr =>
    refine ⟨fun h' => ⟨fun other ho hany _ => ?_, hunnaming _⟩, fun hcond => ?_⟩
    · -- the clean-up took the spawn data and left the handle
      rw [honly hit ho hany]
      have hgone : ((s.withLogic l).cleaned child.policy.id).remoteSpawnMeta child.policy.id = none :=
        Table.remove_self _ _
      have hhandle : s.remoteHandles child.policy.id = none := h'.none_of_meta hgone
      by_contra hne
      exact (h.keys _).mpr hne hhandle
    · exact Paired.cleaned (s := s.withLogic l) ⟨h.keys, h.inverse⟩ (hcond.1 child hit.mem hit.any hr)
  | meltdown hit hr =>
    exact iff_of_true ⟨h.keys, h.inverse⟩ ⟨hrestart hit hr, fun childId address hmem => by simp at hmem⟩
  | restarted hit hr =>
    exact iff_of_true ⟨h.keys, h.inverse⟩ ⟨hrestart hit hr, fun childId address hmem => by simp at hmem⟩
  | @lost child l hit hr hi hmeta =>
    refine iff_of_true ⟨fun id => ?_, h.forgotten child.policy.id⟩ ⟨hrestart hit hr, hunnaming _⟩
    rw [cleaned_remoteHandles, cleaned_remoteSpawnMeta, remoteForgotten_remoteHandles, Table.remove_ne_none,
      Table.remove_ne_none]
    exact and_congr_left fun _ => h.keys id
  | @respawned child l address hit hr hi hmeta =>
    -- the old handle and its reverse entries are gone before the new ones are put in
    refine Iff.trans (paired_insert_iff (h.forgotten child.policy.id) (Table.remove_self _ _) rfl rfl fun id => ?_) ?_
    · show s.remoteSpawnMeta id ≠ none ↔ _
      rw [remoteForgotten_remoteHandles, Table.remove_ne_none, h.keys id]
      by_cases hid : id = child.policy.id
      · simpa [hid] using hmeta
      · simp [hid]
    refine ⟨fun hnew => ⟨hrestart hit hr, fun childId address' hmem id remote hremote hne => ?_⟩,
      fun hcond id old hold => ?_⟩
    · obtain ⟨rfl, rfl⟩ : childId = child.policy.id ∧ address' = address := by simpa using hmem
      exact hnew id remote (by rw [remoteForgotten_remoteHandles, Table.remove_ne _ hne, hremote])
    · rw [remoteForgotten_remoteHandles, Table.remove_apply] at hold
      split_ifs at hold with hid
      exact hcond.2 child.policy.id address (by simp) id old hold hid

theorem Paired.message_iff (h : Paired s) (hi : Indexed s) {msg : DynMsg} {reply : Option DynReply}
    (hstep : DynStep ctx s (.message msg) reply effs s') :
    Paired s' ↔ (∀ remote, Effect.unstopped remote ∉ effs) ∧
      ∀ childId address, Effect.spawned childId address ∈ effs → ∀ id remote,
        s.remoteHandles id = some remote → id ≠ childId → remote.address.actorId ≠ address.actorId := by
  have hnext : ∀ template, s.remoteSpawnMeta (s.nextId template) = none := fun template => by
    by_contra hne
    exact hi.fresh template (Or.inr (Or.inr (Or.inl hne)))
  cases hstep with
  | idle | drawn | added | named => exact iff_of_true ⟨h.keys, h.inverse⟩ (by simp)
  | @unnamed spec name msg handle =>
    refine iff_of_true (Paired.cleaned (s := s.drawn.localAdded _ spec handle) ⟨h.keys, h.inverse⟩ (hnext _)) ?_
    simp [unnaming]
  | @spawned spec placement link address hroom =>
    have hfree : s.remoteHandles (s.nextId "remote") = none := h.none_of_meta (hnext _)
    refine Iff.trans (paired_insert_iff h.inverse hfree rfl rfl fun id => ?_) ?_
    · rw [remoteAdded_remoteSpawnMeta, Table.insert_ne_none, h.keys id]
      rfl
    refine ⟨fun hnew => ⟨by simp, fun childId address' hmem id remote hremote _ => ?_⟩, fun hcond id old hold => ?_⟩
    · obtain ⟨-, rfl⟩ : childId = s.nextId "remote" ∧ address' = address := by simpa using hmem
      exact hnew id remote hremote
    · refine hcond.2 (s.nextId "remote") address (by simp) id old hold ?_
      rintro rfl
      rw [hfree] at hold
      cases hold
  | @terminated actorId childId handle hid hh =>
    refine iff_of_true ?_ (by simp [unnaming])
    rw [hi.removed_cleaned]
    exact h.cleaned (hi.handle childId handle hh).1
  | @released actorId childId remote hid hr =>
    refine iff_of_true ⟨fun id => ?_, ?_⟩ (by simp)
    · rw [remoteReleased_remoteSpawnMeta, remoteReleased_remoteHandles, remoteTaken_remoteHandles,
        Table.remove_ne_none, Table.remove_ne_none]
      exact and_congr_left fun _ => h.keys id
    · -- the actor asked for is the one in the child's handle
      obtain ⟨remote', hr', rfl⟩ := (h.inverse actorId childId).mp hid
      exact h.inverse.remove hr'
  | @stuck actorId childId msg remote hid hr =>
    refine iff_of_false (fun h' => ?_) fun hcond => hcond.1 remote (by simp)
    -- the handle is gone, the spawn data is not
    have hgone : (s.remoteTaken childId).remoteHandles childId = none := Table.remove_self _ _
    exact (h'.keys childId).mpr ((h.keys childId).mp (by simp [hr])) hgone

/-- One turn. -/
theorem Paired.step_iff (h : Paired s) (hi : Indexed s) (hc : Complete s) (hs : InService s) {stopped : Bool}
    {turn : Turn DynMsg DynReply} (hstep : DynStep ctx s turn.event turn.reply (effects turn.calls) s') :
    Paired s' ↔ KeepsRemote (⟨s, stopped⟩, turn) := by
  unfold KeepsRemote
  cases hevent : turn.event with
  | exit exit =>
    rw [hevent] at hstep
    obtain ⟨now, hexit⟩ := hs.exitStep hc hstep
    rw [h.exit_iff hi hexit]
    have hwaits : ∀ remote, Effect.unstopped remote ∉ effects turn.calls := by
      intro remote hmem
      generalize effects turn.calls = effs at hexit hmem
      cases hexit <;> simp [unnaming] at hmem
    constructor
    · rintro ⟨hfinal, hspawned⟩
      refine ⟨fun exit' he => ?_, hwaits, hspawned⟩
      cases he
      exact hfinal
    · rintro ⟨hfinal, -, hspawned⟩
      exact ⟨hfinal exit rfl, hspawned⟩
  | message msg =>
    rw [hevent] at hstep
    rw [h.message_iff hi hstep]
    exact ⟨fun hcond => ⟨by simp, hcond⟩, fun hcond => hcond.2⟩

/-- **When the remote tables agree.** In every life, the tables of the remote children agree in all states between
handlers exactly when no turn handles a remote child's final exit, no wait for a terminated remote child's exit fails,
and no remote child is spawned with the bare id of another remote child. -/
theorem remote_tables_agree_iff (rt : Runtime) (ctx : Context) (b : DynamicSupervisorBuilder) (τ₀ : SupTrace)
    (hist : List DynTurn) (p : Serving DynamicSupervisor) (h : (rt.dynamicSupervisor ctx).Lives b.build τ₀ hist p) :
    ((∀ x ∈ hist, RemoteTables x.1.state) ∧ RemoteTables p.state) ↔ ∀ x ∈ hist, KeepsRemote x := by
  obtain ⟨s₀, hstarted, hserve⟩ := h
  refine (hserve.inv_history (I := fun hist p => (rt.dynamicSupervisor ctx).Lives b.build τ₀ hist p ∧
    (((∀ x ∈ hist, RemoteTables x.1.state) ∧ RemoteTables p.state) ↔ ∀ x ∈ hist, KeepsRemote x)) ?_ ?_).2
  · have hlives : (rt.dynamicSupervisor ctx).Lives b.build τ₀ [] ⟨s₀, false⟩ := ⟨s₀, hstarted, .nil⟩
    refine ⟨hlives, iff_of_true ⟨by simp, ?_⟩ (by simp)⟩
    refine (remoteTables_iff (indexed_lives hlives) (complete_lives hlives)).mpr ?_
    rw [show s₀ = b.build from started_state hstarted]
    exact paired_build b
  · rintro hist p turn q ⟨hlives, ih⟩ hturn
    have hlives' := hlives.snoc hturn
    obtain ⟨hi, hc⟩ := And.intro (indexed_lives hlives) (complete_lives hlives)
    have hstep := (dynStep_of_handles hturn).1
    have hone : RemoteTables p.state → (RemoteTables q.state ↔ KeepsRemote (p, turn)) := by
      intro hp
      rw [remoteTables_iff (indexed_lives hlives') (complete_lives hlives')]
      exact ((remoteTables_iff hi hc).mp hp).step_iff hi hc (inService_lives hlives hturn.1) hstep
    refine ⟨hlives', ?_⟩
    simp only [List.mem_append, List.mem_singleton, or_imp, forall_and, forall_eq]
    rw [← ih]
    constructor
    · rintro ⟨⟨hall, hp⟩, hq⟩
      exact ⟨⟨hall, hp⟩, (hone hp).mp hq⟩
    · rintro ⟨⟨hall, hp⟩, hkeeps⟩
      exact ⟨⟨hall, hp⟩, (hone hp).mpr hkeeps⟩

/-- Calm, and every node spawns what it is asked to. -/
def placedAnswers : Prog.Strategy SupOp SupOp.Ans
  | τ, .requestSpawnWithRetry _ placement _ _ _ => .ok ⟨placement, τ.length⟩
  | τ, e => calmAnswers τ e

/-- A worker on node `m` (actor 2 there) that exits. -/
def placedEvents (reason : ExitReason) : List (Event DynMsg) :=
  [.message (.startChildRemote (.worker "work" []) "m" true), .exit ⟨⟨"m", 2⟩, reason⟩]

def placedLife (reason : ExitReason) : Life DynamicSupervisor DynMsg DynReply :=
  (Runtime.dynamicSupervisor .tasks ⟨⟨"n", 0⟩⟩).life placedAnswers ({} : DynamicSupervisorBuilder).build
    (placedEvents reason)

/-- It panics and is spawned again. -/
theorem remote_tables_agree_respawned : RemoteTables (placedLife (.panic "boom")).last.state := by
  refine ((remote_tables_agree_iff .tasks ⟨⟨"n", 0⟩⟩ {} _ _ _ (Callbacks.lives_life _ placedAnswers _
    (placedEvents (.panic "boom")))).mpr ?_).2
  intro x hx
  rcases List.mem_cons.mp (show x ∈ [_, _] from hx) with rfl | hx
  · refine ⟨fun exit he => (nomatch he), fun remote => ?_, fun childId address hmem id remote hremote => ?_⟩
    · rw [show effects _ = [Effect.spawned "remote#1" ⟨"m", 2⟩] from rfl]
      simp
    · cases (show none = some remote from hremote)
  · obtain rfl := List.mem_singleton.mp hx
    refine ⟨fun exit he child hchild _ hno => ?_, fun remote => ?_, fun childId address hmem id remote hremote hne => ?_⟩
    · cases (show Event.exit ⟨⟨"m", 2⟩, .panic "boom"⟩ = Event.exit exit from he)
      obtain rfl := List.mem_singleton.mp (show child ∈ [_] from hchild)
      exact absurd hno (by decide)
    · rw [show effects _ = [Effect.read 0, Effect.spawned "remote#1" ⟨"m", 4⟩] from rfl]
      simp
    · rw [show effects _ = [Effect.read 0, Effect.spawned "remote#1" ⟨"m", 4⟩] from rfl] at hmem
      obtain ⟨rfl, -⟩ : childId = "remote#1" ∧ address = ⟨"m", 4⟩ := by simpa using hmem
      cases (show (none : Option RemoteChildHandle) = some remote from (Table.insert_ne _ _ hne).symm.trans hremote)

/-- It is shut down: the engine forgets the child, and its handle stays. -/
theorem remote_final_exit_leaks :
    ¬∀ (rt : Runtime) (ctx : Context) (b : DynamicSupervisorBuilder) (τ₀ : SupTrace) (hist : List DynTurn)
      (p : Serving DynamicSupervisor), (rt.dynamicSupervisor ctx).Lives b.build τ₀ hist p → RemoteTables p.state := by
  intro h
  have hagree := h .tasks ⟨⟨"n", 0⟩⟩ {} _ _ _ (Callbacks.lives_life _ placedAnswers _ (placedEvents .shutdown))
  exact absurd ((hagree.handles "remote#1").mp (by decide)).1 (by decide)

end DynamicSupervisor

end Spawned
