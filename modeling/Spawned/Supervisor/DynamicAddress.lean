import Spawned.Supervisor.DynamicTables

/-!
# Which child of a dynamic supervisor an exit is attributed to

A dynamic supervisor finds children by bare id too, alive or dead, and keeps two reverse maps.

* `Marked` : the engine found the child with the exit's address, and marked no other;
* `reacts_of_lives` : an `Exit` changes nothing at all, or there is a child with exactly its address and no other child
  changes, in a life where bare ids are never ambiguous.

`supervisors_react_to_the_right_actor` states both supervisors' results.
-/

namespace Spawned

open Lib

namespace DynamicSupervisor

/-- What the supervisor holds of one child. -/
@[ext]
structure View where
  entries : List SupervisedChild
  attempts : Option Nat
  spec : Option ChildSpec
  handle : Option ChildHandle
  remote : Option RemoteChildHandle
  spawned : Option RemoteSpawnMeta
  names : Set String
  actors : Set ActorId
  remoteActors : Set ActorId

def view (s : DynamicSupervisor) (id : String) : View where
  entries := s.logic.entries id
  attempts := s.logic.backoffAttempts id
  spec := s.specs id
  handle := s.handles id
  remote := s.remoteHandles id
  spawned := s.remoteSpawnMeta id
  names := {name | s.regNames.lookup name = some id}
  actors := {n | s.actorToId n = some id}
  remoteActors := {n | s.remoteActorToId n = some id}

/-- The full address of a child's current actor. A remote child whose handle was taken by an unfinished termination is
known by its placement. -/
def addressOf (ctx : Context) (s : DynamicSupervisor) (child : SupervisedChild) : Option ActorAddress :=
  match s.remoteSpawnMeta child.policy.id, s.remoteHandles child.policy.id with
  | some _, some remote => some remote.address
  | some spawned, none => child.slotId.map fun actorId => { node := spawned.placement, actorId }
  | none, _ => child.slotId.map fun actorId => { node := ctx.actorAddress.node, actorId }

/-- A child with the bare id of the exit has exactly the address the exit comes from. -/
def Attributed (ctx : Context) (s : DynamicSupervisor) (exit : Exit) : Prop :=
  ∀ child ∈ s.logic.children, child.slotId = some exit.from.actorId → s.addressOf ctx child = some exit.from

instance (ctx : Context) (s : DynamicSupervisor) (exit : Exit) : Decidable (s.Attributed ctx exit) :=
  inferInstanceAs (Decidable (∀ child ∈ s.logic.children, _ → _))

/-- The right actor was reacted to: nothing changed at all, or a child has exactly the address the exit comes from and
no other child changed. -/
def Reacts (ctx : Context) (s : DynamicSupervisor) (exit : Exit) (s' : DynamicSupervisor) : Prop :=
  s' = s ∨ ∃ child ∈ s.logic.children, s.addressOf ctx child = some exit.from ∧
    ∀ other ∈ s.logic.children, other.policy.id ≠ child.policy.id → s'.view other.policy.id = s.view other.policy.id

/-! ## What a handled exit leaves alone -/

variable {ctx : Context} {s s' : DynamicSupervisor}

/-- No child but `childId` changed. -/
def Others (s : DynamicSupervisor) (childId : String) (s' : DynamicSupervisor) : Prop :=
  ∀ other ∈ s.logic.children, other.policy.id ≠ childId → s'.view other.policy.id = s.view other.policy.id

/-- Two children do not hold the same bare id. -/
theorem slot_unique {l : SupervisorLogic} (hd : l.Unambiguous) {child other : SupervisedChild} {n : ActorId}
    (hc : child ∈ l.children) (ho : other ∈ l.children) (hn : child.slotId = some n) (hn' : other.slotId = some n) :
    other.policy.id = child.policy.id := by
  rw [List.inj_on_of_nodup_map hd ho hc (hn'.trans hn.symm)]

/-- The child a bare id in `actor_to_id` leads to holds that id. -/
theorem Indexed.slot_of_actor (h : Indexed s) {n : ActorId} {other : SupervisedChild} (ho : other ∈ s.logic.children)
    (hn : s.actorToId n = some other.policy.id) : other.slotId = some n := by
  obtain ⟨handle, hh, rfl⟩ := h.actor n _ hn
  exact (h.handle _ handle hh).2 other ho rfl

theorem Indexed.others_cleaned (h : Indexed s) (hd : s.logic.Unambiguous) {child : SupervisedChild}
    (hc : child ∈ s.logic.children) : s.Others child.policy.id (s.cleaned child.policy.id) := by
  intro other ho hne
  have hentries : (s.cleaned child.policy.id).logic.entries other.policy.id = s.logic.entries other.policy.id :=
    Supervisor.entries_removed (SupervisorLogic.removeChildById_children h.ids _) hne
  refine View.ext hentries rfl (Table.remove_ne _ hne) (Table.remove_ne _ hne) rfl (Table.remove_ne _ hne) ?_ ?_ rfl
  · -- only a name of the child itself was erased
    ext name
    simp only [view, Set.mem_ofPred_eq, cleaned_regNames]
    cases hname : s.nameOf child.policy.id with
    | none => rfl
    | some name' =>
      by_cases heq : name = name'
      · subst heq
        simp [nameOf_lookup hname, hne.symm]
      · simp [AList.lookup_erase_ne heq]
  · -- the erased reverse entry is that of the child's own slot
    ext n
    simp only [view, Set.mem_ofPred_eq, cleaned_actorToId]
    cases hh : s.handles child.policy.id with
    | none => rfl
    | some handle =>
      simp only [Table.remove_apply]
      split_ifs with hn
      · refine ⟨fun hnone => (by cases hnone), fun hsome => ?_⟩
        have hslot := (h.handle _ handle hh).2 child hc rfl
        exact absurd (slot_unique hd hc ho hslot (hn ▸ h.slot_of_actor ho hsome)) hne
      · rfl

theorem Indexed.others_localRestarted (h : Indexed s) (hd : s.logic.Unambiguous) {child : SupervisedChild}
    (hc : child ∈ s.logic.children) (handle : ChildHandle)
    (hd' : (s.localRestarted child.policy.id handle).logic.Unambiguous) :
    s.Others child.policy.id (s.localRestarted child.policy.id handle) := by
  intro other ho hne
  have hl := Supervisor.replaceChildHandle_children h.ids child.policy.id { id := handle.id, alive := true }
  have hentries : (s.localRestarted child.policy.id handle).logic.entries other.policy.id =
      s.logic.entries other.policy.id := Supervisor.entries_renewed hl hne
  have hattempts : (s.localRestarted child.policy.id handle).logic.backoffAttempts = s.logic.backoffAttempts := by simp
  refine View.ext hentries (congrFun hattempts _) rfl (Table.insert_ne _ _ hne) rfl rfl rfl ?_ rfl
  ext n
  simp only [view, Set.mem_ofPred_eq, localRestarted_actorToId, Table.insert_apply]
  split_ifs with hn
  · -- the new actor's entry: another child with it would hold the same id now
    refine ⟨fun heq => absurd (Option.some.inj heq).symm hne, fun hsome => ?_⟩
    have hnew : child.renewed { id := handle.id, alive := true } ∈
        (s.localRestarted child.policy.id handle).logic.children := by
      rw [localRestarted_logic, hl]
      exact List.mem_map.mpr ⟨child, hc, if_pos rfl⟩
    have hother := Supervisor.mem_renewed hl ho hne
    exact absurd (slot_unique hd' hnew hother rfl (hn ▸ h.slot_of_actor ho hsome)) hne
  · cases hh : s.handles child.policy.id with
    | none => rfl
    | some old =>
      simp only [Table.remove_apply]
      split_ifs with hold
      · refine ⟨fun hnone => (by cases hnone), fun hsome => ?_⟩
        have hslot := (h.handle _ old hh).2 child hc rfl
        exact absurd (slot_unique hd hc ho hslot (hold ▸ h.slot_of_actor ho hsome)) hne
      · rfl

theorem others_remoteForgotten (childId : String) : s.Others childId (s.remoteForgotten childId) := by
  intro other ho hne
  refine View.ext rfl rfl rfl rfl (Table.remove_ne _ hne) rfl rfl rfl ?_
  ext n
  exact ⟨fun hn => (forgotten_reverse.mp hn).1, fun hn => forgotten_reverse.mpr ⟨hn, hne⟩⟩

theorem Indexed.others_remoteRestarted (h : Indexed s) {child : SupervisedChild} (hc : child ∈ s.logic.children)
    (address parent : ActorAddress) (hd' : (s.remoteRestarted child.policy.id address parent).logic.Unambiguous) :
    s.Others child.policy.id (s.remoteRestarted child.policy.id address parent) := by
  intro other ho hne
  have hl := Supervisor.replaceChildHandle_children h.ids child.policy.id { id := address.actorId, alive := true }
  have hentries : (s.remoteRestarted child.policy.id address parent).logic.entries other.policy.id =
      s.logic.entries other.policy.id := Supervisor.entries_renewed hl hne
  have hattempts : (s.remoteRestarted child.policy.id address parent).logic.backoffAttempts =
      s.logic.backoffAttempts := by simp
  refine View.ext hentries (congrFun hattempts _) rfl rfl (Table.insert_ne _ _ hne) rfl rfl rfl ?_
  ext n
  simp only [view, Set.mem_ofPred_eq, remoteRestarted_remoteActorToId, Table.insert_apply]
  split_ifs with hn
  · refine ⟨fun heq => absurd (Option.some.inj heq).symm hne, fun hsome => ?_⟩
    have hnew : child.renewed { id := address.actorId, alive := true } ∈
        (s.remoteRestarted child.policy.id address parent).logic.children := by
      rw [remoteRestarted_logic, hl]
      exact List.mem_map.mpr ⟨child, hc, if_pos rfl⟩
    have hother := Supervisor.mem_renewed hl ho hne
    have hslot : other.slotId = some address.actorId := hn ▸ (h.remote n _ hsome).2 other ho rfl
    exact absurd (slot_unique hd' hnew hother rfl hslot) hne
  · rfl

/-- The engine marked or counted for this child only. -/
theorem others_withLogic {l : SupervisorLogic} {childId : String}
    (hl : l.children = s.logic.children.map (Supervisor.onIds [childId] .dead))
    (hb : ∀ id, id ≠ childId → l.backoffAttempts id = s.logic.backoffAttempts id) :
    s.Others childId (s.withLogic l) := by
  intro other ho hne
  have hentries : l.entries other.policy.id = s.logic.entries other.policy.id :=
    Supervisor.entries_onIds hl (fun _ => rfl) (by simpa using hne)
  exact View.ext hentries (hb _ hne) rfl rfl rfl rfl rfl rfl rfl

/-- Changes to one child after changes to the same child. -/
theorem Others.trans {s₁ s₂ : DynamicSupervisor} {childId : String} (h : s.Others childId s₁)
    (h' : s₁.Others childId s₂)
    (hids : s₁.logic.children.map (·.policy.id) = s.logic.children.map (·.policy.id)) : s.Others childId s₂ := by
  intro other ho hne
  have hmem : other.policy.id ∈ s₁.logic.children.map (·.policy.id) := hids ▸ List.mem_map_of_mem ho
  obtain ⟨other', ho', heq⟩ := List.mem_map.mp hmem
  rw [← h other ho hne, ← heq]
  exact h' other' ho' (heq ▸ hne)

/-- The delay of a restart counts for this child only. -/
theorem others_delayed (childId : String) : s.Others childId (s.delayed childId) := by
  intro other ho hne
  have hentries : (s.delayed childId).logic.entries other.policy.id = s.logic.entries other.policy.id := by
    simp [SupervisorLogic.entries, DynamicSupervisor.delayed]
  exact View.ext hentries (SupervisorLogic.backoffDelay_attempts_ne _ _ _ hne) rfl rfl rfl rfl rfl rfl rfl

/-- The child the engine finds holds the id, and is the one it marks. -/
theorem Indexed.found (h : Indexed s) (hd : s.logic.Unambiguous) {n : ActorId} {p : Nat} {child : SupervisedChild}
    (hp : s.logic.childIndexByActor n = some p) (hc : s.logic.children[p]? = some child) :
    child ∈ s.logic.children ∧ child.slotId = some n ∧
      (s.logic.markChildDead n).children = s.logic.children.map (Supervisor.onIds [child.policy.id] .dead) := by
  obtain ⟨child', hc', hslot⟩ := SupervisorLogic.childIndexByActor_eq_some hp
  obtain rfl : child = child' := Option.some.inj (hc.symm.trans hc')
  have hmem := List.mem_of_getElem? hc
  have hn : child.slotId = some n := by
    rw [SupervisedChild.slotId, hslot]
    rfl
  exact ⟨hmem, hn, Supervisor.markChildDead_onIds h.ids hd hmem hn⟩

/-- The engine found `child` for the exit, which has exactly the exit's address, and marked and counted for no other. -/
structure Marked (ctx : Context) (s : DynamicSupervisor) (exit : Exit) (child : SupervisedChild) (l : SupervisorLogic) :
    Prop where
  mem : child ∈ s.logic.children
  slot : child.slotId = some exit.from.actorId
  address : s.addressOf ctx child = some exit.from
  children : l.children = s.logic.children.map (Supervisor.onIds [child.policy.id] .dead)
  others : s.Others child.policy.id (s.withLogic l)

theorem Indexed.marked {exit : Exit} (h : Indexed s) (hd : s.logic.Unambiguous) (hatt : s.Attributed ctx exit) {p : Nat}
    {child : SupervisedChild} (hp : s.logic.childIndexByActor exit.from.actorId = some p)
    (hc : s.logic.children[p]? = some child) {l : SupervisorLogic}
    (hl : l.children = (s.logic.markChildDead exit.from.actorId).children)
    (hb : ∀ id, id ≠ child.policy.id → l.backoffAttempts id = s.logic.backoffAttempts id) :
    Marked ctx s exit child l := by
  obtain ⟨hmem, hn, hdead⟩ := h.found hd hp hc
  exact ⟨hmem, hn, hatt child hmem hn, hl.trans hdead, others_withLogic (hl.trans hdead) hb⟩

/-- What the engine decides about an exit: nothing, or something about the child with the exit's address. -/
theorem Indexed.marked_of_decides {exit : Exit} {now : Instant} {action : SupervisorAction} {l : SupervisorLogic}
    (h : Indexed s) (hd : s.logic.Unambiguous) (hatt : s.Attributed ctx exit)
    (hdec : s.logic.Decides exit.from.actorId exit.reason now action l) :
    (action = .ignore ∧ l = s.logic) ∨
      ∃ child, Marked ctx s exit child l ∧ ∀ id, action = .restartOne id → id = child.policy.id := by
  cases hdec with
  | suppressed | unknown => exact Or.inl ⟨rfl, rfl⟩
  | final hp hc =>
    refine Or.inr ⟨_, h.marked hd hatt hp hc rfl fun id hne => ?_, by simp⟩
    simp [SupervisorLogic.resetBackoff, Table.remove_ne _ hne]
  | meltdown hp hc =>
    exact Or.inr ⟨_, h.marked hd hatt hp hc rfl fun id _ => by simp [SupervisorLogic.recorded], by simp⟩
  | restartOne hr =>
    refine Or.inr ⟨_, h.marked hd hatt hr.index hr.child_eq rfl fun id _ => by simp [SupervisorLogic.recorded], ?_⟩
    exact fun id hid => (SupervisorAction.restartOne.inj hid).symm
  | all hr =>
    exact Or.inr ⟨_, h.marked hd hatt hr.index hr.child_eq rfl fun id _ => by simp [SupervisorLogic.recorded], by simp⟩
  | rest hr =>
    exact Or.inr ⟨_, h.marked hd hatt hr.index hr.child_eq rfl fun id _ => by simp [SupervisorLogic.recorded], by simp⟩

namespace Marked

variable {exit : Exit} {child : SupervisedChild} {l : SupervisorLogic}

theorem ids (h : Marked ctx s exit child l) : l.children.map (·.policy.id) = s.logic.children.map (·.policy.id) :=
  Supervisor.ids_of_marks h.children

theorem reacts (h : Marked ctx s exit child l) (ho : (s.withLogic l).Others child.policy.id s') :
    s.Reacts ctx exit s' :=
  Or.inr ⟨child, h.mem, h.address, h.others.trans ho h.ids⟩

theorem marked_mem (h : Marked ctx s exit child l) : Supervisor.onIds [child.policy.id] .dead child ∈ l.children := by
  rw [h.children]
  exact List.mem_map_of_mem h.mem

/-- Only the marked child holds the exit's id. -/
theorem only (h : Marked ctx s exit child l) (hd : s.logic.Unambiguous) {found : SupervisedChild}
    (hf : found ∈ l.children) (hslot : found.slotId = some exit.from.actorId) :
    found.policy.id = child.policy.id := by
  rw [h.children] at hf
  obtain ⟨old, hold, rfl⟩ := List.mem_map.mp hf
  rw [Supervisor.onIds_dead_slotId] at hslot
  rw [Supervisor.onIds_dead_policy, slot_unique hd h.mem hold h.slot hslot]

end Marked

/-- A handled exit reacts to the right actor. -/
theorem Indexed.reacts_of_step {exit : Exit} {reply : Option DynReply} {effs : List Effect} (h : Indexed s)
    (hd : s.logic.Unambiguous) (hatt : s.Attributed ctx exit) (hstep : DynStep ctx s (.exit exit) reply effs s')
    (hd' : s'.logic.Unambiguous) : s.Reacts ctx exit s' := by
  -- the marked child, for a decision that is not to ignore the exit
  have hmarked : ∀ {now : Instant} {action : SupervisorAction} {l : SupervisorLogic}, action ≠ .ignore →
      s.logic.Decides exit.from.actorId exit.reason now action l →
      ∃ child, Marked ctx s exit child l ∧ ∀ id, action = .restartOne id → id = child.policy.id :=
    fun hne hdec => (h.marked_of_decides hd hatt hdec).resolve_left fun hi => hne hi.1
  -- the restarted child, with the delay counted, in the engine the decision left
  have hrestart : ∀ {now : Instant} {l : SupervisorLogic} {childId : String},
      s.logic.Decides exit.from.actorId exit.reason now (.restartOne childId) l →
      ∃ child, Marked ctx s exit child l ∧ childId = child.policy.id ∧ Indexed ((s.withLogic l).delayed childId) ∧
        ((s.withLogic l).delayed childId).logic.Unambiguous ∧
        Supervisor.onIds [childId] .dead child ∈ ((s.withLogic l).delayed childId).logic.children := by
    intro now l childId hdec
    obtain ⟨child, hm, hid⟩ := hmarked (by simp) hdec
    obtain rfl := hid childId rfl
    refine ⟨child, hm, rfl, (h.withLogic (faces_of_decides hdec)).delayed _, ?_, ?_⟩
    · simpa [SupervisorLogic.Unambiguous, DynamicSupervisor.delayed] using
        Supervisor.unambiguous_of_marks hd hm.children
    · simpa [DynamicSupervisor.delayed] using hm.marked_mem
  have hids : ∀ (l : SupervisorLogic) (childId : String), ((s.withLogic l).delayed childId).logic.children.map
      (·.policy.id) = (s.withLogic l).logic.children.map (·.policy.id) := by
    intro l childId
    simp [DynamicSupervisor.delayed]
  cases hstep with
  | ignored hdec hany =>
    rcases h.marked_of_decides hd hatt hdec with ⟨-, rfl⟩ | ⟨child, hm, -⟩
    · exact Or.inl rfl
    · exact hm.reacts fun _ _ _ => rfl
  | @removed _ now l childId hdec hany =>
    obtain ⟨found, hf, rfl, hslot⟩ := childIdByActorAny_some hany
    have hl := h.withLogic (faces_of_decides hdec)
    rcases h.marked_of_decides hd hatt hdec with ⟨-, rfl⟩ | ⟨child, hm, -⟩
    · -- nothing was found alive, but a dead child still held the id
      exact Or.inr ⟨found, hf, hatt found hf hslot, hl.others_cleaned hd hf⟩
    · refine hm.reacts ?_
      rw [← hm.only hd hf hslot]
      exact hl.others_cleaned (Supervisor.unambiguous_of_marks hd hm.children) hf
  | stopped hdec hignore =>
    obtain ⟨child, hm, -⟩ := hmarked hignore hdec
    exact hm.reacts fun _ _ _ => rfl
  | @restarted _ _ _ _ _ handle hdec =>
    obtain ⟨child, hm, rfl, hi, hd₁, hc⟩ := hrestart hdec
    refine hm.reacts ((others_delayed _).trans ?_ (hids _ _))
    have hlast := hi.others_localRestarted hd₁ hc handle
    rw [Supervisor.onIds_dead_policy] at hlast
    exact hlast hd'
  | @respawned _ _ _ _ address hdec =>
    obtain ⟨child, hm, rfl, hi, -, hc⟩ := hrestart hdec
    refine hm.reacts (((others_delayed _).trans (others_remoteForgotten _) (hids _ _)).trans ?_ (hids _ _))
    have hlast := (hi.remoteForgotten child.policy.id).others_remoteRestarted hc address ctx.actorAddress
    rw [Supervisor.onIds_dead_policy] at hlast
    exact hlast hd'
  | lost hdec =>
    obtain ⟨child, hm, rfl, hi, hd₁, hc⟩ := hrestart hdec
    refine hm.reacts (((others_delayed _).trans (others_remoteForgotten _) (hids _ _)).trans ?_ (hids _ _))
    have hlast := (hi.remoteForgotten child.policy.id).others_cleaned hd₁ hc
    rw [Supervisor.onIds_dead_policy] at hlast
    exact hlast
  | orphaned hdec =>
    obtain ⟨child, hm, rfl, -⟩ := hrestart hdec
    exact hm.reacts (others_delayed _)

/-! ## Whole lives -/

/-- The condition on a turn: bare ids are unambiguous, and an exit with the bare id of a child is that child's. -/
def Recognizable (ctx : Context) (x : Serving DynamicSupervisor × Turn DynMsg DynReply) : Prop :=
  x.1.state.logic.Unambiguous ∧ ∀ exit, x.2.event = .exit exit → x.1.state.Attributed ctx exit

theorem reacts_of_lives {rt : Runtime} {b : DynamicSupervisorBuilder} {τ₀ : SupTrace}
    {hist : List (Serving DynamicSupervisor × Turn DynMsg DynReply)} {p q : Serving DynamicSupervisor}
    {turn : Turn DynMsg DynReply} {exit : Exit} (h : (rt.dynamicSupervisor ctx).Lives b.build τ₀ (hist ++ [(p, turn)]) q)
    (hevent : turn.event = .exit exit) (hr : ∀ x ∈ hist ++ [(p, turn)], Recognizable ctx x)
    (hq : q.state.logic.Unambiguous) : p.state.Reacts ctx exit q.state := by
  obtain ⟨hlives, hturn⟩ := h.last
  obtain ⟨hd, hatt⟩ := hr (p, turn) (by simp)
  have hstep := (dynStep_of_handles hturn).1
  rw [hevent] at hstep
  exact (indexed_lives hlives).reacts_of_step hd (hatt exit hevent) hstep hq

end DynamicSupervisor

/-! ## Both supervisors -/

/-- **Supervisors react to the right actor while bare ids are unambiguous.** Take a life in which, whenever a turn
begins and in the end, no two children hold the same bare id, and every `Exit` that carries the bare id of a child comes
from exactly that child's address. Then each `Exit` changes nothing, or some child's current actor has exactly the
address it comes from and no child outside that child's restart scope changes; a dynamic supervisor changes no other
child at all. The static supervisor needs specs with distinct ids. -/
theorem supervisors_react_to_the_right_actor (rt : Runtime) (ctx : Context) :
    (∀ (b : SupervisorBuilder) (τ₀ : SupTrace) (hist : List (Serving Supervisor × Turn Empty Empty))
      (p q : Serving Supervisor) (turn : Turn Empty Empty) (exit : Exit), (b.specs.map (·.id)).Nodup →
      (rt.supervisor ctx).Lives b.build τ₀ (hist ++ [(p, turn)]) q → turn.event = .exit exit →
      (∀ x ∈ hist ++ [(p, turn)], Supervisor.Recognizable ctx x) → q.state.logic.Unambiguous →
      p.state.Reacts ctx exit q.state) ∧
    (∀ (b : DynamicSupervisorBuilder) (τ₀ : SupTrace) (hist : List (Serving DynamicSupervisor × Turn DynMsg DynReply))
      (p q : Serving DynamicSupervisor) (turn : Turn DynMsg DynReply) (exit : Exit),
      (rt.dynamicSupervisor ctx).Lives b.build τ₀ (hist ++ [(p, turn)]) q → turn.event = .exit exit →
      (∀ x ∈ hist ++ [(p, turn)], DynamicSupervisor.Recognizable ctx x) → q.state.logic.Unambiguous →
      p.state.Reacts ctx exit q.state) :=
  ⟨fun _ _ _ _ _ _ _ hids h he hr hq => Supervisor.reacts_of_lives hids h he hr hq,
    fun _ _ _ _ _ _ _ h he hr hq => DynamicSupervisor.reacts_of_lives h he hr hq⟩

/-- A local worker (actor 2 on node `n`, in a calm environment) that panics. -/
def soloBuilder : SupervisorBuilder where
  specs := [{ id := "work", restart := .permanent }]

def soloLife (exit : Exit) : Life Supervisor Empty Empty :=
  (Runtime.supervisor .tasks ⟨⟨"n", 0⟩⟩).life calmAnswers soloBuilder.build [.exit exit]

/-- The dynamic supervisor of one worker (actor 2 as well). -/
def soloDynamicLife (exit : Exit) : Life DynamicSupervisor DynMsg DynReply :=
  (Runtime.dynamicSupervisor .tasks ⟨⟨"n", 0⟩⟩).life calmAnswers ({} : DynamicSupervisorBuilder).build
    [.message (.startChild { id := "work", restart := .permanent } none), .exit exit]

/-- The worker's own panic, in both. -/
theorem supervisors_react_to_the_right_actor_solo :
    (∀ x ∈ (soloLife ⟨⟨"n", 2⟩, .panic "boom"⟩).turns,
      x.1.state.Reacts ⟨⟨"n", 0⟩⟩ ⟨⟨"n", 2⟩, .panic "boom"⟩ (soloLife ⟨⟨"n", 2⟩, .panic "boom"⟩).last.state) ∧
    ∀ x ∈ (soloDynamicLife ⟨⟨"n", 2⟩, .panic "boom"⟩).turns.drop 1,
      x.1.state.Reacts ⟨⟨"n", 0⟩⟩ ⟨⟨"n", 2⟩, .panic "boom"⟩ (soloDynamicLife ⟨⟨"n", 2⟩, .panic "boom"⟩).last.state := by
  constructor
  · intro x hx
    obtain rfl := List.mem_singleton.mp (show x ∈ [_] from hx)
    refine (supervisors_react_to_the_right_actor .tasks ⟨⟨"n", 0⟩⟩).1 soloBuilder _ [] _ _ _ _ (by decide)
      (Callbacks.lives_life _ calmAnswers _ [.exit ⟨⟨"n", 2⟩, .panic "boom"⟩]) rfl ?_ (by decide)
    intro y hy
    obtain rfl := List.mem_singleton.mp (show y ∈ [_] from hy)
    refine ⟨by decide, fun exit he => ?_⟩
    cases (show Event.exit ⟨⟨"n", 2⟩, .panic "boom"⟩ = Event.exit exit from he)
    decide
  · intro x hx
    obtain rfl := List.mem_singleton.mp (show x ∈ [_] from hx)
    have hlives := Callbacks.lives_life (Runtime.dynamicSupervisor .tasks ⟨⟨"n", 0⟩⟩) calmAnswers
      ({} : DynamicSupervisorBuilder).build [.message (.startChild { id := "work", restart := .permanent } none),
        .exit ⟨⟨"n", 2⟩, .panic "boom"⟩]
    refine (supervisors_react_to_the_right_actor .tasks ⟨⟨"n", 0⟩⟩).2 {} _ [_] _ _ _ _ hlives rfl ?_ (by decide)
    intro y hy
    rcases List.mem_cons.mp (show y ∈ [_, _] from hy) with rfl | hy
    · exact ⟨by decide, fun exit he => nomatch he⟩
    · obtain rfl := List.mem_singleton.mp hy
      refine ⟨by decide, fun exit he => ?_⟩
      cases (show Event.exit ⟨⟨"n", 2⟩, .panic "boom"⟩ = Event.exit exit from he)
      decide

/-- **The wrong actor.** An `Exit` of actor 2 on another node restarts the local worker, which is actor 2 here. -/
theorem exit_of_other_node_confused :
    ¬∀ (rt : Runtime) (ctx : Context) (b : SupervisorBuilder) (τ₀ : SupTrace)
      (hist : List (Serving Supervisor × Turn Empty Empty)) (p q : Serving Supervisor) (turn : Turn Empty Empty)
      (exit : Exit), (rt.supervisor ctx).Lives b.build τ₀ (hist ++ [(p, turn)]) q → turn.event = .exit exit →
      p.state.Reacts ctx exit q.state := by
  intro h
  have hreacts := h .tasks ⟨⟨"n", 0⟩⟩ soloBuilder _ [] _ _ _ ⟨⟨"m", 2⟩, .panic "boom"⟩
    (Callbacks.lives_life _ calmAnswers _ [.exit ⟨⟨"m", 2⟩, .panic "boom"⟩]) rfl
  rcases hreacts with heq | ⟨child, hchild, haddr, -⟩
  · have hhandle := congrArg (fun s => s.handles "work") heq
    exact absurd hhandle (by decide)
  · obtain rfl := List.mem_singleton.mp (show child ∈ [_] from hchild)
    exact absurd haddr (by decide)

end Spawned
