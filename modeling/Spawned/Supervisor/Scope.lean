import Spawned.Supervisor.Temporary

/-!
# Restart strategies restart exactly their scope

For supervisors of local children with distinct ids.

* `Agrees` : the policy vector and the handle map agree: every slot holds the id of its child's handle, and no two
  slots hold the same id;
* `exec_terminateChildren`, `exec_restartEach` : what the two loops leave, child by child;
* `LocalInv` : the invariant of such a supervisor between two callbacks; `localInv_lives` proves it of every life;
* `restart_scope_exact` : what a handled exit replaces, and in which order.
-/

namespace Spawned

open Lib

/-- The ids of the actors started by these calls. -/
def startedIds (τ : SupTrace) : List ActorId :=
  τ.filterMap fun call =>
    match call with
    | ⟨.startChild _, handle⟩ => some handle.id
    | _ => none

@[simp] theorem startedIds_nil : startedIds [] = [] := rfl

@[simp] theorem startedIds_append (τ τ' : SupTrace) : startedIds (τ ++ τ') = startedIds τ ++ startedIds τ' := by
  simp [startedIds]

@[simp] theorem startedIds_startChild (spec : ChildSpec) (handle : ChildHandle) (τ : SupTrace) :
    startedIds (⟨.startChild spec, handle⟩ :: τ) = handle.id :: startedIds τ := rfl

@[simp] theorem startedIds_now (now : Instant) (τ : SupTrace) : startedIds (⟨.now, now⟩ :: τ) = startedIds τ := rfl

/-- Calls that start nothing start no actor. -/
theorem startedIds_eq_nil {τ : SupTrace} (h : ∀ call ∈ τ, Supervisor.StartsNothing call.op) : startedIds τ = [] := by
  induction τ with
  | nil => rfl
  | cons call τ ih =>
    have hrest := ih fun c hc => h c (List.mem_cons_of_mem _ hc)
    obtain ⟨op, ans⟩ := call
    cases op with
    | startChild spec => exact (h _ (List.mem_cons_self ..)).elim
    | _ => exact hrest

/-- The child with a new actor in its slot. -/
def SupervisedChild.renewed (child : SupervisedChild) (slot : ChildHandleSlot) : SupervisedChild :=
  { child with handle := some slot }

@[simp] theorem SupervisedChild.renewed_policy (child : SupervisedChild) (slot : ChildHandleSlot) :
    (child.renewed slot).policy = child.policy := rfl

namespace Supervisor

/-! ## One child at a time -/

/-- The child whose id is in `ids`, changed by `f`. -/
def onIds (ids : List String) (f : SupervisedChild → SupervisedChild) (c : SupervisedChild) : SupervisedChild :=
  if c.policy.id ∈ ids then f c else c

theorem onIds_nil (f : SupervisedChild → SupervisedChild) : onIds [] f = id := by
  funext c
  simp [onIds]

@[simp] theorem onIds_dead_policy (ids : List String) (c : SupervisedChild) : (onIds ids .dead c).policy = c.policy := by
  unfold onIds
  split_ifs <;> rfl

theorem onIds_dead_slotId (ids : List String) (c : SupervisedChild) : (onIds ids .dead c).slotId = c.slotId := by
  unfold onIds
  split_ifs <;> simp

theorem onIds_congr {ids ids' : List String} (h : ∀ id, id ∈ ids ↔ id ∈ ids') (f : SupervisedChild → SupervisedChild) :
    onIds ids f = onIds ids' f := by
  funext c
  simp only [onIds, h]

/-- Marking twice marks both. -/
theorem onIds_dead_append (ids ids' : List String) :
    onIds ids .dead ∘ onIds ids' .dead = onIds (ids ++ ids') .dead := by
  funext c
  have hdead : c.dead.dead = c.dead := SupervisedChild.dead_of_not_alive c.dead_isAlive
  by_cases h₁ : c.policy.id ∈ ids <;> by_cases h₂ : c.policy.id ∈ ids' <;> simp [onIds, h₁, h₂, hdead]

/-- Where ids and slots tell the children apart, marking by the id in a child's slot marks that child. -/
theorem markChildDead_onIds {l : SupervisorLogic} (hids : (l.children.map (·.policy.id)).Nodup)
    (hd : (l.children.map (·.slotId)).Nodup) {child : SupervisedChild} (hc : child ∈ l.children) {n : ActorId}
    (hn : child.slotId = some n) :
    (l.markChildDead n).children = l.children.map (onIds [child.policy.id] .dead) := by
  rw [SupervisorLogic.markChildDead_of_distinct _ hd]
  refine List.map_congr_left fun d hdm => ?_
  have hiff : d.slotId = some n ↔ d.policy.id ∈ [child.policy.id] := by
    rw [List.mem_singleton]
    constructor
    · intro hslot
      rw [List.inj_on_of_nodup_map hd hdm hc (hslot.trans hn.symm)]
    · intro hid
      rw [List.inj_on_of_nodup_map hids hdm hc hid, hn]
  simp only [onIds, hiff]

/-! ## The policy vector and the handle map -/

/-- The vector and the map agree, and nothing is remote. -/
structure Agrees (s : Supervisor) : Prop where
  noRemote : ∀ id, s.remoteHandles id = none ∧ s.remoteSpawnMeta id = none
  ids : (s.logic.children.map (·.policy.id)).Nodup
  slots : ∀ child ∈ s.logic.children, ∃ handle alive,
    s.handles child.policy.id = some handle ∧ child.handle = some { id := handle.id, alive }
  distinct : (s.logic.children.map (·.slotId)).Nodup

variable {s s' : Supervisor} {ctx : Context} {τ : SupTrace}

/-- Marking by the id of a handle marks the child with that handle. -/
theorem Agrees.markChildDead (h : s.Agrees) {id : String} {handle : ChildHandle}
    (hmem : ∃ child ∈ s.logic.children, child.policy.id = id) (hh : s.handles id = some handle) :
    (s.logic.markChildDead handle.id).children = s.logic.children.map (onIds [id] .dead) := by
  obtain ⟨child, hchild, rfl⟩ := hmem
  obtain ⟨handle', alive, hh', hslot⟩ := h.slots child hchild
  obtain rfl : handle = handle' := Option.some.inj (hh.symm.trans hh')
  refine markChildDead_onIds h.ids h.distinct hchild ?_
  rw [SupervisedChild.slotId, hslot]
  rfl

/-- Replacing by id replaces the one child with that id. -/
theorem replaceChildHandle_children {l : SupervisorLogic} (h : (l.children.map (·.policy.id)).Nodup) (id : String)
    (slot : ChildHandleSlot) :
    (l.replaceChildHandle id slot).children =
      l.children.map (fun c => if c.policy.id = id then c.renewed slot else c) := by
  refine List.ext_getElem? fun j => ?_
  rw [SupervisorLogic.replaceChildHandle_getElem?, List.getElem?_map]
  cases hj : l.children[j]? with
  | none => split_ifs <;> rfl
  | some c =>
    by_cases hid : c.policy.id = id
    · have hidx : l.children.findIdx? (·.policy.id == id) = some j := by
        obtain ⟨hjlt, hjc⟩ := List.getElem?_eq_some_iff.mp hj
        refine List.findIdx?_eq_some_iff_getElem.mpr ⟨hjlt, by simp [hjc, hid], fun i hij => ?_⟩
        intro hi
        have hilt : i < l.children.length := lt_trans hij hjlt
        have heq : i = j := index_unique h (List.getElem?_eq_getElem hilt) hj (by simpa [hid] using hi)
        omega
      simp [hid, hidx, SupervisedChild.renewed]
    · have hidx : l.children.findIdx? (·.policy.id == id) ≠ some j := by
        intro hp
        obtain ⟨hjlt, hjc, -⟩ := List.findIdx?_eq_some_iff_getElem.mp hp
        rw [List.getElem?_eq_getElem hjlt] at hj
        cases hj
        exact hid (by simpa using hjc)
      simp [hid, hidx]

/-! ## The loops -/

/-- Slots that keep their ids keep agreeing. -/
theorem Agrees.of_slots (h : s.Agrees) (hr : ∀ id, s'.remoteHandles id = none ∧ s'.remoteSpawnMeta id = none)
    (hh : s'.handles = s.handles) {f : SupervisedChild → SupervisedChild}
    (hc : s'.logic.children = s.logic.children.map f) (hp : ∀ c, (f c).policy = c.policy)
    (hs : ∀ c, (f c).slotId = c.slotId) : s'.Agrees := by
  refine ⟨hr, ?_, ?_, ?_⟩
  · simpa [hc, hp, Function.comp_def] using h.ids
  · intro child hchild
    rw [hc] at hchild
    obtain ⟨c, hmem, rfl⟩ := List.mem_map.mp hchild
    obtain ⟨handle, alive, h₁, h₂⟩ := h.slots c hmem
    have hslot := hs c
    rw [SupervisedChild.slotId, SupervisedChild.slotId, h₂] at hslot
    obtain ⟨slot, hslot', hid⟩ := Option.map_eq_some_iff.mp hslot
    have hid' : handle.id = slot.id := hid.symm
    exact ⟨handle, slot.alive, by rw [hp, hh, h₁], by rw [hslot', hid']⟩
  · simpa [hc, hs, Function.comp_def] using h.distinct

/-- `terminate_children` marks exactly the children it is given, each after a report that its actor has exited, and
starts nothing. -/
theorem exec_terminateChildren {ids : List String} (ha : s.Agrees)
    (hids : ∀ id ∈ ids, ∃ child ∈ s.logic.children, child.policy.id = id)
    (h : (Tasks.Supervisor.terminateChildren s ids).Exec τ s') :
    s' = s.withLogic { s.logic with children := s.logic.children.map (onIds ids .dead) } ∧
      (∀ call ∈ τ, StartsNothing call.op) ∧
      ∀ id ∈ ids, ∀ handle, s.handles id = some handle → ∃ reason, ∃ call ∈ τ, Reports handle reason call := by
  induction ids generalizing s τ with
  | nil =>
    obtain ⟨rfl, rfl⟩ := h
    refine ⟨?_, by simp, by simp⟩
    rw [onIds_nil, List.map_id]
    rfl
  | cons id ids ih =>
    obtain ⟨child, hchild, hid⟩ := hids id (List.mem_cons_self ..)
    obtain ⟨handle, alive, hh, hslot⟩ := ha.slots child hchild
    rw [hid] at hh
    simp only [Tasks.Supervisor.terminateChildren, (ha.noRemote id).1, hh] at h
    obtain ⟨τ₁, reason, τ₂, rfl, h₁, h₂⟩ := Prog.exec_bind.mp h
    have hmark := ha.markChildDead ⟨child, hchild, hid⟩ hh
    set s₁ : Supervisor := s.withLogic (s.logic.markChildDead handle.id) with hs₁
    have ha₁ : s₁.Agrees := ha.of_slots ha.noRemote rfl hmark (onIds_dead_policy [id]) (onIds_dead_slotId [id])
    have hids₁ : ∀ id' ∈ ids, ∃ child ∈ s₁.logic.children, child.policy.id = id' := by
      intro id' hid'
      obtain ⟨c, hc, hcid⟩ := hids id' (List.mem_cons_of_mem _ hid')
      refine ⟨onIds [id] .dead c, ?_, by simpa using hcid⟩
      rw [hs₁, withLogic_logic, hmark]
      exact List.mem_map_of_mem hc
    obtain ⟨hs', hcalls, hreports⟩ := ih ha₁ hids₁ h₂
    refine ⟨?_, ?_, ?_⟩
    · have hsnoc : ∀ id', id' ∈ ids ++ [id] ↔ id' ∈ id :: ids := by simp [or_comm]
      rw [hs', hs₁, withLogic_logic, hmark, List.map_map, onIds_dead_append, onIds_congr hsnoc]
      unfold SupervisorLogic.markChildDead
      split <;> rfl
    · intro call hcall
      rcases List.mem_append.mp hcall with hcall | hcall
      · exact (calls_shutdown_startsNothing _ _).of_exec h₁ call hcall
      · exact hcalls call hcall
    · intro id' hid' handle' hh'
      rcases List.mem_cons.mp hid' with rfl | hid'
      · rw [hh] at hh'
        cases hh'
        obtain ⟨call, hcall, hrep⟩ := exec_shutdownChildAsync h₁
        exact ⟨reason, call, List.mem_append_left _ hcall, hrep⟩
      · obtain ⟨r, call, hcall, hrep⟩ := hreports id' hid' handle' hh'
        exact ⟨r, call, List.mem_append_right _ hcall, hrep⟩

/-- The child with the new actor of its id, alive. -/
def renewal (new : String → ChildHandle) (c : SupervisedChild) : SupervisedChild :=
  c.renewed { id := (new c.policy.id).id, alive := true }

/-- The children with an id in `ids` have got the new actors `new`, and nothing else has changed but the backoff
counters. -/
structure Renewed (ids : List String) (new : String → ChildHandle) (s s' : Supervisor) : Prop where
  specs : s'.specs = s.specs
  remoteHandles : s'.remoteHandles = s.remoteHandles
  remoteSpawnMeta : s'.remoteSpawnMeta = s.remoteSpawnMeta
  handles : ∀ id, s'.handles id = if id ∈ ids then some (new id) else s.handles id
  children : s'.logic.children = s.logic.children.map (onIds ids (renewal new))
  suppress : s'.logic.suppressRestarts = s.logic.suppressRestarts
  pending : s'.logic.pendingBatchRestart = s.logic.pendingBatchRestart

/-- One restart of a local child. -/
theorem exec_restart_local {id : String} (h : (Tasks.Supervisor.restartChildWithBackoff ctx s id).Exec τ s')
    (hmeta : s.remoteSpawnMeta id = none) (hspec : (s.findSpec id).isSome)
    (hn : (s.logic.children.map (·.policy.id)).Nodup) :
    ∃ handle, Renewed [id] (fun _ => handle) s s' ∧ startedIds τ = [handle.id] := by
  obtain ⟨delay, logic, τ', hdelay, rfl, hr⟩ := exec_restartChildWithBackoff h
  obtain ⟨spec, hspec⟩ := Option.isSome_iff_exists.mp hspec
  rw [if_neg (by simp [Table.containsKey, hmeta]), Tasks.Supervisor.restartChild,
    show (s.withLogic logic).findSpec id = some spec from hspec] at hr
  obtain ⟨handle, τ'', rfl, rfl, rfl⟩ := hr
  obtain rfl : (s.logic.backoffDelay id (s.backoffFor id)).2 = logic := by rw [hdelay]
  refine ⟨handle, ⟨rfl, rfl, rfl, ?_, ?_, by simp, by simp⟩, ?_⟩
  · intro id'
    simp [Table.insert_apply]
  · rw [replaceChildHandle_children (by simpa using hn)]
    simp only [withLogic_logic, SupervisorLogic.backoffDelay_children]
    refine List.map_congr_left fun c _ => ?_
    by_cases hc : c.policy.id = id <;> simp [onIds, renewal, hc]
  · unfold sleepCalls
    split_ifs <;> rfl

theorem Renewed.findSpec {ids : List String} {new : String → ChildHandle} (h : Renewed ids new s s') (id : String) :
    s'.findSpec id = s.findSpec id := by
  rw [Supervisor.findSpec, Supervisor.findSpec, h.specs]

theorem Renewed.ids {ids : List String} {new : String → ChildHandle} (h : Renewed ids new s s') :
    s'.logic.children.map (·.policy) = s.logic.children.map (·.policy) := by
  rw [h.children, List.map_map]
  refine List.map_congr_left fun c _ => ?_
  by_cases hc : c.policy.id ∈ ids <;> simp [onIds, renewal, hc]

/-- The restart loop gives every child of the list one new actor. -/
theorem exec_restartEach {ids : List String} (h : (Tasks.Supervisor.restartEach ctx s ids).Exec τ s')
    (hmeta : ∀ id, s.remoteSpawnMeta id = none) (hspec : ∀ id ∈ ids, (s.findSpec id).isSome) (hids : ids.Nodup)
    (hn : (s.logic.children.map (·.policy.id)).Nodup) :
    ∃ new, Renewed ids new s s' ∧ startedIds τ = ids.map (fun id => (new id).id) := by
  induction ids generalizing s τ with
  | nil =>
    obtain ⟨rfl, rfl⟩ := h
    refine ⟨fun _ => ⟨0⟩, ⟨rfl, rfl, rfl, by simp, ?_, rfl, rfl⟩, rfl⟩
    rw [onIds_nil, List.map_id]
  | cons id ids ih =>
    obtain ⟨hnot, hids⟩ := List.nodup_cons.mp hids
    rw [Tasks.Supervisor.restartEach] at h
    obtain ⟨τ₁, s₁, τ₂, rfl, h₁, h₂⟩ := Prog.exec_bind.mp h
    obtain ⟨handle, hfirst, hstart⟩ := exec_restart_local h₁ (hmeta id) (hspec id (List.mem_cons_self ..)) hn
    have hn₁ : (s₁.logic.children.map (·.policy.id)).Nodup := by
      have hpol := congrArg (List.map (·.id)) hfirst.ids
      simp only [List.map_map, Function.comp_def] at hpol
      rw [hpol]
      exact hn
    obtain ⟨new, hrest, hstarts⟩ := ih h₂ (fun id' => by rw [hfirst.remoteSpawnMeta, hmeta])
      (fun id' hid' => by rw [hfirst.findSpec]; exact hspec id' (List.mem_cons_of_mem _ hid')) hids hn₁
    refine ⟨fun id' => if id' = id then handle else new id', ?_, ?_⟩
    · refine ⟨hrest.specs.trans hfirst.specs, hrest.remoteHandles.trans hfirst.remoteHandles,
        hrest.remoteSpawnMeta.trans hfirst.remoteSpawnMeta, ?_, ?_, hrest.suppress.trans hfirst.suppress,
        hrest.pending.trans hfirst.pending⟩
      · intro id'
        rw [hrest.handles, hfirst.handles]
        by_cases h1 : id' = id
        · subst h1
          simp [hnot]
        · simp [h1]
      · rw [hrest.children, hfirst.children, List.map_map]
        refine List.map_congr_left fun c _ => ?_
        by_cases h1 : c.policy.id = id
        · simp [onIds, renewal, h1, hnot]
        · simp [onIds, renewal, h1]
    · have htail : ids.map (fun id' => (if id' = id then handle else new id').id) = ids.map (fun id' => (new id').id) := by
        refine List.map_congr_left fun id' hid' => ?_
        rw [if_neg (fun he : id' = id => hnot (he ▸ hid'))]
      simp [hstart, hstarts, htail]

/-! ## The invariant between callbacks -/

/-- The policies of children started from these specs. -/
def policiesOf (specs : List ChildSpec) : List ChildPolicy :=
  specs.zipIdx.map fun entry => { id := entry.1.id, restart := entry.1.restart, startIndex := entry.2 }

theorem policiesOf_getElem? (specs : List ChildSpec) (j : Nat) :
    (policiesOf specs)[j]? = (specs[j]?).map fun spec => { id := spec.id, restart := spec.restart, startIndex := j } := by
  rw [policiesOf, List.getElem?_map, List.getElem?_zipIdx]
  cases specs[j]? <;> simp

theorem policiesOf_ids (specs : List ChildSpec) : (policiesOf specs).map (·.id) = specs.map (·.id) := by
  refine List.ext_getElem? fun j => ?_
  rw [List.getElem?_map, policiesOf_getElem?, List.getElem?_map]
  cases specs[j]? <;> rfl

theorem policiesOf_snoc (specs : List ChildSpec) (spec : ChildSpec) :
    policiesOf (specs ++ [spec]) =
      policiesOf specs ++ [{ id := spec.id, restart := spec.restart, startIndex := specs.length }] := by
  simp [policiesOf, List.zipIdx_append]

/-- A supervisor of the local children `started`, all of whose actors are among `seen`, between two callbacks. -/
structure LocalInv (started : List ChildSpec) (seen : List ActorId) (s : Supervisor) : Prop where
  agrees : s.Agrees
  policies : s.logic.children.map (·.policy) = policiesOf started
  seen : ∀ child ∈ s.logic.children, ∀ slot, child.handle = some slot → slot.id ∈ seen
  enabled : s.logic.suppressRestarts = false
  pending : s.logic.pendingBatchRestart = none

variable {specs : List ChildSpec} {seen : List ActorId}

theorem LocalInv.ids (h : LocalInv specs seen s) : s.logic.children.map (·.policy.id) = specs.map (·.id) := by
  have hpol := congrArg (List.map (·.id)) h.policies
  rw [policiesOf_ids, List.map_map] at hpol
  exact hpol

/-- Positions are start indices. -/
theorem LocalInv.startIndex (h : LocalInv specs seen s) {j : Nat} {child : SupervisedChild}
    (hj : s.logic.children[j]? = some child) : child.policy.startIndex = j := by
  have hpol : (policiesOf specs)[j]? = some child.policy := by
    rw [← h.policies, List.getElem?_map, hj]
    rfl
  rw [policiesOf_getElem?] at hpol
  obtain ⟨spec, -, heq⟩ := Option.map_eq_some_iff.mp hpol
  rw [← heq]

/-- Every child has its spec. -/
theorem LocalInv.findSpec (h : LocalInv specs seen s) (hs : s.specs = specs) {child : SupervisedChild}
    (hc : child ∈ s.logic.children) : (s.findSpec child.policy.id).isSome := by
  have hmem : child.policy.id ∈ specs.map (·.id) := by
    rw [← h.ids]
    exact List.mem_map_of_mem hc
  obtain ⟨spec, hspec, hid⟩ := List.mem_map.mp hmem
  rw [Supervisor.findSpec, hs, List.find?_isSome]
  exact ⟨spec, hspec, by simp [hid]⟩

/-- Changing only what the engine believes of its children keeps the invariant. -/
theorem LocalInv.of_marks (h : LocalInv specs seen s) {l : SupervisorLogic} {ids : List String}
    (hc : l.children = s.logic.children.map (onIds ids .dead)) (hs : l.suppressRestarts = false)
    (hp : l.pendingBatchRestart = none) : LocalInv specs seen (s.withLogic l) := by
  refine ⟨h.agrees.of_slots h.agrees.noRemote rfl hc (onIds_dead_policy ids) (onIds_dead_slotId ids), ?_, ?_, hs, hp⟩
  · rw [← h.policies, withLogic_logic, hc, List.map_map]
    exact List.map_congr_left fun c _ => onIds_dead_policy ids c
  · intro child hchild slot hsl
    rw [withLogic_logic, hc] at hchild
    obtain ⟨c, hcm, rfl⟩ := List.mem_map.mp hchild
    have hold := onIds_dead_slotId ids c
    rw [SupervisedChild.slotId, hsl] at hold
    obtain ⟨old, hold', hid⟩ := Option.map_eq_some_iff.mp hold.symm
    have hid' : slot.id = old.id := hid.symm
    rw [hid']
    exact h.seen c hcm old hold'

/-- New actors with fresh ids keep the invariant. -/
theorem LocalInv.of_renewed (h : LocalInv specs seen s) {ids : List String} {new : String → ChildHandle}
    (hr : Renewed ids new s s') (hfresh : (seen ++ ids.map (fun id => (new id).id)).Nodup) :
    LocalInv specs (seen ++ ids.map (fun id => (new id).id)) s' := by
  obtain ⟨-, hnew, hdisj⟩ := List.nodup_append.mp hfresh
  have hchildren := hr.children
  -- the slot of a child after the restarts
  have hslot : ∀ c ∈ s.logic.children, (onIds ids (renewal new) c).slotId =
      if c.policy.id ∈ ids then some (new c.policy.id).id else c.slotId := by
    intro c _
    unfold onIds
    split_ifs <;> rfl
  have hpol : s'.logic.children.map (·.policy) = s.logic.children.map (·.policy) := hr.ids
  refine ⟨⟨?_, ?_, ?_, ?_⟩, hpol.trans h.policies, ?_, hr.suppress.trans h.enabled, hr.pending.trans h.pending⟩
  · intro id
    rw [hr.remoteHandles, hr.remoteSpawnMeta]
    exact h.agrees.noRemote id
  · have hids := congrArg (List.map (·.id)) hpol
    simp only [List.map_map, Function.comp_def] at hids
    rw [hids]
    exact h.agrees.ids
  · intro child hchild
    rw [hchildren] at hchild
    obtain ⟨c, hc, rfl⟩ := List.mem_map.mp hchild
    by_cases hid : c.policy.id ∈ ids
    · exact ⟨new c.policy.id, true, by simp [onIds, hid, hr.handles, renewal], by simp [onIds, hid, renewal,
        SupervisedChild.renewed]⟩
    · obtain ⟨handle, alive, h₁, h₂⟩ := h.agrees.slots c hc
      exact ⟨handle, alive, by simp [onIds, hid, hr.handles, h₁], by simp [onIds, hid, h₂]⟩
  · rw [hchildren, List.map_map]
    refine List.Nodup.map_on ?_ (List.Nodup.of_map _ h.agrees.ids)
    intro c hc d hd heq
    simp only [Function.comp_apply, hslot c hc, hslot d hd] at heq
    have hsame : c.policy.id = d.policy.id → c = d := fun he => List.inj_on_of_nodup_map h.agrees.ids hc hd he
    have hold : ∀ e ∈ s.logic.children, ∀ id ∈ ids, some (new id).id ≠ e.slotId := by
      intro e he id hid hne
      obtain ⟨slot, hs, hsid⟩ := Option.map_eq_some_iff.mp hne.symm
      exact hdisj _ (h.seen e he slot hs) _ (List.mem_map_of_mem hid) hsid
    split_ifs at heq with h1 h2 h2
    · exact hsame (List.inj_on_of_nodup_map hnew h1 h2 (Option.some.inj heq))
    · exact absurd heq (hold d hd _ h1)
    · exact absurd heq.symm (hold c hc _ h2)
    · exact List.inj_on_of_nodup_map h.agrees.distinct hc hd heq
  · intro child hchild slot hsl
    rw [hchildren] at hchild
    obtain ⟨c, hc, rfl⟩ := List.mem_map.mp hchild
    by_cases hid : c.policy.id ∈ ids
    · have hid' : slot.id = (new c.policy.id).id := by
        simp only [onIds, hid, if_true, renewal, SupervisedChild.renewed, Option.some.injEq] at hsl
        rw [← hsl]
      rw [hid']
      exact List.mem_append_right _ (List.mem_map_of_mem hid)
    · rw [onIds, if_neg hid] at hsl
      exact List.mem_append_left _ (h.seen c hc slot hsl)

/-! ## What a handled exit does -/

/-- The ids a batch restarts are the scope of the exit that began it, in the vector's order. -/
theorem batchIds_scope {l : SupervisorLogic} {child : SupervisedChild} {b : BatchRestart}
    (hb : (l.strategy = .oneForAll ∧ b = .all) ∨
      (l.strategy = .restForOne ∧ b = .fromIndex child.policy.startIndex)) : l.batchIds b = l.restartScope child := by
  rcases hb with ⟨hs, rfl⟩ | ⟨hs, rfl⟩ <;> simp [SupervisorLogic.batchIds, SupervisorLogic.restartScope, hs]

theorem restartScope_nodup {l : SupervisorLogic} (h : (l.children.map (·.policy.id)).Nodup)
    (child : SupervisedChild) : (l.restartScope child).Nodup := by
  unfold SupervisorLogic.restartScope
  cases l.strategy with
  | oneForOne => exact List.nodup_singleton _
  | oneForAll => exact h
  | restForOne => exact h.sublist (List.filter_sublist.map _)

theorem mem_restartScope {l : SupervisorLogic} {child : SupervisedChild} (hc : child ∈ l.children) {id : String}
    (hid : id ∈ l.restartScope child) : ∃ c ∈ l.children, c.policy.id = id := by
  unfold SupervisorLogic.restartScope at hid
  cases hs : l.strategy with
  | oneForOne =>
    rw [hs] at hid
    exact ⟨child, hc, (List.mem_singleton.mp hid).symm⟩
  | oneForAll =>
    rw [hs] at hid
    exact List.mem_map.mp hid
  | restForOne =>
    rw [hs] at hid
    obtain ⟨c, hc, -, heq⟩ := SupervisorLogic.mem_restForOneIds.mp hid
    exact ⟨c, hc, heq⟩

theorem self_mem_restartScope {l : SupervisorLogic} {child : SupervisedChild} (hc : child ∈ l.children) :
    child.policy.id ∈ l.restartScope child := by
  unfold SupervisorLogic.restartScope
  cases l.strategy with
  | oneForOne => exact List.mem_singleton_self _
  | oneForAll => exact List.mem_map_of_mem hc
  | restForOne => exact SupervisorLogic.mem_restForOneIds.mpr ⟨child, hc, le_rfl, rfl⟩

/-- Attributing an exit marks the exiting child. -/
theorem LocalInv.recorded_children (h : LocalInv specs seen s) {actorId : ActorId} {p : Nat}
    {child : SupervisedChild} (hp : s.logic.childIndexByActor actorId = some p)
    (hc : s.logic.children[p]? = some child) :
    (s.logic.markChildDead actorId).children = s.logic.children.map (onIds [child.policy.id] .dead) := by
  obtain ⟨child', hc', hslot'⟩ := SupervisorLogic.childIndexByActor_eq_some hp
  rw [hc] at hc'
  cases hc'
  have hmem := List.mem_of_getElem? hc
  obtain ⟨handle, alive, hh, hslot⟩ := h.agrees.slots child hmem
  rw [hslot'] at hslot
  obtain rfl : actorId = handle.id := by
    have := Option.some.inj hslot
    simpa using congrArg ChildHandleSlot.id this
  exact h.agrees.markChildDead ⟨child, hmem, rfl⟩ hh

/-- A batch all of whose children are dead is complete. -/
theorem LocalInv.complete (h : LocalInv specs seen s) {ids : List String} {l : SupervisorLogic} {b : BatchRestart}
    (hl : l.children = s.logic.children.map (onIds ids .dead)) (hb : l.pendingBatchRestart = some b)
    (hids : l.batchIds b = ids) (hk : ∀ k, b = .fromIndex k → k ≤ s.logic.children.length) :
    l.pendingBatchRestartComplete = true := by
  have hpol : l.children.map (·.policy) = s.logic.children.map (·.policy) := by
    rw [hl, List.map_map]
    exact List.map_congr_left fun c _ => onIds_dead_policy ids c
  have hdead : ∀ child ∈ l.children, child.policy.id ∈ ids → child.isAlive = false := by
    intro child hchild hid
    rw [hl] at hchild
    obtain ⟨c, -, rfl⟩ := List.mem_map.mp hchild
    rw [onIds_dead_policy] at hid
    simp [onIds, hid]
  have hordered : s.logic.Ordered := fun j child hj => (h.startIndex hj).ge
  have hcovered : l.Covered := by
    intro k hk'
    obtain rfl : b = .fromIndex k := Option.some.inj (hb.symm.trans hk')
    refine ⟨by simpa [hl] using hk k rfl, fun j child _ hj hid => ?_⟩
    have hid' : child.policy.id ∈ l.batchIds (.fromIndex k) := hid
    exact hdead child (List.mem_of_getElem? hj) (hids ▸ hid')
  refine (SupervisorLogic.batchExact_of_covered (hordered.of_policies hpol) hcovered b hb).mpr ?_
  intro child hchild hid
  exact hdead child hchild (hids ▸ hid)

/-- A complete batch of local children is taken, and its ids are restarted in the vector's order. -/
theorem exec_maybeComplete_local {b : BatchRestart}
    (h : (Tasks.Supervisor.maybeCompleteBatchRestart ctx s).Exec τ s')
    (hmeta : ∀ id, s.remoteSpawnMeta id = none) (hc : s.logic.pendingBatchRestartComplete = true)
    (hb : s.logic.pendingBatchRestart = some b) :
    (Tasks.Supervisor.restartEach ctx
      (s.withLogic { s.logic with pendingBatchRestart := none, suppressRestarts := false })
      (s.logic.batchIds b)).Exec τ s' := by
  have htake : s.logic.takePendingRestartIds = (some (s.logic.batchIds b),
      { s.logic with pendingBatchRestart := none, suppressRestarts := false }) := by
    simp [SupervisorLogic.takePendingRestartIds, hb]
  have hkey : ∀ id, s.remoteSpawnMeta.containsKey id = false := fun id => by simp [Table.containsKey, hmeta]
  rw [Tasks.Supervisor.maybeCompleteBatchRestart, hc, htake] at h
  simp only [Bool.not_true, Bool.false_eq_true, if_false, List.partition_eq_filter_filter, hkey, List.filter_false,
    Function.comp_def, Bool.not_false, List.filter_true] at h
  exact h

/-- Restarting after marking is restarting. -/
theorem Renewed.of_marks {ids : List String} {new : String → ChildHandle} {l : SupervisorLogic}
    (hc : l.children = s.logic.children.map (onIds ids .dead)) (h : Renewed ids new (s.withLogic l) s')
    (hs : l.suppressRestarts = s.logic.suppressRestarts)
    (hp : l.pendingBatchRestart = s.logic.pendingBatchRestart) : Renewed ids new s s' := by
  refine ⟨h.specs, h.remoteHandles, h.remoteSpawnMeta, h.handles, ?_, h.suppress.trans hs, h.pending.trans hp⟩
  rw [h.children, withLogic_logic, hc, List.map_map]
  refine List.map_congr_left fun c _ => ?_
  by_cases hid : c.policy.id ∈ ids
  · simp [onIds, hid, renewal, SupervisedChild.renewed, SupervisedChild.dead]
  · simp [onIds, hid]

/-- The batch half of `handle_exit`: everything in scope is reported exited, then everything in scope is started. -/
theorem LocalInv.exec_batch (h : LocalInv specs seen s) (hspecs : s.specs = specs) {actorId : ActorId} {p : Nat}
    {child : SupervisedChild} {l : SupervisorLogic} {b : BatchRestart} {τ₁ τ₂ : SupTrace} {s₁ : Supervisor}
    (hp : s.logic.childIndexByActor actorId = some p) (hc : s.logic.children[p]? = some child)
    (hl : l.children = (s.logic.markChildDead actorId).children) (hb : l.pendingBatchRestart = some b)
    (hscope : (s.logic.strategy = .oneForAll ∧ b = .all) ∨
      (s.logic.strategy = .restForOne ∧ b = .fromIndex child.policy.startIndex))
    (h₁ : (Tasks.Supervisor.terminateChildren (s.withLogic l) (s.logic.restartScope child)).Exec τ₁ s₁)
    (h₂ : (Tasks.Supervisor.maybeCompleteBatchRestart ctx s₁).Exec τ₂ s') :
    ∃ new, Renewed (s.logic.restartScope child) new s s' ∧
      startedIds τ₂ = (s.logic.restartScope child).map (fun id => (new id).id) ∧
      (∀ call ∈ τ₁, StartsNothing call.op) ∧
      ∀ id ∈ s.logic.restartScope child, ∀ handle, s.handles id = some handle →
        ∃ reason, ∃ call ∈ τ₁, Reports handle reason call := by
  have hmem := List.mem_of_getElem? hc
  have hl' : l.children = s.logic.children.map (onIds [child.policy.id] .dead) := by
    rw [hl, h.recorded_children hp hc]
  have ha : (s.withLogic l).Agrees := by
    exact h.agrees.of_slots h.agrees.noRemote rfl hl' (onIds_dead_policy _) (onIds_dead_slotId _)
  have hin : ∀ id ∈ s.logic.restartScope child, ∃ c ∈ (s.withLogic l).logic.children, c.policy.id = id := by
    intro id hid
    obtain ⟨c, hcm, hcid⟩ := mem_restartScope hmem hid
    refine ⟨onIds [child.policy.id] .dead c, ?_, by simpa using hcid⟩
    rw [withLogic_logic, hl']
    exact List.mem_map_of_mem hcm
  obtain ⟨rfl, hnone, hreports⟩ := exec_terminateChildren ha hin h₁
  set scope := s.logic.restartScope child with hscopedef
  set l₁ : SupervisorLogic := { l with children := l.children.map (onIds scope .dead) } with hl₁
  have hchildren : l₁.children = s.logic.children.map (onIds scope .dead) := by
    rw [hl₁]
    show l.children.map (onIds scope .dead) = _
    have hself : ∀ id, id ∈ scope ++ [child.policy.id] ↔ id ∈ scope := fun id => by
      simpa using fun he : id = child.policy.id => he ▸ self_mem_restartScope hmem
    rw [hl', List.map_map, onIds_dead_append, onIds_congr hself]
  have hpol : l₁.children.map (·.policy) = s.logic.children.map (·.policy) := by
    rw [hchildren, List.map_map]
    exact List.map_congr_left fun c _ => onIds_dead_policy scope c
  have hids : l₁.batchIds b = scope := by
    rw [batchIds_congr hpol, batchIds_scope hscope]
  have hcomplete : l₁.pendingBatchRestartComplete = true := by
    refine h.complete hchildren hb hids fun k hk => ?_
    rcases hscope with ⟨-, rfl⟩ | ⟨-, rfl⟩
    · cases hk
    · cases hk
      rw [h.startIndex hc]
      exact (List.getElem?_eq_some_iff.mp hc).1.le
  have hloop : (Tasks.Supervisor.restartEach ctx
      (s.withLogic { l₁ with pendingBatchRestart := none, suppressRestarts := false }) (l₁.batchIds b)).Exec τ₂ s' :=
    exec_maybeComplete_local h₂ (fun id => (h.agrees.noRemote id).2) hcomplete hb
  rw [hids] at hloop
  have hfound : ∀ id ∈ scope, (s.findSpec id).isSome := by
    intro id hid
    obtain ⟨c, hcm, rfl⟩ := mem_restartScope hmem hid
    exact h.findSpec hspecs hcm
  have hnodup : (l₁.children.map (·.policy.id)).Nodup := by
    have hids := congrArg (List.map (·.id)) hpol
    simp only [List.map_map, Function.comp_def] at hids
    rw [hids]
    exact h.agrees.ids
  obtain ⟨new, hnew, hstarts⟩ := exec_restartEach hloop (fun id => (h.agrees.noRemote id).2) hfound
    (restartScope_nodup h.agrees.ids child) hnodup
  exact ⟨new, Renewed.of_marks (l := { l₁ with pendingBatchRestart := none, suppressRestarts := false })
    hchildren hnew h.enabled.symm h.pending.symm, hstarts, hnone, hreports⟩

/-- A handled exit that calls for a restart renews exactly its scope; in a batch, after reports of everything in it. -/
theorem LocalInv.exec_restart (h : LocalInv specs seen s) (hspecs : s.specs = specs) {exit : Exit} {now : Instant}
    {rest : SupTrace} {p : Nat} {child : SupervisedChild}
    (hr : s.logic.Restarts exit.from.actorId exit.reason now p child)
    (hx : (Tasks.Supervisor.handleExit ctx s exit).Exec (⟨.now, now⟩ :: rest) s') :
    ∃ new, Renewed (s.logic.restartScope child) new s s' ∧
      startedIds rest = (s.logic.restartScope child).map (fun id => (new id).id) ∧
      (s.logic.strategy ≠ .oneForOne → ∃ τ₁ τ₂, rest = τ₁ ++ τ₂ ∧ (∀ call ∈ τ₁, StartsNothing call.op) ∧
        ∀ id ∈ s.logic.restartScope child, ∀ handle, s.handles id = some handle →
          ∃ reason, ∃ call ∈ τ₁, Reports handle reason call) := by
  rw [Tasks.Supervisor.handleExit, h.enabled, if_neg Bool.false_ne_true] at hx
  replace hx := Prog.exec_op_bind.mp hx
  obtain ⟨now', τ', hτ, hx⟩ := hx
  obtain ⟨hcall, rfl⟩ := List.cons.inj hτ
  cases hcall
  rcases hact : s.logic.onChildExit exit.from.actorId exit.reason now with ⟨action, logic⟩
  rw [hact] at hx
  have hmem := List.mem_of_getElem? hr.child_eq
  cases SupervisorLogic.decides_of_onChildExit hact with
  | suppressed hs => simp [h.enabled] at hs
  | unknown hn => simp [hr.index] at hn
  | final hp hc hshould =>
    obtain rfl := Option.some.inj (hr.index.symm.trans hp)
    obtain rfl := Option.some.inj (hr.child_eq.symm.trans hc)
    simp [hr.should] at hshould
  | meltdown hp hc hshould hi => simp [hr.accepted] at hi
  | restartOne hr' hst =>
    obtain ⟨rfl, rfl⟩ := hr.unique hr'
    have hchildren : (s.logic.recorded exit.from.actorId now).children =
        s.logic.children.map (onIds [child.policy.id] .dead) := h.recorded_children hr.index hr.child_eq
    have hscope : s.logic.restartScope child = [child.policy.id] := by simp [SupervisorLogic.restartScope, hst]
    have hnodup : ((s.logic.recorded exit.from.actorId now).children.map (·.policy.id)).Nodup := by
      rw [hchildren, List.map_map]
      simpa [Function.comp_def] using h.agrees.ids
    have hone : (Tasks.Supervisor.restartChildWithBackoff ctx
        (s.withLogic (s.logic.recorded exit.from.actorId now)) child.policy.id).Exec rest s' := hx
    obtain ⟨handle, hnew, hstarts⟩ := exec_restart_local hone (h.agrees.noRemote _).2 (h.findSpec hspecs hmem) hnodup
    rw [hscope]
    refine ⟨fun _ => handle, Renewed.of_marks hchildren hnew ?_ ?_, hstarts, fun hne => absurd hst hne⟩
    · simp [SupervisorLogic.recorded]
    · simp [SupervisorLogic.recorded]
  | all hr' hst =>
    obtain ⟨rfl, rfl⟩ := hr.unique hr'
    obtain ⟨τ₁, s₁, τ₂, rfl, h₁, h₂⟩ := Prog.exec_bind.mp hx
    have hscope : s.logic.restartScope child = allChildIds (s.logic.markChildDead exit.from.actorId).children := by
      rw [SupervisorLogic.allChildIds_congr (SupervisorLogic.markChildDead_policies ..)]
      simp [SupervisorLogic.restartScope, hst]
    rw [← hscope] at h₁
    obtain ⟨new, hnew, hstarts, hnone, hreports⟩ :=
      h.exec_batch hspecs hr.index hr.child_eq (l := { s.logic.recorded exit.from.actorId now with
        suppressRestarts := true, pendingBatchRestart := some .all }) rfl rfl (Or.inl ⟨hst, rfl⟩) h₁ h₂
    refine ⟨new, hnew, ?_, fun _ => ⟨τ₁, τ₂, rfl, hnone, hreports⟩⟩
    rw [startedIds_append, startedIds_eq_nil hnone, hstarts, List.nil_append]
  | rest hr' hst =>
    obtain ⟨rfl, rfl⟩ := hr.unique hr'
    obtain ⟨τ₁, s₁, τ₂, rfl, h₁, h₂⟩ := Prog.exec_bind.mp hx
    have hscope : s.logic.restartScope child =
        restForOneIds (s.logic.markChildDead exit.from.actorId).children child.policy.startIndex := by
      rw [SupervisorLogic.restForOneIds_congr _ (SupervisorLogic.markChildDead_policies ..)]
      simp [SupervisorLogic.restartScope, hst]
    rw [← hscope] at h₁
    obtain ⟨new, hnew, hstarts, hnone, hreports⟩ :=
      h.exec_batch hspecs hr.index hr.child_eq (l := { s.logic.recorded exit.from.actorId now with
        suppressRestarts := true, pendingBatchRestart := some (.fromIndex child.policy.startIndex) }) rfl rfl
        (Or.inr ⟨hst, rfl⟩) h₁ h₂
    refine ⟨new, hnew, ?_, fun _ => ⟨τ₁, τ₂, rfl, hnone, hreports⟩⟩
    rw [startedIds_append, startedIds_eq_nil hnone, hstarts, List.nil_append]

/-- Every handled exit keeps the invariant, as long as the actors it starts are fresh. -/
theorem LocalInv.exec_handleExit (h : LocalInv specs seen s) (hspecs : s.specs = specs) {exit : Exit}
    (hx : (Tasks.Supervisor.handleExit ctx s exit).Exec τ s') (hfresh : (seen ++ startedIds τ).Nodup) :
    LocalInv specs (seen ++ startedIds τ) s' ∧ s'.specs = specs := by
  have hx' := hx
  rw [Tasks.Supervisor.handleExit, h.enabled, if_neg Bool.false_ne_true] at hx'
  replace hx' := Prog.exec_op_bind.mp hx'
  obtain ⟨now, rest, rfl, hx'⟩ := hx'
  rcases hact : s.logic.onChildExit exit.from.actorId exit.reason now with ⟨action, logic⟩
  rw [hact] at hx'
  -- a handler that starts nothing leaves the ids seen as they are
  have hquiet : ∀ {l : SupervisorLogic} {ids : List String}, startedIds rest = [] → s' = s.withLogic l →
      l.children = s.logic.children.map (onIds ids .dead) → l.suppressRestarts = s.logic.suppressRestarts →
      l.pendingBatchRestart = s.logic.pendingBatchRestart →
      LocalInv specs (seen ++ startedIds (⟨.now, now⟩ :: rest)) s' ∧ s'.specs = specs := by
    rintro l ids hrest rfl hc hs hp
    rw [startedIds_now, hrest, List.append_nil]
    exact ⟨h.of_marks hc (hs.trans h.enabled) (hp.trans h.pending), hspecs⟩
  have hnil : s.logic.children = s.logic.children.map (onIds [] .dead) := by
    rw [onIds_nil, List.map_id]
  -- a restart renews its scope
  have hrenew : ∀ {p child}, s.logic.Restarts exit.from.actorId exit.reason now p child →
      LocalInv specs (seen ++ startedIds (⟨.now, now⟩ :: rest)) s' ∧ s'.specs = specs := by
    intro p child hr
    obtain ⟨new, hnew, hstarts, -⟩ := h.exec_restart hspecs hr hx
    rw [startedIds_now] at hfresh ⊢
    rw [hstarts] at hfresh ⊢
    exact ⟨h.of_renewed hnew hfresh, hnew.specs.trans hspecs⟩
  cases SupervisorLogic.decides_of_onChildExit hact with
  | suppressed hs => simp [h.enabled] at hs
  | unknown hn =>
    obtain ⟨rfl, rfl⟩ := hx'
    exact hquiet rfl rfl hnil rfl rfl
  | final hp hc hshould =>
    obtain ⟨rfl, rfl⟩ := hx'
    refine hquiet rfl rfl (h.recorded_children hp hc) ?_ ?_
    · simp [SupervisorLogic.resetBackoff]
    · simp [SupervisorLogic.resetBackoff]
  | meltdown hp hc hshould hi =>
    obtain ⟨_, _, rfl, rfl, rfl⟩ := hx'
    refine hquiet rfl rfl (h.recorded_children hp hc) ?_ ?_
    · simp [SupervisorLogic.recorded]
    · simp [SupervisorLogic.recorded]
  | restartOne hr hst => exact hrenew hr
  | all hr hst => exact hrenew hr
  | rest hr hst => exact hrenew hr

/-- Starting local children one after the other builds the invariant up. -/
theorem LocalInv.exec_startEach {done todo : List ChildSpec} (h : LocalInv done seen s)
    (hlocal : ∀ spec ∈ todo, spec.isRemote = false) (hids : ((done ++ todo).map (·.id)).Nodup)
    (hx : (Tasks.Supervisor.startEach ctx s done.length todo).Exec τ s') (hfresh : (seen ++ startedIds τ).Nodup) :
    LocalInv (done ++ todo) (seen ++ startedIds τ) s' ∧ s'.specs = s.specs := by
  induction todo generalizing s done seen τ with
  | nil =>
    obtain ⟨rfl, rfl⟩ := hx
    exact ⟨by simpa using h, rfl⟩
  | cons spec todo ih =>
    rw [Tasks.Supervisor.startEach, hlocal spec (List.mem_cons_self ..), if_neg Bool.false_ne_true] at hx
    obtain ⟨handle, τ', rfl, hx⟩ := hx
    have hseen' : seen ++ startedIds (⟨.startChild spec, handle⟩ :: τ') = (seen ++ [handle.id]) ++ startedIds τ' := by
      simp
    have hdone' : done ++ spec :: todo = (done ++ [spec]) ++ todo := by simp
    rw [hseen'] at hfresh ⊢
    rw [hdone'] at hids ⊢
    have hnew : LocalInv (done ++ [spec]) (seen ++ [handle.id]) (s.localStarted spec done.length handle) := by
      have hseen : handle.id ∉ seen := fun hmem =>
        (List.nodup_append.mp (List.nodup_append.mp hfresh).1).2.2 _ hmem _ (List.mem_singleton_self _) rfl
      have hid : spec.id ∉ s.logic.children.map (·.policy.id) := by
        rw [h.ids]
        rw [List.map_append, List.map_append] at hids
        intro hmem
        exact (List.nodup_append.mp (List.nodup_append.mp hids).1).2.2 _ hmem _ (by simp) rfl
      refine ⟨⟨h.agrees.noRemote, ?_, ?_, ?_⟩, ?_, ?_, h.enabled, h.pending⟩
      · simp only [localStarted_logic, SupervisorLogic.registerChild, List.map_append, List.map_cons, List.map_nil]
        exact List.nodup_append.mpr ⟨h.agrees.ids, List.nodup_singleton _, by
          intro a ha b hb hab
          obtain rfl := List.mem_singleton.mp hb
          exact hid (hab ▸ ha)⟩
      · intro child hchild
        simp only [localStarted_logic, SupervisorLogic.registerChild, List.mem_append, List.mem_singleton] at hchild
        rcases hchild with hchild | rfl
        · obtain ⟨old, alive, h₁, h₂⟩ := h.agrees.slots child hchild
          have hne : child.policy.id ≠ spec.id := fun he => hid (he ▸ List.mem_map_of_mem hchild)
          exact ⟨old, alive, by simp [Table.insert_ne _ _ hne, h₁], h₂⟩
        · exact ⟨handle, true, by simp, rfl⟩
      · simp only [localStarted_logic, SupervisorLogic.registerChild, List.map_append, List.map_cons, List.map_nil]
        refine List.nodup_append.mpr ⟨h.agrees.distinct, List.nodup_singleton _, ?_⟩
        intro a ha b hb hab
        obtain rfl := List.mem_singleton.mp hb
        obtain ⟨child, hchild, rfl⟩ := List.mem_map.mp ha
        obtain ⟨slot, hslot, hsid⟩ := Option.map_eq_some_iff.mp hab
        have hsid' : slot.id = handle.id := hsid
        exact hseen (hsid' ▸ h.seen child hchild slot hslot)
      · simp [SupervisorLogic.registerChild, policiesOf_snoc, h.policies]
      · intro child hchild slot hslot
        simp only [localStarted_logic, SupervisorLogic.registerChild, List.mem_append, List.mem_singleton] at hchild
        rcases hchild with hchild | rfl
        · exact List.mem_append_left _ (h.seen child hchild slot hslot)
        · obtain rfl := Option.some.inj hslot
          exact List.mem_append_right _ (List.mem_singleton_self _)
    have hlen : done.length + 1 = (done ++ [spec]).length := by simp
    rw [hlen] at hx
    obtain ⟨hinv, hspecs⟩ := ih hnew (fun sp hsp => hlocal sp (List.mem_cons_of_mem _ hsp)) hids hx hfresh
    exact ⟨hinv, hspecs⟩

/-! ## Whole lives -/

theorem localInv_build (b : SupervisorBuilder) : LocalInv [] [] b.build := by
  refine ⟨⟨fun _ => ⟨rfl, rfl⟩, ?_, ?_, ?_⟩, rfl, ?_, rfl, rfl⟩ <;>
    simp [SupervisorBuilder.build, SupervisorLogic.new]

/-- The invariant holds between any two callbacks of a supervisor of local children, if `ActorId::next` never repeats
an id. -/
theorem localInv_lives {rt : Runtime} {b : SupervisorBuilder} {τ₀ : SupTrace}
    {hist : List (Serving Supervisor × Turn Empty Empty)} {p : Serving Supervisor}
    (hlocal : ∀ spec ∈ b.specs, spec.isRemote = false) (hids : (b.specs.map (·.id)).Nodup)
    (h : (rt.supervisor ctx).Lives b.build τ₀ hist p)
    (hfresh : (startedIds (τ₀ ++ hist.flatMap (·.2.calls))).Nodup) :
    LocalInv b.specs (startedIds (τ₀ ++ hist.flatMap (·.2.calls))) p.state ∧ p.state.specs = b.specs := by
  obtain ⟨s₀, hstarted, hserve⟩ := h
  rw [Runtime.supervisor_eq] at hstarted hserve
  induction hserve with
  | nil =>
    obtain ⟨_, _, rfl, _, τ', rfl, hloop⟩ := hstarted
    rw [List.flatMap_nil, List.append_nil] at hfresh ⊢
    have hstart : ([] ++ startedIds τ').Nodup := hfresh
    exact (localInv_build b).exec_startEach hlocal hids hloop hstart
  | @snoc hist p turn q _ hturn ih =>
    rw [List.flatMap_append, ← List.append_assoc, startedIds_append] at hfresh ⊢
    simp only [List.flatMap_cons, List.flatMap_nil, List.append_nil] at hfresh ⊢
    obtain ⟨hinv, hspecs⟩ := ih (List.nodup_append.mp hfresh).1
    cases hevent : turn.event with
    | message msg => exact nomatch msg
    | exit exit => exact hinv.exec_handleExit hspecs (hturn.exit hevent) hfresh

/-- **Restart strategies restart exactly their scope.** In a life of a supervisor of local children with distinct ids,
let an `Exit` of the live actor of `child` call for a restart within the intensity. Then

* the children whose handle was replaced are exactly those in scope;
* every other child keeps its handle and its slot;
* a batch strategy starts nothing before every actor in scope was reported to have exited;
* decisions are enabled again and no batch is pending;
* every replaced child is marked alive with the id of its new handle. -/
theorem restart_scope_exact (rt : Runtime) (ctx : Context) (b : SupervisorBuilder)
    (hlocal : ∀ spec ∈ b.specs, spec.isRemote = false) (hids : (b.specs.map (·.id)).Nodup) (τ₀ : SupTrace)
    (hist : List (Serving Supervisor × Turn Empty Empty)) (s : Supervisor)
    (h : (rt.supervisor ctx).Lives b.build τ₀ hist ⟨s, false⟩) (exit : Exit) (now : Instant) (rest : SupTrace)
    (s' : Supervisor) (hx : ((rt.supervisor ctx).exitReceived s exit).Exec (⟨.now, now⟩ :: rest) s')
    (hfresh : (startedIds (τ₀ ++ hist.flatMap (·.2.calls) ++ rest)).Nodup) (p : Nat) (child : SupervisedChild)
    (hr : s.logic.Restarts exit.from.actorId exit.reason now p child) :
    (∀ spec ∈ b.specs, s'.handles spec.id ≠ s.handles spec.id ↔ spec.id ∈ s.logic.restartScope child) ∧
    (∀ (j : Nat) (c : SupervisedChild), s.logic.children[j]? = some c → c.policy.id ∉ s.logic.restartScope child →
      s'.logic.children[j]? = some c ∧ s'.handles c.policy.id = s.handles c.policy.id) ∧
    (s.logic.strategy ≠ .oneForOne → ∃ τ₁ τ₂, rest = τ₁ ++ τ₂ ∧ (∀ call ∈ τ₁, StartsNothing call.op) ∧
      ∀ id ∈ s.logic.restartScope child, ∀ handle, s.handles id = some handle →
        ∃ reason, ∃ call ∈ τ₁, Reports handle reason call) ∧
    s'.logic.suppressRestarts = false ∧ s'.logic.pendingBatchRestart = none ∧
    ∀ c ∈ s'.logic.children, c.policy.id ∈ s.logic.restartScope child →
      ∃ handle, s'.handles c.policy.id = some handle ∧ c.handle = some { id := handle.id, alive := true } := by
  rw [startedIds_append] at hfresh
  obtain ⟨hinv, hspecs⟩ := localInv_lives hlocal hids h (List.nodup_append.mp hfresh).1
  rw [Runtime.supervisor_eq] at hx
  obtain ⟨new, hnew, hstarts, hbatch⟩ := hinv.exec_restart hspecs hr hx
  have hmem := List.mem_of_getElem? hr.child_eq
  refine ⟨fun spec hspec => ?_, fun j c hj hc => ?_, hbatch, hnew.suppress.trans hinv.enabled,
    hnew.pending.trans hinv.pending, fun c hc hin => ?_⟩
  · rw [hnew.handles]
    by_cases hin : spec.id ∈ s.logic.restartScope child
    · -- the old handle was seen before, the new one is fresh
      obtain ⟨c, hc, hcid⟩ := mem_restartScope hmem hin
      obtain ⟨old, alive, hold, hslot⟩ := hinv.agrees.slots c hc
      rw [hcid] at hold
      have hne : new spec.id ≠ old := by
        intro he
        have hfreshid : (new spec.id).id ∈ startedIds rest := by
          rw [hstarts]
          exact List.mem_map_of_mem hin
        refine (List.nodup_append.mp hfresh).2.2 _ (hinv.seen c hc _ hslot) _ hfreshid ?_
        rw [he]
      simp only [hin, if_true, iff_true]
      exact fun he => hne (Option.some.inj (he.trans hold))
    · simp [hin]
  · rw [hnew.children, List.getElem?_map, hj, hnew.handles]
    simp [onIds, hc]
  · rw [hnew.children] at hc
    obtain ⟨c', -, rfl⟩ := List.mem_map.mp hc
    have hpol : (onIds (s.logic.restartScope child) (renewal new) c').policy = c'.policy := by
      unfold onIds
      split_ifs <;> rfl
    rw [hpol] at hin ⊢
    refine ⟨new c'.policy.id, by rw [hnew.handles, if_pos hin], ?_⟩
    rw [onIds, if_pos hin]
    rfl

/-- Two Permanent children under `OneForAll`: actors 2 and 3 in a calm environment. -/
def allBuilder : SupervisorBuilder where
  strategy := .oneForAll
  specs := [{ id := "a", restart := .permanent }, { id := "b", restart := .permanent }]

def allLife : Life Supervisor Empty Empty :=
  (Runtime.supervisor .tasks ⟨⟨"n", 0⟩⟩).life calmAnswers allBuilder.build []

/-- The first of them panics, and both are replaced. -/
theorem restart_scope_exact_pair : ∃ rest s',
    ((Runtime.supervisor .tasks ⟨⟨"n", 0⟩⟩).exitReceived allLife.last.state ⟨⟨"n", 2⟩, .panic "boom"⟩).Exec
      (⟨.now, (0 : Nat)⟩ :: rest) s' ∧
    ∀ spec ∈ allBuilder.specs, s'.handles spec.id ≠ allLife.last.state.handles spec.id ↔ spec.id ∈ ["a", "b"] := by
  have hlives := Callbacks.lives_life (Runtime.supervisor .tasks ⟨⟨"n", 0⟩⟩) calmAnswers allBuilder.build []
  obtain ⟨τ, hτ, hx⟩ := Prog.exec_run calmAnswers
    ((Runtime.supervisor .tasks ⟨⟨"n", 0⟩⟩).exitReceived allLife.last.state ⟨⟨"n", 2⟩, .panic "boom"⟩)
    allLife.startCalls
  obtain rfl : [⟨.now, (0 : Nat)⟩, ⟨.exitReason ⟨2⟩, some .normal⟩, ⟨.exitReason ⟨3⟩, some .normal⟩,
      ⟨.startChild { id := "a", restart := .permanent }, ⟨7⟩⟩,
      ⟨.startChild { id := "b", restart := .permanent }, ⟨8⟩⟩] = τ :=
    List.append_cancel_left (show allLife.startCalls ++ _ = allLife.startCalls ++ τ from hτ)
  refine ⟨_, _, hx, ?_⟩
  exact (restart_scope_exact .tasks ⟨⟨"n", 0⟩⟩ allBuilder (by decide) (by decide) _ _ _ hlives _ _ _ _ hx (by decide) 0
    _ ⟨rfl, rfl, rfl, rfl⟩).1

end Supervisor

end Spawned
