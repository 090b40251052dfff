import Spawned.Supervisor.Address
import Spawned.Supervisor.DynamicStep

/-!
# The tables of a dynamic supervisor

A dynamic supervisor keeps its children in the engine's vector and in six maps, which its methods update one by one.

* `indexed_lives` : in every life, the tables agree between two callbacks on each child that is in the engine;
* `complete_lives` : and every child in the engine has its spec or its spawn record;
* `local_tables_agree` : in a life without remote children, handles, reverse map, specs and engine hold the same
  children, and the handles and the reverse map are inverse to each other.
-/

namespace Spawned

open Lib

namespace DynamicSupervisor

/-! ## What the tables agree on -/

/-- The id occurs in the engine or in a table. -/
def Mentions (s : DynamicSupervisor) (id : String) : Prop :=
  (∃ child ∈ s.logic.children, child.policy.id = id) ∨ s.handles id ≠ none ∨ s.remoteSpawnMeta id ≠ none ∨
    s.specs id ≠ none ∨ ∃ n, s.remoteActorToId n = some id

/-- The tables agree on the current children, and every id was drawn from the counter. -/
structure Indexed (s : DynamicSupervisor) : Prop where
  ids : (s.logic.children.map (·.policy.id)).Nodup
  handle : ∀ id handle, s.handles id = some handle → s.remoteSpawnMeta id = none ∧
    ∀ child ∈ s.logic.children, child.policy.id = id → child.slotId = some handle.id
  actor : ∀ n id, s.actorToId n = some id → ∃ handle, s.handles id = some handle ∧ handle.id = n
  spawned : ∀ id, s.remoteSpawnMeta id ≠ none → s.specs id = none
  remote : ∀ n id, s.remoteActorToId n = some id → s.specs id = none ∧
    ∀ child ∈ s.logic.children, child.policy.id = id → child.slotId = some n
  old : ∀ id, s.Mentions id → ∃ template k, id = instanceId template k ∧ k ≤ s.idCounter

variable {ctx : Context} {s s' : DynamicSupervisor}

theorem indexed_build (b : DynamicSupervisorBuilder) : Indexed b.build := by
  refine ⟨List.nodup_nil, ?_, ?_, ?_, ?_, ?_⟩ <;>
    simp [DynamicSupervisorBuilder.build, SupervisorLogic.new, Mentions]

/-- The next instance id occurs nowhere. -/
theorem Indexed.fresh (h : Indexed s) (template : String) : ¬s.Mentions (instanceId template (s.idCounter + 1)) := by
  intro hm
  obtain ⟨template', k, heq, hk⟩ := h.old _ hm
  have := instanceId_counter heq
  omega

/-- Everything `s'` holds was in `s`, and its children have the policies and slot ids they had. -/
structure Shrinks (s s' : DynamicSupervisor) : Prop where
  children : ∀ child ∈ s'.logic.children, ∃ old ∈ s.logic.children, old.face = child.face
  handles : ∀ id handle, s'.handles id = some handle → s.handles id = some handle
  spawned : ∀ id, s'.remoteSpawnMeta id ≠ none → s.remoteSpawnMeta id ≠ none
  specs : ∀ id, s'.specs id ≠ none → s.specs id ≠ none
  remote : ∀ n id, s'.remoteActorToId n = some id → s.remoteActorToId n = some id
  counter : s.idCounter ≤ s'.idCounter

theorem Shrinks.mentions (hs : Shrinks s s') {id : String} (hm : s'.Mentions id) : s.Mentions id := by
  rcases hm with ⟨child, hchild, hid⟩ | hh | hm | hsp | ⟨n, hn⟩
  · obtain ⟨old, hold, hface⟩ := hs.children child hchild
    obtain ⟨hpol, -⟩ := Prod.mk.inj hface
    exact Or.inl ⟨old, hold, by rw [hpol, hid]⟩
  · obtain ⟨handle, hh⟩ := Option.ne_none_iff_exists'.mp hh
    refine Or.inr (Or.inl ?_)
    rw [hs.handles id handle hh]
    simp
  · exact Or.inr (Or.inr (Or.inl (hs.spawned id hm)))
  · exact Or.inr (Or.inr (Or.inr (Or.inl (hs.specs id hsp))))
  · exact Or.inr (Or.inr (Or.inr (Or.inr ⟨n, hs.remote n id hn⟩)))

theorem Indexed.of_shrinks (h : Indexed s) (hs : Shrinks s s') (hids : (s'.logic.children.map (·.policy.id)).Nodup)
    (hactor : ∀ n id, s'.actorToId n = some id → ∃ handle, s'.handles id = some handle ∧ handle.id = n) :
    Indexed s' := by
  have hspecs : ∀ id, s.specs id = none → s'.specs id = none := fun id hn => by
    by_contra hne
    exact hs.specs id hne hn
  refine ⟨hids, fun id handle hh => ?_, hactor, fun id hm => hspecs id (h.spawned id (hs.spawned id hm)),
    fun n id hn => ?_, fun id hm => ?_⟩
  · obtain ⟨hmeta, hslot⟩ := h.handle id handle (hs.handles id handle hh)
    refine ⟨by by_contra hne; exact hs.spawned id hne hmeta, fun child hchild hid => ?_⟩
    obtain ⟨old, hold, hface⟩ := hs.children child hchild
    obtain ⟨hpol, hsl⟩ := Prod.mk.inj hface
    rw [← hsl]
    exact hslot old hold (by rw [hpol, hid])
  · obtain ⟨hspec, hslot⟩ := h.remote n id (hs.remote n id hn)
    refine ⟨hspecs id hspec, fun child hchild hid => ?_⟩
    obtain ⟨old, hold, hface⟩ := hs.children child hchild
    obtain ⟨hpol, hsl⟩ := Prod.mk.inj hface
    rw [← hsl]
    exact hslot old hold (by rw [hpol, hid])
  · obtain ⟨template, k, heq, hk⟩ := h.old id (hs.mentions hm)
    exact ⟨template, k, heq, hk.trans hs.counter⟩

/-! ## What they keep -/

theorem shrinks_withLogic {l : SupervisorLogic} (hf : l.children.map (·.face) = s.logic.children.map (·.face)) :
    Shrinks s (s.withLogic l) := by
  refine ⟨fun child hchild => ?_, fun _ _ hh => hh, fun _ hm => hm, fun _ hm => hm, fun _ _ hn => hn, le_rfl⟩
  have hface : child.face ∈ s.logic.children.map (·.face) := by
    rw [← hf]
    exact List.mem_map_of_mem hchild
  exact List.mem_map.mp hface

theorem ids_of_faces {l l' : SupervisorLogic} (hf : l'.children.map (·.face) = l.children.map (·.face)) :
    allChildIds l'.children = allChildIds l.children := by
  have hids := congrArg (List.map fun face : ChildPolicy × Option ActorId => face.1.id) hf
  rw [List.map_map, List.map_map] at hids
  exact hids

/-- Marks, counters and timestamps of the engine. -/
theorem Indexed.withLogic (h : Indexed s) {l : SupervisorLogic}
    (hf : l.children.map (·.face) = s.logic.children.map (·.face)) : Indexed (s.withLogic l) := by
  refine h.of_shrinks (shrinks_withLogic hf) ?_ h.actor
  show (allChildIds l.children).Nodup
  rw [ids_of_faces hf]
  exact h.ids

/-- Fewer children. -/
theorem Indexed.removed (h : Indexed s) (childId : String) : Indexed (s.withLogic (s.logic.removeChildById childId)) := by
  refine h.of_shrinks ⟨fun child hchild => ⟨child, List.eraseP_subset hchild, rfl⟩, fun _ _ hh => hh, fun _ hm => hm,
    fun _ hm => hm, fun _ _ hn => hn, le_rfl⟩ ?_ h.actor
  exact h.ids.sublist (List.eraseP_sublist.map _)

theorem shrinks_cleaned (s : DynamicSupervisor) (childId : String) : Shrinks s (s.cleaned childId) := by
  refine ⟨fun child hchild => ⟨child, List.eraseP_subset hchild, rfl⟩, fun id handle hh => ?_,
    fun id hm => (Table.remove_ne_none.mp hm).1, fun id hm => (Table.remove_ne_none.mp hm).1, fun _ _ hn => hn, le_rfl⟩
  rw [cleaned_handles, Table.remove_apply] at hh
  split_ifs at hh
  exact hh

theorem Indexed.cleaned (h : Indexed s) (childId : String) : Indexed (s.cleaned childId) := by
  refine h.of_shrinks (shrinks_cleaned s childId) (h.ids.sublist (List.eraseP_sublist.map _)) fun n id hn => ?_
  have hold : s.actorToId n = some id ∧ ∀ handle, s.handles childId = some handle → n ≠ handle.id := by
    rw [cleaned_actorToId] at hn
    cases hh : s.handles childId with
    | none =>
      rw [hh] at hn
      exact ⟨hn, fun handle he => by cases he⟩
    | some handle =>
      rw [hh] at hn
      simp only [Table.remove_apply] at hn
      split_ifs at hn with hne
      refine ⟨hn, fun handle' he => ?_⟩
      cases he
      exact hne
  obtain ⟨handle, hh, hid⟩ := h.actor n id hold.1
  have hne : id ≠ childId := by
    rintro rfl
    exact hold.2 handle hh hid.symm
  exact ⟨handle, by rw [cleaned_handles, Table.remove_ne _ hne, hh], hid⟩

/-- A new child under an id that occurs nowhere. -/
theorem Indexed.ids_register (h : Indexed s) {policy : ChildPolicy} (slot : ChildHandleSlot)
    (hfresh : ¬s.Mentions policy.id) : ((s.logic.registerChild policy slot).children.map (·.policy.id)).Nodup := by
  rw [SupervisorLogic.registerChild, List.map_append, List.nodup_append]
  refine ⟨h.ids, List.nodup_singleton _, fun a ha b hb hab => ?_⟩
  obtain ⟨child, hchild, rfl⟩ := List.mem_map.mp ha
  obtain rfl : b = policy.id := by simpa using hb
  exact hfresh (Or.inl ⟨child, hchild, hab⟩)

theorem mem_register {l : SupervisorLogic} {policy : ChildPolicy} {slot : ChildHandleSlot} {child : SupervisedChild}
    (h : child ∈ (l.registerChild policy slot).children) :
    child ∈ l.children ∨ child = { policy, handle := some slot } := by
  simpa [SupervisorLogic.registerChild] using h

/-- A new child is all that a start makes the tables mention. -/
theorem mentions_localAdded {childId id : String} {spec : ChildSpec} {handle : ChildHandle}
    (hm : (s.localAdded childId spec handle).Mentions id) : s.Mentions id ∨ id = childId := by
  by_cases hid : id = childId
  · exact Or.inr hid
  · refine Or.inl ?_
    rcases hm with ⟨child, hchild, hcid⟩ | hh | hm | hsp | hn
    · rcases mem_register hchild with hchild | rfl
      · exact Or.inl ⟨child, hchild, hcid⟩
      · exact absurd hcid.symm hid
    · rw [localAdded_handles, Table.insert_ne _ _ hid] at hh
      exact Or.inr (Or.inl hh)
    · exact Or.inr (Or.inr (Or.inl hm))
    · rw [localAdded_specs, Table.insert_ne _ _ hid] at hsp
      exact Or.inr (Or.inr (Or.inr (Or.inl hsp)))
    · exact Or.inr (Or.inr (Or.inr (Or.inr hn)))

theorem mentions_remoteAdded {childId id : String} {address parent : ActorAddress} {spawned : RemoteSpawnMeta}
    (hm : (s.remoteAdded childId address parent spawned).Mentions id) : s.Mentions id ∨ id = childId := by
  by_cases hid : id = childId
  · exact Or.inr hid
  · refine Or.inl ?_
    rcases hm with ⟨child, hchild, hcid⟩ | hh | hm | hsp | ⟨n, hn⟩
    · rcases mem_register hchild with hchild | rfl
      · exact Or.inl ⟨child, hchild, hcid⟩
      · exact absurd hcid.symm hid
    · exact Or.inr (Or.inl hh)
    · rw [remoteAdded_remoteSpawnMeta, Table.insert_ne _ _ hid] at hm
      exact Or.inr (Or.inr (Or.inl hm))
    · exact Or.inr (Or.inr (Or.inr (Or.inl hsp)))
    · rw [remoteAdded_remoteActorToId, Table.insert_apply] at hn
      split_ifs at hn with hna
      · exact absurd (Option.some.inj hn).symm hid
      · exact Or.inr (Or.inr (Or.inr (Or.inr ⟨n, hn⟩)))

theorem Indexed.localAdded (h : Indexed s) {childId : String} (spec : ChildSpec) (handle : ChildHandle)
    (hfresh : ¬s.Mentions childId) (hold : ∃ template k, childId = instanceId template k ∧ k ≤ s.idCounter) :
    Indexed (s.localAdded childId spec handle) := by
  have hmeta : s.remoteSpawnMeta childId = none := by
    by_contra hne
    exact hfresh (Or.inr (Or.inr (Or.inl hne)))
  have hother : ∀ {id : String}, s.Mentions id → id ≠ childId := fun hm he => hfresh (he ▸ hm)
  refine ⟨h.ids_register _ hfresh, fun id handle' hh => ?_, fun n id hn => ?_, fun id hm => ?_, fun n id hn => ?_,
    fun id hm => ?_⟩
  · by_cases hid : id = childId
    · subst hid
      obtain rfl : handle = handle' := by simpa using hh
      refine ⟨hmeta, fun child hchild hcid => ?_⟩
      rcases mem_register hchild with hchild | rfl
      · exact absurd (Or.inl ⟨child, hchild, hcid⟩) hfresh
      · rfl
    · rw [localAdded_handles, Table.insert_ne _ _ hid] at hh
      obtain ⟨hm, hslot⟩ := h.handle id handle' hh
      refine ⟨hm, fun child hchild hcid => ?_⟩
      rcases mem_register hchild with hchild | rfl
      · exact hslot child hchild hcid
      · exact absurd hcid.symm hid
  · rw [localAdded_actorToId, Table.insert_apply] at hn
    split_ifs at hn with hnh
    · cases hn
      exact ⟨handle, by simp, hnh.symm⟩
    · obtain ⟨handle', hh, hid⟩ := h.actor n id hn
      have hne : id ≠ childId := hother (Or.inr (Or.inl (by simp [hh])))
      exact ⟨handle', by rw [localAdded_handles, Table.insert_ne _ _ hne, hh], hid⟩
  · have hm' : s.remoteSpawnMeta id ≠ none := hm
    have hne : id ≠ childId := hother (Or.inr (Or.inr (Or.inl hm')))
    rw [localAdded_specs, Table.insert_ne _ _ hne]
    exact h.spawned id hm'
  · have hne : id ≠ childId := hother (Or.inr (Or.inr (Or.inr (Or.inr ⟨n, hn⟩))))
    obtain ⟨hspec, hslot⟩ := h.remote n id hn
    refine ⟨by rw [localAdded_specs, Table.insert_ne _ _ hne, hspec], fun child hchild hcid => ?_⟩
    rcases mem_register hchild with hchild | rfl
    · exact hslot child hchild hcid
    · exact absurd hcid.symm hne
  · rcases mentions_localAdded hm with hm | rfl
    · exact h.old id hm
    · exact hold

theorem Indexed.remoteAdded (h : Indexed s) {childId : String} (address parent : ActorAddress)
    (spawned : RemoteSpawnMeta) (hfresh : ¬s.Mentions childId)
    (hold : ∃ template k, childId = instanceId template k ∧ k ≤ s.idCounter) :
    Indexed (s.remoteAdded childId address parent spawned) := by
  have hspecs : s.specs childId = none := by
    by_contra hne
    exact hfresh (Or.inr (Or.inr (Or.inr (Or.inl hne))))
  have hother : ∀ {id : String}, s.Mentions id → id ≠ childId := fun hm he => hfresh (he ▸ hm)
  refine ⟨h.ids_register _ hfresh, fun id handle hh => ?_, h.actor, fun id hm => ?_, fun n id hn => ?_,
    fun id hm => ?_⟩
  · have hh' : s.handles id = some handle := hh
    have hne : id ≠ childId := hother (Or.inr (Or.inl (by simp [hh'])))
    obtain ⟨hm, hslot⟩ := h.handle id handle hh'
    refine ⟨by rw [remoteAdded_remoteSpawnMeta, Table.insert_ne _ _ hne, hm], fun child hchild hcid => ?_⟩
    rcases mem_register hchild with hchild | rfl
    · exact hslot child hchild hcid
    · exact absurd hcid.symm hne
  · by_cases hid : id = childId
    · exact hid ▸ hspecs
    · rw [remoteAdded_remoteSpawnMeta, Table.insert_ne _ _ hid] at hm
      exact h.spawned id hm
  · rw [remoteAdded_remoteActorToId, Table.insert_apply] at hn
    split_ifs at hn with hna
    · cases hn
      refine ⟨hspecs, fun child hchild hcid => ?_⟩
      rcases mem_register hchild with hchild | rfl
      · exact absurd (Or.inl ⟨child, hchild, hcid⟩) hfresh
      · rw [hna]
        rfl
    · have hne : id ≠ childId := hother (Or.inr (Or.inr (Or.inr (Or.inr ⟨n, hn⟩))))
      obtain ⟨hspec, hslot⟩ := h.remote n id hn
      refine ⟨hspec, fun child hchild hcid => ?_⟩
      rcases mem_register hchild with hchild | rfl
      · exact hslot child hchild hcid
      · exact absurd hcid.symm hne
  · rcases mentions_remoteAdded hm with hm | rfl
    · exact h.old id hm
    · exact hold

/-- The child a restart leaves under its id has the new slot; the others are as they were. -/
theorem Indexed.mem_replaced (h : Indexed s) {childId : String} {slot : ChildHandleSlot} {child : SupervisedChild}
    (hchild : child ∈ (s.logic.replaceChildHandle childId slot).children) :
    (child.policy.id = childId ∧ child.slotId = some slot.id ∧ ∃ old ∈ s.logic.children, old.policy.id = childId) ∨
      (child.policy.id ≠ childId ∧ child ∈ s.logic.children) := by
  rw [Supervisor.replaceChildHandle_children h.ids] at hchild
  obtain ⟨old, hold, rfl⟩ := List.mem_map.mp hchild
  by_cases hid : old.policy.id = childId
  · rw [if_pos hid]
    exact Or.inl ⟨hid, rfl, old, hold, hid⟩
  · rw [if_neg hid]
    exact Or.inr ⟨hid, hold⟩

theorem Indexed.ids_replaced (h : Indexed s) (childId : String) (slot : ChildHandleSlot) :
    ((s.logic.replaceChildHandle childId slot).children.map (·.policy.id)).Nodup := by
  have hids := congrArg (List.map (·.id)) (SupervisorLogic.replaceChildHandle_policies s.logic childId slot)
  rw [List.map_map, List.map_map] at hids
  have hids' : (s.logic.replaceChildHandle childId slot).children.map (·.policy.id) =
      s.logic.children.map (·.policy.id) := hids
  rw [hids']
  exact h.ids

/-- A restart makes the tables mention nobody new. -/
theorem Indexed.mentions_localRestarted (h : Indexed s) {childId id : String} {spec : ChildSpec} {handle : ChildHandle}
    (hspec : s.specs childId = some spec) (hm : (s.localRestarted childId handle).Mentions id) : s.Mentions id := by
  by_cases hid : id = childId
  · exact Or.inr (Or.inr (Or.inr (Or.inl (by rw [hid, hspec]; simp))))
  · rcases hm with ⟨child, hchild, hcid⟩ | hh | hm | hsp | hn
    · rcases h.mem_replaced hchild with ⟨heq, -, -⟩ | ⟨-, hold⟩
      · exact absurd (hcid.symm.trans heq) hid
      · exact Or.inl ⟨child, hold, hcid⟩
    · rw [localRestarted_handles, Table.insert_ne _ _ hid] at hh
      exact Or.inr (Or.inl hh)
    · exact Or.inr (Or.inr (Or.inl hm))
    · exact Or.inr (Or.inr (Or.inr (Or.inl hsp)))
    · exact Or.inr (Or.inr (Or.inr (Or.inr hn)))

theorem Indexed.mentions_remoteRestarted (h : Indexed s) {childId id : String} {address parent : ActorAddress}
    (hmeta : s.remoteSpawnMeta childId ≠ none) (hm : (s.remoteRestarted childId address parent).Mentions id) :
    s.Mentions id := by
  by_cases hid : id = childId
  · exact Or.inr (Or.inr (Or.inl (hid ▸ hmeta)))
  · rcases hm with ⟨child, hchild, hcid⟩ | hh | hm | hsp | ⟨n, hn⟩
    · rcases h.mem_replaced hchild with ⟨heq, -, -⟩ | ⟨-, hold⟩
      · exact absurd (hcid.symm.trans heq) hid
      · exact Or.inl ⟨child, hold, hcid⟩
    · exact Or.inr (Or.inl hh)
    · exact Or.inr (Or.inr (Or.inl hm))
    · exact Or.inr (Or.inr (Or.inr (Or.inl hsp)))
    · rw [remoteRestarted_remoteActorToId, Table.insert_apply] at hn
      split_ifs at hn with hna
      · exact absurd (Option.some.inj hn).symm hid
      · exact Or.inr (Or.inr (Or.inr (Or.inr ⟨n, hn⟩)))

theorem Indexed.localRestarted (h : Indexed s) {childId : String} {spec : ChildSpec} (handle : ChildHandle)
    (hmeta : s.remoteSpawnMeta childId = none) (hspec : s.specs childId = some spec) :
    Indexed (s.localRestarted childId handle) := by
  refine ⟨h.ids_replaced _ _, fun id handle' hh => ?_, fun n id hn => ?_, h.spawned, fun n id hn => ?_, fun id hm => ?_⟩
  · by_cases hid : id = childId
    · subst hid
      obtain rfl : handle = handle' := by simpa using hh
      refine ⟨hmeta, fun child hchild hcid => ?_⟩
      rcases h.mem_replaced hchild with ⟨-, hslot, -⟩ | ⟨hne, -⟩
      · exact hslot
      · exact absurd hcid hne
    · rw [localRestarted_handles, Table.insert_ne _ _ hid] at hh
      obtain ⟨hm, hslot⟩ := h.handle id handle' hh
      refine ⟨hm, fun child hchild hcid => ?_⟩
      rcases h.mem_replaced hchild with ⟨heq, -, -⟩ | ⟨-, hold⟩
      · exact absurd (hcid.symm.trans heq) hid
      · exact hslot child hold hcid
  · rw [localRestarted_actorToId, Table.insert_apply] at hn
    split_ifs at hn with hnh
    · cases hn
      exact ⟨handle, by simp, hnh.symm⟩
    · have hold : s.actorToId n = some id ∧ ∀ old, s.handles childId = some old → n ≠ old.id := by
        cases hh : s.handles childId with
        | none =>
          rw [hh] at hn
          exact ⟨hn, fun old he => by cases he⟩
        | some old =>
          rw [hh] at hn
          simp only [Table.remove_apply] at hn
          split_ifs at hn with hne
          refine ⟨hn, fun old' he => ?_⟩
          cases he
          exact hne
      obtain ⟨handle', hh, hid⟩ := h.actor n id hold.1
      have hne : id ≠ childId := by
        rintro rfl
        exact hold.2 handle' hh hid.symm
      exact ⟨handle', by rw [localRestarted_handles, Table.insert_ne _ _ hne, hh], hid⟩
  · obtain ⟨hsp, hslot⟩ := h.remote n id hn
    have hne : id ≠ childId := by
      rintro rfl
      rw [hspec] at hsp
      cases hsp
    refine ⟨hsp, fun child hchild hcid => ?_⟩
    rcases h.mem_replaced hchild with ⟨heq, -, -⟩ | ⟨-, hold⟩
    · exact absurd (hcid.symm.trans heq) hne
    · exact hslot child hold hcid
  · exact h.old id (h.mentions_localRestarted hspec hm)

theorem forgotten_reverse {childId id : String} {n : ActorId} :
    (s.remoteForgotten childId).remoteActorToId n = some id ↔ s.remoteActorToId n = some id ∧ id ≠ childId := by
  rw [remoteForgotten_remoteActorToId, Table.retain_eq_some, bne_iff_ne]

theorem shrinks_remoteForgotten (s : DynamicSupervisor) (childId : String) : Shrinks s (s.remoteForgotten childId) :=
  ⟨fun child hchild => ⟨child, hchild, rfl⟩, fun _ _ hh => hh, fun _ hm => hm, fun _ hm => hm,
    fun _ _ hn => (forgotten_reverse.mp hn).1, le_rfl⟩

theorem Indexed.remoteForgotten (h : Indexed s) (childId : String) : Indexed (s.remoteForgotten childId) :=
  h.of_shrinks (shrinks_remoteForgotten s childId) h.ids h.actor

theorem Indexed.remoteRestarted (h : Indexed s) {childId : String} (address parent : ActorAddress)
    (hmeta : s.remoteSpawnMeta childId ≠ none) (hnone : ∀ n, s.remoteActorToId n ≠ some childId) :
    Indexed (s.remoteRestarted childId address parent) := by
  refine ⟨h.ids_replaced _ _, fun id handle hh => ?_, h.actor, h.spawned, fun n id hn => ?_, fun id hm => ?_⟩
  · obtain ⟨hm, hslot⟩ := h.handle id handle hh
    have hne : id ≠ childId := fun he => hmeta (he ▸ hm)
    refine ⟨hm, fun child hchild hcid => ?_⟩
    rcases h.mem_replaced hchild with ⟨heq, -, -⟩ | ⟨-, hold⟩
    · exact absurd (hcid.symm.trans heq) hne
    · exact hslot child hold hcid
  · rw [remoteRestarted_remoteActorToId, Table.insert_apply] at hn
    split_ifs at hn with hna
    · cases hn
      refine ⟨h.spawned _ hmeta, fun child hchild hcid => ?_⟩
      rcases h.mem_replaced hchild with ⟨-, hslot, -⟩ | ⟨hne, -⟩
      · rw [hna]
        exact hslot
      · exact absurd hcid hne
    · obtain ⟨hsp, hslot⟩ := h.remote n id hn
      have hne : id ≠ childId := fun he => hnone n (he ▸ hn)
      refine ⟨hsp, fun child hchild hcid => ?_⟩
      rcases h.mem_replaced hchild with ⟨heq, -, -⟩ | ⟨-, hold⟩
      · exact absurd (hcid.symm.trans heq) hne
      · exact hslot child hold hcid
  · exact h.old id (h.mentions_remoteRestarted hmeta hm)

theorem shrinks_drawn (s : DynamicSupervisor) : Shrinks s s.drawn :=
  ⟨fun child hchild => ⟨child, hchild, rfl⟩, fun _ _ hh => hh, fun _ hm => hm, fun _ hm => hm, fun _ _ hn => hn,
    Nat.le_succ _⟩

theorem Indexed.drawn (h : Indexed s) : Indexed s.drawn := h.of_shrinks (shrinks_drawn s) h.ids h.actor

/-- Names are not indexed. -/
theorem Indexed.named (h : Indexed s) (name childId : String) : Indexed (s.named name childId) :=
  ⟨h.ids, h.handle, h.actor, h.spawned, h.remote, h.old⟩

theorem Indexed.remoteTaken (h : Indexed s) (childId : String) : Indexed (s.remoteTaken childId) :=
  ⟨h.ids, h.handle, h.actor, h.spawned, h.remote, h.old⟩

theorem shrinks_remoteReleased (s : DynamicSupervisor) (actorId : ActorId) (childId : String) :
    Shrinks s (s.remoteReleased actorId childId) := by
  refine ⟨fun child hchild => ⟨child, List.eraseP_subset hchild, rfl⟩, fun _ _ hh => hh,
    fun id hm => (Table.remove_ne_none.mp hm).1, fun _ hm => hm, fun n id hn => ?_, le_rfl⟩
  rw [remoteReleased_remoteActorToId, Table.remove_apply] at hn
  split_ifs at hn
  exact hn

theorem Indexed.remoteReleased (h : Indexed s) (actorId : ActorId) (childId : String) :
    Indexed (s.remoteReleased actorId childId) :=
  h.of_shrinks (shrinks_remoteReleased s actorId childId) (h.ids.sublist (List.eraseP_sublist.map _)) h.actor

theorem shrinks_delayed (s : DynamicSupervisor) (childId : String) : Shrinks s (s.delayed childId) :=
  shrinks_withLogic (by rw [SupervisorLogic.backoffDelay_children])

theorem Indexed.delayed (h : Indexed s) (childId : String) : Indexed (s.delayed childId) :=
  h.withLogic (by rw [SupervisorLogic.backoffDelay_children])

/-- The engine forgot the child before the wait for its exit, and the rest after it. -/
theorem Indexed.removed_cleaned (h : Indexed s) (childId : String) :
    (s.withLogic (s.logic.removeChildById childId)).cleaned childId = s.cleaned childId := by
  have hgone : (s.logic.removeChildById childId).removeChildById childId = s.logic.removeChildById childId := by
    have hids := h.removed childId
    have htwice := SupervisorLogic.removeChildById_children hids.ids childId
    have honce := SupervisorLogic.removeChildById_children h.ids childId
    rw [withLogic_logic, honce, List.filter_filter] at htwice
    simp only [Bool.and_self] at htwice
    have hchildren : ((s.logic.removeChildById childId).removeChildById childId).children =
        (s.logic.removeChildById childId).children := htwice.trans honce.symm
    show ({ s.logic.removeChildById childId with
      children := ((s.logic.removeChildById childId).removeChildById childId).children } : SupervisorLogic) = _
    rw [hchildren]
  show ({ (s.withLogic (s.logic.removeChildById childId)).cleaned childId with
    logic := (s.logic.removeChildById childId).removeChildById childId } : DynamicSupervisor) = s.cleaned childId
  rw [hgone]
  rfl

/-- The child found by a bare id holds it. -/
theorem childIdByActorAny_some {l : SupervisorLogic} {n : ActorId} {childId : String}
    (h : l.childIdByActorAny n = some childId) :
    ∃ child ∈ l.children, child.policy.id = childId ∧ child.slotId = some n := by
  obtain ⟨child, hfind, rfl⟩ := Option.map_eq_some_iff.mp h
  refine ⟨child, List.mem_of_find?_eq_some hfind, rfl, ?_⟩
  have hactor := List.find?_some hfind
  unfold SupervisedChild.hasActor at hactor
  cases hh : child.handle with
  | none => simp [hh] at hactor
  | some slot =>
    rw [hh] at hactor
    have hid : slot.id = n := by simpa using hactor
    rw [SupervisedChild.slotId, hh, ← hid]
    rfl

theorem nameOf_lookup {childId name : String} (h : s.nameOf childId = some name) :
    s.regNames.lookup name = some childId := by
  obtain ⟨entry, hfind, rfl⟩ := Option.map_eq_some_iff.mp h
  have hmem := List.mem_of_find?_eq_some hfind
  have hid : entry.2 = childId := by simpa using List.find?_some hfind
  refine (AList.mem_lookup_iff).mpr ?_
  rw [← hid]
  exact hmem

/-- The engine's decision marks children and counts, and moves none. -/
theorem faces_of_decides {l l' : SupervisorLogic} {actorId : ActorId} {reason : ExitReason} {now : Instant}
    {action : SupervisorAction} (h : l.Decides actorId reason now action l') :
    l'.children.map (·.face) = l.children.map (·.face) := by
  have hmark := SupervisorLogic.markChildDead_faces l actorId
  cases h with
  | suppressed | unknown => rfl
  | _ => exact hmark

/-- **Every step keeps the tables indexed.** -/
theorem Indexed.step {event : Event DynMsg} {reply : Option DynReply} {effs : List Effect} (h : Indexed s)
    (hstep : DynStep ctx s event reply effs s') : Indexed s' := by
  have hadded : ∀ (spec : ChildSpec) (handle : ChildHandle),
      Indexed (s.drawn.localAdded (s.nextId spec.id) spec handle) := fun spec handle =>
    h.drawn.localAdded spec handle (h.fresh spec.id) ⟨spec.id, _, rfl, le_rfl⟩
  cases hstep with
  | idle => exact h
  | drawn => exact h.drawn
  | added => exact hadded _ _
  | named => exact (hadded _ _).named _ _
  | unnamed => exact (hadded _ _).cleaned _
  | spawned => exact h.drawn.remoteAdded _ _ _ (h.fresh "remote") ⟨"remote", _, rfl, le_rfl⟩
  | terminated => exact (h.removed _).cleaned _
  | released => exact (h.remoteTaken _).remoteReleased _ _
  | stuck => exact h.remoteTaken _
  | ignored hd => exact h.withLogic (faces_of_decides hd)
  | removed hd => exact (h.withLogic (faces_of_decides hd)).cleaned _
  | stopped hd => exact h.withLogic (faces_of_decides hd)
  | restarted hd hmeta hspec =>
    exact ((h.withLogic (faces_of_decides hd)).delayed _).localRestarted _ hmeta hspec
  | respawned hd hmeta =>
    exact (((h.withLogic (faces_of_decides hd)).delayed _).remoteForgotten _).remoteRestarted _ _ hmeta
      fun n hn => (forgotten_reverse.mp hn).2 rfl
  | lost hd => exact (((h.withLogic (faces_of_decides hd)).delayed _).remoteForgotten _).cleaned _
  | orphaned hd => exact (h.withLogic (faces_of_decides hd)).delayed _

theorem started_state {rt : Runtime} {b : DynamicSupervisorBuilder} {τ₀ : SupTrace}
    (h : ((rt.dynamicSupervisor ctx).started b.build).Exec τ₀ s) : s = b.build := by
  rw [Runtime.dynamicSupervisor_eq] at h
  obtain ⟨_, _, -, _, _, -, -, rfl⟩ := h
  rfl

/-- What the steps keep holds in every life. -/
theorem lives_inv {rt : Runtime} {b : DynamicSupervisorBuilder} {τ₀ : SupTrace}
    {hist : List (Serving DynamicSupervisor × Turn DynMsg DynReply)} {p : Serving DynamicSupervisor}
    {I : Serving DynamicSupervisor → Prop} (h : (rt.dynamicSupervisor ctx).Lives b.build τ₀ hist p)
    (h₀ : I ⟨b.build, false⟩)
    (hs : ∀ p turn q, I p → (rt.dynamicSupervisor ctx).Handles p turn q → I q) : I p := by
  obtain ⟨s₀, hstarted, hserve⟩ := h
  obtain rfl := started_state hstarted
  exact hserve.inv h₀ hs

theorem indexed_lives {rt : Runtime} {b : DynamicSupervisorBuilder} {τ₀ : SupTrace}
    {hist : List (Serving DynamicSupervisor × Turn DynMsg DynReply)} {p : Serving DynamicSupervisor}
    (h : (rt.dynamicSupervisor ctx).Lives b.build τ₀ hist p) : Indexed p.state :=
  lives_inv (I := fun p => Indexed p.state) h (indexed_build b)
    fun _ _ _ hi hturn => hi.step (dynStep_of_handles hturn).1

/-- **Nobody is mentioned again.** What the tables mention after a step they mentioned before, or it is the next id. -/
theorem Indexed.mentions_step {event : Event DynMsg} {reply : Option DynReply} {effs : List Effect} (h : Indexed s)
    (hstep : DynStep ctx s event reply effs s') {id : String} (hm : s'.Mentions id) :
    s.Mentions id ∨ ∃ template, id = s.nextId template := by
  have hadded : ∀ {spec : ChildSpec} {handle : ChildHandle},
      (s.drawn.localAdded (s.nextId spec.id) spec handle).Mentions id →
        s.Mentions id ∨ ∃ template, id = s.nextId template :=
    fun hm => (mentions_localAdded hm).imp (shrinks_drawn s).mentions fun he => ⟨_, he⟩
  have hmarked : ∀ {l : SupervisorLogic} {childId : String}, l.children.map (·.face) = s.logic.children.map (·.face) →
      ((s.withLogic l).delayed childId).Mentions id → s.Mentions id :=
    fun hf hm => (shrinks_withLogic hf).mentions ((shrinks_delayed _ _).mentions hm)
  cases hstep with
  | idle => exact Or.inl hm
  | drawn => exact Or.inl ((shrinks_drawn s).mentions hm)
  | added | named => exact hadded hm
  | unnamed => exact hadded ((shrinks_cleaned _ _).mentions hm)
  | spawned => exact (mentions_remoteAdded hm).imp (shrinks_drawn s).mentions fun he => ⟨_, he⟩
  | terminated =>
    rw [h.removed_cleaned] at hm
    exact Or.inl ((shrinks_cleaned _ _).mentions hm)
  | released => exact Or.inl ((shrinks_remoteReleased _ _ _).mentions hm)
  | stuck => exact Or.inl hm
  | ignored hd | stopped hd => exact Or.inl ((shrinks_withLogic (faces_of_decides hd)).mentions hm)
  | removed hd =>
    exact Or.inl ((shrinks_withLogic (faces_of_decides hd)).mentions ((shrinks_cleaned _ _).mentions hm))
  | restarted hd hmeta hspec =>
    have hi := (h.withLogic (faces_of_decides hd)).delayed
    exact Or.inl (hmarked (faces_of_decides hd) ((hi _).mentions_localRestarted hspec hm))
  | @respawned _ _ _ childId _ hd hmeta =>
    have hi := ((h.withLogic (faces_of_decides hd)).delayed childId).remoteForgotten childId
    exact Or.inl (hmarked (faces_of_decides hd)
      ((shrinks_remoteForgotten _ _).mentions (hi.mentions_remoteRestarted hmeta hm)))
  | lost hd =>
    exact Or.inl (hmarked (faces_of_decides hd)
      ((shrinks_remoteForgotten _ _).mentions ((shrinks_cleaned _ _).mentions hm)))
  | orphaned hd => exact Or.inl (hmarked (faces_of_decides hd) hm)

theorem counter_step {event : Event DynMsg} {reply : Option DynReply} {effs : List Effect}
    (hstep : DynStep ctx s event reply effs s') : s.idCounter ≤ s'.idCounter := by
  cases hstep with
  | drawn | added | named | unnamed | spawned => exact Nat.le_succ _
  | _ => exact le_rfl

/-! ## The tables miss nobody -/

/-- A child is registered in the engine exactly when the tables of its kind hold it. -/
structure Complete (s : DynamicSupervisor) : Prop where
  specs : ∀ id, s.specs id ≠ none ↔ s.handles id ≠ none
  children : ∀ id, id ∈ allChildIds s.logic.children ↔ s.handles id ≠ none ∨ s.remoteSpawnMeta id ≠ none

theorem complete_build (b : DynamicSupervisorBuilder) : Complete b.build := by
  constructor <;> simp [DynamicSupervisorBuilder.build, SupervisorLogic.new, allChildIds]

theorem mem_ids_removed (h : Indexed s) {id childId : String} :
    id ∈ allChildIds (s.logic.removeChildById childId).children ↔ id ∈ allChildIds s.logic.children ∧ id ≠ childId := by
  rw [allChildIds, allChildIds, SupervisorLogic.removeChildById_children h.ids]
  simp only [List.mem_map, List.mem_filter]
  constructor
  · rintro ⟨child, ⟨hchild, hne⟩, rfl⟩
    exact ⟨⟨child, hchild, rfl⟩, by simpa using hne⟩
  · rintro ⟨⟨child, hchild, rfl⟩, hne⟩
    exact ⟨child, ⟨hchild, by simpa using hne⟩, rfl⟩

theorem Complete.withLogic (h : Complete s) {l : SupervisorLogic}
    (hids : allChildIds l.children = allChildIds s.logic.children) : Complete (s.withLogic l) :=
  ⟨h.specs, fun id => by rw [withLogic_logic, hids]; exact h.children id⟩

theorem Complete.cleaned (h : Complete s) (hi : Indexed s) (childId : String) : Complete (s.cleaned childId) := by
  constructor
  · intro id
    simp only [cleaned_specs, cleaned_handles, Table.remove_apply]
    split_ifs
    · simp
    · exact h.specs id
  · intro id
    simp only [cleaned_logic, cleaned_handles, cleaned_remoteSpawnMeta, mem_ids_removed hi, Table.remove_apply]
    split_ifs with hid
    · simp [hid]
    · simp [hid, h.children id]

theorem Complete.localAdded (h : Complete s) (childId : String) (spec : ChildSpec) (handle : ChildHandle) :
    Complete (s.localAdded childId spec handle) := by
  constructor
  · intro id
    simp only [localAdded_specs, localAdded_handles, Table.insert_apply]
    split_ifs
    · simp
    · exact h.specs id
  · intro id
    have hold := h.children id
    simp only [allChildIds] at hold
    simp only [localAdded_logic, localAdded_handles, localAdded_remoteSpawnMeta, SupervisorLogic.registerChild,
      allChildIds, List.map_append, List.mem_append, List.map_singleton, List.mem_singleton, Table.insert_apply, hold]
    split_ifs with hid <;> simp [hid]

theorem Complete.remoteAdded (h : Complete s) (childId : String) (address parent : ActorAddress)
    (spawned : RemoteSpawnMeta) : Complete (s.remoteAdded childId address parent spawned) := by
  refine ⟨h.specs, fun id => ?_⟩
  have hold := h.children id
  simp only [allChildIds] at hold
  simp only [remoteAdded_logic, remoteAdded_handles, remoteAdded_remoteSpawnMeta, SupervisorLogic.registerChild,
    allChildIds, List.map_append, List.mem_append, List.map_singleton, List.mem_singleton, Table.insert_apply, hold]
  split_ifs with hid <;> simp [hid]

theorem ids_replaced (l : SupervisorLogic) (childId : String) (slot : ChildHandleSlot) :
    allChildIds (l.replaceChildHandle childId slot).children = allChildIds l.children := by
  have hids := congrArg (List.map (·.id)) (SupervisorLogic.replaceChildHandle_policies l childId slot)
  rw [List.map_map, List.map_map] at hids
  exact hids

theorem Complete.localRestarted (h : Complete s) {childId : String} {spec : ChildSpec} (handle : ChildHandle)
    (hspec : s.specs childId = some spec) : Complete (s.localRestarted childId handle) := by
  have hhandle : s.handles childId ≠ none := (h.specs childId).mp (by simp [hspec])
  constructor
  · intro id
    simp only [localRestarted_specs, localRestarted_handles, Table.insert_apply]
    split_ifs with hid
    · simp [hid, hspec]
    · exact h.specs id
  · intro id
    simp only [localRestarted_logic, localRestarted_handles, localRestarted_remoteSpawnMeta, ids_replaced, h.children id,
      Table.insert_apply]
    split_ifs with hid
    · simp [hid, hhandle]
    · rfl

theorem Complete.remoteRestarted (h : Complete s) (childId : String) (address parent : ActorAddress) :
    Complete (s.remoteRestarted childId address parent) :=
  ⟨h.specs, fun id => by
    simp only [remoteRestarted_logic, remoteRestarted_handles, remoteRestarted_remoteSpawnMeta, ids_replaced]
    exact h.children id⟩

theorem Complete.remoteReleased (h : Complete s) (hi : Indexed s) {actorId : ActorId} {childId : String}
    (hid : s.remoteActorToId actorId = some childId) : Complete (s.remoteReleased actorId childId) := by
  have hhandle : s.handles childId = none := by
    by_contra hne
    exact (h.specs childId).mpr hne (hi.remote actorId childId hid).1
  refine ⟨h.specs, fun id => ?_⟩
  simp only [remoteReleased_logic, remoteReleased_handles, remoteReleased_remoteSpawnMeta, mem_ids_removed hi,
    h.children id, Table.remove_apply]
  split_ifs with he
  · simp [he, hhandle]
  · simp [he]

theorem Complete.delayed (h : Complete s) (childId : String) : Complete (s.delayed childId) :=
  h.withLogic (by rw [SupervisorLogic.backoffDelay_children])

theorem Complete.named (h : Complete s) (name childId : String) : Complete (s.named name childId) := ⟨h.specs, h.children⟩

theorem Complete.remoteTaken (h : Complete s) (childId : String) : Complete (s.remoteTaken childId) :=
  ⟨h.specs, h.children⟩

theorem Complete.remoteForgotten (h : Complete s) (childId : String) : Complete (s.remoteForgotten childId) :=
  ⟨h.specs, h.children⟩

/-- **Every step keeps the tables complete.** -/
theorem Complete.step {event : Event DynMsg} {reply : Option DynReply} {effs : List Effect} (h : Complete s)
    (hi : Indexed s) (hstep : DynStep ctx s event reply effs s') : Complete s' := by
  have hdrawn : Complete s.drawn := ⟨h.specs, h.children⟩
  cases hstep with
  | idle => exact h
  | drawn => exact hdrawn
  | added => exact hdrawn.localAdded _ _ _
  | named => exact (hdrawn.localAdded _ _ _).named _ _
  | unnamed =>
    refine (hdrawn.localAdded _ _ _).cleaned ?_ _
    exact hi.drawn.localAdded _ _ (hi.fresh _) ⟨_, _, rfl, le_rfl⟩
  | spawned => exact hdrawn.remoteAdded _ _ _ _
  | terminated =>
    rw [hi.removed_cleaned]
    exact h.cleaned hi _
  | released hid => exact (h.remoteTaken _).remoteReleased (hi.remoteTaken _) hid
  | stuck => exact h.remoteTaken _
  | ignored hd => exact h.withLogic (ids_of_faces (faces_of_decides hd))
  | removed hd =>
    exact (h.withLogic (ids_of_faces (faces_of_decides hd))).cleaned (hi.withLogic (faces_of_decides hd)) _
  | stopped hd => exact h.withLogic (ids_of_faces (faces_of_decides hd))
  | restarted hd hmeta hspec =>
    exact ((h.withLogic (ids_of_faces (faces_of_decides hd))).delayed _).localRestarted _ hspec
  | respawned hd =>
    exact (((h.withLogic (ids_of_faces (faces_of_decides hd))).delayed _).remoteForgotten _).remoteRestarted _ _ _
  | lost hd =>
    refine (((h.withLogic (ids_of_faces (faces_of_decides hd))).delayed _).remoteForgotten _).cleaned ?_ _
    exact ((hi.withLogic (faces_of_decides hd)).delayed _).remoteForgotten _
  | orphaned hd => exact (h.withLogic (ids_of_faces (faces_of_decides hd))).delayed _

theorem complete_lives {rt : Runtime} {b : DynamicSupervisorBuilder} {τ₀ : SupTrace}
    {hist : List (Serving DynamicSupervisor × Turn DynMsg DynReply)} {p : Serving DynamicSupervisor}
    (h : (rt.dynamicSupervisor ctx).Lives b.build τ₀ hist p) : Complete p.state := by
  refine (lives_inv (I := fun p => Indexed p.state ∧ Complete p.state) h ⟨indexed_build b, complete_build b⟩ ?_).2
  rintro p turn q ⟨hi, hc⟩ hturn
  have hstep := (dynStep_of_handles hturn).1
  exact ⟨hi.step hstep, hc.step hi hstep⟩

/-! ## Fresh actors -/

/-- A turn, with the state it began in. -/
abbrev DynTurn := Serving DynamicSupervisor × Turn DynMsg DynReply

/-- The ids of the local actors that were started. -/
def startedIds (effs : List Effect) : List ActorId :=
  effs.filterMap fun
    | .started handle => some handle.id
    | _ => none

/-- The ids of the local actors started in these turns. -/
def startedIn (hist : List DynTurn) : List ActorId := hist.flatMap fun x => startedIds (effects x.2.calls)

theorem mem_startedIds {effs : List Effect} {handle : ChildHandle} (h : Effect.started handle ∈ effs) :
    handle.id ∈ startedIds effs := List.mem_filterMap.mpr ⟨_, h, rfl⟩

theorem startedIn_append (hist hist' : List DynTurn) : startedIn (hist ++ hist') = startedIn hist ++ startedIn hist' := by
  simp [startedIn]

@[simp] theorem startedIn_singleton (x : DynTurn) : startedIn [x] = startedIds (effects x.2.calls) := by
  simp [startedIn]

/-- A handle in the table was there or has just been started. -/
theorem handles_step {event : Event DynMsg} {reply : Option DynReply} {effs : List Effect}
    (hstep : DynStep ctx s event reply effs s') {id : String} {handle : ChildHandle} (h : s'.handles id = some handle) :
    s.handles id = some handle ∨ Effect.started handle ∈ effs := by
  have hinsert : ∀ {t : Table String ChildHandle} {childId : String} {new : ChildHandle},
      t.insert childId new id = some handle → t id = some handle ∨ handle = new := by
    intro t childId new hh
    rw [Table.insert_apply] at hh
    split_ifs at hh
    · exact Or.inr (Option.some.inj hh).symm
    · exact Or.inl hh
  have hremove : ∀ {t : Table String ChildHandle} {childId : String}, t.remove childId id = some handle →
      t id = some handle := by
    intro t childId hh
    rw [Table.remove_apply] at hh
    split_ifs at hh
    exact hh
  cases hstep with
  | added => exact (hinsert h).imp_right (by rintro rfl; simp)
  | named => exact (hinsert h).imp_right (by rintro rfl; simp)
  | unnamed => exact (hinsert (hremove h)).imp_right (by rintro rfl; simp)
  | restarted => exact (hinsert h).imp_right (by rintro rfl; simp)
  | terminated | removed | lost => exact Or.inl (hremove h)
  | _ => exact Or.inl h

/-- No two children have the same local actor, and `actor_to_id` knows all of them. -/
abbrev Inverse (s : DynamicSupervisor) : Prop := InverseOf s.actorToId s.handles (·.id)

theorem Inverse.cleaned (h : Inverse s) (childId : String) : Inverse (s.cleaned childId) := by
  simp only [Inverse, DynamicSupervisor.cleaned]
  cases hc : s.handles childId with
  | none =>
    rw [Table.remove_eq_self hc]
    exact h
  | some old => exact h.remove hc

theorem Inverse.localAdded (h : Inverse s) {childId : String} (spec : ChildSpec) {handle : ChildHandle}
    (hid : s.handles childId = none) (hnew : ∀ id old, s.handles id = some old → old.id ≠ handle.id) :
    Inverse (s.localAdded childId spec handle) := h.insert hid hnew

theorem Inverse.localRestarted (h : Inverse s) {childId : String} {handle : ChildHandle}
    (hnew : ∀ id old, s.handles id = some old → old.id ≠ handle.id) : Inverse (s.localRestarted childId handle) := by
  simp only [Inverse, DynamicSupervisor.localRestarted]
  cases hc : s.handles childId with
  | none => exact h.insert hc hnew
  | some old =>
    rw [← Table.remove_insert s.handles]
    refine (h.remove hc).insert (Table.remove_self _ _) fun id old' hold => hnew id old' ?_
    rw [Table.remove_apply] at hold
    split_ifs at hold
    exact hold

/-- **A step that starts only fresh actors keeps the reverse map exact.** -/
theorem Inverse.step {event : Event DynMsg} {reply : Option DynReply} {effs : List Effect} (h : Inverse s)
    (hi : Indexed s) (hnew : ∀ n ∈ startedIds effs, ∀ id old, s.handles id = some old → old.id ≠ n)
    (hstep : DynStep ctx s event reply effs s') : Inverse s' := by
  have hfresh : ∀ {handle : ChildHandle}, Effect.started handle ∈ effs →
      ∀ id old, s.handles id = some old → old.id ≠ handle.id :=
    fun hmem => hnew _ (mem_startedIds hmem)
  have hnext : ∀ template, s.handles (s.nextId template) = none := fun template => by
    by_contra hne
    exact hi.fresh template (Or.inr (Or.inl hne))
  cases hstep with
  | added => exact Inverse.localAdded (s := s.drawn) h _ (hnext _) (hfresh (by simp))
  | @named spec => exact Inverse.localAdded (s := s.drawn) h spec (hnext _) (hfresh (by simp))
  | unnamed => exact (Inverse.localAdded (s := s.drawn) h _ (hnext _) (hfresh (by simp))).cleaned _
  | terminated =>
    rw [hi.removed_cleaned]
    exact h.cleaned _
  | removed => exact Inverse.cleaned (s := s.withLogic _) h _
  | @lost _ _ l childId =>
    exact Inverse.cleaned (s := ((s.withLogic l).delayed childId).remoteForgotten childId) h childId
  | @restarted _ _ l childId =>
    exact Inverse.localRestarted (s := (s.withLogic l).delayed childId) h (hfresh (by simp))
  | _ => exact h

/-- The turn asks for no remote child. -/
def LocalTurn (x : DynTurn) : Prop := ∀ spec placement link, x.2.event ≠ .message (.startChildRemote spec placement link)

/-- There are no remote children. -/
structure LocalOnly (s : DynamicSupervisor) : Prop where
  spawned : ∀ id, s.remoteSpawnMeta id = none
  remote : ∀ n, s.remoteActorToId n = none

theorem LocalOnly.step {event : Event DynMsg} {reply : Option DynReply} {effs : List Effect} (h : LocalOnly s)
    (hstep : DynStep ctx s event reply effs s')
    (hlocal : ∀ spec placement link, event ≠ .message (.startChildRemote spec placement link)) : LocalOnly s' := by
  have hremove : ∀ childId id, s.remoteSpawnMeta.remove childId id = none := by
    intro childId id
    rw [Table.remove_eq_self (h.spawned childId)]
    exact h.spawned id
  cases hstep with
  | spawned => exact absurd rfl (hlocal _ _ _)
  | released hid => exact absurd hid (by simp [h.remote])
  | respawned _ hmeta | lost _ hmeta => exact absurd (h.spawned _) hmeta
  | unnamed | terminated | removed => exact ⟨hremove _, h.remote⟩
  | _ => exact ⟨h.spawned, h.remote⟩

theorem localOnly_lives {rt : Runtime} {b : DynamicSupervisorBuilder} {τ₀ : SupTrace} {hist : List DynTurn}
    {p : Serving DynamicSupervisor} (h : (rt.dynamicSupervisor ctx).Lives b.build τ₀ hist p)
    (hlocal : ∀ x ∈ hist, LocalTurn x) : LocalOnly p.state := by
  obtain ⟨s₀, hstarted, hserve⟩ := h
  obtain rfl := started_state hstarted
  refine hserve.inv_of_steps (I := fun p => LocalOnly p.state) (P := fun p turn => LocalTurn (p, turn))
    ⟨fun _ => rfl, fun _ => rfl⟩ (fun p turn q hm hl hturn => ?_) hlocal
  exact hm.step (dynStep_of_handles hturn).1 hl

/-! ## The local tables -/

/-- The engine, the specs, the handles and the reverse map hold the same children. -/
structure LocalTables (s : DynamicSupervisor) : Prop where
  distinct : (allChildIds s.logic.children).Nodup
  handles : ∀ id, id ∈ allChildIds s.logic.children ↔ s.handles id ≠ none
  specs : ∀ id, id ∈ allChildIds s.logic.children ↔ s.specs id ≠ none
  slots : ∀ child ∈ s.logic.children, child.slotId ≠ none ∧ child.slotId = (s.handles child.policy.id).map (·.id)
  inverse : ∀ n id, s.actorToId n = some id ↔ ∃ handle, s.handles id = some handle ∧ handle.id = n

/-- The invariant with the history: every handle is of an actor started, and no actor was started twice. -/
theorem inverse_lives {rt : Runtime} {b : DynamicSupervisorBuilder} {τ₀ : SupTrace} {hist : List DynTurn}
    {p : Serving DynamicSupervisor} (h : (rt.dynamicSupervisor ctx).Lives b.build τ₀ hist p)
    (hfresh : (startedIn hist).Nodup) :
    Inverse p.state ∧ ∀ id handle, p.state.handles id = some handle → handle.id ∈ startedIn hist := by
  obtain ⟨s₀, hstarted, hserve⟩ := h
  obtain rfl := started_state hstarted
  suffices hinv : Indexed p.state ∧ ((startedIn hist).Nodup →
      Inverse p.state ∧ ∀ id handle, p.state.handles id = some handle → handle.id ∈ startedIn hist) from hinv.2 hfresh
  refine hserve.inv_history (I := fun hist p => Indexed p.state ∧ ((startedIn hist).Nodup →
    Inverse p.state ∧ ∀ id handle, p.state.handles id = some handle → handle.id ∈ startedIn hist)) ?_ ?_
  · exact ⟨indexed_build b, fun _ => ⟨fun n id => ⟨nofun, nofun⟩, nofun⟩⟩
  · rintro hist p turn q ⟨hi, ih⟩ hturn
    have hstep := (dynStep_of_handles hturn).1
    refine ⟨hi.step hstep, fun hnodup => ?_⟩
    rw [startedIn_append, startedIn_singleton] at hnodup ⊢
    obtain ⟨hold, -, hdisj⟩ := List.nodup_append.mp hnodup
    obtain ⟨hinv, hmem⟩ := ih hold
    refine ⟨hinv.step hi (fun n hn id old hh => hdisj _ (hmem id old hh) n hn) hstep, fun id handle hh => ?_⟩
    rcases handles_step hstep hh with hh | hnew
    · exact List.mem_append_left _ (hmem id handle hh)
    · exact List.mem_append_right _ (mem_startedIds hnew)

/-- **The local tables agree.** Between two handlers of any life without remote children, whatever is started,
terminated, registered and reported, the children registered in the engine have distinct ids, which are those of the
handle table and of the spec table, each slot holds the id of the child's handle, and the reverse map is exactly the
inverse of the handle table. Actor ids are allocated fresh, so no two started actors share one. -/
theorem local_tables_agree (rt : Runtime) (ctx : Context) (b : DynamicSupervisorBuilder) (τ₀ : SupTrace)
    (hist : List DynTurn) (p : Serving DynamicSupervisor) (h : (rt.dynamicSupervisor ctx).Lives b.build τ₀ hist p)
    (hlocal : ∀ x ∈ hist, LocalTurn x) (hfresh : (startedIn hist).Nodup) : LocalTables p.state := by
  have hi := indexed_lives h
  have hc := complete_lives h
  obtain ⟨hinv, -⟩ := inverse_lives h hfresh
  have hmeta := (localOnly_lives h hlocal).spawned
  have hids : ∀ id, id ∈ allChildIds p.state.logic.children ↔ p.state.handles id ≠ none := by
    intro id
    rw [hc.children id]
    simp [hmeta id]
  refine ⟨hi.ids, hids, fun id => (hids id).trans (hc.specs id).symm, fun child hchild => ?_, hinv⟩
  obtain ⟨handle, hh⟩ := Option.ne_none_iff_exists'.mp ((hids _).mp (List.mem_map_of_mem hchild))
  have hslot := (hi.handle _ handle hh).2 child hchild rfl
  simp [hslot, hh]

/-- A named permanent worker (actor 2), a temporary one (actor 4), a crash of the first, and the second terminated. -/
def mixedEvents : List (Event DynMsg) :=
  [.message (.startChild { id := "work", restart := .permanent } (some "main")),
    .message (.startChild { id := "temp", restart := .temporary } none),
    .exit ⟨⟨"n", 2⟩, .panic "boom"⟩, .message (.terminateChild 4), .exit ⟨⟨"n", 4⟩, .shutdown⟩]

def mixedLife : Life DynamicSupervisor DynMsg DynReply :=
  (Runtime.dynamicSupervisor .tasks ⟨⟨"n", 0⟩⟩).life calmAnswers ({} : DynamicSupervisorBuilder).build mixedEvents

theorem local_tables_agree_mixed : LocalTables mixedLife.last.state ∧ mixedLife.last.state.handles "work#1" ≠ none := by
  refine ⟨local_tables_agree .tasks ⟨⟨"n", 0⟩⟩ {} _ mixedLife.turns _ (Callbacks.lives_life _ calmAnswers _ mixedEvents) ?_
    (by decide), by decide⟩
  intro x hx spec placement link
  have hevent := Callbacks.event_life (Runtime.dynamicSupervisor .tasks ⟨⟨"n", 0⟩⟩) calmAnswers _ mixedEvents hx
  simp only [mixedEvents, List.mem_cons, List.not_mem_nil, or_false] at hevent
  rcases hevent with he | he | he | he | he <;> simp [he]

end DynamicSupervisor

end Spawned
