import Spawned.Supervisor.Scope

/-!
# Which child an exit is attributed to

The engine finds the exiting child by the bare id of the `Exit`, and node-local ids repeat across a cluster.

* `addressOf` : the full address of a child's current actor;
* `Unambiguous` : no two slots hold the same bare id; `Attributed` : a live child with the bare id of the exit has its
  full address;
* `Tracks` : slots, handles and the reverse map name the same actors, in every state of the machine;
* `Frame` : what a handler has left alone so far;
* `reacts_of_lives` : in a life where bare ids are never ambiguous an `Exit` changes nothing at all, or there is a child
  with exactly its address and only children in that child's restart scope change.
-/

namespace Spawned

open Lib

/-- What marking leaves of a child: its policy and the id in its slot. -/
def SupervisedChild.face (child : SupervisedChild) : ChildPolicy × Option ActorId := (child.policy, child.slotId)

namespace SupervisorLogic

/-- No two children hold the same bare id. -/
def Unambiguous (l : SupervisorLogic) : Prop := (l.children.map (·.slotId)).Nodup

instance (l : SupervisorLogic) : Decidable l.Unambiguous := inferInstanceAs (Decidable (List.Nodup _))

/-- The children registered under an id. -/
def entries (l : SupervisorLogic) (id : String) : List SupervisedChild := l.children.filter (·.policy.id == id)

theorem markChildDead_faces (l : SupervisorLogic) (actorId : ActorId) :
    (l.markChildDead actorId).children.map (·.face) = l.children.map (·.face) := by
  refine List.ext_getElem? fun j => ?_
  rw [List.getElem?_map, List.getElem?_map, markChildDead_getElem?]
  split_ifs
  · cases l.children[j]? with
    | none => rfl
    | some c => simp [SupervisedChild.face]
  · rfl

/-- Removing by id removes the one child with that id. -/
theorem removeChildById_children {l : SupervisorLogic} (h : (l.children.map (·.policy.id)).Nodup) (id : String) :
    (l.removeChildById id).children = l.children.filter (·.policy.id != id) := by
  show l.children.eraseP (·.policy.id == id) = _
  generalize l.children = children at h
  induction children with
  | nil => rfl
  | cons c cs ih =>
    obtain ⟨hnot, hcs⟩ := List.nodup_cons.mp h
    by_cases hc : c.policy.id = id
    · have hkeep : cs.filter (·.policy.id != id) = cs := by
        refine List.filter_eq_self.mpr fun d hd => ?_
        have hne : d.policy.id ≠ id := fun he => hnot (List.mem_map.mpr ⟨d, hd, he.trans hc.symm⟩)
        simpa using hne
      simp [hc, hkeep]
    · simp [hc, ih hcs]

end SupervisorLogic

namespace Supervisor

/-- What the supervisor holds of one child: its slots, its restart counter and its rows in the tables. -/
@[ext]
structure View where
  entries : List SupervisedChild
  attempts : Option Nat
  handle : Option ChildHandle
  remote : Option RemoteChildHandle
  spawned : Option RemoteSpawnMeta

def view (s : Supervisor) (id : String) : View where
  entries := s.logic.entries id
  attempts := s.logic.backoffAttempts id
  handle := s.handles id
  remote := s.remoteHandles id
  spawned := s.remoteSpawnMeta id

/-- The bare ids the reverse map resolves to this child. -/
def reverse (s : Supervisor) (id : String) : Set ActorId := {n | s.remoteActorToId n = some id}

/-- The full address of a child's current actor: that of its remote handle, else on this node. -/
def addressOf (ctx : Context) (s : Supervisor) (child : SupervisedChild) : Option ActorAddress :=
  match s.remoteHandles child.policy.id with
  | some remote => some remote.address
  | none => child.slotId.map fun actorId => { node := ctx.actorAddress.node, actorId }

/-- A child believed alive with the bare id of the exit has exactly the address the exit comes from. -/
def Attributed (ctx : Context) (s : Supervisor) (exit : Exit) : Prop :=
  ∀ child ∈ s.logic.children, child.handle = some { id := exit.from.actorId, alive := true } →
    s.addressOf ctx child = some exit.from

instance (ctx : Context) (s : Supervisor) (exit : Exit) : Decidable (s.Attributed ctx exit) :=
  inferInstanceAs (Decidable (∀ child ∈ s.logic.children, _ → _))

/-- The right actor was reacted to: nothing changed at all, or a child has exactly the address the exit comes from and
no child outside the scope of its restart changed. -/
def Reacts (ctx : Context) (s : Supervisor) (exit : Exit) (s' : Supervisor) : Prop :=
  s' = s ∨ ∃ child ∈ s.logic.children, s.addressOf ctx child = some exit.from ∧
    ∀ other ∈ s.logic.children, other.policy.id ∉ s.logic.restartScope child →
      s'.view other.policy.id = s.view other.policy.id ∧ s'.reverse other.policy.id = s.reverse other.policy.id

/-! ## Slots, handles and the reverse map -/

/-- The actor the handle tables name for a child. -/
def tracked (s : Supervisor) (id : String) : Option ActorId :=
  match s.remoteHandles id with
  | some remote => some remote.address.actorId
  | none => (s.handles id).map (·.id)

/-- The tables agree on the children of a configuration. -/
structure Tracks (c : Conf) : Prop where
  ids : (c.sup.logic.children.map (·.policy.id)).Nodup
  slots : ∀ child ∈ c.sup.logic.children, child.slotId = c.sup.tracked child.policy.id ∧ child.slotId.isSome
  spawned : ∀ id remote, c.sup.remoteHandles id = some remote → c.sup.remoteSpawnMeta id ≠ none
  reverse : ∀ n id, c.sup.remoteActorToId n = some id →
    ∃ remote, c.sup.remoteHandles id = some remote ∧ remote.address.actorId = n
  fresh : ∀ index specs, c.todo = .start index specs → (specs.map (·.id)).Nodup ∧
    ∀ spec ∈ specs, c.sup.remoteHandles spec.id = none ∧ ∀ child ∈ c.sup.logic.children, child.policy.id ≠ spec.id
  restarts : c.todo.toRestart.Nodup ∧
    ∀ id ∈ c.todo.toRestart, ∃ child ∈ c.sup.logic.children, child.policy.id = id

variable {ctx : Context} {c c' : Conf} {act : Act} {s s' : Supervisor}

/-- Changing what the engine believes of its children keeps the tables in agreement. -/
theorem Tracks.of_faces (h : Tracks c) {l : SupervisorLogic} {todo : Todo}
    (hf : l.children.map (·.face) = c.sup.logic.children.map (·.face))
    (ht : ∀ index specs, todo ≠ .start index specs)
    (hr : todo.toRestart.Nodup ∧ ∀ id ∈ todo.toRestart, ∃ child ∈ c.sup.logic.children, child.policy.id = id) :
    Tracks ⟨c.sup.withLogic l, todo⟩ := by
  have hmem : ∀ d ∈ l.children, ∃ e ∈ c.sup.logic.children, e.face = d.face := by
    intro d hd
    have hface : d.face ∈ c.sup.logic.children.map (·.face) := by
      rw [← hf]
      exact List.mem_map_of_mem hd
    exact List.mem_map.mp hface
  refine ⟨?_, fun d hd => ?_, h.spawned, h.reverse, fun index specs he => absurd he (ht index specs), hr.1, ?_⟩
  · have hids := congrArg (List.map fun face : ChildPolicy × Option ActorId => face.1.id) hf
    rw [List.map_map, List.map_map] at hids
    have hids' : l.children.map (·.policy.id) = c.sup.logic.children.map (·.policy.id) := hids
    rw [withLogic_logic, hids']
    exact h.ids
  · obtain ⟨e, he, hface⟩ := hmem d hd
    obtain ⟨hpol, hslot⟩ := Prod.mk.inj hface
    rw [← hslot, ← hpol]
    exact h.slots e he
  · intro id hid
    obtain ⟨e, he, heid⟩ := hr.2 id hid
    have hface : e.face ∈ l.children.map (·.face) := by
      rw [hf]
      exact List.mem_map_of_mem he
    obtain ⟨d, hd, hde⟩ := List.mem_map.mp hface
    obtain ⟨hpol, -⟩ := Prod.mk.inj hde
    exact ⟨d, hd, by rw [hpol, heid]⟩

/-- A start adds the child with the actor its tables now name. -/
theorem Tracks.register {index : Nat} {spec : ChildSpec} {specs : List ChildSpec}
    (h : Tracks ⟨s, .start index (spec :: specs)⟩) {policy : ChildPolicy} {slot : ChildHandleSlot}
    (hid : policy.id = spec.id) (hl : s'.logic = s.logic.registerChild policy slot)
    (hnew : s'.tracked spec.id = some slot.id)
    (hold : ∀ id, id ≠ spec.id → s'.tracked id = s.tracked id ∧ s'.remoteHandles id = s.remoteHandles id)
    (hspawned : ∀ id remote, s'.remoteHandles id = some remote → s'.remoteSpawnMeta id ≠ none)
    (hreverse : ∀ n id, s'.remoteActorToId n = some id →
      ∃ remote, s'.remoteHandles id = some remote ∧ remote.address.actorId = n) :
    Tracks ⟨s', .start (index + 1) specs⟩ := by
  obtain ⟨hnodup, hfresh⟩ := h.fresh _ _ rfl
  obtain ⟨hnot, hnodup'⟩ := List.nodup_cons.mp hnodup
  obtain ⟨-, habsent⟩ := hfresh spec (List.mem_cons_self ..)
  have hmem : ∀ child ∈ s'.logic.children, child ∈ s.logic.children ∨ child = { policy, handle := some slot } := by
    intro child hchild
    rw [hl] at hchild
    simpa [SupervisorLogic.registerChild] using hchild
  refine ⟨?_, ?_, hspawned, hreverse, ?_, by simp [Todo.toRestart]⟩
  · rw [hl, SupervisorLogic.registerChild, List.map_append, List.nodup_append]
    refine ⟨h.ids, List.nodup_singleton _, ?_⟩
    intro a ha b hb hab
    obtain ⟨child, hchild, rfl⟩ := List.mem_map.mp ha
    obtain rfl : b = policy.id := by simpa using hb
    exact habsent child hchild (hab.trans hid)
  · intro child hchild
    rcases hmem child hchild with hchild | rfl
    · rw [(hold _ (habsent child hchild)).1]
      exact h.slots child hchild
    · rw [hid, hnew]
      exact ⟨rfl, rfl⟩
  · intro index' specs' he
    cases he
    refine ⟨hnodup', fun sp hsp => ?_⟩
    have hne : sp.id ≠ spec.id := fun he => hnot (List.mem_map.mpr ⟨sp, hsp, he⟩)
    obtain ⟨hremote, hchildren⟩ := hfresh sp (List.mem_cons_of_mem _ hsp)
    refine ⟨(hold _ hne).2.trans hremote, fun child hchild => ?_⟩
    rcases hmem child hchild with hchild | rfl
    · exact hchildren child hchild
    · rw [hid]
      exact hne.symm

/-- A start that failed leaves everything as it was. -/
theorem Tracks.skip {index : Nat} {spec : ChildSpec} {specs : List ChildSpec}
    (h : Tracks ⟨s, .start index (spec :: specs)⟩) : Tracks ⟨s, .start (index + 1) specs⟩ := by
  refine ⟨h.ids, h.slots, h.spawned, h.reverse, ?_, by simp [Todo.toRestart]⟩
  intro index' specs' he
  cases he
  obtain ⟨hnodup, hfresh⟩ := h.fresh _ _ rfl
  exact ⟨(List.nodup_cons.mp hnodup).2, fun sp hsp => hfresh sp (List.mem_cons_of_mem _ hsp)⟩

/-- A restart puts the actor its tables now name into the child's slot. -/
theorem Tracks.renew {id : String} {ids : List String} (h : Tracks ⟨s, .relaunch id ids⟩) {slot : ChildHandleSlot}
    (hl : s'.logic.children = (s.logic.replaceChildHandle id slot).children) (hnew : s'.tracked id = some slot.id)
    (hold : ∀ id', id' ≠ id → s'.tracked id' = s.tracked id')
    (hspawned : ∀ id remote, s'.remoteHandles id = some remote → s'.remoteSpawnMeta id ≠ none)
    (hreverse : ∀ n id, s'.remoteActorToId n = some id →
      ∃ remote, s'.remoteHandles id = some remote ∧ remote.address.actorId = n) :
    Tracks ⟨s', .restart ids⟩ := by
  obtain ⟨hnodup, hin⟩ := h.restarts
  have hpol : s'.logic.children.map (·.policy) = s.logic.children.map (·.policy) := by
    rw [hl]
    exact SupervisorLogic.replaceChildHandle_policies ..
  have hids : s'.logic.children.map (·.policy.id) = s.logic.children.map (·.policy.id) := by
    have := congrArg (List.map (·.id)) hpol
    rwa [List.map_map, List.map_map] at this
  refine ⟨hids ▸ h.ids, ?_, hspawned, hreverse, fun index specs he => (by cases he), (List.nodup_cons.mp hnodup).2, ?_⟩
  · intro child hchild
    rw [hl, replaceChildHandle_children h.ids] at hchild
    obtain ⟨old, hmem, rfl⟩ := List.mem_map.mp hchild
    split_ifs with hid
    · rw [SupervisedChild.renewed_policy, hid, hnew]
      exact ⟨rfl, rfl⟩
    · rw [hold _ hid]
      exact h.slots old hmem
  · intro id' hid'
    obtain ⟨child, hchild, rfl⟩ := hin id' (List.mem_cons_of_mem _ hid')
    have hmem : child.policy.id ∈ s'.logic.children.map (·.policy.id) := hids ▸ List.mem_map_of_mem hchild
    exact List.mem_map.mp hmem

/-- Forgetting a child forgets exactly its reverse entries. -/
theorem forgotten_reverse {id id' : String} {n : ActorId} :
    (s.remoteForgotten id).remoteActorToId n = some id' ↔ s.remoteActorToId n = some id' ∧ id' ≠ id := by
  rw [remoteForgotten_remoteActorToId, Table.retain_eq_some, bne_iff_ne]

/-- Dropping a child whose remote restart failed. -/
theorem Tracks.drop {id : String} {ids : List String} (h : Tracks ⟨s, .relaunch id ids⟩) :
    Tracks ⟨(s.remoteForgotten id).remoteDropped id, .restart ids⟩ := by
  obtain ⟨hnodup, hin⟩ := h.restarts
  obtain ⟨hnot, hnodup'⟩ := List.nodup_cons.mp hnodup
  have hmem : ∀ child, child ∈ ((s.remoteForgotten id).remoteDropped id).logic.children ↔
      child ∈ s.logic.children ∧ child.policy.id ≠ id := by
    intro child
    rw [remoteDropped_logic, SupervisorLogic.removeChildById_children (by simpa using h.ids)]
    simp
  refine ⟨?_, ?_, ?_, ?_, fun index specs he => (by cases he), hnodup', ?_⟩
  · exact h.ids.sublist ((List.eraseP_sublist).map _)
  · intro child hchild
    obtain ⟨hchild, hid⟩ := (hmem child).mp hchild
    have htrack : ((s.remoteForgotten id).remoteDropped id).tracked child.policy.id = s.tracked child.policy.id := by
      simp [tracked, Table.remove_ne _ hid]
    rw [htrack]
    exact h.slots child hchild
  · intro id' remote hremote
    rw [remoteDropped_remoteHandles, remoteForgotten_remoteHandles, Table.remove_apply] at hremote
    split_ifs at hremote with hid
    rw [remoteDropped_remoteSpawnMeta, Table.remove_ne _ hid]
    exact h.spawned id' remote hremote
  · intro n id' hn
    obtain ⟨hn, hid⟩ := forgotten_reverse.mp hn
    rw [remoteDropped_remoteHandles, remoteForgotten_remoteHandles, Table.remove_ne _ hid]
    exact h.reverse n id' hn
  · intro id' hid'
    obtain ⟨child, hchild, rfl⟩ := hin id' (List.mem_cons_of_mem _ hid')
    exact ⟨child, (hmem child).mpr ⟨hchild, fun he => hnot (he ▸ hid')⟩, rfl⟩

/-- The ids of a batch are ids of children. -/
theorem mem_batchIds {l : SupervisorLogic} {b : BatchRestart} {id : String} (h : id ∈ l.batchIds b) :
    ∃ child ∈ l.children, child.policy.id = id := by
  cases b with
  | all => exact List.mem_map.mp h
  | fromIndex k =>
    obtain ⟨child, hchild, -, hid⟩ := SupervisorLogic.mem_restForOneIds.mp h
    exact ⟨child, hchild, hid⟩

theorem batchIds_nodup {l : SupervisorLogic} (h : (l.children.map (·.policy.id)).Nodup) (b : BatchRestart) :
    (l.batchIds b).Nodup := by
  cases b with
  | all => exact h
  | fromIndex k => exact h.sublist (List.filter_sublist.map _)

theorem restartOrder_nodup {ids : List String} (h : ids.Nodup) (s : Supervisor) : (s.restartOrder ids).Nodup := by
  refine List.nodup_append.mpr ⟨h.filter _, h.filter _, ?_⟩
  rintro a ha b hb rfl
  have h₁ := (List.mem_filter.mp ha).2
  have h₂ := (List.mem_filter.mp hb).2
  simp [h₁] at h₂

theorem mem_restartOrder {ids : List String} {s : Supervisor} {id : String} :
    id ∈ s.restartOrder ids ↔ id ∈ ids := by
  simp only [restartOrder, List.mem_append, List.mem_filter]
  cases s.remoteSpawnMeta.containsKey id <;> simp

/-- Taking a complete batch. -/
theorem take_complete {l logic : SupervisorLogic} {ids : List String}
    (htake : l.takePendingRestartIds = (some ids, logic)) :
    ∃ b, l.pendingBatchRestart = some b ∧ ids = l.batchIds b ∧
      logic = { l with pendingBatchRestart := none, suppressRestarts := false } := by
  unfold SupervisorLogic.takePendingRestartIds at htake
  cases hp : l.pendingBatchRestart with
  | none => simp [hp] at htake
  | some b =>
    rw [hp] at htake
    cases htake
    exact ⟨b, rfl, rfl, rfl⟩

theorem tracks_init (b : SupervisorBuilder) (hids : (b.specs.map (·.id)).Nodup) :
    Tracks ⟨b.build, .start 0 b.specs⟩ := by
  refine ⟨List.nodup_nil, by simp [SupervisorBuilder.build, SupervisorLogic.new],
    by simp [SupervisorBuilder.build], by simp [SupervisorBuilder.build], ?_, by simp [Todo.toRestart]⟩
  intro index specs he
  cases he
  exact ⟨hids, fun spec _ => ⟨rfl, by simp [SupervisorBuilder.build, SupervisorLogic.new]⟩⟩

/-- Every transition keeps the tables in agreement. -/
theorem tracks_step (h : Tracks c) (hstep : Micro ctx c act c') : Tracks c' := by
  have hidle : Todo.idle.toRestart.Nodup ∧ ∀ id ∈ Todo.idle.toRestart,
      ∃ child ∈ c.sup.logic.children, child.policy.id = id := by simp [Todo.toRestart]
  have hterm : ∀ ids, (Todo.terminate ids).toRestart.Nodup ∧ ∀ id ∈ (Todo.terminate ids).toRestart,
      ∃ child ∈ c.sup.logic.children, child.policy.id = id := by simp [Todo.toRestart]
  have hself : ∀ {todo : Todo}, (∀ index specs, todo ≠ .start index specs) →
      (todo.toRestart.Nodup ∧ ∀ id ∈ todo.toRestart, ∃ child ∈ c.sup.logic.children, child.policy.id = id) →
      Tracks ⟨c.sup, todo⟩ := fun ht hr => h.of_faces rfl ht hr
  have hrec : ∀ {l : SupervisorLogic} {n : ActorId}, l.children = (c.sup.logic.markChildDead n).children →
      l.children.map (·.face) = c.sup.logic.children.map (·.face) := by
    intro l n hl
    rw [hl, SupervisorLogic.markChildDead_faces]
  cases hstep with
  | @startLocal s spec specs index handle hspec =>
    obtain ⟨hremote, -⟩ := (h.fresh _ _ rfl).2 spec (List.mem_cons_self ..)
    refine h.register rfl rfl ?_ (fun id hid => ?_) h.spawned h.reverse
    · simp [tracked, show s.remoteHandles spec.id = none from hremote]
    · simp [tracked, Table.insert_ne _ _ hid]
  | startNoWire hspec hwire => exact h.skip
  | startFailed error hwire hplace => exact h.skip
  | @startRemote s spec specs index wire placement address hwire hplace =>
    obtain ⟨hremote, -⟩ := (h.fresh _ _ rfl).2 spec (List.mem_cons_self ..)
    refine h.register rfl rfl (by simp [tracked]) (fun id hid => ?_) ?_ ?_
    · simp [tracked, Table.insert_ne _ _ hid]
    · intro id remote hr
      by_cases hid : id = spec.id
      · simp [hid]
      · simp only [remoteStarted_remoteHandles, remoteStarted_remoteSpawnMeta, Table.insert_ne _ _ hid] at hr ⊢
        exact h.spawned id remote hr
    · intro n id hn
      rw [remoteStarted_remoteActorToId, Table.insert_apply] at hn
      split_ifs at hn with hid
      · cases hn
        exact ⟨_, Table.insert_self .., hid.symm⟩
      · obtain ⟨remote, hr, hrn⟩ := h.reverse n id hn
        have hne : id ≠ spec.id := by
          rintro rfl
          rw [hremote] at hr
          cases hr
        exact ⟨remote, by simpa [Table.insert_ne _ _ hne] using hr, hrn⟩
  | started => exact hself (by simp) hidle
  | note exit hsup => exact h.of_faces (hrec rfl) (by simp) (hterm _)
  | ignore exit now hsup hact =>
    cases SupervisorLogic.decides_of_onChildExit hact with
    | suppressed hs => exact hself (by simp) hidle
    | unknown hn => exact hself (by simp) hidle
    | final hp hc hr => exact h.of_faces (hrec rfl) (by simp) hidle
  | restartOne exit now hsup hact =>
    cases SupervisorLogic.decides_of_onChildExit hact with
    | @restartOne p child hr hst =>
      refine h.of_faces (hrec rfl) (by simp) ⟨List.nodup_singleton _, fun id hid => ?_⟩
      exact ⟨child, List.mem_of_getElem? hr.child_eq, (List.mem_singleton.mp hid).symm⟩
  | terminateBatch exit now hsup hact =>
    cases SupervisorLogic.decides_of_onChildExit hact with
    | all hr hst => exact h.of_faces (hrec rfl) (by simp) (hterm _)
    | rest hr hst => exact h.of_faces (hrec rfl) (by simp) (hterm _)
  | meltdown exit now hsup hact =>
    cases SupervisorLogic.decides_of_onChildExit hact with
    | meltdown hp hc hr hi => exact h.of_faces (hrec rfl) (by simp) hidle
  | terminateRemote answer hremote halive => exact h.of_faces (hrec rfl) (by simp) (hterm _)
  | terminateRemoteDead hremote halive => exact hself (by simp) (hterm _)
  | terminateLocal reason hremote hlocal hτ => exact h.of_faces (hrec rfl) (by simp) (hterm _)
  | terminateNone hremote hlocal => exact hself (by simp) (hterm _)
  | incomplete hdone => exact hself (by simp) hidle
  | @complete s ids logic hdone htake =>
    obtain ⟨b, hb, rfl, rfl⟩ := take_complete htake
    refine h.of_faces rfl (by simp) ⟨restartOrder_nodup (batchIds_nodup h.ids b) s, fun id hid => ?_⟩
    exact mem_batchIds (mem_restartOrder.mp hid)
  | @backoff s id ids delay logic hdelay =>
    obtain rfl : (s.logic.backoffDelay id (s.backoffFor id)).2 = logic := by rw [hdelay]
    exact h.of_faces (by simp) (by simp) h.restarts
  | relaunchNone hmeta hspec =>
    obtain ⟨hnodup, hin⟩ := h.restarts
    exact hself (by simp) ⟨(List.nodup_cons.mp hnodup).2, fun id hid => hin id (List.mem_cons_of_mem _ hid)⟩
  | @relaunchLocal s id ids spec handle hmeta hspec =>
    have hremote : s.remoteHandles id = none := by
      cases hr : s.remoteHandles id with
      | none => rfl
      | some remote => exact absurd hmeta (h.spawned id remote hr)
    refine h.renew rfl ?_ (fun id' hid' => ?_) h.spawned h.reverse
    · simp [tracked, hremote]
    · simp [tracked, Table.insert_ne _ _ hid']
  | relaunchFailed error hmeta => exact h.drop
  | @relaunchRemote s id ids spawned address hmeta =>
    refine h.renew rfl (by simp [tracked]) (fun id' hid' => ?_) ?_ ?_
    · simp [tracked, Table.insert_ne _ _ hid', Table.remove_ne _ hid']
    · intro id' remote hr
      by_cases hid : id' = id
      · simp [hid, hmeta]
      · simp only [remoteRestarted_remoteHandles, remoteForgotten_remoteHandles, Table.insert_ne _ _ hid,
          Table.remove_ne _ hid, remoteRestarted_remoteSpawnMeta, remoteForgotten_remoteSpawnMeta] at hr ⊢
        exact h.spawned id' remote hr
    · intro n id' hn
      rw [remoteRestarted_remoteActorToId, Table.insert_apply] at hn
      split_ifs at hn with hid
      · cases hn
        exact ⟨_, Table.insert_self .., hid.symm⟩
      · obtain ⟨hn, hne⟩ := forgotten_reverse.mp hn
        rw [remoteRestarted_remoteHandles, Table.insert_ne _ _ hne, remoteForgotten_remoteHandles,
          Table.remove_ne _ hne]
        exact h.reverse n id' hn
  | restarted => exact hself (by simp) hidle

/-! ## What a handler leaves alone -/

/-- The pending batch starts behind the end of the vector, so it is never found complete. -/
def Wedged (l : SupervisorLogic) : Prop := ∃ k, l.pendingBatchRestart = some (.fromIndex k) ∧ l.children.length < k

theorem Wedged.incomplete {l : SupervisorLogic} (h : Wedged l) : l.pendingBatchRestartComplete = false := by
  obtain ⟨k, hk, hlt⟩ := h
  simp [SupervisorLogic.pendingBatchRestartComplete, hk, Nat.not_le.mpr hlt]

/-- A batch with no child alive that is found incomplete is wedged. -/
theorem wedged_of_incomplete {l : SupervisorLogic} (ho : l.Ordered) {b : BatchRestart}
    (hb : l.pendingBatchRestart = some b) (hinc : l.pendingBatchRestartComplete = false)
    (hdead : ∀ child ∈ l.children, child.policy.id ∈ l.batchIds b → child.isAlive = false) : Wedged l := by
  cases b with
  | all =>
    have hall : l.children.any (·.isAlive) = false := by
      refine List.any_eq_false.mpr fun child hchild => ?_
      simp [hdead child hchild (List.mem_map_of_mem hchild)]
    simp [SupervisorLogic.pendingBatchRestartComplete, hb, hall] at hinc
  | fromIndex k =>
    refine ⟨k, hb, ?_⟩
    by_contra hle
    have hdrop : (l.children.drop k).any (·.isAlive) = false := by
      refine List.any_eq_false.mpr fun child hchild => ?_
      obtain ⟨j, hj⟩ := List.getElem?_of_mem hchild
      rw [List.getElem?_drop] at hj
      have hpos := ho _ _ hj
      have hmem := List.mem_of_getElem? hj
      have hid : child.policy.id ∈ l.batchIds (.fromIndex k) :=
        SupervisorLogic.mem_restForOneIds.mpr ⟨child, hmem, by omega, rfl⟩
      simp [hdead child hmem hid]
    simp [SupervisorLogic.pendingBatchRestartComplete, hb, hdrop, Nat.not_lt.mp hle] at hinc

/-- `terminate_children` in a batch over `scope`, with `ids` still to go: only children in scope were marked, and every
child of the batch is marked or still to go. -/
structure Terminating (s : Supervisor) (scope ids : List String) (s₁ : Supervisor) : Prop where
  reverse : s₁.remoteActorToId = s.remoteActorToId
  marked : ∃ marked, (∀ id ∈ marked, id ∈ scope) ∧ s₁.logic.children = s.logic.children.map (onIds marked .dead)
  within : ∀ id ∈ ids, id ∈ scope ∧ ∃ child ∈ s₁.logic.children, child.policy.id = id
  batch : Wedged s₁.logic ∨ ∀ b, s₁.logic.pendingBatchRestart = some b →
    (∀ id ∈ s₁.logic.batchIds b, id ∈ scope) ∧ ∀ child ∈ s₁.logic.children,
      child.policy.id ∈ s₁.logic.batchIds b → child.policy.id ∈ ids ∨ child.isAlive = false

/-- Since `s`, only children in scope have been touched. A reverse entry of another child may have been taken over by a
child of the scope that was restarted already. -/
structure Frame (s : Supervisor) (scope : List String) (c : Conf) : Prop where
  handler : ∀ index specs, c.todo ≠ .start index specs
  view : ∀ id, id ∉ scope → c.sup.view id = s.view id
  restarts : ∀ id ∈ c.todo.toRestart, id ∈ scope
  kept : ∀ id, id ∉ scope → ∀ n, s.remoteActorToId n = some id → c.sup.remoteActorToId n = some id ∨
    ∃ child ∈ c.sup.logic.children,
      child.policy.id ∈ scope ∧ child.policy.id ∉ c.todo.toRestart ∧ child.slotId = some n
  added : ∀ id, id ∉ scope → ∀ n, c.sup.remoteActorToId n = some id → s.remoteActorToId n = some id
  terminating : ∀ ids, c.todo = .terminate ids → Terminating s scope ids c.sup
  idle : c.todo = .idle → c.sup.logic.pendingBatchRestart = none ∨ Wedged c.sup.logic

variable {scope : List String}

/-- Changes to other children do not show in the entries of a child. -/
theorem entries_of_map {l l' : SupervisorLogic} {f : SupervisedChild → SupervisedChild}
    (hl : l'.children = l.children.map f) (hp : ∀ c, (f c).policy = c.policy) {id : String}
    (hf : ∀ c : SupervisedChild, c.policy.id = id → f c = c) : l'.entries id = l.entries id := by
  unfold SupervisorLogic.entries
  rw [hl, List.filter_map]
  have hcomp : ((fun c : SupervisedChild => c.policy.id == id) ∘ f) = fun c => c.policy.id == id := by
    funext c
    simp [hp]
  rw [hcomp]
  conv_rhs => rw [← List.map_id (List.filter _ _)]
  refine List.map_congr_left fun c hc => ?_
  exact hf c (by simpa using (List.mem_filter.mp hc).2)

/-- Marking by the actor the tables name for a child marks that child. -/
theorem Tracks.mark (h : Tracks c) (hd : c.sup.logic.Unambiguous) {id : String} {n : ActorId}
    (hmem : ∃ child ∈ c.sup.logic.children, child.policy.id = id) (hn : c.sup.tracked id = some n) :
    (c.sup.logic.markChildDead n).children = c.sup.logic.children.map (onIds [id] .dead) := by
  obtain ⟨child, hchild, rfl⟩ := hmem
  exact markChildDead_onIds h.ids hd hchild ((h.slots child hchild).1.trans hn)

/-- Marking changes neither the ids nor what the slots hold. -/
theorem ids_of_marks {l l' : SupervisorLogic} {ids : List String} (hl : l'.children = l.children.map (onIds ids .dead)) :
    l'.children.map (·.policy.id) = l.children.map (·.policy.id) := by
  rw [hl, List.map_map]
  exact List.map_congr_left fun c _ => by simp

theorem unambiguous_of_marks {l l' : SupervisorLogic} {ids : List String} (h : l.Unambiguous)
    (hl : l'.children = l.children.map (onIds ids .dead)) : l'.Unambiguous := by
  have hslots : l'.children.map (·.slotId) = l.children.map (·.slotId) := by
    rw [hl, List.map_map]
    exact List.map_congr_left fun c _ => onIds_dead_slotId ids c
  unfold SupervisorLogic.Unambiguous
  rw [hslots]
  exact h

theorem Terminating.slots {ids : List String} (h : Terminating s scope ids s') (hd : s.logic.Unambiguous) :
    s'.logic.Unambiguous := by
  obtain ⟨marked, -, hl⟩ := h.marked
  exact unambiguous_of_marks hd hl

/-- One child of the loop is marked. -/
theorem Terminating.mark {s₁ : Supervisor} {id : String} {ids : List String}
    (h : Terminating s scope (id :: ids) s₁) {l : SupervisorLogic}
    (hl : l.children = s₁.logic.children.map (onIds [id] .dead))
    (hp : l.pendingBatchRestart = s₁.logic.pendingBatchRestart) :
    Terminating s scope ids (s₁.withLogic l) := by
  have hpol : l.children.map (·.policy) = s₁.logic.children.map (·.policy) := by
    rw [hl, List.map_map]
    exact List.map_congr_left fun c _ => onIds_dead_policy [id] c
  obtain ⟨marked, hmarked, hchildren⟩ := h.marked
  refine ⟨h.reverse, ⟨id :: marked, ?_, ?_⟩, ?_, ?_⟩
  · intro id' hid'
    rcases List.mem_cons.mp hid' with rfl | hid'
    · exact (h.within id' (List.mem_cons_self ..)).1
    · exact hmarked id' hid'
  · rw [withLogic_logic, hl, hchildren, List.map_map, onIds_dead_append]
    rfl
  · intro id' hid'
    obtain ⟨hin, child, hchild, heq⟩ := h.within id' (List.mem_cons_of_mem _ hid')
    refine ⟨hin, onIds [id] .dead child, ?_, by simpa using heq⟩
    rw [withLogic_logic, hl]
    exact List.mem_map_of_mem hchild
  · rcases h.batch with ⟨k, hk, hlt⟩ | hbatch
    · exact Or.inl ⟨k, hp.trans hk, by simpa [hl] using hlt⟩
    · refine Or.inr fun b hb => ?_
      obtain ⟨hids, hdead⟩ := hbatch b (hp ▸ hb)
      rw [withLogic_logic, batchIds_congr hpol]
      refine ⟨hids, fun child hchild hid => ?_⟩
      rw [hl] at hchild
      obtain ⟨old, hold, rfl⟩ := List.mem_map.mp hchild
      rw [onIds_dead_policy] at hid ⊢
      by_cases he : old.policy.id = id
      · exact Or.inr (by simp [onIds, he])
      · rcases hdead old hold hid with hmem | hdead
        · exact Or.inl ((List.mem_cons.mp hmem).resolve_left he)
        · exact Or.inr (by simpa [onIds, he] using hdead)

/-- A child of the loop that is dead already is passed over. -/
theorem Terminating.pass {s₁ : Supervisor} {id : String} {ids : List String}
    (h : Terminating s scope (id :: ids) s₁)
    (hdead : ∀ child ∈ s₁.logic.children, child.policy.id = id → child.isAlive = false) :
    Terminating s scope ids s₁ := by
  refine ⟨h.reverse, h.marked, fun id' hid' => h.within id' (List.mem_cons_of_mem _ hid'), ?_⟩
  rcases h.batch with hw | hbatch
  · exact Or.inl hw
  · refine Or.inr fun b hb => ?_
    obtain ⟨hids, hmarked⟩ := hbatch b hb
    refine ⟨hids, fun child hchild hid => ?_⟩
    rcases hmarked child hchild hid with hmem | hm
    · rcases List.mem_cons.mp hmem with he | hmem
      · exact Or.inr (hdead child hchild he)
      · exact Or.inl hmem
    · exact Or.inr hm

/-- The engine's changes to children in scope do not show in the view of another child. -/
theorem view_withLogic {l : SupervisorLogic} {id : String} (he : l.entries id = s.logic.entries id)
    (hb : l.backoffAttempts id = s.logic.backoffAttempts id) : (s.withLogic l).view id = s.view id := by
  simp only [view, withLogic_logic, he, hb]
  rfl

theorem entries_onIds {l l' : SupervisorLogic} {ids : List String} {f : SupervisedChild → SupervisedChild}
    (hl : l'.children = l.children.map (onIds ids f)) (hp : ∀ c, (f c).policy = c.policy) {id : String}
    (hid : id ∉ ids) : l'.entries id = l.entries id := by
  refine entries_of_map hl (fun c => ?_) (fun c hc => ?_)
  · unfold onIds
    split_ifs
    · exact hp c
    · rfl
  · unfold onIds
    rw [if_neg (hc ▸ hid)]

theorem entries_renewed {l l' : SupervisorLogic} {id id' : String} {slot : ChildHandleSlot}
    (hl : l'.children = l.children.map (fun c => if c.policy.id = id then c.renewed slot else c)) (hid : id' ≠ id) :
    l'.entries id' = l.entries id' := by
  refine entries_of_map hl (fun c => ?_) (fun c hc => ?_)
  · split_ifs <;> rfl
  · rw [if_neg (hc ▸ hid)]

theorem mem_renewed {l l' : SupervisorLogic} {id : String} {slot : ChildHandleSlot}
    (hl : l'.children = l.children.map (fun c => if c.policy.id = id then c.renewed slot else c))
    {child : SupervisedChild} (hchild : child ∈ l.children) (hid : child.policy.id ≠ id) : child ∈ l'.children := by
  rw [hl]
  exact List.mem_map.mpr ⟨child, hchild, by rw [if_neg hid]⟩

theorem entries_removed {l l' : SupervisorLogic} {id id' : String}
    (hl : l'.children = l.children.filter (·.policy.id != id)) (hid : id' ≠ id) : l'.entries id' = l.entries id' := by
  unfold SupervisorLogic.entries
  rw [hl, List.filter_filter]
  refine List.filter_congr fun c _ => ?_
  by_cases hc : c.policy.id = id'
  · simp [hc, hid]
  · simp [hc]

/-- A step of `terminate_children` that marks its child. -/
theorem Frame.terminate {s₁ : Supervisor} {id : String} {ids : List String}
    (h : Frame s scope ⟨s₁, .terminate (id :: ids)⟩) (ht : Tracks ⟨s₁, .terminate (id :: ids)⟩)
    (hd : s.logic.Unambiguous) {n : ActorId} (hn : s₁.tracked id = some n) :
    Frame s scope ⟨s₁.withLogic (s₁.logic.markChildDead n), .terminate ids⟩ := by
  have hterm := h.terminating _ rfl
  obtain ⟨hin, hmem⟩ := hterm.within id (List.mem_cons_self ..)
  have hl := ht.mark (hterm.slots hd) hmem hn
  refine ⟨by simp, ?_, by simp [Todo.toRestart], ?_, h.added, ?_, fun he => (by cases he)⟩
  · intro id' hid'
    have hne : id' ∉ [id] := fun he => hid' (List.mem_singleton.mp he ▸ hin)
    rw [view_withLogic (entries_onIds hl (fun c => rfl) hne) (by simp)]
    exact h.view id' hid'
  · intro id' hid' m hm
    rcases h.kept id' hid' m hm with hkept | ⟨child, hchild, hcin, hcnot, hslot⟩
    · exact Or.inl hkept
    · refine Or.inr ⟨onIds [id] .dead child, ?_, by simpa using hcin, by simp [Todo.toRestart], ?_⟩
      · rw [withLogic_logic, hl]
        exact List.mem_map_of_mem hchild
      · rw [onIds_dead_slotId]
        exact hslot
  · intro ids' he
    cases he
    exact hterm.mark hl (by simp)

/-- Passing on to another stage without touching anything. -/
theorem Frame.pass {s₁ : Supervisor} {todo todo' : Todo} (h : Frame s scope ⟨s₁, todo⟩)
    (hstart : ∀ index specs, todo' ≠ .start index specs) (hsub : ∀ id ∈ todo'.toRestart, id ∈ todo.toRestart)
    (hterm : ∀ ids, todo' = .terminate ids → Terminating s scope ids s₁)
    (hidle : todo' = .idle → s₁.logic.pendingBatchRestart = none ∨ Wedged s₁.logic) : Frame s scope ⟨s₁, todo'⟩ := by
  refine ⟨hstart, h.view, fun id hid => h.restarts id (hsub id hid), ?_, h.added, hterm, hidle⟩
  intro id hid n hn
  rcases h.kept id hid n hn with hkept | ⟨child, hchild, hcin, hcnot, hslot⟩
  · exact Or.inl hkept
  · exact Or.inr ⟨child, hchild, hcin, fun hmem => hcnot (hsub _ hmem), hslot⟩

/-- A restart of a child in scope. -/
theorem Frame.renew {s₁ s₂ : Supervisor} {id : String} {ids : List String} (h : Frame s scope ⟨s₁, .relaunch id ids⟩)
    (ht : Tracks ⟨s₁, .relaunch id ids⟩)
    (hview : ∀ id', id' ≠ id → s₂.view id' = s₁.view id')
    (hchild : ∀ child ∈ s₁.logic.children, child.policy.id ≠ id → child ∈ s₂.logic.children)
    (hkept : ∀ id', id' ≠ id → ∀ n, s₁.remoteActorToId n = some id' → s₂.remoteActorToId n = some id' ∨
      ∃ child ∈ s₂.logic.children, child.policy.id = id ∧ child.slotId = some n)
    (hadded : ∀ id', id' ≠ id → ∀ n, s₂.remoteActorToId n = some id' → s₁.remoteActorToId n = some id') :
    Frame s scope ⟨s₂, .restart ids⟩ := by
  have hin : id ∈ scope := h.restarts id (List.mem_cons_self ..)
  obtain ⟨hnot, -⟩ := List.nodup_cons.mp ht.restarts.1
  have hne : ∀ id', id' ∉ scope → id' ≠ id := fun id' hid' he => hid' (he ▸ hin)
  refine ⟨by simp, fun id' hid' => (hview id' (hne id' hid')).trans (h.view id' hid'),
    fun id' hid' => h.restarts id' (List.mem_cons_of_mem _ hid'), ?_,
    fun id' hid' n hn => h.added id' hid' n (hadded id' (hne id' hid') n hn), fun _ he => (by cases he),
    fun he => (by cases he)⟩
  intro id' hid' n hn
  rcases h.kept id' hid' n hn with hk | ⟨child, hc, hcin, hcnot, hslot⟩
  · rcases hkept id' (hne id' hid') n hk with hk | ⟨child, hc, hcid, hslot⟩
    · exact Or.inl hk
    · exact Or.inr ⟨child, hc, hcid ▸ hin, hcid ▸ hnot, hslot⟩
  · have hcnot' : child.policy.id ∉ id :: ids := hcnot
    rw [List.mem_cons, not_or] at hcnot'
    exact Or.inr ⟨child, hchild child hc hcnot'.1, hcin, hcnot'.2, hslot⟩

/-- Everything a handler does after the exit was attributed stays in scope. -/
theorem frame_step (h : Frame s scope c) (ht : Tracks c) (ho : OrderInv c) (hp : PendingInv c)
    (hd : s.logic.Unambiguous) (hexit : act.exit = none) (hstep : Micro ctx c act c') : Frame s scope c' := by
  have hhandler := h.handler
  cases hstep with
  | startLocal => exact absurd rfl (hhandler _ _)
  | startNoWire => exact absurd rfl (hhandler _ _)
  | startFailed => exact absurd rfl (hhandler _ _)
  | startRemote => exact absurd rfl (hhandler _ _)
  | started => exact absurd rfl (hhandler _ _)
  | note => cases hexit
  | ignore => cases hexit
  | restartOne => cases hexit
  | terminateBatch => cases hexit
  | meltdown => cases hexit
  | terminateRemote answer hremote halive => exact h.terminate ht hd (by simp [tracked, hremote])
  | @terminateRemoteDead s₁ id ids remote hremote halive =>
    refine h.pass (by simp) (by simp [Todo.toRestart]) (fun ids' he => ?_) (fun he => by cases he)
    cases he
    refine (h.terminating _ rfl).pass fun child hchild hid => ?_
    have hany := List.any_eq_false.mp halive child hchild
    simpa [hid] using hany
  | terminateLocal reason hremote hlocal hτ => exact h.terminate ht hd (by simp [tracked, hremote, hlocal])
  | @terminateNone s₁ id ids hremote hlocal =>
    refine h.pass (by simp) (by simp [Todo.toRestart]) (fun ids' he => ?_) (fun he => by cases he)
    cases he
    refine (h.terminating _ rfl).pass fun child hchild hid => ?_
    obtain ⟨hslot, hsome⟩ := ht.slots child hchild
    rw [hslot, hid] at hsome
    simp [tracked, hremote, hlocal] at hsome
  | @incomplete s₁ hinc =>
    refine h.pass (by simp) (by simp [Todo.toRestart]) (fun ids' he => by cases he) (fun _ => ?_)
    rcases (h.terminating _ rfl).batch with hw | hbatch
    · exact Or.inr hw
    · cases hb : s₁.logic.pendingBatchRestart with
      | none => exact Or.inl rfl
      | some b =>
        refine Or.inr (wedged_of_incomplete ho.ordered hb hinc fun child hchild hid => ?_)
        exact ((hbatch b hb).2 child hchild hid).resolve_left List.not_mem_nil
  | @complete s₁ ids logic hdone htake =>
    obtain ⟨b, hb, rfl, rfl⟩ := take_complete htake
    rcases (h.terminating _ rfl).batch with hw | hbatch
    · rw [hw.incomplete] at hdone
      cases hdone
    · obtain ⟨hids, -⟩ := hbatch b hb
      refine ⟨by simp, h.view, fun id hid => hids id (mem_restartOrder.mp hid), fun id hid n hn => Or.inl ?_, h.added,
        fun _ he => (by cases he), fun he => (by cases he)⟩
      rw [withLogic_remoteActorToId, (h.terminating _ rfl).reverse]
      exact hn
  | @backoff s₁ id ids delay logic hdelay =>
    obtain rfl : (s₁.logic.backoffDelay id (s₁.backoffFor id)).2 = logic := by rw [hdelay]
    have hin : id ∈ scope := h.restarts id (List.mem_cons_self ..)
    refine ⟨by simp, fun id' hid' => ?_, h.restarts, ?_, h.added, fun _ he => (by cases he), fun he => (by cases he)⟩
    · have hne : id' ≠ id := fun he => hid' (he ▸ hin)
      have hentries : (s₁.logic.backoffDelay id (s₁.backoffFor id)).2.entries id' = s₁.logic.entries id' := by
        simp [SupervisorLogic.entries]
      rw [view_withLogic hentries (SupervisorLogic.backoffDelay_attempts_ne _ _ _ hne)]
      exact h.view id' hid'
    · simp only [withLogic_logic, SupervisorLogic.backoffDelay_children]
      exact h.kept
  | relaunchNone hmeta hspec =>
    exact h.pass (by simp) (fun id hid => List.mem_cons_of_mem _ hid) (fun _ he => by cases he) (fun he => by cases he)
  | @relaunchLocal s₁ id ids spec handle hmeta hspec =>
    have hl := replaceChildHandle_children ht.ids id { id := handle.id, alive := true }
    refine h.renew ht (fun id' hid' => ?_) (fun child hchild hid => ?_) (fun _ _ n hn => Or.inl hn) (fun _ _ n hn => hn)
    · simp [view, Table.insert_ne _ _ hid', entries_renewed hl hid']
    · exact mem_renewed hl hchild hid
  | @relaunchFailed s₁ id ids spawned error hmeta =>
    have hl := SupervisorLogic.removeChildById_children ht.ids id
    refine h.renew ht (fun id' hid' => ?_) (fun child hchild hid => ?_) (fun id' hid' n hn => Or.inl ?_)
      (fun id' hid' n hn => ?_)
    · have hentries : (s₁.logic.removeChildById id).entries id' = s₁.logic.entries id' := entries_removed hl hid'
      simp only [view, remoteDropped_logic, remoteForgotten_logic, hentries, remoteDropped_remoteSpawnMeta,
        Table.remove_ne _ hid', remoteDropped_remoteHandles, remoteForgotten_remoteHandles]
      rfl
    · rw [remoteDropped_logic, remoteForgotten_logic, hl]
      simpa [hid] using hchild
    · exact forgotten_reverse.mpr ⟨hn, hid'⟩
    · exact (forgotten_reverse.mp hn).1
  | @relaunchRemote s₁ id ids spawned address hmeta =>
    have hl := replaceChildHandle_children ht.ids id { id := address.actorId, alive := true }
    refine h.renew ht (fun id' hid' => ?_) (fun child hchild hid => ?_) (fun id' hid' n hn => ?_)
      (fun id' hid' n hn => ?_)
    · simp [view, Table.insert_ne _ _ hid', Table.remove_ne _ hid', entries_renewed hl hid']
    · exact mem_renewed hl hchild hid
    · by_cases hna : n = address.actorId
      · -- the entry is taken over by the child just restarted
        obtain ⟨child, hchild, hcid⟩ := ht.restarts.2 id (List.mem_cons_self ..)
        refine Or.inr ⟨child.renewed { id := address.actorId, alive := true }, ?_, hcid, by rw [hna]; rfl⟩
        rw [remoteRestarted_logic, remoteForgotten_logic, hl]
        exact List.mem_map.mpr ⟨child, hchild, by rw [if_pos hcid]⟩
      · left
        rw [remoteRestarted_remoteActorToId, Table.insert_ne _ _ hna]
        exact forgotten_reverse.mpr ⟨hn, hid'⟩
    · rw [remoteRestarted_remoteActorToId, Table.insert_apply] at hn
      split_ifs at hn with hna
      · exact absurd (Option.some.inj hn).symm hid'
      · exact (forgotten_reverse.mp hn).1
  | restarted =>
    exact h.pass (by simp) (by simp [Todo.toRestart]) (fun _ he => by cases he) (fun _ => Or.inl (hp.quiet trivial))

/-! ## A handler -/

/-- The invariant between two callbacks. -/
structure AddressInv (s : Supervisor) : Prop where
  tracks : Tracks ⟨s, .idle⟩
  order : OrderInv ⟨s, .idle⟩
  pending : PendingInv ⟨s, .idle⟩
  wedged : s.logic.pendingBatchRestart = none ∨ Wedged s.logic

/-- The first step of a handler marks the child the exit is attributed to. -/
theorem Frame.attribute (h : Tracks ⟨s, .idle⟩) (hd : s.logic.Unambiguous) {actorId : ActorId} {p : Nat}
    {child : SupervisedChild} (hp : s.logic.childIndexByActor actorId = some p)
    (hc : s.logic.children[p]? = some child) {l : SupervisorLogic} {todo : Todo}
    (hl : l.children = (s.logic.markChildDead actorId).children)
    (hb : ∀ id, id ≠ child.policy.id → l.backoffAttempts id = s.logic.backoffAttempts id)
    (hstart : ∀ index specs, todo ≠ .start index specs) (hr : ∀ id ∈ todo.toRestart, id ∈ s.logic.restartScope child)
    (hterm : ∀ ids, todo = .terminate ids → l.children = s.logic.children.map (onIds [child.policy.id] .dead) →
      Terminating s (s.logic.restartScope child) ids (s.withLogic l))
    (hidle : todo = .idle → l.pendingBatchRestart = none ∨ Wedged l) :
    child ∈ s.logic.children ∧ child.handle = some { id := actorId, alive := true } ∧
      Frame s (s.logic.restartScope child) ⟨s.withLogic l, todo⟩ := by
  obtain ⟨child', hc', hslot⟩ := SupervisorLogic.childIndexByActor_eq_some hp
  obtain rfl : child = child' := Option.some.inj (hc.symm.trans hc')
  have hmem := List.mem_of_getElem? hc
  have hself := self_mem_restartScope hmem
  have hn : s.tracked child.policy.id = some actorId := by
    rw [← (h.slots child hmem).1, SupervisedChild.slotId, hslot]
    rfl
  have hl' : l.children = s.logic.children.map (onIds [child.policy.id] .dead) := by
    rw [hl]
    exact h.mark hd ⟨child, hmem, rfl⟩ hn
  refine ⟨hmem, hslot, hstart, fun id hid => ?_, hr, fun id hid n hn => Or.inl hn, fun id hid n hn => hn,
    fun ids he => hterm ids he hl', hidle⟩
  have hne : id ≠ child.policy.id := fun he => hid (he ▸ hself)
  exact view_withLogic (entries_onIds hl' (fun _ => rfl) (by simpa using hne)) (hb id hne)

/-- `terminate_children` begins with the ids of the batch. -/
theorem Terminating.begin {child : SupervisedChild} (hmem : child ∈ s.logic.children) {l : SupervisorLogic}
    {b : BatchRestart} (hl : l.children = s.logic.children.map (onIds [child.policy.id] .dead))
    (hp : l.pendingBatchRestart = some b)
    (hb : (s.logic.strategy = .oneForAll ∧ b = .all) ∨
      (s.logic.strategy = .restForOne ∧ b = .fromIndex child.policy.startIndex)) :
    Terminating s (s.logic.restartScope child) (l.batchIds b) (s.withLogic l) := by
  have hpol : l.children.map (·.policy) = s.logic.children.map (·.policy) := by
    rw [hl, List.map_map]
    exact List.map_congr_left fun c _ => onIds_dead_policy _ c
  have hids : l.batchIds b = s.logic.restartScope child := by
    rw [batchIds_congr hpol, batchIds_scope hb]
  refine ⟨rfl, ⟨[child.policy.id], ?_, hl⟩, fun id hid => ⟨hids ▸ hid, mem_batchIds hid⟩, Or.inr fun b' hb' => ?_⟩
  · intro id hid
    rw [List.mem_singleton.mp hid]
    exact self_mem_restartScope hmem
  · obtain rfl := Option.some.inj (hp.symm.trans hb')
    exact ⟨fun id hid => hids ▸ hid, fun c _ hid => Or.inl hid⟩

/-- The first transition of a handler: nothing happened, or the child the exit is attributed to was marked. -/
theorem frame_begin {exit : Exit} (h : AddressInv s) (hd : s.logic.Unambiguous) (hexit : act.exit = some exit)
    (hstep : Micro ctx ⟨s, .idle⟩ act c) :
    (c.sup = s ∧ (c.todo = .idle ∨ c.todo = .terminate [] ∧ Wedged s.logic)) ∨
      ∃ child ∈ s.logic.children, child.handle = some { id := exit.from.actorId, alive := true } ∧
        Frame s (s.logic.restartScope child) c := by
  generalize hc : (⟨s, .idle⟩ : Conf) = c₀ at hstep
  cases hstep with
  | note exit' hs =>
    cases hc
    cases hexit
    have hw : Wedged s.logic := by
      refine h.wedged.resolve_left fun hnone => ?_
      have hsup := h.pending.suppress
      rw [hs, hnone] at hsup
      cases hsup
    cases hp : s.logic.childIndexByActor exit.from.actorId with
    | none =>
      refine Or.inl ⟨?_, Or.inr ⟨rfl, hw⟩⟩
      simp [SupervisorLogic.noteExitDuringBatch, SupervisorLogic.markChildDead, hp, withLogic]
    | some p =>
      obtain ⟨child, hc, -⟩ := SupervisorLogic.childIndexByActor_eq_some hp
      refine Or.inr ⟨child, Frame.attribute h.tracks hd hp hc rfl (fun id _ => ?_) (by simp) (by simp [Todo.toRestart])
        (fun ids he hl => ?_) (fun he => by cases he)⟩
      · simp [SupervisorLogic.noteExitDuringBatch]
      · cases he
        refine ⟨rfl, ⟨[child.policy.id], ?_, hl⟩, by simp, Or.inl ?_⟩
        · intro id hid
          rw [List.mem_singleton.mp hid]
          exact self_mem_restartScope (List.mem_of_getElem? hc)
        · obtain ⟨k, hk, hlt⟩ := hw
          exact ⟨k, by simpa [SupervisorLogic.noteExitDuringBatch] using hk,
            by simpa [SupervisorLogic.noteExitDuringBatch] using hlt⟩
  | ignore exit' now hs hact =>
    cases hc
    cases hexit
    cases SupervisorLogic.decides_of_onChildExit hact with
    | suppressed => exact Or.inl ⟨rfl, Or.inl rfl⟩
    | unknown => exact Or.inl ⟨rfl, Or.inl rfl⟩
    | @final p child hp hc hr =>
      refine Or.inr ⟨child, Frame.attribute h.tracks hd hp hc rfl (fun id hid => ?_) (by simp)
        (by simp [Todo.toRestart]) (fun ids he => by cases he) (fun _ => Or.inl ?_)⟩
      · simp [SupervisorLogic.resetBackoff, Table.remove_ne _ hid]
      · simpa [SupervisorLogic.resetBackoff] using h.pending.none_of_unsuppressed hs
  | restartOne exit' now hs hact =>
    cases hc
    cases hexit
    cases SupervisorLogic.decides_of_onChildExit hact with
    | @restartOne p child hr hst =>
      refine Or.inr ⟨child, Frame.attribute h.tracks hd hr.index hr.child_eq rfl (fun id hid => ?_) (by simp)
        (fun id hid => ?_) (fun ids he => by cases he) (fun he => by cases he)⟩
      · simp [SupervisorLogic.recorded]
      · rw [List.mem_singleton.mp hid]
        exact self_mem_restartScope (List.mem_of_getElem? hr.child_eq)
  | terminateBatch exit' now hs hact =>
    cases hc
    cases hexit
    cases SupervisorLogic.decides_of_onChildExit hact with
    | @all p child hr hst =>
      refine Or.inr ⟨child, Frame.attribute h.tracks hd hr.index hr.child_eq rfl (fun id hid => ?_) (by simp)
        (by simp [Todo.toRestart]) (fun ids he hl => ?_) (fun he => by cases he)⟩
      · simp [SupervisorLogic.recorded]
      · cases he
        exact Terminating.begin (List.mem_of_getElem? hr.child_eq) hl rfl (Or.inl ⟨hst, rfl⟩)
    | @rest p child hr hst =>
      refine Or.inr ⟨child, Frame.attribute h.tracks hd hr.index hr.child_eq rfl (fun id hid => ?_) (by simp)
        (by simp [Todo.toRestart]) (fun ids he hl => ?_) (fun he => by cases he)⟩
      · simp [SupervisorLogic.recorded]
      · cases he
        exact Terminating.begin (List.mem_of_getElem? hr.child_eq) hl rfl (Or.inr ⟨hst, rfl⟩)
  | meltdown exit' now hs hact =>
    cases hc
    cases hexit
    cases SupervisorLogic.decides_of_onChildExit hact with
    | @meltdown p child hp hc hr hi =>
      refine Or.inr ⟨child, Frame.attribute h.tracks hd hp hc rfl (fun id hid => ?_) (by simp)
        (by simp [Todo.toRestart]) (fun ids he => by cases he) (fun _ => Or.inl ?_)⟩
      · simp [SupervisorLogic.recorded]
      · simpa [SupervisorLogic.recorded] using h.pending.none_of_unsuppressed hs
  | _ => cases hc

/-- The states an unattributed exit passes through. -/
theorem unattributed_run {hist : List (Conf × Act)} (h : Run (Micro ctx) c hist c')
    (hsilent : ∀ x ∈ hist, x.2.exit = none)
    (hc : c.sup = s ∧ (c.todo = .idle ∨ c.todo = .terminate [] ∧ Wedged s.logic)) : c'.sup = s := by
  refine (h.inv_of_steps (P := fun _ act => act.exit = none)
    (I := fun c => c.sup = s ∧ (c.todo = .idle ∨ c.todo = .terminate [] ∧ Wedged s.logic)) hc ?_ hsilent).1
  rintro ⟨s₁, todo⟩ act c₂ ⟨rfl, htodo⟩ hexit hstep
  rcases htodo with rfl | ⟨rfl, hw⟩
  · generalize hc : (⟨s₁, .idle⟩ : Conf) = c₁ at hstep
    cases hstep with
    | note => cases hexit
    | ignore => cases hexit
    | restartOne => cases hexit
    | terminateBatch => cases hexit
    | meltdown => cases hexit
    | _ => cases hc
  · generalize hc : (⟨s₁, .terminate []⟩ : Conf) = c₁ at hstep
    cases hstep with
    | incomplete hinc =>
      cases hc
      exact ⟨rfl, Or.inl rfl⟩
    | complete hdone htake =>
      cases hc
      rw [hw.incomplete] at hdone
      cases hdone
    | _ => cases hc

/-- A child outside the scope keeps its reverse entries, if no two slots hold the same id in the end. -/
theorem Frame.reverse (h : Frame s scope ⟨s', .idle⟩) (ht : Tracks ⟨s, .idle⟩) (hd : s'.logic.Unambiguous)
    {other : SupervisedChild} (hmem : other ∈ s.logic.children) (hid : other.policy.id ∉ scope) :
    s'.reverse other.policy.id = s.reverse other.policy.id := by
  ext n
  refine ⟨h.added _ hid n, fun hn => ?_⟩
  rcases h.kept _ hid n hn with hk | ⟨child, hchild, hcin, -, hslot⟩
  · exact hk
  · -- the child that took the entry over would now hold the id of this one
    obtain ⟨remote, hremote, hrn⟩ := ht.reverse n _ hn
    have hslot' : other.slotId = some n := by
      rw [(ht.slots other hmem).1, tracked]
      simp only [show s.remoteHandles other.policy.id = some remote from hremote, hrn]
    have hentries : other ∈ s'.logic.entries other.policy.id := by
      rw [show s'.logic.entries other.policy.id = s.logic.entries other.policy.id from
        congrArg View.entries (h.view _ hid)]
      exact List.mem_filter.mpr ⟨hmem, by simp⟩
    have hmem' : other ∈ s'.logic.children := (List.mem_filter.mp hentries).1
    obtain rfl := List.inj_on_of_nodup_map hd hchild hmem' (hslot.trans hslot'.symm)
    exact absurd hcin hid

/-- A handled exit keeps the invariant and reacts to the right actor. -/
theorem AddressInv.exec_handleExit {exit : Exit} {τ : SupTrace} (h : AddressInv s) (hd : s.logic.Unambiguous)
    (hatt : s.Attributed ctx exit) (hx : (Tasks.Supervisor.handleExit ctx s exit).Exec τ s') :
    AddressInv s' ∧ (s'.logic.Unambiguous → s.Reacts ctx exit s') := by
  obtain ⟨act, c, τ', hstep, hexit, -, hist, hrun, -, hsilent⟩ := machine_of_handleExit hx
  have htracks := tracks_step h.tracks hstep
  have horder := orderInv_step h.order hstep
  have hpending := pendingInv_step h.pending hstep
  rcases frame_begin h hd hexit hstep with hnone | ⟨child, hmem, hslot, hframe⟩
  · obtain rfl : s' = s := unattributed_run hrun hsilent hnone
    exact ⟨h, fun _ => Or.inl rfl⟩
  · have hinv := hrun.inv_of_steps (P := fun _ act => act.exit = none)
      (I := fun c => Tracks c ∧ OrderInv c ∧ PendingInv c ∧ Frame s (s.logic.restartScope child) c)
      ⟨htracks, horder, hpending, hframe⟩ (fun c₁ act₁ c₂ hi he hs => ⟨tracks_step hi.1 hs, orderInv_step hi.2.1 hs,
        pendingInv_step hi.2.2.1 hs, frame_step hi.2.2.2 hi.1 hi.2.1 hi.2.2.1 hd he hs⟩) hsilent
    obtain ⟨htracks', horder', hpending', hframe'⟩ := hinv
    refine ⟨⟨htracks', horder', hpending', hframe'.idle rfl⟩, fun hd' => Or.inr ⟨child, hmem, hatt child hmem hslot, ?_⟩⟩
    exact fun other hother hid => ⟨hframe'.view _ hid, hframe'.reverse h.tracks hd' hother hid⟩

/-! ## Whole lives -/

/-- The start loop begins no batch. -/
theorem pending_none_of_start {b : SupervisorBuilder} {hist : List (Conf × Act)}
    (h : Run (Micro ctx) ⟨b.build, .start 0 b.specs⟩ hist c) (hsilent : ∀ x ∈ hist, x.2.exit = none) :
    c.sup.logic.pendingBatchRestart = none := by
  refine (h.inv_of_steps (P := fun _ act => act.exit = none) (I := fun c => c.sup.logic.pendingBatchRestart = none ∧
    (c.todo = .idle ∨ ∃ index specs, c.todo = .start index specs)) ⟨rfl, Or.inr ⟨_, _, rfl⟩⟩ ?_ hsilent).1
  rintro c₁ act c₂ ⟨hp, htodo⟩ hexit hstep
  cases hstep with
  | startLocal => exact ⟨hp, Or.inr ⟨_, _, rfl⟩⟩
  | startNoWire => exact ⟨hp, Or.inr ⟨_, _, rfl⟩⟩
  | startFailed => exact ⟨hp, Or.inr ⟨_, _, rfl⟩⟩
  | startRemote => exact ⟨hp, Or.inr ⟨_, _, rfl⟩⟩
  | started => exact ⟨hp, Or.inl rfl⟩
  | note => cases hexit
  | ignore => cases hexit
  | restartOne => cases hexit
  | terminateBatch => cases hexit
  | meltdown => cases hexit
  | _ => simp at htodo

/-- The condition on a turn: bare ids are unambiguous, and an exit with the bare id of a live child is that child's. -/
def Recognizable (ctx : Context) (x : Serving Supervisor × Turn Empty Empty) : Prop :=
  x.1.state.logic.Unambiguous ∧ ∀ exit, x.2.event = .exit exit → x.1.state.Attributed ctx exit

theorem addressInv_lives {rt : Runtime} {b : SupervisorBuilder} {τ₀ : SupTrace}
    {hist : List (Serving Supervisor × Turn Empty Empty)} {p : Serving Supervisor}
    (hids : (b.specs.map (·.id)).Nodup) (h : (rt.supervisor ctx).Lives b.build τ₀ hist p)
    (hr : ∀ x ∈ hist, Recognizable ctx x) : AddressInv p.state := by
  obtain ⟨s₀, hstarted, hserve⟩ := h
  rw [Runtime.supervisor_eq] at hstarted hserve
  obtain ⟨_, _, rfl, _, _, rfl, hloop⟩ := hstarted
  obtain ⟨start, hstart, -, hsilent⟩ := silent_of_startEach hloop
  have hfirst : AddressInv s₀ := by
    exact ⟨hstart.inv (tracks_init b hids) fun _ _ _ => tracks_step,
      hstart.inv (orderInv_init b) fun _ _ _ => orderInv_step, pendingInv_run hstart,
      Or.inl (pending_none_of_start hstart hsilent)⟩
  refine hserve.inv_of_steps (I := fun p => AddressInv p.state) (P := fun p turn => Recognizable ctx (p, turn)) hfirst
    (fun p turn q hi hrec hturn => ?_) hr
  cases hevent : turn.event with
  | message msg => exact nomatch msg
  | exit exit => exact (hi.exec_handleExit hrec.1 (hrec.2 exit hevent) (hturn.exit hevent)).1

/-- The static supervisor reacts to the right actor: the last turn of a life in which every turn is recognizable, if it
leaves the bare ids unambiguous. -/
theorem reacts_of_lives {rt : Runtime} {b : SupervisorBuilder} {τ₀ : SupTrace}
    {hist : List (Serving Supervisor × Turn Empty Empty)} {p q : Serving Supervisor} {turn : Turn Empty Empty}
    {exit : Exit} (hids : (b.specs.map (·.id)).Nodup) (h : (rt.supervisor ctx).Lives b.build τ₀ (hist ++ [(p, turn)]) q)
    (hevent : turn.event = .exit exit) (hr : ∀ x ∈ hist ++ [(p, turn)], Recognizable ctx x)
    (hq : q.state.logic.Unambiguous) : p.state.Reacts ctx exit q.state := by
  obtain ⟨hlives, hturn⟩ := h.last
  have hinv := addressInv_lives hids hlives fun x hx => hr x (List.mem_append_left _ hx)
  obtain ⟨hd, hatt⟩ := hr (p, turn) (by simp)
  rw [Runtime.supervisor_eq] at hturn
  exact (hinv.exec_handleExit hd (hatt exit hevent) (hturn.exit hevent)).2 hq

end Supervisor

end Spawned
