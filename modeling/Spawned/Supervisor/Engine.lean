import Spawned.Supervisor.Logic

/-!
# What the engine's operations do

One lemma per operation for the children vector (`getElem?`), and `Decides`, the inversion of `on_child_exit`: each
outcome with the guard it is reached under and the engine it leaves.
-/

namespace Spawned

open Lib

/-- The child with its slot marked dead. -/
def SupervisedChild.dead (child : SupervisedChild) : SupervisedChild :=
  { child with handle := child.handle.map (fun slot => { slot with alive := false }) }

@[simp] theorem SupervisedChild.dead_policy (child : SupervisedChild) : child.dead.policy = child.policy := rfl

@[simp] theorem SupervisedChild.dead_isAlive (child : SupervisedChild) : child.dead.isAlive = false := by
  cases h : child.handle <;> simp [SupervisedChild.isAlive, SupervisedChild.dead, h]

/-- The bare id in the child's slot. -/
def SupervisedChild.slotId (child : SupervisedChild) : Option ActorId := child.handle.map (·.id)

@[simp] theorem SupervisedChild.dead_slotId (child : SupervisedChild) : child.dead.slotId = child.slotId := by
  cases h : child.handle <;> simp [SupervisedChild.dead, SupervisedChild.slotId, h]

/-- Marking a dead child dead changes nothing. -/
theorem SupervisedChild.dead_of_not_alive {child : SupervisedChild} (h : child.isAlive = false) : child.dead = child := by
  obtain ⟨policy, slot⟩ := child
  cases slot with
  | none => rfl
  | some slot =>
    obtain ⟨id, alive⟩ := slot
    obtain rfl : alive = false := h
    rfl

/-- Where `f` tells the members of a list apart, it determines the position. -/
theorem index_unique {α β : Type} {f : α → β} {l : List α} (h : (l.map f).Nodup) {i j : Nat} {a b : α}
    (hi : l[i]? = some a) (hj : l[j]? = some b) (he : f a = f b) : i = j := by
  have hlt : i < (l.map f).length := by
    rw [List.length_map]
    exact (List.getElem?_eq_some_iff.mp hi).1
  refine (List.getElem?_inj hlt h).mp ?_
  rw [List.getElem?_map, List.getElem?_map, hi, hj, Option.map_some, Option.map_some, he]

namespace SupervisorLogic

variable (l : SupervisorLogic) (actorId : ActorId) (childId : String) (slot : ChildHandleSlot)

/-! ## Finding a child -/

variable {l actorId} in
/-- The child an exit is attributed to: the first whose slot is alive with this bare id. -/
theorem childIndexByActor_eq_some {p : Nat} (h : l.childIndexByActor actorId = some p) :
    ∃ child, l.children[p]? = some child ∧ child.handle = some { id := actorId, alive := true } := by
  obtain ⟨hp, hslot, -⟩ := List.findIdx?_eq_some_iff_getElem.mp h
  refine ⟨l.children[p], List.getElem?_eq_getElem hp, ?_⟩
  cases hh : l.children[p].handle with
  | none => simp [hh] at hslot
  | some slot =>
    obtain ⟨id, alive⟩ := slot
    obtain ⟨rfl, rfl⟩ : id = actorId ∧ alive = true := by simpa [hh] using hslot
    rfl

/-! ## Marking a child dead -/

theorem markChildDead_children :
    (l.markChildDead actorId).children =
      match l.childIndexByActor actorId with
      | some p => l.children.modify p .dead
      | none => l.children := by
  unfold markChildDead
  cases l.childIndexByActor actorId <;> rfl

theorem markChildDead_getElem? (j : Nat) :
    (l.markChildDead actorId).children[j]? =
      if l.childIndexByActor actorId = some j then (l.children[j]?).map .dead else l.children[j]? := by
  rw [markChildDead_children]
  cases h : l.childIndexByActor actorId with
  | none => simp
  | some p =>
    by_cases hp : p = j
    · subst hp; simp
    · simp [hp]

@[simp] theorem markChildDead_length : (l.markChildDead actorId).children.length = l.children.length := by
  rw [markChildDead_children]
  cases l.childIndexByActor actorId <;> simp

@[simp] theorem markChildDead_strategy : (l.markChildDead actorId).strategy = l.strategy := by
  unfold markChildDead; cases l.childIndexByActor actorId <;> rfl

@[simp] theorem markChildDead_intensity : (l.markChildDead actorId).intensity = l.intensity := by
  unfold markChildDead; cases l.childIndexByActor actorId <;> rfl

@[simp] theorem markChildDead_suppressRestarts :
    (l.markChildDead actorId).suppressRestarts = l.suppressRestarts := by
  unfold markChildDead; cases l.childIndexByActor actorId <;> rfl

@[simp] theorem markChildDead_pendingBatchRestart :
    (l.markChildDead actorId).pendingBatchRestart = l.pendingBatchRestart := by
  unfold markChildDead; cases l.childIndexByActor actorId <;> rfl

@[simp] theorem markChildDead_backoffAttempts : (l.markChildDead actorId).backoffAttempts = l.backoffAttempts := by
  unfold markChildDead; cases l.childIndexByActor actorId <;> rfl

/-- Marking changes no policy. -/
@[simp] theorem markChildDead_policies :
    (l.markChildDead actorId).children.map (·.policy) = l.children.map (·.policy) := by
  refine List.ext_getElem? fun j => ?_
  rw [List.getElem?_map, List.getElem?_map, markChildDead_getElem?]
  split_ifs
  · cases l.children[j]? <;> rfl
  · rfl

variable {l} in
/-- Where the slots hold distinct ids, marking by id marks the one child that holds it. -/
theorem markChildDead_of_distinct (h : (l.children.map (·.slotId)).Nodup) :
    (l.markChildDead actorId).children =
      l.children.map (fun c => if c.slotId = some actorId then c.dead else c) := by
  refine List.ext_getElem? fun j => ?_
  rw [markChildDead_getElem?, List.getElem?_map]
  cases hj : l.children[j]? with
  | none => split_ifs <;> rfl
  | some c =>
    by_cases hp : l.childIndexByActor actorId = some j
    · obtain ⟨d, hd, hslot⟩ := childIndexByActor_eq_some hp
      rw [hj] at hd
      cases hd
      have hid : c.slotId = some actorId := by rw [SupervisedChild.slotId, hslot]; rfl
      simp [hp, hid]
    · rw [if_neg hp]
      by_cases hid : c.slotId = some actorId
      · -- the child holds the id but was not found: it is dead
        have hdead : c.isAlive = false := by
          by_contra halive
          obtain ⟨slot, hslot, hsid⟩ := Option.map_eq_some_iff.mp hid
          have hsome : (l.childIndexByActor actorId).isSome := by
            rw [childIndexByActor, List.findIdx?_isSome]
            refine List.any_eq_true.mpr ⟨c, List.mem_of_getElem? hj, ?_⟩
            simpa [SupervisedChild.isAlive, hslot, hsid] using halive
          obtain ⟨p, hp'⟩ := Option.isSome_iff_exists.mp hsome
          obtain ⟨d, hd, hdslot⟩ := childIndexByActor_eq_some hp'
          have hpj : p = j := by
            refine index_unique h hd hj ?_
            rw [hid, SupervisedChild.slotId, hdslot]
            rfl
          exact hp (hpj ▸ hp')
        simp [hid, SupervisedChild.dead_of_not_alive hdead]
      · simp [hid]

/-! ## Replacing and removing a child -/

@[simp] theorem replaceChildHandle_suppressRestarts :
    (l.replaceChildHandle childId slot).suppressRestarts = l.suppressRestarts := by
  unfold replaceChildHandle; split <;> rfl

@[simp] theorem replaceChildHandle_pendingBatchRestart :
    (l.replaceChildHandle childId slot).pendingBatchRestart = l.pendingBatchRestart := by
  unfold replaceChildHandle; split <;> rfl

@[simp] theorem replaceChildHandle_strategy :
    (l.replaceChildHandle childId slot).strategy = l.strategy := by
  unfold replaceChildHandle; split <;> rfl

@[simp] theorem replaceChildHandle_backoffAttempts :
    (l.replaceChildHandle childId slot).backoffAttempts = l.backoffAttempts := by
  unfold replaceChildHandle; split <;> rfl

theorem replaceChildHandle_getElem? (j : Nat) :
    (l.replaceChildHandle childId slot).children[j]? =
      if l.children.findIdx? (·.policy.id == childId) = some j then
        (l.children[j]?).map (fun child => { child with handle := some slot }) else l.children[j]? := by
  unfold replaceChildHandle
  cases h : l.children.findIdx? (·.policy.id == childId) with
  | none => simp
  | some p =>
    by_cases hp : p = j
    · subst hp; simp
    · simp [hp]

/-- Replacing a slot changes no policy. -/
@[simp] theorem replaceChildHandle_policies :
    (l.replaceChildHandle childId slot).children.map (·.policy) = l.children.map (·.policy) := by
  refine List.ext_getElem? fun j => ?_
  rw [List.getElem?_map, List.getElem?_map, replaceChildHandle_getElem?]
  split_ifs
  · cases l.children[j]? <;> rfl
  · rfl

@[simp] theorem backoffDelay_children (policy : RestartBackoff) :
    (l.backoffDelay childId policy).2.children = l.children := by
  unfold backoffDelay; split_ifs <;> rfl

@[simp] theorem backoffDelay_suppressRestarts (policy : RestartBackoff) :
    (l.backoffDelay childId policy).2.suppressRestarts = l.suppressRestarts := by
  unfold backoffDelay; split_ifs <;> rfl

@[simp] theorem backoffDelay_pendingBatchRestart (policy : RestartBackoff) :
    (l.backoffDelay childId policy).2.pendingBatchRestart = l.pendingBatchRestart := by
  unfold backoffDelay; split_ifs <;> rfl

@[simp] theorem backoffDelay_strategy (policy : RestartBackoff) :
    (l.backoffDelay childId policy).2.strategy = l.strategy := by
  unfold backoffDelay; split_ifs <;> rfl

theorem backoffDelay_attempts_ne (policy : RestartBackoff) {id : String} (h : id ≠ childId) :
    (l.backoffDelay childId policy).2.backoffAttempts id = l.backoffAttempts id := by
  unfold backoffDelay
  split_ifs
  · rfl
  · exact Table.insert_ne _ _ h

/-! ## The decision -/

/-- The exit is attributed to the child at position `p`, which is to be restarted, within the intensity. -/
structure Restarts (reason : ExitReason) (now : Instant) (p : Nat) (child : SupervisedChild) : Prop where
  index : l.childIndexByActor actorId = some p
  child_eq : l.children[p]? = some child
  should : shouldRestart child.policy.restart reason = true
  accepted : (l.intensity.recordRestart now).1 = true

variable {l actorId} in
theorem Restarts.unique {reason reason' : ExitReason} {now now' : Instant} {p p' : Nat}
    {child child' : SupervisedChild} (h : l.Restarts actorId reason now p child)
    (h' : l.Restarts actorId reason' now' p' child') : p = p' ∧ child = child' := by
  obtain rfl := Option.some.inj (h.index.symm.trans h'.index)
  exact ⟨rfl, Option.some.inj (h.child_eq.symm.trans h'.child_eq)⟩

/-- The engine after an exit was attributed and recorded. -/
def recorded (now : Instant) : SupervisorLogic :=
  { l.markChildDead actorId with intensity := (l.intensity.recordRestart now).2 }

/-- What `on_child_exit` decides, and the engine it leaves. -/
inductive Decides (reason : ExitReason) (now : Instant) : SupervisorAction → SupervisorLogic → Prop
  | suppressed (h : l.suppressRestarts = true) : Decides reason now .ignore l
  | unknown (h : l.childIndexByActor actorId = none) : Decides reason now .ignore l
  | final {p : Nat} {child : SupervisedChild} (hp : l.childIndexByActor actorId = some p)
      (hc : l.children[p]? = some child) (hr : shouldRestart child.policy.restart reason = false) :
      Decides reason now .ignore ((l.markChildDead actorId).resetBackoff child.policy.id)
  | meltdown {p : Nat} {child : SupervisedChild} (hp : l.childIndexByActor actorId = some p)
      (hc : l.children[p]? = some child) (hr : shouldRestart child.policy.restart reason = true)
      (hi : (l.intensity.recordRestart now).1 = false) :
      Decides reason now .meltdown (l.recorded actorId now)
  | restartOne {p : Nat} {child : SupervisedChild} (h : l.Restarts actorId reason now p child)
      (hs : l.strategy = .oneForOne) :
      Decides reason now (.restartOne child.policy.id) (l.recorded actorId now)
  | all {p : Nat} {child : SupervisedChild} (h : l.Restarts actorId reason now p child)
      (hs : l.strategy = .oneForAll) :
      Decides reason now (.terminateBatch (allChildIds (l.markChildDead actorId).children))
        { l.recorded actorId now with suppressRestarts := true, pendingBatchRestart := some .all }
  | rest {p : Nat} {child : SupervisedChild} (h : l.Restarts actorId reason now p child)
      (hs : l.strategy = .restForOne) :
      Decides reason now
        (.terminateBatch (restForOneIds (l.markChildDead actorId).children child.policy.startIndex))
        { l.recorded actorId now with
          suppressRestarts := true, pendingBatchRestart := some (.fromIndex child.policy.startIndex) }

variable {l actorId} in
theorem decides_of_onChildExit {reason : ExitReason} {now : Instant} {action : SupervisorAction}
    {l' : SupervisorLogic} (h : l.onChildExit actorId reason now = (action, l')) :
    l.Decides actorId reason now action l' := by
  unfold onChildExit at h
  cases hs : l.suppressRestarts with
  | true =>
    rw [hs, if_pos rfl] at h
    cases h
    exact .suppressed hs
  | false =>
    rw [hs, if_neg Bool.false_ne_true] at h
    cases hp : l.childIndexByActor actorId with
    | none =>
      rw [hp] at h
      cases h
      exact .unknown hp
    | some p =>
      obtain ⟨child, hc, -⟩ := childIndexByActor_eq_some hp
      simp only [hp, hc] at h
      cases hr : shouldRestart child.policy.restart reason with
      | false =>
        rw [hr] at h
        cases h
        exact .final hp hc hr
      | true =>
        rw [hr] at h
        simp only [Bool.not_true, Bool.false_eq_true, if_false, markChildDead_intensity] at h
        cases hi : (l.intensity.recordRestart now).1 with
        | false =>
          rw [hi] at h
          cases h
          exact .meltdown hp hc hr hi
        | true =>
          rw [hi] at h
          simp only [Bool.not_true, Bool.false_eq_true, if_false] at h
          have hrest : l.Restarts actorId reason now p child := ⟨hp, hc, hr, hi⟩
          split at h
          case h_1 hst =>
            cases h
            exact .restartOne hrest (by simpa using hst)
          case h_2 hst =>
            cases h
            exact .all hrest (by simpa using hst)
          case h_3 hst =>
            cases h
            exact .rest hrest (by simpa using hst)

end SupervisorLogic

end Spawned
