import Mathlib.Data.List.Nodup
import Spawned.Lib.Run
import Spawned.Supervisor.Engine

/-!
# Duplicate and stale exits

A batch leaves the Exits of all its victims in the queue, and a remote exit can be delivered again, so `on_child_exit`
is called for actors that were replaced, removed or marked dead long ago. Here the engine alone runs, under any sequence
of the operations its owner calls, and an actor's id enters a slot at most once.

* `EngineOp`, `EngineOp.next` : the operations on the engine;
* `finds n` : the call finds the child of `n` in service; every other call for `n` is ignored without a trace;
* `Spent n` : once a call has found `n`, no child in service holds `n` and none will;
* `exits_count_once` : the main result.
-/

namespace Spawned

open Lib

namespace SupervisorLogic

/-! ## The engine under its operations -/

/-- What the owner of the engine calls. -/
inductive EngineOp
  | onChildExit (actorId : ActorId) (reason : ExitReason) (now : Instant)
  | noteExitDuringBatch (actorId : ActorId)
  | registerChild (policy : ChildPolicy) (slot : ChildHandleSlot)
  | replaceChildHandle (childId : String) (slot : ChildHandleSlot)
  | removeChildById (childId : String)
  | backoffDelay (childId : String) (policy : RestartBackoff)
  | resetBackoff (childId : String)
  | setSuppressRestarts (value : Bool)
  | takePendingRestartIds

/-- The engine after the call. -/
def EngineOp.next (l : SupervisorLogic) : EngineOp → SupervisorLogic
  | .onChildExit actorId reason now => (l.onChildExit actorId reason now).2
  | .noteExitDuringBatch actorId => l.noteExitDuringBatch actorId
  | .registerChild policy slot => l.registerChild policy slot
  | .replaceChildHandle childId slot => l.replaceChildHandle childId slot
  | .removeChildById childId => l.removeChildById childId
  | .backoffDelay childId policy => (l.backoffDelay childId policy).2
  | .resetBackoff childId => l.resetBackoff childId
  | .setSuppressRestarts value => l.setSuppressRestarts value
  | .takePendingRestartIds => l.takePendingRestartIds.2

/-- The actor id the call puts into a slot. -/
def EngineOp.brings : EngineOp → Option ActorId
  | .registerChild _ slot => some slot.id
  | .replaceChildHandle _ slot => some slot.id
  | _ => none

/-- The history of the engine from `l₀`. -/
abbrev EngineRun (l₀ : SupervisorLogic) (τ : List (SupervisorLogic × EngineOp)) (l : SupervisorLogic) : Prop :=
  Run (fun l op l' => l' = op.next l) l₀ τ l

/-- The actor ids in the slots, by position of the child. -/
def slotIds (l : SupervisorLogic) : List ActorId := l.children.filterMap (·.slotId)

/-- The actor ids the calls of a history put into slots. -/
def brought (τ : List (SupervisorLogic × EngineOp)) : List ActorId := τ.filterMap (·.2.brings)

/-- The call is for the exit of `n`, and its decision is not to ignore it. -/
def acts (n : ActorId) (x : SupervisorLogic × EngineOp) : Bool :=
  match x.2 with
  | .onChildExit m reason now => m == n && (x.1.onChildExit m reason now).1 != .ignore
  | _ => false

/-- The call is for the exit of `n`, and it adds its time to the intensity window. -/
def stamps (n : ActorId) (x : SupervisorLogic × EngineOp) : Bool :=
  match x.2 with
  | .onChildExit m reason now =>
    m == n && decide (x.1.intensity.restartTimestamps.count now <
      (x.1.onChildExit m reason now).2.intensity.restartTimestamps.count now)
  | _ => false

/-- The call is for the exit of `n`, and it finds `n` in service. -/
def finds (n : ActorId) (x : SupervisorLogic × EngineOp) : Bool :=
  match x.2 with
  | .onChildExit m _ _ => m == n && !x.1.suppressRestarts && (x.1.childIndexByActor m).isSome
  | _ => false

/-! ## A call that finds nobody -/

variable {l : SupervisorLogic} {n : ActorId}

theorem onChildExit_suppressed (h : l.suppressRestarts = true) (reason : ExitReason) (now : Instant) :
    l.onChildExit n reason now = (.ignore, l) := by
  unfold onChildExit
  rw [if_pos h]

theorem onChildExit_unknown (h : l.childIndexByActor n = none) (reason : ExitReason) (now : Instant) :
    l.onChildExit n reason now = (.ignore, l) := by
  unfold onChildExit
  rw [h]
  split_ifs <;> rfl

theorem onChildExit_of_not_finds {reason : ExitReason} {now : Instant}
    (h : finds n (l, .onChildExit n reason now) = false) : l.onChildExit n reason now = (.ignore, l) := by
  cases hs : l.suppressRestarts with
  | true => exact onChildExit_suppressed hs reason now
  | false =>
    have hnone : l.childIndexByActor n = none := by simpa [finds, hs] using h
    exact onChildExit_unknown hnone reason now

theorem finds_of_acts {x : SupervisorLogic × EngineOp} (h : acts n x = true) : finds n x = true := by
  obtain ⟨l, op⟩ := x
  cases op with
  | onChildExit m reason now =>
    obtain ⟨rfl, hact⟩ : m = n ∧ (l.onChildExit m reason now).1 ≠ .ignore := by simpa [acts] using h
    by_contra hf
    rw [onChildExit_of_not_finds (by simpa using hf)] at hact
    exact hact rfl
  | _ => simp [acts] at h

theorem finds_of_stamps {x : SupervisorLogic × EngineOp} (h : stamps n x = true) : finds n x = true := by
  obtain ⟨l, op⟩ := x
  cases op with
  | onChildExit m reason now =>
    obtain ⟨rfl, hlt⟩ : m = n ∧ l.intensity.restartTimestamps.count now <
        (l.onChildExit m reason now).2.intensity.restartTimestamps.count now := by simpa [stamps] using h
    by_contra hf
    rw [onChildExit_of_not_finds (by simpa using hf)] at hlt
    exact lt_irrefl _ hlt
  | _ => simp [stamps] at h

/-! ## Slots along the calls -/

/-- No child in service holds `n`. -/
def Retired (l : SupervisorLogic) (n : ActorId) : Prop :=
  ∀ child ∈ l.children, child.slotId = some n → child.isAlive = false

theorem childIndexByActor_of_retired (h : l.Retired n) : l.childIndexByActor n = none := by
  cases hp : l.childIndexByActor n with
  | none => rfl
  | some p =>
    obtain ⟨child, hc, hslot⟩ := childIndexByActor_eq_some hp
    have hdead := h child (List.mem_of_getElem? hc) (by rw [SupervisedChild.slotId, hslot]; rfl)
    simp [SupervisedChild.isAlive, hslot] at hdead

theorem mem_slotIds : n ∈ l.slotIds ↔ ∃ child ∈ l.children, child.slotId = some n := List.mem_filterMap

/-- Distinct slot ids: an id is in at most one position. -/
theorem index_of_slot (h : l.slotIds.Nodup) {i j : Nat} {c d : SupervisedChild} (hi : l.children[i]? = some c)
    (hj : l.children[j]? = some d) (hc : c.slotId = some n) (hd : d.slotId = some n) : i = j := by
  have hpair := List.pairwise_filterMap.mp h
  obtain ⟨hi', rfl⟩ := List.getElem?_eq_some_iff.mp hi
  obtain ⟨hj', rfl⟩ := List.getElem?_eq_some_iff.mp hj
  rw [List.pairwise_iff_getElem] at hpair
  rcases lt_trichotomy i j with hlt | heq | hlt
  · exact absurd rfl (hpair i j hi' hj' hlt n hc n hd)
  · exact heq
  · exact absurd rfl (hpair j i hj' hi' hlt n hd n hc)

theorem slotIds_nodup_of_index
    (h : ∀ (i j : Nat) (c d : SupervisedChild) (m : ActorId), l.children[i]? = some c →
      l.children[j]? = some d → c.slotId = some m → d.slotId = some m → i = j) :
    l.slotIds.Nodup := by
  refine List.pairwise_filterMap.mpr (List.pairwise_iff_getElem.mpr ?_)
  intro i j hi hj hlt m hm m' hm' he
  subst he
  have hij := h i j _ _ m (List.getElem?_eq_getElem hi) (List.getElem?_eq_getElem hj) hm hm'
  omega

@[simp] theorem markChildDead_slots (m : ActorId) :
    (l.markChildDead m).children.map (·.slotId) = l.children.map (·.slotId) := by
  refine List.ext_getElem? fun j => ?_
  rw [List.getElem?_map, List.getElem?_map, markChildDead_getElem?]
  split_ifs
  · cases l.children[j]? <;> simp
  · rfl

/-- The slot ids depend on the slots only. -/
theorem slotIds_congr {l' : SupervisorLogic} (h : l'.children.map (·.slotId) = l.children.map (·.slotId)) :
    l'.slotIds = l.slotIds := by
  have hid : ∀ l : SupervisorLogic, l.slotIds = (l.children.map (·.slotId)).filterMap id := by
    intro l
    rw [slotIds, List.filterMap_map]
    rfl
  rw [hid, hid, h]

/-- Marking keeps the retired retired, and brings no id. -/
theorem mem_markChildDead {m : ActorId} {child : SupervisedChild} (h : child ∈ (l.markChildDead m).children) :
    child ∈ l.children ∨ ∃ old ∈ l.children, child = old.dead := by
  obtain ⟨j, hj⟩ := List.mem_iff_getElem?.mp h
  rw [markChildDead_getElem?] at hj
  split_ifs at hj
  · obtain ⟨old, hold, rfl⟩ := Option.map_eq_some_iff.mp hj
    exact .inr ⟨old, List.mem_of_getElem? hold, rfl⟩
  · exact .inl (List.mem_of_getElem? hj)

/-- Where the ids are distinct, marking retires the id. -/
theorem retired_markChildDead (h : l.slotIds.Nodup) : (l.markChildDead n).Retired n := by
  intro child hc hid
  obtain ⟨j, hj⟩ := List.mem_iff_getElem?.mp hc
  rw [markChildDead_getElem?] at hj
  split_ifs at hj with hp
  · obtain ⟨old, -, rfl⟩ := Option.map_eq_some_iff.mp hj
    exact SupervisedChild.dead_isAlive old
  · -- a child in service with this id would have been the one found
    by_contra halive
    obtain ⟨slot, hslot, hsid⟩ := Option.map_eq_some_iff.mp hid
    have hsome : (l.childIndexByActor n).isSome := by
      rw [childIndexByActor, List.findIdx?_isSome]
      refine List.any_eq_true.mpr ⟨child, List.mem_of_getElem? hj, ?_⟩
      simpa [SupervisedChild.isAlive, hslot, hsid] using halive
    obtain ⟨p, hp'⟩ := Option.isSome_iff_exists.mp hsome
    obtain ⟨d, hd, hdslot⟩ := childIndexByActor_eq_some hp'
    have hpj : p = j := index_of_slot h hd hj (by rw [SupervisedChild.slotId, hdslot]; rfl) hid
    exact hp (hpj ▸ hp')

/-- The children after an exit call are those before it, or those with the actor marked. -/
theorem Decides.children {reason : ExitReason} {now : Instant} {action : SupervisorAction} {l' : SupervisorLogic}
    (h : l.Decides n reason now action l') :
    l'.children = l.children ∨ l'.children = (l.markChildDead n).children := by
  cases h with
  | suppressed _ => exact .inl rfl
  | unknown _ => exact .inl rfl
  | _ => exact .inr rfl

/-- A call that finds its actor marks it. -/
theorem Decides.children_of_finds {reason : ExitReason} {now : Instant} {action : SupervisorAction}
    {l' : SupervisorLogic} (h : l.Decides n reason now action l')
    (hf : finds n (l, .onChildExit n reason now) = true) : l'.children = (l.markChildDead n).children := by
  obtain ⟨hs, hsome⟩ : l.suppressRestarts = false ∧ (l.childIndexByActor n).isSome = true := by
    simpa [finds] using hf
  cases h with
  | suppressed h' => simp [hs] at h'
  | unknown h' => simp [h'] at hsome
  | _ => rfl

theorem decides_onChildExit (l : SupervisorLogic) (n : ActorId) (reason : ExitReason) (now : Instant) :
    l.Decides n reason now (l.onChildExit n reason now).1 (l.onChildExit n reason now).2 :=
  decides_of_onChildExit rfl

/-! ## One call -/

/-- A child after a call: it was there, in service if it is now, or the call brought its id. -/
theorem mem_next {op : EngineOp} {child : SupervisedChild} (h : child ∈ (op.next l).children) :
    (∃ old ∈ l.children, child.slotId = old.slotId ∧ (child.isAlive = true → old.isAlive = true)) ∨
      ∃ m, op.brings = some m ∧ child.slotId = some m := by
  have hsame : child ∈ l.children →
      ∃ old ∈ l.children, child.slotId = old.slotId ∧ (child.isAlive = true → old.isAlive = true) :=
    fun hc => ⟨child, hc, rfl, id⟩
  have hmarked : ∀ m, child ∈ (l.markChildDead m).children →
      ∃ old ∈ l.children, child.slotId = old.slotId ∧ (child.isAlive = true → old.isAlive = true) := by
    intro m hc
    rcases mem_markChildDead hc with hc | ⟨old, hold, rfl⟩
    · exact hsame hc
    · exact ⟨old, hold, by simp, by simp⟩
  cases op with
  | onChildExit m reason now =>
    left
    change child ∈ (l.onChildExit m reason now).2.children at h
    rcases (decides_onChildExit l m reason now).children with he | he <;> rw [he] at h
    · exact hsame h
    · exact hmarked m h
  | noteExitDuringBatch m => exact .inl (hmarked m h)
  | registerChild policy slot =>
    rcases List.mem_append.mp h with hc | hc
    · exact .inl (hsame hc)
    · obtain rfl := List.mem_singleton.mp hc
      exact .inr ⟨slot.id, rfl, rfl⟩
  | replaceChildHandle childId slot =>
    obtain ⟨j, hj⟩ := List.mem_iff_getElem?.mp h
    change (l.replaceChildHandle childId slot).children[j]? = some child at hj
    rw [replaceChildHandle_getElem?] at hj
    split_ifs at hj
    · obtain ⟨old, -, rfl⟩ := Option.map_eq_some_iff.mp hj
      exact .inr ⟨slot.id, rfl, rfl⟩
    · exact .inl (hsame (List.mem_of_getElem? hj))
  | removeChildById childId => exact .inl (hsame (List.mem_of_mem_eraseP h))
  | backoffDelay childId policy =>
    change child ∈ (l.backoffDelay childId policy).2.children at h
    rw [backoffDelay_children] at h
    exact .inl (hsame h)
  | resetBackoff childId => exact .inl (hsame h)
  | setSuppressRestarts value => exact .inl (hsame h)
  | takePendingRestartIds =>
    change child ∈ l.takePendingRestartIds.2.children at h
    unfold takePendingRestartIds at h
    split at h <;> exact .inl (hsame h)

/-- A call that brings no id in use leaves the ids distinct. -/
theorem slotIds_nodup_next {op : EngineOp} (h : l.slotIds.Nodup) (hf : ∀ m, op.brings = some m → m ∉ l.slotIds) :
    (op.next l).slotIds.Nodup := by
  have hmarked : ∀ m, (l.markChildDead m).slotIds.Nodup := by
    intro m
    rw [slotIds_congr (markChildDead_slots m)]
    exact h
  cases op with
  | onChildExit m reason now =>
    change ((l.onChildExit m reason now).2.children.filterMap (·.slotId)).Nodup
    rcases (decides_onChildExit l m reason now).children with he | he <;> rw [he]
    · exact h
    · exact hmarked m
  | noteExitDuringBatch m => exact hmarked m
  | registerChild policy slot =>
    change ((l.children ++ [SupervisedChild.mk policy (some slot)]).filterMap (·.slotId)).Nodup
    rw [List.filterMap_append]
    refine List.Nodup.append h (List.nodup_singleton slot.id) ?_
    exact List.disjoint_singleton.mpr (hf slot.id rfl)
  | replaceChildHandle childId slot =>
    -- the replaced child holds the new id, which no other child holds
    refine slotIds_nodup_of_index fun i j c d m hi hj hc hd => ?_
    change (l.replaceChildHandle childId slot).children[i]? = some c at hi
    change (l.replaceChildHandle childId slot).children[j]? = some d at hj
    have hnew := hf slot.id rfl
    rw [replaceChildHandle_getElem?] at hi hj
    split_ifs at hi hj with hpi hpj hpj
    · exact Option.some.inj (hpi.symm.trans hpj)
    · obtain ⟨old, -, rfl⟩ := Option.map_eq_some_iff.mp hi
      obtain rfl : slot.id = m := Option.some.inj hc
      exact absurd (mem_slotIds.mpr ⟨d, List.mem_of_getElem? hj, hd⟩) hnew
    · obtain ⟨old, -, rfl⟩ := Option.map_eq_some_iff.mp hj
      obtain rfl : slot.id = m := Option.some.inj hd
      exact absurd (mem_slotIds.mpr ⟨c, List.mem_of_getElem? hi, hc⟩) hnew
    · exact index_of_slot h hi hj hc hd
  | removeChildById childId => exact List.Nodup.sublist (List.Sublist.filterMap _ List.eraseP_sublist) h
  | backoffDelay childId policy =>
    change ((l.backoffDelay childId policy).2.children.filterMap (·.slotId)).Nodup
    rw [backoffDelay_children]
    exact h
  | resetBackoff childId => exact h
  | setSuppressRestarts value => exact h
  | takePendingRestartIds =>
    change (l.takePendingRestartIds.2.children.filterMap (·.slotId)).Nodup
    unfold takePendingRestartIds
    split <;> exact h

/-- A call that does not bring `n` back leaves it retired. -/
theorem Retired.next {op : EngineOp} (h : l.Retired n) (hb : op.brings ≠ some n) : (op.next l).Retired n := by
  intro child hc hid
  rcases mem_next hc with ⟨old, hold, hslot, halive⟩ | ⟨m, hm, hslot⟩
  · by_contra hne
    have hdead := h old hold (hslot ▸ hid)
    rw [halive (by simpa using hne)] at hdead
    cases hdead
  · rw [hid] at hslot
    cases hslot
    exact absurd hm hb

theorem retired_of_finds {op : EngineOp} (h : l.slotIds.Nodup) (hf : finds n (l, op) = true) :
    (op.next l).Retired n := by
  cases op with
  | onChildExit m reason now =>
    obtain rfl : m = n := by
      simp only [finds, Bool.and_eq_true, beq_iff_eq] at hf
      exact hf.1.1
    have hch := (decides_onChildExit l m reason now).children_of_finds hf
    intro child hc
    change child ∈ (l.onChildExit m reason now).2.children at hc
    rw [hch] at hc
    exact retired_markChildDead h child hc
  | _ => simp [finds] at hf

/-! ## Every run -/

/-- The ids of the first engine and those brought since: what was ever in a slot. -/
def Known (l₀ : SupervisorLogic) (τ : List (SupervisorLogic × EngineOp)) (m : ActorId) : Prop :=
  m ∈ l₀.slotIds ++ brought τ

/-- After the calls `τ`: the ids in slots are distinct and known, and an `n` that was found once is retired. -/
structure Spent (l₀ : SupervisorLogic) (n : ActorId) (τ : List (SupervisorLogic × EngineOp)) (l : SupervisorLogic) :
    Prop where
  distinct : l.slotIds.Nodup
  known : ∀ m ∈ l.slotIds, Known l₀ τ m
  once : τ.countP (finds n) ≤ 1
  retired : 0 < τ.countP (finds n) → Known l₀ τ n ∧ l.Retired n

theorem brought_snoc (τ : List (SupervisorLogic × EngineOp)) (l : SupervisorLogic) (op : EngineOp) :
    brought (τ ++ [(l, op)]) = brought τ ++ op.brings.toList := by
  rw [brought, brought, List.filterMap_append]
  cases hb : op.brings <;> simp [hb]

/-- Only an actor with a known id is found. -/
theorem mem_slotIds_of_finds {op : EngineOp} (h : finds n (l, op) = true) : n ∈ l.slotIds := by
  cases op with
  | onChildExit m reason now =>
    simp only [finds, Bool.and_eq_true, beq_iff_eq] at h
    obtain ⟨⟨rfl, -⟩, hsome⟩ := h
    obtain ⟨p, hp⟩ := Option.isSome_iff_exists.mp hsome
    obtain ⟨child, hc, hslot⟩ := childIndexByActor_eq_some hp
    exact mem_slotIds.mpr ⟨child, List.mem_of_getElem? hc, by rw [SupervisedChild.slotId, hslot]; rfl⟩
  | _ => simp [finds] at h

theorem not_finds_of_retired {op : EngineOp} (h : l.Retired n) : finds n (l, op) = false := by
  by_contra hf
  rw [Bool.not_eq_false] at hf
  cases op with
  | onChildExit m reason now =>
    simp only [finds, Bool.and_eq_true, beq_iff_eq] at hf
    obtain ⟨⟨rfl, -⟩, hsome⟩ := hf
    rw [childIndexByActor_of_retired h] at hsome
    cases hsome
  | _ => simp [finds] at hf

theorem Spent.step {l₀ : SupervisorLogic} {τ : List (SupervisorLogic × EngineOp)} {op : EngineOp}
    (h : Spent l₀ n τ l) (hf : (l₀.slotIds ++ brought (τ ++ [(l, op)])).Nodup) :
    Spent l₀ n (τ ++ [(l, op)]) (op.next l) := by
  rw [brought_snoc, ← List.append_assoc] at hf
  have hnew : ∀ m, op.brings = some m → ¬ Known l₀ τ m := by
    intro m hm hk
    exact List.disjoint_of_nodup_append hf hk (by simp [hm])
  have hgrow : ∀ m, Known l₀ τ m → Known l₀ (τ ++ [(l, op)]) m := by
    intro m hm
    rw [Known, brought_snoc, ← List.append_assoc]
    exact List.mem_append_left _ hm
  have hcount : (τ ++ [(l, op)]).countP (finds n) = τ.countP (finds n) + if finds n (l, op) then 1 else 0 := by
    simp [List.countP_append, List.countP_singleton]
  refine ⟨?_, ?_, ?_, ?_⟩
  · exact slotIds_nodup_next h.distinct fun m hm hin => hnew m hm (h.known m hin)
  · intro m hm
    obtain ⟨child, hc, hid⟩ := mem_slotIds.mp hm
    rcases mem_next hc with ⟨old, hold, hslot, -⟩ | ⟨m', hb, hslot⟩
    · exact hgrow m (h.known m (mem_slotIds.mpr ⟨old, hold, hslot ▸ hid⟩))
    · rw [hid] at hslot
      cases hslot
      rw [Known, brought_snoc]
      simp [hb]
  · rw [hcount]
    by_cases hpos : 0 < τ.countP (finds n)
    · rw [not_finds_of_retired (h.retired hpos).2]
      simpa using h.once
    · split_ifs <;> omega
  · intro hpos
    rw [hcount] at hpos
    by_cases hfind : finds n (l, op) = true
    · exact ⟨hgrow n (h.known n (mem_slotIds_of_finds hfind)), retired_of_finds h.distinct hfind⟩
    · obtain ⟨hk, hr⟩ := h.retired (by simpa [hfind] using hpos)
      exact ⟨hgrow n hk, hr.next fun hb => hnew n hb hk⟩

/-- Fresh ids: those brought are new, to the first engine and to each other. -/
theorem spent_run {l₀ : SupervisorLogic} {τ : List (SupervisorLogic × EngineOp)} (h : EngineRun l₀ τ l)
    (hf : (l₀.slotIds ++ brought τ).Nodup) : Spent l₀ n τ l := by
  induction h with
  | nil => exact ⟨hf.of_append_left, fun m hm => List.mem_append_left _ hm, by simp, by simp⟩
  | @snoc τ l op l' hrun hstep ih =>
    subst hstep
    refine (ih ?_).step hf
    rw [brought_snoc, ← List.append_assoc] at hf
    exact hf.of_append_left

/-- **Duplicate and stale exits are harmless.** From an engine with distinct slot ids, whatever is called in whatever
order, where the ids put into slots are fresh: over all the exit calls for one actor at most one decides anything but
to ignore and at most one adds to the intensity window; and in every engine reached a call for an id that no slot
holds, or that a slot marked dead holds, or that comes while restarts are suppressed, is ignored and changes
nothing. -/
theorem exits_count_once {l₀ : SupervisorLogic} {τ : List (SupervisorLogic × EngineOp)} (h : EngineRun l₀ τ l)
    (hf : (l₀.slotIds ++ brought τ).Nodup) (n : ActorId) :
    τ.countP (acts n) ≤ 1 ∧ τ.countP (stamps n) ≤ 1 ∧
      ∀ (reason : ExitReason) (now : Instant),
        (n ∉ l.slotIds ∨ (∃ child ∈ l.children, child.slotId = some n ∧ child.isAlive = false) ∨
          l.suppressRestarts = true) →
        l.onChildExit n reason now = (.ignore, l) := by
  have hspent : Spent l₀ n τ l := spent_run h hf
  refine ⟨?_, ?_, ?_⟩
  · exact (List.countP_mono_left fun x _ hx => finds_of_acts hx).trans hspent.once
  · exact (List.countP_mono_left fun x _ hx => finds_of_stamps hx).trans hspent.once
  · rintro reason now (hunknown | ⟨child, hc, hid, hdead⟩ | hsup)
    · refine onChildExit_unknown (childIndexByActor_of_retired fun child hc hid => ?_) reason now
      exact absurd (mem_slotIds.mpr ⟨child, hc, hid⟩) hunknown
    · refine onChildExit_unknown (childIndexByActor_of_retired fun other ho hid' => ?_) reason now
      obtain ⟨i, hi⟩ := List.mem_iff_getElem?.mp hc
      obtain ⟨j, hj⟩ := List.mem_iff_getElem?.mp ho
      obtain rfl := index_of_slot hspent.distinct hi hj hid hid'
      obtain rfl : child = other := Option.some.inj (hi.symm.trans hj)
      exact hdead
    · exact onChildExit_suppressed hsup reason now

/-- Two children under `OneForAll`: one fails, the other's exit comes during the batch, both are replaced, and both
old exits are delivered again. -/
def redelivered : List EngineOp :=
  [.onChildExit 1 (.panic "lost") 0, .onChildExit 2 .kill 0, .noteExitDuringBatch 2, .takePendingRestartIds,
    .replaceChildHandle "a" { id := 3, alive := true }, .replaceChildHandle "b" { id := 4, alive := true },
    .onChildExit 2 .kill 1, .onChildExit 1 (.panic "lost") 1]

/-- The engine with children `a` (actor 1) and `b` (actor 2). -/
def pairLogic : SupervisorLogic :=
  ((new .oneForAll { maxRestarts := 3, within := 5 }).registerChild ⟨"a", .permanent, 0⟩ ⟨1, true⟩).registerChild
    ⟨"b", .permanent, 1⟩ ⟨2, true⟩

theorem exits_count_once_redelivered :
    (play (fun l op => EngineOp.next l op) pairLogic redelivered).1.countP (acts 1) = 1 ∧
      (play (fun l op => EngineOp.next l op) pairLogic redelivered).1.countP (stamps 1) ≤ 1 ∧
      (play (fun l op => EngineOp.next l op) pairLogic redelivered).2.suppressRestarts = false ∧
      ((play (fun l op => EngineOp.next l op) pairLogic redelivered).2.onChildExit 2 .kill 2).1 = .ignore := by
  have h := run_play (fun l op => EngineOp.next l op) pairLogic redelivered
  refine ⟨by decide, (exits_count_once h (by decide) 1).2.1, by decide, ?_⟩
  rw [(exits_count_once h (by decide) 2).2.2 .kill 2 (.inl (by decide))]

end SupervisorLogic

end Spawned
