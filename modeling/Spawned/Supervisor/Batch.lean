import Spawned.Supervisor.Engine
import Spawned.Supervisor.Machine

/-!
# When a batch restart completes

`pending_batch_restart_complete` looks at the children from *position* `index` on, the ids of the batch are those of
the children with *start index* `index` or more. The two agree while positions and start indices do; a remote child
that failed to start, or was dropped, leaves a gap behind which they do not.

* `BatchExact` : completion says exactly that no child of the batch is alive;
* `PositionsMatch` : at the exit that begins a `RestForOne` batch, the vector reaches the exiting child's start index,
  and what lies in front of that position and belongs to the batch is already dead;
* `batch_never_wedges` : when every batch begins so, completion is exact in every state the engine goes through, and
  between two callbacks a batch is pending only while one of its children is alive.
-/

namespace Spawned

open Lib

namespace SupervisorLogic

/-- The pending batch is reported complete exactly when every child whose id it restarts is marked dead. -/
def BatchExact (l : SupervisorLogic) : Prop :=
  ∀ b, l.pendingBatchRestart = some b →
    (l.pendingBatchRestartComplete = true ↔
      ∀ child ∈ l.children, child.policy.id ∈ l.batchIds b → child.isAlive = false)

/-- The exit calls for a restart and the strategy is `RestForOne`: then the vector has at least as many children as the
start index of the exiting child, and every other child in front of that position whose id is in the batch is dead. -/
def PositionsMatch (l : SupervisorLogic) (exit : Exit) (now : Instant) : Prop :=
  l.strategy = .restForOne → ∀ p child, l.Restarts exit.from.actorId exit.reason now p child →
    child.policy.startIndex ≤ l.children.length ∧
      ∀ j other, j < child.policy.startIndex → j ≠ p → l.children[j]? = some other →
        other.policy.id ∈ restForOneIds l.children child.policy.startIndex → other.isAlive = false

/-! ## The invariant of the engine -/

/-- No child sits behind its start index. -/
def Ordered (l : SupervisorLogic) : Prop :=
  ∀ (j : Nat) (child : SupervisedChild), l.children[j]? = some child → j ≤ child.policy.startIndex

/-- What completion does not look at of a pending `RestForOne` batch is dead. -/
def Covered (l : SupervisorLogic) : Prop :=
  ∀ k, l.pendingBatchRestart = some (.fromIndex k) → k ≤ l.children.length ∧
    ∀ (j : Nat) (child : SupervisedChild), j < k → l.children[j]? = some child →
      child.policy.id ∈ restForOneIds l.children k → child.isAlive = false

variable {l l' : SupervisorLogic}

theorem mem_restForOneIds {children : List SupervisedChild} {k : Nat} {id : String} :
    id ∈ restForOneIds children k ↔ ∃ child ∈ children, k ≤ child.policy.startIndex ∧ child.policy.id = id := by
  simp [restForOneIds, and_assoc]

/-- The batch is read off the policies. -/
theorem restForOneIds_congr {children children' : List SupervisedChild} (k : Nat)
    (h : children'.map (·.policy) = children.map (·.policy)) : restForOneIds children' k = restForOneIds children k := by
  have hpol : ∀ cs : List SupervisedChild, restForOneIds cs k =
      ((cs.map (·.policy)).filter (fun policy => decide (k ≤ policy.startIndex))).map (·.id) := by
    intro cs
    rw [restForOneIds, List.filter_map, List.map_map]
    rfl
  rw [hpol, hpol, h]

theorem allChildIds_congr {children children' : List SupervisedChild}
    (h : children'.map (·.policy) = children.map (·.policy)) : allChildIds children' = allChildIds children := by
  have hpol : ∀ cs : List SupervisedChild, allChildIds cs = (cs.map (·.policy)).map (·.id) := by
    intro cs
    rw [allChildIds, List.map_map]
    rfl
  rw [hpol, hpol, h]

theorem batchExact_of_covered (ho : l.Ordered) (hc : l.Covered) : l.BatchExact := by
  intro b hb
  cases b with
  | all =>
    simp only [pendingBatchRestartComplete, hb, Bool.not_eq_true', List.any_eq_false, Bool.not_eq_true, batchIds]
    constructor
    · exact fun hdead child hmem _ => hdead child hmem
    · exact fun hdead child hmem => hdead child hmem (List.mem_map_of_mem hmem)
  | fromIndex k =>
    obtain ⟨hlen, hfront⟩ := hc k hb
    simp only [pendingBatchRestartComplete, hb, hlen, decide_true, Bool.true_and, Bool.not_eq_true',
      List.any_eq_false, Bool.not_eq_true, batchIds]
    constructor
    · intro hdead child hmem hid
      obtain ⟨j, hj⟩ := List.getElem?_of_mem hmem
      by_cases hjk : j < k
      · exact hfront j child hjk hj hid
      · refine hdead child (List.mem_of_getElem? (i := j - k) ?_)
        rw [List.getElem?_drop, Nat.add_sub_cancel' (by omega), hj]
    · intro hdead child hmem
      obtain ⟨j, hj⟩ := List.getElem?_of_mem hmem
      rw [List.getElem?_drop] at hj
      have hpos := ho _ _ hj
      have hchild := List.mem_of_getElem? hj
      exact hdead child hchild (mem_restForOneIds.mpr ⟨child, hchild, by omega, rfl⟩)

/-! ## What the operations keep -/

theorem Ordered.of_policies (h : l.Ordered) (hp : l'.children.map (·.policy) = l.children.map (·.policy)) :
    l'.Ordered := by
  intro j child hj
  have hpol : (l.children.map (·.policy))[j]? = some child.policy := by
    rw [← hp, List.getElem?_map, hj]
    rfl
  rw [List.getElem?_map] at hpol
  obtain ⟨old, hold, heq⟩ := Option.map_eq_some_iff.mp hpol
  have hle := h j old hold
  rw [heq] at hle
  exact hle

theorem Ordered.removeChildById (h : l.Ordered) (id : String) : (l.removeChildById id).Ordered := by
  intro j child hj
  change (l.children.eraseP _)[j]? = some child at hj
  -- erasing moves later children one position forward
  rw [List.eraseP_eq_eraseIdx] at hj
  split at hj
  · exact h j child hj
  · rw [List.getElem?_eraseIdx] at hj
    split_ifs at hj
    · exact h j child hj
    · exact le_trans (Nat.le_succ j) (h (j + 1) child hj)

theorem Ordered.registerChild (h : l.Ordered) {policy : ChildPolicy} (slot : ChildHandleSlot)
    (hlen : l.children.length ≤ policy.startIndex) : (l.registerChild policy slot).Ordered := by
  intro j child hj
  change (l.children ++ [_])[j]? = some child at hj
  rw [List.getElem?_append] at hj
  split_ifs at hj with hlt
  · exact h j child hj
  · rw [List.getElem?_singleton] at hj
    split_ifs at hj with h0
    cases hj
    show j ≤ policy.startIndex
    omega

/-- Marking a child dead keeps the front of the batch dead. -/
theorem Covered.markChildDead (h : l.Covered) (actorId : ActorId) : (l.markChildDead actorId).Covered := by
  intro k hk
  rw [markChildDead_pendingBatchRestart] at hk
  obtain ⟨hlen, hfront⟩ := h k hk
  refine ⟨by simpa using hlen, fun j child hjk hj hid => ?_⟩
  rw [restForOneIds_congr k (markChildDead_policies l actorId)] at hid
  rw [markChildDead_getElem?] at hj
  split_ifs at hj
  · obtain ⟨old, -, rfl⟩ := Option.map_eq_some_iff.mp hj
    exact old.dead_isAlive
  · exact hfront j child hjk hj hid

theorem covered_of_none (h : l.pendingBatchRestart = none) : l.Covered := by
  intro k hk
  rw [h] at hk
  cases hk

/-- A batch that begins where positions match is covered. -/
theorem covered_of_positionsMatch {exit : Exit} {now : Instant} {p : Nat} {child : SupervisedChild}
    (hm : l.PositionsMatch exit now) (hs : l.strategy = .restForOne)
    (h : l.Restarts exit.from.actorId exit.reason now p child) :
    Covered { l.recorded exit.from.actorId now with
      suppressRestarts := true, pendingBatchRestart := some (.fromIndex child.policy.startIndex) } := by
  intro k hk
  obtain rfl : child.policy.startIndex = k := by simpa using hk
  obtain ⟨hlen, hfront⟩ := hm hs p child h
  refine ⟨by simpa [recorded] using hlen, fun j other hjk hj hid => ?_⟩
  change (l.markChildDead _).children[j]? = some other at hj
  change other.policy.id ∈ restForOneIds (l.markChildDead _).children _ at hid
  rw [restForOneIds_congr _ (markChildDead_policies l _)] at hid
  rw [markChildDead_getElem?, h.index] at hj
  split_ifs at hj with hp
  · -- the exiting child itself
    obtain ⟨old, -, rfl⟩ := Option.map_eq_some_iff.mp hj
    exact old.dead_isAlive
  · exact hfront j other hjk (fun he => hp (by rw [he])) hj hid

end SupervisorLogic

namespace Supervisor

/-! ## The pending batch along a run -/

/-- Between the start loop and its end, and while children are restarted, no batch is pending. -/
def Todo.Quiet : Todo → Prop
  | .start _ _ | .restart _ | .relaunch _ _ => True
  | .idle | .terminate _ => False

/-- Decisions are suppressed exactly while a batch is pending. -/
structure PendingInv (c : Conf) : Prop where
  suppress : c.sup.logic.suppressRestarts = c.sup.logic.pendingBatchRestart.isSome
  quiet : c.todo.Quiet → c.sup.logic.pendingBatchRestart = none

theorem PendingInv.unsuppressed {c : Conf} (h : PendingInv c) (hp : c.sup.logic.pendingBatchRestart = none) :
    c.sup.logic.suppressRestarts = false := by
  rw [h.suppress, hp]
  rfl

theorem PendingInv.none_of_unsuppressed {c : Conf} (h : PendingInv c) (hs : c.sup.logic.suppressRestarts = false) :
    c.sup.logic.pendingBatchRestart = none := by
  simpa [hs] using h.suppress.symm

theorem PendingInv.of_none {s : Supervisor} {todo : Todo} (hp : s.logic.pendingBatchRestart = none)
    (hs : s.logic.suppressRestarts = false) : PendingInv ⟨s, todo⟩ :=
  ⟨by rw [hs, hp]; rfl, fun _ => hp⟩

theorem pendingInv_init (b : SupervisorBuilder) : PendingInv ⟨b.build, .start 0 b.specs⟩ := .of_none rfl rfl

theorem pendingInv_step {ctx : Context} {c c' : Conf} {act : Act} (h : PendingInv c) (hstep : Micro ctx c act c') :
    PendingInv c' := by
  have hquiet := h.quiet
  cases hstep with
  | @startLocal s => exact .of_none (hquiet trivial) (h.unsuppressed (hquiet trivial))
  | startNoWire => exact .of_none (hquiet trivial) (h.unsuppressed (hquiet trivial))
  | startFailed => exact .of_none (hquiet trivial) (h.unsuppressed (hquiet trivial))
  | startRemote => exact .of_none (hquiet trivial) (h.unsuppressed (hquiet trivial))
  | started => exact ⟨h.suppress, fun hq => hq.elim⟩
  | note exit hsup => exact ⟨by simpa [SupervisorLogic.noteExitDuringBatch] using h.suppress, fun hq => hq.elim⟩
  | ignore exit now hsup hact =>
    have hp := h.none_of_unsuppressed hsup
    cases SupervisorLogic.decides_of_onChildExit hact with
    | suppressed hs => simp [hsup] at hs
    | unknown hs => exact .of_none hp hsup
    | final hidx hchild hr =>
      exact .of_none (by simpa [SupervisorLogic.resetBackoff] using hp)
        (by simpa [SupervisorLogic.resetBackoff] using hsup)
  | restartOne exit now hsup hact =>
    have hp := h.none_of_unsuppressed hsup
    cases SupervisorLogic.decides_of_onChildExit hact with
    | restartOne hr hst =>
      exact .of_none (by simpa [SupervisorLogic.recorded] using hp) (by simpa [SupervisorLogic.recorded] using hsup)
  | terminateBatch exit now hsup hact =>
    cases SupervisorLogic.decides_of_onChildExit hact with
    | all hr hst => exact ⟨rfl, fun hq => hq.elim⟩
    | rest hr hst => exact ⟨rfl, fun hq => hq.elim⟩
  | meltdown exit now hsup hact =>
    have hp := h.none_of_unsuppressed hsup
    cases SupervisorLogic.decides_of_onChildExit hact with
    | meltdown hidx hchild hr hi =>
      exact .of_none (by simpa [SupervisorLogic.recorded] using hp) (by simpa [SupervisorLogic.recorded] using hsup)
  | terminateRemote answer hremote halive => exact ⟨by simpa using h.suppress, fun hq => hq.elim⟩
  | terminateRemoteDead hremote halive => exact ⟨h.suppress, fun hq => hq.elim⟩
  | terminateLocal reason hremote hlocal hτ => exact ⟨by simpa using h.suppress, fun hq => hq.elim⟩
  | terminateNone hremote hlocal => exact ⟨h.suppress, fun hq => hq.elim⟩
  | incomplete hdone => exact ⟨h.suppress, fun hq => hq.elim⟩
  | @complete s ids logic hdone htake =>
    cases hp : s.logic.pendingBatchRestart with
    | none => simp [SupervisorLogic.takePendingRestartIds, hp] at htake
    | some b =>
      obtain ⟨-, rfl⟩ : _ ∧ _ := by simpa [SupervisorLogic.takePendingRestartIds, hp] using htake
      exact .of_none rfl rfl
  | @backoff s id ids delay logic hdelay =>
    obtain rfl : (s.logic.backoffDelay id (s.backoffFor id)).2 = logic := by rw [hdelay]
    have hp := hquiet trivial
    exact .of_none (by simpa using hp) (by simpa using h.unsuppressed hp)
  | relaunchNone hmeta hspec => exact ⟨h.suppress, fun _ => hquiet trivial⟩
  | relaunchLocal handle hmeta hspec =>
    have hp := hquiet trivial
    exact .of_none (by simpa using hp) (by simpa using h.unsuppressed hp)
  | relaunchFailed error hmeta => exact .of_none (hquiet trivial) (h.unsuppressed (hquiet trivial))
  | relaunchRemote address hmeta =>
    have hp := hquiet trivial
    exact .of_none (by simpa using hp) (by simpa using h.unsuppressed hp)
  | restarted => exact ⟨h.suppress, fun hq => hq.elim⟩

theorem pendingInv_run {ctx : Context} {b : SupervisorBuilder} {hist : List (Conf × Act)} {c : Conf}
    (h : Run (Micro ctx) ⟨b.build, .start 0 b.specs⟩ hist c) : PendingInv c :=
  h.inv (pendingInv_init b) fun _ _ _ => pendingInv_step

/-! ## Positions along a run -/

/-- What a transition does to the policies: a start adds one at its index, a failed restart drops one, and every other
transition keeps them. -/
theorem policies_step {ctx : Context} {c c' : Conf} {act : Act} (hstep : Micro ctx c act c') :
    (c'.sup.logic.children.map (·.policy) = c.sup.logic.children.map (·.policy) ∧
      ((∀ index specs, c'.todo ≠ .start index specs) ∨
        ∃ index spec specs, c.todo = .start index (spec :: specs) ∧ c'.todo = .start (index + 1) specs)) ∨
    (∃ index spec specs slot, c.todo = .start index (spec :: specs) ∧ c'.todo = .start (index + 1) specs ∧
      c'.sup.logic = c.sup.logic.registerChild { id := spec.id, restart := spec.restart, startIndex := index } slot) ∨
    ∃ id, c'.sup.logic = c.sup.logic.removeChildById id ∧ ∀ index specs, c'.todo ≠ .start index specs := by
  cases hstep with
  | startLocal handle hspec => exact Or.inr (Or.inl ⟨_, _, _, _, rfl, rfl, rfl⟩)
  | startNoWire hspec hwire => exact Or.inl ⟨rfl, Or.inr ⟨_, _, _, rfl, rfl⟩⟩
  | startFailed error hwire hplace => exact Or.inl ⟨rfl, Or.inr ⟨_, _, _, rfl, rfl⟩⟩
  | startRemote address hwire hplace => exact Or.inr (Or.inl ⟨_, _, _, _, rfl, rfl, rfl⟩)
  | started => exact Or.inl ⟨rfl, Or.inl (by simp)⟩
  | note exit hsup => exact Or.inl ⟨by simp [SupervisorLogic.noteExitDuringBatch], Or.inl (by simp)⟩
  | ignore exit now hsup hact =>
    cases SupervisorLogic.decides_of_onChildExit hact with
    | suppressed h => exact Or.inl ⟨rfl, Or.inl (by simp)⟩
    | unknown h => exact Or.inl ⟨rfl, Or.inl (by simp)⟩
    | final hidx hchild hr => exact Or.inl ⟨by simp [SupervisorLogic.resetBackoff], Or.inl (by simp)⟩
  | restartOne exit now hsup hact =>
    cases SupervisorLogic.decides_of_onChildExit hact with
    | restartOne h hst => exact Or.inl ⟨by simp [SupervisorLogic.recorded], Or.inl (by simp)⟩
  | terminateBatch exit now hsup hact =>
    cases SupervisorLogic.decides_of_onChildExit hact with
    | all h hst => exact Or.inl ⟨by simp [SupervisorLogic.recorded], Or.inl (by simp)⟩
    | rest h hst => exact Or.inl ⟨by simp [SupervisorLogic.recorded], Or.inl (by simp)⟩
  | meltdown exit now hsup hact =>
    cases SupervisorLogic.decides_of_onChildExit hact with
    | meltdown hidx hchild hr hi => exact Or.inl ⟨by simp [SupervisorLogic.recorded], Or.inl (by simp)⟩
  | terminateRemote answer hremote halive => exact Or.inl ⟨by simp, Or.inl (by simp)⟩
  | terminateRemoteDead hremote halive => exact Or.inl ⟨rfl, Or.inl (by simp)⟩
  | terminateLocal reason hremote hlocal hτ => exact Or.inl ⟨by simp, Or.inl (by simp)⟩
  | terminateNone hremote hlocal => exact Or.inl ⟨rfl, Or.inl (by simp)⟩
  | incomplete hdone => exact Or.inl ⟨rfl, Or.inl (by simp)⟩
  | @complete s ids logic hdone htake =>
    obtain rfl : logic = s.logic.takePendingRestartIds.2 := by rw [htake]
    refine Or.inl ⟨?_, Or.inl (by simp)⟩
    unfold SupervisorLogic.takePendingRestartIds
    split <;> rfl
  | @backoff s id ids delay logic hdelay =>
    obtain rfl : (s.logic.backoffDelay id (s.backoffFor id)).2 = logic := by rw [hdelay]
    exact Or.inl ⟨by simp, Or.inl (by simp)⟩
  | relaunchNone hmeta hspec => exact Or.inl ⟨rfl, Or.inl (by simp)⟩
  | relaunchLocal handle hmeta hspec => exact Or.inl ⟨by simp, Or.inl (by simp)⟩
  | relaunchFailed error hmeta => exact Or.inr (Or.inr ⟨_, rfl, by simp⟩)
  | relaunchRemote address hmeta => exact Or.inl ⟨by simp, Or.inl (by simp)⟩
  | restarted => exact Or.inl ⟨rfl, Or.inl (by simp)⟩

/-- Children are started at increasing indices and never move back, so no child sits behind its start index. -/
structure OrderInv (c : Conf) : Prop where
  ordered : c.sup.logic.Ordered
  room : ∀ index specs, c.todo = .start index specs → c.sup.logic.children.length ≤ index

theorem orderInv_init (b : SupervisorBuilder) : OrderInv ⟨b.build, .start 0 b.specs⟩ := by
  refine ⟨fun j child hj => ?_, fun index specs _ => Nat.zero_le index⟩
  simp [SupervisorBuilder.build, SupervisorLogic.new] at hj

theorem orderInv_step {ctx : Context} {c c' : Conf} {act : Act} (h : OrderInv c) (hstep : Micro ctx c act c') :
    OrderInv c' := by
  obtain ⟨ho, hroom⟩ := h
  rcases policies_step hstep with ⟨hp, htodo⟩ | ⟨index, spec, specs, slot, ht, ht', hl⟩ | ⟨id, hl, ht'⟩
  · refine ⟨ho.of_policies hp, fun index' specs' he => ?_⟩
    rcases htodo with hnot | ⟨index, spec, specs, ht, ht'⟩
    · exact absurd he (hnot _ _)
    · rw [ht'] at he
      cases he
      have hlen := congrArg List.length hp
      rw [List.length_map, List.length_map] at hlen
      rw [hlen]
      exact Nat.le_succ_of_le (hroom _ _ ht)
  · have hlen := hroom _ _ ht
    refine ⟨hl ▸ ho.registerChild slot hlen, fun index' specs' he => ?_⟩
    rw [ht'] at he
    cases he
    rw [hl]
    simpa [SupervisorLogic.registerChild] using hlen
  · exact ⟨hl ▸ ho.removeChildById id, fun index specs he => absurd he (ht' _ _)⟩

/-! ## The invariant of the machine -/

/-- A batch pending between two callbacks was found incomplete. -/
def Settled (l : SupervisorLogic) : Todo → Prop
  | .idle => l.pendingBatchRestart = none ∨ l.pendingBatchRestartComplete = false
  | _ => True

structure BatchInv (c : Conf) : Prop where
  pending : PendingInv c
  order : OrderInv c
  covered : c.sup.logic.Covered
  settled : Settled c.sup.logic c.todo

/-- The condition on a transition: the `Exit` it takes begins a batch only where positions match. -/
def BatchAligned (c : Conf) (act : Act) : Prop :=
  ∀ exit now, act.exit = some exit → ⟨.now, now⟩ ∈ act.calls → c.sup.logic.PositionsMatch exit now

theorem batchInv_init (b : SupervisorBuilder) : BatchInv ⟨b.build, .start 0 b.specs⟩ :=
  ⟨pendingInv_init b, orderInv_init b, SupervisorLogic.covered_of_none rfl, trivial⟩

theorem batchInv_step {ctx : Context} {c c' : Conf} {act : Act} (h : BatchInv c) (ha : BatchAligned c act)
    (hstep : Micro ctx c act c') : BatchInv c' := by
  have hpend := pendingInv_step h.pending hstep
  have hord := orderInv_step h.order hstep
  have hnone : c'.todo.Quiet → c'.sup.logic.Covered := fun hq => SupervisorLogic.covered_of_none (hpend.quiet hq)
  obtain ⟨hpc, -, hc, ht⟩ := h
  refine ⟨hpend, hord, ?_, ?_⟩
  · -- what completion does not look at stays dead
    cases hstep with
    | startLocal => exact hnone trivial
    | startNoWire => exact hc
    | startFailed => exact hc
    | startRemote => exact hnone trivial
    | started => exact hc
    | note exit hsup => exact hc.markChildDead _
    | ignore exit now hsup hact =>
      cases SupervisorLogic.decides_of_onChildExit hact with
      | suppressed h => exact hc
      | unknown h => exact hc
      | final hidx hchild hr => exact hc.markChildDead _
    | restartOne => exact hnone trivial
    | terminateBatch exit now hsup hact =>
      cases SupervisorLogic.decides_of_onChildExit hact with
      | all h hst =>
        intro k hk
        simp at hk
      | rest h hst => exact SupervisorLogic.covered_of_positionsMatch (ha exit now rfl (by simp)) hst h
    | meltdown exit now hsup hact =>
      cases SupervisorLogic.decides_of_onChildExit hact with
      | meltdown hidx hchild hr hi =>
        refine SupervisorLogic.covered_of_none ?_
        simpa [SupervisorLogic.recorded] using hpc.none_of_unsuppressed hsup
    | terminateRemote answer hremote halive => exact hc.markChildDead _
    | terminateRemoteDead => exact hc
    | terminateLocal reason hremote hlocal hτ => exact hc.markChildDead _
    | terminateNone => exact hc
    | incomplete => exact hc
    | complete => exact hnone trivial
    | backoff => exact hnone trivial
    | relaunchNone => exact hc
    | relaunchLocal => exact hnone trivial
    | relaunchFailed => exact hnone trivial
    | relaunchRemote => exact hnone trivial
    | restarted => exact hc
  · cases hstep with
    | started => exact Or.inl (hpc.quiet trivial)
    | ignore exit now hsup hact =>
      have hp := hpc.none_of_unsuppressed hsup
      cases SupervisorLogic.decides_of_onChildExit hact with
      | suppressed h => exact Or.inl hp
      | unknown h => exact Or.inl hp
      | final hidx hchild hr => exact Or.inl (by simpa [SupervisorLogic.resetBackoff] using hp)
    | meltdown exit now hsup hact =>
      cases SupervisorLogic.decides_of_onChildExit hact with
      | meltdown hidx hchild hr hi =>
        exact Or.inl (by simpa [SupervisorLogic.recorded] using hpc.none_of_unsuppressed hsup)
    | incomplete hdone => exact Or.inr hdone
    | restarted => exact Or.inl (hpc.quiet trivial)
    | _ => trivial

/-- **A batch restart never wedges while positions match.** In every state the engine goes through, completion of a
pending batch is exact; and between two callbacks either restarts are enabled and no batch is pending, or a child of
the pending batch is still alive. -/
theorem batch_never_wedges (ctx : Context) (b : SupervisorBuilder) (hist : List (Conf × Act)) (c : Conf)
    (h : Run (Micro ctx) ⟨b.build, .start 0 b.specs⟩ hist c) (ha : ∀ x ∈ hist, BatchAligned x.1 x.2) :
    c.sup.logic.BatchExact ∧
      (c.todo = .idle →
        (c.sup.logic.pendingBatchRestart = none ∧ c.sup.logic.suppressRestarts = false) ∨
        ∃ pending, c.sup.logic.pendingBatchRestart = some pending ∧
          ∃ child ∈ c.sup.logic.children, child.policy.id ∈ c.sup.logic.batchIds pending ∧ child.isAlive = true) := by
  have hinv : BatchInv c := h.inv_of_steps (batchInv_init b) (fun _ _ _ => batchInv_step) ha
  have hexact := SupervisorLogic.batchExact_of_covered hinv.order.ordered hinv.covered
  refine ⟨hexact, fun hidle => ?_⟩
  have hsettled := hinv.settled
  rw [hidle] at hsettled
  cases hp : c.sup.logic.pendingBatchRestart with
  | none => exact Or.inl ⟨rfl, hinv.pending.unsuppressed hp⟩
  | some pending =>
    refine Or.inr ⟨pending, rfl, ?_⟩
    have hincomplete : ¬c.sup.logic.pendingBatchRestartComplete = true := by
      rcases hsettled with hnone | hfalse
      · rw [hp] at hnone
        cases hnone
      · simp [hfalse]
    have halive := (hexact pending hp).not.mp hincomplete
    push Not at halive
    simpa using halive

/-- Two local children under `RestForOne`. -/
def pairBuilder : SupervisorBuilder where
  strategy := .restForOne
  specs := [{ id := "a", restart := .permanent }, { id := "b", restart := .permanent }]

/-- The first of two children panics: the batch begins, positions match, and completion is exact. -/
theorem batch_never_wedges_pair :
    ∃ c : Conf, c.sup.logic.pendingBatchRestart = some (.fromIndex 0) ∧ c.sup.logic.BatchExact := by
  have hrun : ∃ hist c, Run (Micro ⟨⟨"n", 0⟩⟩) ⟨pairBuilder.build, .start 0 pairBuilder.specs⟩ hist c ∧
      c.sup.logic.pendingBatchRestart = some (.fromIndex 0) ∧ ∀ x ∈ hist, BatchAligned x.1 x.2 := by
    refine ⟨_, _, Run.nil |>.snoc (.startLocal ⟨1⟩ rfl) |>.snoc (.startLocal ⟨2⟩ rfl) |>.snoc .started |>.snoc
      (.terminateBatch ⟨⟨"n", 1⟩, .panic "boom"⟩ 0 rfl rfl), rfl, ?_⟩
    intro x hx
    simp only [List.nil_append, List.cons_append, List.mem_cons, List.not_mem_nil, or_false] at hx
    rcases hx with rfl | rfl | rfl | rfl
    · intro exit now he
      cases he
    · intro exit now he
      cases he
    · intro exit now he
      cases he
    · intro exit now he _ _ p child h
      cases he
      have hp : some 0 = some p := h.index
      cases hp
      have hchild := h.child_eq
      cases hchild
      exact ⟨Nat.zero_le _, fun j other hj => absurd hj (Nat.not_lt_zero j)⟩
  obtain ⟨hist, c, hrun, hp, ha⟩ := hrun
  exact ⟨c, hp, (batch_never_wedges ⟨⟨"n", 0⟩⟩ pairBuilder hist c hrun ha).1⟩

/-- Two remote children and a local one under `RestForOne`. -/
def gapBuilder : SupervisorBuilder where
  strategy := .restForOne
  specs :=
    [{ id := "a", restart := .permanent, placement := .remote "m", remote := some (.named "a") },
     { id := "b", restart := .permanent, placement := .remote "m", remote := some (.named "b") },
     { id := "c", restart := .permanent }]

/-- **A wedged batch.** Both remote children fail to start, so the local child with start index 2 sits at position 0.
Its panic begins a batch from index 2; the child is dead, the vector is shorter than 2, and the batch is never
complete. -/
theorem batch_wedges_behind_gap :
    ¬∀ (ctx : Context) (b : SupervisorBuilder) (hist : List (Conf × Act)) (c : Conf),
      Run (Micro ctx) ⟨b.build, .start 0 b.specs⟩ hist c → c.sup.logic.BatchExact := by
  intro h
  have hrun : Run (Micro ⟨⟨"n", 0⟩⟩) ⟨gapBuilder.build, .start 0 gapBuilder.specs⟩ _ _ := Run.nil
    |>.snoc (.startFailed (.transport "down") rfl rfl) |>.snoc (.startFailed (.transport "down") rfl rfl)
    |>.snoc (.startLocal ⟨1⟩ rfl) |>.snoc .started
    |>.snoc (.terminateBatch ⟨⟨"n", 1⟩, .panic "boom"⟩ 0 rfl rfl)
    |>.snoc (.terminateLocal (.panic "boom") rfl rfl ⟨some (.panic "boom"), [], rfl, rfl, rfl⟩)
    |>.snoc (.incomplete rfl)
  have hexact := (h _ _ _ _ hrun _ rfl).mpr (by decide)
  exact absurd hexact (by decide)

end Supervisor

end Spawned
