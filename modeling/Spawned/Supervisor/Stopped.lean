import Mathlib.Data.List.TakeWhile
import Spawned.Supervisor.Tracked

/-!
# Stopping a supervisor

`stopped` goes through all children in the reverse order of their start. A local child that has completed is left alone,
because `shutdown_child_async` looks before it asks; a remote child is shut down and waited for whenever the supervisor
has a handle for it, and the handle of a child that is marked dead is still there.

* `shutdownOf` : what the loop does for one child; `exec_shutdownEach` cuts the calls of the loop into the children's;
* `Placed` : start indices increase along the vector, and no child has a handle on both sides;
* `Spares`, `AskedOnce` : what a child marked dead, and one marked alive, should see of it;
* `stopped_spares_the_dead_iff` : the exact condition.
-/

namespace Spawned

open Lib

namespace Supervisor

/-! ## The loop, child by child -/

/-- The body of the loop of `stopped`. -/
def shutdownOf (s : Supervisor) (id : String) : SupProg Unit := do
  if let some handle := s.handles id then
    let _ ← shutdownChildAsync handle (s.shutdownFor id)
  if let some remote := s.remoteHandles id then
    let _ ← ask (.shutdownRemoteAndWait remote (s.shutdownFor id))

variable {s : Supervisor} {τ σ : SupTrace} {id : String} {handle : ChildHandle} {remote : RemoteChildHandle}

theorem exec_shutdownOf_local (hl : s.handles id = some handle) (hr : s.remoteHandles id = none) :
    (s.shutdownOf id).Exec τ () ↔ ∃ reason, (shutdownChildAsync handle (s.shutdownFor id)).Exec τ reason := by
  simp only [shutdownOf, hl, hr]
  constructor
  · intro h
    obtain ⟨reason, h₁, -⟩ := Prog.exec_bind_pure.mp h
    exact ⟨reason, h₁⟩
  · rintro ⟨reason, h⟩
    exact Prog.exec_bind_pure.mpr ⟨reason, h, rfl⟩

theorem exec_shutdownOf_remote (hl : s.handles id = none) (hr : s.remoteHandles id = some remote) :
    (s.shutdownOf id).Exec τ () ↔ ∃ answer, τ = [⟨.shutdownRemoteAndWait remote (s.shutdownFor id), answer⟩] := by
  simp only [shutdownOf, hl, hr]
  constructor
  · rintro ⟨answer, τ', rfl, rfl, -⟩
    exact ⟨answer, rfl⟩
  · rintro ⟨answer, rfl⟩
    exact ⟨answer, [], rfl, rfl, rfl⟩

theorem shutdownEach_cons (s : Supervisor) (id : String) (ids : List String) :
    Tasks.Supervisor.shutdownEach s (id :: ids) =
      (s.shutdownOf id >>= fun _ => Tasks.Supervisor.shutdownEach s ids) := by
  rw [Tasks.Supervisor.shutdownEach, shutdownOf]
  cases s.handles id with
  | none => cases s.remoteHandles id <;> rfl
  | some handle =>
    simp only [Prog.bind_assoc']
    cases s.remoteHandles id <;> rfl

/-- The calls of the loop are those for one child after the other. -/
theorem exec_shutdownEach {children : List SupervisedChild} :
    (Tasks.Supervisor.shutdownEach s (children.map (·.policy.id))).Exec τ () ↔
      ∃ parts : List (SupervisedChild × SupTrace), parts.map (·.1) = children ∧ τ = parts.flatMap (·.2) ∧
        ∀ x ∈ parts, (s.shutdownOf x.1.policy.id).Exec x.2 () := by
  induction children generalizing τ with
  | nil =>
    constructor
    · rintro ⟨rfl, -⟩
      exact ⟨[], rfl, rfl, by simp⟩
    · rintro ⟨parts, hparts, rfl, -⟩
      rw [List.map_eq_nil_iff.mp hparts]
      exact ⟨rfl, rfl⟩
  | cons child children ih =>
    rw [List.map_cons, shutdownEach_cons, Prog.exec_bind]
    constructor
    · rintro ⟨σ, u, τ', rfl, hσ, h⟩
      obtain ⟨parts, rfl, rfl, hparts⟩ := ih.mp h
      exact ⟨(child, σ) :: parts, rfl, rfl, List.forall_mem_cons.mpr ⟨hσ, hparts⟩⟩
    · rintro ⟨parts, hchildren, rfl, hparts⟩
      obtain ⟨⟨_, σ⟩, parts, rfl, rfl, rfl⟩ := List.map_eq_cons_iff.mp hchildren
      obtain ⟨hσ, hparts⟩ := List.forall_mem_cons.mp hparts
      exact ⟨σ, (), _, rfl, hσ, ih.mpr ⟨parts, rfl, rfl, hparts⟩⟩

/-! ## The children in their order -/

/-- Start indices increase along the vector, and no child has a handle on both sides. -/
structure Placed (c : Conf) : Prop where
  increasing : c.sup.logic.children.Pairwise (·.policy.startIndex < ·.policy.startIndex)
  below : ∀ index specs, c.todo = .start index specs → ∀ child ∈ c.sup.logic.children, child.policy.startIndex < index
  oneSide : ∀ id, c.sup.remoteSpawnMeta id ≠ none → c.sup.handles id = none
  unstarted : ∀ index specs, c.todo = .start index specs → (specs.map (·.id)).Nodup ∧
    ∀ spec ∈ specs, c.sup.handles spec.id = none ∧ c.sup.remoteSpawnMeta spec.id = none

theorem placed_init (b : SupervisorBuilder) (hids : (b.specs.map (·.id)).Nodup) :
    Placed ⟨b.build, .start 0 b.specs⟩ := by
  refine ⟨List.Pairwise.nil, ?_, fun _ h => absurd rfl h, ?_⟩
  · intro index specs _ child hchild
    simp [SupervisorBuilder.build, SupervisorLogic.new] at hchild
  · intro index specs he
    cases he
    exact ⟨hids, fun spec _ => ⟨rfl, rfl⟩⟩

/-- The start indices are those of the policies. -/
theorem increasing_iff {l : SupervisorLogic} :
    l.children.Pairwise (fun a b => a.policy.startIndex < b.policy.startIndex) ↔
      (l.children.map (·.policy)).Pairwise (fun a b => a.startIndex < b.startIndex) := by
  rw [List.pairwise_map]

/-- A child is started on the side of its spec, and restarted on the side it was started on. -/
theorem sides_step {ctx : Context} {c c' : Conf} {act : Act} (h : Placed c) (hstep : Micro ctx c act c') :
    (∀ id, c'.sup.remoteSpawnMeta id ≠ none → c'.sup.handles id = none) ∧
      ∀ index specs, c'.todo = .start index specs → (specs.map (·.id)).Nodup ∧
        ∀ spec ∈ specs, c'.sup.handles spec.id = none ∧ c'.sup.remoteSpawnMeta spec.id = none := by
  cases hstep with
  | @startLocal s spec specs index handle hspec =>
    obtain ⟨hnodup, hfresh⟩ := h.unstarted _ _ rfl
    obtain ⟨hnot, hnodup'⟩ := List.nodup_cons.mp hnodup
    obtain ⟨hhead, hrest⟩ := List.forall_mem_cons.mp hfresh
    refine ⟨fun id hid => ?_, fun _ _ he => ?_⟩
    · have hne : id ≠ spec.id := by
        rintro rfl
        exact hid hhead.2
      rw [localStarted_handles, Table.insert_ne _ _ hne]
      exact h.oneSide id hid
    · cases he
      refine ⟨hnodup', fun sp hsp => ?_⟩
      have hne : sp.id ≠ spec.id := fun heq => hnot (List.mem_map.mpr ⟨sp, hsp, heq⟩)
      rw [localStarted_handles, Table.insert_ne _ _ hne]
      exact hrest sp hsp
  | startNoWire hspec hwire =>
    obtain ⟨hnodup, hfresh⟩ := h.unstarted _ _ rfl
    refine ⟨h.oneSide, fun _ _ he => ?_⟩
    cases he
    exact ⟨(List.nodup_cons.mp hnodup).2, (List.forall_mem_cons.mp hfresh).2⟩
  | startFailed error hwire hplace =>
    obtain ⟨hnodup, hfresh⟩ := h.unstarted _ _ rfl
    refine ⟨h.oneSide, fun _ _ he => ?_⟩
    cases he
    exact ⟨(List.nodup_cons.mp hnodup).2, (List.forall_mem_cons.mp hfresh).2⟩
  | @startRemote s spec specs index wire placement address hwire hplace =>
    obtain ⟨hnodup, hfresh⟩ := h.unstarted _ _ rfl
    obtain ⟨hnot, hnodup'⟩ := List.nodup_cons.mp hnodup
    obtain ⟨hhead, hrest⟩ := List.forall_mem_cons.mp hfresh
    refine ⟨fun id hid => ?_, fun _ _ he => ?_⟩
    · by_cases heq : id = spec.id
      · rw [heq]
        exact hhead.1
      · rw [remoteStarted_remoteSpawnMeta, Table.insert_ne _ _ heq] at hid
        exact h.oneSide id hid
    · cases he
      refine ⟨hnodup', fun sp hsp => ?_⟩
      have hne : sp.id ≠ spec.id := fun heq => hnot (List.mem_map.mpr ⟨sp, hsp, heq⟩)
      rw [remoteStarted_remoteSpawnMeta, Table.insert_ne _ _ hne]
      exact hrest sp hsp
  | @relaunchLocal s id ids spec handle hmeta hspec =>
    refine ⟨fun id' hid' => ?_, by simp⟩
    have hne : id' ≠ id := by
      rintro rfl
      exact hid' hmeta
    rw [localRestarted_handles, Table.insert_ne _ _ hne]
    exact h.oneSide id' hid'
  | @relaunchFailed s id ids spawned error hmeta =>
    refine ⟨fun id' hid' => ?_, by simp⟩
    rw [remoteDropped_remoteSpawnMeta, Table.remove_apply] at hid'
    split_ifs at hid' with heq
    · exact absurd rfl hid'
    · exact h.oneSide id' hid'
  | _ => exact ⟨h.oneSide, by simp⟩

theorem placed_step {ctx : Context} {c c' : Conf} {act : Act} (h : Placed c) (hstep : Micro ctx c act c') :
    Placed c' := by
  have hsides := sides_step h hstep
  rcases policies_step hstep with ⟨hp, htodo⟩ | ⟨index, spec, specs, slot, ht, ht', hl⟩ | ⟨id, hl, ht'⟩
  · refine ⟨?_, ?_, hsides.1, hsides.2⟩
    · rw [increasing_iff, hp, ← increasing_iff]
      exact h.increasing
    · intro index' specs' he child hchild
      rcases htodo with hnot | ⟨index, spec, specs, ht, ht'⟩
      · exact absurd he (hnot _ _)
      · rw [ht'] at he
        cases he
        have hmem : child.policy ∈ c.sup.logic.children.map (·.policy) := hp ▸ List.mem_map_of_mem hchild
        obtain ⟨old, hold, heq⟩ := List.mem_map.mp hmem
        have hlt := h.below _ _ ht old hold
        rw [← heq]
        omega
  · have hchildren : c'.sup.logic.children = c.sup.logic.children ++
        [{ policy := { id := spec.id, restart := spec.restart, startIndex := index }, handle := some slot }] := by
      rw [hl]
      rfl
    have hbelow := h.below _ _ ht
    refine ⟨?_, ?_, hsides.1, hsides.2⟩
    · rw [hchildren, List.pairwise_append]
      refine ⟨h.increasing, List.pairwise_singleton _ _, ?_⟩
      intro child hchild new hnew
      rw [List.mem_singleton.mp hnew]
      exact hbelow child hchild
    · intro index' specs' he child hchild
      rw [ht'] at he
      cases he
      rw [hchildren] at hchild
      rcases List.mem_append.mp hchild with hchild | hchild
      · exact Nat.lt_succ_of_lt (hbelow child hchild)
      · rw [List.mem_singleton.mp hchild]
        exact Nat.lt_succ_self index
  · refine ⟨?_, fun index specs he => absurd he (ht' _ _), hsides.1, hsides.2⟩
    rw [hl]
    exact h.increasing.sublist List.eraseP_sublist

/-- The state of a supervisor between two callbacks. -/
theorem placed_lives {rt : Runtime} {ctx : Context} {b : SupervisorBuilder} {τ₀ : SupTrace}
    {hist : List (Serving Supervisor × Turn Empty Empty)} {p : Serving Supervisor} (hids : (b.specs.map (·.id)).Nodup)
    (h : (rt.supervisor ctx).Lives b.build τ₀ hist p) : Placed ⟨p.state, .idle⟩ ∧ Tracks ⟨p.state, .idle⟩ := by
  obtain ⟨s₀, start, turns, hstart, -, -, hturns, -⟩ := machine_of_lives h
  have hrun := hstart.append hturns
  exact ⟨hrun.inv (placed_init b hids) fun _ _ _ => placed_step, hrun.inv (tracks_init b hids) fun _ _ _ => tracks_step⟩

/-- Where start indices increase along the vector, the order is that of the vector reversed. -/
theorem shutdownOrder_eq {l : SupervisorLogic}
    (h : l.children.Pairwise (·.policy.startIndex < ·.policy.startIndex)) :
    l.shutdownOrder = (l.children.map (·.policy.id)).reverse := by
  unfold SupervisorLogic.shutdownOrder
  suffices hsort : ∀ children : List SupervisedChild,
      children.Pairwise (·.policy.startIndex < ·.policy.startIndex) →
      (children.map (fun child => (child.policy.startIndex, child.policy.id))).insertionSort (fun a b => b.1 ≤ a.1) =
        (children.map (fun child => (child.policy.startIndex, child.policy.id))).reverse by
    rw [hsort l.children h, List.map_reverse, List.map_map]
    rfl
  intro children hc
  induction children with
  | nil => rfl
  | cons child children ih =>
    obtain ⟨hfirst, hrest⟩ := List.pairwise_cons.mp hc
    -- the first child was started before all others, so it goes to the end
    have hlast : ∀ x ∈ (children.map (fun child => (child.policy.startIndex, child.policy.id))).reverse,
        decide (¬x.1 ≤ child.policy.startIndex) = true := by
      intro x hx
      obtain ⟨other, hother, rfl⟩ := List.mem_map.mp (List.mem_reverse.mp hx)
      simpa using hfirst other hother
    rw [List.map_cons, List.insertionSort_cons, ih hrest, List.reverse_cons, List.orderedInsert_eq_take_drop,
      List.takeWhile_eq_self_iff.mpr hlast, List.dropWhile_eq_nil_iff.mpr hlast]

/-! ## What a child sees of it -/

/-- The request that begins the shutdown of a child; the kill after a timeout belongs to the same shutdown. -/
def opens (shutdown : ShutdownType) : SupOp → Bool
  | .shutdown _ | .shutdownRemoteAndWait _ _ => true
  | .kill _ => shutdown == .brutalKill
  | _ => false

/-- A request to a child, or a wait for one. -/
def disturbs : SupOp → Bool
  | .shutdown _ | .kill _ | .waitExit _ | .waitExitWithTimeout _ _ | .shutdownRemoteAndWait _ _ => true
  | _ => false

theorem disturbs_of_opens {shutdown : ShutdownType} {e : SupOp} (h : opens shutdown e = true) : disturbs e = true := by
  cases e <;> first | rfl | cases h

/-- The calls for a child that is marked alive: they are all for its actor, and begin its shutdown once, unless the actor
turns out to have exited. -/
def AskedOnce (ctx : Context) (s : Supervisor) (child : SupervisedChild) (σ : SupTrace) : Prop :=
  (∀ call ∈ σ, target ctx call.op = s.addressOf ctx child) ∧
    (σ.countP (fun call => opens (s.shutdownFor child.policy.id) call.op) = 1 ∨
      ∃ handle reason, σ = [⟨.exitReason handle, some reason⟩])

/-- The calls for a child that is marked dead: nothing is asked of it, and it is not waited for. -/
def Spares (σ : SupTrace) : Prop := ∀ call ∈ σ, disturbs call.op = false

/-- `stopped` made the calls `τ`: child after child in strictly decreasing start index, with those alive shut down once
and those dead spared, and nothing is started. -/
def StopsLiving (ctx : Context) (s : Supervisor) (τ : SupTrace) : Prop :=
  (∃ parts : List (SupervisedChild × SupTrace), τ = parts.flatMap (·.2) ∧
    (parts.map (·.1)).Perm s.logic.children ∧
    (parts.map (·.1)).Pairwise (fun a b => b.policy.startIndex < a.policy.startIndex) ∧
    (∀ x ∈ parts, (s.shutdownOf x.1.policy.id).Exec x.2 ()) ∧
    (∀ x ∈ parts, x.1.isAlive = true → AskedOnce ctx s x.1 x.2) ∧
    ∀ x ∈ parts, x.1.isAlive = false → Spares x.2) ∧
  ∀ call ∈ τ, StartsNothing call.op

/-- A local shutdown ends at once if the child has exited, and else begins with the one request of its policy. -/
theorem exec_shutdownChildAsync_cases {shutdown : ShutdownType} {reason : ExitReason}
    (h : (shutdownChildAsync handle shutdown).Exec σ reason) :
    σ = [⟨.exitReason handle, some reason⟩] ∨
      ⟨.exitReason handle, none⟩ ∈ σ ∧ σ.countP (fun call => opens shutdown call.op) = 1 := by
  rcases exec_shutdownChildAsync_shape h with rfl | ⟨ρ, rfl, hρ⟩
  · exact Or.inl rfl
  · refine Or.inr ⟨List.mem_cons_self, ?_⟩
    cases shutdown with
    | brutalKill =>
      obtain rfl := hρ
      rfl
    | infinity =>
      obtain rfl := hρ
      rfl
    | timeout d => rcases hρ with rfl | rfl <;> rfl

/-! ## The condition -/

/-- Every child marked dead is local, and its actor has completed. -/
def DeadAreGone (completed : ActorId → Prop) (s : Supervisor) : Prop :=
  ∀ child ∈ s.logic.children, child.isAlive = false → s.remoteHandles child.policy.id = none ∧
    ∀ handle ∈ s.handles child.policy.id, completed handle.id

instance (completed : ActorId → Prop) [DecidablePred completed] (s : Supervisor) :
    Decidable (DeadAreGone completed s) :=
  inferInstanceAs (Decidable (∀ child ∈ s.logic.children, _ → _ ∧ _))

/-- An actor that has completed is seen to have. -/
def SeesCompleted (completed : ActorId → Prop) (τ : SupTrace) : Prop :=
  ∀ handle, ⟨.exitReason handle, none⟩ ∈ τ → ¬completed handle.id

section Children

variable {child : SupervisedChild}

/-- A child has a handle on one side, and it names the actor in its slot. -/
theorem handle_cases (hplaced : Placed ⟨s, .idle⟩) (htracks : Tracks ⟨s, .idle⟩) (hc : child ∈ s.logic.children) :
    (∃ handle, s.handles child.policy.id = some handle ∧ s.remoteHandles child.policy.id = none ∧
        child.slotId = some handle.id) ∨
      ∃ remote, s.handles child.policy.id = none ∧ s.remoteHandles child.policy.id = some remote := by
  obtain ⟨hslot, hsome⟩ := htracks.slots child hc
  cases hr : s.remoteHandles child.policy.id with
  | some remote => exact Or.inr ⟨remote, hplaced.oneSide _ (htracks.spawned _ _ hr), rfl⟩
  | none =>
    simp only [tracked, hr] at hslot
    cases hl : s.handles child.policy.id with
    | none => simp [hslot, hl] at hsome
    | some handle =>
      rw [hl] at hslot
      exact Or.inl ⟨handle, rfl, rfl, hslot⟩

/-- A child that is marked alive is asked once. -/
theorem askedOnce_of_exec (ctx : Context) (hplaced : Placed ⟨s, .idle⟩) (htracks : Tracks ⟨s, .idle⟩)
    (hc : child ∈ s.logic.children) (h : (s.shutdownOf child.policy.id).Exec σ ()) : AskedOnce ctx s child σ := by
  rcases handle_cases hplaced htracks hc with ⟨handle, hl, hr, hslot⟩ | ⟨remote, hl, hr⟩
  · obtain ⟨reason, hσ⟩ := (exec_shutdownOf_local hl hr).mp h
    refine ⟨fun call hcall => ?_, ?_⟩
    · have ha : s.addressOf ctx child = some ⟨ctx.actorAddress.node, handle.id⟩ := by simp [addressOf, hr, hslot]
      rw [ha]
      rcases (calls_shutdownChildAsync _ _).of_exec hσ call hcall with he | he | he | he | ⟨d, he⟩ <;> rw [he] <;> rfl
    · rcases exec_shutdownChildAsync_cases hσ with he | ⟨-, hcount⟩
      · exact Or.inr ⟨handle, reason, he⟩
      · exact Or.inl hcount
  · obtain ⟨answer, rfl⟩ := (exec_shutdownOf_remote hl hr).mp h
    refine ⟨fun call hcall => ?_, Or.inl rfl⟩
    have ha : s.addressOf ctx child = some remote.address := by simp [addressOf, hr]
    rw [List.mem_singleton.mp hcall, ha]
    rfl

/-- A child that is marked dead is spared if it is local and has completed. -/
theorem spares_of_exec {completed : ActorId → Prop} (hplaced : Placed ⟨s, .idle⟩) (htracks : Tracks ⟨s, .idle⟩)
    (hc : child ∈ s.logic.children) (hgone : DeadAreGone completed s) (hdead : child.isAlive = false)
    (hsees : SeesCompleted completed σ) (h : (s.shutdownOf child.policy.id).Exec σ ()) : Spares σ := by
  obtain ⟨hnone, hcompleted⟩ := hgone child hc hdead
  rcases handle_cases hplaced htracks hc with ⟨handle, hl, hr, -⟩ | ⟨remote, -, hr⟩
  · obtain ⟨reason, hσ⟩ := (exec_shutdownOf_local hl hr).mp h
    rcases exec_shutdownChildAsync_cases hσ with rfl | ⟨hmem, -⟩
    · intro call hcall
      rw [List.mem_singleton.mp hcall]
      rfl
    · exact absurd (hcompleted handle hl) (hsees handle hmem)
  · rw [hnone] at hr
    cases hr

/-- Sparing it takes no less, if what is answered is what has completed. -/
theorem gone_of_spares {completed : ActorId → Prop} (hplaced : Placed ⟨s, .idle⟩) (htracks : Tracks ⟨s, .idle⟩)
    (hc : child ∈ s.logic.children) (hspares : Spares σ) (h : (s.shutdownOf child.policy.id).Exec σ ())
    (hanswers : ∀ handle reason, ⟨.exitReason handle, some reason⟩ ∈ σ → completed handle.id) :
    s.remoteHandles child.policy.id = none ∧ ∀ handle ∈ s.handles child.policy.id, completed handle.id := by
  rcases handle_cases hplaced htracks hc with ⟨handle, hl, hr, -⟩ | ⟨remote, hl, hr⟩
  · refine ⟨hr, fun handle' hl' => ?_⟩
    obtain rfl : handle = handle' := Option.some.inj (hl.symm.trans hl')
    obtain ⟨reason, hσ⟩ := (exec_shutdownOf_local hl hr).mp h
    rcases exec_shutdownChildAsync_cases hσ with rfl | ⟨-, hcount⟩
    · exact hanswers handle reason List.mem_cons_self
    · obtain ⟨call, hcall, hopens⟩ := List.countP_pos_iff.mp (hcount ▸ Nat.one_pos)
      cases (disturbs_of_opens hopens).symm.trans (hspares call hcall)
  · obtain ⟨answer, rfl⟩ := (exec_shutdownOf_remote hl hr).mp h
    cases hspares _ List.mem_cons_self

end Children

/-! ## The supervisor as it stops -/

/-- Answers by which exactly the actors in `completed` have exited. -/
def answersOf (completed : ActorId → Prop) [DecidablePred completed] : (e : SupOp) → e.Ans
  | .exitReason handle => if completed handle.id then some .normal else none
  | e => calmAnswers [] e

variable {rt : Runtime} {ctx : Context} {completed : ActorId → Prop} {s' : Supervisor}

theorem exec_stopped (hplaced : Placed ⟨s, .idle⟩) : (∃ s', ((rt.supervisor ctx).stopped s).Exec τ s') ↔
    ∃ parts : List (SupervisedChild × SupTrace), parts.map (·.1) = s.logic.children.reverse ∧
      τ = parts.flatMap (·.2) ∧ ∀ x ∈ parts, (s.shutdownOf x.1.policy.id).Exec x.2 () := by
  have horder : (s.logic.setSuppressRestarts true).shutdownOrder = s.logic.children.reverse.map (·.policy.id) := by
    rw [List.map_reverse]
    exact shutdownOrder_eq hplaced.increasing
  have hstopped : (∃ s', ((rt.supervisor ctx).stopped s).Exec τ s') ↔
      (Tasks.Supervisor.shutdownEach { s with logic := s.logic.setSuppressRestarts true }
        (s.logic.setSuppressRestarts true).shutdownOrder).Exec τ () := by
    rw [Runtime.supervisor_eq]
    constructor
    · rintro ⟨s', h⟩
      obtain ⟨u, h₁, -⟩ := Prog.exec_bind_pure.mp h
      exact h₁
    · intro h
      exact ⟨_, Prog.exec_bind_pure.mpr ⟨(), h, rfl⟩⟩
  rw [hstopped, horder, exec_shutdownEach]
  rfl

theorem stopsLiving_iff (hplaced : Placed ⟨s, .idle⟩) (htracks : Tracks ⟨s, .idle⟩) :
    (∀ τ s', ((rt.supervisor ctx).stopped s).Exec τ s' → SeesCompleted completed τ → StopsLiving ctx s τ) ↔
      DeadAreGone completed s := by
  constructor
  · intro hstops child hc hdead
    classical
    obtain ⟨τ, s', hexec, hanswers⟩ := Prog.exec_answers (answersOf completed) ((rt.supervisor ctx).stopped s)
    have hsees : SeesCompleted completed τ := by
      intro handle hcall hcompleted
      have hans := hanswers _ hcall
      simp [answersOf, hcompleted] at hans
    obtain ⟨⟨parts, rfl, hperm, -, hparts, -, hspares⟩, -⟩ := hstops τ s' hexec hsees
    obtain ⟨x, hx, rfl⟩ := List.mem_map.mp (hperm.mem_iff.mpr hc)
    refine gone_of_spares hplaced htracks hc (hspares x hx hdead) (hparts x hx) ?_
    intro handle reason hcall
    have hans := hanswers _ (List.mem_flatMap.mpr ⟨x, hx, hcall⟩)
    by_contra hnot
    simp [answersOf, hnot] at hans
  · intro hgone τ s' hexec hsees
    obtain ⟨parts, hchildren, rfl, hparts⟩ := (exec_stopped hplaced).mp ⟨s', hexec⟩
    have hmem : ∀ x ∈ parts, x.1 ∈ s.logic.children := by
      intro x hx
      rw [← List.mem_reverse, ← hchildren]
      exact List.mem_map_of_mem hx
    refine ⟨⟨parts, rfl, ?_, ?_, hparts, ?_, ?_⟩, ?_⟩
    · rw [hchildren]
      exact List.reverse_perm _
    · rw [hchildren, List.pairwise_reverse]
      exact hplaced.increasing
    · intro x hx _
      exact askedOnce_of_exec ctx hplaced htracks (hmem x hx) (hparts x hx)
    · intro x hx hdead
      refine spares_of_exec hplaced htracks (hmem x hx) hgone hdead ?_ (hparts x hx)
      intro handle hcall
      exact hsees handle (List.mem_flatMap.mpr ⟨x, hx, hcall⟩)
    · rw [Runtime.supervisor_eq] at hexec
      exact (calls_stopped s).of_exec hexec

/-- **When `stopped` shuts down exactly the living**: a supervisor of children with distinct ids, in any state between
two callbacks and whatever it is answered, goes through its children in strictly decreasing start index, shuts down those
marked alive once and spares those marked dead if and only if every child marked dead is local and has completed. -/
theorem stopped_spares_the_dead_iff (rt : Runtime) (ctx : Context) (b : SupervisorBuilder) (τ₀ : SupTrace)
    (hist : List (Serving Supervisor × Turn Empty Empty)) (p : Serving Supervisor)
    (hids : (b.specs.map (·.id)).Nodup) (h : (rt.supervisor ctx).Lives b.build τ₀ hist p)
    (completed : ActorId → Prop) :
    (∀ τ s', ((rt.supervisor ctx).stopped p.state).Exec τ s' → SeesCompleted completed τ →
        StopsLiving ctx p.state τ) ↔
      DeadAreGone completed p.state := by
  obtain ⟨hplaced, htracks⟩ := placed_lives hids h
  exact stopsLiving_iff hplaced htracks

/-- Two children that are not restarted when they finish: a local one, and one on the node `m`. -/
def errandBuilder : SupervisorBuilder where
  specs := [{ id := "here", restart := .transient },
    { id := "there", restart := .transient, placement := .remote "m", remote := some (.named "worker") }]

def errandLife (done : ActorAddress) : Life Supervisor Empty Empty :=
  (Runtime.supervisor .tasks ⟨⟨"n", 0⟩⟩).life (clusterAnswers (.ok ())) errandBuilder.build [.exit ⟨done, .normal⟩]

/-- The local child (actor 2) has finished, and is spared when the supervisor stops. -/
theorem finished_local_is_spared : DeadAreGone (· = 2) (errandLife ⟨"n", 2⟩).last.state ∧
    ∀ τ s', ((Runtime.supervisor .tasks ⟨⟨"n", 0⟩⟩).stopped (errandLife ⟨"n", 2⟩).last.state).Exec τ s' →
      SeesCompleted (· = 2) τ → StopsLiving ⟨⟨"n", 0⟩⟩ (errandLife ⟨"n", 2⟩).last.state τ := by
  have hgone : DeadAreGone (· = 2) (errandLife ⟨"n", 2⟩).last.state := by decide
  exact ⟨hgone, (stopped_spares_the_dead_iff .tasks ⟨⟨"n", 0⟩⟩ errandBuilder _ _ _ (by decide)
    (Callbacks.lives_life ..) (· = 2)).mpr hgone⟩

/-- The child on `m` (actor 3) has finished, and is shut down and waited for when the supervisor stops. -/
theorem finished_remote_is_shut_down :
    (errandBuilder.specs.map (·.id)).Nodup ∧
      (Runtime.supervisor .tasks ⟨⟨"n", 0⟩⟩).Lives errandBuilder.build (errandLife ⟨"m", 3⟩).startCalls
        (errandLife ⟨"m", 3⟩).turns (errandLife ⟨"m", 3⟩).last ∧
      ¬∀ τ s', ((Runtime.supervisor .tasks ⟨⟨"n", 0⟩⟩).stopped (errandLife ⟨"m", 3⟩).last.state).Exec τ s' →
        SeesCompleted (fun _ => True) τ → StopsLiving ⟨⟨"n", 0⟩⟩ (errandLife ⟨"m", 3⟩).last.state τ := by
  have hids : (errandBuilder.specs.map (·.id)).Nodup := by decide
  have hlives : (Runtime.supervisor .tasks ⟨⟨"n", 0⟩⟩).Lives errandBuilder.build (errandLife ⟨"m", 3⟩).startCalls
      (errandLife ⟨"m", 3⟩).turns (errandLife ⟨"m", 3⟩).last := Callbacks.lives_life ..
  refine ⟨hids, hlives, ?_⟩
  obtain ⟨hplaced, htracks⟩ := placed_lives hids hlives
  rw [stopsLiving_iff hplaced htracks]
  decide

end Supervisor

end Spawned
