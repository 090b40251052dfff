import Spawned.Cluster.RemoteSpawn
import Spawned.Supervisor.Address
import Spawned.Supervisor.Stale

/-!
# What the supervisor knows of the actors it started

An actor the supervisor started runs on its own, on this node or another; the supervisor only sees the answers to its
calls and the `Exit`s in its lane. Here the log of a life is set against what is true of the actors: `exited L a` says
that `a` has exited after what happened in `L`.

A remote spawn call makes several attempts, and one whose reply is lost may have started an actor too, at once or long
after the call has returned. The supervisor sees nothing of it, so such starts stand in the log beside what it saw.

* `Happened`, `lifeLog` : the `Exit`s taken and the calls answered, in their order, and the starts nobody was told of;
* `starts_of_call` : a remote spawn call that starts nothing for an attempt given up starts what its answer says;
* `Truth` : an actor that has exited stays so, and neither an `Exit` nor a local child's answer lies about it;
* `Accounts` : every started actor is exited, or is the current actor of the child it was started for and believed
  alive, at every point of the log;
* `started_actors_are_tracked`, `one_instance_at_a_time` : the main results.
-/

namespace Spawned

open Lib

namespace Supervisor

/-! ## The log of a life -/

inductive Happened
  | took (exit : Exit)
  | called (call : SupCall)
  /-- an attempt to spawn the child whose reply is not read has started an actor -/
  | lost (childId : String) (address : ActorAddress)

namespace Happened

def seen : Happened → Bool
  | .lost _ _ => false
  | _ => true

/-- The actor that was started, and the child it is for. -/
def starts (ctx : Context) : Happened → Option (String × ActorAddress)
  | .called ⟨.startChild spec, handle⟩ => some (spec.id, ⟨ctx.actorAddress.node, handle.id⟩)
  | .called ⟨.requestSpawnWithRetry childId _ _ _ _, .ok address⟩ => some (childId, address)
  | .lost childId address => some (childId, address)
  | _ => none

/-- The actor of which an `Exit` or a local child's answer says that it has exited. -/
def ends (ctx : Context) : Happened → Option ActorAddress
  | .took exit => some exit.from
  | .called ⟨.exitReason handle, some _⟩ => some ⟨ctx.actorAddress.node, handle.id⟩
  | .called ⟨.waitExit handle, _⟩ => some ⟨ctx.actorAddress.node, handle.id⟩
  | .called ⟨.waitExitWithTimeout handle _, some _⟩ => some ⟨ctx.actorAddress.node, handle.id⟩
  | _ => none

end Happened

def startedIn (ctx : Context) (L : List Happened) : List (String × ActorAddress) := L.filterMap (·.starts ctx)

def Act.log (act : Act) : List Happened := act.exit.toList.map .took ++ act.calls.map .called

/-- A turn begins with its `Exit`. -/
def eventLog : Event Empty → List Happened
  | .exit exit => [.took exit]
  | .message msg => nomatch msg

def turnLog (turn : Turn Empty Empty) : List Happened := eventLog turn.event ++ turn.calls.map .called

def lifeLog (τ₀ : SupTrace) (hist : List (Serving Supervisor × Turn Empty Empty)) : List Happened :=
  τ₀.map .called ++ hist.flatMap fun x => turnLog x.2

/-- `L` is what happened in a life: what the supervisor saw, and between it the starts it was not told of. -/
def LogOf (τ₀ : SupTrace) (hist : List (Serving Supervisor × Turn Empty Empty)) (L : List Happened) : Prop :=
  L.filter (·.seen) = lifeLog τ₀ hist

/-- A remote spawn call none of whose children was started for an attempt given up: its children are those its answer
stands for in the log. -/
theorem starts_of_call (ctx : Context) {call : SpawnCall} {s : SpawnCall.State} (childId : String)
    {answer : Except RemoteSpawnError ActorAddress} (h : call.SpawnInv s) (hdone : s.home = .done answer)
    (hkept : ∀ x ∈ s.started, x.1 ∉ s.abandoned) :
    s.started.map (fun x => (childId, x.2)) =
      startedIn ctx [.called ⟨.requestSpawnWithRetry childId call.placement call.parent call.spec call.link, answer⟩] := by
  obtain ⟨-, hok, herror⟩ := h.settled hkept
  cases answer with
  | error err =>
    rw [herror err hdone]
    rfl
  | ok address =>
    calc s.started.map (fun x => (childId, x.2))
        = (s.started.map (·.2)).map (Prod.mk childId) := by rw [List.map_map]; rfl
      _ = [(childId, address)] := by rw [hok address hdone]; rfl

/-! ## What is true of the actors -/

/-- Exits are final, and those reported have happened. -/
structure Truth (ctx : Context) (exited : List Happened → ActorAddress → Prop) : Prop where
  stays : ∀ L x a, exited L a → exited (L ++ [x]) a
  reported : ∀ L x a, x.ends ctx = some a → exited (L ++ [x]) a

/-- When a remote shutdown wait returns, with whatever answer, the remote child has exited. -/
def WaitsOut (exited : List Happened → ActorAddress → Prop) (L : List Happened) (x : Happened) : Prop :=
  ∀ remote shutdown answer, x = .called ⟨.shutdownRemoteAndWait remote shutdown, answer⟩ →
    exited (L ++ [x]) remote.address

/-- When an `Exit` is taken, the actor of every child it can be attributed to has exited. -/
def OwnExit (ctx : Context) (exited : List Happened → ActorAddress → Prop) (L : List Happened) (s : Supervisor)
    (exit : Exit) : Prop :=
  ∀ child ∈ s.logic.children, child.handle = some { id := exit.from.actorId, alive := true } →
    ∀ a, s.addressOf ctx child = some a → exited (L ++ [.took exit]) a

/-- A start finds every earlier actor of the same child exited. -/
def Alone (ctx : Context) (exited : List Happened → ActorAddress → Prop) (L : List Happened) (x : Happened) : Prop :=
  ∀ id a, x.starts ctx = some (id, a) → ∀ a', (id, a') ∈ startedIn ctx L → exited L a'

/-! ## What the supervisor would shut down -/

/-- The actor `terminate_children` shuts down for an id. -/
def terminates (ctx : Context) (s : Supervisor) (id : String) : Option ActorAddress :=
  match s.remoteHandles id with
  | some remote => if s.logic.isChildAlive id then some remote.address else none
  | none => (s.handles id).map fun handle => ⟨ctx.actorAddress.node, handle.id⟩

/-- The actors `stopped` shuts down for an id. -/
def stops (ctx : Context) (s : Supervisor) (id : String) : List ActorAddress :=
  ((s.handles id).map fun handle => ⟨ctx.actorAddress.node, handle.id⟩).toList ++
    ((s.remoteHandles id).map (·.address)).toList

/-- The actor is that of exactly one child, and what both shutdowns reach for it. -/
def TracksActor (ctx : Context) (s : Supervisor) (a : ActorAddress) : Prop :=
  ∃ child, s.logic.children.filter (fun child => decide (s.addressOf ctx child = some a)) = [child] ∧
    s.terminates ctx child.policy.id = some a ∧ a ∈ s.stops ctx child.policy.id

/-- The actor a request or a wait is for. -/
def target (ctx : Context) : SupOp → Option ActorAddress
  | .exitReason handle | .shutdown handle | .kill handle | .waitExit handle | .waitExitWithTimeout handle _ =>
    some ⟨ctx.actorAddress.node, handle.id⟩
  | .shutdownRemoteAndWait remote _ => some remote.address
  | _ => none

/-- Some call was for the actor. -/
def Reached (ctx : Context) (τ : SupTrace) (a : ActorAddress) : Prop := ∃ call ∈ τ, target ctx call.op = some a

section Shutdowns

variable {ctx : Context} {s s' : Supervisor} {τ τ' : SupTrace} {a : ActorAddress} {id : String}

@[simp] theorem reached_nil : ¬Reached ctx [] a := by simp [Reached]

@[simp] theorem reached_append : Reached ctx (τ ++ τ') a ↔ Reached ctx τ a ∨ Reached ctx τ' a := by
  simp only [Reached, List.mem_append, or_and_right, exists_or]

@[simp] theorem reached_cons {call : SupCall} :
    Reached ctx (call :: τ) a ↔ target ctx call.op = some a ∨ Reached ctx τ a := by
  simp [Reached]

/-- A local shutdown reaches its child and nobody else. -/
theorem reached_shutdownChildAsync {handle : ChildHandle} {shutdown : ShutdownType} {reason : ExitReason}
    (h : (shutdownChildAsync handle shutdown).Exec τ reason) :
    Reached ctx τ a ↔ a = ⟨ctx.actorAddress.node, handle.id⟩ := by
  have hcalls : ∀ call ∈ τ, target ctx call.op = some ⟨ctx.actorAddress.node, handle.id⟩ := by
    intro call hcall
    rcases (calls_shutdownChildAsync handle shutdown).of_exec h call hcall with he | he | he | he | ⟨d, he⟩ <;>
      rw [he] <;> rfl
  obtain ⟨call, hcall, -⟩ := exec_shutdownChildAsync h
  constructor
  · rintro ⟨call', hcall', ha⟩
    rw [hcalls call' hcall'] at ha
    exact (Option.some.inj ha).symm
  · rintro rfl
    exact ⟨call, hcall, hcalls call hcall⟩

/-- `terminate_children` on one id reaches the actor `terminates` names, and nobody else. -/
theorem reached_terminateChildren (h : (Tasks.Supervisor.terminateChildren s [id]).Exec τ s') :
    Reached ctx τ a ↔ s.terminates ctx id = some a := by
  unfold Tasks.Supervisor.terminateChildren at h
  unfold terminates
  cases hr : s.remoteHandles id with
  | some remote =>
    simp only [hr] at h ⊢
    split_ifs at h ⊢ with halive
    · obtain ⟨answer, τ', rfl, rfl, -⟩ := h
      simp [target]
    · obtain ⟨rfl, -⟩ := h
      simp
  | none =>
    simp only [hr] at h ⊢
    cases hl : s.handles id with
    | some handle =>
      simp only [hl] at h
      obtain ⟨reason, h₁, -⟩ := Prog.exec_bind_pure.mp h
      rw [reached_shutdownChildAsync h₁]
      simp [eq_comm]
    | none =>
      simp only [hl] at h
      obtain ⟨rfl, -⟩ := h
      simp

theorem reached_shutdownEach {ids : List String} {u : Unit} (h : (Tasks.Supervisor.shutdownEach s ids).Exec τ u) :
    Reached ctx τ a ↔ ∃ id ∈ ids, a ∈ s.stops ctx id := by
  induction ids generalizing τ with
  | nil =>
    obtain ⟨rfl, -⟩ := h
    simp
  | cons id ids ih =>
    unfold Tasks.Supervisor.shutdownEach at h
    simp only [List.mem_cons, exists_eq_or_imp, stops, List.mem_append, or_assoc]
    cases hl : s.handles id with
    | some handle =>
      simp only [hl] at h
      obtain ⟨τ₁, reason, τ₂, rfl, h₁, h₂⟩ := Prog.exec_bind.mp h
      cases hr : s.remoteHandles id with
      | some remote =>
        simp only [hr] at h₂
        obtain ⟨answer, τ₃, rfl, h₃⟩ := h₂
        simp [reached_shutdownChildAsync h₁, target, ih h₃, stops, eq_comm]
      | none =>
        simp only [hr] at h₂
        simp [reached_shutdownChildAsync h₁, ih h₂, stops]
    | none =>
      simp only [hl] at h
      cases hr : s.remoteHandles id with
      | some remote =>
        simp only [hr] at h
        obtain ⟨answer, τ₃, rfl, h₃⟩ := h
        simp [target, ih h₃, stops, eq_comm]
      | none =>
        simp only [hr] at h
        simp [ih h, stops]

/-- `stopped` reaches the actors `stops` names for the children, and nobody else. -/
theorem reached_stopped (h : (Tasks.Supervisor.stopped s).Exec τ s') :
    Reached ctx τ a ↔ ∃ child ∈ s.logic.children, a ∈ s.stops ctx child.policy.id := by
  obtain ⟨u, h₁, -⟩ := Prog.exec_bind_pure.mp h
  rw [reached_shutdownEach h₁]
  have horder : ∀ id, id ∈ (s.logic.setSuppressRestarts true).shutdownOrder ↔
      ∃ child ∈ s.logic.children, child.policy.id = id := by
    simp [SupervisorLogic.shutdownOrder, SupervisorLogic.setSuppressRestarts]
  constructor
  · rintro ⟨id, hid, ha⟩
    obtain ⟨child, hc, rfl⟩ := (horder id).mp hid
    exact ⟨child, hc, ha⟩
  · rintro ⟨child, hc, ha⟩
    exact ⟨child.policy.id, (horder _).mpr ⟨child, hc, rfl⟩, ha⟩
end Shutdowns

section Logs

variable {ctx : Context} {exited : List Happened → ActorAddress → Prop} {L B : List Happened} {a : ActorAddress}

theorem lifeLog_seen (τ₀ : SupTrace) (hist : List (Serving Supervisor × Turn Empty Empty)) :
    ∀ x ∈ lifeLog τ₀ hist, x.seen = true := by
  have hcalled : ∀ {τ : SupTrace}, ∀ x ∈ τ.map Happened.called, x.seen = true := by
    intro τ x hx
    obtain ⟨call, -, rfl⟩ := List.mem_map.mp hx
    rfl
  intro x hx
  rcases List.mem_append.mp hx with hx | hx
  · exact hcalled x hx
  · obtain ⟨⟨p, event, calls, reply⟩, -, hx⟩ := List.mem_flatMap.mp hx
    rcases List.mem_append.mp hx with hx | hx
    · cases event with
      | message msg => exact nomatch msg
      | exit exit =>
        rw [List.mem_singleton.mp hx]
        rfl
    · exact hcalled x hx

@[simp] theorem startedIn_append : startedIn ctx (L ++ B) = startedIn ctx L ++ startedIn ctx B := List.filterMap_append

theorem startedIn_eq_nil (h : ∀ x ∈ B, x.starts ctx = none) : startedIn ctx B = [] := List.filterMap_eq_nil_iff.mpr h

theorem Truth.stays_append (ht : Truth ctx exited) (h : exited L a) : exited (L ++ B) a := by
  induction B using List.reverseRecOn with
  | nil => simpa using h
  | append_singleton B x ih =>
    rw [← List.append_assoc]
    exact ht.stays _ _ _ ih

/-- What is reported somewhere in a stretch is true at its end. -/
theorem Truth.reported_append (ht : Truth ctx exited) {x : Happened} (hx : x ∈ B) (he : x.ends ctx = some a) :
    exited (L ++ B) a := by
  obtain ⟨B₁, B₂, rfl⟩ := List.append_of_mem hx
  have h := ht.reported (L ++ B₁) x a he
  have hlist : L ++ (B₁ ++ x :: B₂) = L ++ B₁ ++ [x] ++ B₂ := by simp
  rw [hlist]
  exact ht.stays_append h

/-- So is what a wait in it was for. -/
theorem WaitsOut.append (ht : Truth ctx exited) (h : EachStep (WaitsOut exited) (L ++ B)) {remote : RemoteChildHandle}
    {shutdown : ShutdownType} {answer : Except RemoteShutdownError Unit}
    (hx : Happened.called ⟨.shutdownRemoteAndWait remote shutdown, answer⟩ ∈ B) : exited (L ++ B) remote.address := by
  obtain ⟨B₁, B₂, rfl⟩ := List.append_of_mem hx
  have hw := h (L ++ B₁) _ B₂ (by simp) remote shutdown answer rfl
  have hlist : L ++ (B₁ ++ Happened.called ⟨.shutdownRemoteAndWait remote shutdown, answer⟩ :: B₂) =
      L ++ B₁ ++ [.called ⟨.shutdownRemoteAndWait remote shutdown, answer⟩] ++ B₂ := by simp
  rw [hlist]
  exact ht.stays_append hw

/-- A stretch without starts. -/
theorem alone_append (h : EachStep (Alone ctx exited) L) (hB : ∀ x ∈ B, x.starts ctx = none) :
    EachStep (Alone ctx exited) (L ++ B) := by
  refine eachStep_append.mpr ⟨h, fun B₁ x B₂ he id a hs => ?_⟩
  rw [hB x (by simp [he])] at hs
  cases hs

end Logs

/-! ## The books of the supervisor -/

/-- The ids `terminate_children` still has to go through. -/
def Todo.toTerminate : Todo → List String
  | .terminate ids => ids
  | _ => []

/-- The actors started so far, in a configuration reached with the log `L`. -/
structure Accounts (ctx : Context) (exited : List Happened → ActorAddress → Prop) (L : List Happened) (c : Conf) :
    Prop where
  tracks : Tracks c
  pending : PendingInv c
  /-- the actor of every child was started for it, -/
  known : ∀ child ∈ c.sup.logic.children, ∃ a, c.sup.addressOf ctx child = some a ∧
    (child.policy.id, a) ∈ startedIn ctx L
  /-- every started actor has exited or is that of its child, believed alive, -/
  kept : ∀ id a, (id, a) ∈ startedIn ctx L → exited L a ∨
    ∃ child ∈ c.sup.logic.children, child.policy.id = id ∧ c.sup.addressOf ctx child = some a ∧ child.isAlive = true
  /-- no child to be started has had an actor, -/
  unstarted : ∀ index specs, c.todo = .start index specs → ∀ spec ∈ specs, ∀ a, (spec.id, a) ∉ startedIn ctx L
  /-- what is to be terminated is there, -/
  within : ∀ id ∈ c.todo.toTerminate, ∃ child ∈ c.sup.logic.children, child.policy.id = id
  /-- of a pending batch only what is still to be terminated is alive, -/
  scope : ∀ b, c.sup.logic.pendingBatchRestart = some b → ∀ child ∈ c.sup.logic.children,
    child.policy.id ∈ c.sup.logic.batchIds b → child.isAlive = true → child.policy.id ∈ c.todo.toTerminate
  /-- and nothing that is going to be restarted. -/
  dead : ∀ child ∈ c.sup.logic.children, child.policy.id ∈ c.todo.toRestart → child.isAlive = false
  alone : EachStep (Alone ctx exited) L

section Books

variable {ctx : Context} {exited : List Happened → ActorAddress → Prop} {L B : List Happened} {a : ActorAddress}
variable {c c' : Conf} {act : Act} {s s' : Supervisor} {todo : Todo} {child : SupervisedChild}

/-- The address of a child's actor goes with its slot. -/
theorem Tracks.slot_of_address (h : Tracks c) (hc : child ∈ c.sup.logic.children)
    (ha : c.sup.addressOf ctx child = some a) :
    child.slotId = some a.actorId := by
  have hslot := (h.slots child hc).1
  unfold addressOf at ha
  unfold tracked at hslot
  cases hr : c.sup.remoteHandles child.policy.id with
  | some remote =>
    rw [hr] at ha hslot
    cases ha
    exact hslot
  | none =>
    rw [hr] at ha
    obtain ⟨n, hn, rfl⟩ := Option.map_eq_some_iff.mp ha
    exact hn

theorem Tracks.child_unique (h : Tracks c) {other : SupervisedChild} (hc : child ∈ c.sup.logic.children)
    (ho : other ∈ c.sup.logic.children) (he : child.policy.id = other.policy.id) : child = other :=
  List.inj_on_of_nodup_map h.ids hc ho he

/-- No two started actors have the same bare id. -/
def DistinctIds (ctx : Context) (L : List Happened) : Prop := ((startedIn ctx L).map (·.2.actorId)).Nodup

/-- Then no two slots hold the same bare id. -/
theorem Accounts.slotIds_nodup (h : Accounts ctx exited L c) (hd : DistinctIds ctx L) : c.sup.logic.slotIds.Nodup := by
  refine SupervisorLogic.slotIds_nodup_of_index fun i j ci cj m hi hj hmi hmj => ?_
  have hci := List.mem_of_getElem? hi
  have hcj := List.mem_of_getElem? hj
  obtain ⟨ai, hai, hsi⟩ := h.known ci hci
  obtain ⟨aj, haj, hsj⟩ := h.known cj hcj
  have hid : ai.actorId = aj.actorId := by
    have h₁ := h.tracks.slot_of_address hci hai
    have h₂ := h.tracks.slot_of_address hcj haj
    rw [hmi] at h₁
    rw [hmj] at h₂
    exact Option.some.inj (h₁.symm.trans h₂)
  have hsame := List.inj_on_of_nodup_map hd hsi hsj hid
  exact index_unique h.tracks.ids hi hj (Prod.mk.inj hsame).1

/-- All actors of a child that is not believed alive have exited. -/
theorem Accounts.exited_of_dead (h : Accounts ctx exited L c) (hc : child ∈ c.sup.logic.children)
    (hdead : child.isAlive = false) (ha : (child.policy.id, a) ∈ startedIn ctx L) : exited L a := by
  rcases h.kept _ a ha with he | ⟨other, ho, hid, -, halive⟩
  · exact he
  · rw [h.tracks.child_unique ho hc hid, hdead] at halive
    cases halive

/-- The children are as before, or one was marked by its bare id, and its actor has exited. -/
def Settles (ctx : Context) (exited : List Happened → ActorAddress → Prop) (L : List Happened) (s : Supervisor)
    (l : SupervisorLogic) : Prop :=
  l.children = s.logic.children ∨ ∃ n, l.children = (s.logic.markChildDead n).children ∧
    ∀ child ∈ s.logic.children, child.handle = some { id := n, alive := true } →
      ∀ a, s.addressOf ctx child = some a → exited L a

theorem Settles.policies {l : SupervisorLogic} (h : Settles ctx exited L s l) :
    l.children.map (·.policy) = s.logic.children.map (·.policy) := by
  rcases h with he | ⟨n, he, -⟩
  · rw [he]
  · rw [he, SupervisorLogic.markChildDead_policies]

theorem Settles.mem {l : SupervisorLogic} (h : Settles ctx exited L s l) (hc : child ∈ l.children) :
    ∃ old ∈ s.logic.children, child.policy = old.policy ∧ child.slotId = old.slotId ∧
      (child.isAlive = true → old.isAlive = true) := by
  rcases h with he | ⟨n, he, -⟩
  · exact ⟨child, he ▸ hc, rfl, rfl, id⟩
  · rw [he] at hc
    rcases SupervisorLogic.mem_markChildDead hc with hc | ⟨old, hold, rfl⟩
    · exact ⟨child, hc, rfl, rfl, id⟩
    · exact ⟨old, hold, by simp, by simp, by simp⟩

/-- A child stays as it was, or its actor has exited. -/
theorem Settles.keeps {l : SupervisorLogic} (h : Settles ctx exited L s l) (hc : child ∈ s.logic.children) :
    child ∈ l.children ∨ ∀ a, s.addressOf ctx child = some a → exited L a := by
  rcases h with he | ⟨n, he, hgone⟩
  · exact .inl (he ▸ hc)
  · obtain ⟨j, hj⟩ := List.mem_iff_getElem?.mp hc
    by_cases hp : s.logic.childIndexByActor n = some j
    · obtain ⟨found, hf, hslot⟩ := SupervisorLogic.childIndexByActor_eq_some hp
      obtain rfl : found = child := Option.some.inj (hf.symm.trans hj)
      exact .inr (hgone found hc hslot)
    · left
      rw [he]
      refine List.mem_of_getElem? (i := j) ?_
      rw [SupervisorLogic.markChildDead_getElem?, if_neg hp, hj]

theorem addressOf_congr {other : SupervisedChild} (hp : child.policy = other.policy)
    (hs : child.slotId = other.slotId) : s.addressOf ctx child = s.addressOf ctx other := by
  unfold addressOf
  rw [hp, hs]

/-- A stretch that starts nothing and settles one child at most. -/
theorem Accounts.settle (h : Accounts ctx exited L c) (ht : Truth ctx exited) (hB : ∀ x ∈ B, x.starts ctx = none)
    {l : SupervisorLogic} (hl : Settles ctx exited (L ++ B) c.sup l)
    (htracks : Tracks ⟨c.sup.withLogic l, todo⟩) (hpending : PendingInv ⟨c.sup.withLogic l, todo⟩)
    (hunstarted : ∀ index specs, todo = .start index specs → ∃ index' specs',
      c.todo = .start index' specs' ∧ ∀ spec ∈ specs, spec ∈ specs')
    (hwithin : ∀ id ∈ todo.toTerminate, ∃ child ∈ c.sup.logic.children, child.policy.id = id)
    (hscope : ∀ b, l.pendingBatchRestart = some b → ∀ child ∈ l.children, child.policy.id ∈ l.batchIds b →
      child.isAlive = true → child.policy.id ∈ todo.toTerminate)
    (hdead : ∀ child ∈ l.children, child.policy.id ∈ todo.toRestart → child.isAlive = false) :
    Accounts ctx exited (L ++ B) ⟨c.sup.withLogic l, todo⟩ := by
  have hnone : startedIn ctx B = [] := startedIn_eq_nil hB
  refine ⟨htracks, hpending, fun child hc => ?_, fun id a hs => ?_, fun index specs he spec hspec a => ?_,
    fun id hid => ?_, hscope, hdead, alone_append h.alone hB⟩
  · obtain ⟨old, hold, hpol, hslot, -⟩ := hl.mem hc
    obtain ⟨a, ha, hin⟩ := h.known old hold
    refine ⟨a, (addressOf_congr (s := c.sup) hpol hslot).trans ha, ?_⟩
    rw [startedIn_append, hnone, List.append_nil, hpol]
    exact hin
  · rw [startedIn_append, hnone, List.append_nil] at hs
    rcases h.kept id a hs with he | ⟨child, hc, hid, ha, halive⟩
    · exact .inl (ht.stays_append he)
    · rcases hl.keeps hc with hc' | hgone
      · exact .inr ⟨child, hc', hid, ha, halive⟩
      · exact .inl (hgone a ha)
  · obtain ⟨index', specs', htodo, hsub⟩ := hunstarted index specs he
    rw [startedIn_append, hnone, List.append_nil]
    exact h.unstarted index' specs' htodo spec (hsub spec hspec) a
  · obtain ⟨child, hc, rfl⟩ := hwithin id hid
    have hpol : child.policy ∈ l.children.map (·.policy) := by
      rw [hl.policies]
      exact List.mem_map_of_mem hc
    obtain ⟨child', hc', he⟩ := List.mem_map.mp hpol
    exact ⟨child', hc', by rw [he]⟩

/-- An actor `a` is started for the child `id`, all of whose earlier actors have exited. -/
theorem Accounts.start (h : Accounts ctx exited L c) (ht : Truth ctx exited) {x : Happened} {id : String}
    (hx : x.starts ctx = some (id, a)) (hgone : ∀ a', (id, a') ∈ startedIn ctx L → exited L a')
    (htracks : Tracks ⟨s', todo⟩) (hpending : PendingInv ⟨s', todo⟩) (hnone : s'.logic.pendingBatchRestart = none)
    (hnew : ∃ child ∈ s'.logic.children, child.policy.id = id ∧ s'.addressOf ctx child = some a ∧ child.isAlive = true)
    (hold : ∀ child ∈ c.sup.logic.children, child.policy.id ≠ id →
      child ∈ s'.logic.children ∧ s'.addressOf ctx child = c.sup.addressOf ctx child)
    (hback : ∀ child ∈ s'.logic.children, child.policy.id = id ∧ s'.addressOf ctx child = some a ∨
      child ∈ c.sup.logic.children ∧ child.policy.id ≠ id)
    (hunstarted : ∀ index specs, todo = .start index specs → ∃ index' specs',
      c.todo = .start index' specs' ∧ ∀ spec ∈ specs, spec ∈ specs' ∧ spec.id ≠ id)
    (hterminate : todo.toTerminate = []) (hdead : ∀ id' ∈ todo.toRestart, id' ≠ id ∧ id' ∈ c.todo.toRestart) :
    Accounts ctx exited (L ++ [x]) ⟨s', todo⟩ := by
  have hstarted : startedIn ctx (L ++ [x]) = startedIn ctx L ++ [(id, a)] := by simp [startedIn, hx]
  refine ⟨htracks, hpending, fun child hc => ?_, fun id' a' hs => ?_, fun index specs he spec hspec a' => ?_,
    by simp [hterminate], fun b hb => ?_, fun child hc hid => ?_, ?_⟩
  · rw [hstarted]
    rcases hback child hc with ⟨rfl, ha⟩ | ⟨hc', hne⟩
    · exact ⟨a, ha, by simp⟩
    · obtain ⟨a', ha', hin⟩ := h.known child hc'
      exact ⟨a', (hold child hc' hne).2.trans ha', List.mem_append_left _ hin⟩
  · rw [hstarted] at hs
    rcases List.mem_append.mp hs with hin | hlast
    · by_cases hid : id' = id
      · subst hid
        exact .inl (ht.stays _ _ _ (hgone a' hin))
      · rcases h.kept id' a' hin with he | ⟨child, hc, rfl, ha, halive⟩
        · exact .inl (ht.stays _ _ _ he)
        · obtain ⟨hc', ha'⟩ := hold child hc hid
          exact .inr ⟨child, hc', rfl, ha'.trans ha, halive⟩
    · obtain ⟨rfl, rfl⟩ : id' = id ∧ a' = a := by simpa using hlast
      exact .inr hnew
  · obtain ⟨index', specs', htodo, hsub⟩ := hunstarted index specs he
    obtain ⟨hin, hne⟩ := hsub spec hspec
    rw [hstarted]
    intro hs
    rcases List.mem_append.mp hs with hs | hs
    · exact h.unstarted index' specs' htodo spec hin a' hs
    · exact hne (by simpa using (Prod.mk.inj (List.mem_singleton.mp hs)).1)
  · rw [hnone] at hb
    cases hb
  · obtain ⟨hne, hin⟩ := hdead child.policy.id hid
    rcases hback child hc with ⟨he, -⟩ | ⟨hc', -⟩
    · exact absurd he hne
    · exact h.dead child hc' hin
  · refine eachStep_snoc.mpr ⟨h.alone, fun id' a' hs a'' hin => ?_⟩
    rw [hx] at hs
    obtain ⟨rfl, -⟩ := Prod.mk.inj (Option.some.inj hs)
    exact hgone a'' hin

/-- The child `id`, all of whose actors have exited, is dropped. -/
theorem Accounts.lose (h : Accounts ctx exited L c) (ht : Truth ctx exited) {x : Happened} {id : String}
    (hx : x.starts ctx = none) (hgone : ∀ a', (id, a') ∈ startedIn ctx L → exited L a')
    (htracks : Tracks ⟨s', todo⟩) (hpending : PendingInv ⟨s', todo⟩) (hnone : s'.logic.pendingBatchRestart = none)
    (hmem : ∀ child, child ∈ s'.logic.children ↔ child ∈ c.sup.logic.children ∧ child.policy.id ≠ id)
    (haddress : ∀ child, child.policy.id ≠ id → s'.addressOf ctx child = c.sup.addressOf ctx child)
    (hstart : ∀ index specs, todo ≠ .start index specs) (hterminate : todo.toTerminate = [])
    (hdead : ∀ id' ∈ todo.toRestart, id' ∈ c.todo.toRestart) :
    Accounts ctx exited (L ++ [x]) ⟨s', todo⟩ := by
  have hstarted : startedIn ctx (L ++ [x]) = startedIn ctx L := by simp [startedIn, hx]
  refine ⟨htracks, hpending, fun child hc => ?_, fun id' a' hs => ?_,
    fun index specs he => absurd he (hstart index specs), by simp [hterminate], fun b hb => ?_,
    fun child hc hid => ?_, alone_append h.alone (by simp [hx])⟩
  · obtain ⟨hc', hne⟩ := (hmem child).mp hc
    obtain ⟨a', ha', hin⟩ := h.known child hc'
    rw [hstarted]
    exact ⟨a', (haddress child hne).trans ha', hin⟩
  · rw [hstarted] at hs
    by_cases hid : id' = id
    · subst hid
      exact .inl (ht.stays _ _ _ (hgone a' hs))
    · rcases h.kept id' a' hs with he | ⟨child, hc, rfl, ha, halive⟩
      · exact .inl (ht.stays _ _ _ he)
      · exact .inr ⟨child, (hmem child).mpr ⟨hc, hid⟩, rfl, (haddress child hid).trans ha, halive⟩
  · rw [hnone] at hb
    cases hb
  · exact h.dead child ((hmem child).mp hc).1 (hdead _ hid)

/-- All actors of the child to be restarted next have exited. -/
theorem Accounts.relaunch_gone {id : String} {ids : List String} (h : Accounts ctx exited L ⟨s, .relaunch id ids⟩)
    {a' : ActorAddress} (ha : (id, a') ∈ startedIn ctx L) : exited L a' := by
  obtain ⟨child, hc, rfl⟩ := h.tracks.restarts.2 id List.mem_cons_self
  exact h.exited_of_dead hc (h.dead child hc List.mem_cons_self) ha

theorem DistinctIds.left (h : DistinctIds ctx (L ++ B)) : DistinctIds ctx L := by
  rw [DistinctIds, startedIn_append, List.map_append] at h
  exact h.of_append_left

/-- The `Exit` of the transition settles the child it is attributed to. -/
theorem OwnExit.settles (ht : Truth ctx exited) {exit : Exit} (hx : OwnExit ctx exited L s exit) {l : SupervisorLogic}
    (hl : l.children = (s.logic.markChildDead exit.from.actorId).children) (calls : SupTrace) :
    Settles ctx exited (L ++ Act.log { exit := some exit, calls := calls }) s l := by
  refine .inr ⟨exit.from.actorId, hl, fun child hc hslot a ha => ?_⟩
  have hlog : L ++ Act.log { exit := some exit, calls := calls } = L ++ [.took exit] ++ calls.map .called := by
    simp [Act.log]
  rw [hlog]
  exact ht.stays_append (hx child hc hslot a ha)

theorem addressOf_remoteHandles (h : s'.remoteHandles child.policy.id = s.remoteHandles child.policy.id) :
    s'.addressOf ctx child = s.addressOf ctx child := by
  unfold addressOf
  rw [h]

/-- The start loop starts an actor. -/
theorem Accounts.register {index : Nat} {spec : ChildSpec} {specs : List ChildSpec}
    (h : Accounts ctx exited L ⟨s, .start index (spec :: specs)⟩) (ht : Truth ctx exited) {x : Happened}
    (hx : x.starts ctx = some (spec.id, a)) {policy : ChildPolicy} (hid : policy.id = spec.id)
    (hl : s'.logic = s.logic.registerChild policy { id := a.actorId, alive := true })
    (hnew : ∀ child : SupervisedChild, child.policy.id = spec.id → child.slotId = some a.actorId →
      s'.addressOf ctx child = some a)
    (hold : ∀ id, id ≠ spec.id → s'.remoteHandles id = s.remoteHandles id)
    (htracks : Tracks ⟨s', .start (index + 1) specs⟩) (hpending : PendingInv ⟨s', .start (index + 1) specs⟩) :
    Accounts ctx exited (L ++ [x]) ⟨s', .start (index + 1) specs⟩ := by
  obtain ⟨hnodup, hfresh⟩ := h.tracks.fresh _ _ rfl
  obtain ⟨hnot, -⟩ := List.nodup_cons.mp hnodup
  have habsent := (hfresh spec List.mem_cons_self).2
  have hmem : ∀ child, child ∈ s'.logic.children ↔
      child ∈ s.logic.children ∨ child = { policy := policy, handle := some { id := a.actorId, alive := true } } := by
    intro child
    rw [hl]
    simp [SupervisorLogic.registerChild]
  have hself : ∀ child : SupervisedChild,
      child = { policy := policy, handle := some { id := a.actorId, alive := true } } →
      child.policy.id = spec.id ∧ s'.addressOf ctx child = some a := by
    rintro child rfl
    exact ⟨hid, hnew _ hid rfl⟩
  refine h.start ht hx (fun a' ha' => absurd ha' (h.unstarted _ _ rfl spec List.mem_cons_self a')) htracks hpending
    (hpending.quiet trivial) ?_ (fun child hc hne => ⟨(hmem child).mpr (.inl hc), ?_⟩) (fun child hc => ?_) ?_ ?_ ?_
  · obtain ⟨h₁, h₂⟩ := hself _ rfl
    exact ⟨_, (hmem _).mpr (.inr rfl), h₁, h₂, rfl⟩
  · exact addressOf_remoteHandles (hold _ hne)
  · rcases (hmem child).mp hc with hc | he
    · exact .inr ⟨hc, habsent child hc⟩
    · exact .inl (hself child he)
  · intro index' specs' he
    cases he
    refine ⟨index, spec :: specs, rfl, fun sp hsp => ⟨List.mem_cons_of_mem _ hsp, fun he => hnot ?_⟩⟩
    exact List.mem_map.mpr ⟨sp, hsp, he⟩
  · rfl
  · simp [Todo.toRestart]

/-- A restart loop starts an actor. -/
theorem Accounts.renew {id : String} {ids : List String} (h : Accounts ctx exited L ⟨s, .relaunch id ids⟩)
    (ht : Truth ctx exited) {x : Happened} (hx : x.starts ctx = some (id, a))
    (hl : s'.logic.children = (s.logic.replaceChildHandle id { id := a.actorId, alive := true }).children)
    (hnew : ∀ child : SupervisedChild, child.policy.id = id → child.slotId = some a.actorId →
      s'.addressOf ctx child = some a)
    (hold : ∀ id', id' ≠ id → s'.remoteHandles id' = s.remoteHandles id')
    (htracks : Tracks ⟨s', .restart ids⟩) (hpending : PendingInv ⟨s', .restart ids⟩) :
    Accounts ctx exited (L ++ [x]) ⟨s', .restart ids⟩ := by
  obtain ⟨hnodup, hin⟩ := h.tracks.restarts
  obtain ⟨hnot, -⟩ := List.nodup_cons.mp hnodup
  rw [replaceChildHandle_children h.tracks.ids] at hl
  have hself : ∀ child ∈ s'.logic.children, child.policy.id = id →
      s'.addressOf ctx child = some a ∧ child.isAlive = true := by
    intro child hc hid
    rw [hl] at hc
    obtain ⟨old, -, rfl⟩ := List.mem_map.mp hc
    split_ifs at hid ⊢ with hold'
    · exact ⟨hnew _ hid rfl, rfl⟩
    · exact absurd hid hold'
  refine h.start ht hx (fun a' ha' => h.relaunch_gone ha') htracks hpending (hpending.quiet trivial) ?_
    (fun child hc hne => ⟨?_, addressOf_remoteHandles (hold _ hne)⟩) (fun child hc => ?_)
    (fun _ _ he => by cases he) rfl ?_
  · obtain ⟨child, hc, hid⟩ := hin id List.mem_cons_self
    have hc' : child.renewed { id := a.actorId, alive := true } ∈ s'.logic.children := by
      rw [hl]
      exact List.mem_map.mpr ⟨child, hc, if_pos hid⟩
    exact ⟨_, hc', hid, hself _ hc' hid⟩
  · rw [hl]
    exact List.mem_map.mpr ⟨child, hc, if_neg hne⟩
  · by_cases hid : child.policy.id = id
    · exact .inl ⟨hid, (hself child hc hid).1⟩
    · rw [hl] at hc
      obtain ⟨old, hold', rfl⟩ := List.mem_map.mp hc
      split_ifs at hid ⊢ with he
      · exact absurd he hid
      · exact .inr ⟨hold', hid⟩
  · intro id' hid'
    exact ⟨fun he => hnot (he ▸ hid'), List.mem_cons_of_mem _ hid'⟩

/-- The log of calls that start nothing. -/
theorem starts_of_startsNothing {calls : SupTrace} (h : ∀ call ∈ calls, StartsNothing call.op) (exit : Option Exit) :
    ∀ x ∈ Act.log { exit := exit, calls := calls }, x.starts ctx = none := by
  intro x hx
  rcases List.mem_append.mp hx with hx | hx
  · obtain ⟨e, -, rfl⟩ := List.mem_map.mp hx
    rfl
  · obtain ⟨⟨op, ans⟩, hcall, rfl⟩ := List.mem_map.mp hx
    have hop := h _ hcall
    cases op with
    | startChild spec => exact hop.elim
    | requestSpawnWithRetry id placement parent spec link => exact hop.elim
    | _ => rfl

/-- What a local child answers when it has exited. -/
theorem ends_of_reports {handle : ChildHandle} {reason : ExitReason} {call : SupCall} (h : Reports handle reason call) :
    (Happened.called call).ends ctx = some ⟨ctx.actorAddress.node, handle.id⟩ := by
  rcases h with rfl | rfl | ⟨d, rfl⟩ <;> rfl

/-- In the loop of `terminate_children`: the child `id` is not believed alive any more. -/
theorem Accounts.terminated {id : String} {ids : List String} (h : Accounts ctx exited L ⟨s, .terminate (id :: ids)⟩)
    {l : SupervisorLogic} (hpol : l.children.map (·.policy) = s.logic.children.map (·.policy))
    (hpending : l.pendingBatchRestart = s.logic.pendingBatchRestart)
    (hmem : ∀ child ∈ l.children, ∃ old ∈ s.logic.children, child.policy = old.policy ∧
      (child.isAlive = true → old.isAlive = true))
    (hid : ∀ child ∈ l.children, child.policy.id = id → child.isAlive = false) :
    ∀ b, l.pendingBatchRestart = some b → ∀ child ∈ l.children, child.policy.id ∈ l.batchIds b → child.isAlive = true →
      child.policy.id ∈ (Todo.terminate ids).toTerminate := by
  intro b hb child hc hin halive
  obtain ⟨old, hold, hpolicy, hold_alive⟩ := hmem child hc
  rw [batchIds_congr hpol, hpolicy] at hin
  have hto := h.scope b (hpending ▸ hb) old hold hin (hold_alive halive)
  rw [← hpolicy] at hto
  rcases List.mem_cons.mp hto with he | hto
  · rw [hid child hc he] at halive
    cases halive
  · exact hto

/-- Marking the actor the tables name for `id` marks its child. -/
theorem Accounts.marked_dead {id : String} {n : ActorId} (h : Accounts ctx exited L c) (hd : DistinctIds ctx L)
    (hn : c.sup.tracked id = some n) :
    ∀ child ∈ (c.sup.logic.markChildDead n).children, child.policy.id = id → child.isAlive = false := by
  intro child hc hid
  refine SupervisorLogic.retired_markChildDead (h.slotIds_nodup hd) child hc ?_
  have hslot : ∀ old ∈ c.sup.logic.children, old.policy.id = id → old.slotId = some n := fun old hold he => by
    rw [(h.tracks.slots old hold).1, he, hn]
  rcases SupervisorLogic.mem_markChildDead hc with hc | ⟨old, hold, rfl⟩
  · exact hslot child hc hid
  · rw [SupervisedChild.dead_slotId]
    exact hslot old hold hid

/-- That child is the only one marking by the bare id can mark. -/
theorem Accounts.settles {id : String} {ids : List String} {n : ActorId} {target : ActorAddress}
    (h : Accounts ctx exited L ⟨s, .terminate (id :: ids)⟩) (hd : DistinctIds ctx L) (hn : s.tracked id = some n)
    (hown : ∀ child : SupervisedChild, child.policy.id = id → child.slotId = some n →
      s.addressOf ctx child = some target)
    (htarget : exited (L ++ B) target) : Settles ctx exited (L ++ B) s (s.logic.markChildDead n) := by
  refine .inr ⟨n, rfl, fun child hc hslot a ha => ?_⟩
  have hchild : child.slotId = some n := by
    rw [SupervisedChild.slotId, hslot]
    rfl
  obtain ⟨own, hown', hid⟩ := h.within id List.mem_cons_self
  have hslot' : own.slotId = some n := by rw [(h.tracks.slots own hown').1, hid, hn]
  obtain ⟨i, hi⟩ := List.mem_iff_getElem?.mp hc
  obtain ⟨j, hj⟩ := List.mem_iff_getElem?.mp hown'
  obtain rfl := SupervisorLogic.index_of_slot (h.slotIds_nodup hd) hi hj hchild hslot'
  obtain rfl : child = own := Option.some.inj (hi.symm.trans hj)
  rw [hown child hid hchild] at ha
  cases ha
  exact htarget

/-- `terminate_children` has seen the actor `target` of the child `id` exit and marks the child by its bare id. -/
theorem Accounts.terminate {id : String} {ids : List String} {n : ActorId} {target : ActorAddress}
    (h : Accounts ctx exited L ⟨s, .terminate (id :: ids)⟩) (ht : Truth ctx exited) (hd : DistinctIds ctx L)
    (hn : s.tracked id = some n)
    (hown : ∀ child : SupervisedChild, child.policy.id = id → child.slotId = some n →
      s.addressOf ctx child = some target)
    (htarget : exited (L ++ B) target) (hB : ∀ x ∈ B, x.starts ctx = none)
    (htracks : Tracks ⟨s.withLogic (s.logic.markChildDead n), .terminate ids⟩)
    (hpending : PendingInv ⟨s.withLogic (s.logic.markChildDead n), .terminate ids⟩) :
    Accounts ctx exited (L ++ B) ⟨s.withLogic (s.logic.markChildDead n), .terminate ids⟩ := by
  have hl : Settles ctx exited (L ++ B) s (s.logic.markChildDead n) := h.settles hd hn hown htarget
  refine h.settle ht hB hl htracks hpending (fun index specs he => by cases he)
    (fun id' hid' => h.within id' (List.mem_cons_of_mem _ hid')) ?_ (by simp [Todo.toRestart])
  refine h.terminated hl.policies (by simp) (fun child hc => ?_) (h.marked_dead hd hn)
  obtain ⟨old, hold, hpol, -, halive⟩ := hl.mem hc
  exact ⟨old, hold, hpol, halive⟩

/-- `terminate_children` passes over an id whose child is not believed alive. -/
theorem Accounts.pass {id : String} {ids : List String} (h : Accounts ctx exited L ⟨s, .terminate (id :: ids)⟩)
    (ht : Truth ctx exited) (hB : ∀ x ∈ B, x.starts ctx = none)
    (hdead : ∀ child ∈ s.logic.children, child.policy.id = id → child.isAlive = false)
    (htracks : Tracks ⟨s, .terminate ids⟩) (hpending : PendingInv ⟨s, .terminate ids⟩) :
    Accounts ctx exited (L ++ B) ⟨s, .terminate ids⟩ := by
  refine h.settle ht hB (.inl rfl) htracks hpending (fun index specs he => by cases he)
    (fun id' hid' => h.within id' (List.mem_cons_of_mem _ hid')) ?_ (by simp [Todo.toRestart])
  exact h.terminated rfl rfl (fun child hc => ⟨child, hc, rfl, fun hc => hc⟩) hdead

/-- No batch is pending. -/
theorem scope_of_none {l : SupervisorLogic} (hl : l.pendingBatchRestart = none) :
    ∀ b, l.pendingBatchRestart = some b → ∀ child ∈ l.children, child.policy.id ∈ l.batchIds b → child.isAlive = true →
      child.policy.id ∈ todo.toTerminate := by
  intro b hb
  rw [hl] at hb
  cases hb

/-- The machine comes to rest without touching the supervisor. -/
theorem Accounts.rest (h : Accounts ctx exited L c) (ht : Truth ctx exited) (hB : ∀ x ∈ B, x.starts ctx = none)
    (hterminate : c.todo.toTerminate = []) (htracks : Tracks ⟨c.sup, .idle⟩) (hpending : PendingInv ⟨c.sup, .idle⟩) :
    Accounts ctx exited (L ++ B) ⟨c.sup, .idle⟩ := by
  refine h.settle ht hB (.inl rfl) htracks hpending (fun index specs he => by cases he) (by simp [Todo.toTerminate])
    (fun b hb child hc hin halive => ?_) (by simp [Todo.toRestart])
  have hto := h.scope b hb child hc hin halive
  rw [hterminate] at hto
  cases hto

/-- The start loop passes over a spec. -/
theorem Accounts.skip {index index' : Nat} {spec : ChildSpec} {specs : List ChildSpec}
    (h : Accounts ctx exited L ⟨s, .start index (spec :: specs)⟩) (ht : Truth ctx exited)
    (hB : ∀ x ∈ B, x.starts ctx = none) (htracks : Tracks ⟨s, .start index' specs⟩)
    (hpending : PendingInv ⟨s, .start index' specs⟩) :
    Accounts ctx exited (L ++ B) ⟨s, .start index' specs⟩ := by
  refine h.settle ht hB (.inl rfl) htracks hpending (fun _ _ he => ?_) (by simp [Todo.toTerminate])
    (scope_of_none (hpending.quiet trivial)) (by simp [Todo.toRestart])
  cases he
  exact ⟨_, _, rfl, fun spec' hspec => List.mem_cons_of_mem _ hspec⟩

/-- The engine marks a child for an exit that comes while no batch is pending. -/
theorem Accounts.decided (h : Accounts ctx exited L ⟨s, .idle⟩) (ht : Truth ctx exited) {exit : Exit} {now : Instant}
    {action : SupervisorAction} {l : SupervisorLogic} {calls : SupTrace} (hx : OwnExit ctx exited L s exit)
    (hact : s.logic.onChildExit exit.from.actorId exit.reason now = (action, l))
    (hcalls : ∀ call ∈ calls, StartsNothing call.op) (htracks : Tracks ⟨s.withLogic l, todo⟩)
    (hpending : PendingInv ⟨s.withLogic l, todo⟩) (hstart : ∀ index specs, todo ≠ .start index specs)
    (hwithin : ∀ id ∈ todo.toTerminate, ∃ child ∈ s.logic.children, child.policy.id = id)
    (hscope : ∀ b, l.pendingBatchRestart = some b → ∀ child ∈ l.children, child.policy.id ∈ l.batchIds b →
      child.isAlive = true → child.policy.id ∈ todo.toTerminate)
    (hdead : ∀ child ∈ l.children, child.policy.id ∈ todo.toRestart → child.isAlive = false) :
    Accounts ctx exited (L ++ Act.log { exit := some exit, calls := calls }) ⟨s.withLogic l, todo⟩ := by
  have hl : Settles ctx exited (L ++ Act.log { exit := some exit, calls := calls }) s l := by
    rcases (SupervisorLogic.decides_of_onChildExit hact).children with he | he
    · exact .inl he
    · exact hx.settles ht he calls
  exact h.settle ht (starts_of_startsNothing hcalls _) hl htracks hpending
    (fun i sp he => absurd he (hstart i sp)) hwithin hscope hdead

/-- The child of a `RestartOne` is not believed alive. -/
theorem Accounts.restartOne_dead (h : Accounts ctx exited L ⟨s, .idle⟩) {n : ActorId} {reason : ExitReason}
    {now : Instant} {p : Nat} {failed : SupervisedChild} (hr : s.logic.Restarts n reason now p failed) :
    ∀ child ∈ (s.logic.markChildDead n).children, child.policy.id = failed.policy.id → child.isAlive = false := by
  intro child hc hid
  obtain ⟨j, hj⟩ := List.mem_iff_getElem?.mp hc
  rw [SupervisorLogic.markChildDead_getElem?] at hj
  split_ifs at hj with hp
  · obtain ⟨old, -, rfl⟩ := Option.map_eq_some_iff.mp hj
    exact SupervisedChild.dead_isAlive old
  · have hpj : p = j := index_unique h.tracks.ids hr.child_eq hj hid.symm
    exact absurd (hpj ▸ hr.index) hp

/-- A `TerminateBatch` is for the children of the batch it leaves pending. -/
theorem batch_of_terminateBatch {n : ActorId} {reason : ExitReason} {now : Instant} {ids : List String}
    {l : SupervisorLogic} (hact : s.logic.onChildExit n reason now = (.terminateBatch ids, l)) :
    ∃ b, l.pendingBatchRestart = some b ∧ ids = s.logic.batchIds b ∧
      l.children.map (·.policy) = s.logic.children.map (·.policy) := by
  cases SupervisorLogic.decides_of_onChildExit hact with
  | all hr hst =>
    exact ⟨_, rfl, SupervisorLogic.allChildIds_congr (by simp), SupervisorLogic.markChildDead_policies ..⟩
  | rest hr hst =>
    exact ⟨_, rfl, SupervisorLogic.restForOneIds_congr _ (by simp), SupervisorLogic.markChildDead_policies ..⟩

/-- **Every transition keeps the books.** -/
theorem accounts_step (ht : Truth ctx exited) (h : Accounts ctx exited L c) (hstep : Micro ctx c act c')
    (hd : DistinctIds ctx L) (hw : EachStep (WaitsOut exited) (L ++ act.log))
    (hx : ∀ exit, act.exit = some exit → OwnExit ctx exited L c.sup exit) : Accounts ctx exited (L ++ act.log) c' := by
  have htracks := tracks_step h.tracks hstep
  have hpending := pendingInv_step h.pending hstep
  have hnostart : ∀ {t : Todo}, (∀ index specs, t ≠ .start index specs) → ∀ index specs, t = .start index specs →
      ∃ index' specs', c.todo = .start index' specs' ∧ ∀ spec ∈ specs, spec ∈ specs' :=
    fun hne index specs he => absurd he (hne index specs)
  have hnow : ∀ now : Instant, ∀ call ∈ [(⟨.now, now⟩ : SupCall)], StartsNothing call.op := by simp [StartsNothing]
  cases hstep with
  | @startLocal s spec specs index handle hspec =>
    obtain ⟨hremote, -⟩ := (h.tracks.fresh _ _ rfl).2 spec List.mem_cons_self
    have hremote' : s.remoteHandles spec.id = none := hremote
    refine h.register ht (a := ⟨ctx.actorAddress.node, handle.id⟩) rfl rfl rfl (fun child hid hslot => ?_)
      (fun _ _ => rfl) htracks hpending
    simp [addressOf, hid, hremote', hslot]
  | startNoWire hspec hwire => exact h.skip ht (by simp [Act.log]) htracks hpending
  | startFailed error hwire hplace => exact h.skip ht (by simp [Act.log, Happened.starts]) htracks hpending
  | @startRemote s spec specs index wire placement address hwire hplace =>
    refine h.register ht (a := address) rfl rfl rfl (fun child hid hslot => ?_) (fun id hne => Table.insert_ne _ _ hne)
      htracks hpending
    simp [addressOf, hid]
  | started => exact h.rest ht (by simp [Act.log]) rfl htracks hpending
  | @note s exit hsup =>
    have hl : Settles ctx exited (L ++ Act.log { exit := some exit }) s
        (s.logic.noteExitDuringBatch exit.from.actorId) := (hx exit rfl).settles ht rfl []
    refine h.settle ht (starts_of_startsNothing (by simp) _) hl htracks hpending (hnostart (by simp))
      (by simp [Todo.toTerminate])
      (fun b hb child hc hin halive => ?_) (by simp [Todo.toRestart])
    -- of the pending batch nothing was alive before the exit
    obtain ⟨old, hold, hpol, -, hold_alive⟩ := hl.mem hc
    rw [batchIds_congr hl.policies, hpol] at hin
    exact absurd (h.scope b (by simpa [SupervisorLogic.noteExitDuringBatch] using hb) old hold hin
      (hold_alive halive)) (by simp [Todo.toTerminate])
  | @ignore s logic exit now hsup hact =>
    have hnone := hpending.none_of_unsuppressed (by
      cases SupervisorLogic.decides_of_onChildExit hact with
      | suppressed hs => simp [hsup] at hs
      | unknown hs => exact hsup
      | final hidx hchild hr => simpa [SupervisorLogic.resetBackoff] using hsup)
    exact h.decided ht (hx exit rfl) hact (hnow now) htracks hpending (by simp) (by simp [Todo.toTerminate])
      (scope_of_none hnone) (by simp [Todo.toRestart])
  | @restartOne s logic id exit now hsup hact =>
    have hdec := SupervisorLogic.decides_of_onChildExit hact
    refine h.decided ht (hx exit rfl) hact (hnow now) htracks hpending (by simp) (by simp [Todo.toTerminate])
      (scope_of_none (hpending.quiet trivial)) ?_
    cases hdec with
    | @restartOne p failed hr hst =>
      intro child hc hid
      exact h.restartOne_dead hr child hc (by simpa [Todo.toRestart] using hid)
  | @terminateBatch s logic ids exit now hsup hact =>
    obtain ⟨b, hb, rfl, hpol⟩ := batch_of_terminateBatch hact
    refine h.decided ht (hx exit rfl) hact (hnow now) htracks hpending (by simp) (fun id hid => mem_batchIds hid)
      (fun b' hb' child hc hin _ => ?_) (by simp [Todo.toRestart])
    obtain rfl : b = b' := Option.some.inj (hb.symm.trans hb')
    rw [batchIds_congr hpol] at hin
    exact hin
  | @meltdown s logic exit now hsup hact =>
    have hnone := hpending.none_of_unsuppressed (by
      cases SupervisorLogic.decides_of_onChildExit hact with
      | meltdown hidx hchild hr hi => simpa [SupervisorLogic.recorded] using hsup)
    exact h.decided ht (hx exit rfl) hact (by simp [StartsNothing]) htracks hpending (by simp)
      (by simp [Todo.toTerminate]) (scope_of_none hnone) (by simp [Todo.toRestart])
  | @terminateRemote s id ids remote answer hremote halive =>
    have htarget : exited (L ++ Act.log { calls := [⟨.shutdownRemoteAndWait remote (s.shutdownFor id), answer⟩] })
        remote.address := WaitsOut.append ht hw List.mem_cons_self
    exact h.terminate ht hd (by simp [tracked, hremote]) (fun child hid _ => by simp [addressOf, hid, hremote]) htarget
      (starts_of_startsNothing (by simp [StartsNothing]) _) htracks hpending
  | @terminateRemoteDead s id ids remote hremote halive =>
    refine h.pass ht (by simp [Act.log]) (fun child hc hid => ?_) htracks hpending
    have hnot := List.any_eq_false.mp halive child hc
    simpa [hid] using hnot
  | @terminateLocal s id ids handle τ reason hremote hlocal hτ =>
    obtain ⟨call, hcall, hreports⟩ := exec_shutdownChildAsync hτ
    have htarget : exited (L ++ Act.log { calls := τ }) ⟨ctx.actorAddress.node, handle.id⟩ :=
      ht.reported_append (x := .called call) (by simp [Act.log, hcall]) (ends_of_reports hreports)
    have hcalls := (calls_shutdown_startsNothing handle (s.shutdownFor id)).of_exec hτ
    exact h.terminate ht hd (by simp [tracked, hremote, hlocal])
      (fun child hid hslot => by simp [addressOf, hid, hremote, hslot]) htarget
      (starts_of_startsNothing hcalls _) htracks hpending
  | @terminateNone s id ids hremote hlocal =>
    refine h.pass ht (by simp [Act.log]) (fun child hc hid => ?_) htracks hpending
    -- a child without a handle has no slot either
    obtain ⟨hslot, hsome⟩ := h.tracks.slots child hc
    rw [hslot, hid] at hsome
    simp [tracked, hremote, hlocal] at hsome
  | incomplete hdone => exact h.rest ht (by simp [Act.log]) rfl htracks hpending
  | @complete s ids logic hdone htake =>
    obtain ⟨b, hb, rfl, rfl⟩ := take_complete htake
    refine h.settle ht (by simp [Act.log]) (.inl rfl) htracks hpending (hnostart (by simp)) (by simp [Todo.toTerminate])
      (scope_of_none rfl) (fun child hc hid => ?_)
    by_contra halive
    exact absurd (h.scope b hb child hc (mem_restartOrder.mp hid) (by simpa using halive)) (by simp [Todo.toTerminate])
  | @backoff s id ids delay logic hdelay =>
    obtain rfl : (s.logic.backoffDelay id (s.backoffFor id)).2 = logic := by rw [hdelay]
    refine h.settle ht (starts_of_startsNothing (fun call hcall => ?_) none) (.inl (by simp)) htracks hpending
      (hnostart (by simp)) (by simp [Todo.toTerminate]) (scope_of_none (hpending.quiet trivial))
      (fun child hc hid => ?_)
    · unfold sleepCalls at hcall
      split_ifs at hcall
      · rw [List.mem_singleton.mp hcall]
        trivial
      · cases hcall
    · exact h.dead child (by simpa using hc) hid
  | relaunchNone hmeta hspec =>
    exact h.settle ht (by simp [Act.log]) (.inl rfl) htracks hpending (hnostart (by simp)) (by simp [Todo.toTerminate])
      (scope_of_none (hpending.quiet trivial)) (fun child hc hid => h.dead child hc (List.mem_cons_of_mem _ hid))
  | @relaunchLocal s id ids spec handle hmeta hspec =>
    have hremote : s.remoteHandles id = none := by
      cases hr : s.remoteHandles id with
      | none => rfl
      | some remote => exact absurd hmeta (h.tracks.spawned id remote hr)
    have hid : spec.id = id := by simpa using List.find?_some hspec
    refine h.renew ht (a := ⟨ctx.actorAddress.node, handle.id⟩) (by simp [Happened.starts, hid]) rfl
      (fun child hc hslot => ?_) (fun _ _ => rfl) htracks hpending
    simp [addressOf, hc, hremote, hslot]
  | @relaunchFailed s id ids spawned error hmeta =>
    refine h.lose ht rfl (fun a' ha' => h.relaunch_gone ha') htracks hpending (hpending.quiet trivial) (fun child => ?_)
      (fun child hne => ?_) (by simp) rfl (fun id' hid' => List.mem_cons_of_mem _ hid')
    · rw [remoteDropped_logic, SupervisorLogic.removeChildById_children (by simpa using h.tracks.ids)]
      simp
    · exact addressOf_remoteHandles (by simp [Table.remove_ne _ hne])
  | @relaunchRemote s id ids spawned address hmeta =>
    refine h.renew ht (a := address) rfl rfl (fun child hid _ => by simp [addressOf, hid]) (fun id' hne => ?_)
      htracks hpending
    simp [Table.insert_ne _ _ hne, Table.remove_ne _ hne]
  | restarted => exact h.rest ht (by simp [Act.log]) rfl htracks hpending

/-! ## Whole lives -/

theorem accounts_init (ctx : Context) (exited : List Happened → ActorAddress → Prop) (b : SupervisorBuilder)
    (hids : (b.specs.map (·.id)).Nodup) (hL : ∀ x ∈ L, x.starts ctx = none) :
    Accounts ctx exited L ⟨b.build, .start 0 b.specs⟩ := by
  have hnone : startedIn ctx L = [] := startedIn_eq_nil hL
  refine ⟨tracks_init b hids, pendingInv_init b, ?_, ?_, ?_, ?_, scope_of_none rfl, ?_, ?_⟩
  · simp [SupervisorBuilder.build, SupervisorLogic.new]
  · simp [hnone]
  · simp [hnone]
  · simp [Todo.toTerminate]
  · simp [Todo.toRestart]
  · exact alone_append (L := []) eachStep_nil hL

/-- A stretch of the machine that takes no `Exit`. -/
theorem accounts_silent (ht : Truth ctx exited) {τ : SupTrace} (hs : Silent ctx c τ c') (h : Accounts ctx exited L c)
    (hd : DistinctIds ctx (L ++ τ.map .called)) (hw : EachStep (WaitsOut exited) (L ++ τ.map .called)) :
    Accounts ctx exited (L ++ τ.map .called) c' := by
  obtain ⟨hist, hrun, rfl, hexit⟩ := hs
  induction hrun with
  | nil => simpa using h
  | @snoc hist c₁ act c₂ hrun hstep ih =>
    have hlog : act.log = act.calls.map .called := by
      have hnone : act.exit = none := hexit (c₁, act) (by simp)
      simp [Act.log, hnone]
    have hsplit : L ++ ((hist ++ [(c₁, act)]).flatMap (·.2.calls)).map .called =
        L ++ (hist.flatMap (·.2.calls)).map .called ++ act.log := by simp [hlog]
    rw [hsplit] at hd hw ⊢
    have hprefix := ih (fun x hx => hexit x (by simp [hx])) hd.left (eachStep_append.mp hw).1
    refine accounts_step ht hprefix hstep hd.left hw fun exit he => ?_
    rw [hexit (c₁, act) (by simp)] at he
    cases he

/-- The condition on a life in which `L` happened: -/
structure Orderly (ctx : Context) (exited : List Happened → ActorAddress → Prop) (τ₀ : SupTrace)
    (hist : List (Serving Supervisor × Turn Empty Empty)) (L : List Happened) : Prop where
  /-- no spawn attempt whose reply is lost starts an actor, -/
  told : ∀ x ∈ L, x.seen = true
  /-- no two started actors have the same bare id, -/
  distinct : DistinctIds ctx L
  /-- every remote shutdown is waited out, -/
  waits : EachStep (WaitsOut exited) L
  /-- and an `Exit` with the bare id of a child believed alive comes after that child's actor has exited. -/
  exits : EachStep (fun before x => ∀ exit, x.2.event = .exit exit →
    OwnExit ctx exited (lifeLog τ₀ before) x.1.state exit) hist

/-- Then all that happened is what the supervisor saw. -/
theorem Orderly.log_eq {τ₀ : SupTrace} {hist : List (Serving Supervisor × Turn Empty Empty)}
    (ho : Orderly ctx exited τ₀ hist L) (hL : LogOf τ₀ hist L) : L = lifeLog τ₀ hist := by
  rw [← hL]
  exact (List.filter_eq_self.mpr ho.told).symm

/-- The life so far, with one turn more. -/
theorem lifeLog_snoc (τ₀ : SupTrace) (hist : List (Serving Supervisor × Turn Empty Empty)) (p : Serving Supervisor)
    (turn : Turn Empty Empty) : lifeLog τ₀ (hist ++ [(p, turn)]) = lifeLog τ₀ hist ++ turnLog turn := by
  simp [lifeLog]

/-- A turn keeps the books. -/
theorem accounts_turn (ht : Truth ctx exited) {p q : Serving Supervisor} {turn : Turn Empty Empty}
    (h : Accounts ctx exited L ⟨p.state, .idle⟩) (hturn : (Tasks.supervisor ctx).Handles p turn q)
    (hd : DistinctIds ctx (L ++ turnLog turn)) (hw : EachStep (WaitsOut exited) (L ++ turnLog turn))
    (hx : ∀ exit, turn.event = .exit exit → OwnExit ctx exited L p.state exit) :
    Accounts ctx exited (L ++ turnLog turn) ⟨q.state, .idle⟩ := by
  cases hevent : turn.event with
  | message msg => exact nomatch msg
  | exit exit =>
    obtain ⟨act, c, τ', hstep, hexit, hτ, hsilent⟩ := machine_of_handleExit (hturn.exit hevent)
    have hlog : L ++ turnLog turn = L ++ act.log ++ τ'.map .called := by
      simp [turnLog, eventLog, hevent, Act.log, hexit, hτ]
    rw [hlog] at hd hw ⊢
    refine accounts_silent ht hsilent (accounts_step ht h hstep hd.left.left (eachStep_append.mp hw).1 fun e he => ?_)
      hd hw
    rw [hexit] at he
    cases he
    exact hx exit hevent

/-- The books are right in every orderly life with distinct child ids. -/
theorem accounts_lives (ht : Truth ctx exited) {rt : Runtime} {b : SupervisorBuilder} {τ₀ : SupTrace}
    {hist : List (Serving Supervisor × Turn Empty Empty)} {p : Serving Supervisor} (hids : (b.specs.map (·.id)).Nodup)
    (h : (rt.supervisor ctx).Lives b.build τ₀ hist p) (hL : LogOf τ₀ hist L) (ho : Orderly ctx exited τ₀ hist L) :
    Accounts ctx exited L ⟨p.state, .idle⟩ := by
  obtain rfl := ho.log_eq hL
  obtain ⟨-, hd, hw, hx⟩ := ho
  clear hL
  obtain ⟨s₀, hstarted, hserve⟩ := h
  rw [Runtime.supervisor_eq] at hstarted hserve
  induction hserve with
  | nil =>
    obtain ⟨_, _, rfl, _, _, rfl, hloop⟩ := hstarted
    have hlog : ∀ (x y : SupCall) (τ : SupTrace),
        lifeLog (x :: y :: τ) [] = [.called x, .called y] ++ τ.map .called := by
      simp [lifeLog]
    rw [hlog] at hd hw ⊢
    exact accounts_silent ht (silent_of_startEach hloop) (accounts_init ctx exited b hids (by simp [Happened.starts]))
      hd hw
  | @snoc hist p turn q hserve hturn ih =>
    rw [lifeLog_snoc] at hd hw ⊢
    obtain ⟨hx, hlast⟩ := eachStep_snoc.mp hx
    exact accounts_turn ht (ih hd.left (eachStep_append.mp hw).1 hx) hturn hd hw hlast

/-- An actor that has not exited is found through its child. -/
theorem Accounts.tracksActor (h : Accounts ctx exited L ⟨s, .idle⟩) (hd : DistinctIds ctx L) {id : String}
    (hs : (id, a) ∈ startedIn ctx L) (ha : ¬ exited L a) : s.TracksActor ctx a := by
  rcases h.kept id a hs with he | ⟨child, hc, rfl, haddress, halive⟩
  · exact absurd he ha
  refine ⟨child, ?_, ?_, ?_⟩
  · have hnodup : s.logic.children.Nodup := h.tracks.ids.of_map _
    refine List.perm_singleton.mp ((List.perm_ext_iff_of_nodup (hnodup.filter _) (List.nodup_singleton child)).mpr
      fun other => ?_)
    simp only [List.mem_filter, decide_eq_true_eq, List.mem_singleton]
    constructor
    · rintro ⟨ho, ha'⟩
      -- the same actor was started once, for one child
      obtain ⟨a'', ha'', hs'⟩ := h.known other ho
      obtain rfl : a = a'' := Option.some.inj (ha'.symm.trans ha'')
      have hsame := List.inj_on_of_nodup_map hd hs' hs rfl
      exact h.tracks.child_unique ho hc (Prod.mk.inj hsame).1
    · rintro rfl
      exact ⟨hc, haddress⟩
  · unfold addressOf at haddress
    unfold terminates
    cases hr : s.remoteHandles child.policy.id with
    | some remote =>
      have hany : s.logic.isChildAlive child.policy.id = true := List.any_eq_true.mpr ⟨child, hc, by simp [halive]⟩
      simp only [hr] at haddress
      simpa [hany] using haddress
    | none =>
      have hslot := (h.tracks.slots child hc).1
      simp only [hr, tracked] at haddress hslot
      rw [hslot, Option.map_map] at haddress
      exact haddress
  · unfold addressOf at haddress
    unfold stops
    cases hr : s.remoteHandles child.policy.id with
    | some remote =>
      simp only [hr] at haddress
      simp [Option.some.inj haddress]
    | none =>
      have hslot := (h.tracks.slots child hc).1
      simp only [hr, tracked] at haddress hslot
      rw [hslot, Option.map_map] at haddress
      obtain ⟨handle, hhandle, rfl⟩ := Option.map_eq_some_iff.mp haddress
      simp [hhandle]

/-- **Every child a supervisor started is tracked and reachable for shutdown**, in every orderly life with distinct
child ids: between two handlers each started actor that has not exited is the actor of exactly one child, and the one
that `terminate_children` and `stopped` would shut down for it. -/
theorem started_actors_are_tracked (rt : Runtime) (ctx : Context) (b : SupervisorBuilder) (τ₀ : SupTrace)
    (hist : List (Serving Supervisor × Turn Empty Empty)) (p : Serving Supervisor)
    (h : (rt.supervisor ctx).Lives b.build τ₀ hist p) (exited : List Happened → ActorAddress → Prop)
    (ht : Truth ctx exited) (hids : (b.specs.map (·.id)).Nodup) (L : List Happened) (hL : LogOf τ₀ hist L)
    (ho : Orderly ctx exited τ₀ hist L) (id : String) (a : ActorAddress) (hs : (id, a) ∈ startedIn ctx L)
    (ha : ¬ exited L a) : p.state.TracksActor ctx a :=
  (accounts_lives ht hids h hL ho).tracksActor ho.distinct hs ha

/-- **At most one live instance per child id**, in every orderly life with distinct child ids: whenever an actor is
started for a child, all actors started for it before have exited; and stopping starts none. -/
theorem one_instance_at_a_time (rt : Runtime) (ctx : Context) (b : SupervisorBuilder) (τ₀ : SupTrace)
    (hist : List (Serving Supervisor × Turn Empty Empty)) (p : Serving Supervisor)
    (h : (rt.supervisor ctx).Lives b.build τ₀ hist p) (exited : List Happened → ActorAddress → Prop)
    (ht : Truth ctx exited) (hids : (b.specs.map (·.id)).Nodup) (L : List Happened) (hL : LogOf τ₀ hist L)
    (ho : Orderly ctx exited τ₀ hist L) :
    EachStep (Alone ctx exited) L ∧
      ∀ τ s', ((rt.supervisor ctx).stopped p.state).Exec τ s' → startedIn ctx (τ.map .called) = [] := by
  refine ⟨(accounts_lives ht hids h hL ho).alone, fun τ s' hstop => startedIn_eq_nil ?_⟩
  rw [Runtime.supervisor_eq] at hstop
  simpa [Act.log] using starts_of_startsNothing ((calls_stopped p.state).of_exec hstop) none

end Books

/-! ## Lives against a cluster -/

/-- What an observer of the log is told: the exits of `ends`, and remote shutdowns that were answered `Ok`. -/
def told (ctx : Context) (a : ActorAddress) : Happened → Bool
  | .called ⟨.shutdownRemoteAndWait remote _, .ok ()⟩ => decide (remote.address = a)
  | x => decide (x.ends ctx = some a)

/-- Only what was told has happened. -/
def ToldIn (ctx : Context) (L : List Happened) (a : ActorAddress) : Prop := L.any (told ctx a) = true

theorem truth_told (ctx : Context) : Truth ctx (ToldIn ctx) := by
  refine ⟨fun L x a h => ?_, fun L x a h => ?_⟩
  · rw [ToldIn, List.any_append, Bool.or_eq_true]
    exact .inl h
  · have htold : told ctx a x = true := by
      unfold told
      split
      · simp [Happened.ends] at h
      · simpa using h
    simp [ToldIn, htold]

/-- A remote shutdown that was answered with an error. -/
def waitFailed : Happened → Bool
  | .called ⟨.shutdownRemoteAndWait _ _, .error _⟩ => true
  | _ => false

theorem waitsOut_told {ctx : Context} {L : List Happened} (h : L.all (fun x => !waitFailed x) = true) :
    EachStep (WaitsOut (ToldIn ctx)) L := by
  intro L₁ x L₂ he remote shutdown answer hx
  have hok := List.all_eq_true.mp h x (by simp [he])
  subst hx
  cases answer with
  | error e => simp [waitFailed] at hok
  | ok u => simp [ToldIn, told]

/-- An `Exit` that is attributed to the actor it comes from is the child's own. -/
theorem ownExit_of_attributed {ctx : Context} {exited : List Happened → ActorAddress → Prop} (ht : Truth ctx exited)
    {L : List Happened} {s : Supervisor} {exit : Exit} (h : s.Attributed ctx exit) : OwnExit ctx exited L s exit := by
  intro child hc hslot a ha
  rw [h child hc hslot] at ha
  cases ha
  exact ht.reported L _ _ rfl

/-- Every node is reachable, every started actor gets a fresh id, and remote shutdowns end as `wait` says. -/
def clusterAnswers (wait : Except RemoteShutdownError Unit) : Prog.Strategy SupOp SupOp.Ans
  | τ, .requestSpawnWithRetry _ placement _ _ _ => .ok ⟨placement, τ.length⟩
  | _, .shutdownRemoteAndWait _ _ => wait
  | τ, op => calmAnswers τ op

/-- A local child and one on the node `m`, under `OneForAll`. -/
def spreadBuilder : SupervisorBuilder where
  strategy := .oneForAll
  specs := [{ id := "here", restart := .permanent },
    { id := "there", restart := .permanent, placement := .remote "m", remote := some (.named "worker") }]

/-- The local child (actor 2) panics; the remote one (actor 3 on `m`) is shut down with the outcome `wait`. -/
def spreadLife (wait : Except RemoteShutdownError Unit) : Life Supervisor Empty Empty :=
  (Runtime.supervisor .tasks ⟨⟨"n", 0⟩⟩).life (clusterAnswers wait) spreadBuilder.build
    [.exit ⟨⟨"n", 2⟩, .panic "boom"⟩]

def spreadLog (wait : Except RemoteShutdownError Unit) : List Happened :=
  lifeLog (spreadLife wait).startCalls (spreadLife wait).turns

theorem spreadLife_lives (wait : Except RemoteShutdownError Unit) :
    (Runtime.supervisor .tasks ⟨⟨"n", 0⟩⟩).Lives spreadBuilder.build (spreadLife wait).startCalls
      (spreadLife wait).turns
      (spreadLife wait).last := Callbacks.lives_life ..

/-- Every spawn of it was answered at the first attempt. -/
theorem spreadLog_seen (wait : Except RemoteShutdownError Unit) : ∀ x ∈ spreadLog wait, x.seen = true :=
  lifeLog_seen _ _

theorem spreadLog_of (wait : Except RemoteShutdownError Unit) :
    LogOf (spreadLife wait).startCalls (spreadLife wait).turns (spreadLog wait) :=
  List.filter_eq_self.mpr (spreadLog_seen wait)

theorem spreadLife_orderly :
    Orderly ⟨⟨"n", 0⟩⟩ (ToldIn ⟨⟨"n", 0⟩⟩) (spreadLife (.ok ())).startCalls (spreadLife (.ok ())).turns
      (spreadLog (.ok ())) := by
  refine ⟨spreadLog_seen _, ?_, waitsOut_told ?_, fun before x after he exit hexit => ?_⟩
  · unfold DistinctIds
    decide
  · decide
  · have hattributed : ∀ x ∈ (spreadLife (.ok ())).turns, x.1.state.Attributed ⟨⟨"n", 0⟩⟩
      ⟨⟨"n", 2⟩, .panic "boom"⟩ := by
      decide
    have hx : x ∈ (spreadLife (.ok ())).turns := by simp [he]
    have hevent := Callbacks.event_life _ _ _ _ hx
    rw [hexit] at hevent
    obtain rfl : exit = ⟨⟨"n", 2⟩, .panic "boom"⟩ := by simpa using hevent
    exact ownExit_of_attributed (truth_told _) (hattributed x hx)

/-- After the batch the new remote actor is tracked, and the old one has exited. -/
theorem started_actors_are_tracked_spread :
    ∃ a, ("there", a) ∈ startedIn ⟨⟨"n", 0⟩⟩ (spreadLog (.ok ())) ∧ a ≠ ⟨"m", 3⟩ ∧
      (spreadLife (.ok ())).last.state.TracksActor ⟨⟨"n", 0⟩⟩ a := by
  refine ⟨⟨"m", 7⟩, by decide, by decide, ?_⟩
  exact started_actors_are_tracked .tasks ⟨⟨"n", 0⟩⟩ spreadBuilder _ _ _ (spreadLife_lives (.ok ())) _ (truth_told _)
    (by decide) _ (spreadLog_of _) spreadLife_orderly "there" _ (by decide) (by unfold ToldIn; decide)

/-- Its two actors were started one after the other. -/
theorem one_instance_at_a_time_spread :
    EachStep (Alone ⟨⟨"n", 0⟩⟩ (ToldIn ⟨⟨"n", 0⟩⟩)) (spreadLog (.ok ())) ∧
      (startedIn ⟨⟨"n", 0⟩⟩ (spreadLog (.ok ()))).filter (·.1 == "there") =
        [("there", ⟨"m", 3⟩), ("there", ⟨"m", 7⟩)] := by
  refine ⟨?_, by decide⟩
  exact (one_instance_at_a_time .tasks ⟨⟨"n", 0⟩⟩ spreadBuilder _ _ _ (spreadLife_lives (.ok ())) _ (truth_told _)
    (by decide) _ (spreadLog_of _) spreadLife_orderly).1

/-- The wait for the remote child times out: it is started again on `m` while its first actor, of which nobody has said
that it has exited, may still run. -/
theorem restarted_after_failed_wait :
    (Runtime.supervisor .tasks ⟨⟨"n", 0⟩⟩).Lives spreadBuilder.build (spreadLife (.error .timeout)).startCalls
        (spreadLife (.error .timeout)).turns (spreadLife (.error .timeout)).last ∧
      Truth ⟨⟨"n", 0⟩⟩ (ToldIn ⟨⟨"n", 0⟩⟩) ∧ (spreadBuilder.specs.map (·.id)).Nodup ∧
      ¬ EachStep (Alone ⟨⟨"n", 0⟩⟩ (ToldIn ⟨⟨"n", 0⟩⟩)) (spreadLog (.error .timeout)) := by
  refine ⟨spreadLife_lives _, truth_told _, by decide, fun h => ?_⟩
  have hsplit : spreadLog (.error .timeout) = (spreadLog (.error .timeout)).take 8 ++
      .called ⟨.requestSpawnWithRetry "there" "m" ⟨"n", 0⟩
        (.namedSpec "worker" { restart := some .permanent, pgScope := none, pgGroup := none }) true, .ok ⟨"m", 7⟩⟩ ::
      (spreadLog (.error .timeout)).drop 9 := rfl
  have htold := h _ _ _ hsplit "there" ⟨"m", 7⟩ rfl ⟨"m", 3⟩ (by decide)
  unfold ToldIn at htold
  exact absurd htold (by decide)

/-- Two specs with one id. -/
def twinBuilder : SupervisorBuilder where
  specs := [{ id := "a", restart := .permanent }, { id := "a", restart := .permanent }]

def twinLife : Life Supervisor Empty Empty :=
  (Runtime.supervisor .tasks ⟨⟨"n", 0⟩⟩).life calmAnswers twinBuilder.build []

/-- The handle of the second replaces that of the first, whose actor no shutdown reaches any more. -/
theorem twin_overwritten :
    (Runtime.supervisor .tasks ⟨⟨"n", 0⟩⟩).Lives twinBuilder.build twinLife.startCalls twinLife.turns twinLife.last ∧
      Truth ⟨⟨"n", 0⟩⟩ (ToldIn ⟨⟨"n", 0⟩⟩) ∧
      ("a", ⟨"n", 2⟩) ∈ startedIn ⟨⟨"n", 0⟩⟩ (lifeLog twinLife.startCalls twinLife.turns) ∧
      ¬ ToldIn ⟨⟨"n", 0⟩⟩ (lifeLog twinLife.startCalls twinLife.turns) ⟨"n", 2⟩ ∧
      ¬ twinLife.last.state.TracksActor ⟨⟨"n", 0⟩⟩ ⟨"n", 2⟩ := by
  refine ⟨Callbacks.lives_life .., truth_told _, by decide, by unfold ToldIn; decide, ?_⟩
  rintro ⟨child, hfilter, hterminates, -⟩
  have hid : [child].map (·.policy.id) = ["a"] := by
    rw [← hfilter]
    decide
  rw [List.map_singleton, List.singleton_inj] at hid
  rw [hid] at hterminates
  exact absurd hterminates (by decide)

end Supervisor

end Spawned
