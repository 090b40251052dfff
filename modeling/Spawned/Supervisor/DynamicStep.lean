import Spawned.Actor.Life
import Spawned.Supervisor.Engine

/-!
# What a handler of a dynamic supervisor can do

Every handler ends in one of a few changes of the supervisor's tables. `DynStep` lists them, with what the turn did to
its environment, and `dynStep_of_handles` says that there are no others; what holds of every life is then proved by
cases on it.

* `Effect`, `effects` : the answered calls of a turn that matter: the time of an exit, actors started, spawned and not
  stopped, names taken and given up, `ctx.stop()`;
* `cleaned`, `localAdded`, `localRestarted`, … : the changes;
* `DynStep` : which of them an event can lead to;
* `StartStep`, `RemoteStartStep`, `TerminateStep` : what the three requests can do, call by call.
-/

namespace Spawned

open Lib

/-! ## Effects -/

/-- What an answered call did outside the supervisor, or the time it read. -/
inductive Effect
  | read (now : Instant)
  | started (handle : ChildHandle)
  | spawned (childId : String) (address : ActorAddress)
  /-- the wait for a remote child's exit failed -/
  | unstopped (remote : RemoteChildHandle)
  | registered (name : String) (handle : ChildHandle)
  /-- the name belongs to somebody already -/
  | refused (name : String)
  | unregistered (name : String)
  | stop
deriving DecidableEq, Repr

def effectOf : SupCall → Option Effect
  | ⟨.now, now⟩ => some (.read now)
  | ⟨.startChild _, handle⟩ => some (.started handle)
  | ⟨.requestSpawnWithRetry childId _ _ _ _, .ok address⟩ => some (.spawned childId address)
  | ⟨.shutdownRemoteAndWait remote _, .error _⟩ => some (.unstopped remote)
  | ⟨.register name handle, .ok _⟩ => some (.registered name handle)
  | ⟨.register name _, .error _⟩ => some (.refused name)
  | ⟨.unregister name, _⟩ => some (.unregistered name)
  | ⟨.stop, _⟩ => some .stop
  | _ => none

def effects (τ : SupTrace) : List Effect := τ.filterMap effectOf

@[simp] theorem effects_nil : effects [] = [] := rfl

@[simp] theorem effects_append (τ τ' : SupTrace) : effects (τ ++ τ') = effects τ ++ effects τ' := by
  simp [effects]

theorem effects_cons (call : SupCall) (τ : SupTrace) : effects (call :: τ) = (effectOf call).toList ++ effects τ := by
  cases h : effectOf call <;> simp [effects, h]

/-- A call without effect, whatever it is answered. -/
def Effectless (e : SupOp) : Prop := ∀ x, effectOf ⟨e, x⟩ = none

theorem effects_of_calls {α : Type} {p : SupProg α} {τ : SupTrace} {a : α} (hp : p.Calls Effectless) (h : p.Exec τ a) :
    effects τ = [] := by
  have hcalls := hp.of_exec h
  unfold effects
  rw [List.filterMap_eq_nil_iff]
  intro call hcall
  exact hcalls call hcall call.ans

/-- Waiting for a local child's exit has no effect. -/
theorem effects_shutdownChildAsync {handle : ChildHandle} {shutdown : ShutdownType} {τ : SupTrace} {reason : ExitReason}
    (h : (shutdownChildAsync handle shutdown).Exec τ reason) : effects τ = [] := by
  refine effects_of_calls ((calls_shutdownChildAsync handle shutdown).mono ?_) h
  rintro e (rfl | rfl | rfl | rfl | ⟨d, rfl⟩) <;> exact fun _ => rfl

theorem calledStop_iff {τ : SupTrace} : CalledStop τ ↔ Effect.stop ∈ effects τ := by
  unfold CalledStop effects
  rw [List.mem_filterMap]
  refine exists_congr fun call => and_congr_right fun _ => ?_
  obtain ⟨e, x⟩ := call
  cases e with
  | stop => simp [effectOf]
  | requestSpawnWithRetry childId placement parent spec link => cases x <;> simp [effectOf]
  | shutdownRemoteAndWait remote shutdown => cases x <;> simp [effectOf]
  | register name handle => cases x <;> simp [effectOf]
  | _ => simp [effectOf]

/-! ## Instance ids -/

/-- The digits behind the last `#`. -/
theorem instanceId_suffix (template : String) (k : Nat) :
    ((instanceId template k).toList.reverse.takeWhile (· ≠ '#')).reverse = Nat.toDigits 10 k := by
  have hlist : (instanceId template k).toList = template.toList ++ '#' :: Nat.toDigits 10 k := by
    simp [instanceId, String.toList_append, Nat.toList_repr]
  have hdigits : ∀ c ∈ (Nat.toDigits 10 k).reverse, decide (c ≠ '#') = true := by
    intro c hc
    have hdigit := Nat.isDigit_of_mem_toDigits (by decide) (by decide) (List.mem_reverse.mp hc)
    refine decide_eq_true fun he => ?_
    rw [he] at hdigit
    exact absurd hdigit (by decide)
  rw [hlist, List.reverse_append, List.reverse_cons, List.append_assoc, List.takeWhile_append_of_pos hdigits]
  simp

/-- The counter can be read off an instance id. -/
theorem instanceId_counter {template template' : String} {k k' : Nat}
    (h : instanceId template k = instanceId template' k') : k = k' := by
  have hdigits : Nat.toDigits 10 k = Nat.toDigits 10 k' := by
    rw [← instanceId_suffix template k, ← instanceId_suffix template' k', h]
  have hvalue := congrArg (Nat.ofDigitChars 10 · 0) hdigits
  simpa using hvalue

namespace DynamicSupervisor

variable {ctx : Context} {s s' : DynamicSupervisor}

/-! ## The changes of state -/

@[simps]
def withLogic (s : DynamicSupervisor) (logic : SupervisorLogic) : DynamicSupervisor := { s with logic }

/-- What `cleanup_child` leaves. -/
@[simps]
def cleaned (s : DynamicSupervisor) (childId : String) : DynamicSupervisor :=
  { s with
    regNames := match s.nameOf childId with
      | some name => s.regNames.erase name
      | none => s.regNames
    handles := s.handles.remove childId
    actorToId := match s.handles childId with
      | some handle => s.actorToId.remove handle.id
      | none => s.actorToId
    remoteSpawnMeta := s.remoteSpawnMeta.remove childId
    specs := s.specs.remove childId
    logic := s.logic.removeChildById childId }

/-- A local child was started under a new id. -/
@[simps]
def localAdded (s : DynamicSupervisor) (childId : String) (spec : ChildSpec) (handle : ChildHandle) :
    DynamicSupervisor :=
  { s with
    logic := s.logic.registerChild { id := childId, restart := spec.restart, startIndex := s.logic.nextStartIndex }
      { id := handle.id, alive := true }
    specs := s.specs.insert childId spec
    handles := s.handles.insert childId handle
    actorToId := s.actorToId.insert handle.id childId }

/-- A remote child was started under a new id. -/
@[simps]
def remoteAdded (s : DynamicSupervisor) (childId : String) (address parent : ActorAddress)
    (spawned : RemoteSpawnMeta) : DynamicSupervisor :=
  { s with
    logic := s.logic.registerChild { id := childId, restart := .permanent, startIndex := s.logic.nextStartIndex }
      { id := address.actorId, alive := true }
    remoteHandles := s.remoteHandles.insert childId { address, parent }
    remoteActorToId := s.remoteActorToId.insert address.actorId childId
    remoteSpawnMeta := s.remoteSpawnMeta.insert childId spawned }

/-- A local child was started again. -/
@[simps]
def localRestarted (s : DynamicSupervisor) (childId : String) (handle : ChildHandle) : DynamicSupervisor :=
  { s with
    logic := s.logic.replaceChildHandle childId { id := handle.id, alive := true }
    handles := s.handles.insert childId handle
    actorToId := (match s.handles childId with
      | some old => s.actorToId.remove old.id
      | none => s.actorToId).insert handle.id childId }

@[simps]
def remoteForgotten (s : DynamicSupervisor) (childId : String) : DynamicSupervisor :=
  { s with
    remoteHandles := s.remoteHandles.remove childId
    remoteActorToId := s.remoteActorToId.retain (fun _ id => id != childId) }

/-- A remote child was spawned again. -/
@[simps]
def remoteRestarted (s : DynamicSupervisor) (childId : String) (address parent : ActorAddress) : DynamicSupervisor :=
  { s with
    logic := s.logic.replaceChildHandle childId { id := address.actorId, alive := true }
    remoteHandles := s.remoteHandles.insert childId { address, parent }
    remoteActorToId := s.remoteActorToId.insert address.actorId childId }

/-- An instance id was drawn. -/
@[simps]
def drawn (s : DynamicSupervisor) : DynamicSupervisor := { s with idCounter := s.idCounter + 1 }

/-- The next instance id. -/
def nextId (s : DynamicSupervisor) (template : String) : String := instanceId template (s.idCounter + 1)

@[simps]
def named (s : DynamicSupervisor) (name childId : String) : DynamicSupervisor :=
  { s with regNames := s.regNames.insert name childId }

/-- The handle of a remote child is taken out before the wait for its exit, -/
@[simps]
def remoteTaken (s : DynamicSupervisor) (childId : String) : DynamicSupervisor :=
  { s with remoteHandles := s.remoteHandles.remove childId }

/-- and the rest of the child after it. -/
@[simps]
def remoteReleased (s : DynamicSupervisor) (actorId : ActorId) (childId : String) : DynamicSupervisor :=
  { s with
    remoteActorToId := s.remoteActorToId.remove actorId
    remoteSpawnMeta := s.remoteSpawnMeta.remove childId
    logic := s.logic.removeChildById childId }

/-- The engine after the delay of a restart was computed. -/
def delayed (s : DynamicSupervisor) (childId : String) : DynamicSupervisor :=
  s.withLogic (s.logic.backoffDelay childId (s.backoffFor childId)).2

/-- What `cleanup_child` does to the registry. -/
def unnaming (s : DynamicSupervisor) (childId : String) : List Effect :=
  (s.nameOf childId).toList.map .unregistered

/-! ## Handlers -/

theorem exec_cleanupChild {childId : String} {τ : SupTrace}
    (h : (Tasks.DynamicSupervisor.cleanupChild s childId).Exec τ s') :
    s' = s.cleaned childId ∧ effects τ = s.unnaming childId := by
  have hrest : ∀ {s₁ : DynamicSupervisor}, s₁.handles childId = none → s₁.handles.remove childId = s₁.handles := by
    intro s₁ hn
    funext id
    rw [Table.remove_apply]
    split_ifs with he
    · rw [he, hn]
    · rfl
  unfold Tasks.DynamicSupervisor.cleanupChild at h
  cases hname : s.nameOf childId with
  | none =>
    rw [hname] at h
    obtain ⟨rfl, rfl⟩ := h
    refine ⟨?_, by simp [unnaming, hname]⟩
    cases hh : s.handles childId with
    | none => simp [cleaned, hname, hh, hrest hh]
    | some handle => simp [cleaned, hname, hh]
  | some name =>
    rw [hname] at h
    obtain ⟨_, _, rfl, rfl, rfl⟩ := h
    refine ⟨?_, by simp [unnaming, hname, effects_cons, effectOf]⟩
    cases hh : s.handles childId with
    | none => simp [cleaned, hname, hh, hrest hh]
    | some handle => simp [cleaned, hname, hh]

variable (ctx s) in
/-- What the handler of an event can do: its reply, its effects and the state it leaves. -/
inductive DynStep : Event DynMsg → Option DynReply → List Effect → DynamicSupervisor → Prop
  /-- a request was refused, or only reads -/
  | idle {msg : DynMsg} {reply : DynReply} (hok : reply ≠ .terminateChild (.ok ()))
      (hcount : ∀ n, reply = .countChildren n → n = s.logic.childCount) : DynStep (.message msg) (some reply) [] s
  /-- the id exists, or the remote spawn failed -/
  | drawn {msg : DynMsg} {reply : DynReply} (hok : reply ≠ .terminateChild (.ok ()))
      (hcount : ∀ n, reply ≠ .countChildren n) : DynStep (.message msg) (some reply) [] s.drawn
  | added {spec : ChildSpec} {handle : ChildHandle} (hroom : s.atCapacity = false) :
      DynStep (.message (.startChild spec none)) (some (.startChild (.ok handle))) [.started handle]
        (s.drawn.localAdded (s.nextId spec.id) spec handle)
  | named {spec : ChildSpec} {name : String} {handle : ChildHandle} (hroom : s.atCapacity = false) :
      DynStep (.message (.startChild spec (some name))) (some (.startChild (.ok handle)))
        [.started handle, .registered name handle]
        ((s.drawn.localAdded (s.nextId spec.id) spec handle).named name (s.nextId spec.id))
  /-- the registry refused the name, and the new child was cleaned up -/
  | unnamed {spec : ChildSpec} {name msg : String} {handle : ChildHandle} (hroom : s.atCapacity = false) :
      DynStep (.message (.startChild spec (some name))) (some (.startChild (.error (.registry msg))))
        ([.started handle, .refused name] ++
          (s.drawn.localAdded (s.nextId spec.id) spec handle).unnaming (s.nextId spec.id))
        ((s.drawn.localAdded (s.nextId spec.id) spec handle).cleaned (s.nextId spec.id))
  | spawned {spec : RemoteSpawnSpec} {placement : NodeId} {link : Bool} {address : ActorAddress}
      (hroom : s.atCapacity = false) :
      DynStep (.message (.startChildRemote spec placement link))
        (some (.startChildRemote (.ok { address, parent := ctx.actorAddress }))) [.spawned (s.nextId "remote") address]
        (s.drawn.remoteAdded (s.nextId "remote") address ctx.actorAddress { spec, placement, link })
  | terminated {actorId : ActorId} {childId : String} {handle : ChildHandle} (hid : s.actorToId actorId = some childId)
      (hh : s.handles childId = some handle) :
      DynStep (.message (.terminateChild actorId)) (some (.terminateChild (.ok ()))) (s.unnaming childId)
        ((s.withLogic (s.logic.removeChildById childId)).cleaned childId)
  | released {actorId : ActorId} {childId : String} {remote : RemoteChildHandle}
      (hid : s.remoteActorToId actorId = some childId) (hr : s.remoteHandles childId = some remote) :
      DynStep (.message (.terminateChild actorId)) (some (.terminateChild (.ok ()))) []
        ((s.remoteTaken childId).remoteReleased actorId childId)
  | stuck {actorId : ActorId} {childId msg : String} {remote : RemoteChildHandle}
      (hid : s.remoteActorToId actorId = some childId) (hr : s.remoteHandles childId = some remote) :
      DynStep (.message (.terminateChild actorId)) (some (.terminateChild (.error (.remoteSpawn msg))))
        [.unstopped remote] (s.remoteTaken childId)
  | ignored {exit : Exit} {now : Instant} {l : SupervisorLogic}
      (hd : s.logic.Decides exit.from.actorId exit.reason now .ignore l)
      (hany : l.childIdByActorAny exit.from.actorId = none) : DynStep (.exit exit) none [.read now] (s.withLogic l)
  | removed {exit : Exit} {now : Instant} {l : SupervisorLogic} {childId : String}
      (hd : s.logic.Decides exit.from.actorId exit.reason now .ignore l)
      (hany : l.childIdByActorAny exit.from.actorId = some childId) :
      DynStep (.exit exit) none (.read now :: s.unnaming childId) ((s.withLogic l).cleaned childId)
  | stopped {exit : Exit} {now : Instant} {action : SupervisorAction} {l : SupervisorLogic}
      (hd : s.logic.Decides exit.from.actorId exit.reason now action l) (hignore : action ≠ .ignore)
      (hone : ∀ id, action ≠ .restartOne id) : DynStep (.exit exit) none [.read now, .stop] (s.withLogic l)
  | restarted {exit : Exit} {now : Instant} {l : SupervisorLogic} {childId : String} {spec : ChildSpec}
      {handle : ChildHandle} (hd : s.logic.Decides exit.from.actorId exit.reason now (.restartOne childId) l)
      (hmeta : s.remoteSpawnMeta childId = none) (hspec : s.specs childId = some spec) :
      DynStep (.exit exit) none [.read now, .started handle]
        (((s.withLogic l).delayed childId).localRestarted childId handle)
  | respawned {exit : Exit} {now : Instant} {l : SupervisorLogic} {childId : String} {address : ActorAddress}
      (hd : s.logic.Decides exit.from.actorId exit.reason now (.restartOne childId) l)
      (hmeta : s.remoteSpawnMeta childId ≠ none) :
      DynStep (.exit exit) none [.read now, .spawned childId address]
        ((((s.withLogic l).delayed childId).remoteForgotten childId).remoteRestarted childId address ctx.actorAddress)
  /-- the remote spawn failed -/
  | lost {exit : Exit} {now : Instant} {l : SupervisorLogic} {childId : String}
      (hd : s.logic.Decides exit.from.actorId exit.reason now (.restartOne childId) l)
      (hmeta : s.remoteSpawnMeta childId ≠ none) :
      DynStep (.exit exit) none (.read now :: s.unnaming childId)
        ((((s.withLogic l).delayed childId).remoteForgotten childId).cleaned childId)
  /-- there is no spec to restart from -/
  | orphaned {exit : Exit} {now : Instant} {l : SupervisorLogic} {childId : String}
      (hd : s.logic.Decides exit.from.actorId exit.reason now (.restartOne childId) l)
      (hmeta : s.remoteSpawnMeta childId = none) (hspec : s.specs childId = none) :
      DynStep (.exit exit) none [.read now] ((s.withLogic l).delayed childId)

/-! ### The requests -/

/-- A start gets as far as drawing an id: the supervisor is not stopping, and there is room. -/
def draws (s : DynamicSupervisor) : Bool := !s.stopping && !s.atCapacity

/-- Why it does not. -/
def refusal (s : DynamicSupervisor) : DynamicSupervisorError :=
  if s.stopping then .supervisorStopping else .maxChildrenExceeded

theorem refused_of_stopping (h : s.stopping = true) : s.draws = false ∧ s.refusal = .supervisorStopping :=
  ⟨by simp [draws, h], if_pos h⟩

theorem refused_of_full (hstop : ¬s.stopping = true) (h : s.atCapacity = true) :
    s.draws = false ∧ s.refusal = .maxChildrenExceeded :=
  ⟨by simp [draws, h], if_neg hstop⟩

theorem room_of_draws (h : s.draws = true) : s.atCapacity = false := by
  simp only [draws, Bool.and_eq_true, Bool.not_eq_true'] at h
  exact h.2

variable (s) in
/-- What `start_child` can do: its calls, the state it leaves and its result. -/
inductive StartStep (spec : ChildSpec) :
    Option String → SupTrace → DynamicSupervisor → Except DynamicSupervisorError ChildHandle → Prop
  | refused {regName : Option String} (hdraws : s.draws = false) : StartStep spec regName [] s (.error s.refusal)
  | duplicate {regName : Option String} (hdraws : s.draws = true)
      (hdup : s.logic.hasChildId (s.nextId spec.id) = true) :
      StartStep spec regName [] s.drawn (.error (.duplicateChildId (s.nextId spec.id)))
  | added {handle : ChildHandle} (hdraws : s.draws = true)
      (hnew : s.logic.hasChildId (s.nextId spec.id) = false) :
      StartStep spec none [⟨.startChild spec, handle⟩] (s.drawn.localAdded (s.nextId spec.id) spec handle) (.ok handle)
  | named {name : String} {handle : ChildHandle} (hdraws : s.draws = true)
      (hnew : s.logic.hasChildId (s.nextId spec.id) = false) :
      StartStep spec (some name) [⟨.startChild spec, handle⟩, ⟨.register name handle, .ok ()⟩]
        ((s.drawn.localAdded (s.nextId spec.id) spec handle).named name (s.nextId spec.id)) (.ok handle)
  /-- the registry refused the name -/
  | unnamed {name : String} {handle : ChildHandle} {err : RegistryError} {τ : SupTrace} {s' : DynamicSupervisor}
      (hdraws : s.draws = true) (hnew : s.logic.hasChildId (s.nextId spec.id) = false)
      (hclean : (Tasks.DynamicSupervisor.cleanupChild (s.drawn.localAdded (s.nextId spec.id) spec handle)
        (s.nextId spec.id)).Exec τ s') :
      StartStep spec (some name) (⟨.startChild spec, handle⟩ :: ⟨.register name handle, .error err⟩ :: τ) s'
        (.error (.registry err.toString))

theorem exec_startChild {spec : ChildSpec} {regName : Option String} {τ : SupTrace}
    {result : Except DynamicSupervisorError ChildHandle}
    (hx : (Tasks.DynamicSupervisor.startChild s spec regName).Exec τ (s', result)) :
    StartStep s spec regName τ s' result := by
  simp only [Tasks.DynamicSupervisor.startChild] at hx
  split_ifs at hx with hstop hcap hdup
  · obtain ⟨rfl, heq⟩ := hx
    cases heq
    obtain ⟨hdraws, hrefusal⟩ := refused_of_stopping hstop
    rw [← hrefusal]
    exact .refused hdraws
  · obtain ⟨rfl, heq⟩ := hx
    cases heq
    obtain ⟨hdraws, hrefusal⟩ := refused_of_full hstop hcap
    rw [← hrefusal]
    exact .refused hdraws
  · obtain ⟨rfl, heq⟩ := hx
    cases heq
    exact .duplicate (by simp [draws, hstop, hcap]) hdup
  · have hdraws : s.draws = true := by simp [draws, hstop, hcap]
    have hnew : s.logic.hasChildId (s.nextId spec.id) = false := by simpa [nextId] using hdup
    obtain ⟨handle, τ', rfl, hx⟩ := hx
    cases regName with
    | none =>
      obtain ⟨rfl, heq⟩ := hx
      cases heq
      exact .added hdraws hnew
    | some name =>
      obtain ⟨answer, τ'', rfl, hreg⟩ := Prog.exec_op_bind.mp hx
      cases answer with
      | error err =>
        obtain ⟨s₁, h₁, heq⟩ := Prog.exec_bind_pure.mp hreg
        cases heq
        exact .unnamed hdraws hnew h₁
      | ok _ =>
        obtain ⟨rfl, heq⟩ := hreg
        cases heq
        exact .named hdraws hnew

theorem StartStep.dynStep {spec : ChildSpec} {regName : Option String} {τ : SupTrace}
    {result : Except DynamicSupervisorError ChildHandle} (h : StartStep s spec regName τ s' result) :
    DynStep ctx s (.message (.startChild spec regName)) (some (.startChild result)) (effects τ) s' := by
  cases h with
  | refused => exact .idle (by simp) (by simp)
  | duplicate => exact .drawn (by simp) (by simp)
  | added hdraws => exact .added (room_of_draws hdraws)
  | named hdraws => exact .named (room_of_draws hdraws)
  | unnamed hdraws _ hclean =>
    obtain ⟨rfl, heffects⟩ := exec_cleanupChild hclean
    simp only [effects_cons, heffects]
    exact .unnamed (room_of_draws hdraws)

variable (ctx s) in
/-- What `start_child_remote` can do. -/
inductive RemoteStartStep (spec : RemoteSpawnSpec) (placement : NodeId) (link : Bool) :
    SupTrace → DynamicSupervisor → Except DynamicSupervisorError RemoteChildHandle → Prop
  | refused (hdraws : s.draws = false) : RemoteStartStep spec placement link [] s (.error s.refusal)
  | duplicate (hdraws : s.draws = true) (hdup : s.logic.hasChildId (s.nextId "remote") = true) :
      RemoteStartStep spec placement link [] s.drawn (.error (.duplicateChildId (s.nextId "remote")))
  | failed {err : RemoteSpawnError} (hdraws : s.draws = true)
      (hnew : s.logic.hasChildId (s.nextId "remote") = false) :
      RemoteStartStep spec placement link
        [⟨.requestSpawnWithRetry (s.nextId "remote") placement ctx.actorAddress spec link, .error err⟩] s.drawn
        (.error (.remoteSpawn err.toString))
  | spawned {address : ActorAddress} (hdraws : s.draws = true)
      (hnew : s.logic.hasChildId (s.nextId "remote") = false) :
      RemoteStartStep spec placement link
        [⟨.requestSpawnWithRetry (s.nextId "remote") placement ctx.actorAddress spec link, .ok address⟩]
        (s.drawn.remoteAdded (s.nextId "remote") address ctx.actorAddress { spec, placement, link })
        (.ok { address, parent := ctx.actorAddress })

theorem exec_startChildRemote {spec : RemoteSpawnSpec} {placement : NodeId} {link : Bool} {τ : SupTrace}
    {result : Except DynamicSupervisorError RemoteChildHandle}
    (hx : (Tasks.DynamicSupervisor.startChildRemote ctx s spec placement link).Exec τ (s', result)) :
    RemoteStartStep ctx s spec placement link τ s' result := by
  simp only [Tasks.DynamicSupervisor.startChildRemote] at hx
  split_ifs at hx with hstop hcap hdup
  · obtain ⟨rfl, heq⟩ := hx
    cases heq
    obtain ⟨hdraws, hrefusal⟩ := refused_of_stopping hstop
    rw [← hrefusal]
    exact .refused hdraws
  · obtain ⟨rfl, heq⟩ := hx
    cases heq
    obtain ⟨hdraws, hrefusal⟩ := refused_of_full hstop hcap
    rw [← hrefusal]
    exact .refused hdraws
  · obtain ⟨rfl, heq⟩ := hx
    cases heq
    exact .duplicate (by simp [draws, hstop, hcap]) hdup
  · have hdraws : s.draws = true := by simp [draws, hstop, hcap]
    have hnew : s.logic.hasChildId (s.nextId "remote") = false := by simpa [nextId] using hdup
    obtain ⟨answer, τ', rfl, hx⟩ := hx
    cases answer with
    | error err =>
      obtain ⟨rfl, heq⟩ := hx
      cases heq
      exact .failed hdraws hnew
    | ok address =>
      obtain ⟨rfl, heq⟩ := hx
      cases heq
      exact .spawned hdraws hnew

theorem RemoteStartStep.dynStep {spec : RemoteSpawnSpec} {placement : NodeId} {link : Bool} {τ : SupTrace}
    {result : Except DynamicSupervisorError RemoteChildHandle}
    (h : RemoteStartStep ctx s spec placement link τ s' result) :
    DynStep ctx s (.message (.startChildRemote spec placement link)) (some (.startChildRemote result)) (effects τ) s' := by
  cases h with
  | refused => exact .idle (by simp) (by simp)
  | duplicate | failed => exact .drawn (by simp) (by simp)
  | spawned hdraws => exact .spawned (room_of_draws hdraws)

/-- The actor is a remote child whose handle is in the table. -/
def RemoteChild (s : DynamicSupervisor) (actorId : ActorId) : Prop :=
  ∃ childId remote, s.remoteActorToId actorId = some childId ∧ s.remoteHandles childId = some remote

variable (s) in
/-- What `terminate_child` can do. -/
inductive TerminateStep (actorId : ActorId) :
    SupTrace → DynamicSupervisor → Except DynamicSupervisorError Unit → Prop
  | unknown (hlocal : ¬s.RemoteChild actorId)
      (hnone : ∀ childId, s.actorToId actorId = some childId → s.handles childId = none) :
      TerminateStep actorId [] s (.error (.childNotFound actorId))
  | terminated {childId : String} {handle : ChildHandle} {reason : ExitReason} {τ₁ τ₂ : SupTrace}
      {s' : DynamicSupervisor} (hlocal : ¬s.RemoteChild actorId) (hid : s.actorToId actorId = some childId)
      (hh : s.handles childId = some handle)
      (hwait : (shutdownChildAsync handle (s.shutdownFor childId)).Exec τ₁ reason)
      (hclean : (Tasks.DynamicSupervisor.cleanupChild (s.withLogic (s.logic.removeChildById childId)) childId).Exec
        τ₂ s') : TerminateStep actorId (τ₁ ++ τ₂) s' (.ok ())
  | released {childId : String} {remote : RemoteChildHandle} (hid : s.remoteActorToId actorId = some childId)
      (hr : s.remoteHandles childId = some remote) :
      TerminateStep actorId [⟨.shutdownRemoteAndWait remote (s.shutdownFor childId), .ok ()⟩]
        ((s.remoteTaken childId).remoteReleased actorId childId) (.ok ())
  | stuck {childId : String} {remote : RemoteChildHandle} {err : RemoteShutdownError}
      (hid : s.remoteActorToId actorId = some childId) (hr : s.remoteHandles childId = some remote) :
      TerminateStep actorId [⟨.shutdownRemoteAndWait remote (s.shutdownFor childId), .error err⟩]
        (s.remoteTaken childId) (.error (.remoteSpawn err.toString))

theorem exec_terminateLocal {actorId : ActorId} {τ : SupTrace} {result : Except DynamicSupervisorError Unit}
    (hlocal : ¬s.RemoteChild actorId) (hx : (Tasks.DynamicSupervisor.terminateLocal s actorId).Exec τ (s', result)) :
    TerminateStep s actorId τ s' result := by
  unfold Tasks.DynamicSupervisor.terminateLocal at hx
  cases hid : s.actorToId actorId with
  | none =>
    simp only [hid] at hx
    obtain ⟨rfl, heq⟩ := hx
    cases heq
    exact .unknown hlocal (by simp [hid])
  | some childId =>
    simp only [hid] at hx
    cases hh : s.handles childId with
    | none =>
      simp only [hh] at hx
      obtain ⟨rfl, heq⟩ := hx
      cases heq
      exact .unknown hlocal (by simp [hid, hh])
    | some handle =>
      simp only [hh] at hx
      obtain ⟨τ₁, reason, τ₂, rfl, hwait, hx⟩ := Prog.exec_bind.mp hx
      obtain ⟨s₁, h₁, heq⟩ := Prog.exec_bind_pure.mp hx
      cases heq
      exact .terminated hlocal hid hh hwait h₁

theorem exec_terminateChildByActor {actorId : ActorId} {τ : SupTrace} {result : Except DynamicSupervisorError Unit}
    (hx : (Tasks.DynamicSupervisor.terminateChildByActor s actorId).Exec τ (s', result)) :
    TerminateStep s actorId τ s' result := by
  unfold Tasks.DynamicSupervisor.terminateChildByActor at hx
  cases hid : s.remoteActorToId actorId with
  | none =>
    simp only [hid] at hx
    exact exec_terminateLocal (by simp [RemoteChild, hid]) hx
  | some childId =>
    simp only [hid] at hx
    cases hr : s.remoteHandles childId with
    | none =>
      simp only [hr] at hx
      exact exec_terminateLocal (by simp [RemoteChild, hid, hr]) hx
    | some remote =>
      simp only [hr] at hx
      obtain ⟨answer, τ', rfl, hx⟩ := hx
      cases answer with
      | error err =>
        obtain ⟨rfl, heq⟩ := hx
        cases heq
        exact .stuck hid hr
      | ok _ =>
        obtain ⟨rfl, heq⟩ := hx
        cases heq
        exact .released hid hr

theorem TerminateStep.dynStep {actorId : ActorId} {τ : SupTrace} {result : Except DynamicSupervisorError Unit}
    (h : TerminateStep s actorId τ s' result) :
    DynStep ctx s (.message (.terminateChild actorId)) (some (.terminateChild result)) (effects τ) s' := by
  cases h with
  | unknown => exact .idle (by simp) (by simp)
  | terminated _ hid hh hwait hclean =>
    obtain ⟨rfl, heffects⟩ := exec_cleanupChild hclean
    simp only [effects_append, effects_shutdownChildAsync hwait, heffects, List.nil_append]
    exact .terminated hid hh
  | released hid hr => exact .released hid hr
  | stuck hid hr => exact .stuck hid hr

variable (ctx s) in
/-- What the handler of a request can do. -/
inductive HandleStep : DynMsg → SupTrace → DynReply → DynamicSupervisor → Prop
  | startChild {spec : ChildSpec} {regName : Option String} {τ : SupTrace} {s' : DynamicSupervisor}
      {result : Except DynamicSupervisorError ChildHandle} (h : StartStep s spec regName τ s' result) :
      HandleStep (.startChild spec regName) τ (.startChild result) s'
  | startChildRemote {spec : RemoteSpawnSpec} {placement : NodeId} {link : Bool} {τ : SupTrace}
      {s' : DynamicSupervisor} {result : Except DynamicSupervisorError RemoteChildHandle}
      (h : RemoteStartStep ctx s spec placement link τ s' result) :
      HandleStep (.startChildRemote spec placement link) τ (.startChildRemote result) s'
  | terminateChild {actorId : ActorId} {τ : SupTrace} {s' : DynamicSupervisor}
      {result : Except DynamicSupervisorError Unit} (h : TerminateStep s actorId τ s' result) :
      HandleStep (.terminateChild actorId) τ (.terminateChild result) s'
  | countChildren : HandleStep .countChildren [] (.countChildren s.logic.childCount) s
  | whichChildren : HandleStep .whichChildren [] (.whichChildren s.childInfos) s

theorem exec_handle {msg : DynMsg} {reply : DynReply} {τ : SupTrace}
    (hx : (Tasks.DynamicSupervisor.handle ctx s msg).Exec τ (s', reply)) : HandleStep ctx s msg τ reply s' := by
  cases msg with
  | startChild spec regName =>
    obtain ⟨⟨s₁, result⟩, h₁, heq⟩ := Prog.exec_bind_pure.mp hx
    cases heq
    exact .startChild (exec_startChild h₁)
  | startChildRemote spec placement link =>
    obtain ⟨⟨s₁, result⟩, h₁, heq⟩ := Prog.exec_bind_pure.mp hx
    cases heq
    exact .startChildRemote (exec_startChildRemote h₁)
  | terminateChild actorId =>
    obtain ⟨⟨s₁, result⟩, h₁, heq⟩ := Prog.exec_bind_pure.mp hx
    cases heq
    exact .terminateChild (exec_terminateChildByActor h₁)
  | countChildren =>
    obtain ⟨rfl, heq⟩ := hx
    cases heq
    exact .countChildren
  | whichChildren =>
    obtain ⟨rfl, heq⟩ := hx
    cases heq
    exact .whichChildren

theorem handleStep_of_handles {rt : Runtime} {p q : Serving DynamicSupervisor} {turn : Turn DynMsg DynReply}
    {msg : DynMsg} (h : (rt.dynamicSupervisor ctx).Handles p turn q) (hevent : turn.event = .message msg) :
    ∃ reply, turn.reply = some reply ∧ HandleStep ctx p.state msg turn.calls reply q.state := by
  rw [Runtime.dynamicSupervisor_eq] at h
  obtain ⟨reply, hreply, hx⟩ := h.message hevent
  exact ⟨reply, hreply, exec_handle hx⟩

/-! ### Exits -/

/-- `restart_child_with_backoff` is the delay, then the restart of a remote or a local child, or its removal. -/
theorem exec_restartChildWithBackoff {childId : String} {τ : SupTrace}
    (hx : (Tasks.DynamicSupervisor.restartChildWithBackoff ctx s childId).Exec τ s') :
    (s.remoteSpawnMeta childId ≠ none ∧ effects τ = s.unnaming childId ∧
        s' = ((s.delayed childId).remoteForgotten childId).cleaned childId) ∨
      (∃ address, s.remoteSpawnMeta childId ≠ none ∧ effects τ = [.spawned childId address] ∧
        s' = ((s.delayed childId).remoteForgotten childId).remoteRestarted childId address ctx.actorAddress) ∨
      (s.remoteSpawnMeta childId = none ∧ s.specs childId = none ∧ effects τ = [] ∧ s' = s.delayed childId) ∨
      ∃ spec handle, s.remoteSpawnMeta childId = none ∧ s.specs childId = some spec ∧ effects τ = [.started handle] ∧
        ⟨.startChild spec, handle⟩ ∈ τ ∧ s' = (s.delayed childId).localRestarted childId handle := by
  simp only [Tasks.DynamicSupervisor.restartChildWithBackoff] at hx
  rcases hdelay : s.logic.backoffDelay childId (s.backoffFor childId) with ⟨delay, l⟩
  rw [hdelay] at hx
  have hs : s.delayed childId = s.withLogic l := by rw [delayed, hdelay]
  rw [hs]
  have hrest : ∃ τ', effects τ = effects τ' ∧ τ' ⊆ τ ∧ (if s.remoteSpawnMeta.containsKey childId then
      Tasks.DynamicSupervisor.restartRemoteChild ctx (s.withLogic l) childId
      else Tasks.DynamicSupervisor.restartChild (s.withLogic l) childId).Exec τ' s' := by
    by_cases hd : delay ≠ 0
    · simp only [if_pos hd] at hx
      obtain ⟨_, τ', rfl, hx⟩ := hx
      exact ⟨τ', rfl, List.subset_cons_self _ _, hx⟩
    · simp only [if_neg hd] at hx
      exact ⟨τ, rfl, List.Subset.refl _, hx⟩
  obtain ⟨τ', heffects, hsub, hr⟩ := hrest
  rw [heffects]
  cases hmeta : s.remoteSpawnMeta childId with
  | some spawned =>
    rw [if_pos (by simp [Table.containsKey, hmeta]), Tasks.DynamicSupervisor.restartRemoteChild] at hr
    rw [show (s.withLogic l).remoteSpawnMeta childId = some spawned from hmeta] at hr
    obtain ⟨answer, τ'', rfl, hspawn⟩ := hr
    cases answer with
    | error err =>
      obtain ⟨rfl, hunnaming⟩ := exec_cleanupChild hspawn
      exact Or.inl ⟨by simp, hunnaming, rfl⟩
    | ok address =>
      obtain ⟨rfl, rfl⟩ := hspawn
      exact Or.inr (Or.inl ⟨address, by simp, rfl, rfl⟩)
  | none =>
    rw [if_neg (by simp [Table.containsKey, hmeta]), Tasks.DynamicSupervisor.restartChild] at hr
    cases hspec : s.specs childId with
    | none =>
      rw [show (s.withLogic l).specs childId = none from hspec] at hr
      obtain ⟨rfl, rfl⟩ := hr
      exact Or.inr (Or.inr (Or.inl ⟨rfl, rfl, rfl, rfl⟩))
    | some spec =>
      rw [show (s.withLogic l).specs childId = some spec from hspec] at hr
      obtain ⟨handle, τ'', rfl, hstart⟩ := hr
      refine Or.inr (Or.inr (Or.inr ⟨spec, handle, rfl, rfl, ?_⟩))
      have hstarted : ⟨.startChild spec, handle⟩ ∈ τ := hsub List.mem_cons_self
      cases hh : (s.withLogic l).handles childId with
      | none =>
        rw [hh] at hstart
        obtain ⟨rfl, rfl⟩ := hstart
        exact ⟨rfl, hstarted, by simp only [DynamicSupervisor.localRestarted, hh]⟩
      | some old =>
        rw [hh] at hstart
        obtain ⟨rfl, rfl⟩ := hstart
        exact ⟨rfl, hstarted, by simp only [DynamicSupervisor.localRestarted, hh]⟩

/-- What an exit leads to: nothing, a cleanup, a restart or the stop of the supervisor. -/
theorem exec_handleExit {exit : Exit} {τ : SupTrace}
    (hx : (Tasks.DynamicSupervisor.handleExit ctx s exit).Exec τ s') :
    ∃ now τ' action l, τ = ⟨.now, now⟩ :: τ' ∧ s.logic.Decides exit.from.actorId exit.reason now action l ∧
      ((action = .ignore ∧ l.childIdByActorAny exit.from.actorId = none ∧ τ' = [] ∧ s' = s.withLogic l) ∨
        (∃ childId, action = .ignore ∧ l.childIdByActorAny exit.from.actorId = some childId ∧
          (Tasks.DynamicSupervisor.cleanupChild (s.withLogic l) childId).Exec τ' s') ∨
        (∃ childId, action = .restartOne childId ∧
          (Tasks.DynamicSupervisor.restartChildWithBackoff ctx (s.withLogic l) childId).Exec τ' s') ∨
        (action ≠ .ignore ∧ (∀ id, action ≠ .restartOne id) ∧ τ' = [⟨.stop, ()⟩] ∧ s' = s.withLogic l)) := by
  replace hx := Prog.exec_op_bind.mp hx
  obtain ⟨now, τ', rfl, hx⟩ := hx
  rcases hact : s.logic.onChildExit exit.from.actorId exit.reason now with ⟨action, l⟩
  refine ⟨now, τ', action, l, rfl, SupervisorLogic.decides_of_onChildExit hact, ?_⟩
  rw [hact] at hx
  cases action with
  | ignore =>
    dsimp only at hx
    cases hany : l.childIdByActorAny exit.from.actorId with
    | none =>
      rw [hany] at hx
      obtain ⟨rfl, rfl⟩ := hx
      exact Or.inl ⟨rfl, rfl, rfl, rfl⟩
    | some childId =>
      rw [hany] at hx
      exact Or.inr (Or.inl ⟨childId, rfl, rfl, hx⟩)
  | restartOne childId => exact Or.inr (Or.inr (Or.inl ⟨childId, rfl, hx⟩))
  | terminateBatch ids =>
    obtain ⟨_, _, rfl, rfl, rfl⟩ := hx
    exact Or.inr (Or.inr (Or.inr ⟨by simp, by simp, rfl, rfl⟩))
  | meltdown =>
    obtain ⟨_, _, rfl, rfl, rfl⟩ := hx
    exact Or.inr (Or.inr (Or.inr ⟨by simp, by simp, rfl, rfl⟩))

theorem dynStep_handleExit {exit : Exit} {τ : SupTrace}
    (hx : (Tasks.DynamicSupervisor.handleExit ctx s exit).Exec τ s') :
    DynStep ctx s (.exit exit) none (effects τ) s' := by
  obtain ⟨now, τ', action, l, rfl, hd, hcases⟩ := exec_handleExit hx
  rw [effects_cons, show (effectOf ⟨.now, now⟩).toList = [Effect.read now] from rfl, List.singleton_append]
  rcases hcases with ⟨rfl, hany, rfl, rfl⟩ | ⟨childId, rfl, hany, hx⟩ | ⟨childId, rfl, hx⟩ | ⟨hignore, hone, rfl, rfl⟩
  · exact .ignored hd hany
  · obtain ⟨rfl, heffects⟩ := exec_cleanupChild hx
    rw [heffects]
    exact .removed hd hany
  · rcases exec_restartChildWithBackoff hx with ⟨hmeta, heffects, rfl⟩ | ⟨address, hmeta, heffects, rfl⟩ |
      ⟨hmeta, hspec, heffects, rfl⟩ | ⟨spec, handle, hmeta, hspec, heffects, -, rfl⟩ <;> rw [heffects]
    · exact .lost hd hmeta
    · exact .respawned hd hmeta
    · exact .orphaned hd hmeta hspec
    · exact .restarted hd hmeta hspec
  · exact .stopped hd hignore hone

theorem HandleStep.dynStep {msg : DynMsg} {reply : DynReply} {τ : SupTrace} (h : HandleStep ctx s msg τ reply s') :
    DynStep ctx s (.message msg) (some reply) (effects τ) s' := by
  cases h with
  | startChild h => exact h.dynStep
  | startChildRemote h => exact h.dynStep
  | terminateChild h => exact h.dynStep
  | countChildren => exact .idle (by simp) fun n hn => (DynReply.countChildren.inj hn).symm
  | whichChildren => exact .idle (by simp) (by simp)

/-- **A turn is one of the steps.** -/
theorem dynStep_of_handles {rt : Runtime} {p q : Serving DynamicSupervisor} {turn : Turn DynMsg DynReply}
    (h : (rt.dynamicSupervisor ctx).Handles p turn q) :
    DynStep ctx p.state turn.event turn.reply (effects turn.calls) q.state ∧
      (q.stopped = true ↔ Effect.stop ∈ effects turn.calls) := by
  refine ⟨?_, by rw [h.2.2, decide_eq_true_iff, calledStop_iff]⟩
  cases hevent : turn.event with
  | exit exit =>
    rw [Runtime.dynamicSupervisor_eq] at h
    obtain ⟨-, hx, -⟩ := h
    rw [hevent] at hx
    obtain ⟨s₁, h₁, heq⟩ := Prog.exec_bind_pure.mp hx
    obtain ⟨rfl, hreply⟩ := Prod.mk.inj heq
    rw [hreply]
    exact dynStep_handleExit h₁
  | message msg =>
    obtain ⟨reply, hreply, hhandle⟩ := handleStep_of_handles h hevent
    rw [hreply]
    exact hhandle.dynStep

end DynamicSupervisor

end Spawned
