import Spawned.Supervisor.Logic
import Spawned.Lib.Prog

/-!
# What a supervisor asks of its environment

`SupOp` lists the calls a supervisor makes: starting a child, the requests and waits of a `ChildHandle`, the remote
spawn and shutdown calls, the global registry, the clock and its own context. `SupOp.Ans` is what each is answered
with; the answers are the children's and the environment's, so a statement about every run quantifies over them.

`shutdownChildAsync` and `shutdownChildBlocking` are the two local shutdown functions, each as its own source has it;
`exec_shutdownChildAsync_shape` lists what they can do.
-/

namespace Spawned

open Lib

/-- Handle of a local actor (`ChildHandle` compares by id). -/
structure ChildHandle where
  id : ActorId
deriving DecidableEq, Repr

/-- Handle of a remotely spawned child. -/
structure RemoteChildHandle where
  address : ActorAddress
  parent : ActorAddress
deriving DecidableEq, Repr

/-- What is stored per remote child for its restart. -/
structure RemoteSpawnMeta where
  spec : RemoteSpawnSpec
  placement : NodeId
  link : Bool
deriving DecidableEq, Repr

inductive RemoteSpawnError
  | transport (msg : String)
  | spawnFailed (msg : String)
  | invalidReply
  | publishNotInstalled
  | requestNotInstalled
deriving DecidableEq, Repr

inductive RemoteShutdownError
  | signal (msg : String)
  | timeout
  | interrupted
deriving DecidableEq, Repr

inductive RegistryError
  | alreadyRegistered (name : String)
deriving DecidableEq, Repr

/-- `Display` of the three errors, as their `#[error]` attributes give it. -/
def RegistryError.toString : RegistryError → String
  | .alreadyRegistered name => "name '" ++ name ++ "' is already registered"

def RemoteSpawnError.toString : RemoteSpawnError → String
  | .transport msg => "supervision transport error: " ++ msg
  | .spawnFailed msg => "remote spawn failed: " ++ msg
  | .invalidReply => "invalid spawn reply"
  | .publishNotInstalled => "supervision publish not installed"
  | .requestNotInstalled => "supervision request not installed"

def RemoteShutdownError.toString : RemoteShutdownError → String
  | .signal msg => "remote shutdown signal failed: " ++ msg
  | .timeout => "remote shutdown timed out"
  | .interrupted => "remote shutdown wait interrupted"

/-- The supervisor's own context: its address on this node. -/
structure Context where
  actorAddress : ActorAddress
deriving DecidableEq, Repr

/-- The calls of a supervisor. -/
inductive SupOp
  /-- `spec.start_child(&ctx.child_handle())`: spawn the actor and link it to the supervisor. -/
  | startChild (spec : ChildSpec)
  | exitReason (handle : ChildHandle)
  | shutdown (handle : ChildHandle)
  | kill (handle : ChildHandle)
  | waitExit (handle : ChildHandle)
  | waitExitWithTimeout (handle : ChildHandle) (timeout : Duration)
  /-- `request_spawn_with_retry_async` or `_blocking`, on behalf of the child `childId`. -/
  | requestSpawnWithRetry (childId : String) (placement : NodeId) (parent : ActorAddress)
      (spec : RemoteSpawnSpec) (link : Bool)
  /-- `shutdown_remote_and_wait` or `_blocking`. -/
  | shutdownRemoteAndWait (remote : RemoteChildHandle) (shutdown : ShutdownType)
  | sleep (delay : Duration)
  /-- `Instant::now()`. -/
  | now
  | register (name : String) (handle : ChildHandle)
  | unregister (name : String)
  | trapExit (enabled : Bool)
  | registerSupervisionActor
  /-- `ctx.stop()`. -/
  | stop
deriving DecidableEq

/-- What a call is answered with. -/
abbrev SupOp.Ans : SupOp → Type
  | .startChild _ => ChildHandle
  | .exitReason _ => Option ExitReason
  | .waitExit _ => ExitReason
  | .waitExitWithTimeout _ _ => Option ExitReason
  | .requestSpawnWithRetry _ _ _ _ _ => Except RemoteSpawnError ActorAddress
  | .shutdownRemoteAndWait _ _ => Except RemoteShutdownError Unit
  | .now => Instant
  | .register _ _ => Except RegistryError Unit
  | _ => Unit

/-- A supervisor's program. -/
abbrev SupProg := Prog SupOp SupOp.Ans

/-- The answered calls of a supervisor. -/
abbrev SupTrace := Trace SupOp SupOp.Ans

abbrev SupCall := Call SupOp SupOp.Ans

/-- Make one call. -/
abbrev ask (e : SupOp) : SupProg e.Ans := Prog.op e

/-! ## Local shutdown -/

/-- Apply the shutdown policy and wait asynchronously until the child has exited. -/
def shutdownChildAsync (handle : ChildHandle) (shutdown : ShutdownType) : SupProg ExitReason := do
  match ← ask (.exitReason handle) with
  | some reason => pure reason
  | none =>
    match shutdown with
    | .brutalKill =>
      ask (.kill handle)
      ask (.waitExit handle)
    | .infinity =>
      ask (.shutdown handle)
      ask (.waitExit handle)
    | .timeout duration =>
      ask (.shutdown handle)
      match ← ask (.waitExitWithTimeout handle duration) with
      | some reason => pure reason
      | none =>
        ask (.kill handle)
        ask (.waitExit handle)

/-- Apply the shutdown policy and block until the child has exited. -/
def shutdownChildBlocking (handle : ChildHandle) (shutdown : ShutdownType) : SupProg ExitReason := do
  match ← ask (.exitReason handle) with
  | some reason => pure reason
  | none =>
    match shutdown with
    | .brutalKill =>
      ask (.kill handle)
      ask (.waitExit handle)
    | .infinity =>
      ask (.shutdown handle)
      ask (.waitExit handle)
    | .timeout duration =>
      ask (.shutdown handle)
      match ← ask (.waitExitWithTimeout handle duration) with
      | some reason => pure reason
      | none =>
        ask (.kill handle)
        ask (.waitExit handle)

/-- The call is about a child already started and reports that its actor has exited with `reason`. -/
def Reports (handle : ChildHandle) (reason : ExitReason) (c : SupCall) : Prop :=
  c = ⟨.exitReason handle, some reason⟩ ∨ c = ⟨.waitExit handle, reason⟩ ∨
    ∃ d, c = ⟨.waitExitWithTimeout handle d, some reason⟩

/-- A request to, or a wait for, this local child. -/
def OnHandle (handle : ChildHandle) (e : SupOp) : Prop :=
  e = .exitReason handle ∨ e = .shutdown handle ∨ e = .kill handle ∨ e = .waitExit handle ∨
    ∃ d, e = .waitExitWithTimeout handle d

theorem calls_shutdownChildAsync (handle : ChildHandle) (shutdown : ShutdownType) :
    (shutdownChildAsync handle shutdown).Calls (OnHandle handle) := by
  have hkill : (do ask (.kill handle); ask (.waitExit handle)).Calls (OnHandle handle) :=
    .bind (by simp [OnHandle]) fun _ => by simp [OnHandle]
  refine .bind (by simp [OnHandle]) fun x => ?_
  cases x with
  | some reason => trivial
  | none =>
    cases shutdown with
    | brutalKill => exact hkill
    | infinity => exact .bind (by simp [OnHandle]) fun _ => by simp [OnHandle]
    | timeout d =>
      refine .bind (by simp [OnHandle]) fun _ => .bind (by simp [OnHandle]) fun y => ?_
      cases y with
      | some reason => trivial
      | none => exact hkill

/-- The calls of a shutdown after the look that found the child alive. -/
def FollowsPolicy (handle : ChildHandle) (shutdown : ShutdownType) (reason : ExitReason) (σ : SupTrace) : Prop :=
  match shutdown with
  | .brutalKill => σ = [⟨.kill handle, ()⟩, ⟨.waitExit handle, reason⟩]
  | .infinity => σ = [⟨.shutdown handle, ()⟩, ⟨.waitExit handle, reason⟩]
  | .timeout d =>
    σ = [⟨.shutdown handle, ()⟩, ⟨.waitExitWithTimeout handle d, some reason⟩] ∨
      σ = [⟨.shutdown handle, ()⟩, ⟨.waitExitWithTimeout handle d, none⟩, ⟨.kill handle, ()⟩, ⟨.waitExit handle, reason⟩]

section Shutdown

variable {handle : ChildHandle} {shutdown : ShutdownType} {τ : SupTrace} {r : ExitReason}

/-- A local shutdown ends at once if the child has exited, and else follows its policy. -/
theorem exec_shutdownChildAsync_shape (h : (shutdownChildAsync handle shutdown).Exec τ r) :
    τ = [⟨.exitReason handle, some r⟩] ∨
      ∃ σ, τ = ⟨.exitReason handle, none⟩ :: σ ∧ FollowsPolicy handle shutdown r σ := by
  obtain ⟨answer, σ, rfl, h⟩ := h
  cases answer with
  | some reason =>
    obtain ⟨rfl, rfl⟩ := h
    exact Or.inl rfl
  | none =>
    refine Or.inr ⟨σ, rfl, ?_⟩
    cases shutdown with
    | brutalKill =>
      obtain ⟨_, _, rfl, _, _, rfl, rfl, rfl⟩ := h
      rfl
    | infinity =>
      obtain ⟨_, _, rfl, _, _, rfl, rfl, rfl⟩ := h
      rfl
    | timeout d =>
      obtain ⟨_, _, rfl, answer, _, rfl, h⟩ := h
      cases answer with
      | some reason =>
        obtain ⟨rfl, rfl⟩ := h
        exact Or.inl rfl
      | none =>
        obtain ⟨_, _, rfl, _, _, rfl, rfl, rfl⟩ := h
        exact Or.inr rfl

/-- The last call of a shutdown reports that the child has exited. -/
theorem FollowsPolicy.reports {σ : SupTrace} (h : FollowsPolicy handle shutdown r σ) : ∃ c ∈ σ, Reports handle r c := by
  have hwait : Reports handle r ⟨.waitExit handle, r⟩ := Or.inr (Or.inl rfl)
  cases shutdown with
  | brutalKill =>
    obtain rfl := h
    exact ⟨_, by simp, hwait⟩
  | infinity =>
    obtain rfl := h
    exact ⟨_, by simp, hwait⟩
  | timeout d =>
    rcases h with rfl | rfl
    · exact ⟨⟨.waitExitWithTimeout handle d, some r⟩, by simp, Or.inr (Or.inr ⟨d, rfl⟩)⟩
    · exact ⟨_, by simp, hwait⟩

/-- The shutdown returns only on a report that the child has exited. -/
theorem exec_shutdownChildAsync (h : (shutdownChildAsync handle shutdown).Exec τ r) : ∃ c ∈ τ, Reports handle r c := by
  rcases exec_shutdownChildAsync_shape h with rfl | ⟨σ, rfl, hσ⟩
  · exact ⟨_, List.mem_singleton_self _, Or.inl rfl⟩
  · obtain ⟨c, hc, hreports⟩ := hσ.reports
    exact ⟨c, List.mem_cons_of_mem _ hc, hreports⟩

end Shutdown

end Spawned
