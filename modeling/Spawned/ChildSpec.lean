import Spawned.Exit

/-!
# Child specifications

Restart and shutdown policies, the backoff formula, and `ChildSpec`, the description both supervisors start a child
from. The start closure itself is not a field: a supervisor starts a child by a call that carries the whole spec.
-/

namespace Spawned

/-- How a supervised child is restarted when it exits. -/
inductive RestartType
  /-- Restart on any exit except a supervisor-ordered `shutdown`. -/
  | permanent
  /-- Restart only on abnormal exit. -/
  | transient
  /-- Never restart. -/
  | temporary
deriving DecidableEq, Repr

/-- How a supervisor stops a child during shutdown. -/
inductive ShutdownType
  | infinity
  | timeout (d : Duration)
  | brutalKill
deriving DecidableEq, Repr

/-- At most `maxRestarts` restarts within any `within`. -/
structure RestartIntensity where
  maxRestarts : Nat := 3
  within : Duration := 5 * 1000000000
deriving DecidableEq, Repr

/-- Delay applied before restarting a child. -/
inductive RestartBackoff
  | none
  | fixed (delay : Duration)
  | exponential (base max : Duration)
deriving DecidableEq, Repr

/-- Delay before restart attempt `attempt` (1-based). -/
def RestartBackoff.delayForAttempt (b : RestartBackoff) (attempt : Nat) : Duration :=
  match b with
  | .none => 0
  | .fixed delay => delay
  | .exponential base max =>
    let shift := min (attempt - 1) 20
    min (Duration.saturatingMul base (2 ^ shift)) max

/-- Whether a child with policy `restart` is restarted after `reason`. -/
def shouldRestart (restart : RestartType) (reason : ExitReason) : Bool :=
  match restart with
  | .permanent => reason != .shutdown
  | .transient => reason.isAbnormal
  | .temporary => false

inductive BackpressureMode
  | failFast
  | block
deriving DecidableEq, Repr

/-- Mailbox buffering policy of an actor; no capacity means unbounded. -/
structure MailboxConfig where
  capacity : Option Nat := none
  mode : BackpressureMode := .failFast
deriving DecidableEq, Repr

namespace MailboxConfig

def unbounded : MailboxConfig := { capacity := none, mode := .failFast }

def defaultWorker : MailboxConfig := { capacity := some 64, mode := .failFast }

end MailboxConfig

/-- `pg::DEFAULT_SCOPE`. -/
def defaultScope : String := "default"

/-- Process group joined when a supervised child starts. -/
structure PgMembership where
  scope : String
  group : String
deriving DecidableEq, Repr

/-- Where a supervised child runs. -/
inductive Placement
  | local
  | remote (node : NodeId)
deriving DecidableEq, Repr

/-- How a remote child is spawned on its placement node. -/
inductive RemoteChildSpec
  | named (specName : String)
  | worker (workerType : String) (init : List UInt8)
deriving DecidableEq, Repr

/-- Specification of a supervised child. -/
structure ChildSpec where
  id : String
  restart : RestartType
  shutdown : ShutdownType := .timeout (5 * 1000000000)
  mailbox : MailboxConfig := { capacity := some 64 }
  backoff : RestartBackoff := .none
  pgMembership : Option PgMembership := none
  placement : Placement := .local
  remote : Option RemoteChildSpec := none
deriving DecidableEq, Repr

def ChildSpec.isRemote (spec : ChildSpec) : Bool :=
  match spec.placement with
  | .remote _ => true
  | .local => false

namespace ChildSpec

/-- A named spec registered on the placement node. -/
def remoteNamed (id specName : String) (placement : NodeId) (restart : RestartType) : ChildSpec where
  id := id
  restart := restart
  placement := .remote placement
  remote := some (.named specName)

/-- A worker type registered on the placement node, with `init` as `postcard` encodes it. -/
def remoteWorker (id workerType : String) (init : List UInt8) (placement : NodeId) (restart : RestartType) :
    ChildSpec where
  id := id
  restart := restart
  placement := .remote placement
  remote := some (.worker workerType init)

/-- Join the child to a scoped process group when it starts. -/
def withPgGroupScoped (spec : ChildSpec) (scope group : String) : ChildSpec :=
  { spec with pgMembership := some { scope, group } }

def withPgGroup (spec : ChildSpec) (group : String) : ChildSpec := spec.withPgGroupScoped defaultScope group

def hasPgMembership (spec : ChildSpec) : Bool := spec.pgMembership.isSome

end ChildSpec

/-! ## The wire form of a remote spec -/

/-- Overrides when spawning from a named spec; `restart` mirrors `RestartType`. -/
structure RemoteSpecOverrides where
  restart : Option RestartType
  pgScope : Option String
  pgGroup : Option String
deriving DecidableEq, Repr

/-- How to spawn a child on a remote node. -/
inductive RemoteSpawnSpec
  | worker (workerType : String) (init : List UInt8)
  | namedSpec (name : String) (overrides : RemoteSpecOverrides)
deriving DecidableEq, Repr

def overridesFromSpec (spec : ChildSpec) : RemoteSpecOverrides where
  restart := some spec.restart
  pgScope := spec.pgMembership.map (·.scope)
  pgGroup := spec.pgMembership.map (·.group)

/-- The wire spawn spec of a remote child spec. -/
def remoteSpawnSpecFromInner (spec : ChildSpec) : Option RemoteSpawnSpec :=
  match spec.remote with
  | none => none
  | some (.named specName) => some (.namedSpec specName (overridesFromSpec spec))
  | some (.worker workerType init) => some (.worker workerType init)

end Spawned
