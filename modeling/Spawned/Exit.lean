import Mathlib.Algebra.Group.Nat.Defs
import Mathlib.Logic.Basic

/-!
# Addresses and exit reasons

`ActorAddress` pairs a node with the actor's number on that node: an `ActorId` alone is unique on one node only.
`ExitReason` is why an actor stopped, `Exit` the message a trapping actor gets for it, and `resolveExitReason`
merges the reason of the run loop with the requested and the linked one.
-/

namespace Spawned

/-- Identity of an actor on a single node: the number `ActorId::next` drew for it. -/
abbrev ActorId := Nat

/-- A node name, such as `worker@127.0.0.1`. -/
abbrev NodeId := String

/-- Points of time and lengths of time, in nanoseconds. -/
abbrev Instant := Nat
abbrev Duration := Nat

/-- `Duration::MAX`: `u64::MAX` seconds and 999,999,999 nanoseconds. -/
def Duration.MAX : Duration := 2 ^ 64 * 1000000000 - 1

def Duration.saturatingMul (d : Duration) (k : Nat) : Duration := min (d * k) Duration.MAX

/-- Global actor address: node and local actor id. -/
structure ActorAddress where
  node : NodeId
  actorId : ActorId
deriving DecidableEq, Repr

/-- Reason an actor stopped. -/
inductive ExitReason
  | normal
  | shutdown
  | panic (msg : String)
  | kill
deriving DecidableEq, Repr

/-- The reasons that restart a `Transient` child. -/
def ExitReason.isAbnormal : ExitReason → Bool
  | .normal | .shutdown => false
  | .panic _ | .kill => true

/-- Notification that a linked actor stopped. -/
structure Exit where
  «from» : ActorAddress
  reason : ExitReason
deriving DecidableEq, Repr

/-- The final reason, and what is left in the requested and the linked slot (both are taken). -/
def resolveExitReason (exitReason : ExitReason) (requested linked : Option ExitReason) :
    ExitReason × Option ExitReason × Option ExitReason :=
  match requested with
  | some reason => (reason, none, linked)
  | none =>
    match exitReason, linked with
    | .normal, some linked => (linked, none, none)
    | reason, linked => (reason, none, linked)

end Spawned
