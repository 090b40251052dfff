import Mathlib.Data.List.Sort
import Spawned.ChildSpec
import Spawned.Lib.Table

/-!
# The restart policy engine

`SupervisorLogic` holds one `SupervisedChild` per registered child: its policy and a slot with the bare id of its
current actor and whether that actor is believed alive. `onChildExit` decides what an exit calls for; a batch
(`OneForAll`, `RestForOne`) suppresses further decisions until `pendingBatchRestartComplete` and
`takePendingRestartIds` end it.
-/

namespace Spawned

open Lib

/-- How a supervisor reacts when a supervised child exits. -/
inductive SupervisorStrategy
  | oneForOne
  | oneForAll
  | restForOne
deriving DecidableEq, Repr

/-- Decision of `onChildExit`. -/
inductive SupervisorAction
  | ignore
  | restartOne (id : String)
  | terminateBatch (ids : List String)
  | meltdown
deriving DecidableEq, Repr

structure ChildPolicy where
  id : String
  restart : RestartType
  startIndex : Nat
deriving DecidableEq, Repr

/-- The current actor of a child: its bare id, and whether it is believed alive. -/
structure ChildHandleSlot where
  id : ActorId
  alive : Bool
deriving DecidableEq, Repr

structure SupervisedChild where
  policy : ChildPolicy
  handle : Option ChildHandleSlot
deriving DecidableEq, Repr

/-- The slot is there and marked alive. -/
def SupervisedChild.isAlive (child : SupervisedChild) : Bool := child.handle.any (·.alive)

/-- The slot is there and holds `actorId`, alive or dead. -/
def SupervisedChild.hasActor (child : SupervisedChild) (actorId : ActorId) : Bool :=
  child.handle.any (·.id == actorId)

/-! ## Restart intensity -/

/-- Restarts accepted within the sliding window, oldest first. -/
structure IntensityTracker where
  intensity : RestartIntensity
  restartTimestamps : List Instant := []
deriving DecidableEq, Repr

/-- Record a restart attempt: whether it was accepted, and the tracker after it. -/
def IntensityTracker.recordRestart (t : IntensityTracker) (now : Instant) : Bool × IntensityTracker :=
  let kept := t.restartTimestamps.dropWhile (fun front => t.intensity.within < now - front)
  if t.intensity.maxRestarts ≤ kept.length then (false, { t with restartTimestamps := kept })
  else (true, { t with restartTimestamps := kept ++ [now] })

/-! ## The engine -/

inductive BatchRestart
  | all
  | fromIndex (index : Nat)
deriving DecidableEq, Repr

structure SupervisorLogic where
  strategy : SupervisorStrategy
  intensity : IntensityTracker
  children : List SupervisedChild
  suppressRestarts : Bool
  pendingBatchRestart : Option BatchRestart
  backoffAttempts : Table String Nat

def allChildIds (children : List SupervisedChild) : List String := children.map (·.policy.id)

def restForOneIds (children : List SupervisedChild) (fromIndex : Nat) : List String :=
  (children.filter (fun child => decide (fromIndex ≤ child.policy.startIndex))).map (·.policy.id)

namespace SupervisorLogic

def new (strategy : SupervisorStrategy) (intensity : RestartIntensity) : SupervisorLogic where
  strategy := strategy
  intensity := { intensity := intensity }
  children := []
  suppressRestarts := false
  pendingBatchRestart := none
  backoffAttempts := Table.empty

/-- Delay before restarting `childId`, from its consecutive restart attempts (a saturating `u32`). -/
def backoffDelay (l : SupervisorLogic) (childId : String) (policy : RestartBackoff) :
    Duration × SupervisorLogic :=
  if policy = .none then (0, l)
  else
    let attempt := min ((l.backoffAttempts childId).getD 0 + 1) (2 ^ 32 - 1)
    (policy.delayForAttempt attempt, { l with backoffAttempts := l.backoffAttempts.insert childId attempt })

def resetBackoff (l : SupervisorLogic) (childId : String) : SupervisorLogic :=
  { l with backoffAttempts := l.backoffAttempts.remove childId }

def setSuppressRestarts (l : SupervisorLogic) (value : Bool) : SupervisorLogic :=
  { l with suppressRestarts := value }

/-- Position of the first child whose slot is alive with `actorId`. -/
def childIndexByActor (l : SupervisorLogic) (actorId : ActorId) : Option Nat :=
  l.children.findIdx? (fun child => child.handle.any (fun slot => slot.id == actorId && slot.alive))

/-- Child id by actor id, including children already marked dead. -/
def childIdByActorAny (l : SupervisorLogic) (actorId : ActorId) : Option String :=
  (l.children.find? (·.hasActor actorId)).map (·.policy.id)

/-- Number of children marked alive. -/
def childCount (l : SupervisorLogic) : Nat := l.children.countP (·.isAlive)

def hasChildId (l : SupervisorLogic) (id : String) : Bool := l.children.any (·.policy.id == id)

def isChildAlive (l : SupervisorLogic) (childId : String) : Bool :=
  l.children.any (fun child => child.policy.id == childId && child.isAlive)

/-- Next start index for a dynamically added child. -/
def nextStartIndex (l : SupervisorLogic) : Nat :=
  ((l.children.map (·.policy.startIndex)).max?.map (· + 1)).getD 0

/-- Remove the first child with this id. -/
def removeChildById (l : SupervisorLogic) (childId : String) : SupervisorLogic :=
  { l with children := l.children.eraseP (·.policy.id == childId) }

/-- Mark the first child alive with `actorId` dead. -/
def markChildDead (l : SupervisorLogic) (actorId : ActorId) : SupervisorLogic :=
  match l.childIndexByActor actorId with
  | some idx =>
    { l with children := l.children.modify idx (fun child =>
        { child with handle := child.handle.map (fun slot => { slot with alive := false }) }) }
  | none => l

def registerChild (l : SupervisorLogic) (policy : ChildPolicy) (handle : ChildHandleSlot) : SupervisorLogic :=
  { l with children := l.children ++ [{ policy := policy, handle := some handle }] }

/-- Put `handle` into the first child with this id. -/
def replaceChildHandle (l : SupervisorLogic) (childId : String) (handle : ChildHandleSlot) : SupervisorLogic :=
  match l.children.findIdx? (·.policy.id == childId) with
  | some idx => { l with children := l.children.modify idx (fun child => { child with handle := some handle }) }
  | none => l

/-- Decide what the exit of an actor calls for. -/
def onChildExit (l : SupervisorLogic) (actorId : ActorId) (reason : ExitReason) (now : Instant) :
    SupervisorAction × SupervisorLogic :=
  if l.suppressRestarts then (.ignore, l)
  else
    match l.childIndexByActor actorId with
    | none => (.ignore, l)
    | some childIndex =>
      match l.children[childIndex]? with
      | none => (.ignore, l)
      | some child =>
        let l := l.markChildDead actorId
        if !shouldRestart child.policy.restart reason then (.ignore, l.resetBackoff child.policy.id)
        else
          let (accepted, intensity) := l.intensity.recordRestart now
          let l := { l with intensity := intensity }
          if !accepted then (.meltdown, l)
          else
            match l.strategy with
            | .oneForOne => (.restartOne child.policy.id, l)
            | .oneForAll =>
              (.terminateBatch (allChildIds l.children),
                { l with suppressRestarts := true, pendingBatchRestart := some .all })
            | .restForOne =>
              (.terminateBatch (restForOneIds l.children child.policy.startIndex),
                { l with suppressRestarts := true,
                         pendingBatchRestart := some (.fromIndex child.policy.startIndex) })

/-- Record an exit while batch termination is in progress. -/
def noteExitDuringBatch (l : SupervisorLogic) (actorId : ActorId) : SupervisorLogic := l.markChildDead actorId

/-- The ids a pending batch restarts. -/
def batchIds (l : SupervisorLogic) : BatchRestart → List String
  | .all => allChildIds l.children
  | .fromIndex index => restForOneIds l.children index

/-- Take the pending batch: its ids to restart, with decisions enabled again. -/
def takePendingRestartIds (l : SupervisorLogic) : Option (List String) × SupervisorLogic :=
  match l.pendingBatchRestart with
  | none => (none, l)
  | some pending =>
    (some (l.batchIds pending), { l with pendingBatchRestart := none, suppressRestarts := false })

/-- Whether the pending batch has no child left alive. For `fromIndex` the children are those from *position*
`index` on; `children.get(index..)` is `None` when the vector is shorter than `index`. -/
def pendingBatchRestartComplete (l : SupervisorLogic) : Bool :=
  match l.pendingBatchRestart with
  | none => false
  | some .all => !l.children.any (·.isAlive)
  | some (.fromIndex index) => decide (index ≤ l.children.length) && !(l.children.drop index).any (·.isAlive)

/-- Child ids in reverse start order (a stable sort by descending start index). -/
def shutdownOrder (l : SupervisorLogic) : List String :=
  ((l.children.map (fun child => (child.policy.startIndex, child.policy.id))).insertionSort
    (fun a b => b.1 ≤ a.1)).map (·.2)

end SupervisorLogic

end Spawned
