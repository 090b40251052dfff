import Spawned.Lib.Nested
import Spawned.Lib.Run
import Spawned.Pg.Store

/-!
# The four tables of the process groups

The store of a node map by map: the local and the remote members of each group, the index from an actor to its groups, and
the typed buckets. An operation takes the lock of the store once.

* `PgTables` : the tables, and the operations as they write them. Joins are counted in 32 bits;
* `PgTables.Consistent` : index and groups agree on the actors of this node, the buckets hold members only, and nothing is
  kept that is empty;
* `PgTables.Cleared` : what `remove_group_if_empty` does. `PgTables.Pruned` : what the two queries do;
* `Clean` : a typed join is of a member, and a query finds no dead member, or none alive and no member elsewhere;
* `consistent_iff_clean` : the tables are consistent throughout a run if and only if every step of it is clean.
-/

namespace Spawned

open Lib

structure Member where
  handle : ActorId
  joins : UInt32
deriving DecidableEq

structure RemoteMember where
  joins : UInt32
deriving DecidableEq

/-- `PgStore`, with values of type `V` in the typed buckets. -/
structure PgTables (V : Type) where
  groups : Nested GroupKey ActorAddress Member := Table.empty
  remote : Nested GroupKey ActorAddress RemoteMember := Table.empty
  index : Nested ActorAddress GroupKey Unit := Table.empty
  typed : Nested (GroupKey × TypeId) ActorAddress V := Table.empty

namespace PgTables

variable {V : Type}

/-- `PgStore::typed_join`. -/
def typedJoin (store : PgTables V) (key : GroupKey) (type : TypeId) (address : ActorAddress) (value : V) : PgTables V :=
  { store with typed := store.typed.upsertIn (key, type) address (fun _ => value) value }

def removeGroupIfEmpty (store : PgTables V) (key : GroupKey) : PgTables V :=
  let localEmpty := store.groups.vacant key
  let remoteEmpty := store.remote.vacant key
  if localEmpty && remoteEmpty then
    { groups := store.groups.remove key
      remote := store.remote.remove key
      index := (store.index.onEvery fun _ groups => groups.erase key).dropEmpty
      typed := store.typed.retain fun bucketKey bucket => if bucketKey.1 = key then false else !bucket.isEmpty }
  else if localEmpty then { store with groups := store.groups.remove key }
  else if remoteEmpty then { store with remote := store.remote.remove key }
  else store

def removeRemoteIfEmpty (store : PgTables V) (key : GroupKey) : PgTables V :=
  let store :=
    if (store.remote key).any Inner.isEmpty then { store with remote := store.remote.remove key } else store
  store.removeGroupIfEmpty key

/-- One turn of the loop of `remove_actor`. -/
def removeFromGroup (address : ActorAddress) (store : PgTables V) (key : GroupKey) : PgTables V :=
  removeGroupIfEmpty
    { store with
      groups := store.groups.onInner key fun members => members.erase address
      remote := store.remote.onInner key fun members => members.erase address } key

/-- `PgStore::remove_actor`; `keys` are the groups that the index lists for the actor, in the order of the set. -/
def removeActor (store : PgTables V) (address : ActorAddress) (keys : List GroupKey) : PgTables V :=
  let removed := keys.foldl (removeFromGroup address) { store with index := store.index.remove address }
  { removed with typed := (removed.typed.onEvery fun _ bucket => bucket.erase address).dropEmpty }

/-- The groups that the index lists for an actor. -/
def groupsOf (store : PgTables V) (address : ActorAddress) : List GroupKey := (store.index address).elim [] AList.keys

/-- `join_scoped` on node `here`. -/
def joinScoped (here : NodeId) (store : PgTables V) (key : GroupKey) (handle : ActorId) : PgTables V :=
  let address : ActorAddress := ⟨here, handle⟩
  { store with
    groups := store.groups.upsertIn key address (fun member => { member with joins := member.joins + 1 }) ⟨handle, 1⟩
    index := store.index.upsertIn address key id () }

/-- `leave_scoped` on node `here`. -/
def leaveScoped (here : NodeId) (store : PgTables V) (key : GroupKey) (id : ActorId) :
    Except PgError Unit × PgTables V :=
  let address : ActorAddress := ⟨here, id⟩
  match (store.groups key).bind fun members => members.lookup address with
  | none => (.error (.notJoined id key.group key.scope), store)
  | some member =>
    let joins := member.joins - 1
    if joins = 0 then
      let left :=
        removeGroupIfEmpty { store with groups := store.groups.onInner key fun members => members.erase address } key
      (.ok (),
        { left with
          index := left.index.eraseIn address key
          typed := (left.typed.onEvery fun bucketKey bucket =>
            if bucketKey.1 = key then bucket.erase address else bucket).dropEmpty })
    else
      (.ok (),
        { store with groups := store.groups.onInner key fun members => members.replace address { member with joins } })

/-- `member_addresses_scoped`, with the members that are alive told by their handles. -/
def memberAddressesScoped (store : PgTables V) (alive : ActorId → Bool) (key : GroupKey) :
    List ActorAddress × PgTables V :=
  let groups := store.groups.onInner key fun members => members.retain fun member => alive member.handle
  let groups := if groups.vacant key then groups.remove key else groups
  let out := (groups key).elim [] AList.keys ++ (store.remote key).elim [] AList.keys
  (out, removeGroupIfEmpty { store with groups } key)

def getLocalMembersScoped (store : PgTables V) (alive : ActorId → Bool) (key : GroupKey) :
    List ActorId × PgTables V :=
  match store.groups key with
  | none => ([], store)
  | some members =>
    let members := members.retain fun member => alive member.handle
    let pruned := { store with groups := store.groups.insert key members }
    if members.isEmpty then ([], pruned.removeGroupIfEmpty key)
    else (members.entries.map fun entry => entry.2.handle, pruned)

/-- A `Join` from a peer, unless it is about an actor of this node. -/
def applyJoin (here : NodeId) (store : PgTables V) (entry : PgEntry) : PgTables V :=
  if entry.2.node = here then store
  else
    { store with
      remote := store.remote.upsertIn entry.1 entry.2 (fun member => { member with joins := member.joins + 1 }) ⟨1⟩ }

/-- `apply_remote_pg_event` on node `here`. -/
def applyRemotePgEvent (here : NodeId) (store : PgTables V) : PgEvent → PgTables V
  | .join key address => store.applyJoin here (key, address)
  | .leave key address =>
    if address.node = here then store
    else
      match (store.remote key).bind fun members => members.lookup address with
      | none => store
      | some member =>
        let joins := if member.joins = 0 then 0 else member.joins - 1
        let remote :=
          if joins = 0 then store.remote.onInner key fun members => members.erase address
          else store.remote.onInner key fun members => members.replace address { member with joins }
        removeRemoteIfEmpty { store with remote } key
  | .snapshot entries => entries.foldl (applyJoin here) store

end PgTables

/-! ## A node -/

/-- The tables of a node, and the actors that have completed. -/
structure PgNode (V : Type) where
  tables : PgTables V := {}
  completed : List ActorId := []

def PgNode.alive {V : Type} (s : PgNode V) (id : ActorId) : Bool := !s.completed.contains id

/-- The operations on the store, and the completion of an actor. -/
inductive PgCall (V : Type)
  | joinScoped (key : GroupKey) (handle : ActorId)
  | typedJoin (key : GroupKey) (type : TypeId) (id : ActorId) (value : V)
  | leaveScoped (key : GroupKey) (id : ActorId)
  | removeActor (id : ActorId) (keys : List GroupKey)
  | applyRemotePgEvent (event : PgEvent)
  | memberAddressesScoped (key : GroupKey)
  | getLocalMembersScoped (key : GroupKey)
  | complete (id : ActorId)

namespace PgNode

variable {V : Type}

/-- One operation on node `here`; the loop of `remove_actor` goes through the groups of the index in any order. -/
def next (here : NodeId) (s : PgNode V) : PgCall V → Option (PgNode V)
  | .joinScoped key handle => some { s with tables := s.tables.joinScoped here key handle }
  | .typedJoin key type id value => some { s with tables := s.tables.typedJoin key type ⟨here, id⟩ value }
  | .leaveScoped key id => some { s with tables := (s.tables.leaveScoped here key id).2 }
  | .removeActor id keys =>
    if keys.Perm (s.tables.groupsOf ⟨here, id⟩) then some { s with tables := s.tables.removeActor ⟨here, id⟩ keys }
    else none
  | .applyRemotePgEvent event => some { s with tables := s.tables.applyRemotePgEvent here event }
  | .memberAddressesScoped key => some { s with tables := (s.tables.memberAddressesScoped s.alive key).2 }
  | .getLocalMembersScoped key => some { s with tables := (s.tables.getLocalMembersScoped s.alive key).2 }
  | .complete id => some { s with completed := id :: s.completed }

def Step (here : NodeId) (s : PgNode V) (op : PgCall V) (s' : PgNode V) : Prop := s.next here op = some s'

end PgNode

/-! ## Groups that empty -/

namespace PgTables

variable {V : Type} {here : NodeId} {store store' store'' : PgTables V} {key : GroupKey}

/-- The group has a member, here or elsewhere. -/
def Present (store : PgTables V) (key : GroupKey) : Prop :=
  (∃ address, store.groups.Has key address) ∨ ∃ address, store.remote.Has key address

/-- No inner map, set or bucket is empty. -/
structure Filled (store : PgTables V) : Prop where
  groups : store.groups.Filled
  remote : store.remote.Filled
  index : store.index.Filled
  typed : store.typed.Filled

/-- What `remove_group_if_empty` does: no members come or go, a group that is not present leaves the index and the typed
buckets, and the maps of members of the group are no longer kept when they are empty. -/
structure Cleared (key : GroupKey) (store store' : PgTables V) : Prop where
  groups : ∀ k a, store'.groups.Has k a ↔ store.groups.Has k a
  remote : ∀ k a, store'.remote.Has k a ↔ store.remote.Has k a
  index : ∀ a k, store'.index.Has a k ↔ store.index.Has a k ∧ (k = key → store.Present key)
  typed : ∀ k type a, store'.typed.Has (k, type) a ↔ store.typed.Has (k, type) a ∧ (k = key → store.Present key)
  filled : store.groups.FilledBut key → store.remote.FilledBut key → store.index.Filled → store.typed.Filled →
    store'.Filled

theorem not_present_iff :
    ¬store.Present key ↔ store.groups.vacant key = true ∧ store.remote.vacant key = true := by
  rw [Nested.vacant_iff, Nested.vacant_iff, Present, not_or, not_exists, not_exists]

theorem has_index_erased {k : GroupKey} {a : ActorAddress} :
    (store.index.onEvery fun _ groups => groups.erase key).dropEmpty.Has a k ↔ store.index.Has a k ∧ k ≠ key := by
  rw [Nested.has_dropEmpty, Nested.has_onEvery_erase]

theorem has_typed_retained {k : GroupKey} {type : TypeId} {a : ActorAddress} :
    Nested.Has (store.typed.retain fun bucketKey bucket => if bucketKey.1 = key then false else !bucket.isEmpty)
      (k, type) a ↔ store.typed.Has (k, type) a ∧ k ≠ key := by
  rw [Nested.has_retain]
  by_cases hk : k = key
  · simp [hk]
  · simp only [hk, if_false, ne_eq, not_false_eq_true, and_true]
    refine exists_congr fun bucket => and_congr_right fun _ => and_iff_right_of_imp fun ha => ?_
    rw [Bool.not_eq_true', Inner.isEmpty_eq_false_iff]
    exact ⟨a, ha⟩

theorem cleared_removeGroupIfEmpty (store : PgTables V) (key : GroupKey) :
    Cleared key store (store.removeGroupIfEmpty key) := by
  by_cases hpresent : store.Present key
  · -- one of the two maps of members has an entry, and the other one goes if it is empty
    have hkept : ∀ {p : Prop} {k : GroupKey}, p ↔ p ∧ (k = key → store.Present key) :=
      (and_iff_left fun _ => hpresent).symm
    simp only [removeGroupIfEmpty, Bool.and_eq_true]
    rw [if_neg fun hempty => not_present_iff.mpr hempty hpresent]
    split_ifs with hlocal hremote
    · refine ⟨fun k a => Nested.has_remove_vacant hlocal, fun k a => Iff.rfl, fun a k => hkept, fun k type a => hkept, ?_⟩
      intro hg hr hi ht
      have hfull : store.remote.vacant key = false := by
        rw [← Bool.not_eq_true]
        exact fun hempty => not_present_iff.mpr ⟨hlocal, hempty⟩ hpresent
      exact ⟨hg.remove, hr.of_not_vacant hfull, hi, ht⟩
    · refine ⟨fun k a => Iff.rfl, fun k a => Nested.has_remove_vacant hremote, fun a k => hkept, fun k type a => hkept, ?_⟩
      intro hg hr hi ht
      exact ⟨hg.of_not_vacant (by simpa using hlocal), hr.remove, hi, ht⟩
    · refine ⟨fun k a => Iff.rfl, fun k a => Iff.rfl, fun a k => hkept, fun k type a => hkept, fun hg hr hi ht => ?_⟩
      exact ⟨hg.of_not_vacant (by simpa using hlocal), hr.of_not_vacant (by simpa using hremote), hi, ht⟩
  · have hempty := not_present_iff.mp hpresent
    have hgone : ∀ k : GroupKey, k ≠ key ↔ (k = key → store.Present key) :=
      fun k => ⟨fun hne he => absurd he hne, fun h he => hpresent (h he)⟩
    simp only [removeGroupIfEmpty, hempty.1, hempty.2, Bool.and_self, if_true]
    refine ⟨fun k a => Nested.has_remove_vacant hempty.1, fun k a => Nested.has_remove_vacant hempty.2, fun a k => ?_,
      fun k type a => ?_, fun hg hr hi ht => ?_⟩
    · rw [← hgone]
      exact has_index_erased
    · rw [← hgone]
      exact has_typed_retained
    · refine ⟨hg.remove, hr.remove, Nested.filled_dropEmpty _, Nested.filled_retain fun bucketKey bucket hp => ?_⟩
      split_ifs at hp
      exact Inner.isEmpty_eq_false_iff.mp (by simpa using hp)

theorem cleared_removeRemoteIfEmpty (store : PgTables V) (key : GroupKey) :
    Cleared key store (store.removeRemoteIfEmpty key) := by
  simp only [removeRemoteIfEmpty]
  split_ifs with hempty
  · have hvacant : store.remote.vacant key = true := by
      unfold Nested.vacant
      cases hk : store.remote key with
      | none => rfl
      | some members => rwa [hk] at hempty
    have hc := cleared_removeGroupIfEmpty { store with remote := store.remote.remove key } key
    have hpresent : Present { store with remote := store.remote.remove key } key ↔ store.Present key :=
      or_congr_right (exists_congr fun a => Nested.has_remove_vacant hvacant)
    refine ⟨hc.groups, fun k a => (hc.remote k a).trans (Nested.has_remove_vacant hvacant), fun a k => ?_,
      fun k type a => ?_, fun hg hr hi ht => hc.filled hg (hr.remove.but key) hi ht⟩
    · rw [hc.index, hpresent]
    · rw [hc.typed, hpresent]
  · exact cleared_removeGroupIfEmpty store key

/-! ## Nothing empty is kept -/

namespace Filled

theorem joinScoped (h : store.Filled) (key : GroupKey) (handle : ActorId) : (store.joinScoped here key handle).Filled :=
  ⟨Nested.filled_upsertIn h.groups, h.remote, Nested.filled_upsertIn h.index, h.typed⟩

theorem typedJoin (h : store.Filled) (type : TypeId) (address : ActorAddress) (value : V) :
    (store.typedJoin key type address value).Filled :=
  ⟨h.groups, h.remote, h.index, Nested.filled_upsertIn h.typed⟩

theorem applyJoin (h : store.Filled) (entry : PgEntry) : (store.applyJoin here entry).Filled := by
  unfold PgTables.applyJoin
  split
  · exact h
  · exact ⟨h.groups, Nested.filled_upsertIn h.remote, h.index, h.typed⟩

theorem applyRemotePgEvent (h : store.Filled) (event : PgEvent) : (store.applyRemotePgEvent here event).Filled := by
  cases event with
  | join key address => exact h.applyJoin (key, address)
  | leave key address =>
    simp only [PgTables.applyRemotePgEvent]
    split_ifs
    · exact h
    · split
      · exact h
      · refine (cleared_removeRemoteIfEmpty _ key).filled (h.groups.but key) ?_ h.index h.typed
        -- the group's remote members, with an entry less or a count lowered
        split_ifs
        all_goals exact Nested.filledBut_onInner h.remote
  | snapshot entries =>
    simp only [PgTables.applyRemotePgEvent]
    induction entries generalizing store with
    | nil => exact h
    | cons entry entries ih => exact ih (h.applyJoin entry)

theorem leaveScoped (h : store.Filled) (key : GroupKey) (id : ActorId) : (store.leaveScoped here key id).2.Filled := by
  simp only [PgTables.leaveScoped]
  split
  · exact h
  · split_ifs
    · have hfilled := (cleared_removeGroupIfEmpty { store with
        groups := store.groups.onInner key fun members => members.erase ⟨here, id⟩ } key).filled
          (Nested.filledBut_onInner h.groups) (h.remote.but key) h.index h.typed
      exact ⟨hfilled.groups, hfilled.remote, Nested.filled_eraseIn hfilled.index, Nested.filled_dropEmpty _⟩
    · exact ⟨Nested.filled_onInner_replace h.groups, h.remote, h.index, h.typed⟩

theorem removeFromGroup (h : store.Filled) (address : ActorAddress) (key : GroupKey) :
    (store.removeFromGroup address key).Filled :=
  (cleared_removeGroupIfEmpty _ key).filled (Nested.filledBut_onInner h.groups) (Nested.filledBut_onInner h.remote)
    h.index h.typed

theorem removeActor (h : store.Filled) (address : ActorAddress) (keys : List GroupKey) :
    (store.removeActor address keys).Filled := by
  have hloop : ∀ store : PgTables V, store.Filled → (keys.foldl (PgTables.removeFromGroup address) store).Filled := by
    induction keys with
    | nil => exact fun _ h => h
    | cons key keys ih => exact fun _ h => ih _ (h.removeFromGroup address key)
  have hend := hloop { store with index := store.index.remove address }
    ⟨h.groups, h.remote, (h.index.but address).remove, h.typed⟩
  exact ⟨hend.groups, hend.remote, hend.index, Nested.filled_dropEmpty _⟩

theorem memberAddressesScoped (h : store.Filled) (alive : ActorId → Bool) (key : GroupKey) :
    (store.memberAddressesScoped alive key).2.Filled := by
  refine (cleared_removeGroupIfEmpty _ key).filled ?_ (h.remote.but key) h.index h.typed
  dsimp only
  split_ifs
  · exact (Nested.filledBut_onInner h.groups).remove.but key
  · exact Nested.filledBut_onInner h.groups

theorem getLocalMembersScoped (h : store.Filled) (alive : ActorId → Bool) (key : GroupKey) :
    (store.getLocalMembersScoped alive key).2.Filled := by
  unfold PgTables.getLocalMembersScoped
  cases hkey : store.groups key with
  | none => exact h
  | some members =>
    simp only [Nested.insert_eq_onInner (fun members => members.retain fun member => alive member.handle) hkey]
    split_ifs with hempty
    · exact (cleared_removeGroupIfEmpty _ key).filled (Nested.filledBut_onInner h.groups) (h.remote.but key) h.index h.typed
    · refine ⟨(Nested.filledBut_onInner h.groups).of_not_vacant ?_, h.remote, h.index, h.typed⟩
      simp [Nested.vacant, Nested.onInner_apply, hkey, hempty]

end Filled

/-! ## Consistency -/

/-- Index and groups agree on the actors of this node, the typed buckets hold members only, and nothing is empty. -/
structure Consistent (here : NodeId) (store : PgTables V) : Prop where
  indexed : ∀ key (address : ActorAddress), address.node = here →
    (store.groups.Has key address ↔ store.index.Has address key)
  bucketed : ∀ key type address, store.typed.Has (key, type) address → store.groups.Has key address
  filled : store.Filled

/-- A consistent store that lists no actors of other nodes as its own. -/
structure Sound (here : NodeId) (store : PgTables V) : Prop where
  indexed : ∀ key address, store.groups.Has key address ↔ store.index.Has address key
  own : ∀ key address, store.groups.Has key address → address.node = here
  bucketed : ∀ key type address, store.typed.Has (key, type) address → store.groups.Has key address
  filled : store.Filled

theorem Sound.consistent (h : store.Sound here) : store.Consistent here :=
  ⟨fun key address _ => h.indexed key address, h.bucketed, h.filled⟩

theorem sound_empty : Sound here ({} : PgTables V) := by
  refine ⟨fun key address => ?_, fun key address h => ?_, fun key type address h => ?_, ?_⟩
  · simp
  · exact absurd h Nested.not_has_empty
  · exact absurd h Nested.not_has_empty
  · exact ⟨Nested.filled_empty, Nested.filled_empty, Nested.filled_empty, Nested.filled_empty⟩

/-- Clearing what is left of a group completes an operation on its maps of members. -/
theorem Cleared.sound (hc : Cleared key store store')
    (hindexed : ∀ k a, store.groups.Has k a ↔ store.index.Has a k)
    (hown : ∀ k a, store.groups.Has k a → a.node = here)
    (hbucketed : ∀ k type a, store.typed.Has (k, type) a → store.groups.Has k a)
    (hgroups : store.groups.FilledBut key) (hremote : store.remote.FilledBut key) (hindex : store.index.Filled)
    (htyped : store.typed.Filled) : store'.Sound here := by
  refine ⟨fun k a => ?_, fun k a ha => hown k a ((hc.groups k a).mp ha), fun k type a ha => ?_,
    hc.filled hgroups hremote hindex htyped⟩
  · rw [hc.groups, hc.index, hindexed, and_iff_left_of_imp]
    rintro ha rfl
    exact Or.inl ⟨a, (hindexed k a).mpr ha⟩
  · exact (hc.groups k a).mpr (hbucketed k type a ((hc.typed k type a).mp ha).1)

/-! ### Joins and events of peers -/

theorem Sound.joinScoped (h : store.Sound here) (key : GroupKey) (handle : ActorId) :
    (store.joinScoped here key handle).Sound here := by
  refine ⟨fun k a => ?_, fun k a ha => ?_, fun k type a ha => ?_, ?_⟩
  · simp only [PgTables.joinScoped, Nested.has_upsertIn]
    rw [h.indexed, and_comm]
  · rcases Nested.has_upsertIn.mp ha with ⟨-, rfl⟩ | ha
    · rfl
    · exact h.own k a ha
  · exact Nested.has_upsertIn.mpr (Or.inr (h.bucketed k type a ha))
  · exact h.filled.joinScoped key handle

theorem Sound.typedJoin (h : store.Sound here) (type : TypeId) {address : ActorAddress} (value : V)
    (hmember : store.groups.Has key address) : (store.typedJoin key type address value).Sound here := by
  refine ⟨h.indexed, h.own, fun k type' a ha => ?_, h.filled.typedJoin type address value⟩
  rcases Nested.has_upsertIn.mp ha with ⟨he, rfl⟩ | ha
  · cases he
    exact hmember
  · exact h.bucketed k type' a ha

theorem Consistent.member_of_typedJoin {type : TypeId} {address : ActorAddress} {value : V}
    (h : (store.typedJoin key type address value).Consistent here) : store.groups.Has key address :=
  h.bucketed key type address (Nested.has_upsertIn.mpr (Or.inl ⟨rfl, rfl⟩))

theorem Sound.applyJoin (h : store.Sound here) (entry : PgEntry) : (store.applyJoin here entry).Sound here := by
  unfold PgTables.applyJoin
  split
  · exact h
  · exact ⟨h.indexed, h.own, h.bucketed, h.filled.groups, Nested.filled_upsertIn h.filled.remote, h.filled.index,
      h.filled.typed⟩

theorem Sound.applyRemotePgEvent (h : store.Sound here) (event : PgEvent) :
    (store.applyRemotePgEvent here event).Sound here := by
  cases event with
  | join key address => exact h.applyJoin (key, address)
  | leave key address =>
    simp only [PgTables.applyRemotePgEvent]
    split_ifs
    · exact h
    · split
      · exact h
      · refine (cleared_removeRemoteIfEmpty _ key).sound h.indexed h.own h.bucketed (h.filled.groups.but key) ?_
          h.filled.index h.filled.typed
        -- the group's remote members, with an entry less or a count lowered
        split_ifs
        all_goals exact Nested.filledBut_onInner h.filled.remote
  | snapshot entries =>
    simp only [PgTables.applyRemotePgEvent]
    induction entries generalizing store with
    | nil => exact h
    | cons entry entries ih => exact ih (h.applyJoin entry)

/-! ### Leaves -/

theorem Sound.leaveScoped (h : store.Sound here) (key : GroupKey) (id : ActorId) :
    (store.leaveScoped here key id).2.Sound here := by
  simp only [PgTables.leaveScoped]
  split
  · exact h
  · split_ifs
    · set left : PgTables V := { store with groups := store.groups.onInner key fun members => members.erase ⟨here, id⟩ }
        with hleft
      have hc := cleared_removeGroupIfEmpty left key
      have hgroups : ∀ k a, left.groups.Has k a ↔ store.groups.Has k a ∧ ¬(k = key ∧ a = ⟨here, id⟩) :=
        fun k a => Nested.has_onInner_erase
      have htyped : ∀ k type a,
          Nested.Has (((left.removeGroupIfEmpty key).typed.onEvery fun bucketKey bucket =>
            if bucketKey.1 = key then bucket.erase ⟨here, id⟩ else bucket).dropEmpty) (k, type) a →
          store.typed.Has (k, type) a ∧ ¬(k = key ∧ a = ⟨here, id⟩) := by
        intro k type a ha
        rw [Nested.has_dropEmpty] at ha
        obtain ⟨ha, hne⟩ := (Nested.has_onEvery_erase_of fun k : GroupKey × TypeId => k.1 = key).mp ha
        exact ⟨((hc.typed k type a).mp ha).1, hne⟩
      refine ⟨fun k a => ?_, fun k a ha => ?_, fun k type a ha => ?_, ?_⟩
      · rw [Nested.has_eraseIn, hc.groups, hc.index, hgroups, h.indexed, and_assoc, and_comm (b := k = key)]
        refine and_congr_right fun ha => (and_iff_right_of_imp ?_).symm
        rintro hne rfl
        exact Or.inl ⟨a, (hgroups k a).mpr ⟨(h.indexed k a).mpr ha, hne⟩⟩
      · exact h.own k a ((hgroups k a).mp ((hc.groups k a).mp ha)).1
      · obtain ⟨ha, hne⟩ := htyped k type a ha
        exact (hc.groups k a).mpr ((hgroups k a).mpr ⟨h.bucketed k type a ha, hne⟩)
      · have hfilled := hc.filled (Nested.filledBut_onInner h.filled.groups) (h.filled.remote.but key)
          h.filled.index h.filled.typed
        exact ⟨hfilled.groups, hfilled.remote, Nested.filled_eraseIn hfilled.index, Nested.filled_dropEmpty _⟩
    · exact ⟨fun k a => Nested.has_onInner_replace.trans (h.indexed k a),
        fun k a ha => h.own k a (Nested.has_onInner_replace.mp ha),
        fun k type a ha => Nested.has_onInner_replace.mpr (h.bucketed k type a ha),
        Nested.filled_onInner_replace h.filled.groups, h.filled.remote, h.filled.index, h.filled.typed⟩

/-! ### The exit of an actor -/

/-- In the loop of `remove_actor`, with the groups `keys` to come: `address` is no longer in the index, and still in no
group but these. -/
structure Removing (here : NodeId) (address : ActorAddress) (keys : List GroupKey) (store : PgTables V) : Prop where
  indexed : ∀ k a, a ≠ address → (store.groups.Has k a ↔ store.index.Has a k)
  unindexed : ∀ k, ¬store.index.Has address k
  left : ∀ k, store.groups.Has k address → k ∈ keys
  own : ∀ k a, store.groups.Has k a → a.node = here
  bucketed : ∀ k type a, store.typed.Has (k, type) a → a = address ∨ store.groups.Has k a
  filled : store.Filled

theorem Removing.removeFromGroup {address : ActorAddress} {keys : List GroupKey}
    (h : Removing here address (key :: keys) store) : Removing here address keys (store.removeFromGroup address key) := by
  set left : PgTables V :=
    { store with
      groups := store.groups.onInner key fun members => members.erase address
      remote := store.remote.onInner key fun members => members.erase address }
  have hc : Cleared key left (store.removeFromGroup address key) := cleared_removeGroupIfEmpty left key
  have hgroups : ∀ k a, (store.removeFromGroup address key).groups.Has k a ↔
      store.groups.Has k a ∧ ¬(k = key ∧ a = address) := fun k a => (hc.groups k a).trans Nested.has_onInner_erase
  refine ⟨fun k a hne => ?_, fun k hk => ?_, fun k hk => ?_, fun k a ha => ?_, fun k type a ha => ?_, ?_⟩
  · rw [hgroups, hc.index, h.indexed k a hne, and_iff_left fun hboth : k = key ∧ a = address => hne hboth.2]
    symm
    apply and_iff_left_of_imp
    rintro ha rfl
    exact Or.inl ⟨a, Nested.has_onInner_erase.mpr ⟨(h.indexed k a hne).mpr ha, fun hboth => hne hboth.2⟩⟩
  · exact h.unindexed k ((hc.index address k).mp hk).1
  · obtain ⟨hk, hne⟩ := (hgroups k address).mp hk
    exact (List.mem_cons.mp (h.left k hk)).resolve_left fun he => hne ⟨he, rfl⟩
  · exact h.own k a ((hgroups k a).mp ha).1
  · by_cases he : a = address
    · exact Or.inl he
    · have hmember := (h.bucketed k type a ((hc.typed k type a).mp ha).1).resolve_left he
      exact Or.inr ((hgroups k a).mpr ⟨hmember, fun hboth => he hboth.2⟩)
  · exact hc.filled (Nested.filledBut_onInner h.filled.groups) (Nested.filledBut_onInner h.filled.remote)
      h.filled.index h.filled.typed

theorem Removing.foldl {address : ActorAddress} {keys : List GroupKey} (h : Removing here address keys store) :
    Removing here address [] (keys.foldl (PgTables.removeFromGroup address) store) := by
  induction keys generalizing store with
  | nil => exact h
  | cons key keys ih => exact ih h.removeFromGroup

theorem mem_groupsOf {address : ActorAddress} {k : GroupKey} :
    k ∈ store.groupsOf address ↔ store.index.Has address k := by
  unfold groupsOf Nested.Has
  cases store.index address with
  | none => simp
  | some groups => simp [AList.mem_keys]

/-- Where the loop of `remove_actor` begins. -/
theorem Sound.removing (h : store.Sound here) {address : ActorAddress} {keys : List GroupKey}
    (hkeys : keys.Perm (store.groupsOf address)) :
    Removing here address keys { store with index := store.index.remove address } := by
  refine ⟨fun k a hne => ?_, fun k hk => ?_, fun k hk => ?_, h.own, fun k type a ha => ?_, ?_⟩
  · show store.groups.Has k a ↔ Nested.Has (store.index.remove address) a k
    rw [h.indexed, Nested.has_remove, and_iff_right hne]
  · exact (Nested.has_remove.mp hk).1 rfl
  · exact hkeys.mem_iff.mpr (mem_groupsOf.mpr ((h.indexed k address).mp hk))
  · exact Or.inr (h.bucketed k type a ha)
  · exact ⟨h.filled.groups, h.filled.remote, (h.filled.index.but address).remove, h.filled.typed⟩

/-- After `remove_actor` the actor is in no group. -/
theorem Sound.not_has_removeActor (h : store.Sound here) {address : ActorAddress} {keys : List GroupKey}
    (hkeys : keys.Perm (store.groupsOf address)) (k : GroupKey) :
    ¬(store.removeActor address keys).groups.Has k address :=
  fun hk => by simpa using (h.removing hkeys).foldl.left k hk

theorem Sound.removeActor (h : store.Sound here) {address : ActorAddress} {keys : List GroupKey}
    (hkeys : keys.Perm (store.groupsOf address)) : (store.removeActor address keys).Sound here := by
  have hend := (h.removing hkeys).foldl
  have hgone := h.not_has_removeActor hkeys
  refine ⟨fun k a => ?_, hend.own, fun k type a ha => ?_, ?_⟩
  · by_cases hne : a = address
    · subst hne
      exact iff_of_false (hgone k) (hend.unindexed k)
    · exact hend.indexed k a hne
  · obtain ⟨ha, hne⟩ := Nested.has_onEvery_erase.mp (Nested.has_dropEmpty.mp ha)
    exact (hend.bucketed k type a ha).resolve_left hne
  · exact ⟨hend.filled.groups, hend.filled.remote, hend.filled.index, Nested.filled_dropEmpty _⟩

/-! ### Queries -/

/-- What the queries do to a sound store: the dead members go from the group, and if no member is left, here or elsewhere,
the group goes from the index and the typed buckets. -/
structure Pruned (alive : ActorId → Bool) (key : GroupKey) (store store' : PgTables V) : Prop where
  groups : ∀ k a, store'.groups.Has k a ↔ ∃ member, store.groups.Holds k a member ∧ (k = key → alive member.handle = true)
  remote : ∀ k a, store'.remote.Has k a ↔ store.remote.Has k a
  index : ∀ a k, store'.index.Has a k ↔ store.index.Has a k ∧ (k = key → store'.Present key)
  typed : ∀ k type a, store'.typed.Has (k, type) a ↔ store.typed.Has (k, type) a ∧ (k = key → store'.Present key)
  filled : store'.Filled

/-- The members of the group are all alive, or all dead with no members on other nodes. -/
def Settled (alive : ActorId → Bool) (key : GroupKey) (store : PgTables V) : Prop :=
  (∀ address member, store.groups.Holds key address member → alive member.handle = true) ∨
    (∀ address member, store.groups.Holds key address member → alive member.handle = false) ∧
      ∀ address, ¬store.remote.Has key address

instance (alive : ActorId → Bool) (key : GroupKey) (store : PgTables V) : Decidable (Settled alive key store) :=
  decidable_of_iff
    (((store.groups key).all fun members => members.entries.all fun entry => alive entry.2.handle) = true ∨
      ((store.groups key).all fun members => members.entries.all fun entry => !alive entry.2.handle) = true ∧
        store.remote.vacant key = true)
    (or_congr (Nested.all_holds_iff (m := store.groups) (p := fun member => alive member.handle))
      (and_congr (by simpa using Nested.all_holds_iff (m := store.groups) (p := fun member => !alive member.handle))
        Nested.vacant_iff))

/-- A group cleared after its dead members went. -/
theorem Cleared.pruned {alive : ActorId → Bool} (hc : Cleared key store' store'')
    (hgroups : ∀ k a, store'.groups.Has k a ↔
      ∃ member, store.groups.Holds k a member ∧ (k = key → alive member.handle = true))
    (hremote : store'.remote = store.remote) (hindex : store'.index = store.index) (htyped : store'.typed = store.typed)
    (hbut : store'.groups.FilledBut key) (hfilled : store.Filled) : Pruned alive key store store'' := by
  have hpresent : store''.Present key ↔ store'.Present key :=
    or_congr (exists_congr fun a => hc.groups key a) (exists_congr fun a => hc.remote key a)
  refine ⟨fun k a => (hc.groups k a).trans (hgroups k a), fun k a => ?_, fun a k => ?_, fun k type a => ?_, ?_⟩
  · rw [hc.remote, hremote]
  · rw [hc.index, hindex, hpresent]
  · rw [hc.typed, htyped, hpresent]
  · refine hc.filled hbut ?_ ?_ ?_
    · exact hremote ▸ hfilled.remote.but key
    · exact hindex ▸ hfilled.index
    · exact htyped ▸ hfilled.typed

theorem Sound.pruned_memberAddressesScoped (h : store.Sound here) (alive : ActorId → Bool) (key : GroupKey) :
    Pruned alive key store (store.memberAddressesScoped alive key).2 := by
  refine (cleared_removeGroupIfEmpty _ key).pruned (fun k a => ?_) rfl rfl rfl ?_ h.filled
  · refine Iff.trans ?_ Nested.has_onInner_retain
    dsimp only
    split_ifs with hvacant
    · exact Nested.has_remove_vacant hvacant
    · rfl
  · dsimp only
    split_ifs
    · exact (Nested.filledBut_onInner h.filled.groups).remove.but key
    · exact Nested.filledBut_onInner h.filled.groups

theorem Sound.pruned_getLocalMembersScoped (h : store.Sound here) (alive : ActorId → Bool) (key : GroupKey) :
    Pruned alive key store (store.getLocalMembersScoped alive key).2 := by
  unfold PgTables.getLocalMembersScoped
  cases hkey : store.groups key with
  | none =>
    -- no local members: nothing of the group is in the index or in a bucket
    have hnone : ∀ a, ¬store.groups.Has key a := by
      rintro a ⟨members, hmembers, -⟩
      rw [hkey] at hmembers
      cases hmembers
    refine ⟨fun k a => ?_, fun k a => Iff.rfl, fun a k => ?_, fun k type a => ?_, h.filled⟩
    · rw [Nested.has_iff_holds]
      refine exists_congr fun member => (and_iff_left_of_imp ?_).symm
      rintro hmember rfl
      exact absurd (Nested.has_iff_holds.mpr ⟨member, hmember⟩) (hnone a)
    · refine (and_iff_left_of_imp ?_).symm
      rintro ha rfl
      exact absurd ((h.indexed k a).mpr ha) (hnone a)
    · refine (and_iff_left_of_imp ?_).symm
      rintro ha rfl
      exact absurd (h.bucketed k type a ha) (hnone a)
  | some members =>
    simp only [Nested.insert_eq_onInner (fun members => members.retain fun member => alive member.handle) hkey]
    split_ifs with hempty
    · exact (cleared_removeGroupIfEmpty _ key).pruned (fun k a => Nested.has_onInner_retain) rfl rfl rfl
        (Nested.filledBut_onInner h.filled.groups) h.filled
    · have hvacant : Nested.vacant (store.groups.onInner key fun members =>
          members.retain fun member => alive member.handle) key = false := by
        simp [Nested.vacant, Nested.onInner_apply, hkey, hempty]
      have hpresent : Present { store with groups := (store.groups.onInner key fun members =>
          members.retain fun member => alive member.handle) } key := Or.inl (Nested.vacant_eq_false_iff.mp hvacant)
      refine ⟨fun k a => Nested.has_onInner_retain, fun k a => Iff.rfl, fun a k => ?_, fun k type a => ?_, ?_⟩
      · exact (and_iff_left fun _ => hpresent).symm
      · exact (and_iff_left fun _ => hpresent).symm
      · exact ⟨(Nested.filledBut_onInner h.filled.groups).of_not_vacant hvacant, h.filled.remote, h.filled.index,
          h.filled.typed⟩

theorem Pruned.sound {alive : ActorId → Bool} (hp : Pruned alive key store store') (h : store.Sound here)
    (hsettled : Settled alive key store) : store'.Sound here := by
  have hsub : ∀ k a, store'.groups.Has k a → store.groups.Has k a := by
    intro k a ha
    obtain ⟨member, hmember, -⟩ := (hp.groups k a).mp ha
    exact Nested.has_iff_holds.mpr ⟨member, hmember⟩
  -- a member of the group before is a member after, where the group is still present
  have hkept : ∀ k a, store.groups.Has k a → (k = key → store'.Present key) → store'.groups.Has k a := by
    intro k a ha hpresent
    obtain ⟨member, hmember⟩ := Nested.has_iff_holds.mp ha
    refine (hp.groups k a).mpr ⟨member, hmember, ?_⟩
    rintro rfl
    rcases hsettled with halive | ⟨hdead, hremote⟩
    · exact halive a member hmember
    · rcases hpresent rfl with ⟨b, hb⟩ | ⟨b, hb⟩
      · obtain ⟨member', hmember', halive⟩ := (hp.groups k b).mp hb
        rw [hdead b member' hmember'] at halive
        exact absurd (halive rfl) (by simp)
      · exact absurd ((hp.remote k b).mp hb) (hremote b)
  refine ⟨fun k a => ?_, fun k a ha => h.own k a (hsub k a ha), fun k type a ha => ?_, hp.filled⟩
  · rw [hp.index, ← h.indexed]
    constructor
    · intro ha
      refine ⟨hsub k a ha, ?_⟩
      rintro rfl
      exact Or.inl ⟨a, ha⟩
    · exact fun ha => hkept k a ha.1 ha.2
  · obtain ⟨ha, hpresent⟩ := (hp.typed k type a).mp ha
    exact hkept k a (h.bucketed k type a ha) hpresent

/-- A dead member that goes from a group in which others remain stays in the index. -/
theorem Pruned.settled {alive : ActorId → Bool} (hp : Pruned alive key store store') (h : store.Sound here)
    (hconsistent : store'.Consistent here) : Settled alive key store := by
  by_cases hpresent : store'.Present key
  · left
    intro address member hmember
    have hgroup : store.groups.Has key address := Nested.has_iff_holds.mpr ⟨member, hmember⟩
    have hindex : store'.index.Has address key :=
      (hp.index address key).mpr ⟨(h.indexed key address).mp hgroup, fun _ => hpresent⟩
    have hleft := (hconsistent.indexed key address (h.own key address hgroup)).mpr hindex
    obtain ⟨member', ⟨members', hmembers', hlookup'⟩, halive⟩ := (hp.groups key address).mp hleft
    obtain ⟨members, hmembers, hlookup⟩ := hmember
    rw [hmembers] at hmembers'
    cases hmembers'
    rw [hlookup] at hlookup'
    cases hlookup'
    exact halive rfl
  · right
    refine ⟨fun address member hmember => ?_, fun address ha => hpresent (Or.inr ⟨address, (hp.remote key address).mpr ha⟩)⟩
    rw [← Bool.not_eq_true]
    exact fun halive => hpresent (Or.inl ⟨address, (hp.groups key address).mpr ⟨member, hmember, fun _ => halive⟩⟩)

end PgTables

/-! ## Runs -/

variable {V : Type} {here : NodeId}

/-- A typed join is of a member; a query finds members alive, or all of them dead and none on other nodes. -/
def Clean (here : NodeId) (s : PgNode V) : PgCall V → Prop
  | .typedJoin key _ id _ => s.tables.groups.Has key ⟨here, id⟩
  | .memberAddressesScoped key => s.tables.Settled s.alive key
  | .getLocalMembersScoped key => s.tables.Settled s.alive key
  | _ => True

instance (here : NodeId) (s : PgNode V) : (op : PgCall V) → Decidable (Clean here s op)
  | .typedJoin key _ id _ => inferInstanceAs (Decidable (s.tables.groups.Has key ⟨here, id⟩))
  | .memberAddressesScoped key => inferInstanceAs (Decidable (s.tables.Settled s.alive key))
  | .getLocalMembersScoped key => inferInstanceAs (Decidable (s.tables.Settled s.alive key))
  | .joinScoped .. | .leaveScoped .. | .removeActor .. | .applyRemotePgEvent .. | .complete .. =>
    inferInstanceAs (Decidable True)

/-- A clean step keeps the store sound. -/
theorem PgNode.Step.sound {s s' : PgNode V} {op : PgCall V} (hstep : PgNode.Step here s op s') (h : s.tables.Sound here)
    (hclean : Clean here s op) : s'.tables.Sound here := by
  unfold PgNode.Step at hstep
  cases op with
  | joinScoped key handle =>
    cases hstep
    exact h.joinScoped key handle
  | typedJoin key type id value =>
    cases hstep
    exact h.typedJoin type value hclean
  | leaveScoped key id =>
    cases hstep
    exact h.leaveScoped key id
  | removeActor id keys =>
    obtain ⟨hkeys, hs'⟩ := Option.ite_none_right_eq_some.mp hstep
    cases hs'
    exact h.removeActor hkeys
  | applyRemotePgEvent event =>
    cases hstep
    exact h.applyRemotePgEvent event
  | memberAddressesScoped key =>
    cases hstep
    exact (h.pruned_memberAddressesScoped s.alive key).sound h hclean
  | getLocalMembersScoped key =>
    cases hstep
    exact (h.pruned_getLocalMembersScoped s.alive key).sound h hclean
  | complete id =>
    cases hstep
    exact h

/-- A step that is not clean leaves the store inconsistent. -/
theorem PgNode.Step.clean {s s' : PgNode V} {op : PgCall V} (hstep : PgNode.Step here s op s') (h : s.tables.Sound here)
    (hconsistent : s'.tables.Consistent here) : Clean here s op := by
  unfold PgNode.Step at hstep
  cases op with
  | typedJoin key type id value =>
    cases hstep
    exact hconsistent.member_of_typedJoin
  | memberAddressesScoped key =>
    cases hstep
    exact (h.pruned_memberAddressesScoped s.alive key).settled h hconsistent
  | getLocalMembersScoped key =>
    cases hstep
    exact (h.pruned_getLocalMembersScoped s.alive key).settled h hconsistent
  | joinScoped | leaveScoped | removeActor | applyRemotePgEvent | complete => trivial

theorem sound_of_clean {τ : List (PgNode V × PgCall V)} {s : PgNode V} (h : Run (PgNode.Step here) {} τ s)
    (hclean : ∀ x ∈ τ, Clean here x.1 x.2) : s.tables.Sound here :=
  h.inv_of_steps (I := fun s => s.tables.Sound here) PgTables.sound_empty
    (fun _ _ _ hsound hc hstep => hstep.sound hsound hc) hclean

/-- **The tables stay consistent as long as every typed join is of a member and every query finds the members of its group
alive, or all of them dead and none on other nodes; and no longer than that.** -/
theorem consistent_iff_clean {τ : List (PgNode V × PgCall V)} {s : PgNode V} (h : Run (PgNode.Step here) {} τ s) :
    ((∀ x ∈ τ, x.1.tables.Consistent here) ∧ s.tables.Consistent here) ↔ ∀ x ∈ τ, Clean here x.1 x.2 := by
  induction h with
  | nil => simpa using PgTables.sound_empty.consistent
  | @snoc τ s op s' hr hstep ih =>
    simp only [List.mem_append, List.mem_singleton, or_imp, forall_and, forall_eq]
    constructor
    · rintro ⟨⟨hτ, hs⟩, hs'⟩
      have hclean := ih.mp ⟨hτ, hs⟩
      exact ⟨hclean, hstep.clean (sound_of_clean hr hclean) hs'⟩
    · rintro ⟨hclean, hlast⟩
      exact ⟨ih.mpr hclean, (hstep.sound (sound_of_clean hr hclean) hlast).consistent⟩

/-- A typed join with a second member, a query while both are alive, the exit of one and a query after that of the other. -/
theorem consistent_after_exits :
    ∃ τ s, Run (PgNode.Step "n1") ({} : PgNode Unit) τ s ∧
      τ.map (·.2) = [.joinScoped ⟨"default", "g"⟩ 1, .typedJoin ⟨"default", "g"⟩ "A" 1 (), .joinScoped ⟨"default", "g"⟩ 2,
        .getLocalMembersScoped ⟨"default", "g"⟩, .removeActor 1 [⟨"default", "g"⟩], .complete 2,
        .memberAddressesScoped ⟨"default", "g"⟩] ∧
      (∀ x ∈ τ, x.1.tables.Consistent "n1") ∧ s.tables.Consistent "n1" := by
  have hrun : Run (PgNode.Step "n1") ({} : PgNode Unit) _ _ := run_tryPlay (PgNode.next "n1") {}
    [.joinScoped ⟨"default", "g"⟩ 1, .typedJoin ⟨"default", "g"⟩ "A" 1 (), .joinScoped ⟨"default", "g"⟩ 2,
      .getLocalMembersScoped ⟨"default", "g"⟩, .removeActor 1 [⟨"default", "g"⟩], .complete 2,
      .memberAddressesScoped ⟨"default", "g"⟩] (by decide)
  exact ⟨_, _, hrun, rfl, (consistent_iff_clean hrun).mpr (by decide)⟩

/-- A query that finds one of two members dead takes it from the group only: the index and the typed bucket keep it. -/
theorem query_leaves_ghost :
    ∃ τ s, Run (PgNode.Step "n1") ({} : PgNode Unit) τ s ∧
      τ.map (·.2) = [.joinScoped ⟨"default", "g"⟩ 1, .typedJoin ⟨"default", "g"⟩ "A" 1 (), .joinScoped ⟨"default", "g"⟩ 2,
        .complete 1, .getLocalMembersScoped ⟨"default", "g"⟩] ∧
      ¬s.tables.groups.Has ⟨"default", "g"⟩ ⟨"n1", 1⟩ ∧ s.tables.index.Has ⟨"n1", 1⟩ ⟨"default", "g"⟩ ∧
      s.tables.typed.Has (⟨"default", "g"⟩, "A") ⟨"n1", 1⟩ ∧ ¬s.tables.Consistent "n1" := by
  have hrun : Run (PgNode.Step "n1") ({} : PgNode Unit) _ _ := run_tryPlay (PgNode.next "n1") {}
    [.joinScoped ⟨"default", "g"⟩ 1, .typedJoin ⟨"default", "g"⟩ "A" 1 (), .joinScoped ⟨"default", "g"⟩ 2,
      .complete 1, .getLocalMembersScoped ⟨"default", "g"⟩] (by decide)
  refine ⟨_, _, hrun, rfl, by decide, by decide, by decide, fun h => ?_⟩
  exact absurd ((h.indexed ⟨"default", "g"⟩ ⟨"n1", 1⟩ rfl).mpr (by decide)) (by decide)

end Spawned
