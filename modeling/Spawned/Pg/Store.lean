import Mathlib.Data.Finset.Basic
import Mathlib.Data.Multiset.MapFold
import Mathlib.Tactic.SplitIfs
import Spawned.Exit

/-!
# Process groups on one node

The store of process groups: the local members of each scoped group with their join counts, the members replicated from
other nodes with theirs, the index from an actor to its groups, and the typed buckets.

* `PgStore` : both tables of members as multisets, an entry as often as it is counted. An entry counted zero times, and a
  group without entries, are not in the source's maps either: every operation removes them;
* `joinScoped`, `leaveScoped`, `typedJoin`, `removeActor`, `localPgSnapshot` : the operations, with what they publish;
* `applyRemotePgEvent` : an event from a peer;
* `getLocalMembersScoped`, `memberAddressesScoped` : the queries, which drop the dead from the group they look at;
* `Indexed` : the index lists the local members. `Apart` : what an operation does not do to other actors;
* `PgEvent.onCount` : what an event does to the count of one remote entry (`count_applyRemotePgEvent`).
-/

namespace Spawned

/-- A group in a scope. -/
structure GroupKey where
  scope : String
  group : String
deriving DecidableEq, Repr

/-- An actor in a group. -/
abbrev PgEntry := GroupKey × ActorAddress

/-- The type of the values of a typed bucket. -/
abbrev TypeId := String

inductive PgError
  | notJoined (id : ActorId) (group scope : String)
deriving DecidableEq, Repr

/-- Events to the peers; a snapshot lists the entries of the sender. -/
inductive PgEvent
  | join (key : GroupKey) (address : ActorAddress)
  | leave (key : GroupKey) (address : ActorAddress)
  | snapshot (entries : List PgEntry)
deriving DecidableEq

/-- What an event does to the count of a remote entry. -/
def PgEvent.onCount (entry : PgEntry) (event : PgEvent) (n : Nat) : Nat :=
  match event with
  | .join key address => if entry = (key, address) then n + 1 else n
  | .leave key address => if entry = (key, address) then n - 1 else n
  | .snapshot entries => n + entries.count entry

structure PgStore where
  /-- local members; the multiplicity is `joins` -/
  groups : Multiset PgEntry := 0
  /-- members on other nodes; the multiplicity is `joins` -/
  remote : Multiset PgEntry := 0
  index : Finset (ActorAddress × GroupKey) := ∅
  /-- which actors have a value in which bucket -/
  typed : Finset (GroupKey × TypeId × ActorAddress) := ∅

namespace PgStore

/-- `remove_group_if_empty`: a group without local and remote members goes from the index and the typed buckets. -/
def removeGroupIfEmpty (store : PgStore) (key : GroupKey) : PgStore :=
  if key ∈ store.groups.map (·.1) ∨ key ∈ store.remote.map (·.1) then store
  else
    { store with
      index := store.index.filter (·.2 ≠ key)
      typed := store.typed.filter (·.1 ≠ key) }

/-- `join_scoped` on node `here`, with what it publishes. -/
def joinScoped (here : NodeId) (store : PgStore) (key : GroupKey) (id : ActorId) : PgStore × List PgEvent :=
  let address : ActorAddress := ⟨here, id⟩
  ({ store with
      groups := (key, address) ::ₘ store.groups
      index := insert (address, key) store.index },
    [.join key address])

/-- `leave_scoped` on node `here`. Only the leave that takes the count to zero is published. -/
def leaveScoped (here : NodeId) (store : PgStore) (key : GroupKey) (id : ActorId) :
    Except PgError Unit × PgStore × List PgEvent :=
  let address : ActorAddress := ⟨here, id⟩
  let entry : PgEntry := (key, address)
  if entry ∈ store.groups then
    let left : PgStore := { store with groups := store.groups.erase entry }
    if entry ∈ left.groups then (.ok (), left, [])
    else
      let left := left.removeGroupIfEmpty key
      (.ok (),
        { left with
          index := left.index.erase (address, key)
          typed := left.typed.filter fun t => ¬(t.1 = key ∧ t.2.2 = address) },
        [.leave key address])
  else (.error (.notJoined id key.group key.scope), store, [])

/-- `typed_join` on node `here`. -/
def typedJoin (here : NodeId) (store : PgStore) (key : GroupKey) (type : TypeId) (id : ActorId) : PgStore :=
  let address : ActorAddress := ⟨here, id⟩
  { store with typed := insert (key, type, address) store.typed }

/-- One turn of the loop of `remove_actor` over the groups of the index. -/
def removeFromGroup (address : ActorAddress) (store : PgStore) (key : GroupKey) : PgStore :=
  removeGroupIfEmpty
    { store with
      groups := store.groups.filter (· ≠ (key, address))
      remote := store.remote.filter (· ≠ (key, address)) } key

/-- `PgStore::remove_actor`; `keys` are the groups of the actor in the index, in the order of the set. -/
def removeActor (store : PgStore) (address : ActorAddress) (keys : List GroupKey) : PgStore :=
  let unindexed : PgStore := { store with index := store.index.filter (·.1 ≠ address) }
  let removed := keys.foldl (removeFromGroup address) unindexed
  { removed with typed := removed.typed.filter (·.2.2 ≠ address) }

/-- An enumeration of the groups of an actor in the index. -/
def GroupsOf (store : PgStore) (address : ActorAddress) (keys : List GroupKey) : Prop :=
  keys.Nodup ∧ ∀ key, key ∈ keys ↔ (address, key) ∈ store.index

/-- What `remove_actor` publishes. -/
def leaves (address : ActorAddress) (keys : List GroupKey) : List PgEvent := keys.map fun key => .leave key address

/-- An enumeration of `local_pg_snapshot`: every entry once, whatever its count. -/
def Snapshot (store : PgStore) (entries : List PgEntry) : Prop :=
  entries.Nodup ∧ ∀ entry, entry ∈ entries ↔ entry ∈ store.groups

/-- The dead members go from a group. -/
def prune (store : PgStore) (alive : ActorAddress → Bool) (key : GroupKey) : PgStore :=
  { store with groups := store.groups.filter fun entry => entry.1 = key → alive entry.2 }

/-- `get_local_members_scoped`, the store afterwards. -/
def getLocalMembersScoped (store : PgStore) (alive : ActorAddress → Bool) (key : GroupKey) : PgStore :=
  if key ∈ store.groups.map (·.1) then
    let pruned := store.prune alive key
    if key ∈ pruned.groups.map (·.1) then pruned else pruned.removeGroupIfEmpty key
  else store

/-- `member_addresses_scoped`, the store afterwards. -/
def memberAddressesScoped (store : PgStore) (alive : ActorAddress → Bool) (key : GroupKey) : PgStore :=
  (store.prune alive key).removeGroupIfEmpty key

/-- A `Join` from a peer, unless it is about an actor of this node. -/
def applyJoin (here : NodeId) (store : PgStore) (entry : PgEntry) : PgStore :=
  if entry.2.node = here then store else { store with remote := entry ::ₘ store.remote }

/-- `apply_remote_pg_event` on node `here`. -/
def applyRemotePgEvent (here : NodeId) (store : PgStore) : PgEvent → PgStore
  | .join key address => store.applyJoin here (key, address)
  | .leave key address =>
    if address.node = here then store
    else if (key, address) ∈ store.remote then
      removeGroupIfEmpty { store with remote := store.remote.erase (key, address) } key
    else store
  | .snapshot entries => entries.foldl (applyJoin here) store

/-! ## Remote entries -/

variable {store : PgStore} {here : NodeId}

@[simp] theorem removeGroupIfEmpty_groups (key : GroupKey) : (store.removeGroupIfEmpty key).groups = store.groups := by
  unfold removeGroupIfEmpty; split <;> rfl

@[simp] theorem removeGroupIfEmpty_remote (key : GroupKey) : (store.removeGroupIfEmpty key).remote = store.remote := by
  unfold removeGroupIfEmpty; split <;> rfl

theorem remote_applyJoins (entries : List PgEntry) (h : ∀ entry ∈ entries, entry.2.node ≠ here) :
    entries.foldl (applyJoin here) store = { store with remote := store.remote + entries } := by
  induction entries generalizing store with
  | nil => simp
  | cons entry entries ih =>
    have hne := h entry (by simp)
    rw [List.foldl_cons, ih fun e he => h e (by simp [he])]
    simp only [applyJoin, hne, if_false]
    congr 1
    rw [← Multiset.cons_coe, Multiset.cons_add, Multiset.add_cons]

/-- The events of the peers work on the counts of their entries one by one. -/
theorem count_applyRemotePgEvent (event : PgEvent) {entry : PgEntry} (h : entry.2.node ≠ here) :
    (store.applyRemotePgEvent here event).remote.count entry = event.onCount entry (store.remote.count entry) := by
  cases event with
  | join key address =>
    simp only [applyRemotePgEvent, applyJoin, PgEvent.onCount]
    by_cases he : entry = (key, address)
    · subst he
      simp [h]
    · split_ifs <;> simp [Multiset.count_cons_of_ne he]
  | leave key address =>
    simp only [applyRemotePgEvent, PgEvent.onCount]
    by_cases he : entry = (key, address)
    · subst he
      by_cases hmem : (key, address) ∈ store.remote
      · simp [h, hmem]
      · simp [hmem]
    · split_ifs <;> simp [Multiset.count_erase_of_ne he]
  | snapshot entries =>
    simp only [applyRemotePgEvent, PgEvent.onCount]
    induction entries generalizing store with
    | nil => simp
    | cons e entries ih =>
      rw [List.foldl_cons, ih, List.count_cons]
      simp only [applyJoin]
      by_cases he : entry = e
      · subst he
        simp [h]
        omega
      · have he' : (e == entry) = false := by simpa using Ne.symm he
        rw [he']
        split_ifs <;> simp_all [Multiset.count_cons_of_ne he]

/-! ## Local entries -/

/-- The index lists the groups of the actor. -/
def IndexedAt (address : ActorAddress) (store : PgStore) : Prop :=
  ∀ key, (address, key) ∈ store.index ↔ (key, address) ∈ store.groups

/-- The actor has a value in a typed bucket. -/
def InTyped (address : ActorAddress) (store : PgStore) : Prop := ∃ t ∈ store.typed, t.2.2 = address

/-- The groups that a removal may clear from the index have no local members. -/
theorem mem_index_removeGroupIfEmpty {key : GroupKey} {address : ActorAddress} {k : GroupKey}
    (h : (k, address) ∈ store.groups) :
    (address, k) ∈ (store.removeGroupIfEmpty key).index ↔ (address, k) ∈ store.index := by
  unfold removeGroupIfEmpty
  split
  case isTrue => rfl
  case isFalse hempty =>
    have hk : k ≠ key := by
      rintro rfl
      exact hempty (Or.inl (Multiset.mem_map.mpr ⟨_, h, rfl⟩))
    simp [hk]

theorem index_removeGroupIfEmpty_subset (key : GroupKey) : (store.removeGroupIfEmpty key).index ⊆ store.index := by
  unfold removeGroupIfEmpty
  split
  · exact Finset.Subset.refl _
  · exact Finset.filter_subset _ _

/-- The three ways in which `leave_scoped` ends: no member, a member that stays, a member that leaves. -/
theorem leaveScoped_cases (store : PgStore) (here : NodeId) (key : GroupKey) (id : ActorId) :
    ((key, ⟨here, id⟩) ∉ store.groups ∧
      store.leaveScoped here key id = (.error (.notJoined id key.group key.scope), store, [])) ∨
    (1 < store.groups.count (key, ⟨here, id⟩) ∧
      store.leaveScoped here key id =
        (.ok (), { store with groups := store.groups.erase (key, ⟨here, id⟩) }, [])) ∨
    (store.groups.count (key, ⟨here, id⟩) = 1 ∧ ∃ left,
      store.leaveScoped here key id = (.ok (), left, [.leave key ⟨here, id⟩]) ∧
      left.groups = store.groups.erase (key, ⟨here, id⟩) ∧ left.remote = store.remote ∧
      left.index = (PgStore.removeGroupIfEmpty { store with groups := store.groups.erase (key, ⟨here, id⟩) }
        key).index.erase (⟨here, id⟩, key)) := by
  by_cases hmem : (key, (⟨here, id⟩ : ActorAddress)) ∈ store.groups
  · right
    have hpos := Multiset.one_le_count_iff_mem.mpr hmem
    by_cases hstay : (key, (⟨here, id⟩ : ActorAddress)) ∈ store.groups.erase (key, ⟨here, id⟩)
    · left
      have hcount := Multiset.one_le_count_iff_mem.mpr hstay
      rw [Multiset.count_erase_self] at hcount
      exact ⟨by omega, by simp [leaveScoped, hmem, hstay]⟩
    · right
      have hcount := Multiset.count_eq_zero.mpr hstay
      rw [Multiset.count_erase_self] at hcount
      refine ⟨by omega, (store.leaveScoped here key id).2.1, ?_, ?_, ?_, ?_⟩ <;>
        simp [leaveScoped, hmem, hstay]
  · exact Or.inl ⟨hmem, by simp [leaveScoped, hmem]⟩

theorem typed_leaveScoped_subset (store : PgStore) (here : NodeId) (key : GroupKey) (id : ActorId) :
    (store.leaveScoped here key id).2.1.typed ⊆ store.typed := by
  unfold leaveScoped removeGroupIfEmpty
  simp only
  split_ifs
  · exact Finset.Subset.refl _
  · exact Finset.filter_subset _ _
  · exact (Finset.filter_subset _ _).trans (Finset.filter_subset _ _)
  · exact Finset.Subset.refl _

/-! ### Removing an actor -/

theorem groups_removeFromGroups (address : ActorAddress) (keys : List GroupKey) :
    (keys.foldl (removeFromGroup address) store).groups =
      store.groups.filter (fun entry => ¬(entry.2 = address ∧ entry.1 ∈ keys)) := by
  induction keys generalizing store with
  | nil => simp
  | cons key keys ih =>
    rw [List.foldl_cons, ih]
    simp only [removeFromGroup, removeGroupIfEmpty_groups, Multiset.filter_filter]
    congr 1
    funext entry
    obtain ⟨k, a⟩ := entry
    simp only [List.mem_cons, Prod.mk.injEq, ne_eq, eq_iff_iff]
    tauto

/-- Entries of other actors stay in both tables. -/
theorem count_remote_removeActor {address : ActorAddress} (keys : List GroupKey) {entry : PgEntry}
    (h : entry.2 ≠ address) : (store.removeActor address keys).remote.count entry = store.remote.count entry := by
  have hloop : ∀ store : PgStore,
      (keys.foldl (removeFromGroup address) store).remote.count entry = store.remote.count entry := by
    induction keys with
    | nil => exact fun _ => rfl
    | cons key keys ih =>
      intro store
      rw [List.foldl_cons, ih, removeFromGroup, removeGroupIfEmpty_remote]
      refine Multiset.count_filter_of_pos ?_
      rintro rfl
      exact h rfl
  exact hloop _

theorem index_removeFromGroups_subset (address : ActorAddress) (keys : List GroupKey) :
    (keys.foldl (removeFromGroup address) store).index ⊆ store.index := by
  induction keys generalizing store with
  | nil => exact Finset.Subset.refl _
  | cons key keys ih =>
    rw [List.foldl_cons]
    exact Finset.Subset.trans ih (index_removeGroupIfEmpty_subset key)

theorem groups_removeActor (address : ActorAddress) (keys : List GroupKey) :
    (store.removeActor address keys).groups =
      store.groups.filter (fun entry => ¬(entry.2 = address ∧ entry.1 ∈ keys)) := by
  simp only [removeActor, groups_removeFromGroups]

theorem index_removeActor_subset (address : ActorAddress) (keys : List GroupKey) :
    (store.removeActor address keys).index ⊆ store.index.filter (·.1 ≠ address) :=
  index_removeFromGroups_subset address keys

/-! ### The groups of one actor -/

namespace IndexedAt

variable {id : ActorId} {key : GroupKey}

theorem joinScoped (h : store.IndexedAt ⟨here, id⟩) (key : GroupKey) :
    (store.joinScoped here key id).1.IndexedAt ⟨here, id⟩ := by
  intro k
  simp only [PgStore.joinScoped, Finset.mem_insert, Multiset.mem_cons, h k, Prod.mk.injEq]
  tauto

/-- A leave that is not the last keeps the entry; the last one takes it from both, and no other. -/
theorem leaveScoped (h : store.IndexedAt ⟨here, id⟩) (key : GroupKey) :
    (store.leaveScoped here key id).2.1.IndexedAt ⟨here, id⟩ := by
  rcases store.leaveScoped_cases here key id with ⟨-, heq⟩ | ⟨hcount, heq⟩ | ⟨hcount, left, heq, hgroups, -, hindex⟩
  · rw [heq]
    exact h
  · rw [heq]
    intro k
    rw [h k]
    by_cases hk : k = key
    · subst hk
      rw [← Multiset.one_le_count_iff_mem, ← Multiset.one_le_count_iff_mem, Multiset.count_erase_self]
      omega
    · rw [Multiset.mem_erase_of_ne (by simp [hk])]
  · rw [heq]
    intro k
    rw [hgroups, hindex, Finset.mem_erase]
    by_cases hk : k = key
    · subst hk
      rw [← Multiset.count_pos, Multiset.count_erase_self, hcount]
      simp
    · have hne : (k, (⟨here, id⟩ : ActorAddress)) ≠ (key, ⟨here, id⟩) := by simp [hk]
      rw [Multiset.mem_erase_of_ne hne]
      constructor
      · rintro ⟨-, hmem⟩
        have hold := index_removeGroupIfEmpty_subset _ hmem
        exact (h k).mp hold
      · intro hmem
        refine ⟨by simp [hk], (mem_index_removeGroupIfEmpty ?_).mpr ((h k).mpr hmem)⟩
        exact (Multiset.mem_erase_of_ne hne).mpr hmem

/-- With the groups of the index, `remove_actor` leaves no membership of the actor. -/
theorem notMem_removeActor {address : ActorAddress} (h : store.IndexedAt address) {keys : List GroupKey}
    (hkeys : ∀ key, key ∈ keys ↔ (address, key) ∈ store.index) (key : GroupKey) :
    (key, address) ∉ (store.removeActor address keys).groups := by
  intro hmem
  rw [groups_removeActor, Multiset.mem_filter] at hmem
  exact hmem.2 ⟨rfl, (hkeys key).mpr ((h key).mpr hmem.1)⟩

theorem removeActor {address : ActorAddress} (h : store.IndexedAt address) {keys : List GroupKey}
    (hkeys : ∀ key, key ∈ keys ↔ (address, key) ∈ store.index) :
    (store.removeActor address keys).IndexedAt address := by
  intro key
  refine ⟨fun hmem => ?_, fun hmem => absurd hmem (h.notMem_removeActor hkeys key)⟩
  have hne := (Finset.mem_filter.mp (index_removeActor_subset address keys hmem)).2
  exact absurd rfl hne

end IndexedAt

/-! ### Operations on other actors -/

/-- From `store` to `store'` nothing was done to the actor. -/
structure Apart (address : ActorAddress) (store store' : PgStore) : Prop where
  count : ∀ key, store'.groups.count (key, address) = store.groups.count (key, address)
  index : store.IndexedAt address → store'.IndexedAt address
  typed : store'.InTyped address → store.InTyped address

namespace Apart

variable {address : ActorAddress} {store store' store'' : PgStore}

theorem refl (address : ActorAddress) (store : PgStore) : Apart address store store := ⟨fun _ => rfl, id, id⟩

theorem trans (h : Apart address store store') (h' : Apart address store' store'') : Apart address store store'' :=
  ⟨fun key => (h'.count key).trans (h.count key), fun hi => h'.index (h.index hi), fun ht => h.typed (h'.typed ht)⟩

theorem mem_groups (h : Apart address store store') (key : GroupKey) :
    (key, address) ∈ store'.groups ↔ (key, address) ∈ store.groups := by
  rw [← Multiset.count_pos, ← Multiset.count_pos, h.count key]

/-- Clearing away a group takes nothing from those in it. -/
theorem removeGroupIfEmpty (address : ActorAddress) (store : PgStore) (key : GroupKey) :
    Apart address store (store.removeGroupIfEmpty key) := by
  refine ⟨by simp, ?_, ?_⟩
  · intro hi k
    constructor
    · intro hmem
      rw [removeGroupIfEmpty_groups]
      exact (hi k).mp (index_removeGroupIfEmpty_subset key hmem)
    · intro hmem
      rw [removeGroupIfEmpty_groups] at hmem
      exact (mem_index_removeGroupIfEmpty hmem).mpr ((hi k).mpr hmem)
  · rintro ⟨t, ht, ha⟩
    refine ⟨t, ?_, ha⟩
    unfold PgStore.removeGroupIfEmpty at ht
    split at ht
    · exact ht
    · exact (Finset.mem_filter.mp ht).1

/-- A change of the two tables of members that keeps the local entries of the actor. -/
theorem members (groups remote : Multiset PgEntry)
    (h : ∀ key, groups.count (key, address) = store.groups.count (key, address)) :
    Apart address store { store with groups := groups, remote := remote } := by
  refine ⟨h, ?_, id⟩
  intro hi key
  rw [← Multiset.count_pos]
  show _ ∈ store.index ↔ 0 < groups.count _
  rw [h key, Multiset.count_pos]
  exact hi key

theorem joinScoped (store : PgStore) (here : NodeId) (key : GroupKey) {id : ActorId} (h : address ≠ ⟨here, id⟩) :
    Apart address store (store.joinScoped here key id).1 := by
  refine ⟨?_, ?_, fun ht => ht⟩
  · intro k
    exact Multiset.count_cons_of_ne (fun he => h (Prod.mk.inj he).2) _
  · intro hi k
    simp only [PgStore.joinScoped, Finset.mem_insert, Multiset.mem_cons, Prod.mk.injEq, h, false_and, and_false,
      false_or]
    exact hi k

theorem typedJoin (store : PgStore) (here : NodeId) (key : GroupKey) (type : TypeId) {id : ActorId}
    (h : address ≠ ⟨here, id⟩) : Apart address store (store.typedJoin here key type id) := by
  refine ⟨fun _ => rfl, fun hi => hi, ?_⟩
  rintro ⟨t, ht, ha⟩
  rcases Finset.mem_insert.mp ht with rfl | ht
  · exact absurd ha.symm h
  · exact ⟨t, ht, ha⟩

/-- Taking another actor, or another group, from the index, and values of typed buckets. -/
theorem unlist {index : Finset (ActorAddress × GroupKey)} {typed : Finset (GroupKey × TypeId × ActorAddress)}
    (hindex : ∀ key, (address, key) ∈ index ↔ (address, key) ∈ store.index) (htyped : typed ⊆ store.typed) :
    Apart address store { store with index := index, typed := typed } := by
  refine ⟨fun _ => rfl, fun hi key => (hindex key).trans (hi key), ?_⟩
  rintro ⟨t, ht, ha⟩
  exact ⟨t, htyped ht, ha⟩

theorem leaveScoped (store : PgStore) (here : NodeId) (key : GroupKey) {id : ActorId} (h : address ≠ ⟨here, id⟩) :
    Apart address store (store.leaveScoped here key id).2.1 := by
  have herase : Apart address store { store with groups := store.groups.erase (key, ⟨here, id⟩) } := by
    refine members _ store.remote fun k => ?_
    exact Multiset.count_erase_of_ne (fun he => h (Prod.mk.inj he).2) _
  unfold PgStore.leaveScoped
  simp only
  split_ifs
  · exact herase
  · refine (herase.trans (removeGroupIfEmpty address _ key)).trans (unlist ?_ (Finset.filter_subset _ _))
    intro k
    simp [h]
  · exact refl address store

theorem removeActor (store : PgStore) {other : ActorAddress} (keys : List GroupKey) (h : address ≠ other) :
    Apart address store (store.removeActor other keys) := by
  have hloop : ∀ store : PgStore, Apart address store (keys.foldl (removeFromGroup other) store) := by
    induction keys with
    | nil => exact refl address
    | cons key keys ih =>
      intro store
      refine (members _ _ fun k => Multiset.count_filter_of_pos ?_).trans ((removeGroupIfEmpty address _ key).trans (ih _))
      exact fun he => h (Prod.mk.inj he).2
  refine ((unlist (fun k => ?_) (Finset.Subset.refl _)).trans (hloop _)).trans (unlist ?_ (Finset.filter_subset _ _))
  · simp [h]
  · exact fun _ => Iff.rfl

/-- The actor is alive, or in no group. -/
theorem prune {alive : ActorAddress → Bool} (key : GroupKey)
    (h : alive address ∨ ∀ k, store.groups.count (k, address) = 0) : Apart address store (store.prune alive key) := by
  refine members _ store.remote fun k => ?_
  rcases h with h | h
  · exact Multiset.count_filter_of_pos fun _ => h
  · rw [h k]
    exact Nat.le_zero.mp ((Multiset.count_le_of_le _ (Multiset.filter_le _ _)).trans (h k).le)

theorem getLocalMembersScoped {alive : ActorAddress → Bool} (key : GroupKey)
    (h : alive address ∨ ∀ k, store.groups.count (k, address) = 0) :
    Apart address store (store.getLocalMembersScoped alive key) := by
  unfold PgStore.getLocalMembersScoped
  simp only
  split_ifs
  · exact prune key h
  · exact (prune key h).trans (removeGroupIfEmpty address _ key)
  · exact refl address store

theorem memberAddressesScoped {alive : ActorAddress → Bool} (key : GroupKey)
    (h : alive address ∨ ∀ k, store.groups.count (k, address) = 0) :
    Apart address store (store.memberAddressesScoped alive key) :=
  (prune key h).trans (removeGroupIfEmpty address _ key)

theorem applyJoin (store : PgStore) (here : NodeId) (entry : PgEntry) :
    Apart address store (store.applyJoin here entry) := by
  unfold PgStore.applyJoin
  split
  · exact refl address store
  · exact members store.groups _ fun _ => rfl

theorem applyRemotePgEvent (store : PgStore) (here : NodeId) (event : PgEvent) :
    Apart address store (store.applyRemotePgEvent here event) := by
  cases event with
  | join key a => exact applyJoin store here (key, a)
  | leave key a =>
    simp only [PgStore.applyRemotePgEvent]
    split_ifs
    · exact refl address store
    · exact (members store.groups _ fun _ => rfl).trans (removeGroupIfEmpty address _ key)
    · exact refl address store
  | snapshot entries =>
    simp only [PgStore.applyRemotePgEvent]
    induction entries generalizing store with
    | nil => exact refl address store
    | cons entry entries ih => exact (applyJoin store here entry).trans (ih _)

end Apart

/-! ### The groups of all actors -/

/-- The index lists the local memberships, and all of them are of this node. -/
structure Indexed (here : NodeId) (store : PgStore) : Prop where
  index_iff : ∀ key address, (address, key) ∈ store.index ↔ (key, address) ∈ store.groups
  own : ∀ entry ∈ store.groups, entry.2.node = here

theorem Indexed.empty : Indexed here {} := ⟨by simp, by simp⟩

theorem Indexed.indexedAt (h : Indexed here store) (address : ActorAddress) : store.IndexedAt address :=
  fun key => h.index_iff key address

/-- An operation on one actor. -/
theorem Indexed.operate (h : Indexed here store) {address : ActorAddress} {store' : PgStore} (hnode : address.node = here)
    (hself : store'.IndexedAt address) (hothers : ∀ {other}, other ≠ address → Apart other store store') :
    Indexed here store' := by
  constructor
  · intro key other
    by_cases ha : other = address
    · subst ha
      exact hself key
    · exact (hothers ha).index (h.indexedAt other) key
  · rintro ⟨key, other⟩ hentry
    by_cases ha : other = address
    · subst ha
      exact hnode
    · exact h.own (key, other) (((hothers ha).mem_groups key).mp hentry)

theorem Indexed.joinScoped (h : Indexed here store) (key : GroupKey) (id : ActorId) :
    Indexed here (store.joinScoped here key id).1 :=
  h.operate rfl ((h.indexedAt ⟨here, id⟩).joinScoped key) fun hne => .joinScoped store here key hne

theorem Indexed.leaveScoped (h : Indexed here store) (key : GroupKey) (id : ActorId) :
    Indexed here (store.leaveScoped here key id).2.1 :=
  h.operate rfl ((h.indexedAt ⟨here, id⟩).leaveScoped key) fun hne => .leaveScoped store here key hne

theorem Indexed.removeActor (h : Indexed here store) {id : ActorId} {keys : List GroupKey}
    (hkeys : ∀ key, key ∈ keys ↔ (⟨here, id⟩, key) ∈ store.index) :
    Indexed here (store.removeActor ⟨here, id⟩ keys) :=
  h.operate rfl ((h.indexedAt ⟨here, id⟩).removeActor hkeys) fun hne => .removeActor store keys hne

end PgStore

end Spawned
