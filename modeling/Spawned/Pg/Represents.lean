import Spawned.Pg.Listing
import Spawned.Pg.Refcount

/-!
# The maps of the process groups as multisets

What happens to a member that exits, and to the view that a connected peer has, is told of a store of two multisets; what
the counters, the listings and the queries hold is told of its maps. The maps stand for the multisets:

* `PgTables.Represents` : every counter is the multiplicity of its entry, and index and typed buckets hold the same pairs;
* `Represents.removeGroupIfEmpty`, ... : each operation keeps it, as long as no counter overflows;
* `PgCall.onStore` : the operations of a node on the multisets;
* `represents_run` : the tables of a run stand for what the operations of the run make of the multisets.
-/

namespace Spawned

open Lib

/-- The counters have room for the multiplicities. -/
def PgStore.Fits (store : PgStore) : Prop :=
  ∀ entry, store.groups.count entry < 2 ^ 32 ∧ store.remote.count entry < 2 ^ 32

/-- What an entry of another node says of the count. -/
def RemoteEntry (n : Nat) : Option RemoteMember → Prop
  | none => n = 0
  | some member => 0 < n ∧ member.joins.toNat = n

theorem RemoteEntry.join {n : Nat} {e : Option RemoteMember} (h : RemoteEntry n e) (hlt : n + 1 < 2 ^ 32) :
    RemoteEntry (n + 1) (some (e.elim ⟨1⟩ fun member => { member with joins := member.joins + 1 })) := by
  cases e with
  | none =>
    obtain rfl : n = 0 := h
    exact ⟨Nat.one_pos, rfl⟩
  | some member =>
    obtain ⟨hpos, rfl⟩ := h
    refine ⟨Nat.succ_pos _, ?_⟩
    show (member.joins + 1).toNat = member.joins.toNat + 1
    rw [UInt32.toNat_add, UInt32.toNat_one, Nat.mod_eq_of_lt hlt]

/-- One less: the source tests for zero before and after. -/
theorem RemoteEntry.leave {n : Nat} {member : RemoteMember} (h : RemoteEntry n (some member)) :
    RemoteEntry (n - 1) (if (if member.joins = 0 then 0 else member.joins - 1) = 0 then none
      else some { member with joins := if member.joins = 0 then 0 else member.joins - 1 }) := by
  obtain ⟨hpos, rfl⟩ := h
  have hne : member.joins ≠ 0 := by
    intro hzero
    rw [hzero] at hpos
    exact absurd hpos (by decide)
  have hle : (1 : UInt32) ≤ member.joins := by
    rw [UInt32.le_iff_toNat_le, UInt32.toNat_one]
    exact hpos
  have hsub : (member.joins - 1).toNat = member.joins.toNat - 1 := UInt32.toNat_sub_of_le _ _ hle
  rw [if_neg hne]
  split_ifs with hzero
  · rw [hzero, UInt32.toNat_zero] at hsub
    exact hsub.symm
  · have hleft : (member.joins - 1).toNat ≠ 0 := fun he => hzero (UInt32.toNat_inj.mp he)
    exact ⟨by omega, hsub⟩

namespace PgTables

variable {V : Type} {here : NodeId} {tables : PgTables V} {store : PgStore} {key : GroupKey}

/-- The maps stand for the multisets. -/
structure Represents (tables : PgTables V) (store : PgStore) : Prop where
  groups : ∀ k a, Entry a.actorId (store.groups.count (k, a)) (tables.groups.get k a)
  remote : ∀ k a, RemoteEntry (store.remote.count (k, a)) (tables.remote.get k a)
  index : ∀ a k, (a, k) ∈ store.index ↔ tables.index.Has a k
  typed : ∀ k type a, (k, type, a) ∈ store.typed ↔ tables.typed.Has (k, type) a

theorem represents_empty : Represents ({} : PgTables V) {} := by
  refine ⟨fun k a => ?_, fun k a => ?_, fun a k => ?_, fun k type a => ?_⟩
  · simp [Nested.get, Entry]
  · simp [Nested.get, RemoteEntry]
  · simp
  · simp

namespace Represents

/-! ## Members -/

theorem mem_groups (h : Represents tables store) {k : GroupKey} {a : ActorAddress} :
    (k, a) ∈ store.groups ↔ tables.groups.Has k a := by
  have hentry := h.groups k a
  rw [← Multiset.count_pos]
  cases hget : tables.groups.get k a with
  | none =>
    rw [hget] at hentry
    have hzero : (store.groups.count (k, a) : Int) = 0 := hentry
    exact iff_of_false (by omega) (Nested.get_eq_none.mp hget)
  | some member =>
    rw [hget] at hentry
    have hpos := hentry.2.1
    exact iff_of_true (by omega) (Nested.has_iff_holds.mpr ⟨member, Nested.get_eq_some.mp hget⟩)

theorem mem_remote (h : Represents tables store) {k : GroupKey} {a : ActorAddress} :
    (k, a) ∈ store.remote ↔ tables.remote.Has k a := by
  have hentry := h.remote k a
  rw [← Multiset.count_pos]
  cases hget : tables.remote.get k a with
  | none =>
    rw [hget] at hentry
    exact iff_of_false (Nat.not_lt.mpr (Nat.le_of_eq hentry)) (Nested.get_eq_none.mp hget)
  | some member =>
    rw [hget] at hentry
    exact iff_of_true hentry.1 (Nested.has_iff_holds.mpr ⟨member, Nested.get_eq_some.mp hget⟩)

theorem mem_map_groups (h : Represents tables store) :
    key ∈ store.groups.map (·.1) ↔ ∃ a, tables.groups.Has key a := by
  simp only [← h.mem_groups, Multiset.mem_map, Prod.exists, exists_and_right, exists_eq_right]

theorem present_iff (h : Represents tables store) :
    key ∈ store.groups.map (·.1) ∨ key ∈ store.remote.map (·.1) ↔ tables.Present key := by
  rw [h.mem_map_groups, Present]
  simp only [← h.mem_remote, Multiset.mem_map, Prod.exists, exists_and_right, exists_eq_right]

/-- The groups of the index, in the order of the set. -/
theorem groupsOf_iff (h : Represents tables store) {address : ActorAddress} {keys : List GroupKey} :
    keys.Perm (tables.groupsOf address) ↔ store.GroupsOf address keys := by
  have hnodup : (tables.groupsOf address).Nodup := by
    unfold groupsOf
    cases tables.index address with
    | none => exact List.nodup_nil
    | some groups => exact AList.keys_nodup groups
  have hmem : ∀ k, k ∈ tables.groupsOf address ↔ (address, k) ∈ store.index :=
    fun k => mem_groupsOf.trans (h.index address k).symm
  constructor
  · intro hperm
    exact ⟨hperm.nodup_iff.mpr hnodup, fun k => hperm.mem_iff.trans (hmem k)⟩
  · rintro ⟨hkeys, hin⟩
    exact (List.perm_ext_iff_of_nodup hkeys hnodup).mpr fun k => (hin k).trans (hmem k).symm

/-! ## Groups that empty -/

/-- A map without entries may go. -/
theorem vacate_groups (h : Represents tables store) (hvacant : tables.groups.vacant key = true) :
    Represents { tables with groups := tables.groups.remove key } store := by
  refine ⟨fun k a => ?_, h.remote, h.index, h.typed⟩
  have hget : Nested.get (tables.groups.remove key) k a = tables.groups.get k a := Nested.get_remove_vacant hvacant
  exact hget ▸ h.groups k a

theorem vacate_remote (h : Represents tables store) (hvacant : tables.remote.vacant key = true) :
    Represents { tables with remote := tables.remote.remove key } store := by
  refine ⟨h.groups, fun k a => ?_, h.index, h.typed⟩
  have hget : Nested.get (tables.remote.remove key) k a = tables.remote.get k a := Nested.get_remove_vacant hvacant
  exact hget ▸ h.remote k a

theorem removeGroupIfEmpty (h : Represents tables store) (key : GroupKey) :
    Represents (tables.removeGroupIfEmpty key) (store.removeGroupIfEmpty key) := by
  have hc := cleared_removeGroupIfEmpty tables key
  have hgroups : ∀ k a, (tables.removeGroupIfEmpty key).groups.get k a = tables.groups.get k a := by
    intro k a
    simp only [PgTables.removeGroupIfEmpty, Bool.and_eq_true]
    split_ifs with hempty hlocal
    · exact Nested.get_remove_vacant hempty.1
    · exact Nested.get_remove_vacant hlocal
    all_goals rfl
  have hremote : ∀ k a, (tables.removeGroupIfEmpty key).remote.get k a = tables.remote.get k a := by
    intro k a
    simp only [PgTables.removeGroupIfEmpty, Bool.and_eq_true]
    split_ifs with hempty _ hvacant
    · exact Nested.get_remove_vacant hempty.2
    · rfl
    · exact Nested.get_remove_vacant hvacant
    · rfl
  refine ⟨fun k a => ?_, fun k a => ?_, fun a k => ?_, fun k type a => ?_⟩
  · rw [hgroups, PgStore.removeGroupIfEmpty_groups]
    exact h.groups k a
  · rw [hremote, PgStore.removeGroupIfEmpty_remote]
    exact h.remote k a
  · rw [hc.index, ← h.index, ← h.present_iff, PgStore.removeGroupIfEmpty]
    split_ifs with hpresent
    · exact (and_iff_left fun _ => hpresent).symm
    · rw [Finset.mem_filter]
      exact and_congr_right fun _ => (imp_congr_right fun _ => iff_false_intro hpresent).symm
  · rw [hc.typed, ← h.typed, ← h.present_iff, PgStore.removeGroupIfEmpty]
    split_ifs with hpresent
    · exact (and_iff_left fun _ => hpresent).symm
    · rw [Finset.mem_filter]
      exact and_congr_right fun _ => (imp_congr_right fun _ => iff_false_intro hpresent).symm

theorem removeRemoteIfEmpty (h : Represents tables store) (key : GroupKey) :
    Represents (tables.removeRemoteIfEmpty key) (store.removeGroupIfEmpty key) := by
  simp only [PgTables.removeRemoteIfEmpty]
  split_ifs with hempty
  · refine (h.vacate_remote ?_).removeGroupIfEmpty key
    unfold Nested.vacant
    cases hk : tables.remote key with
    | none => rfl
    | some members => rwa [hk] at hempty
  · exact h.removeGroupIfEmpty key

/-! ## Joins and leaves -/

theorem joinScoped (h : Represents tables store) (handle : ActorId)
    (hroom : store.groups.count (key, ⟨here, handle⟩) + 1 < 2 ^ 32) :
    Represents (tables.joinScoped here key handle) (store.joinScoped here key handle).1 := by
  refine ⟨fun k a => ?_, h.remote, fun a k => ?_, h.typed⟩
  · simp only [PgTables.joinScoped, PgStore.joinScoped, Nested.get_upsertIn]
    split_ifs with hk
    · obtain ⟨rfl, rfl⟩ := hk
      rw [Multiset.count_cons_self]
      exact (h.groups k _).join (by omega)
    · rw [Multiset.count_cons_of_ne fun he => hk (Prod.mk.inj he)]
      exact h.groups k a
  · simp only [PgTables.joinScoped, PgStore.joinScoped, Nested.has_upsertIn, Finset.mem_insert, Prod.mk.injEq, h.index]

theorem typedJoin (h : Represents tables store) (type : TypeId) (id : ActorId) (value : V) :
    Represents (tables.typedJoin key type ⟨here, id⟩ value) (store.typedJoin here key type id) := by
  refine ⟨h.groups, h.remote, h.index, fun k type' a => ?_⟩
  simp only [PgTables.typedJoin, PgStore.typedJoin, Nested.has_upsertIn, Finset.mem_insert, Prod.mk.injEq, h.typed,
    and_assoc]

theorem leaveScoped (h : Represents tables store) (key : GroupKey) (id : ActorId) :
    (tables.leaveScoped here key id).1 = (store.leaveScoped here key id).1 ∧
      Represents (tables.leaveScoped here key id).2 (store.leaveScoped here key id).2.1 := by
  have hentry := h.groups key ⟨here, id⟩
  cases hget : tables.groups.get key ⟨here, id⟩ with
  | none =>
    have hnot : (key, (⟨here, id⟩ : ActorAddress)) ∉ store.groups :=
      fun hmem => Nested.get_eq_none.mp hget (h.mem_groups.mp hmem)
    rw [leaveScoped_of_none hget, PgStore.leaveScoped, if_neg hnot]
    exact ⟨rfl, h⟩
  | some member =>
    rw [hget] at hentry
    have hmem : (key, (⟨here, id⟩ : ActorAddress)) ∈ store.groups :=
      h.mem_groups.mpr (Nested.has_iff_holds.mpr ⟨member, Nested.get_eq_some.mp hget⟩)
    have hlast : member.joins - 1 = 0 ↔ (key, (⟨here, id⟩ : ActorAddress)) ∉ store.groups.erase (key, ⟨here, id⟩) := by
      have hleave := hentry.leave
      rw [← Multiset.count_pos, Multiset.count_erase_self]
      split_ifs at hleave with hzero
      · have hone : (store.groups.count (key, ⟨here, id⟩) : Int) - 1 = 0 := hleave
        exact iff_of_true hzero (by omega)
      · have hmore := hleave.2.1
        exact iff_of_false hzero (by omega)
    refine ⟨(leaveScoped_of_some hget).1.trans ?_, ?_⟩
    · simp only [PgStore.leaveScoped, if_pos hmem]
      split_ifs <;> rfl
    · have hbind : ((tables.groups key).bind fun members => members.lookup ⟨here, id⟩) = some member := hget
      simp only [PgTables.leaveScoped, PgStore.leaveScoped, hbind, if_pos hmem]
      by_cases hzero : member.joins - 1 = 0
      · rw [if_pos hzero, if_neg (hlast.mp hzero)]
        have herased : Represents
            { tables with groups := tables.groups.onInner key fun members => members.erase ⟨here, id⟩ }
            { store with groups := store.groups.erase (key, ⟨here, id⟩) } := by
          refine ⟨fun k a => ?_, h.remote, h.index, h.typed⟩
          rw [Nested.get_onInner_erase]
          split_ifs with hk
          · obtain ⟨rfl, rfl⟩ := hk
            rw [Multiset.count_eq_zero.mpr (hlast.mp hzero)]
            rfl
          · rw [Multiset.count_erase_of_ne fun he => hk (Prod.mk.inj he)]
            exact h.groups k a
        have hcleared := herased.removeGroupIfEmpty key
        refine ⟨hcleared.groups, hcleared.remote, fun a k => ?_, fun k type a => ?_⟩
        · rw [Nested.has_eraseIn, Finset.mem_erase, hcleared.index, and_comm, ne_eq, Prod.mk.injEq]
        · rw [Nested.has_dropEmpty, Finset.mem_filter, hcleared.typed]
          exact (Nested.has_onEvery_erase_of fun k : GroupKey × TypeId => k.1 = key).symm
      · rw [if_neg hzero, if_pos (by simpa using mt hlast.mpr hzero)]
        refine ⟨fun k a => ?_, h.remote, h.index, h.typed⟩
        rw [Nested.get_onInner_replace]
        split_ifs with hk
        · obtain ⟨rfl, rfl⟩ := hk
          have hleave := hentry.leave
          rw [if_neg hzero] at hleave
          have hcount : ((store.groups.count (k, ⟨here, id⟩) - 1 : Nat) : Int) =
              store.groups.count (k, ⟨here, id⟩) - 1 := by
            have hpos := hentry.2.1
            omega
          rw [hget, Multiset.count_erase_self, hcount]
          exact hleave
        · rw [Multiset.count_erase_of_ne fun he => hk (Prod.mk.inj he)]
          exact h.groups k a

/-! ## The exit of an actor -/

theorem removeFromGroup (h : Represents tables store) (address : ActorAddress) (key : GroupKey) :
    Represents (tables.removeFromGroup address key) (store.removeFromGroup address key) := by
  have hleft : Represents
      { tables with
        groups := tables.groups.onInner key fun members => members.erase address
        remote := tables.remote.onInner key fun members => members.erase address }
      { store with
        groups := store.groups.filter (· ≠ (key, address))
        remote := store.remote.filter (· ≠ (key, address)) } := by
    refine ⟨fun k a => ?_, fun k a => ?_, h.index, h.typed⟩
    · rw [Nested.get_onInner_erase]
      split_ifs with hk
      · obtain ⟨rfl, rfl⟩ := hk
        rw [Multiset.count_filter_of_neg (by simp)]
        rfl
      · rw [Multiset.count_filter_of_pos fun he => hk (Prod.mk.inj he)]
        exact h.groups k a
    · rw [Nested.get_onInner_erase]
      split_ifs with hk
      · obtain ⟨rfl, rfl⟩ := hk
        rw [Multiset.count_filter_of_neg (by simp)]
        rfl
      · rw [Multiset.count_filter_of_pos fun he => hk (Prod.mk.inj he)]
        exact h.remote k a
  exact hleft.removeGroupIfEmpty key

theorem removeActor (h : Represents tables store) (address : ActorAddress) (keys : List GroupKey) :
    Represents (tables.removeActor address keys) (store.removeActor address keys) := by
  have hloop : ∀ (tables : PgTables V) (store : PgStore), Represents tables store →
      Represents (keys.foldl (PgTables.removeFromGroup address) tables)
        (keys.foldl (PgStore.removeFromGroup address) store) := by
    induction keys with
    | nil => exact fun _ _ h => h
    | cons key keys ih => exact fun _ _ h => ih _ _ (h.removeFromGroup address key)
  have hunindexed : Represents { tables with index := tables.index.remove address }
      { store with index := store.index.filter (·.1 ≠ address) } := by
    refine ⟨h.groups, h.remote, fun a k => ?_, h.typed⟩
    rw [Finset.mem_filter, Nested.has_remove, h.index, and_comm]
  have hend := hloop _ _ hunindexed
  refine ⟨hend.groups, hend.remote, hend.index, fun k type a => ?_⟩
  simp only [PgTables.removeActor, PgStore.removeActor]
  rw [Nested.has_dropEmpty, Nested.has_onEvery_erase, Finset.mem_filter, hend.typed]

/-! ## Events of the peers -/

theorem applyJoin (h : Represents tables store) {entry : PgEntry}
    (hroom : (store.applyJoin here entry).remote.count entry < 2 ^ 32) :
    Represents (tables.applyJoin here entry) (store.applyJoin here entry) := by
  obtain ⟨key, address⟩ := entry
  unfold PgTables.applyJoin PgStore.applyJoin at *
  split_ifs at hroom ⊢
  · exact h
  · refine ⟨h.groups, fun k a => ?_, h.index, h.typed⟩
    rw [Nested.get_upsertIn]
    split_ifs with hk
    · obtain ⟨rfl, rfl⟩ := hk
      rw [Multiset.count_cons_self] at hroom ⊢
      exact (h.remote k a).join hroom
    · rw [Multiset.count_cons_of_ne fun he => hk (Prod.mk.inj he)]
      exact h.remote k a

theorem le_applyJoin (here : NodeId) (store : PgStore) (entry : PgEntry) :
    store.remote ≤ (store.applyJoin here entry).remote := by
  unfold PgStore.applyJoin
  split_ifs
  · exact le_rfl
  · exact Multiset.le_cons_self _ _

theorem le_applyJoins (here : NodeId) (store : PgStore) (entries : List PgEntry) :
    store.remote ≤ (entries.foldl (PgStore.applyJoin here) store).remote := by
  induction entries generalizing store with
  | nil => exact le_rfl
  | cons entry entries ih => exact (le_applyJoin here store entry).trans (ih _)

theorem applyRemotePgEvent (h : Represents tables store) (event : PgEvent)
    (hfits : (store.applyRemotePgEvent here event).Fits) :
    Represents (tables.applyRemotePgEvent here event) (store.applyRemotePgEvent here event) := by
  cases event with
  | join key address => exact h.applyJoin (hfits (key, address)).2
  | leave key address =>
    simp only [PgTables.applyRemotePgEvent, PgStore.applyRemotePgEvent]
    split_ifs with hhere hmem
    · exact h
    · obtain ⟨member, hm⟩ := Nested.has_iff_holds.mp (h.mem_remote.mp hmem)
      have hget := Nested.get_eq_some.mpr hm
      have hbind : ((tables.remote key).bind fun members => members.lookup address) = some member := hget
      have hentry := h.remote key address
      rw [hget] at hentry
      have hleave := hentry.leave
      rw [hbind]
      dsimp only
      generalize (if member.joins = 0 then 0 else member.joins - 1) = joins at hleave ⊢
      have hleft : Represents
          { tables with
            remote := if joins = 0 then tables.remote.onInner key fun members => members.erase address
              else tables.remote.onInner key fun members => members.replace address { member with joins } }
          { store with remote := store.remote.erase (key, address) } := by
        refine ⟨h.groups, fun k a => ?_, h.index, h.typed⟩
        by_cases hk : k = key ∧ a = address
        · obtain ⟨rfl, rfl⟩ := hk
          rw [Multiset.count_erase_self]
          split_ifs at hleave ⊢
          · rw [Nested.get_onInner_erase, if_pos ⟨rfl, rfl⟩]
            exact hleave
          · rw [Nested.get_onInner_replace, if_pos ⟨rfl, rfl⟩, hget]
            exact hleave
        · rw [Multiset.count_erase_of_ne fun he => hk (Prod.mk.inj he)]
          split_ifs
          · rw [Nested.get_onInner_erase, if_neg hk]
            exact h.remote k a
          · rw [Nested.get_onInner_replace, if_neg hk]
            exact h.remote k a
      exact hleft.removeRemoteIfEmpty key
    · have hnone : ((tables.remote key).bind fun members => members.lookup address) = none :=
        Nested.get_eq_none.mpr fun hhas => hmem (h.mem_remote.mpr hhas)
      rw [hnone]
      exact h
  | snapshot entries =>
    simp only [PgTables.applyRemotePgEvent, PgStore.applyRemotePgEvent] at hfits ⊢
    induction entries generalizing tables store with
    | nil => exact h
    | cons entry entries ih =>
      have hle := Multiset.count_le_of_le entry (le_applyJoins here (store.applyJoin here entry) entries)
      exact ih (h.applyJoin (Nat.lt_of_le_of_lt hle (hfits entry).2)) hfits

/-! ## Queries -/

section Queries

variable (alive : ActorId → Bool)

/-- Members are under the addresses of their own actors, so that it is the same to ask for the handle and the address. -/
theorem prune (h : Represents tables store) (key : GroupKey) :
    Represents { tables with
      groups := tables.groups.onInner key fun members => members.retain fun member => alive member.handle }
      (store.prune (fun a => alive a.actorId) key) := by
  refine ⟨fun k a => ?_, h.remote, h.index, h.typed⟩
  have hentry := h.groups k a
  rw [Nested.get_onInner_retain, PgStore.prune]
  dsimp only
  split_ifs with hk
  · cases hget : tables.groups.get k a with
    | none =>
      rw [hget] at hentry
      have hzero : (store.groups.count (k, a) : Int) = 0 := hentry
      have hle := Multiset.count_le_of_le (k, a) (Multiset.filter_le (fun e => e.1 = key → alive e.2.actorId) store.groups)
      show ((Multiset.count _ _ : Nat) : Int) = 0
      omega
    | some member =>
      rw [hget] at hentry
      rw [Option.filter_some, hentry.1]
      split_ifs with halive
      · rw [Multiset.count_filter_of_pos fun _ => halive]
        exact hentry
      · rw [Multiset.count_filter_of_neg fun hp => halive (hp hk)]
        rfl
  · rw [Multiset.count_filter_of_pos fun he => absurd he hk]
    exact hentry

theorem memberAddressesScoped (h : Represents tables store) (key : GroupKey) :
    Represents (tables.memberAddressesScoped alive key).2
      (store.memberAddressesScoped (fun a => alive a.actorId) key) := by
  have hpruned := h.prune alive key
  simp only [PgTables.memberAddressesScoped, PgStore.memberAddressesScoped]
  split_ifs with hvacant
  · exact (hpruned.vacate_groups hvacant).removeGroupIfEmpty key
  · exact hpruned.removeGroupIfEmpty key

theorem getLocalMembersScoped (h : Represents tables store) (hfilled : tables.groups.Filled) (key : GroupKey) :
    Represents (tables.getLocalMembersScoped alive key).2
      (store.getLocalMembersScoped (fun a => alive a.actorId) key) := by
  have hpruned := h.prune alive key
  unfold PgTables.getLocalMembersScoped PgStore.getLocalMembersScoped
  cases hkey : tables.groups key with
  | none =>
    have hnot : key ∉ store.groups.map (·.1) := by
      rw [h.mem_map_groups]
      rintro ⟨a, members, hmembers, -⟩
      rw [hkey] at hmembers
      cases hmembers
    rw [if_neg hnot]
    exact h
  | some members =>
    have hin : key ∈ store.groups.map (·.1) := by
      obtain ⟨a, ha⟩ := hfilled key members hkey
      exact h.mem_map_groups.mpr ⟨a, members, hkey, ha⟩
    simp only [if_pos hin, Nested.insert_eq_onInner (fun members => members.retain fun member => alive member.handle) hkey]
    have hempty : (members.retain fun member => alive member.handle).isEmpty = true ↔
        key ∉ (store.prune (fun a => alive a.actorId) key).groups.map (·.1) := by
      rw [hpruned.mem_map_groups, not_exists, Inner.isEmpty_iff]
      simp only [Nested.has_onInner, if_true, hkey, Option.some.injEq, exists_eq_left']
    by_cases he : (members.retain fun member => alive member.handle).isEmpty = true
    · rw [if_pos he, if_neg (hempty.mp he)]
      exact hpruned.removeGroupIfEmpty key
    · rw [if_neg he, if_pos (by simpa using mt hempty.mpr he)]
      exact hpruned

end Queries

end Represents

end PgTables

/-! ## Runs -/

variable {V : Type} {here : NodeId} {τ : List (PgNode V × PgCall V)} {s s' : PgNode V}

/-- An operation of a node on the multisets. -/
def PgCall.onStore (here : NodeId) (alive : ActorId → Bool) (store : PgStore) : PgCall V → PgStore
  | .joinScoped key handle => (store.joinScoped here key handle).1
  | .typedJoin key type id _ => store.typedJoin here key type id
  | .leaveScoped key id => (store.leaveScoped here key id).2.1
  | .removeActor id keys => store.removeActor ⟨here, id⟩ keys
  | .applyRemotePgEvent event => store.applyRemotePgEvent here event
  | .memberAddressesScoped key => store.memberAddressesScoped (fun a => alive a.actorId) key
  | .getLocalMembersScoped key => store.getLocalMembersScoped (fun a => alive a.actorId) key
  | .complete _ => store

/-- What the operations of a history make of the multisets. -/
def storeOf (here : NodeId) (τ : List (PgNode V × PgCall V)) : PgStore :=
  τ.foldl (fun store x => x.2.onStore here x.1.alive store) {}

theorem storeOf_snoc (τ : List (PgNode V × PgCall V)) (x : PgNode V × PgCall V) :
    storeOf here (τ ++ [x]) = x.2.onStore here x.1.alive (storeOf here τ) := by
  simp [storeOf]

theorem PgNode.Step.represents {store : PgStore} {op : PgCall V} (hstep : PgNode.Step here s op s')
    (h : s.tables.Represents store) (hfilled : s.tables.Filled) (hfits : (op.onStore here s.alive store).Fits) :
    s'.tables.Represents (op.onStore here s.alive store) := by
  unfold PgNode.Step at hstep
  cases op with
  | joinScoped key handle =>
    cases hstep
    refine h.joinScoped handle ?_
    have hroom := (hfits (key, ⟨here, handle⟩)).1
    rwa [PgCall.onStore, PgStore.joinScoped, Multiset.count_cons_self] at hroom
  | typedJoin key type id value =>
    cases hstep
    exact h.typedJoin type id value
  | leaveScoped key id =>
    cases hstep
    exact (h.leaveScoped key id).2
  | removeActor id keys =>
    obtain ⟨-, hs'⟩ := Option.ite_none_right_eq_some.mp hstep
    cases hs'
    exact h.removeActor ⟨here, id⟩ keys
  | applyRemotePgEvent event =>
    cases hstep
    exact h.applyRemotePgEvent event hfits
  | memberAddressesScoped key =>
    cases hstep
    exact h.memberAddressesScoped s.alive key
  | getLocalMembersScoped key =>
    cases hstep
    exact h.getLocalMembersScoped s.alive hfilled.groups key
  | complete id =>
    cases hstep
    exact h

/-- **The tables stand for the multisets.** In every run of the operations of a node in which no multiplicity reaches 2^32,
every counter of the tables is the multiplicity that the operations on the multisets give its entry, index and typed
buckets are those of the multisets, and an actor that exits may leave its groups in the same orders in both. -/
theorem represents_run (h : Run (PgNode.Step here) {} τ s) (hfits : ∀ σ, σ <+: τ → (storeOf here σ).Fits) :
    s.tables.Represents (storeOf here τ) ∧
      ∀ address keys, keys.Perm (s.tables.groupsOf address) ↔ (storeOf here τ).GroupsOf address keys := by
  suffices hrep : s.tables.Represents (storeOf here τ) from ⟨hrep, fun _ _ => hrep.groupsOf_iff⟩
  induction h with
  | nil => exact PgTables.represents_empty
  | @snoc τ s op s' hr hstep ih =>
    have hbefore := ih fun σ hσ => hfits σ (hσ.trans (List.prefix_append τ _))
    have hafter := hfits _ (List.prefix_refl _)
    rw [storeOf_snoc] at hafter ⊢
    exact hstep.represents hbefore (filled_of_run hr) hafter

end Spawned
