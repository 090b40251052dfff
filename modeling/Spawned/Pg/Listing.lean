import Mathlib.Data.List.Dedup
import Mathlib.Data.List.Sort
import Mathlib.Data.String.Basic
import Spawned.Pg.Tables

/-!
# Listing groups and scopes

`which_groups_scoped` and `which_scopes` read the keys of the local table; `member_addresses_scoped` drops the members that
have died and adds those of other nodes. A listing is sorted and free of duplicates, but it tells the groups that have
members only as far as the two tables agree on them.

* `Enumerates keys store` : the keys of the local table in some order, as an iteration gives them; in every reachable
  store there are finitely many (`exists_enumerates`);
* `ListingAgrees` : the listings are those of the groups that have members;
* `Evident` : no group has dead local members only, and none has members on other nodes only;
* `listing_agrees_iff` : the first holds in a reachable state exactly if the second does.
-/

namespace Spawned

open Lib

namespace PgTables

variable {V : Type} {here : NodeId} {store : PgTables V} {keys : List GroupKey} {alive : ActorId → Bool}

/-- `Vec::sort` of strings. -/
def sortNames (names : List String) : List String := names.insertionSort (· ≤ ·)

/-- `which_groups_scoped`, with the keys of the local table in the order of the iteration. -/
def whichGroupsScoped (keys : List GroupKey) (scope : String) : List String :=
  sortNames ((keys.filter fun key => key.scope == scope).map (·.group))

/-- `which_scopes`. -/
def whichScopes (keys : List GroupKey) : List String := sortNames (keys.map (·.scope)).dedup

/-- These are the keys of the local table. -/
structure Enumerates (keys : List GroupKey) (store : PgTables V) : Prop where
  nodup : keys.Nodup
  mem : ∀ key, key ∈ keys ↔ store.groups key ≠ none

/-! ## What the listings are -/

theorem pairwise_sortNames {names : List String} (h : names.Nodup) : (sortNames names).Pairwise (· < ·) := by
  have hsorted : (sortNames names).Pairwise (· ≤ ·) := List.pairwise_insertionSort _ _
  have hnodup : (sortNames names).Nodup := (List.perm_insertionSort _ names).nodup_iff.mpr h
  exact (hsorted.and hnodup).imp fun hboth => lt_of_le_of_ne hboth.1 hboth.2

theorem mem_whichGroupsScoped {scope group : String} : group ∈ whichGroupsScoped keys scope ↔ ⟨scope, group⟩ ∈ keys := by
  simp only [whichGroupsScoped, sortNames, List.mem_insertionSort, List.mem_map, List.mem_filter, beq_iff_eq]
  constructor
  · rintro ⟨key, ⟨hmem, rfl⟩, rfl⟩
    exact hmem
  · exact fun hmem => ⟨_, ⟨hmem, rfl⟩, rfl⟩

theorem mem_whichScopes {scope : String} : scope ∈ whichScopes keys ↔ ∃ group, ⟨scope, group⟩ ∈ keys := by
  simp only [whichScopes, sortNames, List.mem_insertionSort, List.mem_dedup, List.mem_map]
  constructor
  · rintro ⟨key, hmem, rfl⟩
    exact ⟨key.group, hmem⟩
  · rintro ⟨group, hmem⟩
    exact ⟨_, hmem, rfl⟩

theorem sorted_whichGroupsScoped (h : keys.Nodup) (scope : String) :
    (whichGroupsScoped keys scope).Pairwise (· < ·) := by
  refine pairwise_sortNames ((h.filter _).map_on fun x hx y hy hgroup => ?_)
  have hscope : x.scope = y.scope := by
    rw [beq_iff_eq.mp (List.mem_filter.mp hx).2, beq_iff_eq.mp (List.mem_filter.mp hy).2]
  obtain ⟨scope', group⟩ := x
  obtain rfl : scope' = y.scope := hscope
  obtain rfl : group = y.group := hgroup
  rfl

theorem sorted_whichScopes : (whichScopes keys).Pairwise (· < ·) := pairwise_sortNames (List.nodup_dedup _)

/-! ## What `member_addresses_scoped` finds -/

theorem elim_keys_ne_nil {K A W : Type} [DecidableEq A] {m : Nested K A W} {k : K} :
    (m k).elim [] AList.keys ≠ [] ↔ ∃ a, m.Has k a := by
  unfold Nested.Has
  cases m k with
  | none => simp
  | some inner =>
    simp only [Option.elim_some, Option.some.injEq, exists_eq_left', AList.mem_keys]
    exact ⟨List.exists_mem_of_ne_nil _, fun ⟨a, ha⟩ => List.ne_nil_of_mem ha⟩

/-- The group has a local member that is alive. -/
def Living (alive : ActorId → Bool) (store : PgTables V) (key : GroupKey) : Prop :=
  ∃ address member, store.groups.Holds key address member ∧ alive member.handle = true

/-- It finds a local member that is alive, or a member on another node. -/
theorem memberAddressesScoped_ne_nil {key : GroupKey} :
    (store.memberAddressesScoped alive key).1 ≠ [] ↔ store.Living alive key ∨ ∃ a, store.remote.Has key a := by
  have hpruned : (∃ a, (store.groups.onInner key fun members => members.retain fun member => alive member.handle).Has
      key a) ↔ store.Living alive key := by
    simp only [Nested.has_onInner_retain, true_imp_iff, Living]
  simp only [memberAddressesScoped, ne_eq, List.append_eq_nil_iff, not_and_or]
  rw [← ne_eq, ← ne_eq, elim_keys_ne_nil, elim_keys_ne_nil]
  refine or_congr_left ?_
  split_ifs with hvacant
  · refine Iff.trans ?_ hpruned
    exact exists_congr fun a => Nested.has_remove_vacant hvacant
  · exact hpruned

/-! ## Agreement -/

/-- The listings name, in order and once each, the groups in which `member_addresses_scoped` finds members, and the scopes
of such groups. -/
structure ListingAgrees (alive : ActorId → Bool) (keys : List GroupKey) (store : PgTables V) : Prop where
  groupsSorted : ∀ scope, (whichGroupsScoped keys scope).Pairwise (· < ·)
  groups : ∀ scope group,
    group ∈ whichGroupsScoped keys scope ↔ (store.memberAddressesScoped alive ⟨scope, group⟩).1 ≠ []
  scopesSorted : (whichScopes keys).Pairwise (· < ·)
  scopes : ∀ scope, scope ∈ whichScopes keys ↔ ∃ group, (store.memberAddressesScoped alive ⟨scope, group⟩).1 ≠ []

/-- No group has dead local members only, and none has members on other nodes only. -/
structure Evident (alive : ActorId → Bool) (store : PgTables V) : Prop where
  living : ∀ key a, store.groups.Has key a → store.Living alive key ∨ ∃ b, store.remote.Has key b
  rooted : ∀ key a, store.remote.Has key a → ∃ b, store.groups.Has key b

/-- Where no map of members is empty, the local table has a key for each group with local members. -/
theorem Filled.groups_ne_none (h : store.Filled) {key : GroupKey} :
    store.groups key ≠ none ↔ ∃ a, store.groups.Has key a := by
  constructor
  · intro hne
    obtain ⟨members, hmembers⟩ := Option.ne_none_iff_exists'.mp hne
    obtain ⟨a, ha⟩ := h.groups key members hmembers
    exact ⟨a, members, hmembers, ha⟩
  · rintro ⟨a, members, hmembers, -⟩ hnone
    rw [hmembers] at hnone
    cases hnone

theorem listingAgrees_iff_evident (hfilled : store.Filled) (hkeys : Enumerates keys store) :
    ListingAgrees alive keys store ↔ Evident alive store := by
  have hlisted : ∀ key : GroupKey, key ∈ keys ↔ ∃ a, store.groups.Has key a :=
    fun key => (hkeys.mem key).trans hfilled.groups_ne_none
  constructor
  · intro h
    have hagrees : ∀ key : GroupKey, (∃ a, store.groups.Has key a) ↔
        store.Living alive key ∨ ∃ a, store.remote.Has key a := by
      rintro ⟨scope, group⟩
      rw [← hlisted, ← mem_whichGroupsScoped, h.groups, memberAddressesScoped_ne_nil]
    exact ⟨fun key a ha => (hagrees key).mp ⟨a, ha⟩, fun key a ha => (hagrees key).mpr (Or.inr ⟨a, ha⟩)⟩
  · intro h
    have hagrees : ∀ key : GroupKey, key ∈ keys ↔ (store.memberAddressesScoped alive key).1 ≠ [] := by
      intro key
      rw [hlisted, memberAddressesScoped_ne_nil]
      constructor
      · rintro ⟨a, ha⟩
        exact h.living key a ha
      · rintro (⟨a, member, hm, -⟩ | ⟨a, ha⟩)
        · exact ⟨a, Nested.has_iff_holds.mpr ⟨member, hm⟩⟩
        · exact h.rooted key a ha
    refine ⟨sorted_whichGroupsScoped hkeys.nodup, fun scope group => ?_, sorted_whichScopes, fun scope => ?_⟩
    · rw [mem_whichGroupsScoped, hagrees]
    · rw [mem_whichScopes]
      exact exists_congr fun group => hagrees _

/-! ## Reachable states -/

theorem groups_removeGroupIfEmpty {key k : GroupKey} (h : (store.removeGroupIfEmpty key).groups k ≠ none) :
    store.groups k ≠ none := by
  simp only [removeGroupIfEmpty, Bool.and_eq_true] at h
  split_ifs at h with hempty hlocal hremote
  · exact (Table.remove_ne_none.mp h).1
  · exact (Table.remove_ne_none.mp h).1
  · exact h
  · exact h

theorem onInner_ne_none {K A W : Type} [DecidableEq K] {m : Nested K A W} {g : Lib.Inner A W → Lib.Inner A W} {k k' : K} :
    m.onInner k g k' ≠ none ↔ m k' ≠ none := by
  rw [Nested.onInner_apply]
  split_ifs <;> simp

theorem groups_foldl_removeFromGroup {address : ActorAddress} {keys : List GroupKey} {k : GroupKey}
    (h : (keys.foldl (removeFromGroup address) store).groups k ≠ none) : store.groups k ≠ none := by
  induction keys generalizing store with
  | nil => exact h
  | cons key keys ih => exact onInner_ne_none.mp (groups_removeGroupIfEmpty (ih h))

theorem groups_removeActor {address : ActorAddress} {keys : List GroupKey} {k : GroupKey}
    (h : (store.removeActor address keys).groups k ≠ none) : store.groups k ≠ none := by
  have hstart : ({ store with index := store.index.remove address } : PgTables V).groups k ≠ none :=
    groups_foldl_removeFromGroup h
  exact hstart

theorem groups_applyRemotePgEvent {event : PgEvent} {k : GroupKey}
    (h : (store.applyRemotePgEvent here event).groups k ≠ none) : store.groups k ≠ none := by
  have hjoin : ∀ (store : PgTables V) (entry : PgEntry), (store.applyJoin here entry).groups = store.groups := by
    intro store entry
    unfold applyJoin
    split <;> rfl
  cases event with
  | join key address => rwa [show (store.applyRemotePgEvent here (.join key address)).groups = store.groups from
      hjoin store (key, address)] at h
  | leave key address =>
    simp only [applyRemotePgEvent] at h
    split_ifs at h
    · exact h
    · split at h
      · exact h
      · simp only [removeRemoteIfEmpty] at h
        have hgroups := groups_removeGroupIfEmpty h
        split_ifs at hgroups <;> exact hgroups
  | snapshot entries =>
    simp only [applyRemotePgEvent] at h
    induction entries generalizing store with
    | nil => exact h
    | cons entry entries ih =>
      have hfirst := ih h
      rwa [hjoin] at hfirst

end PgTables

variable {V : Type} {here : NodeId} {τ : List (PgNode V × PgCall V)} {s s' : PgNode V} {op : PgCall V}

/-- Only a join brings a key into the local table. -/
theorem PgNode.Step.groups (hstep : PgNode.Step here s op s') {k : GroupKey} (h : s'.tables.groups k ≠ none) :
    s.tables.groups k ≠ none ∨ ∃ handle, op = .joinScoped k handle := by
  unfold PgNode.Step at hstep
  cases op with
  | joinScoped key handle =>
    cases hstep
    rcases Table.insert_ne_none.mp h with hk | rfl
    · exact Or.inl hk
    · exact Or.inr ⟨handle, rfl⟩
  | typedJoin key type id value =>
    cases hstep
    exact Or.inl h
  | leaveScoped key id =>
    cases hstep
    refine Or.inl ?_
    simp only [PgTables.leaveScoped] at h
    split at h
    · exact h
    · split_ifs at h
      · exact PgTables.onInner_ne_none.mp (PgTables.groups_removeGroupIfEmpty h)
      · exact PgTables.onInner_ne_none.mp h
  | removeActor id keys =>
    obtain ⟨-, hs'⟩ := Option.ite_none_right_eq_some.mp hstep
    cases hs'
    exact Or.inl (PgTables.groups_removeActor h)
  | applyRemotePgEvent event =>
    cases hstep
    exact Or.inl (PgTables.groups_applyRemotePgEvent h)
  | memberAddressesScoped key =>
    cases hstep
    refine Or.inl ?_
    have hgroups := PgTables.groups_removeGroupIfEmpty h
    dsimp only at hgroups
    split_ifs at hgroups
    · exact PgTables.onInner_ne_none.mp (Table.remove_ne_none.mp hgroups).1
    · exact PgTables.onInner_ne_none.mp hgroups
  | getLocalMembersScoped key =>
    cases hstep
    refine Or.inl ?_
    simp only [PgTables.getLocalMembersScoped] at h
    cases hkey : s.tables.groups key with
    | none =>
      rw [hkey] at h
      exact h
    | some members =>
      simp only [hkey,
        Nested.insert_eq_onInner (fun members => members.retain fun member => s.alive member.handle) hkey] at h
      split_ifs at h
      · exact PgTables.onInner_ne_none.mp (PgTables.groups_removeGroupIfEmpty h)
      · exact PgTables.onInner_ne_none.mp h
  | complete id =>
    cases hstep
    exact Or.inl h

theorem PgNode.Step.filled (hstep : PgNode.Step here s op s') (h : s.tables.Filled) : s'.tables.Filled := by
  unfold PgNode.Step at hstep
  cases op with
  | joinScoped key handle =>
    cases hstep
    exact h.joinScoped key handle
  | typedJoin key type id value =>
    cases hstep
    exact h.typedJoin type _ value
  | leaveScoped key id =>
    cases hstep
    exact h.leaveScoped key id
  | removeActor id keys =>
    obtain ⟨-, hs'⟩ := Option.ite_none_right_eq_some.mp hstep
    cases hs'
    exact h.removeActor _ keys
  | applyRemotePgEvent event =>
    cases hstep
    exact h.applyRemotePgEvent event
  | memberAddressesScoped key =>
    cases hstep
    exact h.memberAddressesScoped s.alive key
  | getLocalMembersScoped key =>
    cases hstep
    exact h.getLocalMembersScoped s.alive key
  | complete id =>
    cases hstep
    exact h

theorem filled_of_run (h : Run (PgNode.Step here) {} τ s) : s.tables.Filled :=
  h.inv (I := fun s => s.tables.Filled) (@PgTables.sound_empty V here).filled fun _ _ _ hf hstep => hstep.filled hf

/-- The keys of the local table are among the groups joined so far. -/
theorem joined_of_run (h : Run (PgNode.Step here) {} τ s) {k : GroupKey} (hk : s.tables.groups k ≠ none) :
    ∃ x ∈ τ, ∃ handle, x.2 = .joinScoped k handle := by
  induction h with
  | nil => exact absurd rfl hk
  | @snoc τ s op s' _ hstep ih =>
    rcases hstep.groups hk with hbefore | ⟨handle, rfl⟩
    · obtain ⟨x, hx, hjoin⟩ := ih hbefore
      exact ⟨x, by simp [hx], hjoin⟩
    · exact ⟨(s, .joinScoped k handle), by simp, handle, rfl⟩

/-- The group a call joins. -/
def PgCall.joined : PgCall V → Option GroupKey
  | .joinScoped key _ => some key
  | _ => none

theorem exists_enumerates (h : Run (PgNode.Step here) {} τ s) : ∃ keys, PgTables.Enumerates keys s.tables := by
  refine ⟨((τ.filterMap fun x => x.2.joined).filter fun k => (s.tables.groups k).isSome).dedup, List.nodup_dedup _, ?_⟩
  intro key
  rw [List.mem_dedup, List.mem_filter, Option.isSome_iff_ne_none]
  refine and_iff_right_of_imp fun hk => ?_
  obtain ⟨x, hx, handle, hjoin⟩ := joined_of_run h hk
  exact List.mem_filterMap.mpr ⟨x, hx, by rw [hjoin]; rfl⟩

/-- **Listings and membership.** In every reachable state the keys of the local table can be listed, and in whatever order
that is done, the sorted listings name the groups in which `member_addresses_scoped` finds members exactly if no group has
dead local members only and none has members on other nodes only. -/
theorem listing_agrees_iff (here : NodeId) (τ : List (PgNode V × PgCall V)) (s : PgNode V)
    (h : Run (PgNode.Step here) {} τ s) :
    (∃ keys, PgTables.Enumerates keys s.tables) ∧ ∀ keys, PgTables.Enumerates keys s.tables →
      (PgTables.ListingAgrees s.alive keys s.tables ↔ PgTables.Evident s.alive s.tables) :=
  ⟨exists_enumerates h, fun _ hkeys => PgTables.listingAgrees_iff_evident (filled_of_run h) hkeys⟩

/-- A member on another node of a group with none here, and a member here that has died. -/
def ghostCalls : List (PgCall Unit) :=
  [.applyRemotePgEvent (.join ⟨"default", "away"⟩ ⟨"n2", 7⟩), .joinScoped ⟨"default", "gone"⟩ 1, .complete 1]

/-- A member of one group that is alive, with another on another node, and one of a second group that leaves. -/
def afterLeave : List (PgCall Unit) :=
  [.joinScoped ⟨"default", "b"⟩ 1, .joinScoped ⟨"default", "a"⟩ 2, .leaveScoped ⟨"default", "a"⟩ 2,
    .applyRemotePgEvent (.join ⟨"default", "b"⟩ ⟨"n2", 7⟩)]

theorem listing_agrees_iff_after_leave :
    ∃ τ s, Run (PgNode.Step "n1") ({} : PgNode Unit) τ s ∧ τ.map (·.2) = afterLeave ∧
      ∃ keys, PgTables.Enumerates keys s.tables ∧ PgTables.ListingAgrees s.alive keys s.tables := by
  have hrun : Run (PgNode.Step "n1") ({} : PgNode Unit) _ _ := run_tryPlay (PgNode.next "n1") {} afterLeave (by decide)
  obtain ⟨⟨keys, hkeys⟩, hiff⟩ := listing_agrees_iff "n1" _ _ hrun
  refine ⟨_, _, hrun, rfl, keys, hkeys, (hiff keys hkeys).mpr ⟨?_, ?_⟩⟩
  · intro key a ha
    by_cases hb : key = ⟨"default", "b"⟩
    · subst hb
      exact Or.inl ⟨⟨"n1", 1⟩, ⟨1, 1⟩, Nested.get_eq_some.mp (by decide), by decide⟩
    · -- the one other group that was ever joined is no longer in the table
      obtain ⟨members, hmembers, -⟩ := ha
      obtain ⟨x, hx, handle, hjoin⟩ := joined_of_run hrun (hmembers ▸ Option.some_ne_none members)
      have hcall : PgCall.joinScoped key handle ∈ afterLeave := hjoin ▸ List.mem_map_of_mem hx
      obtain ⟨rfl, -⟩ : key = ⟨"default", "a"⟩ ∧ handle = 2 := by simpa [afterLeave, hb] using hcall
      cases hmembers
  · intro key a ha
    by_cases hb : key = ⟨"default", "b"⟩
    · subst hb
      exact ⟨⟨"n1", 1⟩, by decide⟩
    · rcases Nested.has_upsertIn.mp ha with ⟨hk, -⟩ | ha
      · exact absurd hk hb
      · exact absurd (Nested.has_remove.mp ha).2 Nested.not_has_empty

/-- The group with a member on another node is not listed, and the one whose member has died is. -/
theorem listing_misses_and_invents :
    ∃ τ s, Run (PgNode.Step "n1") ({} : PgNode Unit) τ s ∧ τ.map (·.2) = ghostCalls ∧
      PgTables.Enumerates [⟨"default", "gone"⟩] s.tables ∧
      PgTables.whichGroupsScoped [⟨"default", "gone"⟩] "default" = ["gone"] ∧
      (s.tables.memberAddressesScoped s.alive ⟨"default", "gone"⟩).1 = [] ∧
      (s.tables.memberAddressesScoped s.alive ⟨"default", "away"⟩).1 = [⟨"n2", 7⟩] ∧
      ¬PgTables.ListingAgrees s.alive [⟨"default", "gone"⟩] s.tables := by
  have hrun : Run (PgNode.Step "n1") ({} : PgNode Unit) _ _ := run_tryPlay (PgNode.next "n1") {} ghostCalls (by decide)
  refine ⟨_, _, hrun, rfl, ⟨List.nodup_singleton _, fun key => ?_⟩, by decide, by decide, by decide, fun hagrees => ?_⟩
  · rw [List.mem_singleton]
    exact (Table.insert_ne_none.trans (or_iff_right fun h => h rfl)).symm
  · exact absurd ((hagrees.groups "default" "away").mpr (by decide)) (by decide)

end Spawned
