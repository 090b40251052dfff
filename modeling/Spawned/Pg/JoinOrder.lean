import Spawned.Pg.Tables

/-!
# Who joined when

Entries come into the tables by joins only, and the history of a node tells the order in which the members of a typed
bucket came.

* `PgTables.Within` : the entries of a store are among those of another; one lemma per operation that adds none;
* `PgNode.Step.typed_cases`, `PgNode.Step.group_cases` : an entry after a step was there before, or the step joined it;
* `joinOrder` : the members of a bucket as they joined, after any history of the node;
* `address_of_value`, `handle_of_member` : an entry is under the address of its own actor.
-/

namespace Spawned

open Lib

namespace PgTables

variable {V : Type} {here : NodeId} {store store' store'' : PgTables V} {key : GroupKey}

/-- The entries are among those of `store`; a member may have joined less often. -/
structure Within (store store' : PgTables V) : Prop where
  groups : ∀ k a member', store'.groups.get k a = some member' →
    ∃ member, store.groups.get k a = some member ∧ member'.handle = member.handle
  typed : ∀ bucket a v, store'.typed.get bucket a = some v → store.typed.get bucket a = some v

theorem within_of_groups (hgroups : ∀ k a member, store'.groups.get k a = some member → store.groups.get k a = some member)
    (htyped : store'.typed = store.typed) : Within store store' := by
  refine ⟨fun k a member hm => ⟨member, hgroups k a member hm, rfl⟩, fun bucket a v hv => ?_⟩
  rwa [htyped] at hv

theorem within_of_eq (hgroups : store'.groups = store.groups) (htyped : store'.typed = store.typed) :
    Within store store' := by
  refine within_of_groups (fun k a member hm => ?_) htyped
  rwa [hgroups] at hm

theorem Within.refl (store : PgTables V) : Within store store := within_of_eq rfl rfl

theorem Within.trans (h : Within store store') (h' : Within store' store'') : Within store store'' := by
  refine ⟨fun k a member'' hm => ?_, fun bucket a v hv => h.typed bucket a v (h'.typed bucket a v hv)⟩
  obtain ⟨member', hm', he'⟩ := h'.groups k a member'' hm
  obtain ⟨member, hm, he⟩ := h.groups k a member' hm'
  exact ⟨member, hm, he'.trans he⟩

theorem within_removeGroupIfEmpty (store : PgTables V) (key : GroupKey) :
    Within store (store.removeGroupIfEmpty key) := by
  simp only [removeGroupIfEmpty]
  split_ifs
  · exact ⟨fun k a member hm => ⟨member, Nested.get_of_get_remove hm, rfl⟩, fun bucket a v hv => Nested.get_of_get_retain hv⟩
  · exact within_of_groups (fun k a member hm => Nested.get_of_get_remove hm) rfl
  · exact within_of_eq rfl rfl
  · exact Within.refl _

theorem within_removeRemoteIfEmpty (store : PgTables V) (key : GroupKey) :
    Within store (store.removeRemoteIfEmpty key) := by
  simp only [removeRemoteIfEmpty]
  split_ifs
  · have hremote : Within store { store with remote := store.remote.remove key } := within_of_eq rfl rfl
    exact hremote.trans (within_removeGroupIfEmpty _ key)
  · exact within_removeGroupIfEmpty _ key

theorem lookup_of_lookup_erase {bucket : Lib.Inner ActorAddress V} {a address : ActorAddress} {v : V}
    (h : (bucket.erase address).lookup a = some v) : bucket.lookup a = some v := by
  by_cases ha : a = address
  · subst ha
    simp at h
  · rwa [AList.lookup_erase_ne ha] at h

theorem within_removeFromGroup (address : ActorAddress) (store : PgTables V) (key : GroupKey) :
    Within store (store.removeFromGroup address key) := by
  refine Within.trans ?_ (within_removeGroupIfEmpty _ key)
  exact within_of_groups (fun k a member hm => Nested.get_of_get_onInner_erase hm) rfl

theorem within_removeActor (address : ActorAddress) (keys : List GroupKey) :
    Within store (store.removeActor address keys) := by
  have hloop : ∀ store : PgTables V, Within store (keys.foldl (removeFromGroup address) store) := by
    induction keys with
    | nil => exact Within.refl
    | cons key keys ih => exact fun store => (within_removeFromGroup address store key).trans (ih _)
  have hindex : Within store { store with index := store.index.remove address } := within_of_eq rfl rfl
  refine (hindex.trans (hloop _)).trans ⟨fun k a member hm => ⟨member, hm, rfl⟩, fun bucket a v hv => ?_⟩
  exact Nested.get_of_get_onEvery (fun _ => lookup_of_lookup_erase) (Nested.get_of_get_retain hv)

theorem within_leaveScoped (key : GroupKey) (id : ActorId) : Within store (store.leaveScoped here key id).2 := by
  unfold leaveScoped
  simp only
  split
  · exact Within.refl _
  · next member hmember =>
    split_ifs
    · set left : PgTables V := { store with groups := store.groups.onInner key fun members => members.erase ⟨here, id⟩ }
      have hleft : Within store left := within_of_groups (fun k a member hm => Nested.get_of_get_onInner_erase hm) rfl
      refine (hleft.trans (within_removeGroupIfEmpty left key)).trans
        ⟨fun k a member hm => ⟨member, hm, rfl⟩, fun bucket a v hv => ?_⟩
      refine Nested.get_of_get_onEvery (fun inner hinner => ?_) (Nested.get_of_get_retain hv)
      split_ifs at hinner
      · exact lookup_of_lookup_erase hinner
      · exact hinner
    · refine ⟨fun k a member' hm => ?_, fun bucket a v hv => hv⟩
      rw [Nested.get_onInner_replace] at hm
      split_ifs at hm with hka
      · -- the entry with one join less
        obtain ⟨rfl, rfl⟩ := hka
        obtain ⟨_, hold, rfl⟩ := Option.map_eq_some_iff.mp hm
        exact ⟨member, hmember, rfl⟩
      · exact ⟨member', hm, rfl⟩

theorem within_memberAddressesScoped (alive : ActorId → Bool) (key : GroupKey) :
    Within store (store.memberAddressesScoped alive key).2 := by
  simp only [memberAddressesScoped]
  set pruned := store.groups.onInner key fun members => members.retain fun member => alive member.handle
  have hleft : Within store { store with groups := if pruned.vacant key then Table.remove pruned key else pruned } := by
    refine within_of_groups (fun k a member hm => ?_) rfl
    split_ifs at hm
    · exact Nested.get_of_get_onInner_retain (Nested.get_of_get_remove hm)
    · exact Nested.get_of_get_onInner_retain hm
  exact hleft.trans (within_removeGroupIfEmpty _ key)

theorem within_getLocalMembersScoped (alive : ActorId → Bool) (key : GroupKey) :
    Within store (store.getLocalMembersScoped alive key).2 := by
  unfold getLocalMembersScoped
  cases hkey : store.groups key with
  | none => exact Within.refl _
  | some members =>
    simp only [Nested.insert_eq_onInner (fun members => members.retain fun member => alive member.handle) hkey]
    have hpruned : Within store { store with
        groups := store.groups.onInner key fun members => members.retain fun member => alive member.handle } :=
      within_of_groups (fun k a member hm => Nested.get_of_get_onInner_retain hm) rfl
    split_ifs
    · exact hpruned.trans (within_removeGroupIfEmpty _ key)
    · exact hpruned

theorem within_applyJoin (entry : PgEntry) : Within store (store.applyJoin here entry) := by
  unfold applyJoin
  split_ifs
  · exact Within.refl _
  · exact within_of_eq rfl rfl

theorem within_applyRemotePgEvent (event : PgEvent) : Within store (store.applyRemotePgEvent here event) := by
  cases event with
  | join key address => exact within_applyJoin (key, address)
  | leave key address =>
    simp only [applyRemotePgEvent]
    split_ifs
    · exact Within.refl _
    · split
      · exact Within.refl _
      · refine Within.trans ?_ (within_removeRemoteIfEmpty _ key)
        exact within_of_eq rfl rfl
  | snapshot entries =>
    simp only [applyRemotePgEvent]
    induction entries generalizing store with
    | nil => exact Within.refl _
    | cons entry entries ih => exact (within_applyJoin entry).trans ih

end PgTables

/-! ## One step -/

section Steps

variable {V : Type} {here : NodeId} {s s' : PgNode V} {op : PgCall V} {key : GroupKey} {type : TypeId}

/-- The call adds to no table of members. -/
def PgCall.Joinless : PgCall V → Prop
  | .joinScoped .. | .typedJoin .. => False
  | _ => True

/-- Only the joins add entries. -/
theorem PgNode.Step.within (hstep : PgNode.Step here s op s') (hop : op.Joinless) : s.tables.Within s'.tables := by
  unfold PgNode.Step at hstep
  cases op with
  | joinScoped key handle => exact hop.elim
  | typedJoin key type id value => exact hop.elim
  | leaveScoped key id =>
    cases hstep
    exact PgTables.within_leaveScoped key id
  | removeActor id keys =>
    obtain ⟨-, hs'⟩ := Option.ite_none_right_eq_some.mp hstep
    cases hs'
    exact PgTables.within_removeActor _ keys
  | applyRemotePgEvent event =>
    cases hstep
    exact PgTables.within_applyRemotePgEvent event
  | memberAddressesScoped key =>
    cases hstep
    exact PgTables.within_memberAddressesScoped s.alive key
  | getLocalMembersScoped key =>
    cases hstep
    exact PgTables.within_getLocalMembersScoped s.alive key
  | complete id =>
    cases hstep
    exact PgTables.Within.refl _

/-- A typed entry after a step was there before, or the step joined it. -/
theorem PgNode.Step.typed_cases (hstep : PgNode.Step here s op s') {a : ActorAddress} {v : V}
    (h : s'.tables.typed.get (key, type) a = some v) :
    s.tables.typed.get (key, type) a = some v ∨ ∃ id, op = .typedJoin key type id v ∧ a = ⟨here, id⟩ := by
  cases op with
  | joinScoped k handle =>
    cases hstep
    exact Or.inl h
  | typedJoin k t id value =>
    cases hstep
    simp only [PgTables.typedJoin, Nested.get_upsertIn] at h
    split_ifs at h with hkey
    · obtain ⟨hk, rfl⟩ := hkey
      obtain ⟨rfl, rfl⟩ := Prod.mk.inj hk
      have hv : value = v := by cases hget : s.tables.typed.get (key, type) ⟨here, id⟩ <;> simpa [hget] using h
      exact Or.inr ⟨id, by rw [hv], rfl⟩
    · exact Or.inl h
  | _ => exact Or.inl ((hstep.within trivial).typed _ _ _ h)

/-- A member after a step was one before, or the step joined it. -/
theorem PgNode.Step.group_cases (hstep : PgNode.Step here s op s') {a : ActorAddress} {member' : Member}
    (h : s'.tables.groups.get key a = some member') :
    (∃ member, s.tables.groups.get key a = some member ∧ member'.handle = member.handle) ∨
      a = ⟨here, member'.handle⟩ := by
  cases op with
  | joinScoped k handle =>
    cases hstep
    simp only [PgTables.joinScoped, Nested.get_upsertIn] at h
    split_ifs at h with hkey
    · obtain ⟨rfl, rfl⟩ := hkey
      cases hget : s.tables.groups.get key ⟨here, handle⟩ with
      | none =>
        rw [hget] at h
        cases h
        exact Or.inr rfl
      | some member =>
        rw [hget] at h
        cases h
        exact Or.inl ⟨member, rfl, rfl⟩
    · exact Or.inl ⟨member', h, rfl⟩
  | typedJoin k t id value =>
    cases hstep
    exact Or.inl ⟨member', h, rfl⟩
  | _ => exact Or.inl ((hstep.within trivial).groups _ _ _ h)

/-- Every member is under the address of its own actor. -/
theorem handle_of_member {τ : List (PgNode V × PgCall V)} (h : Run (PgNode.Step here) {} τ s) {a : ActorAddress}
    {member : Member} (hm : s.tables.groups.get key a = some member) : a = ⟨here, member.handle⟩ := by
  refine h.inv (I := fun s => ∀ a member, s.tables.groups.get key a = some member → a = ⟨here, member.handle⟩)
    (fun a member hget => by simp [Nested.get] at hget) (fun s op s' hs hstep a member' hget => ?_) a member hm
  rcases hstep.group_cases hget with ⟨member, hbefore, he⟩ | hjoined
  · rw [he]
    exact hs a member hbefore
  · exact hjoined

end Steps

/-! ## Join order -/

section JoinOrder

variable {here : NodeId} {key : GroupKey} {type : TypeId} {τ : List (PgNode ActorId × PgCall ActorId)}
  {s : PgNode ActorId}

/-- `join_scoped` of an actor hands its own id to `typed_join`. -/
def OwnValue : PgCall ActorId → Prop
  | .typedJoin _ _ id value => value = id
  | _ => True

instance : (op : PgCall ActorId) → Decidable (OwnValue op)
  | .typedJoin _ _ id value => inferInstanceAs (Decidable (value = id))
  | .joinScoped .. | .leaveScoped .. | .removeActor .. | .applyRemotePgEvent .. | .memberAddressesScoped ..
  | .getLocalMembersScoped .. | .complete .. => inferInstanceAs (Decidable True)

/-- The actor is in the bucket. -/
def inBucket (here : NodeId) (key : GroupKey) (type : TypeId) (s : PgNode ActorId) (id : ActorId) : Bool :=
  decide (s.tables.typed.Has (key, type) ⟨here, id⟩)

/-- The actor a call puts into the bucket. -/
def arrival (key : GroupKey) (type : TypeId) : PgCall ActorId → Option ActorId
  | .typedJoin k t id _ => if k = key ∧ t = type then some id else none
  | _ => none

/-- The order after one more call: who has left is out of it, and who arrives goes to its end, or stays where it is. -/
def queueUp (here : NodeId) (key : GroupKey) (type : TypeId) (order : List ActorId)
    (x : PgNode ActorId × PgCall ActorId) : List ActorId :=
  let kept := order.filter (inBucket here key type x.1)
  kept ++ (arrival key type x.2).toList.filter fun id => !kept.contains id

/-- The members of a bucket in the order in which they joined, after a history that led to `s`. -/
def joinOrder (here : NodeId) (key : GroupKey) (type : TypeId) (τ : List (PgNode ActorId × PgCall ActorId))
    (s : PgNode ActorId) : List ActorId :=
  (τ.foldl (queueUp here key type) []).filter (inBucket here key type s)

/-- Every value is stored under the address of its own actor. -/
theorem address_of_value (h : Run (PgNode.Step here) {} τ s) (hown : ∀ x ∈ τ, OwnValue x.2) {a : ActorAddress} {id : ActorId}
    (hid : s.tables.typed.get (key, type) a = some id) : a = ⟨here, id⟩ := by
  refine h.inv_of_steps
    (I := fun s => ∀ a id, s.tables.typed.get (key, type) a = some id → a = ⟨here, id⟩) (P := fun _ op => OwnValue op)
    (fun a id hget => by simp [Nested.get] at hget) (fun s op s' hs hop hstep a id hget => ?_) hown a id hid
  rcases hstep.typed_cases hget with hget | ⟨id', rfl, rfl⟩
  · exact hs a id hget
  · obtain rfl : id = id' := hop
    rfl

/-- What the calls have queued up: no actor twice, and every member of the bucket. -/
theorem queued_of_run (h : Run (PgNode.Step here) {} τ s) :
    (τ.foldl (queueUp here key type) []).Nodup ∧
      ∀ id, inBucket here key type s id = true → id ∈ τ.foldl (queueUp here key type) [] := by
  induction h with
  | nil => exact ⟨List.nodup_nil, fun id hid => by simp [inBucket] at hid⟩
  | @snoc τ s op s' hr hstep ih =>
    rw [List.foldl_append, List.foldl_cons, List.foldl_nil]
    set order := τ.foldl (queueUp here key type) []
    refine ⟨?_, fun id hid => ?_⟩
    · refine (ih.1.filter _).append ((List.Nodup.filter _ ?_)) fun id hkept hnew => ?_
      · cases arrival key type op <;> simp
      · simp only [List.mem_filter, Bool.not_eq_true', List.contains_eq_mem, decide_eq_false_iff_not] at hnew
        exact hnew.2 (List.mem_filter.mp hkept)
    · obtain ⟨v, hv⟩ := Nested.has_iff_holds.mp (of_decide_eq_true hid)
      simp only [queueUp, List.mem_append, List.mem_filter]
      rcases hstep.typed_cases (Nested.get_eq_some.mpr hv) with hget | ⟨id', rfl, hid'⟩
      · have hbefore : inBucket here key type s id = true :=
          decide_eq_true (Nested.has_iff_holds.mpr ⟨v, Nested.get_eq_some.mp hget⟩)
        exact Or.inl ⟨ih.2 id hbefore, hbefore⟩
      · obtain rfl : id = id' := congrArg ActorAddress.actorId hid'
        by_cases hkept : id ∈ order ∧ inBucket here key type s id = true
        · exact Or.inl hkept
        · exact Or.inr ⟨by simp [arrival], by simpa [← Bool.not_eq_true, ← not_and_or, -not_and] using hkept⟩

theorem nodup_joinOrder (h : Run (PgNode.Step here) {} τ s) : (joinOrder here key type τ s).Nodup :=
  (queued_of_run h).1.filter _

theorem mem_joinOrder (h : Run (PgNode.Step here) {} τ s) {id : ActorId} :
    id ∈ joinOrder here key type τ s ↔ s.tables.typed.Has (key, type) ⟨here, id⟩ := by
  rw [joinOrder, List.mem_filter, and_iff_right_of_imp fun hid => (queued_of_run h).2 id hid]
  exact decide_eq_true_iff

end JoinOrder

end Spawned
