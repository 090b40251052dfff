import Mathlib.Algebra.Group.Int.Defs
import Mathlib.Algebra.Group.Nat.Defs
import Spawned.Pg.Tables

/-!
# Joins are counted

An actor is in a group as long as it has joined it more often than it has left it, and what one actor does in one group
is nothing to the others, although the clean-up of a group that empties goes through all of the tables.

* `PgTables.Frame P` : the member and typed entries outside `P` are as before (`Frame.trans`); one lemma per operation;
* `joinCount` : the joins less the successful leaves of a history, since the last removal of the actor;
* `Tallied` : the tables hold these counts;
* `joins_are_counted` : what the queries and `leave_scoped` say of them, and which entries a step leaves alone.
-/

namespace Spawned

open Lib

namespace PgTables

variable {V : Type} {here : NodeId} {store store' store'' : PgTables V} {key : GroupKey}

/-! ## Frames -/

/-- The members and the typed entries are the same, save possibly those in `P`. -/
structure Frame (P : GroupKey → ActorAddress → Prop) (store store' : PgTables V) : Prop where
  groups : ∀ k a, ¬P k a → store'.groups.get k a = store.groups.get k a
  typed : ∀ k type a, ¬P k a → store'.typed.get (k, type) a = store.typed.get (k, type) a

variable {P : GroupKey → ActorAddress → Prop}

theorem Frame.refl (store : PgTables V) : Frame P store store := ⟨fun _ _ _ => rfl, fun _ _ _ _ => rfl⟩

/-- The index and the remote members are not in the frame. -/
theorem frame_of_eq (hgroups : store'.groups = store.groups) (htyped : store'.typed = store.typed) :
    Frame P store store' := by
  refine ⟨fun k a _ => ?_, fun k type a _ => ?_⟩
  · rw [hgroups]
  · rw [htyped]

theorem Frame.trans (h : Frame P store store') (h' : Frame P store' store'') : Frame P store store'' :=
  ⟨fun k a hk => (h'.groups k a hk).trans (h.groups k a hk),
    fun k type a hk => (h'.typed k type a hk).trans (h.typed k type a hk)⟩

theorem Frame.mono {Q : GroupKey → ActorAddress → Prop} (h : Frame P store store') (hPQ : ∀ k a, P k a → Q k a) :
    Frame Q store store' :=
  ⟨fun k a hk => h.groups k a fun hp => hk (hPQ k a hp), fun k type a hk => h.typed k type a fun hp => hk (hPQ k a hp)⟩

/-- Clearing a group takes no entry of a group that still has members. -/
theorem frame_removeGroupIfEmpty
    (hpresent : ∀ type a, ¬P key a → store.typed.Has (key, type) a → store.Present key) :
    Frame P store (store.removeGroupIfEmpty key) := by
  simp only [removeGroupIfEmpty, Bool.and_eq_true]
  split_ifs with hempty hlocal hremote
  · refine ⟨fun k a _ => Nested.get_remove_vacant hempty.1, fun k type a hk => Nested.get_retain fun bucket hb ha => ?_⟩
    split_ifs with hkey
    · -- an entry outside `P` has a member of the group behind it, but there is none
      obtain rfl : k = key := hkey
      exact absurd (hpresent type a hk ⟨bucket, hb, ha⟩) (not_present_iff.mpr hempty)
    · rw [Bool.not_eq_true', Inner.isEmpty_eq_false_iff]
      exact ⟨a, ha⟩
  · exact ⟨fun k a _ => Nested.get_remove_vacant hlocal, fun _ _ _ _ => rfl⟩
  · exact frame_of_eq rfl rfl
  · exact Frame.refl _

theorem frame_removeRemoteIfEmpty
    (hpresent : ∀ type a, ¬P key a → store.typed.Has (key, type) a → ∃ b, store.groups.Has key b) :
    Frame P store (store.removeRemoteIfEmpty key) := by
  simp only [removeRemoteIfEmpty]
  split_ifs
  · have hremote : Frame P store { store with remote := store.remote.remove key } := frame_of_eq rfl rfl
    exact hremote.trans (frame_removeGroupIfEmpty fun type a hk ha => Or.inl (hpresent type a hk ha))
  · exact frame_removeGroupIfEmpty fun type a hk ha => Or.inl (hpresent type a hk ha)

/-! ### The operations -/

/-- This actor in this group. -/
def At (key : GroupKey) (address : ActorAddress) (k : GroupKey) (a : ActorAddress) : Prop := k = key ∧ a = address

/-- No entry at all. -/
def Nowhere (_ : GroupKey) (_ : ActorAddress) : Prop := False

theorem frame_joinScoped (handle : ActorId) :
    Frame (At key ⟨here, handle⟩) store (store.joinScoped here key handle) :=
  ⟨fun _ _ hk => Nested.get_upsertIn.trans (if_neg hk), fun _ _ _ _ => rfl⟩

theorem frame_typedJoin (type : TypeId) (address : ActorAddress) (value : V) :
    Frame (At key address) store (store.typedJoin key type address value) := by
  refine ⟨fun _ _ _ => rfl, fun k type' a hk => Nested.get_upsertIn.trans (if_neg ?_)⟩
  rintro ⟨he, ha⟩
  exact hk ⟨(Prod.mk.inj he).1, ha⟩

theorem frame_applyJoin (entry : PgEntry) : Frame P store (store.applyJoin here entry) := by
  unfold applyJoin
  split
  · exact Frame.refl _
  · exact frame_of_eq rfl rfl

/-- Every typed entry outside `P` is of a member. -/
def BucketedBut (P : GroupKey → ActorAddress → Prop) (store : PgTables V) : Prop :=
  ∀ k type a, ¬P k a → store.typed.Has (k, type) a → store.groups.Has k a

theorem Sound.bucketedBut (h : store.Sound here) : BucketedBut P store := fun k type a _ ha => h.bucketed k type a ha

/-- The entries outside `P` are what they were. -/
theorem BucketedBut.frame (h : BucketedBut P store) (hframe : Frame P store store') : BucketedBut P store' := by
  intro k type a hk ha
  by_contra hnot
  rw [← Nested.get_eq_none, hframe.groups k a hk, Nested.get_eq_none] at hnot
  refine hnot (h k type a hk ?_)
  by_contra hnone
  rw [← Nested.get_eq_none, ← hframe.typed k type a hk, Nested.get_eq_none] at hnone
  exact hnone ha

theorem BucketedBut.applyRemotePgEvent (h : BucketedBut P store) (event : PgEvent) :
    Frame P store (store.applyRemotePgEvent here event) := by
  cases event with
  | join key address => exact frame_applyJoin (key, address)
  | leave key address =>
    simp only [PgTables.applyRemotePgEvent]
    split_ifs
    · exact Frame.refl _
    · split
      · exact Frame.refl _
      · -- the local members of the group are as they were
        next member _ =>
        set left : PgTables V := { store with
          remote := if (if member.joins = 0 then 0 else member.joins - 1) = 0 then
              store.remote.onInner key fun members => members.erase address
            else store.remote.onInner key fun members => members.replace address
              { member with joins := if member.joins = 0 then 0 else member.joins - 1 } }
        have hleft : Frame P store left := frame_of_eq rfl rfl
        exact hleft.trans (frame_removeRemoteIfEmpty fun type a hk ha => ⟨a, h key type a hk ha⟩)
  | snapshot entries =>
    simp only [PgTables.applyRemotePgEvent]
    clear h
    induction entries generalizing store with
    | nil => exact Frame.refl _
    | cons entry entries ih => exact (frame_applyJoin entry).trans ih

theorem BucketedBut.leaveScoped (h : BucketedBut P store) {key : GroupKey} {id : ActorId} (hP : P key ⟨here, id⟩) :
    Frame P store (store.leaveScoped here key id).2 := by
  have hother : ∀ k a, ¬P k a → ¬(k = key ∧ a = ⟨here, id⟩) := by
    rintro k a hk ⟨rfl, rfl⟩
    exact hk hP
  simp only [PgTables.leaveScoped]
  split
  · exact Frame.refl _
  · split_ifs
    · set left : PgTables V := { store with groups := store.groups.onInner key fun members => members.erase ⟨here, id⟩ }
      have hleft : Frame P store left :=
        ⟨fun k a hk => Nested.get_onInner_erase.trans (if_neg (hother k a hk)), fun _ _ _ _ => rfl⟩
      have hcleared : Frame P left (left.removeGroupIfEmpty key) :=
        frame_removeGroupIfEmpty fun type a hk ha => Or.inl ⟨a, h.frame hleft key type a hk ha⟩
      refine (hleft.trans hcleared).trans ⟨fun _ _ _ => rfl, fun k type a hk => ?_⟩
      refine Nested.get_dropEmpty.trans (Nested.get_onEvery fun bucket _ => ?_)
      split_ifs with hkey
      · exact AList.lookup_erase_ne fun ha => hother k a hk ⟨hkey, ha⟩
      · rfl
    · exact ⟨fun k a hk => Nested.get_onInner_replace.trans (if_neg (hother k a hk)), fun _ _ _ _ => rfl⟩

/-- The entries of this actor. -/
def Of (address : ActorAddress) (_ : GroupKey) (a : ActorAddress) : Prop := a = address

theorem BucketedBut.removeFromGroup {address : ActorAddress} (h : BucketedBut P store) (hP : ∀ k, P k address) :
    Frame P store (store.removeFromGroup address key) := by
  set left : PgTables V :=
    { store with
      groups := store.groups.onInner key fun members => members.erase address
      remote := store.remote.onInner key fun members => members.erase address }
  have hleft : Frame P store left := by
    refine ⟨fun k a hk => Nested.get_onInner_erase.trans (if_neg ?_), fun _ _ _ _ => rfl⟩
    rintro ⟨-, rfl⟩
    exact hk (hP k)
  exact hleft.trans (frame_removeGroupIfEmpty fun type a hk ha => Or.inl ⟨a, h.frame hleft key type a hk ha⟩)

theorem BucketedBut.removeActor {address : ActorAddress} (h : BucketedBut P store) (hP : ∀ k, P k address)
    (keys : List GroupKey) : Frame P store (store.removeActor address keys) := by
  have hloop : ∀ store : PgTables V, BucketedBut P store →
      Frame P store (keys.foldl (PgTables.removeFromGroup address) store) := by
    induction keys with
    | nil => exact fun store _ => Frame.refl _
    | cons key keys ih =>
      intro store h
      have hfirst : Frame P store (store.removeFromGroup address key) := h.removeFromGroup hP
      exact hfirst.trans (ih _ (h.frame hfirst))
  have hindex : Frame P store { store with index := store.index.remove address } := frame_of_eq rfl rfl
  refine (hindex.trans (hloop _ (h.frame hindex))).trans ⟨fun _ _ _ => rfl, fun k type a hk => ?_⟩
  refine Nested.get_dropEmpty.trans (Nested.get_onEvery fun bucket _ => AList.lookup_erase_ne ?_)
  rintro rfl
  exact hk (hP k)

/-! ### Queries -/

/-- The members of the group are alive. -/
def AllAlive (alive : ActorId → Bool) (key : GroupKey) (store : PgTables V) : Prop :=
  ∀ address member, store.groups.Holds key address member → alive member.handle = true

section Queries

variable {alive : ActorId → Bool}

theorem frame_prune (halive : ∀ a member, ¬P key a → store.groups.Holds key a member → alive member.handle = true) :
    Frame P store { store with
      groups := store.groups.onInner key fun members => members.retain fun member => alive member.handle } := by
  refine ⟨fun k a hk => ?_, fun _ _ _ _ => rfl⟩
  by_cases hkey : k = key
  · subst hkey
    exact Nested.get_onInner_retain_of_holds fun member hmember => halive a member hk hmember
  · rw [Nested.get_onInner, if_neg hkey]

/-- Clearing the group keeps what is alive outside `P`. -/
theorem BucketedBut.memberAddressesScoped (h : BucketedBut P store)
    (halive : ∀ a member, ¬P key a → store.groups.Holds key a member → alive member.handle = true) :
    Frame P store (store.memberAddressesScoped alive key).2 := by
  have hprune := frame_prune halive
  simp only [PgTables.memberAddressesScoped]
  split_ifs with hvacant
  · set left : PgTables V := { store with
      groups := Table.remove
        (store.groups.onInner key fun members => members.retain fun member => alive member.handle) key }
    have hleft : Frame P store left :=
      hprune.trans ⟨fun _ _ _ => Nested.get_remove_vacant hvacant, fun _ _ _ _ => rfl⟩
    exact hleft.trans (frame_removeGroupIfEmpty fun type a hk ha => Or.inl ⟨a, h.frame hleft key type a hk ha⟩)
  · exact hprune.trans (frame_removeGroupIfEmpty fun type a hk ha => Or.inl ⟨a, h.frame hprune key type a hk ha⟩)

theorem BucketedBut.getLocalMembersScoped (h : BucketedBut P store)
    (halive : ∀ a member, ¬P key a → store.groups.Holds key a member → alive member.handle = true) :
    Frame P store (store.getLocalMembersScoped alive key).2 := by
  have hprune := frame_prune halive
  unfold PgTables.getLocalMembersScoped
  cases hkey : store.groups key with
  | none => exact Frame.refl _
  | some members =>
    simp only [Nested.insert_eq_onInner (fun members => members.retain fun member => alive member.handle) hkey]
    split_ifs
    · exact hprune.trans (frame_removeGroupIfEmpty fun type a hk ha => Or.inl ⟨a, h.frame hprune key type a hk ha⟩)
    · exact hprune

end Queries

/-- The query returns the members that are alive. -/
theorem mem_getLocalMembersScoped {alive : ActorId → Bool} {id : ActorId} :
    id ∈ (store.getLocalMembersScoped alive key).1 ↔
      ∃ address member, store.groups.Holds key address member ∧ alive member.handle = true ∧ member.handle = id := by
  unfold PgTables.getLocalMembersScoped
  cases hkey : store.groups key with
  | none => simp [Nested.Holds, hkey]
  | some members =>
    have hentry : ∀ address member, store.groups.Holds key address member ∧ alive member.handle = true ↔
        Sigma.mk address member ∈ (members.retain fun member => alive member.handle).entries := by
      intro address member
      rw [← AList.mem_lookup_iff, Option.mem_def, Inner.lookup_retain]
      simp [Nested.Holds, hkey]
    simp only [← and_assoc, hentry]
    split_ifs with hempty
    · rw [Inner.isEmpty, List.isEmpty_iff] at hempty
      simp [hempty]
    · rw [List.mem_map]
      constructor
      · rintro ⟨⟨address, member⟩, hmem, hid⟩
        exact ⟨address, member, hmem, hid⟩
      · rintro ⟨address, member, hmem, hid⟩
        exact ⟨⟨address, member⟩, hmem, hid⟩

/-! ## What `leave_scoped` and the joins do to the entry itself -/

theorem leaveScoped_of_none {id : ActorId} (h : store.groups.get key ⟨here, id⟩ = none) :
    store.leaveScoped here key id = (.error (.notJoined id key.group key.scope), store) := by
  unfold Nested.get at h
  simp only [PgTables.leaveScoped, h]

theorem leaveScoped_of_some {id : ActorId} {member : Member} (h : store.groups.get key ⟨here, id⟩ = some member) :
    (store.leaveScoped here key id).1 = .ok () ∧
      (store.leaveScoped here key id).2.groups.get key ⟨here, id⟩ =
        if member.joins - 1 = 0 then none else some { member with joins := member.joins - 1 } := by
  have hmember := h
  unfold Nested.get at h
  simp only [PgTables.leaveScoped, h]
  split_ifs with hzero
  · refine ⟨rfl, Nested.get_eq_none.mpr fun hhas => ?_⟩
    have hleft := ((cleared_removeGroupIfEmpty _ key).groups key ⟨here, id⟩).mp hhas
    exact (Nested.has_onInner_erase.mp hleft).2 ⟨rfl, rfl⟩
  · refine ⟨rfl, Nested.get_onInner_replace.trans ?_⟩
    rw [if_pos ⟨rfl, rfl⟩, hmember, Option.map_some]

theorem get_joinScoped (handle : ActorId) :
    (store.joinScoped here key handle).groups.get key ⟨here, handle⟩ =
      some ((store.groups.get key ⟨here, handle⟩).elim ⟨handle, 1⟩
        fun member => { member with joins := member.joins + 1 }) :=
  Nested.get_upsertIn.trans (if_pos ⟨rfl, rfl⟩)

end PgTables

/-! ## Runs -/

section Runs

open PgTables

variable {V : Type} {here : NodeId}

/-- Actors stay alive until they are removed: the index lists no groups of one that completes, and it joins none any more.
A typed join is of a member. -/
def Proper (here : NodeId) (s : PgNode V) : PgCall V → Prop
  | .joinScoped _ handle => s.alive handle = true
  | .typedJoin key _ id _ => s.tables.groups.Has key ⟨here, id⟩
  | .complete id => s.tables.groupsOf ⟨here, id⟩ = []
  | _ => True

instance (here : NodeId) (s : PgNode V) : (op : PgCall V) → Decidable (Proper here s op)
  | .joinScoped _ handle => inferInstanceAs (Decidable (s.alive handle = true))
  | .typedJoin key _ id _ => inferInstanceAs (Decidable (s.tables.groups.Has key ⟨here, id⟩))
  | .complete id => inferInstanceAs (Decidable (s.tables.groupsOf ⟨here, id⟩ = []))
  | .leaveScoped .. | .removeActor .. | .applyRemotePgEvent .. | .memberAddressesScoped .. | .getLocalMembersScoped .. =>
    inferInstanceAs (Decidable True)

/-- The entries an operation is about; those of peers and the queries are about none of this node. -/
def PgCall.Touches (here : NodeId) : PgCall V → GroupKey → ActorAddress → Prop
  | .joinScoped key handle => At key ⟨here, handle⟩
  | .typedJoin key _ id _ => At key ⟨here, id⟩
  | .leaveScoped key id => At key ⟨here, id⟩
  | .removeActor id _ => Of ⟨here, id⟩
  | _ => Nowhere

/-- How a step changes the count of an actor in a group. -/
def tally (here : NodeId) (key : GroupKey) (id : ActorId) (n : Int) (x : PgNode V × PgCall V) : Int :=
  match x.2 with
  | .joinScoped k handle => if k = key ∧ handle = id then n + 1 else n
  | .leaveScoped k i => if (k = key ∧ i = id) ∧ (x.1.tables.leaveScoped here k i).1 = .ok () then n - 1 else n
  | .removeActor i _ => if i = id then 0 else n
  | _ => n

/-- The joins less the successful leaves of the actor since it was last removed. -/
def joinCount (here : NodeId) (key : GroupKey) (id : ActorId) (τ : List (PgNode V × PgCall V)) : Int :=
  τ.foldl (tally here key id) 0

/-- All its joins. -/
def joinsMade (key : GroupKey) (id : ActorId) (τ : List (PgNode V × PgCall V)) : Nat :=
  τ.countP fun x =>
    match x.2 with
    | .joinScoped k handle => k = key && handle = id
    | _ => false

@[simp] theorem joinCount_snoc (key : GroupKey) (id : ActorId) (τ : List (PgNode V × PgCall V))
    (x : PgNode V × PgCall V) : joinCount here key id (τ ++ [x]) = tally here key id (joinCount here key id τ) x := by
  simp [joinCount]

/-- What a member entry says of the count. -/
def Entry (id : ActorId) (n : Int) : Option Member → Prop
  | none => n = 0
  | some member => member.handle = id ∧ 0 < n ∧ (member.joins.toNat : Int) = n

/-- The tables hold the counts of the history, and members are alive. -/
structure Tallied (here : NodeId) (τ : List (PgNode V × PgCall V)) (s : PgNode V) : Prop where
  sound : s.tables.Sound here
  entry : ∀ key id, Entry id (joinCount here key id τ) (s.tables.groups.get key ⟨here, id⟩)
  below : ∀ key id, joinCount here key id τ ≤ joinsMade key id τ
  alive : ∀ key id, s.tables.groups.Has key ⟨here, id⟩ → s.alive id = true

/-- Every member entry is of an actor of this node, under its own id. -/
theorem Tallied.holds {τ : List (PgNode V × PgCall V)} {s : PgNode V} (h : Tallied here τ s) {key : GroupKey}
    {address : ActorAddress} {member : Member} (hm : s.tables.groups.Holds key address member) :
    address = ⟨here, member.handle⟩ := by
  obtain ⟨node, id⟩ := address
  obtain rfl : node = here := h.sound.own key ⟨node, id⟩ (Nested.has_iff_holds.mpr ⟨member, hm⟩)
  have hentry := h.entry key id
  rw [Nested.get_eq_some.mpr hm] at hentry
  rw [hentry.1]

theorem Tallied.allAlive {τ : List (PgNode V × PgCall V)} {s : PgNode V} (h : Tallied here τ s) (key : GroupKey) :
    AllAlive s.alive key s.tables := by
  intro address member hm
  have hown := h.holds hm
  refine h.alive key member.handle (hown ▸ Nested.has_iff_holds.mpr ⟨member, hm⟩)

/-! ### One step -/

/-- A proper step leaves the entries alone that it is not about. -/
theorem Tallied.frame {τ : List (PgNode V × PgCall V)} {s s' : PgNode V} {op : PgCall V} (h : Tallied here τ s)
    (hstep : PgNode.Step here s op s') : Frame (op.Touches here) s.tables s'.tables := by
  unfold PgNode.Step at hstep
  cases op with
  | joinScoped key handle =>
    cases hstep
    exact frame_joinScoped handle
  | typedJoin key type id value =>
    cases hstep
    exact frame_typedJoin type ⟨here, id⟩ value
  | leaveScoped key id =>
    cases hstep
    exact h.sound.bucketedBut.leaveScoped ⟨rfl, rfl⟩
  | removeActor id keys =>
    obtain ⟨-, hs'⟩ := Option.ite_none_right_eq_some.mp hstep
    cases hs'
    have hof : ∀ k, Of ⟨here, id⟩ k ⟨here, id⟩ := fun _ => rfl
    exact h.sound.bucketedBut.removeActor hof keys
  | applyRemotePgEvent event =>
    cases hstep
    exact h.sound.bucketedBut.applyRemotePgEvent event
  | memberAddressesScoped key =>
    cases hstep
    exact h.sound.bucketedBut.memberAddressesScoped fun a member _ hm => h.allAlive key a member hm
  | getLocalMembersScoped key =>
    cases hstep
    exact h.sound.bucketedBut.getLocalMembersScoped fun a member _ hm => h.allAlive key a member hm
  | complete id =>
    cases hstep
    exact Frame.refl _

/-- A proper step is clean: the queries find no dead member. -/
theorem Tallied.clean {τ : List (PgNode V × PgCall V)} {s : PgNode V} {op : PgCall V} (h : Tallied here τ s)
    (hproper : Proper here s op) : Clean here s op := by
  cases op with
  | typedJoin key type id value => exact hproper
  | memberAddressesScoped key => exact Or.inl (h.allAlive key)
  | getLocalMembersScoped key => exact Or.inl (h.allAlive key)
  | _ => trivial

/-- What a step is not about keeps its count. -/
theorem tally_of_not_touches {key : GroupKey} {id : ActorId} {n : Int} {s : PgNode V} {op : PgCall V}
    (h : ¬op.Touches here key ⟨here, id⟩) : tally here key id n (s, op) = n := by
  cases op with
  | joinScoped k handle =>
    refine if_neg ?_
    rintro ⟨rfl, rfl⟩
    exact h ⟨rfl, rfl⟩
  | leaveScoped k i =>
    refine if_neg ?_
    rintro ⟨⟨rfl, rfl⟩, -⟩
    exact h ⟨rfl, rfl⟩
  | removeActor i keys =>
    refine if_neg ?_
    rintro rfl
    exact h rfl
  | _ => rfl

theorem Entry.nonneg {id : ActorId} {n : Int} {e : Option Member} (h : Entry id n e) : 0 ≤ n := by
  cases e with
  | none => exact h.ge
  | some member => exact h.2.1.le

/-- One more join, while the counter has room. -/
theorem Entry.join {id : ActorId} {n : Int} {e : Option Member} (h : Entry id n e) (hlt : n + 1 < 2 ^ 32) :
    Entry id (n + 1) (some (e.elim ⟨id, 1⟩ fun member => { member with joins := member.joins + 1 })) := by
  cases e with
  | none =>
    obtain rfl : n = 0 := h
    exact ⟨rfl, by decide, rfl⟩
  | some member =>
    obtain ⟨hid, hpos, hjoins⟩ := h
    refine ⟨hid, by omega, ?_⟩
    show ((member.joins + 1).toNat : Int) = n + 1
    have hroom : member.joins.toNat + 1 < 2 ^ 32 := by omega
    rw [UInt32.toNat_add, UInt32.toNat_one, Nat.mod_eq_of_lt hroom]
    omega

/-- One leave less: the entry goes with the last. -/
theorem Entry.leave {id : ActorId} {n : Int} {member : Member} (h : Entry id n (some member)) :
    Entry id (n - 1) (if member.joins - 1 = 0 then none else some { member with joins := member.joins - 1 }) := by
  obtain ⟨hid, hpos, hjoins⟩ := h
  have hle : (1 : UInt32) ≤ member.joins := by
    rw [UInt32.le_iff_toNat_le, UInt32.toNat_one]
    omega
  have hsub : (member.joins - 1).toNat = member.joins.toNat - 1 := UInt32.toNat_sub_of_le _ _ hle
  split_ifs with hzero
  · rw [hzero, UInt32.toNat_zero] at hsub
    show n - 1 = 0
    omega
  · have hne : (member.joins - 1).toNat ≠ 0 := fun he => hzero (UInt32.toNat_inj.mp he)
    refine ⟨hid, by omega, ?_⟩
    show ((member.joins - 1).toNat : Int) = n - 1
    omega

section Step

variable {τ : List (PgNode V × PgCall V)} {s s' : PgNode V} {op : PgCall V}

theorem tally_le {key : GroupKey} {id : ActorId} {n : Int} (hn : 0 ≤ n) (x : PgNode V × PgCall V) :
    tally here key id n x ≤ n + joinsMade key id [x] := by
  obtain ⟨s, op⟩ := x
  cases op with
  | joinScoped k handle =>
    simp only [tally, joinsMade, List.countP_singleton]
    split_ifs with hk hmade <;> simp_all
  | leaveScoped k i =>
    simp only [tally]
    split_ifs <;> omega
  | removeActor i keys =>
    simp only [tally]
    split_ifs <;> omega
  | _ =>
    simp only [tally]
    omega

/-- The entry an operation is about follows its count. -/
theorem Tallied.entry_step (h : Tallied here τ s) (hstep : PgNode.Step here s op s')
    (hjoins : ∀ key id, joinsMade key id (τ ++ [(s, op)]) < 2 ^ 32) (key : GroupKey) (id : ActorId) :
    Entry id (joinCount here key id (τ ++ [(s, op)])) (s'.tables.groups.get key ⟨here, id⟩) := by
  rw [joinCount_snoc]
  have hentry := h.entry key id
  by_cases htouches : op.Touches here key ⟨here, id⟩
  · unfold PgNode.Step at hstep
    cases op with
    | joinScoped k handle =>
      cases hstep
      obtain ⟨rfl, he⟩ := htouches
      obtain rfl : id = handle := (ActorAddress.mk.inj he).2
      have hroom := hjoins key id
      have hbelow := h.below key id
      simp only [joinsMade, List.countP_append, List.countP_singleton] at hroom hbelow
      simp only [tally, and_self, if_true, get_joinScoped]
      refine hentry.join ?_
      simp at hroom
      omega
    | typedJoin k type i value =>
      cases hstep
      exact hentry
    | leaveScoped k i =>
      cases hstep
      obtain ⟨rfl, he⟩ := htouches
      obtain rfl : id = i := (ActorAddress.mk.inj he).2
      simp only [tally, true_and]
      cases hget : s.tables.groups.get key ⟨here, id⟩ with
      | none =>
        rw [hget] at hentry
        simp only [leaveScoped_of_none hget, hget]
        simpa using hentry
      | some member =>
        rw [hget] at hentry
        obtain ⟨hok, hleft⟩ := leaveScoped_of_some hget
        rw [hleft, hok, if_pos rfl]
        exact hentry.leave
    | removeActor i keys =>
      obtain ⟨hkeys, hs'⟩ := Option.ite_none_right_eq_some.mp hstep
      cases hs'
      obtain rfl : id = i := (ActorAddress.mk.inj htouches).2
      rw [Nested.get_eq_none.mpr (h.sound.not_has_removeActor hkeys key)]
      exact if_pos rfl
    | _ => cases htouches
  · rw [tally_of_not_touches htouches, (h.frame hstep).groups key _ htouches]
    exact hentry

/-- A proper step keeps members alive. -/
theorem Tallied.alive_step (h : Tallied here τ s) (hproper : Proper here s op) (hstep : PgNode.Step here s op s')
    (key : GroupKey) (id : ActorId) (hhas : s'.tables.groups.Has key ⟨here, id⟩) : s'.alive id = true := by
  have hbefore : ¬op.Touches here key ⟨here, id⟩ → s.tables.groups.Has key ⟨here, id⟩ := by
    intro htouches
    by_contra hnot
    rw [← Nested.get_eq_none, ← (h.frame hstep).groups key _ htouches, Nested.get_eq_none] at hnot
    exact hnot hhas
  unfold PgNode.Step at hstep
  by_cases htouches : op.Touches here key ⟨here, id⟩
  · cases op with
    | joinScoped k handle =>
      cases hstep
      obtain ⟨-, he⟩ := htouches
      obtain rfl : id = handle := (ActorAddress.mk.inj he).2
      exact hproper
    | typedJoin k type i value =>
      cases hstep
      exact h.alive key id hhas
    | leaveScoped k i =>
      cases hstep
      obtain ⟨rfl, he⟩ := htouches
      obtain rfl : id = i := (ActorAddress.mk.inj he).2
      refine h.alive key id ?_
      by_contra hnot
      simp only [leaveScoped_of_none (Nested.get_eq_none.mpr hnot)] at hhas
      exact hnot hhas
    | removeActor i keys =>
      obtain ⟨hkeys, hs'⟩ := Option.ite_none_right_eq_some.mp hstep
      cases hs'
      obtain rfl : id = i := (ActorAddress.mk.inj htouches).2
      exact absurd hhas (h.sound.not_has_removeActor hkeys key)
    | _ => cases htouches
  · have halive := h.alive key id (hbefore htouches)
    cases op with
    | complete i =>
      cases hstep
      have hne : id ≠ i := by
        rintro rfl
        have hmem : key ∈ s.tables.groupsOf ⟨here, id⟩ := mem_groupsOf.mpr ((h.sound.indexed key ⟨here, id⟩).mp hhas)
        rw [show s.tables.groupsOf ⟨here, id⟩ = [] from hproper] at hmem
        cases hmem
      simpa [PgNode.alive, hne] using halive
    | removeActor i keys =>
      obtain ⟨-, hs'⟩ := Option.ite_none_right_eq_some.mp hstep
      cases hs'
      exact halive
    | _ =>
      cases hstep
      exact halive

theorem Tallied.step (h : Tallied here τ s) (hproper : Proper here s op) (hstep : PgNode.Step here s op s')
    (hjoins : ∀ key id, joinsMade key id (τ ++ [(s, op)]) < 2 ^ 32) : Tallied here (τ ++ [(s, op)]) s' := by
  refine ⟨hstep.sound h.sound (h.clean hproper), h.entry_step hstep hjoins, fun key id => ?_, h.alive_step hproper hstep⟩
  have hone : tally here key id (joinCount here key id τ) (s, op) ≤ _ := tally_le (h.entry key id).nonneg (s, op)
  have hbelow := h.below key id
  rw [joinCount_snoc]
  simp only [joinsMade, List.countP_append] at hone hbelow ⊢
  omega

end Step

theorem counted_run {τ : List (PgNode V × PgCall V)} {s : PgNode V} (h : Run (PgNode.Step here) {} τ s)
    (hproper : ∀ x ∈ τ, Proper here x.1 x.2) (hjoins : ∀ key id, joinsMade key id τ < 2 ^ 32) : Tallied here τ s := by
  induction h with
  | nil =>
    refine ⟨sound_empty, fun key id => rfl, fun key id => le_refl _, fun key id hhas => ?_⟩
    exact absurd hhas Nested.not_has_empty
  | @snoc τ s op s' _ hstep ih =>
    refine (ih (fun x hx => hproper x (by simp [hx])) fun key id => ?_).step (hproper (s, op) (by simp)) hstep hjoins
    have hall := hjoins key id
    rw [joinsMade, List.countP_append] at hall
    exact lt_of_le_of_lt (Nat.le_add_right _ _) hall

/-- **Joins are counted.** After any run of joins, leaves, removals and events of peers, with fewer than `2 ^ 32` joins of
each actor in each group: the local members of a group are the actors whose count is positive; a leave fails exactly if
the count is zero, and changes nothing then; and a next step changes no member and no typed entry it is not about. -/
theorem joins_are_counted (here : NodeId) (τ : List (PgNode V × PgCall V)) (s : PgNode V)
    (h : Run (PgNode.Step here) {} τ s) (hproper : ∀ x ∈ τ, Proper here x.1 x.2)
    (hjoins : ∀ key id, joinsMade key id τ < 2 ^ 32) :
    (∀ key id, id ∈ (s.tables.getLocalMembersScoped s.alive key).1 ↔ 0 < joinCount here key id τ) ∧
      (∀ key id, (s.tables.leaveScoped here key id).1 = .error (.notJoined id key.group key.scope) ↔
        joinCount here key id τ = 0) ∧
      (∀ key id, joinCount here key id τ = 0 → (s.tables.leaveScoped here key id).2 = s.tables) ∧
      ∀ op s', PgNode.Step here s op s' → Frame (op.Touches here) s.tables s'.tables := by
  have hcounted := counted_run h hproper hjoins
  -- the count is positive exactly where there is an entry
  have hnone : ∀ key id, joinCount here key id τ = 0 ↔ s.tables.groups.get key ⟨here, id⟩ = none := by
    intro key id
    have hentry := hcounted.entry key id
    cases hget : s.tables.groups.get key ⟨here, id⟩ with
    | none =>
      rw [hget] at hentry
      exact iff_of_true hentry rfl
    | some member =>
      rw [hget] at hentry
      exact iff_of_false hentry.2.1.ne' (by simp)
  refine ⟨fun key id => ?_, fun key id => ?_, fun key id hzero => ?_, fun op s' hstep => hcounted.frame hstep⟩
  · rw [mem_getLocalMembersScoped, (hcounted.entry key id).nonneg.lt_iff_ne', ne_eq, hnone, Nested.get_eq_none, not_not,
      Nested.has_iff_holds]
    constructor
    · rintro ⟨address, member, hm, -, rfl⟩
      exact ⟨member, hcounted.holds hm ▸ hm⟩
    · rintro ⟨member, hm⟩
      refine ⟨⟨here, id⟩, member, hm, hcounted.allAlive key _ _ hm, ?_⟩
      exact (ActorAddress.mk.inj (hcounted.holds hm)).2.symm
  · cases hget : s.tables.groups.get key ⟨here, id⟩ with
    | none => exact iff_of_true (by rw [leaveScoped_of_none hget]) ((hnone key id).mpr hget)
    | some member =>
      refine iff_of_false ?_ fun hzero => ?_
      · rw [(leaveScoped_of_some hget).1]
        exact fun he => nomatch he
      · rw [(hnone key id).mp hzero] at hget
        cases hget
  · rw [leaveScoped_of_none ((hnone key id).mp hzero)]

/-- Two joins and a leave of one actor, beside another in the same group with a typed entry and a member elsewhere, who
leaves; then the other one is removed and completes. -/
theorem joins_are_counted_twice :
    ∃ τ s, Run (PgNode.Step "n1") ({} : PgNode Unit) τ s ∧
      τ.map (·.2) = [.joinScoped ⟨"default", "g"⟩ 1, .joinScoped ⟨"default", "g"⟩ 1, .joinScoped ⟨"default", "g"⟩ 2,
        .typedJoin ⟨"default", "g"⟩ "A" 2 (), .applyRemotePgEvent (.join ⟨"default", "g"⟩ ⟨"n2", 1⟩),
        .leaveScoped ⟨"default", "g"⟩ 1, .applyRemotePgEvent (.leave ⟨"default", "g"⟩ ⟨"n2", 1⟩),
        .removeActor 2 [⟨"default", "g"⟩], .complete 2] ∧
      1 ∈ (s.tables.getLocalMembersScoped s.alive ⟨"default", "g"⟩).1 ∧
      2 ∉ (s.tables.getLocalMembersScoped s.alive ⟨"default", "g"⟩).1 := by
  have hrun : Run (PgNode.Step "n1") ({} : PgNode Unit) _ _ := run_tryPlay (PgNode.next "n1") {}
    [.joinScoped ⟨"default", "g"⟩ 1, .joinScoped ⟨"default", "g"⟩ 1, .joinScoped ⟨"default", "g"⟩ 2,
      .typedJoin ⟨"default", "g"⟩ "A" 2 (), .applyRemotePgEvent (.join ⟨"default", "g"⟩ ⟨"n2", 1⟩),
      .leaveScoped ⟨"default", "g"⟩ 1, .applyRemotePgEvent (.leave ⟨"default", "g"⟩ ⟨"n2", 1⟩),
      .removeActor 2 [⟨"default", "g"⟩], .complete 2] (by decide)
  have hmembers := (joins_are_counted "n1" _ _ hrun (by decide)
    fun key id => lt_of_le_of_lt List.countP_le_length (by decide)).1
  exact ⟨_, _, hrun, rfl, (hmembers _ _).mpr (by decide), fun hmem => absurd ((hmembers _ _).mp hmem) (by decide)⟩

end Runs

end Spawned
