import Spawned.Pg.Federation

/-!
# Joins and the exit of an actor

An actor exits through `remove_actor` and then completes. Others may be joining it to groups at the time: whoever started
it (`ChildSpec::worker`), through `pg::join_scoped` or through the typed join, which takes the lock of the store twice.

* `ExitStep` : any number of join calls on one actor, its exit, and whatever else happens to the store of its node;
* `Timely` : a join writes before the exit reads the index, of an actor not in the group;
* `forgotten_on_exit` : then nothing is left of the actor, here and at the peers.
-/

namespace Spawned

open Lib

/-! ## The system -/

/-- Where a call of a join is: `join_scoped`, and after it `typed_join` where the call is a typed one. -/
inductive JoinPc
  | join
  | typedJoin
  | returned
deriving DecidableEq, Repr

structure JoinCall where
  key : GroupKey
  type : Option TypeId
  pc : JoinPc
deriving DecidableEq, Repr

/-- Where the exit of the actor is: `remove_actor` reads its groups from the index, removes it from the store, publishes
its leaves one by one; then the actor completes. -/
inductive RemovePc
  | running
  | removing (leaves : List GroupKey)
  | publishing (leaves : List GroupKey)
  | completed
deriving DecidableEq, Repr

/-- The node of the actor with a peer, the calls that join the actor, and its exit. -/
structure ExitState where
  fed : Federation := {}
  calls : List JoinCall := []
  exit : RemovePc := .running

/-- The node's store, and what was published. -/
def ExitState.write (s : ExitState) (store : PgStore) (events : List PgEvent) : ExitState :=
  { s with fed := { s.fed with owner := store, queue := s.fed.queue ++ events } }

inductive ExitAct
  | call (key : GroupKey) (type : Option TypeId)
  | join (i : Nat)
  | typedJoin (i : Nat)
  | readIndex
  | remove
  | publishLeave
  | complete
  | fed (act : FedAct)
  | otherTypedJoin (key : GroupKey) (type : TypeId) (id : ActorId)
  | getLocalMembers (key : GroupKey)
  | memberAddresses (key : GroupKey)
  | remoteEvent (event : PgEvent)

/-- Leaves of the actor may come from anyone; its joins are the calls, and its exit is its own. -/
def PgOp.Outside (id : ActorId) : PgOp → Prop
  | .join _ other => other ≠ id
  | .leave _ _ => True
  | .exit other _ => other ≠ id

def FedAct.Outside (id : ActorId) : FedAct → Prop
  | .own op => op.Outside id
  | _ => True

/-- Actor `id` of node `here`, which has the peer `peer`. -/
inductive ExitStep (here peer : NodeId) (id : ActorId) (s : ExitState) : ExitAct → ExitState → Prop
  | call (key : GroupKey) (type : Option TypeId) :
      ExitStep here peer id s (.call key type) { s with calls := s.calls ++ [⟨key, type, .join⟩] }
  | join {i : Nat} {call : JoinCall} (hcall : s.calls[i]? = some call) (hpc : call.pc = .join) :
      ExitStep here peer id s (.join i)
        { s.write (s.fed.owner.joinScoped here call.key id).1 (s.fed.owner.joinScoped here call.key id).2 with
          calls := s.calls.set i { call with pc := if call.type.isSome then .typedJoin else .returned } }
  | typedJoin {i : Nat} {call : JoinCall} {type : TypeId} (hcall : s.calls[i]? = some call)
      (hpc : call.pc = .typedJoin) (htype : call.type = some type) :
      ExitStep here peer id s (.typedJoin i)
        { s.write (s.fed.owner.typedJoin here call.key type id) [] with
          calls := s.calls.set i { call with pc := .returned } }
  | readIndex {leaves : List GroupKey} (hexit : s.exit = .running) (hleaves : s.fed.owner.GroupsOf ⟨here, id⟩ leaves) :
      ExitStep here peer id s .readIndex { s with exit := .removing leaves }
  | remove {leaves keys : List GroupKey} (hexit : s.exit = .removing leaves)
      (hkeys : s.fed.owner.GroupsOf ⟨here, id⟩ keys) :
      ExitStep here peer id s .remove
        { s.write (s.fed.owner.removeActor ⟨here, id⟩ keys) [] with exit := .publishing leaves }
  | publishLeave {key : GroupKey} {leaves : List GroupKey} (hexit : s.exit = .publishing (key :: leaves)) :
      ExitStep here peer id s .publishLeave
        { s.write s.fed.owner [.leave key ⟨here, id⟩] with exit := .publishing leaves }
  | complete (hexit : s.exit = .publishing []) : ExitStep here peer id s .complete { s with exit := .completed }
  | fed {act : FedAct} {fed' : Federation} (houtside : act.Outside id) (hstep : FedStep here peer s.fed act fed') :
      ExitStep here peer id s (.fed act) { s with fed := fed' }
  | otherTypedJoin (key : GroupKey) (type : TypeId) {other : ActorId} (hother : other ≠ id) :
      ExitStep here peer id s (.otherTypedJoin key type other)
        (s.write (s.fed.owner.typedJoin here key type other) [])
  | getLocalMembers (key : GroupKey) {alive : ActorAddress → Bool} (halive : s.exit ≠ .completed → alive ⟨here, id⟩) :
      ExitStep here peer id s (.getLocalMembers key) (s.write (s.fed.owner.getLocalMembersScoped alive key) [])
  | memberAddresses (key : GroupKey) {alive : ActorAddress → Bool} (halive : s.exit ≠ .completed → alive ⟨here, id⟩) :
      ExitStep here peer id s (.memberAddresses key) (s.write (s.fed.owner.memberAddressesScoped alive key) [])
  | remoteEvent (event : PgEvent) :
      ExitStep here peer id s (.remoteEvent event) (s.write (s.fed.owner.applyRemotePgEvent here event) [])

/-- A join takes the store before the exit has read the index, and of an actor that is not in the group; a typed bucket
is written before the exit writes the store. -/
def Timely (here : NodeId) (id : ActorId) (s : ExitState) : ExitAct → Prop
  | .join i => s.exit = .running ∧ ∀ call, s.calls[i]? = some call → (call.key, ⟨here, id⟩) ∉ s.fed.owner.groups
  | .typedJoin _ => s.exit = .running ∨ ∃ leaves, s.exit = .removing leaves
  | _ => True

/-! ## What is left of the actor -/

/-- What holds at each point of the exit, of the counts of the actor in the groups, and of those at the peer. -/
def RemovePc.Holds (typed : Prop) (count promised : GroupKey → Nat) : RemovePc → Prop
  | .running => ∀ key, promised key = count key ∧ count key ≤ 1
  | .removing leaves => ∀ key, promised key = count key ∧ count key ≤ 1 ∧ (0 < count key → key ∈ leaves)
  | .publishing leaves => ¬typed ∧ ∀ key, count key = 0 ∧ promised key ≤ 1 ∧ (0 < promised key → key ∈ leaves)
  | .completed => ¬typed ∧ ∀ key, count key = 0 ∧ promised key = 0

structure Fading (address : ActorAddress) (s : ExitState) : Prop where
  index : s.fed.owner.IndexedAt address
  holds : s.exit.Holds (s.fed.owner.InTyped address) (fun key => s.fed.owner.groups.count (key, address))
    fun key => s.fed.promised (key, address)

namespace RemovePc.Holds

variable {pc : RemovePc} {typed typed' : Prop} {count count' promised promised' : GroupKey → Nat}

theorem count_le (h : pc.Holds typed count promised) (key : GroupKey) : count key ≤ 1 := by
  cases pc with
  | running => exact (h key).2
  | removing leaves => exact (h key).2.1
  | publishing leaves => exact (h.2 key).1.le.trans (Nat.zero_le 1)
  | completed => exact (h.2 key).1.le.trans (Nat.zero_le 1)

/-- An actor may leave a group at any point. -/
theorem fade (h : pc.Holds typed count promised) (htyped : typed' → typed)
    (hcount : ∀ key, (count' key = count key ∧ promised' key = promised key) ∨
      (count' key = 0 ∧ promised' key = promised key - 1)) : pc.Holds typed' count' promised' := by
  cases pc with
  | running =>
    intro key
    have hkey := h key
    have hcount := hcount key
    omega
  | removing leaves =>
    intro key
    obtain ⟨hpromised, hle, hmem⟩ := h key
    have hcount := hcount key
    refine ⟨by omega, by omega, fun hpos => hmem (by omega)⟩
  | publishing leaves =>
    refine ⟨fun ht => h.1 (htyped ht), fun key => ?_⟩
    obtain ⟨hzero, hle, hmem⟩ := h.2 key
    have hcount := hcount key
    refine ⟨by omega, by omega, fun hpos => hmem (by omega)⟩
  | completed =>
    refine ⟨fun ht => h.1 (htyped ht), fun key => ?_⟩
    have hkey := h.2 key
    have hcount := hcount key
    omega

end RemovePc.Holds

theorem ExitState.promised_write (s : ExitState) (store : PgStore) (events : List PgEvent) (entry : PgEntry) :
    (s.write store events).fed.promised entry = drainCount entry events (s.fed.promised entry) := drainCount_append ..

/-- From `store` to `store'`, with `events` published, nothing was done to the actor but to take it from groups. -/
structure PgStore.Fades (address : ActorAddress) (store store' : PgStore) (events : List PgEvent) : Prop where
  index : store.IndexedAt address → store'.IndexedAt address
  typed : store'.InTyped address → store.InTyped address
  count : ∀ key, (store'.groups.count (key, address) = store.groups.count (key, address) ∧
      ∀ n, drainCount (key, address) events n = n) ∨
    (store'.groups.count (key, address) = 0 ∧ ∀ n, drainCount (key, address) events n = n - 1)

theorem PgStore.Apart.fades {address : ActorAddress} {store store' : PgStore} {events : List PgEvent}
    (h : Apart address store store') (hevents : ∀ key n, drainCount (key, address) events n = n) :
    Fades address store store' events :=
  ⟨h.index, h.typed, fun key => Or.inl ⟨h.count key, hevents key⟩⟩

/-- A leave of the actor itself. -/
theorem PgStore.Fades.leaveScoped {store : PgStore} {here : NodeId} {id : ActorId} (key : GroupKey)
    (hle : store.groups.count (key, ⟨here, id⟩) ≤ 1) :
    Fades ⟨here, id⟩ store (store.leaveScoped here key id).2.1 (store.leaveScoped here key id).2.2 := by
  refine ⟨fun hi => hi.leaveScoped key, ?_, fun k => ?_⟩
  · rintro ⟨t, ht, ha⟩
    exact ⟨t, store.typed_leaveScoped_subset here key id ht, ha⟩
  · rcases store.leaveScoped_cases here key id with ⟨-, heq⟩ | ⟨hcount, -⟩ | ⟨hcount, left, heq, hgroups, -⟩
    · exact Or.inl (by simp [heq])
    · omega
    · by_cases hk : k = key
      · subst hk
        right
        refine ⟨by simp [heq, hgroups, hcount], fun n => ?_⟩
        simp [heq, drainCount_cons, PgEvent.onCount]
      · left
        refine ⟨by simp [heq, hgroups, hk], fun n => ?_⟩
        simp [heq, drainCount_cons, PgEvent.onCount, hk]

theorem PgStore.drainCount_leaveScoped_of_ne (store : PgStore) (here : NodeId) (key : GroupKey) (id : ActorId)
    {entry : PgEntry} (h : entry.2 ≠ ⟨here, id⟩) (n : Nat) :
    drainCount entry (store.leaveScoped here key id).2.2 n = n := by
  rcases store.leaveScoped_cases here key id with ⟨-, heq⟩ | ⟨-, heq⟩ | ⟨-, left, heq, -⟩
  · rw [heq]
    rfl
  · rw [heq]
    rfl
  · have hne : entry ≠ (key, ⟨here, id⟩) := fun he => h (congrArg Prod.snd he)
    simp [heq, drainCount_cons, PgEvent.onCount, hne]

/-- What others do on the node. -/
theorem PgOp.Outside.fades {op : PgOp} {id : ActorId} (h : op.Outside id) {here : NodeId} {store : PgStore}
    (hvalid : op.Valid here store) (hle : ∀ key, store.groups.count (key, ⟨here, id⟩) ≤ 1) :
    PgStore.Fades ⟨here, id⟩ store (op.run here store).1 (op.run here store).2 := by
  have hne : ∀ {other : ActorId}, other ≠ id → (⟨here, id⟩ : ActorAddress) ≠ ⟨here, other⟩ := by
    rintro other hne he
    cases he
    exact hne rfl
  cases op with
  | join key other =>
    refine (PgStore.Apart.joinScoped store here key (hne h)).fades fun k n => ?_
    simp [PgOp.run, PgStore.joinScoped, drainCount_cons, PgEvent.onCount, Ne.symm h]
  | exit other keys =>
    refine (PgStore.Apart.removeActor store keys (hne h)).fades fun k n => ?_
    simp [PgOp.run, drainCount_leaves hvalid.1, Ne.symm h]
  | leave key other =>
    by_cases hid : other = id
    · subst hid
      exact .leaveScoped key (hle key)
    · exact (PgStore.Apart.leaveScoped store here key (hne hid)).fades fun k =>
        store.drainCount_leaveScoped_of_ne here key other (hne hid)

namespace Fading

variable {here peer : NodeId} {id : ActorId} {s s' : ExitState}

theorem init (address : ActorAddress) : Fading address {} := by
  constructor
  · simp [PgStore.IndexedAt]
  · simp [RemovePc.Holds, Federation.promised]

theorem fade {address : ActorAddress} (h : Fading address s) {events : List PgEvent} (hexit : s'.exit = s.exit)
    (hfades : PgStore.Fades address s.fed.owner s'.fed.owner events)
    (hpromised : ∀ key, s'.fed.promised (key, address) =
      drainCount (key, address) events (s.fed.promised (key, address))) : Fading address s' := by
  refine ⟨hfades.index h.index, ?_⟩
  rw [hexit]
  refine h.holds.fade hfades.typed fun key => ?_
  rw [hpromised key]
  rcases hfades.count key with ⟨hcount, hdrain⟩ | ⟨hcount, hdrain⟩
  · exact Or.inl ⟨hcount, hdrain _⟩
  · exact Or.inr ⟨hcount, hdrain _⟩

/-- Nothing is done to the actor, and nothing is published. -/
theorem apart {address : ActorAddress} (h : Fading address s) {store : PgStore}
    (hapart : PgStore.Apart address s.fed.owner store) : Fading address (s.write store []) :=
  h.fade rfl (hapart.fades fun _ _ => rfl) fun key => s.promised_write store [] (key, address)

/-- A join that comes in time counts on both sides. -/
theorem join (h : Fading ⟨here, id⟩ s) (hexit : s.exit = .running) {key : GroupKey}
    (hnew : (key, ⟨here, id⟩) ∉ s.fed.owner.groups) (calls : List JoinCall) :
    Fading ⟨here, id⟩ { s.write (s.fed.owner.joinScoped here key id).1 (s.fed.owner.joinScoped here key id).2 with
      calls := calls } := by
  have hholds := h.holds
  rw [hexit] at hholds
  refine ⟨h.index.joinScoped key, ?_⟩
  show RemovePc.Holds _ _ _ s.exit
  rw [hexit]
  intro k
  have hk := hholds k
  have hpromised := s.promised_write (s.fed.owner.joinScoped here key id).1 [.join key ⟨here, id⟩] (k, ⟨here, id⟩)
  rw [drainCount_cons, drainCount_nil, PgEvent.onCount] at hpromised
  show Federation.promised (s.write _ [.join key ⟨here, id⟩]).fed _ =
    ((key, (⟨here, id⟩ : ActorAddress)) ::ₘ s.fed.owner.groups).count _ ∧
    ((key, (⟨here, id⟩ : ActorAddress)) ::ₘ s.fed.owner.groups).count _ ≤ 1
  rw [hpromised, Multiset.count_cons]
  by_cases hkey : k = key
  · subst hkey
    have hzero := Multiset.count_eq_zero.mpr hnew
    simp only [if_true]
    beta_reduce at hk
    omega
  · simp only [Prod.mk.injEq, hkey, false_and, if_false]
    exact hk

theorem typedJoin (h : Fading ⟨here, id⟩ s) (hexit : s.exit = .running ∨ ∃ leaves, s.exit = .removing leaves)
    (key : GroupKey) (type : TypeId) (calls : List JoinCall) :
    Fading ⟨here, id⟩ { s.write (s.fed.owner.typedJoin here key type id) [] with calls := calls } := by
  refine ⟨h.index, ?_⟩
  have hpromised := fun k => s.promised_write (s.fed.owner.typedJoin here key type id) [] (k, ⟨here, id⟩)
  have hholds := h.holds
  show RemovePc.Holds _ _ (fun k => (s.write _ []).fed.promised (k, ⟨here, id⟩)) s.exit
  simp only [hpromised, drainCount_nil]
  rcases hexit with hexit | ⟨leaves, hexit⟩
  · rw [hexit] at hholds ⊢
    exact hholds
  · rw [hexit] at hholds ⊢
    exact hholds

/-- The exit reads the groups from the index. -/
theorem readIndex {address : ActorAddress} (h : Fading address s) (hexit : s.exit = .running) {leaves : List GroupKey}
    (hleaves : s.fed.owner.GroupsOf address leaves) : Fading address { s with exit := .removing leaves } := by
  refine ⟨h.index, fun key => ?_⟩
  have hholds := h.holds
  rw [hexit] at hholds
  obtain ⟨hpromised, hle⟩ := hholds key
  refine ⟨hpromised, hle, fun hpos => ?_⟩
  exact (hleaves.2 key).mpr ((h.index key).mpr (Multiset.count_pos.mp hpos))

/-- The exit removes the actor from the store: what is left to do is at the peers. -/
theorem remove {address : ActorAddress} (h : Fading address s) {leaves keys : List GroupKey}
    (hexit : s.exit = .removing leaves) (hkeys : s.fed.owner.GroupsOf address keys) :
    Fading address { s.write (s.fed.owner.removeActor address keys) [] with exit := .publishing leaves } := by
  have hholds := h.holds
  rw [hexit] at hholds
  refine ⟨h.index.removeActor hkeys.2, ?_, fun key => ⟨?_, ?_⟩⟩
  · rintro ⟨t, ht, ha⟩
    exact (Finset.mem_filter.mp ht).2 ha
  · exact Multiset.count_eq_zero.mpr (h.index.notMem_removeActor hkeys.2 key)
  · have hpromised := s.promised_write (s.fed.owner.removeActor address keys) [] (key, address)
    show (s.write _ []).fed.promised _ ≤ 1 ∧ (0 < (s.write _ []).fed.promised _ → _)
    rw [hpromised, drainCount_nil]
    obtain ⟨heq, hle, hmem⟩ := hholds key
    beta_reduce at heq hle hmem
    exact ⟨by omega, fun hpos => hmem (by omega)⟩

theorem publishLeave {address : ActorAddress} (h : Fading address s) {key : GroupKey} {leaves : List GroupKey}
    (hexit : s.exit = .publishing (key :: leaves)) :
    Fading address { s.write s.fed.owner [.leave key address] with exit := .publishing leaves } := by
  have hholds := h.holds
  rw [hexit] at hholds
  refine ⟨h.index, hholds.1, fun k => ⟨(hholds.2 k).1, ?_⟩⟩
  obtain ⟨-, hle, hmem⟩ := hholds.2 k
  have hpromised := s.promised_write s.fed.owner [.leave key address] (k, address)
  rw [drainCount_cons, drainCount_nil, PgEvent.onCount] at hpromised
  show (s.write _ [.leave key address]).fed.promised _ ≤ 1 ∧ (0 < (s.write _ [.leave key address]).fed.promised _ → _)
  rw [hpromised]
  beta_reduce at hle
  by_cases hk : k = key
  · subst hk
    simp only [if_true]
    omega
  · simp only [Prod.mk.injEq, hk, false_and, if_false]
    exact ⟨hle, fun hpos => (List.mem_cons.mp (hmem hpos)).resolve_left hk⟩

theorem complete {address : ActorAddress} (h : Fading address s) (hexit : s.exit = .publishing []) :
    Fading address { s with exit := .completed } := by
  have hholds := h.holds
  rw [hexit] at hholds
  refine ⟨h.index, hholds.1, fun key => ?_⟩
  obtain ⟨hzero, -, hmem⟩ := hholds.2 key
  refine ⟨hzero, Nat.eq_zero_of_not_pos fun hpos => ?_⟩
  exact absurd (hmem hpos) (by simp)

/-- A query may drop the actor once it has completed, but then it is in no group. -/
theorem alive_or_gone {address : ActorAddress} (h : Fading address s) {alive : ActorAddress → Bool}
    (halive : s.exit ≠ .completed → alive address) :
    alive address ∨ ∀ key, s.fed.owner.groups.count (key, address) = 0 := by
  by_cases hexit : s.exit = .completed
  · have hholds := h.holds
    rw [hexit] at hholds
    exact Or.inr fun key => (hholds.2 key).1
  · exact Or.inl (halive hexit)

/-- What the peer does with its own groups and with an event. -/
theorem fed (hne : here ≠ peer) (h : Fading ⟨here, id⟩ s) {act : FedAct} {fed' : Federation} (hact : act.Outside id)
    (hstep : FedStep here peer s.fed act fed') : Fading ⟨here, id⟩ { s with fed := fed' } := by
  have hquiet : PgStore.Fades ⟨here, id⟩ s.fed.owner s.fed.owner [] :=
    (PgStore.Apart.refl _ _).fades fun _ _ => rfl
  cases hstep with
  | own hvalid =>
    refine h.fade rfl (PgOp.Outside.fades hact hvalid fun key => h.holds.count_le key) fun key => ?_
    exact drainCount_append ..
  | @peerOwn op hvalid =>
    refine h.fade rfl hquiet fun key => ?_
    show drainCount _ s.fed.queue _ = drainCount _ s.fed.queue _
    rw [op.remote_run (by exact hne)]
  | @deliver event rest hqueue =>
    refine h.fade rfl hquiet fun key => ?_
    show drainCount _ rest _ = drainCount _ s.fed.queue _
    rw [PgStore.count_applyRemotePgEvent event (by exact hne), hqueue, drainCount_cons]

/-- Every step of a timely run keeps it. -/
theorem step (hne : here ≠ peer) {act : ExitAct} (h : Fading ⟨here, id⟩ s) (htimely : Timely here id s act)
    (hs : ExitStep here peer id s act s') : Fading ⟨here, id⟩ s' := by
  cases hs with
  | call key type => exact ⟨h.index, h.holds⟩
  | join hcall hpc => exact h.join htimely.1 (htimely.2 _ hcall) _
  | typedJoin hcall hpc htype => exact h.typedJoin htimely _ _ _
  | readIndex hexit hleaves => exact h.readIndex hexit hleaves
  | remove hexit hkeys => exact h.remove hexit hkeys
  | publishLeave hexit => exact h.publishLeave hexit
  | complete hexit => exact h.complete hexit
  | fed houtside hstep => exact h.fed hne houtside hstep
  | @otherTypedJoin key type other hother =>
    refine h.apart (.typedJoin _ here key type fun he => hother ?_)
    cases he
    rfl
  | getLocalMembers key halive => exact h.apart (.getLocalMembersScoped key (h.alive_or_gone halive))
  | memberAddresses key halive => exact h.apart (.memberAddressesScoped key (h.alive_or_gone halive))
  | remoteEvent event => exact h.apart (.applyRemotePgEvent _ here event)

end Fading

/-- **Process groups forget the dead.** For every run of joins with the exit of the actor, in which every join takes the
store before the exit reads the index, and of an actor not in the group at the time, and every typed join writes its
bucket before the exit writes the store: when the actor has completed it is in no group, index or typed bucket of its
node, and in no group of the peer's view once the peer has applied all events. -/
theorem forgotten_on_exit {here peer : NodeId} (hne : here ≠ peer) {id : ActorId} {τ : List (ExitState × ExitAct)}
    {s : ExitState} (h : Run (ExitStep here peer id) {} τ s) (htimely : ∀ x ∈ τ, Timely here id x.1 x.2)
    (hcompleted : s.exit = .completed) :
    (∀ key, (key, ⟨here, id⟩) ∉ s.fed.owner.groups ∧ (⟨here, id⟩, key) ∉ s.fed.owner.index) ∧
      (∀ t ∈ s.fed.owner.typed, t.2.2 ≠ ⟨here, id⟩) ∧
      (s.fed.queue = [] → ∀ key, (key, ⟨here, id⟩) ∉ s.fed.peer.remote) := by
  have hfading := h.inv_of_steps (Fading.init ⟨here, id⟩) (fun s act s' hi hP hs => hi.step hne hP hs) htimely
  have hholds := hfading.holds
  rw [hcompleted] at hholds
  obtain ⟨htyped, hcount⟩ := hholds
  refine ⟨fun key => ?_, fun t ht ha => htyped ⟨t, ht, ha⟩, fun hqueue key => ?_⟩
  · have hgone := Multiset.count_eq_zero.mp (hcount key).1
    exact ⟨hgone, fun hmem => hgone ((hfading.index key).mp hmem)⟩
  · have hpromised : s.fed.promised (key, ⟨here, id⟩) = 0 := (hcount key).2
    rw [Federation.promised, hqueue, drainCount_nil] at hpromised
    exact Multiset.count_eq_zero.mp hpromised

/-- An actor joined by a typed call before it exits. -/
theorem forgotten_on_exit_of_typed :
    ∃ (τ : List (ExitState × ExitAct)) (s : ExitState), Run (ExitStep "a" "b" 1) {} τ s ∧
      (∀ x ∈ τ, Timely "a" 1 x.1 x.2) ∧ s.exit = .completed ∧ s.fed.queue = [] ∧
      (∃ x ∈ τ, (⟨"default", "g"⟩, ⟨"a", 1⟩) ∈ x.1.fed.owner.groups) ∧
      ∀ key, (key, ⟨"a", 1⟩) ∉ s.fed.owner.groups ∧ (key, ⟨"a", 1⟩) ∉ s.fed.peer.remote := by
  let key : GroupKey := ⟨"default", "g"⟩
  have hkeys : ∀ k, k ∈ [key] ↔ ((⟨"a", 1⟩ : ActorAddress), k) ∈
      (PgStore.joinScoped "a" {} key 1).1.index := by
    intro k
    simp [PgStore.joinScoped]
  have h₁ := Run.nil.snoc (@ExitStep.call "a" "b" 1 {} key (some "T"))
  have h₂ := h₁.snoc (@ExitStep.join _ _ _ _ 0 ⟨key, some "T", .join⟩ rfl rfl)
  have h₃ := h₂.snoc (@ExitStep.typedJoin _ _ _ _ 0 ⟨key, some "T", .typedJoin⟩ "T" rfl rfl rfl)
  have h₄ := h₃.snoc (@ExitStep.readIndex _ _ _ _ [key] rfl ⟨by simp, hkeys⟩)
  have h₅ := h₄.snoc (@ExitStep.remove _ _ _ _ [key] [key] rfl ⟨by simp, hkeys⟩)
  have h₆ := h₅.snoc (@ExitStep.publishLeave _ _ _ _ key [] rfl)
  have h₇ := h₆.snoc (@ExitStep.complete _ _ _ _ rfl)
  have h₈ := h₇.snoc (@ExitStep.fed _ _ _ _ .deliver _ trivial
    (@FedStep.deliver _ _ _ (.join key ⟨"a", 1⟩) [.leave key ⟨"a", 1⟩] rfl))
  have h₉ := h₈.snoc (@ExitStep.fed _ _ _ _ .deliver _ trivial (@FedStep.deliver _ _ _ _ [] rfl))
  suffices htimely : ∀ x : ExitState × ExitAct, x ∈ _ → Timely "a" 1 x.1 x.2 by
    have hgone := forgotten_on_exit (by decide) h₉ htimely rfl
    exact ⟨_, _, h₉, htimely, rfl, rfl, by decide, fun k => ⟨(hgone.1 k).1, hgone.2.2 rfl k⟩⟩
  intro x hx
  simp only [List.nil_append, List.mem_append, List.mem_singleton] at hx
  rcases hx with (((((((rfl | rfl) | rfl) | rfl) | rfl) | rfl) | rfl) | rfl) | rfl
  · exact trivial
  · exact ⟨rfl, fun call _ => Multiset.notMem_zero _⟩
  · exact Or.inl rfl
  all_goals exact trivial

/-- The worker exits before its starter joins it: the actor has completed, the join has returned, and the actor stays in
the group, in the index, in the typed bucket and at the peer. -/
theorem late_join_is_kept :
    ∃ (τ : List (ExitState × ExitAct)) (s : ExitState), Run (ExitStep "a" "b" 1) {} τ s ∧ s.exit = .completed ∧
      (∀ call ∈ s.calls, call.pc = .returned) ∧ s.fed.queue = [] ∧
      (⟨"default", "g"⟩, ⟨"a", 1⟩) ∈ s.fed.owner.groups ∧ (⟨"a", 1⟩, ⟨"default", "g"⟩) ∈ s.fed.owner.index ∧
      (⟨"default", "g"⟩, "T", ⟨"a", 1⟩) ∈ s.fed.owner.typed ∧ (⟨"default", "g"⟩, ⟨"a", 1⟩) ∈ s.fed.peer.remote := by
  let key : GroupKey := ⟨"default", "g"⟩
  have hnone : PgStore.GroupsOf {} ⟨"a", 1⟩ [] := ⟨by simp, by simp⟩
  have h₁ := Run.nil.snoc (@ExitStep.readIndex "a" "b" 1 {} [] rfl hnone)
  have h₂ := h₁.snoc (@ExitStep.remove _ _ _ _ [] [] rfl hnone)
  have h₃ := h₂.snoc (@ExitStep.complete _ _ _ _ rfl)
  have h₄ := h₃.snoc (@ExitStep.call _ _ _ _ key (some "T"))
  have h₅ := h₄.snoc (@ExitStep.join _ _ _ _ 0 ⟨key, some "T", .join⟩ rfl rfl)
  have h₆ := h₅.snoc (@ExitStep.typedJoin _ _ _ _ 0 ⟨key, some "T", .typedJoin⟩ "T" rfl rfl rfl)
  have h₇ := h₆.snoc (@ExitStep.fed _ _ _ _ .deliver _ trivial (@FedStep.deliver _ _ _ (.join key ⟨"a", 1⟩) [] rfl))
  exact ⟨_, _, h₇, rfl, by decide, rfl, by decide, by decide, by decide, by decide⟩

end Spawned
