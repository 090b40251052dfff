import Spawned.Lib.Fifo
import Spawned.Lib.Run
import Spawned.Lib.Table
import Spawned.Supervisor.Ops

/-!
# Named actors across a cluster

Each node keeps one table of names: its own registrations, with a handle each, and those replicated from other nodes.
Registering, unregistering and the exit of an actor publish `RegistryEvent`s to every peer; a peer applies them in the
order in which they were sent.

* `NamedStore.registerNamed`, `unregisterNamed`, `removeByActorId`, `applyRemoteEvent` : the operations on one node;
* `RegistryStep` : any number of nodes, with one queue of events from each to each;
* `OwnerUnregisters` : `unregister_named` is called for no name of another node;
* `entry_retired_by_owner` : what then makes an entry disappear.
-/

namespace Spawned

open Lib

inductive NamedRegistryError
  | alreadyRegistered (name : String)
deriving DecidableEq, Repr

inductive RegistryEvent
  | register (name : String) (address : ActorAddress)
  | unregister (name : String) (address : ActorAddress)
  | snapshot (entries : List (String × ActorAddress))
deriving DecidableEq

/-- What a peer's event makes of the entry of `k` on a node that has no handle for it. -/
def RegistryEvent.onEntry (k : String) (event : RegistryEvent) (entry : Option ActorAddress) : Option ActorAddress :=
  match event with
  | .register name address => if k = name then entry.or (some address) else entry
  | .unregister name address => if k = name ∧ entry = some address then none else entry
  | .snapshot entries => entries.foldl (fun entry e => if k = e.1 then entry.or (some e.2) else entry) entry

/-- Of all events only the `Unregister` of just this entry empties it. -/
theorem RegistryEvent.onEntry_keeps {k : String} {event : RegistryEvent} {address : ActorAddress}
    (hne : event ≠ .unregister k address) : event.onEntry k (some address) = some address := by
  cases event with
  | register name address' => simp [onEntry]
  | unregister name address' =>
    simp only [onEntry]
    split_ifs with h
    · obtain ⟨rfl, rfl⟩ : k = name ∧ address = address' := by simpa using h
      exact absurd rfl hne
    · rfl
  | snapshot entries =>
    simp only [onEntry]
    clear hne
    induction entries with
    | nil => rfl
    | cons entry entries ih => rw [List.foldl_cons, Option.some_or, ite_self, ih]

/-- The names known to a node, and the handles of those it registered itself. -/
structure NamedStore where
  addresses : Table String ActorAddress := Table.empty
  handles : Table String ChildHandle := Table.empty

namespace NamedStore

def dropName (store : NamedStore) (name : String) : NamedStore where
  addresses := store.addresses.remove name
  handles := store.handles.remove name

/-- `register_named` on node `here`, with what it publishes. -/
def registerNamed (here : NodeId) (store : NamedStore) (name : String) (handle : ChildHandle) :
    Except NamedRegistryError Unit × NamedStore × List RegistryEvent :=
  match store.addresses name with
  | some _ => (.error (.alreadyRegistered name), store, [])
  | none =>
    (.ok (), { addresses := store.addresses.insert name ⟨here, handle.id⟩, handles := store.handles.insert name handle },
      [.register name ⟨here, handle.id⟩])

/-- `unregister_named`: it removes whatever entry the name has, and publishes that entry's address. -/
def unregisterNamed (store : NamedStore) (name : String) : NamedStore × List RegistryEvent :=
  match store.addresses name with
  | none => (store, [])
  | some address => (store.dropName name, [.unregister name address])

/-- The loop of `remove_by_actor_id` over the names of the actor. -/
def removeByActorId (here : NodeId) (id : ActorId) : List String → NamedStore → NamedStore × List RegistryEvent
  | [], store => (store, [])
  | name :: names, store =>
    let (store', events) := removeByActorId here id names (store.dropName name)
    (store', .unregister name ⟨here, id⟩ :: events)

/-- A `Register` from a peer: kept out by a local registration and by an entry with another address. -/
def applyRegister (store : NamedStore) (name : String) (address : ActorAddress) : NamedStore :=
  if store.handles.containsKey name then store
  else
    match store.addresses name with
    | none => { store with addresses := store.addresses.insert name address }
    | some existing =>
      if existing ≠ address then store else { store with addresses := store.addresses.insert name address }

def applyRemoteEvent (store : NamedStore) : RegistryEvent → NamedStore
  | .register name address => store.applyRegister name address
  | .unregister name address =>
    if store.handles.containsKey name then store
    else if store.addresses name = some address then { store with addresses := store.addresses.remove name }
    else store
  | .snapshot entries => entries.foldl (fun store entry => store.applyRegister entry.1 entry.2) store

/-- `lookup_address`. -/
def lookupAddress (store : NamedStore) (name : String) : Option ActorAddress := store.addresses name

/-! ### One name -/

variable {store : NamedStore}

theorem removeByActorId_addresses (here : NodeId) (id : ActorId) (names : List String) (k : String) :
    (store.removeByActorId here id names).1.addresses k = if k ∈ names then none else store.addresses k := by
  induction names generalizing store with
  | nil => simp [removeByActorId]
  | cons name names ih =>
    simp only [removeByActorId, ih, dropName, Table.remove_apply, List.mem_cons]
    by_cases hk : k = name <;> simp [hk]

theorem removeByActorId_handles (here : NodeId) (id : ActorId) (names : List String) (k : String) :
    (store.removeByActorId here id names).1.handles k = if k ∈ names then none else store.handles k := by
  induction names generalizing store with
  | nil => simp [removeByActorId]
  | cons name names ih =>
    simp only [removeByActorId, ih, dropName, Table.remove_apply, List.mem_cons]
    by_cases hk : k = name <;> simp [hk]

theorem removeByActorId_events (here : NodeId) (id : ActorId) (names : List String) :
    (store.removeByActorId here id names).2 = names.map fun name => .unregister name ⟨here, id⟩ := by
  induction names generalizing store with
  | nil => rfl
  | cons name names ih => simp [removeByActorId, ih]

/-- What a `Register` makes of the entry of `k`: it fills a place that is free. -/
theorem applyRegister_addresses (name : String) (address : ActorAddress) (k : String) :
    (store.applyRegister name address).addresses k =
      if k = name ∧ store.handles k = none then (store.addresses k).or (some address) else store.addresses k := by
  unfold applyRegister
  by_cases hk : k = name
  · subst hk
    cases hh : store.handles k with
    | some handle => simp [Table.containsKey, hh]
    | none =>
      cases ha : store.addresses k with
      | none => simp [Table.containsKey, hh]
      | some existing =>
        by_cases he : existing = address
        · simp [Table.containsKey, hh, he]
        · simp [Table.containsKey, hh, he, ha]
  · split
    · simp [hk]
    · split
      · simp [hk, Table.insert_ne]
      · split <;> simp [hk, Table.insert_ne]

@[simp] theorem applyRegister_handles (name : String) (address : ActorAddress) :
    (store.applyRegister name address).handles = store.handles := by
  unfold applyRegister
  split
  · rfl
  · split
    · rfl
    · split <;> rfl

/-- A peer's events leave the handles of a node alone. -/
@[simp] theorem applyRemoteEvent_handles (event : RegistryEvent) :
    (store.applyRemoteEvent event).handles = store.handles := by
  cases event with
  | register name address => simp [applyRemoteEvent]
  | unregister name address => simp only [applyRemoteEvent]; split_ifs <;> rfl
  | snapshot entries =>
    simp only [applyRemoteEvent]
    induction entries generalizing store with
    | nil => rfl
    | cons entry entries ih => rw [List.foldl_cons, ih, applyRegister_handles]

/-- A peer's event works on the entries of the names that the node has not registered itself. -/
theorem applyRemoteEvent_addresses (event : RegistryEvent) (k : String) :
    (store.applyRemoteEvent event).addresses k =
      if store.handles k = none then event.onEntry k (store.addresses k) else store.addresses k := by
  cases event with
  | register name address =>
    simp only [applyRemoteEvent, applyRegister_addresses, RegistryEvent.onEntry]
    by_cases hk : k = name <;> by_cases hh : store.handles k = none <;> simp [hk, hh]
  | unregister name address =>
    simp only [applyRemoteEvent, RegistryEvent.onEntry]
    by_cases hk : k = name
    · subst hk
      by_cases hh : store.handles k = none
      · have hfree : store.handles.containsKey k = false := by simp [Table.containsKey, hh]
        by_cases ha : store.addresses k = some address <;> simp [hfree, hh, ha]
      · have hown : store.handles.containsKey k = true := by simpa [Table.containsKey, Option.isSome_iff_ne_none] using hh
        simp [hown, hh]
    · have hkeep : (store.addresses.remove name) k = store.addresses k := Table.remove_ne _ hk
      split <;> [skip; split] <;> simp [hk, hkeep]
  | snapshot entries =>
    simp only [applyRemoteEvent, RegistryEvent.onEntry]
    induction entries generalizing store with
    | nil => simp
    | cons entry entries ih =>
      rw [List.foldl_cons, List.foldl_cons, ih, applyRegister_handles, applyRegister_addresses]
      by_cases hh : store.handles k = none
      · simp only [hh, and_true, if_true]
      · simp only [hh, and_false, if_false]

end NamedStore

/-! ## The cluster -/

/-- The stores of all nodes and the events under way. -/
structure RegistryCluster where
  stores : NodeId → NamedStore := fun _ => {}
  queues : Links NodeId RegistryEvent := Links.empty

inductive RegistryAct
  | register (node : NodeId) (name : String) (handle : ChildHandle)
  | unregister (node : NodeId) (name : String)
  /-- the exit of an actor; the names are those of its handle, in the order in which the map yields them -/
  | exit (node : NodeId) (id : ActorId) (names : List String)
  | deliver (sender receiver : NodeId)
deriving DecidableEq

namespace RegistryCluster

/-- What `lookup_address` answers on a node. -/
def lookup (s : RegistryCluster) (node : NodeId) (name : String) : Option ActorAddress :=
  (s.stores node).lookupAddress name

/-- A node changes its store and publishes. -/
def commit (s : RegistryCluster) (members : List NodeId) (node : NodeId) (change : NamedStore × List RegistryEvent) :
    RegistryCluster where
  stores := Function.update s.stores node change.1
  queues := s.queues.broadcast members node change.2

/-- The receiver takes the oldest event of a sender off the queue and applies it. -/
def applyNext (s : RegistryCluster) (sender receiver : NodeId) (event : RegistryEvent) (rest : List RegistryEvent) :
    RegistryCluster where
  stores := Function.update s.stores receiver ((s.stores receiver).applyRemoteEvent event)
  queues := s.queues.pop sender receiver rest

end RegistryCluster

/-- The steps of a cluster with these members. -/
inductive RegistryStep (members : List NodeId) (s : RegistryCluster) : RegistryAct → RegistryCluster → Prop
  | register {node : NodeId} {name : String} {handle : ChildHandle} (hmem : node ∈ members) :
      RegistryStep members s (.register node name handle)
        (s.commit members node ((s.stores node).registerNamed node name handle).2)
  | unregister {node : NodeId} {name : String} (hmem : node ∈ members) :
      RegistryStep members s (.unregister node name) (s.commit members node ((s.stores node).unregisterNamed name))
  | exit {node : NodeId} {id : ActorId} {names : List String} (hmem : node ∈ members) (hnodup : names.Nodup)
      (hnames : ∀ name, name ∈ names ↔ ∃ handle, (s.stores node).handles name = some handle ∧ handle.id = id) :
      RegistryStep members s (.exit node id names)
        (s.commit members node ((s.stores node).removeByActorId node id names))
  | deliver {sender receiver : NodeId} {event : RegistryEvent} {rest : List RegistryEvent}
      (hqueue : s.queues sender receiver = event :: rest) :
      RegistryStep members s (.deliver sender receiver) (s.applyNext sender receiver event rest)

/-! ## Who retires a name -/

/-- `unregister_named` is called for no name that another node owns. -/
def OwnerUnregisters (s : RegistryCluster) : RegistryAct → Prop
  | .unregister node name => ∀ address ∈ s.lookup node name, address.node = node
  | _ => True

instance (s : RegistryCluster) : (a : RegistryAct) → Decidable (OwnerUnregisters s a)
  | .unregister node name => inferInstanceAs (Decidable (∀ address ∈ s.lookup node name, address.node = node))
  | .register _ _ _ | .exit _ _ _ | .deliver _ _ => isTrue trivial

/-- The owner of the address gives up the name: by `unregister_named`, or by the exit of the actor. -/
def Retires (x : RegistryCluster × RegistryAct) (name : String) (address : ActorAddress) : Prop :=
  x.1.lookup address.node name = some address ∧
    (x.2 = .unregister address.node name ∨
      ∃ names, x.2 = .exit address.node address.actorId names ∧ name ∈ names)

/-- The entry has left the view of `node` because of its owner: the owner is the node itself and retires the name in this
step, or the step applies the `Unregister` that the owner sent when it retired the name. -/
def RetiredByOwner (τ : List (RegistryCluster × RegistryAct)) (x : RegistryCluster × RegistryAct) (node : NodeId)
    (name : String) (address : ActorAddress) : Prop :=
  (node = address.node ∧ Retires x name address) ∨
    (x.2 = .deliver address.node node ∧
      (x.1.queues address.node node).head? = some (.unregister name address) ∧ ∃ y ∈ τ, Retires y name address)

/-- The invariant: a local registration is in the table of names under the node's own address, and an `Unregister` under
way was sent by the owner of its address, who had retired the name. -/
structure OwnersSpeak (τ : List (RegistryCluster × RegistryAct)) (s : RegistryCluster) : Prop where
  own : ∀ node name handle, (s.stores node).handles name = some handle →
    (s.stores node).addresses name = some ⟨node, handle.id⟩
  sent : ∀ sender receiver name address, RegistryEvent.unregister name address ∈ s.queues sender receiver →
    address.node = sender ∧ ∃ y ∈ τ, Retires y name address

namespace RegistryCluster

variable {s : RegistryCluster} {members : List NodeId} {node : NodeId} {change : NamedStore × List RegistryEvent}

theorem stores_commit_self : (s.commit members node change).stores node = change.1 := by
  simp [commit]

theorem stores_commit_ne {node' : NodeId} (h : node' ≠ node) :
    (s.commit members node change).stores node' = s.stores node' := by
  simp [commit, h]

/-- A delivery leaves the handles of every node alone. -/
@[simp] theorem handles_applyNext (sender receiver : NodeId) (event : RegistryEvent) (rest : List RegistryEvent) :
    ((s.applyNext sender receiver event rest).stores node).handles = (s.stores node).handles := by
  by_cases hn : node = receiver
  · subst hn; simp [applyNext]
  · simp [applyNext, hn]

theorem lookup_applyNext (sender receiver : NodeId) (event : RegistryEvent) (rest : List RegistryEvent) (k : String) :
    (s.applyNext sender receiver event rest).lookup node k =
      if node = receiver ∧ (s.stores node).handles k = none then event.onEntry k (s.lookup node k)
      else s.lookup node k := by
  by_cases hn : node = receiver
  · subst hn
    simp [applyNext, lookup, NamedStore.lookupAddress, NamedStore.applyRemoteEvent_addresses]
  · simp [applyNext, lookup, hn]

end RegistryCluster

namespace OwnersSpeak

variable {τ : List (RegistryCluster × RegistryAct)} {s s' : RegistryCluster} {a : RegistryAct} {members : List NodeId}

theorem sent_snoc (h : OwnersSpeak τ s) (x : RegistryCluster × RegistryAct) {sender receiver : NodeId} {name : String}
    {address : ActorAddress} (he : RegistryEvent.unregister name address ∈ s.queues sender receiver) :
    address.node = sender ∧ ∃ y ∈ τ ++ [x], Retires y name address := by
  obtain ⟨hnode, y, hy, hret⟩ := h.sent sender receiver name address he
  exact ⟨hnode, y, by simp [hy], hret⟩

/-- A node commits a change of its own: its registrations stay under its address, and what it unregisters it retires. -/
theorem commit (h : OwnersSpeak τ s) {node : NodeId} {change : NamedStore × List RegistryEvent}
    (hown : ∀ name handle, change.1.handles name = some handle → change.1.addresses name = some ⟨node, handle.id⟩)
    (hsent : ∀ name address, RegistryEvent.unregister name address ∈ change.2 →
      address.node = node ∧ Retires (s, a) name address) :
    OwnersSpeak (τ ++ [(s, a)]) (s.commit members node change) := by
  constructor
  · intro node' name handle hh
    by_cases hn : node' = node
    · subst hn
      rw [RegistryCluster.stores_commit_self] at hh
      rw [RegistryCluster.stores_commit_self]
      exact hown name handle hh
    · rw [RegistryCluster.stores_commit_ne hn] at hh
      rw [RegistryCluster.stores_commit_ne hn]
      exact h.own node' name handle hh
  · intro sender receiver name address he
    rcases Links.mem_broadcast he with he | ⟨rfl, -, he⟩
    · exact h.sent_snoc _ he
    · obtain ⟨hnode, hret⟩ := hsent name address he
      exact ⟨hnode, (s, a), by simp, hret⟩

theorem step (h : OwnersSpeak τ s) (howner : OwnerUnregisters s a) (hs : RegistryStep members s a s') :
    OwnersSpeak (τ ++ [(s, a)]) s' := by
  cases hs with
  | @register node name handle hmem =>
    refine h.commit ?_ ?_
    · intro k handle' hk
      unfold NamedStore.registerNamed at hk ⊢
      split at hk
      case h_1 => exact h.own node k handle' hk
      case h_2 hnone =>
        simp only [Table.insert_apply] at hk ⊢
        split at hk
        case isTrue hkn => cases hk; simp [hkn]
        case isFalse hkn => simpa [hkn] using h.own node k handle' hk
    · intro k address hk
      unfold NamedStore.registerNamed at hk
      split at hk <;> simp at hk
  | @unregister node name hmem =>
    cases ha : (s.stores node).addresses name with
    | none =>
      have heq : (s.stores node).unregisterNamed name = (s.stores node, []) := by simp [NamedStore.unregisterNamed, ha]
      rw [heq]
      exact h.commit (fun k handle hk => h.own node k handle hk) (by simp)
    | some address =>
      have heq : (s.stores node).unregisterNamed name =
          ((s.stores node).dropName name, [.unregister name address]) := by
        simp [NamedStore.unregisterNamed, ha]
      rw [heq]
      refine h.commit ?_ ?_
      · intro k handle hk
        simp only [NamedStore.dropName, Table.remove_apply] at hk ⊢
        split at hk
        · cases hk
        case isFalse hne => simpa [hne] using h.own node k handle hk
      · intro k address' he
        obtain ⟨rfl, rfl⟩ : k = name ∧ address' = address := by simpa using he
        obtain rfl : address'.node = node := howner address' ha
        exact ⟨rfl, ha, Or.inl rfl⟩
  | @exit node id names hmem hnodup hnames =>
    refine h.commit ?_ ?_
    · intro k handle hk
      rw [NamedStore.removeByActorId_handles] at hk
      rw [NamedStore.removeByActorId_addresses]
      split at hk
      · cases hk
      case isFalse hne => simpa [hne] using h.own node k handle hk
    · intro k address he
      rw [NamedStore.removeByActorId_events] at he
      obtain ⟨name, hname, heq⟩ := List.mem_map.mp he
      cases heq
      obtain ⟨handle, hhandle, rfl⟩ := (hnames k).mp hname
      exact ⟨rfl, h.own node k handle hhandle, Or.inr ⟨names, rfl, hname⟩⟩
  | @deliver sender receiver event rest hqueue =>
    constructor
    · intro node name handle hh
      rw [RegistryCluster.handles_applyNext] at hh
      refine (RegistryCluster.lookup_applyNext sender receiver event rest name).trans ?_
      rw [if_neg (by simp [hh])]
      exact h.own node name handle hh
    · intro sender' receiver' name address he
      exact h.sent_snoc _ (Links.mem_pop hqueue he)

theorem run (h : Run (RegistryStep members) {} τ s) (howner : ∀ x ∈ τ, OwnerUnregisters x.1 x.2) : OwnersSpeak τ s := by
  induction h with
  | nil => exact ⟨by simp, by simp [Links.empty]⟩
  | @snoc τ s a s' _ hstep ih =>
    have hspeak := ih fun x hx => howner x (by simp [hx])
    exact hspeak.step (howner (s, a) (by simp)) hstep

/-- What makes an entry leave the view of a node in one step. -/
theorem retired (h : OwnersSpeak τ s) (howner : OwnerUnregisters s a) (hs : RegistryStep members s a s') {node : NodeId}
    {name : String} {address : ActorAddress} (hbefore : s.lookup node name = some address)
    (hafter : s'.lookup node name ≠ some address) : RetiredByOwner τ (s, a) node name address := by
  cases hs with
  | @register node' name' handle hmem =>
    -- a registration fills a free place and replaces nothing
    refine absurd ?_ hafter
    by_cases hn : node = node'
    · subst hn
      rw [RegistryCluster.lookup, RegistryCluster.stores_commit_self]
      unfold NamedStore.registerNamed
      split
      case h_1 => exact hbefore
      case h_2 hnone =>
        have hne : name ≠ name' := by
          rintro rfl
          rw [RegistryCluster.lookup, NamedStore.lookupAddress, hnone] at hbefore
          cases hbefore
        exact (Table.insert_ne _ _ hne).trans hbefore
    · rw [RegistryCluster.lookup, RegistryCluster.stores_commit_ne hn]
      exact hbefore
  | @unregister node' name' hmem =>
    left
    by_cases hn : node = node'
    · subst hn
      by_cases hk : name = name'
      · subst hk
        obtain rfl : address.node = node := howner address hbefore
        exact ⟨rfl, hbefore, Or.inl rfl⟩
      · refine absurd ?_ hafter
        rw [RegistryCluster.lookup, RegistryCluster.stores_commit_self]
        unfold NamedStore.unregisterNamed
        split
        case h_1 => exact hbefore
        case h_2 => exact (Table.remove_ne _ hk).trans hbefore
    · refine absurd ?_ hafter
      rw [RegistryCluster.lookup, RegistryCluster.stores_commit_ne hn]
      exact hbefore
  | @exit node' id names hmem hnodup hnames =>
    left
    by_cases hn : node = node'
    · subst hn
      by_cases hk : name ∈ names
      · obtain ⟨handle, hhandle, rfl⟩ := (hnames name).mp hk
        obtain rfl : ⟨node, handle.id⟩ = address := Option.some.inj ((h.own node name handle hhandle).symm.trans hbefore)
        exact ⟨rfl, hbefore, Or.inr ⟨names, rfl, hk⟩⟩
      · refine absurd ?_ hafter
        rw [RegistryCluster.lookup, RegistryCluster.stores_commit_self, NamedStore.lookupAddress,
          NamedStore.removeByActorId_addresses, if_neg hk]
        exact hbefore
    · refine absurd ?_ hafter
      rw [RegistryCluster.lookup, RegistryCluster.stores_commit_ne hn]
      exact hbefore
  | @deliver sender receiver event rest hqueue =>
    rw [RegistryCluster.lookup_applyNext, hbefore] at hafter
    split at hafter
    case isFalse => exact absurd rfl hafter
    case isTrue hc =>
      obtain rfl : event = .unregister name address := by
        by_contra hne
        exact hafter (RegistryEvent.onEntry_keeps hne)
      obtain ⟨hnode, hret⟩ := h.sent sender receiver name address (by simp [hqueue])
      right
      rw [hc.1, hnode]
      exact ⟨rfl, by simp [hqueue], hret⟩

end OwnersSpeak

/-- **Only the owner can retire a name**, in every run in which `unregister_named` is called for no name of another node:
an entry leaves the view of a node only when its owner, on its own node, unregisters the name or sees the actor exit, or
when the `Unregister` arrives that the owner sent at that moment. -/
theorem entry_retired_by_owner {members : List NodeId} {τ : List (RegistryCluster × RegistryAct)} {s : RegistryCluster}
    (h : Run (RegistryStep members) {} τ s) (howner : ∀ x ∈ τ, OwnerUnregisters x.1 x.2)
    (τ₁ τ₂ : List (RegistryCluster × RegistryAct)) (x : RegistryCluster × RegistryAct) (hτ : τ = τ₁ ++ x :: τ₂)
    (s' : RegistryCluster) (hs : RegistryStep members x.1 x.2 s') (node : NodeId) (name : String)
    (address : ActorAddress) (hbefore : x.1.lookup node name = some address)
    (hafter : s'.lookup node name ≠ some address) : RetiredByOwner τ₁ x node name address := by
  subst hτ
  have hspeak := OwnersSpeak.run h.before.1 fun y hy => howner y (by simp [hy])
  exact hspeak.retired (howner x (by simp)) hs hbefore hafter

/-- A name registered on `a`, replicated to `b`, and unregistered on `a`. -/
theorem entry_retired_by_owner_of_two :
    ∃ (τ : List (RegistryCluster × RegistryAct)) (s s' : RegistryCluster), Run (RegistryStep ["a", "b"]) {} τ s ∧
      RegistryStep ["a", "b"] s (.deliver "a" "b") s' ∧ s.lookup "b" "svc" = some ⟨"a", 1⟩ ∧
      s'.lookup "b" "svc" = none ∧ RetiredByOwner τ (s, .deliver "a" "b") "b" "svc" ⟨"a", 1⟩ := by
  have h₁ := Run.nil.snoc (@RegistryStep.register ["a", "b"] {} "a" "svc" ⟨1⟩ (by decide))
  have h₂ := h₁.snoc (@RegistryStep.deliver _ _ "a" "b" _ _ rfl)
  have h₃ := h₂.snoc (@RegistryStep.unregister _ _ "a" "svc" (by decide))
  have h₄ := h₃.snoc (@RegistryStep.deliver _ _ "a" "b" _ _ rfl)
  refine ⟨_, _, _, h₃, h₄.snoc_inv.2, by decide, by decide, ?_⟩
  exact entry_retired_by_owner h₄ (by decide) _ [] _ rfl _ h₄.snoc_inv.2 "b" "svc" ⟨"a", 1⟩ (by decide) (by decide)

/-- A name of `a`, unregistered on `b`: the entry is gone from `b`, and from `c` as soon as `b`'s event arrives, while `a`
still holds the registration. -/
theorem entry_retired_by_other :
    ∃ (τ : List (RegistryCluster × RegistryAct)) (s : RegistryCluster), Run (RegistryStep ["a", "b", "c"]) {} τ s ∧
      (∃ x ∈ τ, x.2 = .unregister "b" "svc" ∧ x.1.lookup "b" "svc" = some ⟨"a", 1⟩ ∧
        x.1.lookup "c" "svc" = some ⟨"a", 1⟩) ∧
      (∀ x ∈ τ, ∀ name, x.2 ≠ .unregister "a" name ∧ ∀ id names, x.2 ≠ .exit "a" id names) ∧
      (s.stores "a").handles "svc" = some ⟨1⟩ ∧ s.lookup "b" "svc" = none ∧ s.lookup "c" "svc" = none := by
  have h₁ := Run.nil.snoc (@RegistryStep.register ["a", "b", "c"] {} "a" "svc" ⟨1⟩ (by decide))
  have h₂ := h₁.snoc (@RegistryStep.deliver _ _ "a" "b" _ _ rfl)
  have h₃ := h₂.snoc (@RegistryStep.deliver _ _ "a" "c" _ _ rfl)
  have h₄ := h₃.snoc (@RegistryStep.unregister _ _ "b" "svc" (by decide))
  have h₅ := h₄.snoc (@RegistryStep.deliver _ _ "b" "c" _ _ rfl)
  exact ⟨_, _, h₅, by decide, by simp, by decide, by decide, by decide⟩

end Spawned
