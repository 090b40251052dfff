import Spawned.Cluster.NamedRegistry

/-!
# Convergence of the named registry

Each name has at any time one node that leads it: the only one whose events about the name are under way, and the owner
of every entry for it. What a follower will see once the leader's events have arrived is what the leader sees now.

* `Settled` : a name is taken over only when nothing about it from another node is under way, and given up only by its
  owner;
* `Leads` : the invariant for one name and its leader; `Leads.handover` where the leader changes;
* `registry_converges` : the views agree when nothing is under way.
-/

namespace Spawned

open Lib

/-- The event says something about the name. -/
def RegistryEvent.About (k : String) : RegistryEvent → Prop
  | .register name _ => name = k
  | .unregister name _ => name = k
  | .snapshot entries => ∃ entry ∈ entries, entry.1 = k

instance (k : String) : (event : RegistryEvent) → Decidable (event.About k)
  | .register name _ => inferInstanceAs (Decidable (name = k))
  | .unregister name _ => inferInstanceAs (Decidable (name = k))
  | .snapshot entries => inferInstanceAs (Decidable (∃ entry ∈ entries, entry.1 = k))

theorem RegistryEvent.onEntry_of_not_about {k : String} {event : RegistryEvent} (h : ¬event.About k)
    (entry : Option ActorAddress) : event.onEntry k entry = entry := by
  cases event with
  | register name address => simp [onEntry, show k ≠ name from fun he => h he.symm]
  | unregister name address => simp [onEntry, show k ≠ name from fun he => h he.symm]
  | snapshot entries =>
    simp only [onEntry]
    induction entries generalizing entry with
    | nil => rfl
    | cons e entries ih =>
      have he : k ≠ e.1 := fun he => h ⟨e, by simp, he.symm⟩
      rw [List.foldl_cons, if_neg he]
      apply ih
      rintro ⟨x, hx, hxk⟩
      exact h ⟨x, by simp [hx], hxk⟩

/-- What the entry of `k` becomes when the events have been applied, oldest first. -/
def drain (k : String) (events : List RegistryEvent) (entry : Option ActorAddress) : Option ActorAddress :=
  events.foldl (fun entry event => event.onEntry k entry) entry

@[simp] theorem drain_nil (k : String) (entry : Option ActorAddress) : drain k [] entry = entry := rfl

theorem drain_cons (k : String) (event : RegistryEvent) (events : List RegistryEvent) (entry : Option ActorAddress) :
    drain k (event :: events) entry = drain k events (event.onEntry k entry) := rfl

theorem drain_append (k : String) (events events' : List RegistryEvent) (entry : Option ActorAddress) :
    drain k (events ++ events') entry = drain k events' (drain k events entry) := by
  simp [drain, List.foldl_append]

theorem drain_of_not_about {k : String} {events : List RegistryEvent} (h : ∀ event ∈ events, ¬event.About k)
    (entry : Option ActorAddress) : drain k events entry = entry := by
  induction events generalizing entry with
  | nil => rfl
  | cons event events ih =>
    rw [drain_cons, RegistryEvent.onEntry_of_not_about (h event (by simp))]
    exact ih (fun e he => h e (by simp [he])) entry

/-- The events of an exit empty the entries of its names. -/
theorem drain_unregisters {k : String} {names : List String} (address : ActorAddress) (hk : k ∈ names) :
    drain k (names.map fun name => .unregister name address) (some address) = none := by
  have hnone : ∀ names : List String, drain k (names.map fun name => .unregister name address) none = none := by
    intro names
    induction names with
    | nil => rfl
    | cons name names ih => simpa [drain_cons, RegistryEvent.onEntry] using ih
  induction names with
  | nil => cases hk
  | cons name names ih =>
    rw [List.map_cons, drain_cons]
    by_cases hname : k = name
    · simpa [RegistryEvent.onEntry, hname] using hnone names
    · simpa [RegistryEvent.onEntry, hname] using ih (by simpa [hname] using hk)

/-! ## The condition -/

/-- A node takes a free name only when no event about it from another node is under way, and `unregister_named` is
called for no name of another node. -/
def Settled (s : RegistryCluster) : RegistryAct → Prop
  | .register node name _ => s.lookup node name = none →
      ∀ sender receiver, sender ≠ node → ∀ event ∈ s.queues sender receiver, ¬event.About name
  | .unregister node name => ∀ address ∈ s.lookup node name, address.node = node
  | _ => True

theorem Settled.ownerUnregisters {s : RegistryCluster} {a : RegistryAct} (h : Settled s a) : OwnerUnregisters s a := by
  cases a with
  | unregister node name => exact h
  | register | exit | deliver => trivial

/-! ## The invariant -/

/-- What holds of all names: a node does not write to itself, and speaks of its own addresses only. -/
structure Spoken (s : RegistryCluster) : Prop where
  noSelf : ∀ node, s.queues node node = []
  events : ∀ sender receiver, ∀ event ∈ s.queues sender receiver, ∃ name address,
    (event = .register name address ∨ event = .unregister name address) ∧ address.node = sender

/-- Node `o` leads the name `k`. -/
structure Leads (members : List NodeId) (s : RegistryCluster) (k : String) (o : NodeId) : Prop where
  handle : ∀ node ∈ members, (s.stores node).handles k ≠ none → node = o
  node : ∀ node ∈ members, ∀ address, s.lookup node k = some address → address.node = o
  silent : ∀ sender receiver, sender ≠ o → ∀ event ∈ s.queues sender receiver, ¬event.About k
  drains : ∀ node ∈ members, node ≠ o → drain k (s.queues o node) (s.lookup node k) = s.lookup o k
  own : ∀ address, s.lookup o k = some address → (s.stores o).handles k = some ⟨address.actorId⟩

namespace RegistryCluster

variable {s : RegistryCluster} {members : List NodeId} {node : NodeId} {change : NamedStore × List RegistryEvent}

theorem lookup_commit_self (k : String) : (s.commit members node change).lookup node k = change.1.addresses k := by
  simp [lookup, stores_commit_self, NamedStore.lookupAddress]

theorem lookup_commit_ne {node' : NodeId} (h : node' ≠ node) (k : String) :
    (s.commit members node change).lookup node' k = s.lookup node' k := by
  simp [lookup, stores_commit_ne h]

/-- A step that changes and publishes nothing. -/
theorem commit_unchanged : s.commit members node (s.stores node, []) = s := by
  have hqueues : s.queues.broadcast members node [] = s.queues := by
    funext a b
    simp [Links.broadcast]
  simp only [commit, Function.update_eq_self, hqueues]

end RegistryCluster

namespace Leads

variable {members : List NodeId} {s : RegistryCluster} {k : String} {o : NodeId}

/-- A node commits a change that has nothing to do with the name. -/
theorem frame (h : Leads members s k o) {node : NodeId} {change : NamedStore × List RegistryEvent}
    (haddr : change.1.addresses k = (s.stores node).addresses k)
    (hhandle : change.1.handles k = (s.stores node).handles k) (hevents : ∀ event ∈ change.2, ¬event.About k) :
    Leads members (s.commit members node change) k o := by
  have hlookup : ∀ n, (s.commit members node change).lookup n k = s.lookup n k := by
    intro n
    by_cases hn : n = node
    · subst hn
      rw [RegistryCluster.lookup_commit_self, haddr]
      rfl
    · exact RegistryCluster.lookup_commit_ne hn k
  have hhandles : ∀ n, ((s.commit members node change).stores n).handles k = (s.stores n).handles k := by
    intro n
    by_cases hn : n = node
    · subst hn
      rw [RegistryCluster.stores_commit_self, hhandle]
    · rw [RegistryCluster.stores_commit_ne hn]
  refine ⟨?_, ?_, ?_, ?_, ?_⟩
  · intro n hn hh
    exact h.handle n hn (hhandles n ▸ hh)
  · intro n hn address ha
    exact h.node n hn address (hlookup n ▸ ha)
  · intro sender receiver hne event he
    rcases Links.mem_broadcast he with he | ⟨-, -, he⟩
    · exact h.silent sender receiver hne event he
    · exact hevents event he
  · intro n hn hne
    rw [hlookup, hlookup, ← h.drains n hn hne]
    by_cases ho : o = node
    · subst ho
      have hq : (s.commit members o change).queues o n = s.queues o n ++ change.2 := Links.broadcast_to hne hn
      rw [hq, drain_append, drain_of_not_about hevents]
    · have hq : (s.commit members node change).queues o n = s.queues o n := Links.broadcast_of_ne n ho
      rw [hq]
  · intro address ha
    rw [hhandles]
    exact h.own address (hlookup o ▸ ha)

/-- The leader commits a change to the name, and publishes what turns the old entry into the new one. -/
theorem lead (h : Leads members s k o) {change : NamedStore × List RegistryEvent}
    (hdrain : drain k change.2 (s.lookup o k) = change.1.addresses k)
    (hnode : ∀ address, change.1.addresses k = some address → address.node = o)
    (hown : ∀ address, change.1.addresses k = some address → change.1.handles k = some ⟨address.actorId⟩) :
    Leads members (s.commit members o change) k o := by
  refine ⟨?_, ?_, ?_, ?_, ?_⟩
  · intro n hn hh
    by_contra hne
    rw [RegistryCluster.stores_commit_ne hne] at hh
    exact hne (h.handle n hn hh)
  · intro n hn address ha
    by_cases hno : n = o
    · subst hno
      rw [RegistryCluster.lookup_commit_self] at ha
      exact hnode address ha
    · rw [RegistryCluster.lookup_commit_ne hno] at ha
      exact h.node n hn address ha
  · intro sender receiver hne event he
    rcases Links.mem_broadcast he with he | ⟨rfl, -, -⟩
    · exact h.silent sender receiver hne event he
    · exact absurd rfl hne
  · intro n hn hne
    have hq : (s.commit members o change).queues o n = s.queues o n ++ change.2 := Links.broadcast_to hne hn
    rw [hq, drain_append, RegistryCluster.lookup_commit_ne hne, h.drains n hn hne, hdrain,
      RegistryCluster.lookup_commit_self]
  · intro address ha
    rw [RegistryCluster.lookup_commit_self] at ha
    rw [RegistryCluster.stores_commit_self]
    exact hown address ha

/-- A free name with nothing from another node under way passes to a new leader. -/
theorem handover {τ : List (RegistryCluster × RegistryAct)} (h : Leads members s k o) (hspeak : OwnersSpeak τ s)
    {n : NodeId} (hn : n ∈ members) (hfree : s.lookup n k = none)
    (hquiet : ∀ sender receiver, sender ≠ n → ∀ event ∈ s.queues sender receiver, ¬event.About k) :
    Leads members s k n := by
  by_cases hno : n = o
  · rwa [hno]
  -- nothing is under way from the old leader, so all members see the name as free
  have hsame : ∀ m ∈ members, s.lookup m k = s.lookup o k := by
    intro m hm
    by_cases hmo : m = o
    · rw [hmo]
    · rw [← h.drains m hm hmo, drain_of_not_about (hquiet o m (Ne.symm hno))]
  have hnone : ∀ m ∈ members, s.lookup m k = none := by
    intro m hm
    rw [hsame m hm, ← hsame n hn, hfree]
  refine ⟨?_, ?_, hquiet, ?_, ?_⟩
  · intro m hm hh
    obtain ⟨handle, hhandle⟩ := Option.ne_none_iff_exists'.mp hh
    have hlookup := hspeak.own m k handle hhandle
    have hfree' : (s.stores m).addresses k = none := hnone m hm
    rw [hfree'] at hlookup
    cases hlookup
  · intro m hm address ha
    rw [hnone m hm] at ha
    cases ha
  · intro m hm hne
    rw [drain_of_not_about (h.silent n m hno), hnone m hm, hfree]
  · intro address ha
    rw [hfree] at ha
    cases ha

/-- An event is delivered. -/
theorem deliver (h : Leads members s k o) (hs : Spoken s) {sender receiver : NodeId} {event : RegistryEvent}
    {rest : List RegistryEvent} (hqueue : s.queues sender receiver = event :: rest) :
    Leads members (s.applyNext sender receiver event rest) k o := by
  have hne : receiver ≠ sender := by
    rintro rfl
    simp [hs.noSelf] at hqueue
  -- only the leader's events touch the entry of the name
  have hkeep : sender ≠ o → ¬event.About k := fun hso => h.silent sender receiver hso event (by simp [hqueue])
  have hlookup : ∀ n, n = o ∨ sender ≠ o ∨ n ≠ receiver →
      (s.applyNext sender receiver event rest).lookup n k = s.lookup n k := by
    intro n hn
    rw [RegistryCluster.lookup_applyNext]
    split
    case isFalse => rfl
    case isTrue hc =>
      apply RegistryEvent.onEntry_of_not_about
      apply hkeep
      rintro rfl
      rcases hn with rfl | hn | hn
      · exact hne hc.1.symm
      · exact hn rfl
      · exact hn hc.1
  refine ⟨?_, ?_, ?_, ?_, ?_⟩
  · intro n hn hh
    rw [RegistryCluster.handles_applyNext] at hh
    exact h.handle n hn hh
  · intro n hn address ha
    by_cases hc : n = o ∨ sender ≠ o ∨ n ≠ receiver
    · rw [hlookup n hc] at ha
      exact h.node n hn address ha
    · obtain ⟨hno, hso, hnr⟩ : n ≠ o ∧ sender = o ∧ n = receiver := by
        simpa only [not_or, not_not] using hc
      rw [RegistryCluster.lookup_applyNext] at ha
      split at ha
      case isFalse => exact h.node n hn address ha
      case isTrue =>
        obtain ⟨name, address', hevent, haddr⟩ := hs.events sender receiver event (by simp [hqueue])
        have hcases : s.lookup n k = some address ∨ address = address' := by
          rcases hevent with rfl | rfl
          · cases hl : s.lookup n k with
            | none =>
              rw [hl] at ha
              simp only [RegistryEvent.onEntry] at ha
              split at ha
              · exact Or.inr (by simpa using ha.symm)
              · cases ha
            | some old =>
              rw [hl] at ha
              simp only [RegistryEvent.onEntry, Option.some_or, ite_self] at ha
              exact Or.inl ha
          · simp only [RegistryEvent.onEntry] at ha
            split at ha
            · cases ha
            · exact Or.inl ha
        rcases hcases with hl | rfl
        · exact h.node n hn address hl
        · rw [haddr, hso]
  · intro sender' receiver' hso event' he
    exact h.silent sender' receiver' hso event' (Links.mem_pop hqueue he)
  · intro n hn hno
    rw [hlookup o (Or.inl rfl), ← h.drains n hn hno]
    by_cases hc : sender ≠ o ∨ n ≠ receiver
    · have hq : (s.applyNext sender receiver event rest).queues o n = s.queues o n := by
        refine Links.pop_of_ne ?_
        rintro ⟨rfl, rfl⟩
        simp at hc
      rw [hq, hlookup n (Or.inr hc)]
    · obtain ⟨rfl, rfl⟩ : sender = o ∧ n = receiver := by simpa only [not_or, not_not] using hc
      have hfree : (s.stores n).handles k = none := by
        by_contra hh
        exact hno (h.handle n hn hh)
      have hq : (s.applyNext sender n event rest).queues sender n = rest := Links.pop_self
      rw [hq, RegistryCluster.lookup_applyNext, if_pos ⟨rfl, hfree⟩, hqueue, drain_cons]
  · intro address ha
    rw [hlookup o (Or.inl rfl)] at ha
    rw [RegistryCluster.handles_applyNext]
    exact h.own address ha

end Leads

/-! ## Every step keeps it -/

theorem Spoken.commit {s : RegistryCluster} {members : List NodeId} (h : Spoken s) {node : NodeId}
    {change : NamedStore × List RegistryEvent}
    (hevents : ∀ event ∈ change.2, ∃ name address,
      (event = .register name address ∨ event = .unregister name address) ∧ address.node = node) :
    Spoken (s.commit members node change) := by
  constructor
  · intro n
    have hq : (s.commit members node change).queues n n = s.queues n n := by
      simp only [RegistryCluster.commit, Links.broadcast]
      split
      case isTrue hc => exact absurd hc.1 hc.2.1
      case isFalse => rfl
    rw [hq, h.noSelf]
  · intro sender receiver event he
    rcases Links.mem_broadcast he with he | ⟨rfl, -, he⟩
    · exact h.events sender receiver event he
    · exact hevents event he

theorem Spoken.step {s s' : RegistryCluster} {a : RegistryAct} {members : List NodeId} (h : Spoken s)
    (howner : OwnerUnregisters s a) (hs : RegistryStep members s a s') : Spoken s' := by
  cases hs with
  | @register node name handle hmem =>
    apply h.commit
    intro event he
    unfold NamedStore.registerNamed at he
    split at he
    · simp at he
    · exact ⟨name, ⟨node, handle.id⟩, Or.inl (by simpa using he), rfl⟩
  | @unregister node name hmem =>
    apply h.commit
    intro event he
    unfold NamedStore.unregisterNamed at he
    split at he
    · simp at he
    case h_2 address ha => exact ⟨name, address, Or.inr (by simpa using he), howner address ha⟩
  | @exit node id names hmem hnodup hnames =>
    apply h.commit
    intro event he
    rw [NamedStore.removeByActorId_events] at he
    obtain ⟨name, -, rfl⟩ := List.mem_map.mp he
    exact ⟨name, ⟨node, id⟩, Or.inr rfl, rfl⟩
  | @deliver sender receiver event rest hqueue =>
    constructor
    · intro n
      have hq : (s.applyNext sender receiver event rest).queues n n = s.queues n n := by
        refine Links.pop_of_ne ?_
        rintro ⟨rfl, rfl⟩
        simp [h.noSelf] at hqueue
      rw [hq, h.noSelf]
    · intro sender' receiver' event' he
      exact h.events sender' receiver' event' (Links.mem_pop hqueue he)

theorem Leads.step {τ : List (RegistryCluster × RegistryAct)} {s s' : RegistryCluster} {a : RegistryAct}
    {members : List NodeId} {k : String} {o : NodeId} (h : Leads members s k o) (hspoken : Spoken s)
    (hspeak : OwnersSpeak τ s) (hsettled : Settled s a) (hs : RegistryStep members s a s') :
    ∃ o', Leads members s' k o' := by
  cases hs with
  | @register node name handle hmem =>
    cases ha : (s.stores node).addresses name with
    | some address =>
      have heq : ((s.stores node).registerNamed node name handle).2 = (s.stores node, []) := by
        simp [NamedStore.registerNamed, ha]
      rw [heq, RegistryCluster.commit_unchanged]
      exact ⟨o, h⟩
    | none =>
      have heq : ((s.stores node).registerNamed node name handle).2 =
          ({ addresses := (s.stores node).addresses.insert name ⟨node, handle.id⟩,
             handles := (s.stores node).handles.insert name handle }, [.register name ⟨node, handle.id⟩]) := by
        simp [NamedStore.registerNamed, ha]
      rw [heq]
      by_cases hk : k = name
      · -- the registering node leads the name from now on
        subst hk
        have hlead := h.handover hspeak hmem ha (hsettled ha)
        have hfree : s.lookup node k = none := ha
        refine ⟨node, hlead.lead ?_ ?_ ?_⟩
        · simp [hfree, drain_cons, RegistryEvent.onEntry]
        · intro address hadd
          obtain rfl : ⟨node, handle.id⟩ = address := by simpa using hadd
          rfl
        · intro address hadd
          obtain rfl : ⟨node, handle.id⟩ = address := by simpa using hadd
          simp
      · refine ⟨o, h.frame (Table.insert_ne _ _ hk) (Table.insert_ne _ _ hk) ?_⟩
        simp [RegistryEvent.About, Ne.symm hk]
  | @unregister node name hmem =>
    cases ha : (s.stores node).addresses name with
    | none =>
      have heq : (s.stores node).unregisterNamed name = (s.stores node, []) := by simp [NamedStore.unregisterNamed, ha]
      rw [heq, RegistryCluster.commit_unchanged]
      exact ⟨o, h⟩
    | some address =>
      have heq : (s.stores node).unregisterNamed name =
          ((s.stores node).dropName name, [.unregister name address]) := by
        simp [NamedStore.unregisterNamed, ha]
      rw [heq]
      by_cases hk : k = name
      · subst hk
        have hlookup : s.lookup node k = some address := ha
        obtain rfl : node = o := (hsettled address ha).symm.trans (h.node node hmem address ha)
        refine ⟨node, h.lead ?_ ?_ ?_⟩
        · simp [hlookup, drain_cons, RegistryEvent.onEntry, NamedStore.dropName]
        · simp [NamedStore.dropName]
        · simp [NamedStore.dropName]
      · refine ⟨o, h.frame (Table.remove_ne _ hk) (Table.remove_ne _ hk) ?_⟩
        simp [RegistryEvent.About, Ne.symm hk]
  | @exit node id names hmem hnodup hnames =>
    by_cases hk : k ∈ names
    · obtain ⟨handle, hhandle, rfl⟩ := (hnames k).mp hk
      obtain rfl : node = o := h.handle node hmem (by simp [hhandle])
      have hlookup : s.lookup node k = some ⟨node, handle.id⟩ := hspeak.own node k handle hhandle
      refine ⟨node, h.lead ?_ ?_ ?_⟩
      · rw [NamedStore.removeByActorId_events, NamedStore.removeByActorId_addresses, if_pos hk, hlookup,
          drain_unregisters _ hk]
      · rw [NamedStore.removeByActorId_addresses, if_pos hk]
        simp
      · rw [NamedStore.removeByActorId_addresses, if_pos hk]
        simp
    · refine ⟨o, h.frame ?_ ?_ ?_⟩
      · rw [NamedStore.removeByActorId_addresses, if_neg hk]
      · rw [NamedStore.removeByActorId_handles, if_neg hk]
      · rw [NamedStore.removeByActorId_events]
        intro event he
        obtain ⟨name, hname, rfl⟩ := List.mem_map.mp he
        rintro rfl
        exact hk hname
  | @deliver sender receiver event rest hqueue => exact ⟨o, h.deliver hspoken hqueue⟩

/-- Each name has a leader after every settled run. -/
theorem exists_leads {members : List NodeId} {τ : List (RegistryCluster × RegistryAct)} {s : RegistryCluster}
    (h : Run (RegistryStep members) {} τ s) (hsettled : ∀ x ∈ τ, Settled x.1 x.2) (k : String) :
    Spoken s ∧ ∃ o, Leads members s k o := by
  induction h with
  | nil =>
    refine ⟨⟨fun _ => rfl, by simp [Links.empty]⟩, "", ⟨?_, ?_, ?_, ?_, ?_⟩⟩
    · simp
    · simp [RegistryCluster.lookup, NamedStore.lookupAddress]
    · simp [Links.empty]
    · simp [Links.empty, RegistryCluster.lookup]
    · simp [RegistryCluster.lookup, NamedStore.lookupAddress]
  | @snoc τ s a s' hrun hstep ih =>
    obtain ⟨hspoken, o, hlead⟩ := ih fun x hx => hsettled x (by simp [hx])
    have hset := hsettled (s, a) (by simp)
    have hspeak := OwnersSpeak.run hrun fun x hx => (hsettled x (by simp [hx])).ownerUnregisters
    exact ⟨hspoken.step hset.ownerUnregisters hstep, hlead.step hspoken hspeak hset hstep⟩

/-- Only members send. -/
theorem queues_of_not_mem {members : List NodeId} {τ : List (RegistryCluster × RegistryAct)} {s : RegistryCluster}
    (h : Run (RegistryStep members) {} τ s) {sender : NodeId} (hsender : sender ∉ members) (receiver : NodeId) :
    s.queues sender receiver = [] := by
  refine h.inv (I := fun s => s.queues sender receiver = []) rfl ?_
  intro s a s' hs hstep
  cases hstep with
  | deliver hqueue =>
    refine (Links.pop_of_ne ?_).trans hs
    rintro ⟨rfl, rfl⟩
    simp [hs] at hqueue
  | register hmem | unregister hmem | exit hmem =>
    refine (Links.broadcast_of_ne receiver ?_).trans hs
    rintro rfl
    exact hsender hmem

/-- **The named registry converges** in every run in which a node takes a free name only when nothing about the name from
another node is under way, and `unregister_named` is called for no name of another node: when all published events have
been applied, the members give one answer for every name, and the answer is an address still registered on its own node,
or none. -/
theorem registry_converges {members : List NodeId} {τ : List (RegistryCluster × RegistryAct)} {s : RegistryCluster}
    (h : Run (RegistryStep members) {} τ s) (hsettled : ∀ x ∈ τ, Settled x.1 x.2)
    (happlied : ∀ sender ∈ members, ∀ receiver ∈ members, s.queues sender receiver = []) (k : String) :
    (∀ n ∈ members, ∀ m ∈ members, s.lookup n k = s.lookup m k) ∧
      ∀ n ∈ members, ∀ address, s.lookup n k = some address →
        (s.stores address.node).handles k = some ⟨address.actorId⟩ ∧ s.lookup address.node k = some address := by
  obtain ⟨-, o, hlead⟩ := exists_leads h hsettled k
  have hsame : ∀ n ∈ members, s.lookup n k = s.lookup o k := by
    intro n hn
    by_cases hno : n = o
    · rw [hno]
    · have hempty : s.queues o n = [] := by
        by_cases ho : o ∈ members
        · exact happlied o ho n hn
        · exact queues_of_not_mem h ho n
      rw [← hlead.drains n hn hno, hempty, drain_nil]
  constructor
  · intro n hn m hm
    rw [hsame n hn, hsame m hm]
  · intro n hn address ha
    obtain rfl := hlead.node n hn address ha
    rw [hsame n hn] at ha
    exact ⟨hlead.own address ha, ha⟩

/-- A name registered on `a` and replicated to `b`. -/
theorem registry_converges_of_two :
    ∃ (τ : List (RegistryCluster × RegistryAct)) (s : RegistryCluster), Run (RegistryStep ["a", "b"]) {} τ s ∧
      s.lookup "a" "svc" = some ⟨"a", 1⟩ ∧ s.lookup "a" "svc" = s.lookup "b" "svc" := by
  have h₁ := Run.nil.snoc (@RegistryStep.register ["a", "b"] {} "a" "svc" ⟨1⟩ (by decide))
  have h₂ := h₁.snoc (@RegistryStep.deliver _ _ "a" "b" _ _ rfl)
  refine ⟨_, _, h₂, by decide, (registry_converges h₂ ?_ (by decide) "svc").1 "a" (by decide) "b" (by decide)⟩
  intro x hx
  simp only [List.nil_append, List.mem_append, List.mem_singleton] at hx
  rcases hx with rfl | rfl
  · simp [Settled, Links.empty]
  · trivial

/-- A takeover: `a` gives the name up, `b` hears of it and takes the name, and `c` hears of `b` before it hears of `a`. All
events are applied, and `c` knows no address for the name that `a` and `b` find on `b`. -/
theorem registry_diverges :
    ∃ (τ : List (RegistryCluster × RegistryAct)) (s : RegistryCluster), Run (RegistryStep ["a", "b", "c"]) {} τ s ∧
      (∀ x ∈ τ, OwnerUnregisters x.1 x.2) ∧
      (∀ sender ∈ ["a", "b", "c"], ∀ receiver ∈ ["a", "b", "c"], s.queues sender receiver = []) ∧
      s.lookup "a" "svc" = some ⟨"b", 2⟩ ∧ s.lookup "b" "svc" = some ⟨"b", 2⟩ ∧ s.lookup "c" "svc" = none := by
  have h₁ := Run.nil.snoc (@RegistryStep.register ["a", "b", "c"] {} "a" "svc" ⟨1⟩ (by decide))
  have h₂ := h₁.snoc (@RegistryStep.deliver _ _ "a" "b" _ _ rfl)
  have h₃ := h₂.snoc (@RegistryStep.deliver _ _ "a" "c" _ _ rfl)
  have h₄ := h₃.snoc (@RegistryStep.unregister _ _ "a" "svc" (by decide))
  have h₅ := h₄.snoc (@RegistryStep.deliver _ _ "a" "b" _ _ rfl)
  have h₆ := h₅.snoc (@RegistryStep.register _ _ "b" "svc" ⟨2⟩ (by decide))
  have h₇ := h₆.snoc (@RegistryStep.deliver _ _ "b" "a" _ _ rfl)
  have h₈ := h₇.snoc (@RegistryStep.deliver _ _ "b" "c" _ _ rfl)
  have h₉ := h₈.snoc (@RegistryStep.deliver _ _ "a" "c" _ _ rfl)
  exact ⟨_, _, h₉, by decide, by decide, by decide, by decide, by decide⟩

end Spawned
