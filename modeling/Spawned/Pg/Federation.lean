import Spawned.Lib.Run
import Spawned.Pg.Store

/-!
# Process groups across nodes

A node publishes its joins and leaves, and its peer keeps count of them per entry. On every connect both sides send a
snapshot of their own entries.

* `PgOp` : joins, leaves and exits on a node, with what they publish;
* `FedStep` : the owner of the entries, a peer connected from the start, and the events under way between them;
* `Rejoined` : an actor was joined to a group it was in already;
* `views_agree_iff` : when the peer shows the owner's members;
* `snapshot_sync_iff` : what a snapshot makes of any view.
-/

namespace Spawned

open Lib

/-- What a node does to its own process groups. -/
inductive PgOp
  | join (key : GroupKey) (id : ActorId)
  | leave (key : GroupKey) (id : ActorId)
  /-- `remove_actor`; the groups are those of the index, in the order of the set -/
  | exit (id : ActorId) (keys : List GroupKey)
deriving DecidableEq

namespace PgOp

/-- The exit of an actor goes through the groups the index has for it. -/
def Valid (here : NodeId) (store : PgStore) : PgOp → Prop
  | .exit id keys => store.GroupsOf ⟨here, id⟩ keys
  | _ => True

/-- The store afterwards, and what was published. -/
def run (here : NodeId) (store : PgStore) : PgOp → PgStore × List PgEvent
  | .join key id => store.joinScoped here key id
  | .leave key id => (store.leaveScoped here key id).2
  | .exit id keys => (store.removeActor ⟨here, id⟩ keys, PgStore.leaves ⟨here, id⟩ keys)

end PgOp

/-- What a stream of events makes of the count of an entry. -/
def drainCount (entry : PgEntry) (events : List PgEvent) (n : Nat) : Nat :=
  events.foldl (fun n event => event.onCount entry n) n

@[simp] theorem drainCount_nil (entry : PgEntry) (n : Nat) : drainCount entry [] n = n := rfl

theorem drainCount_cons (entry : PgEntry) (event : PgEvent) (events : List PgEvent) (n : Nat) :
    drainCount entry (event :: events) n = drainCount entry events (event.onCount entry n) := rfl

theorem drainCount_append (entry : PgEntry) (events events' : List PgEvent) (n : Nat) :
    drainCount entry (events ++ events') n = drainCount entry events' (drainCount entry events n) := by
  simp [drainCount, List.foldl_append]

/-- The leaves of an exit count for the entries of its groups, once each. -/
theorem drainCount_leaves {entry : PgEntry} {address : ActorAddress} {keys : List GroupKey} (hnodup : keys.Nodup)
    (n : Nat) :
    drainCount entry (PgStore.leaves address keys) n = if entry.2 = address ∧ entry.1 ∈ keys then n - 1 else n := by
  obtain ⟨k, a⟩ := entry
  induction keys generalizing n with
  | nil => simp [PgStore.leaves]
  | cons key keys ih =>
    obtain ⟨hkey, hnodup⟩ := List.nodup_cons.mp hnodup
    have hcons : PgStore.leaves address (key :: keys) = .leave key address :: PgStore.leaves address keys := rfl
    rw [hcons, drainCount_cons, ih hnodup]
    simp only [PgEvent.onCount, Prod.mk.injEq, List.mem_cons]
    by_cases ha : a = address
    · by_cases hk : k = key
      · subst hk
        simp [ha, hkey]
      · simp [ha, hk]
    · simp [ha]

namespace PgOp

variable {here : NodeId} {store : PgStore}

theorem indexed_run {op : PgOp} (h : store.Indexed here) (hvalid : op.Valid here store) :
    (op.run here store).1.Indexed here := by
  cases op with
  | join key id => exact h.joinScoped key id
  | leave key id => exact h.leaveScoped key id
  | exit id keys => exact h.removeActor hvalid.2

/-- What an operation does to the count of a local entry, and to the count of it that a peer draws from the events: a
join counts on both sides; the last leave and the exit take the local count to zero and one off the peer's; a leave that
is not the last is not published. -/
theorem run_cases {op : PgOp} (h : store.Indexed here) (hvalid : op.Valid here store) {entry : PgEntry}
    (hentry : entry.2.node = here) :
    (op = .join entry.1 entry.2.actorId ∧ (op.run here store).1.groups.count entry = store.groups.count entry + 1 ∧
      ∀ n, drainCount entry (op.run here store).2 n = n + 1) ∨
    (op ≠ .join entry.1 entry.2.actorId ∧
      ((op.run here store).1.groups.count entry = store.groups.count entry ∧
          (∀ n, drainCount entry (op.run here store).2 n = n) ∨
        (1 < store.groups.count entry ∧
          (op.run here store).1.groups.count entry = store.groups.count entry - 1 ∧
          ∀ n, drainCount entry (op.run here store).2 n = n) ∨
        (0 < store.groups.count entry ∧ (op.run here store).1.groups.count entry = 0 ∧
          ∀ n, drainCount entry (op.run here store).2 n = n - 1))) := by
  obtain ⟨k, node, i⟩ := entry
  obtain rfl : node = here := hentry
  cases op with
  | join key id =>
    by_cases he : (k, (⟨node, i⟩ : ActorAddress)) = (key, ⟨node, id⟩)
    · cases he
      left
      simp [run, PgStore.joinScoped, drainCount_cons, PgEvent.onCount]
    · right
      refine ⟨?_, Or.inl ⟨?_, ?_⟩⟩
      · rintro hop
        cases hop
        exact he rfl
      · simp [run, PgStore.joinScoped, Multiset.count_cons_of_ne he]
      · intro n
        simp [run, PgStore.joinScoped, drainCount_cons, PgEvent.onCount, he]
  | leave key id =>
    right
    refine ⟨by simp, ?_⟩
    by_cases he : (k, (⟨node, i⟩ : ActorAddress)) = (key, ⟨node, id⟩)
    · cases he
      rcases store.leaveScoped_cases node k i with ⟨-, heq⟩ | ⟨hcount, heq⟩ | ⟨hcount, left, heq, hgroups, -⟩
      · exact Or.inl (by simp [run, heq])
      · exact Or.inr (Or.inl ⟨hcount, by simp [run, heq], by simp [run, heq]⟩)
      · refine Or.inr (Or.inr ⟨by omega, ?_, ?_⟩)
        · simp [run, heq, hgroups, hcount]
        · intro n
          simp [run, heq, drainCount_cons, PgEvent.onCount]
    · left
      rcases store.leaveScoped_cases node key id with ⟨-, heq⟩ | ⟨hcount, heq⟩ | ⟨hcount, left, heq, hgroups, -⟩
      · simp [run, heq]
      · simp [run, heq, Multiset.count_erase_of_ne he]
      · refine ⟨by simp [run, heq, hgroups, Multiset.count_erase_of_ne he], ?_⟩
        intro n
        simp [run, heq, drainCount_cons, PgEvent.onCount, he]
  | exit id keys =>
    right
    refine ⟨by simp, ?_⟩
    obtain ⟨hnodup, hkeys⟩ := hvalid
    by_cases hmem : k ∈ keys ∧ i = id
    · obtain ⟨hk, rfl⟩ := hmem
      have hin : (k, (⟨node, i⟩ : ActorAddress)) ∈ store.groups := (h.index_iff k _).mp ((hkeys k).mp hk)
      refine Or.inr (Or.inr ⟨Multiset.count_pos.mpr hin, ?_, ?_⟩)
      · simp [run, PgStore.groups_removeActor, hk]
      · intro n
        simp [run, drainCount_leaves hnodup, hk]
    · have hnot : ¬((⟨node, i⟩ : ActorAddress) = ⟨node, id⟩ ∧ k ∈ keys) := by
        rintro ⟨he, hk⟩
        cases he
        exact hmem ⟨hk, rfl⟩
      left
      constructor
      · simp only [run, PgStore.groups_removeActor]
        exact Multiset.count_filter_of_pos hnot
      · intro n
        rw [run, drainCount_leaves hnodup, if_neg hnot]

/-- What a node does to its own groups leaves the entries of other nodes alone. -/
theorem remote_run (op : PgOp) {entry : PgEntry} (hentry : entry.2.node ≠ here) :
    (op.run here store).1.remote.count entry = store.remote.count entry := by
  cases op with
  | join key id => rfl
  | leave key id =>
    rcases store.leaveScoped_cases here key id with ⟨-, heq⟩ | ⟨-, heq⟩ | ⟨-, left, heq, -, hremote, -⟩
    · simp [run, heq]
    · simp [run, heq]
    · simp [run, heq, hremote]
  | exit id keys =>
    refine PgStore.count_remote_removeActor keys ?_
    rintro he
    exact hentry (by rw [he])

end PgOp

/-! ## An owner and its peer -/

/-- The stores of two nodes and the events under way from the first to the second. -/
structure Federation where
  owner : PgStore := {}
  peer : PgStore := {}
  queue : List PgEvent := []

inductive FedAct
  | own (op : PgOp)
  /-- the peer's own groups -/
  | peerOwn (op : PgOp)
  | deliver
deriving DecidableEq

/-- Node `a` owns the entries, node `b` is connected to it from the start. -/
inductive FedStep (a b : NodeId) (s : Federation) : FedAct → Federation → Prop
  | own {op : PgOp} (hvalid : op.Valid a s.owner) :
      FedStep a b s (.own op)
        { s with owner := (op.run a s.owner).1, queue := s.queue ++ (op.run a s.owner).2 }
  | peerOwn {op : PgOp} (hvalid : op.Valid b s.peer) :
      FedStep a b s (.peerOwn op) { s with peer := (op.run b s.peer).1 }
  | deliver {event : PgEvent} {rest : List PgEvent} (hqueue : s.queue = event :: rest) :
      FedStep a b s .deliver { s with peer := s.peer.applyRemotePgEvent b event, queue := rest }

/-- The actor was joined to the group while it was in it. -/
def Rejoined (τ : List (Federation × FedAct)) (entry : PgEntry) : Prop :=
  ∃ x ∈ τ, x.2 = .own (.join entry.1 entry.2.actorId) ∧ entry ∈ x.1.owner.groups

/-- The count of an entry at the peer once all events have been applied. -/
def Federation.promised (s : Federation) (entry : PgEntry) : Nat := drainCount entry s.queue (s.peer.remote.count entry)

/-- The invariant for one entry: an entry joined only once at a time is counted alike on both sides; otherwise the peer
is left with a count that no leave will take away. -/
structure Counted (τ : List (Federation × FedAct)) (s : Federation) (entry : PgEntry) : Prop where
  le : s.owner.groups.count entry ≤ s.promised entry
  once : ¬Rejoined τ entry → s.promised entry = s.owner.groups.count entry ∧ s.owner.groups.count entry ≤ 1
  more : Rejoined τ entry → s.owner.groups.count entry < s.promised entry ∨ 2 ≤ s.owner.groups.count entry

theorem rejoined_snoc {τ : List (Federation × FedAct)} {x : Federation × FedAct} {entry : PgEntry} :
    Rejoined (τ ++ [x]) entry ↔
      Rejoined τ entry ∨ (x.2 = .own (.join entry.1 entry.2.actorId) ∧ entry ∈ x.1.owner.groups) :=
  exists_mem_snoc

namespace Counted

variable {a b : NodeId} {τ : List (Federation × FedAct)} {s s' : Federation} {entry : PgEntry}

/-- A step that leaves both counts of the entry as they are. -/
theorem keep (h : Counted τ s entry) {act : FedAct} (hact : act ≠ .own (.join entry.1 entry.2.actorId))
    (howner : s'.owner.groups.count entry = s.owner.groups.count entry) (hpeer : s'.promised entry = s.promised entry) :
    Counted (τ ++ [(s, act)]) s' entry := by
  have hrejoined : Rejoined (τ ++ [(s, act)]) entry ↔ Rejoined τ entry := by
    rw [rejoined_snoc]
    simp [hact]
  refine ⟨?_, ?_, ?_⟩
  · rw [howner, hpeer]
    exact h.le
  · rw [howner, hpeer, hrejoined]
    exact h.once
  · rw [howner, hpeer, hrejoined]
    exact h.more

theorem own (h : Counted τ s entry) (hindex : s.owner.Indexed a) (hentry : entry.2.node = a) {op : PgOp}
    (hvalid : op.Valid a s.owner) (howner : s'.owner = (op.run a s.owner).1)
    (hpromised : s'.promised entry = drainCount entry (op.run a s.owner).2 (s.promised entry)) :
    Counted (τ ++ [(s, .own op)]) s' entry := by
  have hle := h.le
  rcases op.run_cases hindex hvalid hentry with ⟨rfl, hcount, hdrain⟩ | ⟨hop, hcases⟩
  · -- the owner joins the actor once more
    have hrejoined : Rejoined (τ ++ [(s, .own (.join entry.1 entry.2.actorId))]) entry ↔
        Rejoined τ entry ∨ 0 < s.owner.groups.count entry := by
      rw [rejoined_snoc]
      simp [Multiset.count_pos]
    refine ⟨?_, ?_, ?_⟩
    · rw [howner, hpromised, hdrain]
      omega
    · rw [howner, hpromised, hdrain, hrejoined]
      intro hnot
      obtain ⟨hnew, hzero⟩ := not_or.mp hnot
      have honce := h.once hnew
      omega
    · rw [howner, hpromised, hdrain, hrejoined]
      rintro (hr | hpos)
      · have hmore := h.more hr
        omega
      · omega
  · have hact : FedAct.own op ≠ .own (.join entry.1 entry.2.actorId) := fun he => hop (FedAct.own.inj he)
    have hrejoined : Rejoined (τ ++ [(s, .own op)]) entry ↔ Rejoined τ entry := by
      rw [rejoined_snoc]
      simp [hact]
    rcases hcases with ⟨hcount, hdrain⟩ | ⟨hmany, hcount, hdrain⟩ | ⟨hpos, hcount, hdrain⟩
    · exact h.keep hact (by rw [howner, hcount]) (by rw [hpromised, hdrain])
    · -- a leave that is not the last: the peer hears nothing
      refine ⟨?_, ?_, ?_⟩
      · rw [howner, hpromised, hdrain]
        omega
      · rw [hrejoined]
        intro hnew
        have honce := h.once hnew
        omega
      · rw [howner, hpromised, hdrain]
        omega
    · refine ⟨?_, ?_, ?_⟩
      · rw [howner, hpromised, hdrain]
        omega
      · rw [howner, hpromised, hdrain, hrejoined]
        intro hnew
        have honce := h.once hnew
        omega
      · rw [howner, hpromised, hdrain, hrejoined]
        intro hr
        have hmore := h.more hr
        omega

theorem step (hab : a ≠ b) (h : Counted τ s entry) (hindex : s.owner.Indexed a) (hentry : entry.2.node = a)
    {act : FedAct} (hs : FedStep a b s act s') : Counted (τ ++ [(s, act)]) s' entry := by
  have hremote : entry.2.node ≠ b := fun he => hab (hentry.symm.trans he)
  cases hs with
  | own hvalid => exact h.own hindex hentry hvalid rfl (drainCount_append ..)
  | @peerOwn op hvalid =>
    refine h.keep (by simp) rfl ?_
    show drainCount entry s.queue _ = drainCount entry s.queue _
    rw [op.remote_run hremote]
  | @deliver event rest hqueue =>
    refine h.keep (by simp) rfl ?_
    show drainCount entry rest _ = drainCount entry s.queue _
    rw [PgStore.count_applyRemotePgEvent event hremote, hqueue, drainCount_cons]

theorem run (hab : a ≠ b) (h : Run (FedStep a b) {} τ s) (hentry : entry.2.node = a) :
    s.owner.Indexed a ∧ Counted τ s entry := by
  induction h with
  | nil =>
    refine ⟨PgStore.Indexed.empty, ⟨?_, ?_, ?_⟩⟩
    · simp
    · simp [Federation.promised]
    · simp [Rejoined]
  | @snoc τ s act s' _ hstep ih =>
    obtain ⟨hindex, hcounted⟩ := ih
    refine ⟨?_, hcounted.step hab hindex hentry hstep⟩
    cases hstep with
    | own hvalid => exact PgOp.indexed_run hindex hvalid
    | peerOwn hvalid => exact hindex
    | deliver hqueue => exact hindex

end Counted

/-- **When a federated view is the owner's membership.** For every run of joins, leaves and exits on `a`, with anything
the peer `b` does to its own groups: when `b` has applied all events, it shows just the members `a` has, in every group,
if and only if every actor that is not in a group now was never joined to it while it was in it. -/
theorem views_agree_iff {a b : NodeId} (hab : a ≠ b) {τ : List (Federation × FedAct)} {s : Federation}
    (h : Run (FedStep a b) {} τ s) (happlied : s.queue = []) :
    (∀ entry : PgEntry, entry.2.node = a → (entry ∈ s.peer.remote ↔ entry ∈ s.owner.groups)) ↔
      ∀ entry : PgEntry, entry.2.node = a → entry ∈ s.owner.groups ∨ ¬Rejoined τ entry := by
  refine forall_congr' fun entry => forall_congr' fun hentry => ?_
  obtain ⟨-, hcounted⟩ := Counted.run hab h hentry
  have hpromised : s.promised entry = s.peer.remote.count entry := by
    rw [Federation.promised, happlied, drainCount_nil]
  have hle := hcounted.le
  rw [hpromised] at hle
  rw [← Multiset.count_pos, ← Multiset.count_pos]
  constructor
  · intro hiff
    by_contra hnot
    obtain ⟨hgone, hr⟩ := not_or.mp hnot
    have hmore := hcounted.more (not_not.mp hr)
    rw [hpromised] at hmore
    omega
  · rintro (hpos | hnew)
    · omega
    · have honce := hcounted.once hnew
      rw [hpromised] at honce
      omega

/-- An actor joined once, and the peer told. -/
theorem views_agree_iff_of_one :
    ∃ (τ : List (Federation × FedAct)) (s : Federation), Run (FedStep "a" "b") {} τ s ∧
      (⟨"default", "g"⟩, ⟨"a", 1⟩) ∈ s.owner.groups ∧
      ∀ entry : PgEntry, entry.2.node = "a" → (entry ∈ s.peer.remote ↔ entry ∈ s.owner.groups) := by
  have h₁ := Run.nil.snoc (@FedStep.own "a" "b" {} (.join ⟨"default", "g"⟩ 1) trivial)
  have h₂ := h₁.snoc (@FedStep.deliver _ _ _ _ _ rfl)
  refine ⟨_, _, h₂, by decide, (views_agree_iff (by decide) h₂ rfl).mpr ?_⟩
  intro entry _
  right
  rintro ⟨x, hx, hop, hin⟩
  simp only [List.nil_append, List.mem_append, List.mem_singleton] at hx
  rcases hx with rfl | rfl
  · simp at hin
  · simp at hop

/-- Two joins and two leaves of one actor: the peer has heard of both joins and of one leave, and keeps the actor in the
group for good. -/
theorem view_keeps_rejoined :
    ∃ (τ : List (Federation × FedAct)) (s : Federation), Run (FedStep "a" "b") {} τ s ∧ s.queue = [] ∧
      (⟨"default", "g"⟩, ⟨"a", 1⟩) ∈ s.peer.remote ∧ (⟨"default", "g"⟩, ⟨"a", 1⟩) ∉ s.owner.groups := by
  have h₁ := Run.nil.snoc (@FedStep.own "a" "b" {} (.join ⟨"default", "g"⟩ 1) trivial)
  have h₂ := h₁.snoc (@FedStep.own _ _ _ (.join ⟨"default", "g"⟩ 1) trivial)
  have h₃ := h₂.snoc (@FedStep.own _ _ _ (.leave ⟨"default", "g"⟩ 1) trivial)
  have h₄ := h₃.snoc (@FedStep.own _ _ _ (.leave ⟨"default", "g"⟩ 1) trivial)
  have h₅ := h₄.snoc (@FedStep.deliver _ _ _ (.join ⟨"default", "g"⟩ ⟨"a", 1⟩)
    [.join ⟨"default", "g"⟩ ⟨"a", 1⟩, .leave ⟨"default", "g"⟩ ⟨"a", 1⟩] (by decide))
  have h₆ := h₅.snoc (@FedStep.deliver _ _ _ _ _ rfl)
  have h₇ := h₆.snoc (@FedStep.deliver _ _ _ _ _ rfl)
  exact ⟨_, _, h₇, rfl, by decide, by decide⟩

/-! ## Snapshots -/

/-- Who reads the snapshot of the peer: the listener gets it as one event, the dialler goes through its entries. -/
inductive SnapshotPath
  | listener
  | dialler
deriving DecidableEq, Repr

/-- `apply_control_plane_snapshots`, the process groups. -/
def applyControlPlaneSnapshots (here : NodeId) (store : PgStore) (entries : List PgEntry) : PgStore :=
  entries.foldl (fun store entry => store.applyRemotePgEvent here (.join entry.1 entry.2)) store

/-- A snapshot of the peer is applied on node `here`. -/
def SnapshotPath.apply (path : SnapshotPath) (here : NodeId) (store : PgStore) (entries : List PgEntry) : PgStore :=
  match path with
  | .listener => store.applyRemotePgEvent here (.snapshot entries)
  | .dialler => applyControlPlaneSnapshots here store entries

/-- Both paths replay the snapshot as joins: every entry is counted once more. -/
theorem SnapshotPath.apply_eq (path : SnapshotPath) {here : NodeId} {store : PgStore} {entries : List PgEntry}
    (h : ∀ entry ∈ entries, entry.2.node ≠ here) :
    path.apply here store entries = { store with remote := store.remote + entries } := by
  cases path with
  | listener => exact PgStore.remote_applyJoins entries h
  | dialler => exact PgStore.remote_applyJoins entries h

/-- **When resynchronisation by snapshot is exact and idempotent.** Whatever node `b` knew before, and whichever side
dialled, once it has applied the snapshot of `a`:

* its members with addresses of `a` are those of the snapshot iff it knew no others before;
* applying the snapshot again, on either path, changes nothing iff `a` has no members;
* a single later leave removes each of them from its view iff it knew none of them before. -/
theorem snapshot_sync_iff {a b : NodeId} (hab : a ≠ b) (owner prior : PgStore) (hown : owner.Indexed a)
    (entries : List PgEntry) (hsnapshot : owner.Snapshot entries) (path path' : SnapshotPath) :
    ((∀ entry : PgEntry, entry.2.node = a →
          (entry ∈ (path.apply b prior entries).remote ↔ entry ∈ entries)) ↔
        ∀ entry ∈ prior.remote, entry.2.node = a → entry ∈ owner.groups) ∧
      (path'.apply b (path.apply b prior entries) entries = path.apply b prior entries ↔ owner.groups = 0) ∧
      ((∀ entry ∈ entries,
          entry ∉ ((path.apply b prior entries).applyRemotePgEvent b (.leave entry.1 entry.2)).remote) ↔
        ∀ entry ∈ owner.groups, entry ∉ prior.remote) := by
  obtain ⟨hnodup, hmem⟩ := hsnapshot
  have hone : ∀ entry ∈ entries, (entries : Multiset PgEntry).count entry = 1 := by
    intro entry hin
    exact Multiset.count_eq_one_of_mem (Multiset.coe_nodup.mpr hnodup) (Multiset.mem_coe.mpr hin)
  have hremote : ∀ entry ∈ entries, entry.2.node ≠ b := by
    intro entry he hb
    exact hab ((hown.own entry ((hmem entry).mp he)).symm.trans hb)
  rw [path'.apply_eq hremote, path.apply_eq hremote]
  refine ⟨?_, ?_, ?_⟩
  · constructor
    · intro hexact entry hin hnode
      exact (hmem entry).mp ((hexact entry hnode).mp (Multiset.mem_add.mpr (Or.inl hin)))
    · intro hknown entry hnode
      rw [Multiset.mem_add, Multiset.mem_coe]
      constructor
      · rintro (hin | hin)
        · exact (hmem entry).mpr (hknown entry hin hnode)
        · exact hin
      · exact Or.inr
  · constructor
    · intro heq
      refine Multiset.eq_zero_of_forall_notMem fun entry hin => ?_
      have hcount := congrArg (fun store => store.remote.count entry) heq
      simp only [Multiset.count_add, hone entry ((hmem entry).mpr hin)] at hcount
      omega
    · intro hzero
      have hnil : entries = [] := List.eq_nil_iff_forall_not_mem.mpr fun entry hin => by
        have := (hmem entry).mp hin
        simp [hzero] at this
      simp [hnil]
  · have hleft : ∀ entry ∈ entries,
        (entry ∉ (PgStore.applyRemotePgEvent b { prior with remote := prior.remote + entries }
          (.leave entry.1 entry.2)).remote ↔ entry ∉ prior.remote) := by
      intro entry hin
      rw [← Multiset.count_eq_zero, PgStore.count_applyRemotePgEvent _ (hremote entry hin), ← Multiset.count_eq_zero]
      simp [PgEvent.onCount, Multiset.count_add, hone entry hin]
    constructor
    · intro hgone entry hin
      have he := (hmem entry).mpr hin
      exact (hleft entry he).mp (hgone entry he)
    · intro hnew entry he
      exact (hleft entry he).mpr (hnew entry ((hmem entry).mp he))

/-- The first snapshot of a node with one member, on a peer that knew nothing. -/
theorem snapshot_sync_iff_of_first :
    ∃ (owner : PgStore) (entries : List PgEntry), owner.Indexed "a" ∧ owner.Snapshot entries ∧ entries ≠ [] ∧
      ∀ entry : PgEntry, entry.2.node = "a" →
        (entry ∈ (SnapshotPath.dialler.apply "b" {} entries).remote ↔ entry ∈ entries) := by
  let owner := (PgStore.joinScoped "a" {} ⟨"default", "g"⟩ 1).1
  have hown : owner.Indexed "a" := PgStore.Indexed.empty.joinScoped _ _
  have hsnapshot : owner.Snapshot [(⟨"default", "g"⟩, ⟨"a", 1⟩)] := by
    refine ⟨by simp, fun entry => ?_⟩
    simp [owner, PgStore.joinScoped]
  refine ⟨owner, _, hown, hsnapshot, by simp, ?_⟩
  exact (snapshot_sync_iff (by decide) owner {} hown _ hsnapshot .dialler .listener).1.mpr (by simp)

/-- Node `b` knew of `a`'s actor 1, which has left while the nodes were apart, and `a` now has actor 2 in the group: the
snapshot does not take actor 1 away. It comes on two connects, and a leave of actor 2 does not take that away either. -/
theorem snapshot_sync_fails :
    (⟨"default", "g"⟩, ⟨"a", 1⟩) ∈
        (SnapshotPath.listener.apply "b" { remote := {(⟨"default", "g"⟩, ⟨"a", 1⟩)} }
          [(⟨"default", "g"⟩, ⟨"a", 2⟩)]).remote ∧
      (⟨"default", "g"⟩, ⟨"a", 2⟩) ∈
        ((SnapshotPath.dialler.apply "b" (SnapshotPath.listener.apply "b" {} [(⟨"default", "g"⟩, ⟨"a", 2⟩)])
          [(⟨"default", "g"⟩, ⟨"a", 2⟩)]).applyRemotePgEvent "b" (.leave ⟨"default", "g"⟩ ⟨"a", 2⟩)).remote := by
  decide

end Spawned
