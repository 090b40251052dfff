import Spawned.Mailbox.Stopping
import Spawned.Pg.Tables

/-!
# Dispatch to one member of a process group

`select_local_target` collects the members of a group from its typed bucket, drops those that have exited, and picks one
of the others: the next in turn, or the one whose mailbox reports the lowest depth.

* `selectMemberIndex`, `selectLocalTarget` : the selection; the values of a bucket come in the order of a hash map
  (`TypedMembers`);
* `leastLoaded_spec` : the loop over the depths finds the first of the lowest;
* `depth_eq_length_iff` : between sends and dequeues `depth` is the length of the queue exactly if the mailbox is bounded
  or its queue empty, as an unbounded mailbox counts nothing;
* `depth_reports_queue_iff` : so a dispatcher by load goes by the queues only as far as that.
-/

namespace Spawned

open Lib

/-- How to pick a member of a process group. -/
inductive PoolStrategy
  | roundRobin
  | leastLoaded
deriving DecidableEq, Repr

/-- Errors routing a message to one pool member. -/
inductive PoolError
  | noMembers
  | actor (error : ActorError)
deriving DecidableEq, Repr

/-- A dispatcher for one group; `next` is a `usize` of 64 bits. -/
structure PoolDispatcher where
  scope : String
  group : String
  strategy : PoolStrategy
  next : UInt64 := 0
deriving DecidableEq, Repr

namespace PoolDispatcher

def new (group : String) (strategy : PoolStrategy) : PoolDispatcher where
  scope := defaultScope
  group := group
  strategy := strategy

def withScope (d : PoolDispatcher) (scope : String) : PoolDispatcher := { d with scope }

def key (d : PoolDispatcher) : GroupKey := ⟨d.scope, d.group⟩

end PoolDispatcher

/-! ## Selection -/

/-- The loop of `LeastLoaded` from index `i` on, with the lowest depth so far and where it was. -/
def leastLoadedFrom (best : Nat) (min : UInt64) (i : Nat) : List UInt64 → Nat
  | [] => best
  | depth :: depths =>
    if depth < min then leastLoadedFrom i depth (i + 1) depths else leastLoadedFrom best min (i + 1) depths

def leastLoaded : List UInt64 → Nat
  | [] => 0
  | depth :: depths => leastLoadedFrom 0 depth 1 depths

/-- `select_member_index`: the index, and the counter after it. -/
def selectMemberIndex (memberCount : Nat) (strategy : PoolStrategy) (depths : List UInt64) (next : UInt64) :
    Option Nat × UInt64 :=
  if memberCount = 0 then (none, next)
  else
    match strategy with
    | .roundRobin => (some (next.toNat % memberCount), next + 1)
    | .leastLoaded => (some (leastLoaded depths), next)

/-- The values of a typed bucket, in any order: that of a hash map. -/
def PgTables.TypedMembers {V : Type} (store : PgTables V) (key : GroupKey) (type : TypeId) (values : List V) : Prop :=
  values.Perm ((store.typed (key, type)).elim [] fun bucket => bucket.entries.map (·.2))

/-- `members_scoped`: the values of the bucket whose actors have not exited. -/
def membersScoped (values : List ActorId) (alive : ActorId → Bool) : List ActorId := values.filter alive

/-- `select_local_target` among these members: the target, and the dispatcher after it. -/
def selectLocalTarget (d : PoolDispatcher) (members : List ActorId) (mailboxDepth : ActorId → UInt64) :
    Except PoolError ActorId × PoolDispatcher :=
  if members.isEmpty then (.error .noMembers, d)
  else
    let depths := members.map mailboxDepth
    let (idx, next) := selectMemberIndex depths.length d.strategy depths d.next
    match idx.bind (members[·]?) with
    | some member => (.ok member, { d with next })
    | none => (.error .noMembers, { d with next })

/-! ### The lowest depth -/

/-- The first of the lowest depths. -/
structure FirstLowest (depths : List UInt64) (i : Nat) : Prop where
  lt : i < depths.length
  lowest : ∀ j (hj : j < depths.length), depths[i] ≤ depths[j]
  first : ∀ j (hj : j < i), depths[i] < depths[j]

/-- What the loop keeps: `best` is the first of the lowest among the depths it has seen. -/
theorem firstLowest_from {seen depths : List UInt64} {best : Nat} {min : UInt64} (h : FirstLowest seen best)
    (hmin : seen[best]? = some min) : FirstLowest (seen ++ depths) (leastLoadedFrom best min seen.length depths) := by
  induction depths generalizing seen best min with
  | nil => simpa [leastLoadedFrom] using h
  | cons depth depths ih =>
    obtain ⟨hlt, hget⟩ := List.getElem?_eq_some_iff.mp hmin
    have hseen : seen ++ depth :: depths = (seen ++ [depth]) ++ depths := by simp
    have hlen : seen.length + 1 = (seen ++ [depth]).length := by simp
    rw [leastLoadedFrom, hseen, hlen]
    split_ifs with hdepth
    · refine ih ⟨by simp, fun j hj => ?_, fun j hj => ?_⟩ (by simp)
      · by_cases hj' : j < seen.length
        · have hle := h.lowest j hj'
          rw [hget] at hle
          simpa [List.getElem_append_left hj'] using UInt64.le_of_lt (UInt64.lt_of_lt_of_le hdepth hle)
        · have hj'' : j = seen.length := by simp at hj; omega
          simp [hj'']
      · have hle := h.lowest j hj
        rw [hget] at hle
        simpa [List.getElem_append_left hj] using UInt64.lt_of_lt_of_le hdepth hle
    · have hbest : (seen ++ [depth])[best]? = some min := by rw [List.getElem?_append_left hlt, hmin]
      refine ih ⟨by simp; omega, fun j hj => ?_, fun j hj => ?_⟩ hbest
      · rw [List.getElem_append_left hlt]
        by_cases hj' : j < seen.length
        · rw [List.getElem_append_left hj']
          exact h.lowest j hj'
        · have hj'' : j = seen.length := by simp at hj; omega
          simpa [hj'', hget] using hdepth
      · rw [List.getElem_append_left hlt, List.getElem_append_left (by omega)]
        exact h.first j hj

theorem leastLoaded_spec {depths : List UInt64} (h : depths ≠ []) : FirstLowest depths (leastLoaded depths) := by
  cases depths with
  | nil => exact absurd rfl h
  | cons depth depths =>
    have hone : FirstLowest [depth] 0 := ⟨by simp, fun j hj => by simp, fun j hj => by simp at hj⟩
    exact firstLowest_from hone rfl

/-- By load, the target is a member whose mailbox reports the lowest depth. -/
theorem selectLocalTarget_leastLoaded {d : PoolDispatcher} (hd : d.strategy = .leastLoaded) {members : List ActorId}
    (hmembers : members ≠ []) (mailboxDepth : ActorId → UInt64) :
    ∃ target ∈ members, (selectLocalTarget d members mailboxDepth).1 = .ok target ∧
      ∀ id ∈ members, mailboxDepth target ≤ mailboxDepth id := by
  have hspec : FirstLowest (members.map mailboxDepth) _ := leastLoaded_spec (by simpa using hmembers)
  have hlt : leastLoaded (members.map mailboxDepth) < members.length := by simpa using hspec.lt
  refine ⟨members[leastLoaded (members.map mailboxDepth)], List.getElem_mem hlt, ?_, fun id hid => ?_⟩
  · have hlen : members.length ≠ 0 := by simpa using hmembers
    simp [selectLocalTarget, selectMemberIndex, hd, hmembers, hlen, List.getElem?_eq_getElem hlt]
  · obtain ⟨j, hj, rfl⟩ := List.getElem_of_mem hid
    have hle := hspec.lowest j (by simpa using hj)
    rwa [List.getElem_map, List.getElem_map] at hle

/-! ## What a mailbox reports -/

namespace Mailbox

variable {M : Type} {limits : MailboxLimits} {s s' : Mailbox M} {a : MailboxAct M}

/-- No send and no dequeue is in progress. -/
def Idle (s : Mailbox M) : Prop := s.AllReturned ∧ s.receiver = .recv

instance (s : Mailbox M) : Decidable s.Idle := inferInstanceAs (Decidable (_ ∧ _))

/-- A mailbox without a capacity: no call acquires anything, and nothing is counted. -/
structure Uncounted (s : Mailbox M) : Prop where
  depth : s.depth = 0
  pcs : ∀ j pc, s.pcAt j = some pc → pc = .send ∨ pc = .rollback ∨ ∃ result, pc = .returned result
  receiver : s.receiver ≠ .notifyBlockers

theorem Uncounted.move {i : Nat} {c : SendCall M} {pc : SendPc} (h : Uncounted s) (hi : s.calls[i]? = some c)
    (hcalls : s'.calls = (s.setPc i c pc).calls) (hreceiver : s'.receiver = s.receiver) (hdepth : s'.depth = 0)
    (hpc : pc = .send ∨ pc = .rollback ∨ ∃ result, pc = .returned result) : Uncounted s' := by
  refine ⟨hdepth, fun j pc' hj => ?_, hreceiver ▸ h.receiver⟩
  rw [pcAt, hcalls, ← pcAt, pcAt_setPc hi] at hj
  split_ifs at hj with hji
  · cases hj
    exact hpc
  · exact h.pcs j pc' hj

theorem Uncounted.step (hcap : limits.capacity = none) (h : Uncounted s) (hstep : MailboxStep limits s a s') :
    Uncounted s' := by
  cases hstep.moves with
  | call item =>
    have hentry : limits.entry = .send := by simp [MailboxLimits.entry, hcap]
    refine ⟨h.depth, fun j pc hj => ?_, h.receiver⟩
    by_cases hlt : j < s.calls.length
    · exact h.pcs j pc (by simpa [pcAt, List.getElem?_append_left hlt] using hj)
    · simp only [pcAt, List.getElem?_append_right (Nat.le_of_not_lt hlt), List.getElem?_singleton, hentry] at hj
      split at hj
      · exact Or.inl (by simpa using hj.symm)
      · simp at hj
  | @move _ i c pc depth user guard hi hmove =>
    refine h.move hi rfl rfl ?_ ?_
    · have hbefore := h.pcs i c.pc (pcAt_of_calls hi)
      show depth = 0
      generalize c.pc = before at hmove hbefore
      cases hmove with
      | exchange => simp at hbefore
      | add => simp at hbefore
      | giveBack hsome => simp [hcap] at hsome
      | _ => exact h.depth
    · have hbefore := h.pcs i c.pc (pcAt_of_calls hi)
      generalize c.pc = before at hmove hbefore
      cases hmove with
      | sent => exact Or.inr (Or.inr ⟨_, rfl⟩)
      | refused => exact Or.inr (Or.inl rfl)
      | uncounted => exact Or.inr (Or.inr ⟨_, rfl⟩)
      | giveBack hsome => simp [hcap] at hsome
      | _ => simp at hbefore
  | rolledBack hi hpc =>
    have hbefore := h.pcs _ _ (pcAt_of_calls hi)
    simp [hpc] at hbefore
  | release hreceiver hsome => simp [hcap] at hsome
  | notify hreceiver => exact absurd hreceiver h.receiver
  | dequeue => exact ⟨h.depth, h.pcs, by simp⟩
  | unlimited => exact ⟨h.depth, h.pcs, by simp⟩
  | drop => exact ⟨h.depth, h.pcs, by simp⟩

theorem Uncounted.run (hcap : limits.capacity = none) {τ : List (Mailbox M × MailboxAct M)}
    (h : Run (MailboxStep limits) {} τ s) : Uncounted s :=
  h.inv ⟨rfl, by simp [pcAt], by simp⟩ fun _ _ _ hs hstep => hs.step hcap hstep

/-- With a capacity, an idle mailbox counts its queue. -/
theorem depth_of_bounded {cap : UInt64} (hcap : limits.capacity = some cap) {τ : List (Mailbox M × MailboxAct M)}
    (h : Run (MailboxStep limits) {} τ s) (hidle : s.Idle) : s.depth.toNat = s.user.length := by
  have hcount := (Accounted.run hcap h).count
  have hdiscarded : s.discarded = [] := (Emptied.run h).kept (by simp [hidle.2])
  have hheld : s.permitsHeld = 0 := by
    refine List.countP_eq_zero.mpr fun c hc => ?_
    have hreturned := hidle.1 c hc
    cases hpc : c.pc <;> simp_all [SendPc.returns, SendPc.holdsPermit]
  rw [hcount, hdiscarded, hheld, dequeuedPending, hidle.2]
  rfl

/-- **What `depth` reports** of an idle mailbox is the length of its queue exactly if the mailbox is bounded or its queue
is empty. -/
theorem depth_eq_length_iff {τ : List (Mailbox M × MailboxAct M)} (h : Run (MailboxStep limits) {} τ s)
    (hidle : s.Idle) : s.depth.toNat = s.user.length ↔ limits.capacity.isSome = true ∨ s.user = [] := by
  cases hcap : limits.capacity with
  | some cap => exact iff_of_true (depth_of_bounded hcap h hidle) (Or.inl rfl)
  | none =>
    rw [(Uncounted.run hcap h).depth, UInt64.toNat_zero, eq_comm, List.length_eq_zero_iff]
    simp

end Mailbox

/-! ## Dispatch by load -/

/-- The mailbox of an actor: what it was started with, and a state it can be in. -/
structure ActorMailbox (M : Type) where
  limits : MailboxLimits
  state : Mailbox M
  reached : ∃ τ, Run (MailboxStep limits) {} τ state

namespace ActorMailbox

variable {M : Type}

/-- `mailbox_depth`. -/
def depth (m : ActorMailbox M) : UInt64 := m.state.depth

def queueLength (m : ActorMailbox M) : Nat := m.state.user.length

/-- The mailbox is bounded or its queue is empty. -/
def Counts (m : ActorMailbox M) : Prop := m.limits.capacity.isSome = true ∨ m.state.user = []

theorem depth_iff_counts (m : ActorMailbox M) (hidle : m.state.Idle) : m.depth.toNat = m.queueLength ↔ m.Counts := by
  obtain ⟨τ, hrun⟩ := m.reached
  exact Mailbox.depth_eq_length_iff hrun hidle

end ActorMailbox

/-- A member of the group that has not exited. -/
def LiveMember (store : PgTables ActorId) (key : GroupKey) (type : TypeId) (alive : ActorId → Bool) (id : ActorId) : Prop :=
  (∃ address, store.typed.Holds (key, type) address id) ∧ alive id = true

/-- The members a dispatcher collects are the live members of its group. -/
theorem mem_membersScoped {store : PgTables ActorId} {key : GroupKey} {type : TypeId} {values : List ActorId}
    (hvalues : store.TypedMembers key type values) {alive : ActorId → Bool} {id : ActorId} :
    id ∈ membersScoped values alive ↔ LiveMember store key type alive id := by
  rw [membersScoped, List.mem_filter, hvalues.mem_iff, LiveMember]
  refine and_congr_left fun _ => ?_
  unfold Nested.Holds
  cases store.typed (key, type) with
  | none => simp
  | some bucket =>
    simp only [Option.elim_some, List.mem_map, Option.some.injEq, exists_eq_left']
    constructor
    · rintro ⟨⟨address, value⟩, hmem, rfl⟩
      exact ⟨address, AList.mem_lookup_iff.mpr hmem⟩
    · rintro ⟨address, hlookup⟩
      exact ⟨⟨address, id⟩, AList.mem_lookup_iff.mp hlookup, rfl⟩

/-- The dispatcher fails only where there are no live members, and else its target is one of them whose queue is the
shortest. -/
def PicksShortest {M : Type} (live : ActorId → Prop) (mailbox : ActorId → ActorMailbox M)
    (result : Except PoolError ActorId) : Prop :=
  match result with
  | .error _ => ∀ id, ¬live id
  | .ok target => live target ∧ ∀ id, live id → (mailbox target).queueLength ≤ (mailbox id).queueLength

/-- Where every depth is that of the queue, the lowest depth is the shortest queue. -/
theorem picksShortest_of_depths {M : Type} {d : PoolDispatcher} (hd : d.strategy = .leastLoaded) {members : List ActorId}
    {mailbox : ActorId → ActorMailbox M} {live : ActorId → Prop} (hlive : ∀ id, id ∈ members ↔ live id)
    (hdepths : ∀ id, live id → (mailbox id).depth.toNat = (mailbox id).queueLength) :
    PicksShortest live mailbox (selectLocalTarget d members fun id => (mailbox id).depth).1 := by
  by_cases hmembers : members = []
  · subst hmembers
    exact fun id hid => absurd ((hlive id).mpr hid) (by simp)
  · obtain ⟨best, hbest, hselect, hlowest⟩ := selectLocalTarget_leastLoaded hd hmembers fun id => (mailbox id).depth
    rw [hselect]
    refine ⟨(hlive best).mp hbest, fun id hid => ?_⟩
    rw [← hdepths best ((hlive best).mp hbest), ← hdepths id hid]
    exact UInt64.le_iff_toNat_le.mp (hlowest id ((hlive id).mpr hid))

/-- **Depth as a load.** An idle mailbox reports the length of its queue exactly if it is bounded or its queue is empty.
For any group, with the mailboxes of its live members idle: all of these report the lengths of their queues, and with them
dispatch by load goes to a shortest queue, exactly if every one of them is bounded or has an empty queue. -/
theorem depth_reports_queue_iff {M : Type} :
    (∀ (limits : MailboxLimits) (τ : List (Mailbox M × MailboxAct M)) (s : Mailbox M),
      Run (MailboxStep limits) {} τ s → s.Idle →
      (s.depth.toNat = s.user.length ↔ limits.capacity.isSome = true ∨ s.user = [])) ∧
    ∀ (store : PgTables ActorId) (type : TypeId) (d : PoolDispatcher) (values : List ActorId) (alive : ActorId → Bool)
      (mailbox : ActorId → ActorMailbox M), d.strategy = .leastLoaded → store.TypedMembers d.key type values →
      (∀ id, LiveMember store d.key type alive id → (mailbox id).state.Idle) →
      ((∀ id, LiveMember store d.key type alive id → (mailbox id).depth.toNat = (mailbox id).queueLength) ∧
          PicksShortest (LiveMember store d.key type alive) mailbox
            (selectLocalTarget d (membersScoped values alive) fun id => (mailbox id).depth).1 ↔
        ∀ id, LiveMember store d.key type alive id → (mailbox id).Counts) := by
  refine ⟨fun limits τ s hrun hidle => Mailbox.depth_eq_length_iff hrun hidle, ?_⟩
  intro store type d values alive mailbox hd hvalues hidle
  constructor
  · rintro ⟨hdepths, -⟩ id hid
    exact ((mailbox id).depth_iff_counts (hidle id hid)).mp (hdepths id hid)
  · intro hcounts
    have hdepths := fun id hid => ((mailbox id).depth_iff_counts (hidle id hid)).mpr (hcounts id hid)
    exact ⟨hdepths, picksShortest_of_depths hd (fun id => mem_membersScoped hvalues) hdepths⟩

/-! ### Two queues -/

/-- A mailbox to which `items` were sent, one after the other; no step waits. -/
def sentActs {M : Type} (steps : Nat) (items : List M) : List (MailboxAct M) :=
  items.zipIdx.flatMap fun x => .call x.1 :: List.replicate steps (.step x.2)

/-- An unbounded mailbox with two messages. -/
def longQueue : ActorMailbox Nat where
  limits := ⟨none, .failFast, .tasks⟩
  state := ((tryPlay (mailboxStep ⟨none, .failFast, .tasks⟩) {} (sentActs 1 [1, 2])).get (by decide)).2
  reached := ⟨_, run_tryPlay (mailboxStep ⟨none, .failFast, .tasks⟩) {} (sentActs 1 [1, 2]) (by decide)⟩

/-- A bounded mailbox with one message. -/
def shortQueue : ActorMailbox Nat where
  limits := ⟨some 64, .failFast, .tasks⟩
  state := ((tryPlay (mailboxStep ⟨some 64, .failFast, .tasks⟩) {} (sentActs 3 [1])).get (by decide)).2
  reached := ⟨_, run_tryPlay (mailboxStep ⟨some 64, .failFast, .tasks⟩) {} (sentActs 3 [1]) (by decide)⟩

/-- A group with the actors 1 and 2. -/
def pairStore : PgTables ActorId :=
  ((({} : PgTables ActorId).typedJoin ⟨"default", "g"⟩ "A" ⟨"n", 2⟩ 2).typedJoin ⟨"default", "g"⟩ "A" ⟨"n", 1⟩ 1)

/-- With both mailboxes bounded, dispatch goes by the queues. -/
theorem depth_reports_queue_iff_pair :
    PicksShortest (LiveMember pairStore ⟨"default", "g"⟩ "A" fun _ => true) (fun _ => shortQueue)
      (selectLocalTarget (.new "g" .leastLoaded) (membersScoped [1, 2] fun _ => true) fun _ => shortQueue.depth).1 := by
  have hvalues : pairStore.TypedMembers ⟨"default", "g"⟩ "A" [1, 2] := by unfold PgTables.TypedMembers; decide
  have hiff := (depth_reports_queue_iff (M := Nat)).2 pairStore "A" (.new "g" .leastLoaded) [1, 2] (fun _ => true)
    (fun _ => shortQueue) rfl hvalues fun _ _ => by decide
  exact (hiff.mpr fun _ _ => Or.inl rfl).2

/-- The unbounded mailbox reports 0 for its two messages, and dispatch by load sends it the next one, past a mailbox with
one. -/
theorem unbounded_looks_empty :
    longQueue.state.Idle ∧ longQueue.depth = 0 ∧ longQueue.queueLength = 2 ∧ shortQueue.state.Idle ∧
      shortQueue.queueLength = 1 ∧ pairStore.TypedMembers ⟨"default", "g"⟩ "A" [1, 2] ∧
      (selectLocalTarget (.new "g" .leastLoaded) (membersScoped [1, 2] fun _ => true)
        fun id => (if id = 1 then longQueue else shortQueue).depth).1 = .ok 1 ∧
      ¬PicksShortest (LiveMember pairStore ⟨"default", "g"⟩ "A" fun _ => true)
        (fun id => if id = 1 then longQueue else shortQueue)
        (selectLocalTarget (.new "g" .leastLoaded) (membersScoped [1, 2] fun _ => true)
          fun id => (if id = 1 then longQueue else shortQueue).depth).1 := by
  have hvalues : pairStore.TypedMembers ⟨"default", "g"⟩ "A" [1, 2] := by unfold PgTables.TypedMembers; decide
  have hselect : (selectLocalTarget (.new "g" .leastLoaded) (membersScoped [1, 2] fun _ => true)
      fun id => (if id = 1 then longQueue else shortQueue).depth).1 = .ok 1 := by decide
  refine ⟨by decide, by decide, by decide, by decide, by decide, hvalues, hselect, fun hpicks => ?_⟩
  rw [hselect] at hpicks
  have hle := hpicks.2 2 ((mem_membersScoped hvalues).mp (by decide))
  exact absurd hle (by decide)

end Spawned
