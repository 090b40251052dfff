import Spawned.Pg.Cast

/-!
# Dispatch to one member on any node

`select_federated_target` puts the addresses of the members on other nodes after the live members of this node, counts each
of them as idle, and picks one as the dispatch on one node does.

* `DispatchProg` : a dispatch as a program that makes calls;
* `selectFederatedTarget`, `dispatchFederated`, `callOneFederated` : the functions of both runtimes;
* `pickLeast_eq` : by load, the first idle member of this node, else the first on another node, else the least loaded;
* `dispatch_tells_one`, `call_tells_one` : a dispatch tells the member of its turn or load, and that one only.

The `expect` and the index of the selection are modelled, and never panic. The call that tells the member may panic or block,
as any call on an actor: it is not answered then, and the dispatch has no result.
-/

namespace Spawned

open Lib

/-- The calls of a dispatch. -/
inductive DispatchOp (V : Type)
  | group (op : GroupOp V)
  /-- `member.mailbox_depth()` -/
  | mailboxDepth (member : ActorId)
  /-- `next.fetch_add(1)` -/
  | fetchAdd

abbrev DispatchOp.Ans {V : Type} (R : Type) : DispatchOp V → Type
  | .group op => op.Ans R
  | .mailboxDepth _ | .fetchAdd => UInt64

abbrev DispatchProg (V R : Type) := Prog (DispatchOp V) (DispatchOp.Ans R)

abbrev DispatchTrace (V R : Type) := Trace (DispatchOp V) (DispatchOp.Ans (V := V) R)

/-- A `PoolError` with any error of a call. -/
inductive PoolCallError
  | noMembers
  | actor (error : RequestError)
deriving DecidableEq, Repr

/-- What `select_federated_target` comes to: an error, a `FederatedTarget`, or the panic of an `expect` or an index. -/
inductive FederatedTarget
  | noMembers
  | «local» (member : ActorId)
  | remote (address : ActorAddress)
  | panicked
deriving DecidableEq, Repr

section Programs

variable {V R X : Type}

def ofGroup {α : Type} (p : GroupProg V R α) : DispatchProg V R α := p.lift DispatchOp.group fun _ x => x

def mailboxDepths : List ActorId → DispatchProg V R (List UInt64)
  | [] => pure []
  | member :: members => do
    let depth ← Prog.op (DispatchOp.mailboxDepth member)
    let depths ← mailboxDepths members
    pure (depth :: depths)

/-- `select_index`, where the counter is a call. -/
def selectIndex (d : PoolDispatcher) (depths : List UInt64) : DispatchProg V R (Option Nat) :=
  if depths.length = 0 then pure none
  else
    match d.strategy with
    | .roundRobin => do
      let next ← Prog.op DispatchOp.fetchAdd
      pure (some (next.toNat % depths.length))
    | .leastLoaded => pure (some (leastLoaded depths))

def selectFederatedTarget (here : NodeId) (d : PoolDispatcher) : DispatchProg V R FederatedTarget := do
  let members ← ofGroup (groupMembers d.key)
  let localDepths ← mailboxDepths members
  let addresses ← Prog.op (DispatchOp.group (.memberAddresses d.key))
  let remoteAddrs := addresses.filter (·.node ≠ here)
  let depths := localDepths ++ List.replicate remoteAddrs.length 0
  if depths.isEmpty then pure .noMembers
  else do
    let idx ← selectIndex d depths
    match idx with
    | none => pure .panicked
    | some idx =>
      if idx < members.length then pure (members[idx]?.elim .panicked .«local»)
      else pure (remoteAddrs[idx - members.length]?.elim .panicked .remote)

/-- A dispatch with a way to tell members of this node and of others; `none` is a panic. -/
def toOne (here : NodeId) (d : PoolDispatcher) (tell : ActorId → NodeProg V R (Except RequestError X))
    (tellRemote : ActorAddress → NodeProg V R (Except RequestError X)) :
    DispatchProg V R (Option (Except PoolCallError X)) := do
  let target ← selectFederatedTarget here d
  match target with
  | .noMembers => pure (some (.error .noMembers))
  | .panicked => pure none
  | .«local» member => do
    let result ← ofGroup (ofNode (tell member))
    pure (some (result.mapError .actor))
  | .remote address => do
    let result ← ofGroup (ofNode (tellRemote address))
    pure (some (result.mapError .actor))

def dispatchFederated (here : NodeId) (m : RemoteMessage V R) (d : PoolDispatcher) (msg : V) :
    DispatchProg V R (Option (Except PoolCallError Unit)) :=
  toOne here d (fun member => Prog.op (NodeOp.send member msg)) fun address => (m.remoteGlobal address).send here msg

/-- On another node it is the request of `call_remote`, in either runtime. -/
def callOneFederated (runtime : Runtime) (here : NodeId) (m : RemoteMessage V R) (d : PoolDispatcher) (msg : V) :
    DispatchProg V R (Option (Except PoolCallError R)) :=
  toOne here d (fun member => Prog.op (NodeOp.request member msg defaultRequestTimeout)) (callAddress runtime here m msg)

end Programs

/-! ## The pick by load -/

/-- The first idle member of this node, else the first address of another, else the member with the lowest depth. -/
def pickLeast (here : NodeId) (members : List ActorId) (remotes : List ActorAddress) (depth : ActorId → UInt64) :
    Option ActorAddress :=
  match members.find? (depth · = 0) with
  | some member => some ⟨here, member⟩
  | none => remotes.head?.or (members[leastLoaded (members.map depth)]?.map (⟨here, ·⟩))

/-- There is only one first of the lowest depths. -/
theorem FirstLowest.unique {depths : List UInt64} {i j : Nat} (hi : FirstLowest depths i) (hj : FirstLowest depths j) :
    i = j := by
  rcases Nat.lt_trichotomy i j with hlt | heq | hgt
  · exact absurd (hj.first i hlt) (UInt64.not_lt.mpr (hi.lowest j hj.lt))
  · exact heq
  · exact absurd (hi.first j hgt) (UInt64.not_lt.mpr (hj.lowest i hi.lt))

section Least

variable {here : NodeId} {members : List ActorId} {remotes : List ActorAddress} {depth : ActorId → UInt64}

theorem zero_lt_of_ne {n : UInt64} (h : n ≠ 0) : 0 < n := UInt64.pos_iff_ne_zero.mpr h

/-- Index `i` is the pick if its member is idle and none before it is. -/
theorem leastLoaded_eq {depths : List UInt64} {i : Nat} (hi : depths[i]? = some 0)
    (hfirst : ∀ j (hj : j < depths.length), j < i → depths[j] ≠ 0) : leastLoaded depths = i := by
  obtain ⟨hlt, hzero⟩ := List.getElem?_eq_some_iff.mp hi
  have hne : depths ≠ [] := List.ne_nil_of_length_pos (Nat.lt_of_le_of_lt (Nat.zero_le i) hlt)
  refine (leastLoaded_spec hne).unique ⟨hlt, fun j hj => ?_, fun j hj => ?_⟩
  · rw [hzero]
    exact UInt64.zero_le
  · rw [hzero]
    exact zero_lt_of_ne (hfirst j (hj.trans hlt) hj)

/-- A member that no depth is reported for counts as idle, but comes after those of this node. -/
theorem pickLeast_eq (hne : members.map depth ++ List.replicate remotes.length 0 ≠ []) :
    (members.map (⟨here, ·⟩) ++ remotes)[leastLoaded (members.map depth ++ List.replicate remotes.length 0)]? =
      pickLeast here members remotes depth := by
  unfold pickLeast
  cases hidle : members.find? (depth · = 0) with
  | some member =>
    obtain ⟨hzero, i, hi, rfl, hbefore⟩ := List.find?_eq_some_iff_getElem.mp hidle
    have hleast : leastLoaded (members.map depth ++ List.replicate remotes.length 0) = i := by
      refine leastLoaded_eq ?_ fun j hj hlt => ?_
      · rw [List.getElem?_append_left (by simpa using hi), List.getElem?_map, List.getElem?_eq_getElem hi]
        exact congrArg some (of_decide_eq_true hzero)
      · rw [List.getElem_append_left (by simp; omega), List.getElem_map]
        simpa using hbefore j hlt
    rw [hleast, List.getElem?_append_left (by simpa using hi), List.getElem?_map, List.getElem?_eq_getElem hi]
    rfl
  | none =>
    have hbusy : ∀ member ∈ members, depth member ≠ 0 := by simpa using hidle
    cases remotes with
    | nil => simp
    | cons remote remotes =>
      have hleast : leastLoaded (members.map depth ++ List.replicate (remote :: remotes).length 0) = members.length := by
        refine leastLoaded_eq ?_ fun j hj hlt => ?_
        · rw [List.getElem?_append_right (by simp)]
          simp [List.replicate_succ]
        · rw [List.getElem_append_left (by simpa using hlt), List.getElem_map]
          exact hbusy _ (List.getElem_mem hlt)
      rw [hleast, List.getElem?_append_right (by simp)]
      simp

end Least

/-- The member of its turn, or by its load. -/
def pick (here : NodeId) (strategy : PoolStrategy) (members : List ActorId) (remotes : List ActorAddress)
    (depth : ActorId → UInt64) (next : UInt64) : Option ActorAddress :=
  match strategy with
  | .roundRobin => (members.map (⟨here, ·⟩) ++ remotes)[next.toNat % (members.length + remotes.length)]?
  | .leastLoaded => pickLeast here members remotes depth

/-- The pick as a target. -/
def FederatedTarget.of (here : NodeId) : Option ActorAddress → FederatedTarget
  | none => .noMembers
  | some a => if a.node = here then .«local» a.actorId else .remote a

/-- The two index expressions, within bounds. -/
theorem target_at {here : NodeId} {members : List ActorId} {remotes : List ActorAddress}
    (hremotes : ∀ a ∈ remotes, a.node ≠ here) {i : Nat} (hi : i < members.length + remotes.length) :
    (if i < members.length then members[i]?.elim .panicked FederatedTarget.«local»
      else remotes[i - members.length]?.elim .panicked FederatedTarget.remote) =
      FederatedTarget.of here (members.map (⟨here, ·⟩) ++ remotes)[i]? := by
  split_ifs with hlt
  · rw [List.getElem?_append_left (by simpa using hlt), List.getElem?_map, List.getElem?_eq_getElem hlt]
    simp [FederatedTarget.of]
  · have hlt' : i - members.length < remotes.length := by omega
    rw [List.getElem?_append_right (by simpa using hlt), List.length_map, List.getElem?_eq_getElem hlt']
    simp [FederatedTarget.of, hremotes _ (List.getElem_mem hlt')]

/-- What the selection makes of its index. -/
theorem target_of_select (here : NodeId) {members : List ActorId} {remotes : List ActorAddress}
    {depth : ActorId → UInt64} (strategy : PoolStrategy) (next : UInt64) {depths : List UInt64}
    (hdepths : depths = members.map depth ++ List.replicate remotes.length 0) (hne : depths ≠ []) :
    ∃ i < members.length + remotes.length, (selectMemberIndex depths.length strategy depths next).1 = some i ∧
      (members.map (⟨here, ·⟩) ++ remotes)[i]? = pick here strategy members remotes depth next := by
  have hlen : depths.length = members.length + remotes.length := by simp [hdepths]
  have hpos : 0 < depths.length := List.length_pos_of_ne_nil hne
  unfold selectMemberIndex
  rw [if_neg (Nat.pos_iff_ne_zero.mp hpos)]
  cases strategy with
  | roundRobin =>
    rw [← hlen]
    refine ⟨_, Nat.mod_lt _ hpos, rfl, ?_⟩
    rw [pick, hlen]
  | leastLoaded =>
    refine ⟨leastLoaded depths, hlen ▸ (leastLoaded_spec hne).lt, rfl, ?_⟩
    subst hdepths
    exact pickLeast_eq hne

theorem pick_of_nil {here : NodeId} {depth : ActorId → UInt64} (strategy : PoolStrategy) (next : UInt64) :
    pick here strategy [] [] depth next = none := by
  cases strategy <;> rfl

/-- One of the members is picked, if there are any. -/
theorem pick_of_ne_nil (here : NodeId) (members : List ActorId) (remotes : List ActorAddress) (depth : ActorId → UInt64)
    (strategy : PoolStrategy) (next : UInt64) (hne : members.map (⟨here, ·⟩) ++ remotes ≠ []) :
    ∃ a ∈ members.map (⟨here, ·⟩) ++ remotes, pick here strategy members remotes depth next = some a := by
  have hne' : members.map depth ++ List.replicate remotes.length 0 ≠ [] := by
    simpa [List.append_eq_nil_iff] using hne
  obtain ⟨i, hi, -, hpick⟩ := target_of_select here strategy next rfl hne'
  have hi' : i < (members.map (⟨here, ·⟩ : ActorId → ActorAddress) ++ remotes).length := by simpa using hi
  rw [List.getElem?_eq_getElem hi'] at hpick
  exact ⟨_, List.getElem_mem hi', hpick.symm⟩

/-! ## What is done in a dispatch -/

section Calls

variable {V R X : Type} {here : NodeId} {d : PoolDispatcher} {m : RemoteMessage V R} {msg : V} {τ : DispatchTrace V R}

def groupCalls (τ : DispatchTrace V R) : GroupTrace V R :=
  τ.filterMap fun
    | ⟨.group op, ans⟩ => some ⟨op, ans⟩
    | _ => none

theorem groupCalls_append (τ σ : DispatchTrace V R) : groupCalls (τ ++ σ) = groupCalls τ ++ groupCalls σ :=
  List.filterMap_append

/-- What the group store, the members and the counter answer during a dispatch. -/
def PoolAnswers (values : List ActorId) (alive : ActorId → Bool) (addresses : List ActorAddress) (depth : ActorId → UInt64)
    (next : UInt64) : Call (DispatchOp V) (DispatchOp.Ans R) → Prop
  | ⟨.group op, ans⟩ => Answers values alive addresses ⟨op, ans⟩
  | ⟨.mailboxDepth member, ans⟩ => ans = depth member
  | ⟨.fetchAdd, ans⟩ => ans = next

variable {values : List ActorId} {alive : ActorId → Bool} {addresses : List ActorAddress} {depth : ActorId → UInt64}
  {next : UInt64}

theorem answers_groupCalls (hans : ∀ c ∈ τ, PoolAnswers values alive addresses depth next c) :
    ∀ c ∈ groupCalls τ, Answers values alive addresses c := by
  intro c hc
  obtain ⟨⟨op, ans⟩, hmem, hop⟩ := List.mem_filterMap.mp hc
  cases op with
  | group op =>
    cases hop
    exact hans _ hmem
  | mailboxDepth member => cases hop
  | fetchAdd => cases hop

theorem exec_ofGroup {α : Type} {p : GroupProg V R α} {x : α} (h : (ofGroup p).Exec τ x) : p.Exec (groupCalls τ) x := by
  induction p generalizing τ with
  | pure a =>
    obtain ⟨rfl, rfl⟩ := h
    exact ⟨rfl, rfl⟩
  | call e k ih =>
    obtain ⟨ans, τ', rfl, h⟩ := h
    exact ⟨ans, groupCalls τ', rfl, ih ans h⟩

theorem exec_groupMembers {key : GroupKey} {τ : GroupTrace V R} {members : List ActorId}
    (h : (groupMembers key).Exec τ members) (hans : ∀ c ∈ τ, Answers values alive addresses c) :
    members = values.filter alive ∧ nodeCalls τ = [] := by
  obtain ⟨values', τ', rfl, hrunning⟩ := Prog.exec_op_bind.mp h
  obtain rfl : values' = values := hans ⟨.typedMembers key, values'⟩ (by simp)
  obtain ⟨hmembers, hcalls⟩ := exec_running hrunning fun c hc => hans c (by simp [hc])
  exact ⟨hmembers, hcalls⟩

theorem exec_mailboxDepths {members : List ActorId} {depths : List UInt64} (h : (mailboxDepths members).Exec τ depths)
    (hans : ∀ c ∈ τ, PoolAnswers values alive addresses depth next c) :
    depths = members.map depth ∧ groupCalls τ = [] := by
  induction members generalizing τ depths with
  | nil =>
    obtain ⟨rfl, rfl⟩ := h
    exact ⟨rfl, rfl⟩
  | cons member members ih =>
    obtain ⟨n, τ', rfl, hbody⟩ := Prog.exec_op_bind.mp h
    obtain ⟨rest, hrest, rfl⟩ := Prog.exec_bind_pure.mp hbody
    obtain ⟨rfl, hcalls⟩ := ih hrest fun c hc => hans c (List.mem_cons_of_mem _ hc)
    obtain rfl : n = depth member := hans ⟨.mailboxDepth member, n⟩ (List.mem_cons_self ..)
    exact ⟨rfl, hcalls⟩

theorem exec_selectIndex {depths : List UInt64} {idx : Option Nat} (h : (selectIndex d depths).Exec τ idx)
    (hans : ∀ c ∈ τ, PoolAnswers values alive addresses depth next c) :
    idx = (selectMemberIndex depths.length d.strategy depths next).1 ∧ groupCalls τ = [] := by
  unfold selectIndex at h
  unfold selectMemberIndex
  split_ifs at h ⊢ with hempty
  · obtain ⟨rfl, rfl⟩ := h
    exact ⟨rfl, rfl⟩
  · cases hstrategy : d.strategy with
    | roundRobin =>
      simp only [hstrategy] at h ⊢
      obtain ⟨n, τ', rfl, rfl, rfl⟩ := Prog.exec_op_bind.mp h
      obtain rfl : n = next := hans ⟨.fetchAdd, n⟩ (List.mem_cons_self ..)
      exact ⟨rfl, rfl⟩
    | leastLoaded =>
      simp only [hstrategy] at h ⊢
      obtain ⟨rfl, rfl⟩ := h
      exact ⟨rfl, rfl⟩

/-- The selection makes the pick, and tells nobody. -/
theorem exec_selectFederatedTarget {target : FederatedTarget} (h : (selectFederatedTarget here d).Exec τ target)
    (hans : ∀ c ∈ τ, PoolAnswers values alive addresses depth next c) :
    target = .of here (pick here d.strategy (values.filter alive) (addresses.filter (·.node ≠ here)) depth next) ∧
      nodeCalls (groupCalls τ) = [] := by
  obtain ⟨τ₁, members, τ', rfl, hmembers, h⟩ := Prog.exec_bind.mp h
  obtain ⟨τ₂, localDepths, τ', rfl, hdepths, h⟩ := Prog.exec_bind.mp h
  obtain ⟨addresses', τ₃, rfl, h⟩ := Prog.exec_op_bind.mp h
  obtain ⟨rfl, hcalls₁⟩ :=
    exec_groupMembers (exec_ofGroup hmembers) (answers_groupCalls fun c hc => hans c (by simp [hc]))
  obtain ⟨rfl, hcalls₂⟩ := exec_mailboxDepths hdepths fun c hc => hans c (by simp [hc])
  obtain rfl : addresses' = addresses := hans ⟨.group (.memberAddresses d.key), addresses'⟩ (by simp)
  have hcalls : nodeCalls (groupCalls (τ₁ ++ (τ₂ ++ ⟨.group (.memberAddresses d.key), addresses'⟩ :: τ₃))) =
      nodeCalls (groupCalls τ₃) := by
    rw [groupCalls_append, groupCalls_append, hcalls₂, nodeCalls_append, hcalls₁]
    rfl
  rw [hcalls]
  set members := values.filter alive
  set remotes := addresses'.filter (·.node ≠ here)
  have hremotes : ∀ a ∈ remotes, a.node ≠ here := fun a ha => by simpa using (List.mem_filter.mp ha).2
  simp only at h
  split_ifs at h with hempty
  · obtain ⟨rfl, rfl⟩ := h
    have hnone : members.map depth ++ List.replicate remotes.length 0 = [] := List.isEmpty_iff.mp hempty
    obtain ⟨hmembers, hremotes⟩ : members = [] ∧ remotes = [] := by simpa using hnone
    rw [hmembers, hremotes, pick_of_nil]
    exact ⟨rfl, rfl⟩
  · have hne : members.map depth ++ List.replicate remotes.length 0 ≠ [] := fun h => hempty (List.isEmpty_iff.mpr h)
    obtain ⟨τ₄, idx, τ₅, rfl, hindex, h⟩ := Prog.exec_bind.mp h
    obtain ⟨rfl, hcalls₃⟩ := exec_selectIndex hindex fun c hc => hans c (by simp [hc])
    obtain ⟨i, hi, hselect, hpick⟩ := target_of_select here d.strategy next rfl hne
    rw [hselect] at h
    simp only at h
    rw [← hpick, ← target_at hremotes hi, groupCalls_append, hcalls₃]
    split_ifs at h ⊢ with hlt
    · obtain ⟨rfl, rfl⟩ := h
      exact ⟨rfl, rfl⟩
    · obtain ⟨rfl, rfl⟩ := h
      exact ⟨rfl, rfl⟩

/-- What a dispatch comes to: the one who was picked is told, or no one if there is no one. -/
def TellsOne (read : Call (NodeOp V) (NodeOp.Ans R) → Option (GroupCall V X)) (said : ActorAddress → Option (Said V))
    (targets : List ActorAddress) (picked : Option ActorAddress) (τ : GroupTrace V R)
    (result : Option (Except PoolCallError X)) : Prop :=
  match picked with
  | none => targets = [] ∧ outcomes read τ = [] ∧ result = some (.error .noMembers)
  | some a => a ∈ targets ∧ ∃ x, ToldEach read said τ [a] [(a, x)] ∧ result = some (x.mapError .actor)

theorem exec_toOne {tell : ActorId → NodeProg V R (Except RequestError X)}
    {tellRemote : ActorAddress → NodeProg V R (Except RequestError X)}
    {read : Call (NodeOp V) (NodeOp.Ans R) → Option (GroupCall V X)} {said : ActorAddress → Option (Said V)}
    (htells : ∀ member, Tells read (said ⟨here, member⟩) ⟨here, member⟩ (tell member))
    (hremote : ∀ address : ActorAddress, address.node ≠ here → Tells read (said address) address (tellRemote address))
    {result : Option (Except PoolCallError X)} (h : (toOne here d tell tellRemote).Exec τ result)
    (hans : ∀ c ∈ τ, PoolAnswers values alive addresses depth next c) :
    TellsOne read said (groupTargets here values alive addresses)
      (pick here d.strategy (values.filter alive) (addresses.filter (·.node ≠ here)) depth next) (groupCalls τ) result := by
  obtain ⟨τ₁, target, τ₂, rfl, hselect, h⟩ := Prog.exec_bind.mp h
  obtain ⟨rfl, hcalls⟩ := exec_selectFederatedTarget hselect fun c hc => hans c (by simp [hc])
  rw [groupCalls_append]
  set members := values.filter alive
  set remotes := addresses.filter (·.node ≠ here)
  have hpicked := pick_of_ne_nil here members remotes depth d.strategy next
  cases hpick : pick here d.strategy members remotes depth next with
  | none =>
    rw [hpick] at h hpicked
    obtain ⟨rfl, rfl⟩ := h
    have hnil : members.map (⟨here, ·⟩) ++ remotes = [] := by
      by_contra hne
      obtain ⟨a, -, hsome⟩ := hpicked hne
      cases hsome
    exact ⟨hnil, outcomes_of_nil (by rw [nodeCalls_append, hcalls]; rfl), rfl⟩
  | some a =>
    have hmem : a ∈ members.map (⟨here, ·⟩) ++ remotes := by
      have hne : members.map (⟨here, ·⟩) ++ remotes ≠ [] := by
        intro hnil
        obtain ⟨hmembers, hremotes⟩ : members = [] ∧ remotes = [] := by simpa using hnil
        rw [hmembers, hremotes, pick_of_nil] at hpick
        cases hpick
      obtain ⟨a', hmem, hsome⟩ := hpicked hne
      rw [hpick] at hsome
      cases hsome
      exact hmem
    have htold : ∀ {p : NodeProg V R (Except RequestError X)} {x}, (ofGroup (ofNode p)).Exec τ₂ x →
        Tells read (said a) a p → ToldEach read said (groupCalls τ₁ ++ groupCalls τ₂) [a] [(a, x)] := by
      intro p x hexec hp
      obtain ⟨hread, hunsent⟩ := hp _ _ (exec_ofNode (exec_ofGroup hexec))
      refine toldEach_single ?_ hunsent
      rw [outcomes_append, outcomes_of_nil hcalls, List.nil_append]
      exact hread
    by_cases hnode : a.node = here
    · have htarget : FederatedTarget.of here (some a) = .«local» a.actorId := if_pos hnode
      rw [hpick, htarget] at h
      obtain ⟨x, hexec, rfl⟩ := Prog.exec_bind_pure.mp h
      obtain ⟨node, id⟩ := a
      obtain rfl : node = here := hnode
      exact ⟨hmem, x, htold hexec (htells id), rfl⟩
    · have htarget : FederatedTarget.of here (some a) = .remote a := if_neg hnode
      rw [hpick, htarget] at h
      obtain ⟨x, hexec, rfl⟩ := Prog.exec_bind_pure.mp h
      exact ⟨hmem, x, htold hexec (hremote a hnode), rfl⟩

end Calls

section Dispatches

variable {V R : Type} {here : NodeId} {type : TypeId} {d : PoolDispatcher} {m : RemoteMessage V R} {msg : V}
  {τ : DispatchTrace V R} {ρ ρ' : List (PgNode ActorId × PgCall ActorId)} {s s' : PgNode ActorId} (values : List ActorId)
  {alive : ActorId → Bool} {depth : ActorId → UInt64} {next : UInt64}

/-- **A federated dispatch.** It finds the live members of the bucket in one state of the node and the addresses on other
nodes in another. Of them it picks the one whose turn it is by the counter, or by load: an idle member of this node, else the
first on another node whatever its load, else the least loaded of this node. It gives the message to this one and to no one
else, and returns what came of it; its own `expect` and index do not panic. -/
theorem dispatch_tells_one (h : Run (PgNode.Step here) {} ρ s) (hown : ∀ x ∈ ρ, OwnValue x.2)
    (hvalues : s.tables.TypedMembers d.key type values) (h' : Run (PgNode.Step here) {} ρ' s')
    {result : Option (Except PoolCallError Unit)} (hexec : (dispatchFederated here m d msg).Exec τ result)
    (hans : ∀ c ∈ τ, PoolAnswers values alive (s'.tables.memberAddressesScoped s'.alive d.key).1 depth next c) :
    Members here d.key type alive s.tables s'.tables
        (groupTargets here values alive (s'.tables.memberAddressesScoped s'.alive d.key).1) ∧
      TellsOne (castOutcome here) (m.saidTo here msg)
        (groupTargets here values alive (s'.tables.memberAddressesScoped s'.alive d.key).1)
        (pick here d.strategy (values.filter alive)
          ((s'.tables.memberAddressesScoped s'.alive d.key).1.filter (·.node ≠ here)) depth next) (groupCalls τ) result :=
  ⟨members_of_run h hown hvalues h' alive s'.alive, exec_toOne tells_send tells_remote_send hexec hans⟩

/-- Both members of node `n` are busy. -/
def dispatchAcross : DispatchTrace UInt8 UInt8 :=
  [⟨.group (.typedMembers ⟨"default", "g"⟩), [1, 2]⟩, ⟨.group (.isRunning 1), true⟩, ⟨.group (.isRunning 2), true⟩,
    ⟨.mailboxDepth 1, (3 : UInt64)⟩, ⟨.mailboxDepth 2, (2 : UInt64)⟩,
    ⟨.group (.memberAddresses ⟨"default", "g"⟩), [⟨"n", 2⟩, ⟨"n", 1⟩, ⟨"p", 7⟩]⟩,
    ⟨.group (.node (.sendEnvelope ⟨⟨"p", 7⟩, "spawned.test.A/v1", [7], 0⟩)), .ok ()⟩]

theorem dispatch_tells_one_across :
    ∃ s : PgNode ActorId,
      Members "n" ⟨"default", "g"⟩ "A" (fun _ => true) s.tables s.tables [⟨"n", 1⟩, ⟨"n", 2⟩, ⟨"p", 7⟩] ∧
      TellsOne (castOutcome "n") ((byteRef "spawned.test.A/v1").saidTo "n" 7) [⟨"n", 1⟩, ⟨"n", 2⟩, ⟨"p", 7⟩]
        (some ⟨"p", 7⟩) (groupCalls dispatchAcross) (some (.ok ())) := by
  have hrun : Run (PgNode.Step "n") ({} : PgNode ActorId) _ _ :=
    run_tryPlay (PgNode.next "n") {} acrossNodes (by decide)
  have hexec : (dispatchFederated "n" (byteRef "spawned.test.A/v1").toRemoteMessage (PoolDispatcher.new "g" .leastLoaded)
      7).Exec dispatchAcross (some (.ok ())) :=
    ⟨_, _, rfl, _, _, rfl, _, _, rfl, _, _, rfl, _, _, rfl, _, _, rfl, _, _, rfl, rfl, rfl⟩
  have hans : ∀ c ∈ dispatchAcross, PoolAnswers [1, 2] (fun _ => true) [⟨"n", 2⟩, ⟨"n", 1⟩, ⟨"p", 7⟩]
      (fun member => if member = 1 then 3 else 2) 0 c := by
    simp only [dispatchAcross, List.forall_mem_cons]
    exact ⟨rfl, rfl, rfl, rfl, rfl, rfl, trivial, by simp⟩
  exact ⟨_, dispatch_tells_one [1, 2] hrun (by decide) (by unfold PgTables.TypedMembers; decide) hrun hexec hans⟩

/-- **A federated request to one member**, in either runtime: the same with a request. -/
theorem call_tells_one (runtime : Runtime) (h : Run (PgNode.Step here) {} ρ s) (hown : ∀ x ∈ ρ, OwnValue x.2)
    (hvalues : s.tables.TypedMembers d.key type values) (h' : Run (PgNode.Step here) {} ρ' s')
    {result : Option (Except PoolCallError R)} (hexec : (callOneFederated runtime here m d msg).Exec τ result)
    (hans : ∀ c ∈ τ, PoolAnswers values alive (s'.tables.memberAddressesScoped s'.alive d.key).1 depth next c) :
    Members here d.key type alive s.tables s'.tables
        (groupTargets here values alive (s'.tables.memberAddressesScoped s'.alive d.key).1) ∧
      TellsOne (callOutcome here m) (m.saidTo here msg)
        (groupTargets here values alive (s'.tables.memberAddressesScoped s'.alive d.key).1)
        (pick here d.strategy (values.filter alive)
          ((s'.tables.memberAddressesScoped s'.alive d.key).1.filter (·.node ≠ here)) depth next) (groupCalls τ) result :=
  ⟨members_of_run h hown hvalues h' alive s'.alive,
    exec_toOne (tells_request · _) (tells_callAddress runtime) hexec hans⟩

/-- The counter stands at 4. -/
def requestAcross : DispatchTrace UInt8 UInt8 :=
  [⟨.group (.typedMembers ⟨"default", "g"⟩), [1, 2]⟩, ⟨.group (.isRunning 1), true⟩, ⟨.group (.isRunning 2), true⟩,
    ⟨.mailboxDepth 1, (0 : UInt64)⟩, ⟨.mailboxDepth 2, (0 : UInt64)⟩,
    ⟨.group (.memberAddresses ⟨"default", "g"⟩), [⟨"n", 2⟩, ⟨"n", 1⟩, ⟨"p", 7⟩]⟩, ⟨.fetchAdd, (4 : UInt64)⟩,
    ⟨.group (.node (.request 2 7 5)), .error (.actor .actorStopped)⟩]

theorem call_tells_one_across :
    ∃ s : PgNode ActorId,
      Members "n" ⟨"default", "g"⟩ "A" (fun _ => true) s.tables s.tables [⟨"n", 1⟩, ⟨"n", 2⟩, ⟨"p", 7⟩] ∧
      TellsOne (callOutcome "n" (byteRef "spawned.test.A/v1").toRemoteMessage)
        ((byteRef "spawned.test.A/v1").saidTo "n" 7) [⟨"n", 1⟩, ⟨"n", 2⟩, ⟨"p", 7⟩] (some ⟨"n", 2⟩)
        (groupCalls requestAcross) (some (.error (.actor (.actor .actorStopped)))) := by
  have hrun : Run (PgNode.Step "n") ({} : PgNode ActorId) _ _ :=
    run_tryPlay (PgNode.next "n") {} acrossNodes (by decide)
  have hexec : (callOneFederated .tasks "n" (byteRef "spawned.test.A/v1").toRemoteMessage
      (PoolDispatcher.new "g" .roundRobin) 7).Exec requestAcross (some (.error (.actor (.actor .actorStopped)))) :=
    ⟨_, _, rfl, _, _, rfl, _, _, rfl, _, _, rfl, _, _, rfl, _, _, rfl, _, _, rfl, _, _, rfl, rfl, rfl⟩
  have hans : ∀ c ∈ requestAcross, PoolAnswers [1, 2] (fun _ => true) [⟨"n", 2⟩, ⟨"n", 1⟩, ⟨"p", 7⟩] (fun _ => 0) 4 c := by
    simp only [requestAcross, List.forall_mem_cons]
    exact ⟨rfl, rfl, rfl, rfl, rfl, rfl, rfl, trivial, by simp⟩
  exact ⟨_, call_tells_one [1, 2] .tasks hrun (by decide) (by unfold PgTables.TypedMembers; decide) hrun hexec hans⟩

end Dispatches

end Spawned
