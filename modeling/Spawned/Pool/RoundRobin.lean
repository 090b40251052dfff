import Mathlib.Data.List.Rotate
import Spawned.Pg.JoinOrder
import Spawned.Pool

/-!
# Round robin

Any number of `select_local_target` calls of one dispatcher, from any threads: each collects the members, then draws its
index from the shared counter. The group does not change meanwhile, so every call collects the same list; its order is
that of the hash map behind the typed bucket.

* `SelectStep` : one step of one of the calls; `selections` are the targets in the order of the draws;
* `selection_at` : the `k`-th target is the member at `k mod 2 ^ 64 mod n` of that list;
* `perm_joinOrder` : the list has the members of the bucket, in the order of the hash map;
* `round_robin_iff` : the `k`-th target is `m[k mod n]` for every `k`, with `m` the live members in join order, exactly if
  the list comes in join order and `n` divides `2 ^ 64`.
-/

namespace Spawned

open Lib

/-- Where a call of `select_local_target` stands. -/
inductive SelectPc
  /-- at `members_scoped` -/
  | collect
  /-- the members are collected; `fetch_add` is next -/
  | select (members : List ActorId)
  | returned (result : Except PoolError ActorId)
deriving DecidableEq

/-- A dispatcher and every call ever made on it. -/
structure Selecting where
  dispatcher : PoolDispatcher
  calls : List SelectPc := []
  /-- the results in the order of the draws -/
  selections : List (Except PoolError ActorId) := []

inductive SelectAct
  | call
  | collect (i : Nat)
  /-- call `i` draws its index, with these depths of the members' mailboxes -/
  | draw (i : Nat) (depth : ActorId → UInt64)

/-- The steps, while the bucket holds `values` and the actors of `alive` live. -/
inductive SelectStep (values : List ActorId) (alive : ActorId → Bool) : Selecting → SelectAct → Selecting → Prop
  | call {s : Selecting} : SelectStep values alive s .call { s with calls := s.calls ++ [.collect] }
  | collect {s : Selecting} {i : Nat} (hi : s.calls[i]? = some .collect) :
      SelectStep values alive s (.collect i) { s with calls := s.calls.set i (.select (membersScoped values alive)) }
  | draw {s : Selecting} {i : Nat} {members : List ActorId} (depth : ActorId → UInt64)
      (hi : s.calls[i]? = some (.select members)) :
      SelectStep values alive s (.draw i depth)
        { dispatcher := (selectLocalTarget s.dispatcher members depth).2
          calls := s.calls.set i (.returned (selectLocalTarget s.dispatcher members depth).1)
          selections := s.selections ++ [(selectLocalTarget s.dispatcher members depth).1] }

section Draws

variable {values : List ActorId} {alive : ActorId → Bool} {group scope : String} {τ : List (Selecting × SelectAct)}
  {s s' : Selecting} {a : SelectAct}

/-- A dispatcher in turn that has drawn nothing yet. -/
def turning (group scope : String) : Selecting where
  dispatcher := (PoolDispatcher.new group .roundRobin).withScope scope

/-- The target of the `k`-th draw among these members. -/
def turn (members : List ActorId) (k : Nat) : Option ActorId := members[k % 2 ^ 64 % members.length]?

theorem selectLocalTarget_roundRobin {d : PoolDispatcher} (hd : d.strategy = .roundRobin) {members : List ActorId}
    (hmembers : members ≠ []) (depth : ActorId → UInt64) {k : Nat} (hk : d.next.toNat = k % 2 ^ 64) :
    some (selectLocalTarget d members depth).1 = (turn members k).map .ok ∧
      (selectLocalTarget d members depth).2 = { d with next := d.next + 1 } := by
  have hlen : members.length ≠ 0 := by simpa using hmembers
  have hlt : k % 2 ^ 64 % members.length < members.length := Nat.mod_lt _ (Nat.pos_of_ne_zero hlen)
  simp only [selectLocalTarget, List.isEmpty_iff, hmembers, if_false, selectMemberIndex, List.length_map, hlen, hd, hk,
    Option.bind_some, turn, List.getElem?_eq_getElem hlt, Option.map_some, and_self]

/-- Every call that is to draw has the same members, and the counter is the number of draws. -/
structure Drawn (members : List ActorId) (s : Selecting) : Prop where
  strategy : s.dispatcher.strategy = .roundRobin
  next : s.dispatcher.next.toNat = s.selections.length % 2 ^ 64
  calls : ∀ (i : Nat) (members' : List ActorId), s.calls[i]? = some (SelectPc.select members') → members' = members
  drawn : ∀ k < s.selections.length, s.selections[k]? = (turn members k).map .ok

theorem drawn_turning (members : List ActorId) : Drawn members (turning group scope) where
  strategy := rfl
  next := rfl
  calls := fun i members' hi => by simp [turning] at hi
  drawn := fun k hk => by simp [turning] at hk

theorem toNat_next (n : UInt64) {k : Nat} (hk : n.toNat = k % 2 ^ 64) : (n + 1).toNat = (k + 1) % 2 ^ 64 := by
  rw [UInt64.toNat_add, UInt64.toNat_one, hk, Nat.mod_add_mod]

theorem Drawn.step (h : Drawn (membersScoped values alive) s) (hmembers : membersScoped values alive ≠ [])
    (hstep : SelectStep values alive s a s') : Drawn (membersScoped values alive) s' := by
  cases hstep with
  | call =>
    refine ⟨h.strategy, h.next, fun i members' hi => ?_, h.drawn⟩
    by_cases hlt : i < s.calls.length
    · rw [List.getElem?_append_left hlt] at hi
      exact h.calls i members' hi
    · rw [List.getElem?_append_right (Nat.le_of_not_lt hlt), List.getElem?_singleton] at hi
      split_ifs at hi
      cases hi
  | @collect i hi =>
    refine ⟨h.strategy, h.next, fun j members' hj => ?_, h.drawn⟩
    rw [List.getElem?_set] at hj
    split_ifs at hj with hij hlt
    · cases hj
      rfl
    · exact h.calls j members' hj
  | @draw i members depth hi =>
    obtain rfl := h.calls i members hi
    obtain ⟨hresult, hdispatcher⟩ := selectLocalTarget_roundRobin h.strategy hmembers depth h.next
    refine ⟨?_, ?_, fun j members' hj => ?_, fun k hk => ?_⟩
    · show (selectLocalTarget s.dispatcher (membersScoped values alive) depth).2.strategy = _
      rw [hdispatcher]
      exact h.strategy
    · show (selectLocalTarget s.dispatcher (membersScoped values alive) depth).2.next.toNat = _
      rw [hdispatcher, List.length_append, List.length_singleton]
      exact toNat_next _ h.next
    · simp only [List.getElem?_set] at hj
      split_ifs at hj
      · cases hj
      · exact h.calls j members' hj
    · simp only [List.length_append, List.length_singleton] at hk
      rcases Nat.lt_succ_iff_lt_or_eq.mp hk with hlt | rfl
      · simp only [List.getElem?_append_left hlt]
        exact h.drawn k hlt
      · simp only [List.getElem?_concat_length]
        exact hresult

/-- **The `k`-th target**, whatever the threads. -/
theorem selection_at (hmembers : membersScoped values alive ≠ [])
    (h : Run (SelectStep values alive) (turning group scope) τ s) {k : Nat} (hk : k < s.selections.length) :
    s.selections[k]? = (turn (membersScoped values alive) k).map .ok :=
  (h.inv (drawn_turning _) fun _ _ _ hs hstep => hs.step hmembers hstep).drawn k hk

/-- There are runs with any number of draws. -/
theorem exists_draws (values : List ActorId) (alive : ActorId → Bool) (group scope : String) (n : Nat) :
    ∃ τ s, Run (SelectStep values alive) (turning group scope) τ s ∧ s.selections.length = n := by
  induction n with
  | zero => exact ⟨[], _, .nil, rfl⟩
  | succ n ih =>
    obtain ⟨τ, s, hrun, hlen⟩ := ih
    have hcall : (s.calls ++ [SelectPc.collect])[s.calls.length]? = some .collect := by simp
    have hmine : ((s.calls ++ [SelectPc.collect]).set s.calls.length (.select (membersScoped values alive)))[s.calls.length]?
        = some (.select (membersScoped values alive)) := by simp
    exact ⟨_, _, ((hrun.snoc .call).snoc (.collect hcall)).snoc (.draw (fun _ => 0) hmine), by simp [hlen]⟩

end Draws

/-! ## Turns in join order -/

section Fair

variable {members m : List ActorId}

/-- Where every draw goes by the list `m`, the list of the draws is `m`, and its length divides the range of the
counter. -/
theorem eq_of_turns (hm : members.Perm m) (hnodup : m.Nodup) (hne : m ≠ [])
    (h : ∀ k, turn members k = m[k % m.length]?) : members = m ∧ m.length ∣ 2 ^ 64 := by
  have hlen := hm.length_eq
  have hpos : 0 < m.length := List.length_pos_of_ne_nil hne
  simp only [turn, hlen] at h
  -- past the wrap the draws begin again with the first member
  have hwrap : m[0]? = m[2 ^ 64 % m.length]? := by
    have hzero := h 0
    have hagain := h (2 ^ 64)
    simp only [Nat.zero_mod, Nat.mod_self] at hzero hagain
    exact hzero.symm.trans hagain
  have hdvd : m.length ∣ 2 ^ 64 := Nat.dvd_of_mod_eq_zero ((List.getElem?_inj hpos hnodup).mp hwrap).symm
  refine ⟨List.ext_getElem? fun k => ?_, hdvd⟩
  by_cases hk : k < m.length
  · have hturn := h k
    have hlt : k < 2 ^ 64 := lt_of_lt_of_le hk (Nat.le_of_dvd (by decide) hdvd)
    rwa [Nat.mod_eq_of_lt hlt, Nat.mod_eq_of_lt hk] at hturn
  · rw [List.getElem?_eq_none (by omega), List.getElem?_eq_none (by omega)]

theorem turn_of_dvd (hdvd : m.length ∣ 2 ^ 64) (k : Nat) : turn m k = m[k % m.length]? := by
  rw [turn, Nat.mod_mod_of_dvd k hdvd]

/-- Any `n` draws in a row, each member once. -/
theorem window_perm {selections : List (Except PoolError ActorId)}
    (h : ∀ k < selections.length, selections[k]? = m[k % m.length]?.map .ok) {start : Nat}
    (hstart : start + m.length ≤ selections.length) :
    ((selections.drop start).take m.length).Perm (m.map .ok) := by
  have hrotate : (selections.drop start).take m.length = (m.rotate start).map .ok := by
    refine List.ext_getElem? fun i => ?_
    by_cases hi : i < m.length
    · rw [List.getElem?_take_of_lt hi, List.getElem?_drop, h _ (by omega), List.getElem?_map, List.getElem?_rotate hi,
        Nat.add_comm]
    · rw [List.getElem?_eq_none (by simp; omega), List.getElem?_eq_none (by simp; omega)]
  rw [hrotate]
  exact (List.rotate_perm m start).map _

end Fair

/-- The selections of a run go by the list `m` in turn, and any `n` of them in a row take each member once. -/
structure TakesTurns (m : List ActorId) (selections : List (Except PoolError ActorId)) : Prop where
  turns : ∀ k < selections.length, selections[k]? = m[k % m.length]?.map .ok
  windows : ∀ start, start + m.length ≤ selections.length →
    ((selections.drop start).take m.length).Perm (m.map .ok)

/-- Each value of the bucket is stored under its own address, so it is there once. -/
theorem nodup_of_own {store : PgTables ActorId} {key : GroupKey} {type : TypeId} {values : List ActorId} {here : NodeId}
    (hvalues : store.TypedMembers key type values)
    (hown : ∀ address id, store.typed.Holds (key, type) address id → address = ⟨here, id⟩) : values.Nodup := by
  refine hvalues.nodup_iff.mpr ?_
  cases hbucket : store.typed (key, type) with
  | none => simp
  | some bucket =>
    have haddress : ∀ e ∈ bucket.entries, e.1 = ⟨here, e.2⟩ :=
      fun e he => hown e.1 e.2 ⟨bucket, hbucket, AList.mem_lookup_iff.mpr he⟩
    refine bucket.nodupKeys.nodup.map_on fun x hx y hy heq => Sigma.ext ?_ (heq_of_eq heq)
    rw [haddress x hx, haddress y hy, heq]

/-- The values of the bucket are its members, in the order of the hash map. -/
theorem perm_joinOrder {here : NodeId} {key : GroupKey} {type : TypeId} {τ : List (PgNode ActorId × PgCall ActorId)}
    {s : PgNode ActorId} (h : Run (PgNode.Step here) {} τ s) (hown : ∀ x ∈ τ, OwnValue x.2) {values : List ActorId}
    (hvalues : s.tables.TypedMembers key type values) : values.Perm (joinOrder here key type τ s) := by
  have haddress : ∀ a id, s.tables.typed.Holds (key, type) a id → a = ⟨here, id⟩ :=
    fun a id hholds => address_of_value h hown (Nested.get_eq_some.mpr hholds)
  refine (List.perm_ext_iff_of_nodup (nodup_of_own hvalues haddress) (nodup_joinOrder h)).mpr fun id => ?_
  have hmem : id ∈ membersScoped values (fun _ => true) ↔ LiveMember s.tables key type (fun _ => true) id :=
    mem_membersScoped hvalues
  rw [membersScoped, List.filter_true] at hmem
  rw [hmem, mem_joinOrder h, LiveMember, and_iff_left rfl, Nested.has_iff_holds]
  constructor
  · rintro ⟨a, hholds⟩
    obtain rfl := haddress a id hholds
    exact ⟨id, hholds⟩
  · rintro ⟨v, hholds⟩
    obtain rfl : id = v := congrArg ActorAddress.actorId (haddress _ v hholds)
    exact ⟨_, hholds⟩

/-- **Round robin in join order.** On a node with any history, let the live members of a typed bucket in join order be `m`,
at least one, while any threads make any number of selections. The `k`-th selection is `m[k mod n]` in every run, and any
`n` in a row take each member once, exactly if the hash map of the bucket yields the live members in join order and their
number divides `2 ^ 64`. -/
theorem round_robin_iff (here : NodeId) (τ₀ : List (PgNode ActorId × PgCall ActorId)) (s₀ : PgNode ActorId)
    (h₀ : Run (PgNode.Step here) {} τ₀ s₀) (hown : ∀ x ∈ τ₀, OwnValue x.2) (group scope : String) (type : TypeId)
    (values : List ActorId) (hvalues : s₀.tables.TypedMembers ⟨scope, group⟩ type values)
    (m : List ActorId) (hm : m = (joinOrder here ⟨scope, group⟩ type τ₀ s₀).filter s₀.alive) (hne : m ≠ []) :
    (∀ τ s, Run (SelectStep values s₀.alive) (turning group scope) τ s → TakesTurns m s.selections) ↔
      membersScoped values s₀.alive = m ∧ m.length ∣ 2 ^ 64 := by
  have hlive : (membersScoped values s₀.alive).Perm m := by
    rw [hm]
    exact (perm_joinOrder h₀ hown hvalues).filter _
  have hnodup : m.Nodup := by
    rw [hm]
    exact (nodup_joinOrder h₀).filter _
  have hmembers : membersScoped values s₀.alive ≠ [] := by
    intro hnil
    rw [hnil] at hlive
    exact hne hlive.nil_eq.symm
  constructor
  · intro h
    refine eq_of_turns hlive hnodup hne fun k => ?_
    obtain ⟨τ, s, hrun, hlen⟩ := exists_draws values s₀.alive group scope (k + 1)
    have hdrawn := selection_at hmembers hrun (by omega : k < s.selections.length)
    rw [(h τ s hrun).turns k (by omega)] at hdrawn
    exact (Option.map_injective (fun _ _ he => Except.ok.inj he) hdrawn).symm
  · rintro ⟨heq, hdvd⟩ τ s hrun
    have hturns : ∀ k < s.selections.length, s.selections[k]? = m[k % m.length]?.map .ok := by
      intro k hk
      rw [selection_at hmembers hrun hk, heq, turn_of_dvd hdvd]
    exact ⟨hturns, fun start hstart => window_perm hturns hstart⟩

/-! ### Two members -/

/-- The actors 1 and 2 join a group, one after the other. -/
def joinedInTurn : List (PgCall ActorId) :=
  [.joinScoped ⟨"default", "g"⟩ 1, .typedJoin ⟨"default", "g"⟩ "A" 1 1, .joinScoped ⟨"default", "g"⟩ 2,
    .typedJoin ⟨"default", "g"⟩ "A" 2 2]

/-- With a hash map that yields them in this order. -/
theorem round_robin_iff_pair :
    ∃ s₀ : PgNode ActorId, s₀.tables.TypedMembers ⟨"default", "g"⟩ "A" [1, 2] ∧
      ∀ τ s, Run (SelectStep [1, 2] s₀.alive) (turning "g" "default") τ s → TakesTurns [1, 2] s.selections := by
  have hrun : Run (PgNode.Step "n") ({} : PgNode ActorId) _ _ :=
    run_tryPlay (PgNode.next "n") {} joinedInTurn (by decide)
  refine ⟨_, ?_, (round_robin_iff "n" _ _ hrun (by decide) "g" "default" "A" [1, 2] ?_ [1, 2] (by decide)
    (by decide)).mpr ⟨by decide, by decide⟩⟩
  all_goals unfold PgTables.TypedMembers; decide

/-- A hash map may as well yield 2 before 1: the first selection is then the member that joined second. -/
theorem round_robin_out_of_join_order :
    ∃ τ₀ s₀, Run (PgNode.Step "n") ({} : PgNode ActorId) τ₀ s₀ ∧ τ₀.map (·.2) = joinedInTurn ∧
      joinOrder "n" ⟨"default", "g"⟩ "A" τ₀ s₀ = [1, 2] ∧ s₀.tables.TypedMembers ⟨"default", "g"⟩ "A" [2, 1] ∧
      ¬∀ τ s, Run (SelectStep [2, 1] s₀.alive) (turning "g" "default") τ s → TakesTurns [1, 2] s.selections := by
  have hrun : Run (PgNode.Step "n") ({} : PgNode ActorId) _ _ :=
    run_tryPlay (PgNode.next "n") {} joinedInTurn (by decide)
  refine ⟨_, _, hrun, rfl, by decide, by unfold PgTables.TypedMembers; decide, fun h => ?_⟩
  obtain ⟨τ, s, hselect, hlen⟩ := exists_draws [2, 1] (fun _ => true) "g" "default" 1
  have hfirst := selection_at (by decide) hselect (by omega : 0 < s.selections.length)
  rw [(h τ s hselect).turns 0 (by omega)] at hfirst
  exact absurd hfirst (by decide)

end Spawned
