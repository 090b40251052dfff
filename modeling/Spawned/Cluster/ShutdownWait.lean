import Spawned.Lib.Run
import Spawned.Lib.Table
import Spawned.Supervisor.Ops

/-!
# Waiting for a remote child to stop

`shutdown_remote_and_wait` and its blocking variant signal a remote child and wait for its `ChildExit`. All calls of a
node share one table of waits, and its key is the child's actor id without the node.

* `ShutdownPc`, `shutdownNext` : both functions, one access to the table, one signal or one wait at a time, and the
  `ChildExit`s that complete a wait;
* `Apart` : the calls in progress under one actor id are for one address;
* `shutdown_waits_apart` : what then holds of every run.
-/

namespace Spawned

open Lib

namespace ShutdownWait

/-- Where a call is. -/
inductive ShutdownPc
  /-- `register_shutdown_wait` -/
  | register
  /-- `remote_signal`, or the first signal of `run_shutdown_policy_blocking` -/
  | signal
  /-- the first wait on the receiver -/
  | wait
  /-- the grace period is over: `remote.kill()` -/
  | kill
  /-- `clear_shutdown_wait` between the two waits of the async function -/
  | clearAgain
  /-- the second `register_shutdown_wait` of the async function -/
  | registerAgain
  /-- the wait for the killed child -/
  | waitKilled
  /-- the last `clear_shutdown_wait` -/
  | clear (result : Except RemoteShutdownError Unit)
  | returned (result : Except RemoteShutdownError Unit)
deriving DecidableEq

/-- The call has registered its wait and has not returned. -/
def ShutdownPc.inProgress : ShutdownPc → Bool
  | .register | .returned _ => false
  | _ => true

/-- A call for the child at `address`. -/
structure Call where
  address : ActorAddress
  shutdown : ShutdownType
  /-- `shutdown_remote_and_wait_blocking` -/
  blocking : Bool
  pc : ShutdownPc := .register
  /-- how often the call has registered again: each time makes a channel of its own -/
  round : Nat := 0
deriving DecidableEq

/-- The channel a call waits on: the call, and the round it was made in. -/
abbrev Channel := Nat × Nat

/-- What the calls of a node share. -/
structure State where
  /-- every call ever made -/
  calls : List Call := []
  /-- `SHUTDOWN_WAITS`: the sending ends -/
  waits : Table ActorId Channel := Table.empty
  /-- the channels on which `()` was sent -/
  sent : List Channel := []

/-- The steps of the calls of a node. -/
inductive Act
  | call (address : ActorAddress) (shutdown : ShutdownType) (blocking : Bool)
  | register (i : Nat)
  /-- the answer of `remote.shutdown()` or `remote.kill()`; an error carries its text -/
  | signal (i : Nat) (answer : Except String Unit)
  /-- the wait of call `i` ends with this -/
  | waited (i : Nat) (result : Except RemoteShutdownError Unit)
  | clear (i : Nat)
  /-- `apply_child_exit` has found the parent and completes the wait -/
  | childExit (child : ActorAddress)
deriving DecidableEq

namespace State

def setPc (s : State) (i : Nat) (c : Call) (pc : ShutdownPc) : State := { s with calls := s.calls.set i { c with pc } }

/-- `complete_remote_shutdown_wait`. -/
def complete (s : State) (id : ActorId) : State :=
  match s.waits id with
  | none => s
  | some channel => { s with waits := s.waits.remove id, sent := s.sent ++ [channel] }

/-- Where a call goes when a signal failed: the blocking function clears on every path, the other returns at once. -/
def failed (c : Call) (e : String) : ShutdownPc :=
  if c.blocking then .clear (.error (.signal e)) else .returned (.error (.signal e))

/-- What a wait may end with: a message if there is one, else a timeout where there is one, or the error of a channel
without sender. `spawn_blocking` around the wait of the async function may fail too. -/
def waitEnds (s : State) (i : Nat) (c : Call) : Except RemoteShutdownError Unit → Bool
  | .ok () => (i, c.round) ∈ s.sent
  | .error .timeout => (i, c.round) ∉ s.sent && (c.pc == .waitKilled || c.shutdown != .infinity)
  | .error .interrupted =>
    !c.blocking || ((i, c.round) ∉ s.sent && s.waits c.address.actorId != some (i, c.round))
  | .error (.signal _) => false

/-- Where a call goes when its first wait has ended. Only a `Timeout` policy escalates: the blocking function on any
error, the other on a timeout. -/
def afterWait (c : Call) (result : Except RemoteShutdownError Unit) : ShutdownPc :=
  match c.shutdown, result with
  | .timeout _, .error e => if c.blocking ∨ e = .timeout then .kill else .clear (.error e)
  | _, _ => .clear result

end State

/-- The next state; `none` where the step cannot be taken. -/
def shutdownNext (s : State) : Act → Option State
  | .call address shutdown blocking => some { s with calls := s.calls ++ [{ address, shutdown, blocking }] }
  | .register i => s.calls[i]?.bind fun c =>
    match c.pc with
    | .register => some { s.setPc i c .signal with waits := s.waits.insert c.address.actorId (i, c.round) }
    | .registerAgain =>
      some { s.setPc i { c with round := c.round + 1 } .waitKilled with
        waits := s.waits.insert c.address.actorId (i, c.round + 1) }
    | _ => none
  | .signal i answer => s.calls[i]?.bind fun c =>
    match c.pc, answer with
    | .signal, .ok () => some (s.setPc i c .wait)
    | .signal, .error e => some (s.setPc i c (State.failed c e))
    | .kill, .ok () => some (s.setPc i c (if c.blocking then .waitKilled else .clearAgain))
    | .kill, .error e => some (s.setPc i c (State.failed c e))
    | _, _ => none
  | .waited i result => s.calls[i]?.bind fun c =>
    if s.waitEnds i c result then
      match c.pc with
      | .wait => some (s.setPc i c (State.afterWait c result))
      | .waitKilled => some (s.setPc i c (.clear result))
      | _ => none
    else none
  | .clear i => s.calls[i]?.bind fun c =>
    match c.pc with
    | .clearAgain => some { s.setPc i c .registerAgain with waits := s.waits.remove c.address.actorId }
    | .clear result => some { s.setPc i c (.returned result) with waits := s.waits.remove c.address.actorId }
    | _ => none
  | .childExit child => some (s.complete child.actorId)

def Step (s : State) (a : Act) (s' : State) : Prop := shutdownNext s a = some s'

/-! ## What a step can do -/

/-- The call returns `Ok`, or is about to. -/
def ShutdownPc.isOk : ShutdownPc → Bool
  | .clear (.ok ()) | .returned (.ok ()) => true
  | _ => false

/-- Call `i` goes from `c` to `c'`. -/
structure Moved (s : State) (a : Act) (s' : State) (i : Nat) (c c' : Call) : Prop where
  here : s.calls[i]? = some c
  calls : s'.calls = s.calls.set i c'
  address : c'.address = c.address
  left : c'.pc ≠ .register
  sent : s'.sent = s.sent
  /-- a call is in progress from its registration on -/
  started : c.pc.inProgress = true ∨ (c.pc = .register ∧ a = .register i)
  waits : s'.waits = s.waits ∨
    (a = .register i ∧ s'.waits = s.waits.insert c.address.actorId (i, c'.round)) ∨
    (a = .clear i ∧ s'.waits = s.waits.remove c.address.actorId)
  /-- nothing but a message makes a call succeed -/
  ok : c'.pc.isOk = true → c.pc.isOk = true ∨ (i, c.round) ∈ s.sent

theorem isOk_failed (c : Call) (e : String) : (State.failed c e).isOk = false := by
  unfold State.failed
  split <;> rfl

theorem failed_ne_register (c : Call) (e : String) : State.failed c e ≠ .register := by
  unfold State.failed
  split <;> simp

theorem afterWait_ne_register (c : Call) (result : Except RemoteShutdownError Unit) :
    State.afterWait c result ≠ .register := by
  unfold State.afterWait
  split
  · split <;> simp
  · simp

theorem isOk_afterWait {s : State} {i : Nat} {c : Call} {result : Except RemoteShutdownError Unit}
    (hends : s.waitEnds i c result = true) (h : (State.afterWait c result).isOk = true) : (i, c.round) ∈ s.sent := by
  cases result with
  | ok => simpa [State.waitEnds] using hends
  | error e =>
    exfalso
    unfold State.afterWait at h
    split at h
    · split at h <;> simp [ShutdownPc.isOk] at h
    · simp [ShutdownPc.isOk] at h

/-- A step is a new call, a move of one call, or a `ChildExit`. -/
theorem step_cases {s s' : State} {a : Act} (h : Step s a s') :
    (∃ address shutdown blocking, a = .call address shutdown blocking ∧
      s' = { s with calls := s.calls ++ [{ address, shutdown, blocking }] }) ∨
    (∃ i c c', Moved s a s' i c c') ∨ (∃ child, a = .childExit child ∧ s' = s.complete child.actorId) := by
  unfold Step at h
  cases a with
  | call address shutdown blocking => exact Or.inl ⟨address, shutdown, blocking, rfl, by simpa [shutdownNext] using h.symm⟩
  | childExit child => exact Or.inr (Or.inr ⟨child, rfl, by simpa [shutdownNext] using h.symm⟩)
  | register i =>
    refine Or.inr (Or.inl ?_)
    obtain ⟨c, hc, h⟩ := Option.bind_eq_some_iff.mp h
    split at h
    case h_1 hpc =>
      cases h
      exact ⟨i, c, _, hc, rfl, rfl, by simp, rfl, Or.inr ⟨hpc, rfl⟩, Or.inr (Or.inl ⟨rfl, rfl⟩), by simp [ShutdownPc.isOk]⟩
    case h_2 hpc =>
      cases h
      exact ⟨i, c, _, hc, rfl, rfl, by simp, rfl, Or.inl (by simp [hpc, ShutdownPc.inProgress]), Or.inr (Or.inl ⟨rfl, rfl⟩),
        by simp [ShutdownPc.isOk]⟩
    case h_3 => cases h
  | signal i answer =>
    refine Or.inr (Or.inl ?_)
    obtain ⟨c, hc, h⟩ := Option.bind_eq_some_iff.mp h
    split at h
    case h_1 hpc _ =>
      cases h
      exact ⟨i, c, _, hc, rfl, rfl, by simp, rfl, Or.inl (by simp [hpc, ShutdownPc.inProgress]), Or.inl rfl,
        by simp [ShutdownPc.isOk]⟩
    case h_2 hpc _ =>
      cases h
      exact ⟨i, c, _, hc, rfl, rfl, failed_ne_register c _, rfl, Or.inl (by simp [hpc, ShutdownPc.inProgress]), Or.inl rfl,
        by simp [isOk_failed]⟩
    case h_3 hpc _ =>
      cases h
      refine ⟨i, c, _, hc, rfl, rfl, ?_, rfl, Or.inl (by simp [hpc, ShutdownPc.inProgress]), Or.inl rfl, ?_⟩
      · cases c.blocking <;> simp
      · cases c.blocking <;> simp [ShutdownPc.isOk]
    case h_4 hpc _ =>
      cases h
      exact ⟨i, c, _, hc, rfl, rfl, failed_ne_register c _, rfl, Or.inl (by simp [hpc, ShutdownPc.inProgress]), Or.inl rfl,
        by simp [isOk_failed]⟩
    case h_5 => cases h
  | waited i result =>
    refine Or.inr (Or.inl ?_)
    obtain ⟨c, hc, h⟩ := Option.bind_eq_some_iff.mp h
    split at h
    case isTrue hends =>
      split at h
      case h_1 hpc =>
        cases h
        exact ⟨i, c, _, hc, rfl, rfl, afterWait_ne_register c _, rfl, Or.inl (by simp [hpc, ShutdownPc.inProgress]), Or.inl rfl,
          fun hok => Or.inr (isOk_afterWait hends hok)⟩
      case h_2 hpc =>
        cases h
        refine ⟨i, c, _, hc, rfl, rfl, by simp, rfl, Or.inl (by simp [hpc, ShutdownPc.inProgress]), Or.inl rfl, ?_⟩
        cases result with
        | ok => exact fun _ => Or.inr (by simpa [State.waitEnds] using hends)
        | error e => simp [ShutdownPc.isOk]
      case h_3 => cases h
    case isFalse => cases h
  | clear i =>
    refine Or.inr (Or.inl ?_)
    obtain ⟨c, hc, h⟩ := Option.bind_eq_some_iff.mp h
    split at h
    case h_1 hpc =>
      cases h
      exact ⟨i, c, _, hc, rfl, rfl, by simp, rfl, Or.inl (by simp [hpc, ShutdownPc.inProgress]), Or.inr (Or.inr ⟨rfl, rfl⟩),
        by simp [ShutdownPc.isOk]⟩
    case h_2 result hpc =>
      cases h
      refine ⟨i, c, _, hc, rfl, rfl, by simp, rfl, Or.inl (by simp [hpc, ShutdownPc.inProgress]), Or.inr (Or.inr ⟨rfl, rfl⟩), ?_⟩
      rw [hpc]
      intro hok
      cases result with
      | ok => exact Or.inl rfl
      | error e => simp [ShutdownPc.isOk] at hok
    case h_3 => cases h

/-! ## Calls for one address under one id -/

/-- No call in progress is for another address with the actor id of `address`. -/
def AloneUnderId (s : State) (address : ActorAddress) : Prop :=
  ∀ c ∈ s.calls, c.pc.inProgress = true → c.address.actorId = address.actorId → c.address = address

/-- The condition on a step: a call registers, and a `ChildExit` arrives, only while every call in progress under the
same actor id is for the same address. -/
def Apart (s : State) : Act → Prop
  | .register i => ∀ c ∈ s.calls[i]?, AloneUnderId s c.address
  | .childExit child => AloneUnderId s child
  | _ => True

instance (s : State) (address : ActorAddress) : Decidable (AloneUnderId s address) :=
  inferInstanceAs (Decidable (∀ c ∈ s.calls, _ → _ → _))

instance (s : State) : (a : Act) → Decidable (Apart s a)
  | .register i => inferInstanceAs (Decidable (∀ c ∈ s.calls[i]?, AloneUnderId s c.address))
  | .childExit child => inferInstanceAs (Decidable (AloneUnderId s child))
  | .call _ _ _ | .signal _ _ | .waited _ _ | .clear _ => isTrue trivial

/-- Call `i` registered, and later the `ChildExit` of `address` arrived. -/
def ExitedSince (τ : List (State × Act)) (i : Nat) (address : ActorAddress) : Prop :=
  ∃ τ₁ s τ₂, τ = τ₁ ++ (s, .register i) :: τ₂ ∧ ∃ y ∈ τ₂, y.2 = .childExit address

/-- A step leaves alone the waits of calls for other addresses: while call `j` is in progress, its wait leaves the table
only by a step of a call for its own address or by its own `ChildExit`, and only its own `ChildExit` completes it. -/
def LeavesOthers (s : State) (a : Act) (s' : State) : Prop :=
  ∀ (j round : Nat) (c : Call), s.calls[j]? = some c → c.pc.inProgress = true →
    ((∃ id, s.waits id = some (j, round) ∧ s'.waits id ≠ some (j, round)) →
      a = .childExit c.address ∨
        ∃ i c', s.calls[i]? = some c' ∧ (a = .register i ∨ a = .clear i) ∧ c'.address = c.address) ∧
    ((j, round) ∉ s.sent → (j, round) ∈ s'.sent → a = .childExit c.address)

theorem ExitedSince.snoc {τ : List (State × Act)} {i : Nat} {address : ActorAddress} (h : ExitedSince τ i address)
    (x : State × Act) : ExitedSince (τ ++ [x]) i address := by
  obtain ⟨τ₁, s, τ₂, rfl, y, hy, hexit⟩ := h
  exact ⟨τ₁, s, τ₂ ++ [x], by simp, y, by simp [hy], hexit⟩

theorem exitedSince_of_registered {τ : List (State × Act)} {i : Nat} {address : ActorAddress} {s : State}
    (h : ∃ s₀, (s₀, Act.register i) ∈ τ) : ExitedSince (τ ++ [(s, .childExit address)]) i address := by
  obtain ⟨s₀, hmem⟩ := h
  obtain ⟨τ₁, τ₂, rfl⟩ := List.append_of_mem hmem
  exact ⟨τ₁, s₀, τ₂ ++ [(s, .childExit address)], by simp, (s, .childExit address), by simp, rfl⟩

/-- The invariant of the runs whose steps are apart. -/
structure Tied (τ : List (State × Act)) (s : State) : Prop where
  /-- a wait is in the table under the actor id of its call -/
  keyed : ∀ id i round, s.waits id = some (i, round) →
    ∃ c, s.calls[i]? = some c ∧ c.address.actorId = id ∧ c.pc ≠ .register
  /-- a channel is made by registering -/
  channel : ∀ i round, (i, round) ∈ s.sent → ∃ c, s.calls[i]? = some c ∧ c.pc ≠ .register
  registered : ∀ (i : Nat) c, s.calls[i]? = some c → c.pc.inProgress = true → ∃ s₀, (s₀, Act.register i) ∈ τ
  /-- calls in progress under one actor id are for one address -/
  alone : ∀ c ∈ s.calls, c.pc.inProgress = true → AloneUnderId s c.address
  /-- a message to a call in progress says that its child has exited -/
  told : ∀ (i round : Nat) c, s.calls[i]? = some c → c.pc.inProgress = true → (i, round) ∈ s.sent →
    ExitedSince τ i c.address
  ok : ∀ (i : Nat) c, s.calls[i]? = some c → c.pc.isOk = true → ExitedSince τ i c.address

namespace Moved

variable {s s' : State} {a : Act} {i : Nat} {c c' : Call}

/-- The calls after a move. -/
theorem calls_cases (m : Moved s a s' i c c') {j : Nat} {d : Call} (hd : s'.calls[j]? = some d) :
    (j = i ∧ d = c') ∨ s.calls[j]? = some d := by
  have hlt : i < s.calls.length := (List.getElem?_eq_some_iff.mp m.here).1
  by_cases hj : j = i
  · subst hj
    rw [m.calls, List.getElem?_set_self hlt] at hd
    exact Or.inl ⟨rfl, (Option.some.inj hd).symm⟩
  · rw [m.calls, List.getElem?_set_ne (Ne.symm hj)] at hd
    exact Or.inr hd

/-- A call stays where it was, or is the one that moved and keeps its address. -/
theorem calls_keep (m : Moved s a s' i c c') {j : Nat} {d : Call} (hd : s.calls[j]? = some d) :
    ∃ d', s'.calls[j]? = some d' ∧ d'.address = d.address ∧ (d.pc ≠ .register → d'.pc ≠ .register) := by
  have hlt : i < s.calls.length := (List.getElem?_eq_some_iff.mp m.here).1
  by_cases hj : j = i
  · subst hj
    obtain rfl : c = d := Option.some.inj (m.here.symm.trans hd)
    exact ⟨c', by rw [m.calls, List.getElem?_set_self hlt], m.address, fun _ => m.left⟩
  · exact ⟨d, by rw [m.calls, List.getElem?_set_ne (Ne.symm hj), hd], rfl, id⟩

/-- The call that moves is alone under its id. -/
theorem alone (m : Moved s a s' i c c') {τ : List (State × Act)} (h : Tied τ s) (hapart : Apart s a) :
    AloneUnderId s c.address := by
  rcases m.started with hp | ⟨-, rfl⟩
  · exact h.alone c (List.mem_of_getElem? m.here) hp
  · exact hapart c m.here

/-- It is registered from now on. -/
theorem registered (m : Moved s a s' i c c') {τ : List (State × Act)} (h : Tied τ s) :
    ∃ s₀, (s₀, Act.register i) ∈ τ ++ [(s, a)] := by
  rcases m.started with hp | ⟨-, rfl⟩
  · obtain ⟨s₀, hs₀⟩ := h.registered i c m.here hp
    exact ⟨s₀, by simp [hs₀]⟩
  · exact ⟨s, by simp⟩

end Moved

namespace Tied

variable {τ : List (State × Act)} {s s' : State} {a : Act}

theorem move {i : Nat} {c c' : Call} (h : Tied τ s) (hapart : Apart s a) (m : Moved s a s' i c c') :
    Tied (τ ++ [(s, a)]) s' := by
  have halone := m.alone h hapart
  -- what was sent to the call that moves was sent while it was in progress
  have htold : ∀ round, (i, round) ∈ s.sent → ExitedSince (τ ++ [(s, a)]) i c.address := by
    intro round hsent
    rcases m.started with hp | ⟨hpc, -⟩
    · exact (h.told i round c m.here hp hsent).snoc _
    · obtain ⟨d, hd, hne⟩ := h.channel i round hsent
      obtain rfl : c = d := Option.some.inj (m.here.symm.trans hd)
      exact absurd hpc hne
  refine ⟨?_, ?_, ?_, ?_, ?_, ?_⟩
  · intro id j round hw
    have hold : s.waits id = some (j, round) ∨ (id = c.address.actorId ∧ j = i) := by
      rcases m.waits with he | ⟨-, he⟩ | ⟨-, he⟩
      · exact Or.inl (he ▸ hw)
      · rw [he, Table.insert_apply] at hw
        split at hw
        case isTrue hid => cases hw; exact Or.inr ⟨hid, rfl⟩
        case isFalse => exact Or.inl hw
      · rw [he, Table.remove_apply] at hw
        split at hw
        · cases hw
        · exact Or.inl hw
    rcases hold with hw | ⟨rfl, rfl⟩
    · obtain ⟨d, hd, hid, hne⟩ := h.keyed id j round hw
      obtain ⟨d', hd', haddr, hne'⟩ := m.calls_keep hd
      exact ⟨d', hd', haddr ▸ hid, hne' hne⟩
    · have hlt : j < s.calls.length := (List.getElem?_eq_some_iff.mp m.here).1
      exact ⟨c', by rw [m.calls, List.getElem?_set_self hlt], by rw [m.address], m.left⟩
  · intro j round hsent
    rw [m.sent] at hsent
    obtain ⟨d, hd, hne⟩ := h.channel j round hsent
    obtain ⟨d', hd', -, hne'⟩ := m.calls_keep hd
    exact ⟨d', hd', hne' hne⟩
  · intro j d hd hp
    rcases m.calls_cases hd with ⟨rfl, -⟩ | hd
    · exact m.registered h
    · obtain ⟨s₀, hs₀⟩ := h.registered j d hd hp
      exact ⟨s₀, by simp [hs₀]⟩
  · intro d hd hp d' hd' hp' hid
    obtain ⟨j, hj⟩ := List.mem_iff_getElem?.mp hd
    obtain ⟨j', hj'⟩ := List.mem_iff_getElem?.mp hd'
    rcases m.calls_cases hj with ⟨-, rfl⟩ | hj <;> rcases m.calls_cases hj' with ⟨-, rfl⟩ | hj'
    · rfl
    · rw [m.address] at hid ⊢
      exact halone d' (List.mem_of_getElem? hj') hp' hid
    · rw [m.address] at hid ⊢
      exact (halone d (List.mem_of_getElem? hj) hp hid.symm).symm
    · exact h.alone d (List.mem_of_getElem? hj) hp d' (List.mem_of_getElem? hj') hp' hid
  · intro j round d hd hp hsent
    rw [m.sent] at hsent
    rcases m.calls_cases hd with ⟨rfl, rfl⟩ | hd
    · rw [m.address]
      exact htold round hsent
    · exact (h.told j round d hd hp hsent).snoc _
  · intro j d hd hok
    rcases m.calls_cases hd with ⟨rfl, rfl⟩ | hd
    · rw [m.address]
      rcases m.ok hok with hok | hsent
      · exact (h.ok j c m.here hok).snoc _
      · exact htold _ hsent
    · exact (h.ok j d hd hok).snoc _

theorem call (h : Tied τ s) (a : Act) {new : Call} (hnew : new.pc = .register) :
    Tied (τ ++ [(s, a)]) { s with calls := s.calls ++ [new] } := by
  have hkeep : ∀ {j : Nat} {d : Call}, s.calls[j]? = some d → (s.calls ++ [new])[j]? = some d := by
    intro j d hd
    rw [List.getElem?_append_left (List.getElem?_eq_some_iff.mp hd).1, hd]
  have hback : ∀ {j : Nat} {d : Call}, (s.calls ++ [new])[j]? = some d → s.calls[j]? = some d ∨ d.pc = .register := by
    intro j d hd
    by_cases hlt : j < s.calls.length
    · exact Or.inl (by rwa [List.getElem?_append_left hlt] at hd)
    · rw [List.getElem?_append_right (Nat.le_of_not_lt hlt), List.getElem?_singleton] at hd
      split at hd
      · cases hd; exact Or.inr hnew
      · cases hd
  refine ⟨?_, ?_, ?_, ?_, ?_, ?_⟩
  · intro id j round hw
    obtain ⟨d, hd, hid⟩ := h.keyed id j round hw
    exact ⟨d, hkeep hd, hid⟩
  · intro j round hsent
    obtain ⟨d, hd, hne⟩ := h.channel j round hsent
    exact ⟨d, hkeep hd, hne⟩
  · intro j d hd hp
    rcases hback hd with hd | hpc
    · obtain ⟨s₀, hs₀⟩ := h.registered j d hd hp
      exact ⟨s₀, by simp [hs₀]⟩
    · simp [hpc, ShutdownPc.inProgress] at hp
  · intro d hd hp d' hd' hp' hid
    obtain ⟨j, hj⟩ := List.mem_iff_getElem?.mp hd
    obtain ⟨j', hj'⟩ := List.mem_iff_getElem?.mp hd'
    rcases hback hj with hj | hpc
    · rcases hback hj' with hj' | hpc
      · exact h.alone d (List.mem_of_getElem? hj) hp d' (List.mem_of_getElem? hj') hp' hid
      · simp [hpc, ShutdownPc.inProgress] at hp'
    · simp [hpc, ShutdownPc.inProgress] at hp
  · intro j round d hd hp hsent
    rcases hback hd with hd | hpc
    · exact (h.told j round d hd hp hsent).snoc _
    · simp [hpc, ShutdownPc.inProgress] at hp
  · intro j d hd hok
    rcases hback hd with hd | hpc
    · exact (h.ok j d hd hok).snoc _
    · simp [hpc, ShutdownPc.isOk] at hok

theorem complete (h : Tied τ s) (child : ActorAddress) (halone : AloneUnderId s child) :
    Tied (τ ++ [(s, .childExit child)]) (s.complete child.actorId) := by
  unfold State.complete
  split
  case h_1 =>
    refine ⟨h.keyed, h.channel, ?_, h.alone, ?_, ?_⟩
    · intro j d hd hp
      obtain ⟨s₀, hs₀⟩ := h.registered j d hd hp
      exact ⟨s₀, by simp [hs₀]⟩
    · exact fun j round d hd hp hsent => (h.told j round d hd hp hsent).snoc _
    · exact fun j d hd hok => (h.ok j d hd hok).snoc _
  case h_2 channel hw =>
    obtain ⟨i, r⟩ := channel
    obtain ⟨c, hc, hid, hne⟩ := h.keyed _ i r hw
    refine ⟨?_, ?_, ?_, h.alone, ?_, ?_⟩
    · intro id j round hw'
      change s.waits.remove child.actorId id = some (j, round) at hw'
      rw [Table.remove_apply] at hw'
      split at hw'
      · cases hw'
      · exact h.keyed id j round hw'
    · intro j round hsent
      rcases List.mem_append.mp hsent with hsent | hsent
      · exact h.channel j round hsent
      · obtain ⟨rfl, rfl⟩ : j = i ∧ round = r := by simpa using hsent
        exact ⟨c, hc, hne⟩
    · intro j d hd hp
      obtain ⟨s₀, hs₀⟩ := h.registered j d hd hp
      exact ⟨s₀, by simp [hs₀]⟩
    · intro j round d hd hp hsent
      rcases List.mem_append.mp hsent with hsent | hsent
      · exact (h.told j round d hd hp hsent).snoc _
      · -- the wait completed is that of a call for the child itself
        obtain ⟨rfl, rfl⟩ : j = i ∧ round = r := by simpa using hsent
        obtain rfl : c = d := Option.some.inj (hc.symm.trans hd)
        rw [halone c (List.mem_of_getElem? hd) hp hid]
        exact exitedSince_of_registered (h.registered j c hd hp)
    · exact fun j d hd hok => (h.ok j d hd hok).snoc _

theorem step (h : Tied τ s) (hapart : Apart s a) (hs : Step s a s') : Tied (τ ++ [(s, a)]) s' := by
  rcases step_cases hs with ⟨address, shutdown, blocking, rfl, rfl⟩ | ⟨i, c, c', m⟩ | ⟨child, rfl, rfl⟩
  · exact h.call _ rfl
  · exact h.move hapart m
  · exact h.complete child hapart

theorem run (h : Run Step {} τ s) (hapart : ∀ x ∈ τ, Apart x.1 x.2) : Tied τ s := by
  induction h with
  | nil =>
    exact ⟨by simp, by simp, by simp, by simp, by simp, by simp⟩
  | @snoc τ s a s' _ hstep ih =>
    have htied := ih fun x hx => hapart x (by simp [hx])
    exact htied.step (hapart (s, a) (by simp)) hstep

/-- A step that meets the condition leaves alone the waits of calls for other addresses. -/
theorem leavesOthers (h : Tied τ s) (hapart : Apart s a) (hs : Step s a s') : LeavesOthers s a s' := by
  intro j round d hd hp
  have hmem := List.mem_of_getElem? hd
  rcases step_cases hs with ⟨address, shutdown, blocking, rfl, rfl⟩ | ⟨i, c, c', m⟩ | ⟨child, rfl, rfl⟩
  · exact ⟨fun ⟨id, hw, hne⟩ => absurd hw hne, fun hnot hin => absurd hin hnot⟩
  · refine ⟨?_, fun hnot hin => absurd (m.sent ▸ hin) hnot⟩
    rintro ⟨id, hw, hne⟩
    obtain ⟨d', hd', hid, -⟩ := h.keyed id j round hw
    obtain rfl : d = d' := Option.some.inj (hd.symm.trans hd')
    have hact : (a = .register i ∨ a = .clear i) ∧ id = c.address.actorId := by
      rcases m.waits with he | ⟨ha, he⟩ | ⟨ha, he⟩
      · exact absurd hw (he ▸ hne)
      · refine ⟨Or.inl ha, by_contra fun hid' => hne ?_⟩
        rw [he, Table.insert_ne _ _ hid', hw]
      · refine ⟨Or.inr ha, by_contra fun hid' => hne ?_⟩
        rw [he, Table.remove_ne _ hid', hw]
    have haddr := m.alone h hapart d hmem hp (hid.trans hact.2)
    exact Or.inr ⟨i, c, m.here, hact.1, haddr.symm⟩
  · have hown : ∀ id round', s.waits id = some (j, round') → id = child.actorId → d.address = child := by
      intro id round' hw hid
      obtain ⟨d', hd', hkey, -⟩ := h.keyed id j round' hw
      obtain rfl : d = d' := Option.some.inj (hd.symm.trans hd')
      exact hapart d hmem hp (hkey.trans hid)
    unfold State.complete
    split
    case h_1 => exact ⟨fun ⟨id, hw, hne⟩ => absurd hw hne, fun hnot hin => absurd hin hnot⟩
    case h_2 channel hch =>
      constructor
      · rintro ⟨id, hw, hne⟩
        have hid : id = child.actorId := by
          by_contra hne'
          exact hne ((Table.remove_ne s.waits hne').trans hw)
        rw [hown id round hw hid]
        exact Or.inl rfl
      · intro hnot hin
        rcases List.mem_append.mp hin with hin | hin
        · exact absurd hin hnot
        · obtain rfl : (j, round) = channel := by simpa using hin
          rw [hown _ round hch rfl]

end Tied

/-- **Remote shutdown waits are tied to the right child** in every run in which a call registers, and a `ChildExit`
arrives, only while every call in progress under the same actor id is for the same address: a call has returned `Ok` only
if the `ChildExit` of its full address arrived after it registered, and no step discards or completes the wait of a call
for another address. -/
theorem shutdown_waits_apart {τ : List (State × Act)} {s : State} (h : Run Step {} τ s)
    (hapart : ∀ x ∈ τ, Apart x.1 x.2) :
    (∀ (i : Nat) c, s.calls[i]? = some c → c.pc = .returned (.ok ()) → ExitedSince τ i c.address) ∧
      ∀ x ∈ τ, ∀ s', Step x.1 x.2 s' → LeavesOthers x.1 x.2 s' := by
  constructor
  · intro i c hc hpc
    exact (Tied.run h hapart).ok i c hc (by simp [hpc, ShutdownPc.isOk])
  · intro x hx s' hs
    obtain ⟨τ₁, τ₂, u, rfl, hrun, -⟩ := h.mem_split hx
    have htied := Tied.run hrun fun y hy => hapart y (by simp [hy])
    exact htied.leavesOthers (hapart x hx) hs

/-- One call, alone, that is told of its child and returns. -/
theorem shutdown_waits_apart_of_one :
    ∃ (τ : List (State × Act)) (s : State) (c : Call), Run Step {} τ s ∧ s.calls[0]? = some c ∧
      c.pc = .returned (.ok ()) ∧ ExitedSince τ 0 c.address := by
  have hrun := run_tryPlay shutdownNext {} [.call ⟨"b", 5⟩ .infinity true, .register 0, .signal 0 (.ok ()),
    .childExit ⟨"b", 5⟩, .waited 0 (.ok ()), .clear 0] (by decide)
  refine ⟨_, _, _, hrun, rfl, by decide, (shutdown_waits_apart hrun ?_).1 0 _ rfl (by decide)⟩
  decide

/-- Two placements have handed out the same actor id. The call for the child on `b` returns `Ok` on the exit of the child
on `c`, and the child on `b` has not exited. -/
theorem shutdown_wait_completed_by_other :
    ∃ (τ : List (State × Act)) (s : State) (c : Call), Run Step {} τ s ∧ s.calls[0]? = some c ∧
      c.pc = .returned (.ok ()) ∧ c.address = ⟨"b", 5⟩ ∧ ¬ExitedSince τ 0 c.address := by
  have hrun := run_tryPlay shutdownNext {} [.call ⟨"b", 5⟩ .infinity true, .register 0, .signal 0 (.ok ()),
    .childExit ⟨"c", 5⟩, .waited 0 (.ok ()), .clear 0] (by decide)
  refine ⟨_, _, _, hrun, rfl, by decide, by decide, ?_⟩
  rintro ⟨τ₁, s, τ₂, hτ, y, hy, hexit⟩
  have hall : ∀ y ∈ (Lib.tryPlay shutdownNext {} [.call ⟨"b", 5⟩ .infinity true, .register 0, .signal 0 (.ok ()),
      .childExit ⟨"c", 5⟩, .waited 0 (.ok ()), .clear 0] |>.get (by decide)).1, y.2 ≠ .childExit ⟨"b", 5⟩ := by decide
  exact hall y (by rw [hτ]; simp [hy]) hexit

end ShutdownWait

end Spawned
