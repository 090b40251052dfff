import Mathlib.Data.Finset.Basic
import Mathlib.Logic.Function.Basic
import Mathlib.Tactic.SplitIfs
import Spawned.Exit
import Spawned.Lib.Run
import Spawned.Lib.Waits

/-!
# The locks of the control plane

The named store and the pg store each have a lock, and the pooled connections of `TcpTransport` have one. Registering and
joining publish while they hold the lock of their store; publishing takes the lock of the connections, and holds it while
a first connection to a peer is opened, which reads both stores and writes what the peer has into them.

* `Call.code` : the functions as the locks they take and what they do under them;
* `Step` : any number of threads, each running any functions one after the other;
* `Apart` : no connection is opened while someone holds the lock of a store that it will publish under, and no such lock
  is taken while an exchange with a peer still has to come to that store;
* `no_deadlock` : then no thread asks for a lock it holds, and no two threads wait for each other.
-/

namespace Spawned.ControlPlane

open Lib

inductive Store
  | named
  | pg
deriving DecidableEq, Repr

inductive Lock
  | store (store : Store)
  | connections
deriving DecidableEq, Repr

inductive Mode
  | read
  | write
deriving DecidableEq, Repr

/-- What a thread still has to do. -/
inductive Instr
  | lock (store : Store) (mode : Mode)
  | unlock (lock : Lock)
  /-- an event to the peers, one after the other -/
  | broadcast (peers : List NodeId)
  /-- over the connection to the peer, under the lock of the connections -/
  | send (peer : NodeId)
  /-- the rest of `connect`: the stores still to be locked, in turn -/
  | exchange (sections : List (Store × Mode)) (peer : NodeId)
deriving DecidableEq, Repr

/-- Publish some events under the lock of a store. -/
def locked (peers : List NodeId) (store : Store) (events : Nat) : List Instr :=
  .lock store .write :: (List.replicate events (.broadcast peers) ++ [.unlock (.store store)])

inductive Call
  /-- whether the name was free -/
  | registerNamed (vacant : Bool)
  /-- whether the name was there -/
  | unregisterNamed (registered : Bool)
  /-- how many names the actor had -/
  | removeByActorId (names : Nat)
  | joinScoped
  /-- whether the count went to zero -/
  | leaveScoped (last : Bool)
  /-- `pg::remove_actor`: how many groups and names the actor had -/
  | removeActor (groups names : Nat)
  /-- a lookup, a query of the groups, the snapshot for a peer that dialled, one entry or event of a peer -/
  | access (store : Store) (mode : Mode)
  /-- `sync_peers`, or a message to one node -/
  | transport (peers : List NodeId)
deriving DecidableEq, Repr

/-- `peers` are those of the transport. -/
def Call.code (peers : List NodeId) : Call → List Instr
  | .registerNamed vacant => locked peers .named vacant.toNat
  | .unregisterNamed registered => locked peers .named registered.toNat
  | .removeByActorId names => locked peers .named names
  | .joinScoped => locked peers .pg 1
  | .leaveScoped last => locked peers .pg last.toNat
  | .removeActor groups names =>
    [.lock .pg .read, .unlock (.store .pg)] ++ [.lock .pg .write, .unlock (.store .pg)] ++
      List.replicate groups (.broadcast peers) ++ locked peers .named names
  | .access store mode => [.lock store mode, .unlock (.store store)]
  | .transport peers => [.broadcast peers]

/-- `send_control_plane_snapshots` and `apply_control_plane_snapshots`, for so many entries of the peer. -/
def sections (entries members : Nat) : List (Store × Mode) :=
  [(.named, .read), (.pg, .read)] ++ List.replicate entries (.named, .write) ++ List.replicate members (.pg, .write)

structure Thread where
  code : List Instr := []
  held : List (Lock × Mode) := []

/-- The lock the thread asks for next. -/
def Thread.request (thread : Thread) : Option Lock :=
  match thread.code with
  | .lock store _ :: _ => some (.store store)
  | .broadcast (_ :: _) :: _ => some .connections
  | .exchange ((store, _) :: _) _ :: _ => some (.store store)
  | _ => none

def Thread.Holds (thread : Thread) (l : Lock) : Prop := l ∈ thread.held.map (·.1)

instance (thread : Thread) (l : Lock) : Decidable (thread.Holds l) := inferInstanceAs (Decidable (l ∈ _))

structure State where
  threads : Nat → Thread := fun _ => {}
  connected : Finset NodeId := ∅

def State.set (s : State) (t : Nat) (thread : Thread) : State := { s with threads := Function.update s.threads t thread }

/-- The lock may be granted. -/
def State.Free (s : State) (l : Lock) (mode : Mode) : Prop :=
  ∀ t mode', (l, mode') ∈ (s.threads t).held → mode = .read ∧ mode' = .read

inductive Act
  | call (call : Call)
  | lock
  | unlock
  | published
  | connections
  | sent
  | sendFailed
  | dialFailed
  /-- the handshake is done; the peer has so many entries and members -/
  | dialled (entries members : Nat)
  | access
  | exchangeFailed
  | exchanged
deriving DecidableEq, Repr

/-- A step of one thread. -/
inductive Step (peers : List NodeId) (s : State) : Nat × Act → State → Prop
  | call {t : Nat} (call : Call) (hcode : (s.threads t).code = []) :
      Step peers s (t, .call call) (s.set t { s.threads t with code := call.code peers })
  | lock {t : Nat} {store : Store} {mode : Mode} {rest : List Instr} (hcode : (s.threads t).code = .lock store mode :: rest)
      (hfree : s.Free (.store store) mode) :
      Step peers s (t, .lock) (s.set t ⟨rest, (.store store, mode) :: (s.threads t).held⟩)
  | unlock {t : Nat} {l : Lock} {rest : List Instr} (hcode : (s.threads t).code = .unlock l :: rest) :
      Step peers s (t, .unlock) (s.set t ⟨rest, (s.threads t).held.filter (·.1 ≠ l)⟩)
  | published {t : Nat} {rest : List Instr} (hcode : (s.threads t).code = .broadcast [] :: rest) :
      Step peers s (t, .published) (s.set t { s.threads t with code := rest })
  | connections {t : Nat} {peer : NodeId} {left : List NodeId} {rest : List Instr}
      (hcode : (s.threads t).code = .broadcast (peer :: left) :: rest) (hfree : s.Free .connections .write) :
      Step peers s (t, .connections) (s.set t
        ⟨.send peer :: .unlock .connections :: .broadcast left :: rest, (.connections, .write) :: (s.threads t).held⟩)
  | sent {t : Nat} {peer : NodeId} {rest : List Instr} (hcode : (s.threads t).code = .send peer :: rest)
      (hconnected : peer ∈ s.connected) : Step peers s (t, .sent) (s.set t { s.threads t with code := rest })
  /-- the connection goes, and the peers left get nothing -/
  | sendFailed {t : Nat} {peer : NodeId} {left : List NodeId} {rest : List Instr}
      (hcode : (s.threads t).code = .send peer :: .unlock .connections :: .broadcast left :: rest)
      (hconnected : peer ∈ s.connected) :
      Step peers s (t, .sendFailed)
        { s.set t { s.threads t with code := .unlock .connections :: rest } with connected := s.connected.erase peer }
  | dialFailed {t : Nat} {peer : NodeId} {left : List NodeId} {rest : List Instr}
      (hcode : (s.threads t).code = .send peer :: .unlock .connections :: .broadcast left :: rest)
      (hconnected : peer ∉ s.connected) :
      Step peers s (t, .dialFailed) (s.set t { s.threads t with code := .unlock .connections :: rest })
  | dialled {t : Nat} {peer : NodeId} {rest : List Instr} (entries members : Nat)
      (hcode : (s.threads t).code = .send peer :: rest) (hconnected : peer ∉ s.connected) :
      Step peers s (t, .dialled entries members) (s.set t
        { s.threads t with code := .exchange (sections entries members) peer :: .send peer :: rest })
  | access {t : Nat} {peer : NodeId} {store : Store} {mode : Mode} {left : List (Store × Mode)} {rest : List Instr}
      (hcode : (s.threads t).code = .exchange ((store, mode) :: left) peer :: rest) (hfree : s.Free (.store store) mode) :
      Step peers s (t, .access) (s.set t
        ⟨.unlock (.store store) :: .exchange left peer :: rest, (.store store, mode) :: (s.threads t).held⟩)
  | exchangeFailed {t : Nat} {peer : NodeId} {sections : List (Store × Mode)} {left : List NodeId} {rest : List Instr}
      (hcode : (s.threads t).code =
        .exchange sections peer :: .send peer :: .unlock .connections :: .broadcast left :: rest) :
      Step peers s (t, .exchangeFailed) (s.set t { s.threads t with code := .unlock .connections :: rest })
  | exchanged {t : Nat} {peer : NodeId} {rest : List Instr} (hcode : (s.threads t).code = .exchange [] peer :: rest) :
      Step peers s (t, .exchanged)
        { s.set t { s.threads t with code := rest } with connected := insert peer s.connected }

/-- Something is sent to a peer before the lock of the store is released. -/
def publishes (store : Store) : List Instr → Bool
  | [] => false
  | .broadcast (_ :: _) :: _ => true
  | .send _ :: _ => true
  | .unlock (.store other) :: rest => other ≠ store && publishes store rest
  | _ :: rest => publishes store rest

/-- The thread holds the lock of the store, and will publish before it releases it. -/
def Thread.Publishing (thread : Thread) (store : Store) : Prop :=
  thread.Holds (.store store) ∧ publishes store thread.code

/-- The store is still to be locked for an exchange with a peer. -/
def exchanges (store : Store) : List Instr → Bool
  | [] => false
  | .exchange sections _ :: rest => store ∈ sections.map (·.1) || exchanges store rest
  | _ :: rest => exchanges store rest

/-- The thread exchanges snapshots with a peer, and has still to lock the store for it. -/
def Thread.Exchanging (thread : Thread) (store : Store) : Prop := exchanges store thread.code

/-- No exchange begins while someone publishes under the lock of a store, and no one begins to publish under the lock of
a store that an exchange has still to come to. -/
def Apart (s : State) : Nat × Act → Prop
  | (_, .dialled _ _) => ∀ u store, ¬(s.threads u).Publishing store
  | (t, .lock) => ∀ store mode rest, (s.threads t).code = .lock store mode :: rest → publishes store rest →
      ∀ u, ¬(s.threads u).Exchanging store
  | _ => True

/-! ## Where a thread can be -/

/-- What a thread has to do when it holds no lock. -/
inductive Outside : List Instr → Prop
  | nil : Outside []
  | broadcast (peers : List NodeId) {rest : List Instr} : Outside rest → Outside (.broadcast peers :: rest)
  | locked (store : Store) (mode : Mode) (events : List (List NodeId)) {rest : List Instr} :
      Outside rest → Outside (.lock store mode :: (events.map .broadcast ++ .unlock (.store store) :: rest))

/-- What a thread has to do when it holds the lock of a store, if any, and is not busy with a connection. -/
def Within : Option Store → List Instr → Prop
  | none, code => Outside code
  | some store, code =>
    ∃ (events : List (List NodeId)) (rest : List Instr),
      code = events.map .broadcast ++ .unlock (.store store) :: rest ∧ Outside rest

/-- The locks of a thread, and what it has to do. An exchange happens outside of the stores. -/
inductive Shape : List Lock → List Instr → Prop
  | idle {store : Option Store} {code : List Instr} (hcode : Within store code) :
      Shape (store.toList.map .store) code
  | sending {store : Option Store} {peer : NodeId} {left : List NodeId} {rest : List Instr} (hrest : Within store rest) :
      Shape (.connections :: store.toList.map .store)
        (.send peer :: .unlock .connections :: .broadcast left :: rest)
  | releasing {store : Option Store} {rest : List Instr} (hrest : Within store rest) :
      Shape (.connections :: store.toList.map .store) (.unlock .connections :: rest)
  | exchanging {sections : List (Store × Mode)} {peer : NodeId} {left : List NodeId} {rest : List Instr}
      (hrest : Outside rest) :
      Shape [.connections]
        (.exchange sections peer :: .send peer :: .unlock .connections :: .broadcast left :: rest)
  | accessing {store : Store} {sections : List (Store × Mode)} {peer : NodeId} {left : List NodeId} {rest : List Instr}
      (hrest : Outside rest) :
      Shape [.store store, .connections]
        (.unlock (.store store) :: .exchange sections peer :: .send peer :: .unlock .connections :: .broadcast left ::
          rest)

theorem Outside.replicate (peers : List NodeId) (n : Nat) {rest : List Instr} (h : Outside rest) :
    Outside (List.replicate n (.broadcast peers) ++ rest) := by
  induction n with
  | zero => exact h
  | succ n ih => exact .broadcast peers ih

theorem outside_locked (peers : List NodeId) (store : Store) (events : Nat) : Outside (locked peers store events) := by
  have h := Outside.locked store .write (List.replicate events peers) .nil
  rw [List.map_replicate] at h
  exact h

/-- Every function begins without locks. -/
theorem Call.outside_code (peers : List NodeId) (call : Call) : Outside (call.code peers) := by
  cases call with
  | registerNamed vacant => exact outside_locked ..
  | unregisterNamed registered => exact outside_locked ..
  | removeByActorId names => exact outside_locked ..
  | joinScoped => exact outside_locked ..
  | leaveScoped last => exact outside_locked ..
  | removeActor groups names =>
    have hnames := Outside.replicate peers groups (outside_locked peers .named names)
    have hread := Outside.locked .pg .read [] (Outside.locked .pg .write [] hnames)
    simpa [Call.code] using hread
  | access store mode => exact .locked store mode [] .nil
  | transport peers => exact .broadcast peers .nil

/-! ### By what comes next -/

namespace Within

variable {store : Option Store} {rest : List Instr}

theorem broadcast_iff {peers : List NodeId} : Within store (.broadcast peers :: rest) ↔ Within store rest := by
  cases store with
  | none =>
    constructor
    · rintro (_ | ⟨-, h⟩)
      exact h
    · exact .broadcast peers
  | some store =>
    constructor
    · rintro ⟨events, rest', heq, h⟩
      cases events with
      | nil => simp at heq
      | cons event events => exact ⟨events, rest', by simpa using (List.cons.inj heq).2, h⟩
    · rintro ⟨events, rest', rfl, h⟩
      exact ⟨peers :: events, rest', rfl, h⟩

theorem lock_inv {s : Store} {mode : Mode} (h : Within store (.lock s mode :: rest)) :
    store = none ∧ Within (some s) rest := by
  cases store with
  | none =>
    rcases h with _ | _ | ⟨_, _, events, hrest⟩
    exact ⟨rfl, events, _, rfl, hrest⟩
  | some store =>
    obtain ⟨events, rest', heq, -⟩ := h
    cases events <;> simp at heq

theorem unlock_inv {l : Lock} (h : Within store (.unlock l :: rest)) :
    ∃ s, store = some s ∧ l = .store s ∧ Outside rest := by
  cases store with
  | none => cases h
  | some store =>
    obtain ⟨events, rest', heq, hrest⟩ := h
    cases events with
    | nil =>
      obtain ⟨⟨rfl⟩, rfl⟩ := by simpa using heq
      exact ⟨store, rfl, rfl, hrest⟩
    | cons event events => simp at heq

theorem not_send {peer : NodeId} : ¬Within store (.send peer :: rest) := by
  cases store with
  | none => rintro ⟨⟩
  | some store =>
    rintro ⟨events, rest', heq, -⟩
    cases events <;> simp at heq

theorem not_exchange {sections : List (Store × Mode)} {peer : NodeId} :
    ¬Within store (.exchange sections peer :: rest) := by
  cases store with
  | none => rintro ⟨⟩
  | some store =>
    rintro ⟨events, rest', heq, -⟩
    cases events <;> simp at heq

end Within

namespace Shape

variable {locks : List Lock} {rest : List Instr}

theorem locks_nil (h : Shape locks []) : locks = [] := by
  cases h with
  | @idle store _ hcode =>
    cases store with
    | none => rfl
    | some store =>
      obtain ⟨events, rest, heq, -⟩ := hcode
      simp at heq

theorem lock {store : Store} {mode : Mode} (h : Shape locks (.lock store mode :: rest)) :
    Shape (.store store :: locks) rest := by
  cases h with
  | idle hcode =>
    obtain ⟨rfl, hrest⟩ := hcode.lock_inv
    exact @idle (some store) _ hrest

theorem unlock {l : Lock} (h : Shape locks (.unlock l :: rest)) : Shape (locks.filter (· ≠ l)) rest := by
  cases h with
  | idle hcode =>
    obtain ⟨store, rfl, rfl, hrest⟩ := hcode.unlock_inv
    simpa using @idle none _ hrest
  | @releasing store _ hrest =>
    have hlocks : (Lock.connections :: store.toList.map Lock.store).filter (· ≠ .connections) =
        store.toList.map Lock.store := by
      cases store <;> rfl
    rw [hlocks]
    exact idle hrest
  | accessing hrest => simpa using exchanging hrest

theorem published {peers : List NodeId} (h : Shape locks (.broadcast peers :: rest)) : Shape locks rest := by
  cases h with
  | idle hcode => exact idle (Within.broadcast_iff.mp hcode)

theorem connections {peers : List NodeId} (h : Shape locks (.broadcast peers :: rest)) (peer : NodeId)
    (left : List NodeId) :
    Shape (.connections :: locks) (.send peer :: .unlock .connections :: .broadcast left :: rest) := by
  cases h with
  | idle hcode => exact sending (Within.broadcast_iff.mp hcode)

theorem sent {peer : NodeId} (h : Shape locks (.send peer :: rest)) : Shape locks rest := by
  cases h with
  | idle hcode => exact absurd hcode Within.not_send
  | sending hrest => exact releasing (Within.broadcast_iff.mpr hrest)

theorem failed {peer : NodeId} {left : List NodeId}
    (h : Shape locks (.send peer :: .unlock .connections :: .broadcast left :: rest)) :
    Shape locks (.unlock .connections :: rest) := by
  cases h with
  | idle hcode => exact absurd hcode Within.not_send
  | sending hrest => exact releasing hrest

/-- A connection is opened by a thread that publishes under no lock. -/
theorem dialled {peer : NodeId} (h : Shape locks (.send peer :: rest))
    (hapart : ∀ store, .store store ∈ locks → ¬publishes store (.send peer :: rest)) (sections : List (Store × Mode)) :
    Shape locks (.exchange sections peer :: .send peer :: rest) := by
  cases h with
  | idle hcode => exact absurd hcode Within.not_send
  | @sending store _ left rest hrest =>
    cases store with
    | none => exact exchanging hrest
    | some store => exact absurd rfl (hapart store (by simp))

theorem access {store : Store} {mode : Mode} {left : List (Store × Mode)} {peer : NodeId}
    (h : Shape locks (.exchange ((store, mode) :: left) peer :: rest)) :
    Shape (.store store :: locks) (.unlock (.store store) :: .exchange left peer :: rest) := by
  cases h with
  | idle hcode => exact absurd hcode Within.not_exchange
  | exchanging hrest => exact accessing hrest

theorem exchanged {sections : List (Store × Mode)} {peer : NodeId}
    (h : Shape locks (.exchange sections peer :: rest)) : Shape locks rest := by
  cases h with
  | idle hcode => exact absurd hcode Within.not_exchange
  | exchanging hrest => exact @sending none _ _ _ hrest

/-- Every step of a thread leads to such a place again. -/
theorem step {peers : List NodeId} {s s' : State} {t : Nat} {act : Act}
    (h : Shape ((s.threads t).held.map (·.1)) (s.threads t).code) (hapart : Apart s (t, act))
    (hs : Step peers s (t, act) s') : Shape ((s'.threads t).held.map (·.1)) (s'.threads t).code := by
  cases hs with
  | call call hcode =>
    rw [hcode] at h
    simpa [State.set, h.locks_nil] using @idle none _ (call.outside_code peers)
  | lock hcode hfree =>
    rw [hcode] at h
    simpa [State.set] using h.lock
  | unlock hcode =>
    rw [hcode] at h
    simpa [State.set, List.filter_map, Function.comp_def] using h.unlock
  | published hcode =>
    rw [hcode] at h
    simpa [State.set] using h.published
  | connections hcode hfree =>
    rw [hcode] at h
    simpa [State.set] using h.connections _ _
  | sent hcode hconnected =>
    rw [hcode] at h
    simpa [State.set] using h.sent
  | sendFailed hcode hconnected =>
    rw [hcode] at h
    simpa [State.set] using h.failed
  | dialFailed hcode hconnected =>
    rw [hcode] at h
    simpa [State.set] using h.failed
  | dialled entries members hcode hconnected =>
    rw [hcode] at h
    have hnone : ∀ store, .store store ∈ (s.threads t).held.map (·.1) → ¬publishes store (.send _ :: _) :=
      fun store hheld hpublishes => hapart t store ⟨hheld, by rw [hcode]; exact hpublishes⟩
    simpa [State.set] using h.dialled hnone _
  | access hcode hfree =>
    rw [hcode] at h
    simpa [State.set] using h.access
  | exchangeFailed hcode =>
    rw [hcode] at h
    simpa [State.set] using h.exchanged.failed
  | exchanged hcode =>
    rw [hcode] at h
    simpa [State.set] using h.exchanged

end Shape

/-! ## Exchanges and publishing stay apart -/

@[simp] theorem publishes_broadcast_nil (store : Store) (rest : List Instr) :
    publishes store (.broadcast [] :: rest) = publishes store rest := rfl

@[simp] theorem publishes_broadcast_cons (store : Store) (peer : NodeId) (peers : List NodeId) (rest : List Instr) :
    publishes store (.broadcast (peer :: peers) :: rest) = true := rfl

@[simp] theorem publishes_lock (store other : Store) (mode : Mode) (rest : List Instr) :
    publishes store (.lock other mode :: rest) = publishes store rest := rfl

@[simp] theorem publishes_send (store : Store) (peer : NodeId) (rest : List Instr) :
    publishes store (.send peer :: rest) = true := rfl

@[simp] theorem publishes_exchange (store : Store) (sections : List (Store × Mode)) (peer : NodeId)
    (rest : List Instr) : publishes store (.exchange sections peer :: rest) = publishes store rest := rfl

@[simp] theorem publishes_unlock_connections (store : Store) (rest : List Instr) :
    publishes store (.unlock .connections :: rest) = publishes store rest := rfl

@[simp] theorem publishes_unlock_store (store other : Store) (rest : List Instr) :
    publishes store (.unlock (.store other) :: rest) = (decide (other ≠ store) && publishes store rest) := rfl

@[simp] theorem exchanges_exchange (store : Store) (sections : List (Store × Mode)) (peer : NodeId)
    (rest : List Instr) :
    exchanges store (.exchange sections peer :: rest) = (store ∈ sections.map (·.1) || exchanges store rest) := rfl

@[simp] theorem exchanges_lock (store other : Store) (mode : Mode) (rest : List Instr) :
    exchanges store (.lock other mode :: rest) = exchanges store rest := rfl

@[simp] theorem exchanges_unlock (store : Store) (l : Lock) (rest : List Instr) :
    exchanges store (.unlock l :: rest) = exchanges store rest := rfl

@[simp] theorem exchanges_broadcast (store : Store) (peers : List NodeId) (rest : List Instr) :
    exchanges store (.broadcast peers :: rest) = exchanges store rest := rfl

@[simp] theorem exchanges_send (store : Store) (peer : NodeId) (rest : List Instr) :
    exchanges store (.send peer :: rest) = exchanges store rest := rfl

theorem Outside.exchanges_eq {code : List Instr} (h : Outside code) (store : Store) : exchanges store code = false := by
  induction h with
  | nil => rfl
  | broadcast peers _ ih => simpa using ih
  | locked other mode events _ ih =>
    rw [exchanges_lock]
    induction events with
    | nil => simpa using ih
    | cons event events ihe => simpa using ihe

section

variable {peers : List NodeId} {s s' : State} {t : Nat} {act : Act}

theorem Step.threads_of_ne (hs : Step peers s (t, act) s') {u : Nat} (h : u ≠ t) : s'.threads u = s.threads u := by
  cases hs <;> simp [State.set, Function.update_of_ne h]

/-- An exchange begins when a peer is dialled. -/
theorem Step.exchanging (hs : Step peers s (t, act) s') {store : Store} (h : (s'.threads t).Exchanging store) :
    (s.threads t).Exchanging store ∨ ∃ entries members, act = .dialled entries members := by
  unfold Thread.Exchanging at h ⊢
  cases hs with
  | call call hcode => simp [State.set, (call.outside_code peers).exchanges_eq] at h
  | dialled entries members hcode hconnected => exact Or.inr ⟨entries, members, rfl⟩
  | access hcode hfree =>
    left
    simp only [State.set, Function.update_self, exchanges_unlock, exchanges_exchange] at h
    rw [hcode, exchanges_exchange]
    simp only [List.map_cons, List.mem_cons, Bool.or_eq_true, decide_eq_true_eq] at h ⊢
    tauto
  | _ =>
    left
    simp_all [State.set]

/-- A thread begins to publish under the lock of a store when it takes the lock. -/
theorem Step.publishing (hs : Step peers s (t, act) s')
    (hshape : Shape ((s.threads t).held.map (·.1)) (s.threads t).code) {store : Store}
    (h : (s'.threads t).Publishing store) :
    (s.threads t).Publishing store ∨
      (act = .lock ∧ ∃ mode rest, (s.threads t).code = .lock store mode :: rest ∧ publishes store rest) := by
  obtain ⟨hholds, hpublishes⟩ := h
  unfold Thread.Publishing
  unfold Thread.Holds at hholds ⊢
  cases hs with
  | call call hcode =>
    rw [hcode] at hshape
    simp [State.set, hshape.locks_nil] at hholds
  | lock hcode hfree =>
    simp only [State.set, Function.update_self, List.map_cons, List.mem_cons, Lock.store.injEq] at hholds hpublishes
    rcases hholds with rfl | hholds
    · exact Or.inr ⟨rfl, _, _, hcode, hpublishes⟩
    · exact Or.inl ⟨hholds, by rw [hcode]; exact hpublishes⟩
  | @unlock t l rest hcode =>
    left
    simp only [State.set, Function.update_self, List.mem_map, List.mem_filter] at hholds hpublishes
    obtain ⟨x, ⟨hmem, hne⟩, hx⟩ := hholds
    refine ⟨List.mem_map.mpr ⟨x, hmem, hx⟩, ?_⟩
    rw [hcode]
    cases l with
    | connections => exact hpublishes
    | store other =>
      have hother : other ≠ store := by
        rintro rfl
        simp [hx] at hne
      simp [hother, hpublishes]
  | @access t peer other mode left rest hcode hfree =>
    left
    simp only [State.set, Function.update_self, List.map_cons, List.mem_cons, Lock.store.injEq, publishes_unlock_store,
      publishes_exchange, Bool.and_eq_true, decide_eq_true_eq] at hholds hpublishes
    refine ⟨hholds.resolve_left fun he => hpublishes.1 he.symm, ?_⟩
    rw [hcode]
    exact hpublishes.2
  | _ =>
    left
    simp_all [State.set]

end

/-- Who asks for a lock while it holds another publishes under the lock of a store, or exchanges snapshots. -/
theorem Shape.asks {thread : Thread} (h : Shape (thread.held.map (·.1)) thread.code) {l l' : Lock}
    (hrequest : thread.request = some l) (hholds : thread.Holds l') :
    (∃ store, l' = .store store ∧ l = .connections ∧ thread.Publishing store) ∨
      (∃ store, l' = .connections ∧ l = .store store ∧ thread.Exchanging store) := by
  unfold Thread.Publishing Thread.Exchanging Thread.Holds at *
  unfold Thread.request at hrequest
  generalize thread.held.map (·.1) = locks at h hholds ⊢
  generalize thread.code = code at h hrequest ⊢
  cases h with
  | @idle store _ hcode =>
    cases store with
    | none => simp at hholds
    | some store =>
      left
      obtain rfl : l' = .store store := by simpa using hholds
      obtain ⟨events, rest, rfl, -⟩ := hcode
      cases events with
      | nil => simp at hrequest
      | cons event events =>
        cases event with
        | nil => simp at hrequest
        | cons peer left =>
          obtain rfl : l = .connections := by simpa using hrequest.symm
          exact ⟨store, rfl, rfl, by simp, rfl⟩
  | sending hrest => simp at hrequest
  | releasing hrest => simp at hrequest
  | @exchanging sections peer left rest hrest =>
    right
    obtain rfl : l' = .connections := by simpa using hholds
    cases sections with
    | nil => simp at hrequest
    | cons first sections =>
      obtain rfl : l = .store first.1 := by simpa using hrequest.symm
      exact ⟨first.1, rfl, rfl, by simp⟩
  | accessing hrest => simp at hrequest

/-- The threads are where they can be, and no exchange is still to come to a store that someone publishes under. -/
structure Ordered (s : State) : Prop where
  shape : ∀ t, Shape ((s.threads t).held.map (·.1)) (s.threads t).code
  apart : ∀ t u store, (s.threads t).Exchanging store → ¬(s.threads u).Publishing store

namespace Ordered

variable {peers : List NodeId} {s s' : State}

theorem init : Ordered {} := ⟨fun _ => @Shape.idle none _ .nil, fun _ _ _ h => by cases h⟩

theorem step (h : Ordered s) {a : Nat × Act} (hapart : Apart s a) (hs : Step peers s a s') : Ordered s' := by
  obtain ⟨t, act⟩ := a
  have hexchanging : ∀ u store, (s'.threads u).Exchanging store →
      (s.threads u).Exchanging store ∨ ∃ entries members, act = .dialled entries members := by
    intro u store hu
    by_cases hut : u = t
    · subst hut
      exact hs.exchanging hu
    · rw [hs.threads_of_ne hut] at hu
      exact Or.inl hu
  have hpublishing : ∀ u store, (s'.threads u).Publishing store → (s.threads u).Publishing store ∨
      (act = .lock ∧ ∃ mode rest, (s.threads t).code = .lock store mode :: rest ∧ publishes store rest) := by
    intro u store hu
    by_cases hut : u = t
    · subst hut
      exact hs.publishing (h.shape u) hu
    · rw [hs.threads_of_ne hut] at hu
      exact Or.inl hu
  refine ⟨fun u => ?_, fun u v store hu hv => ?_⟩
  · by_cases hut : u = t
    · subst hut
      exact (h.shape u).step hapart hs
    · rw [hs.threads_of_ne hut]
      exact h.shape u
  · rcases hexchanging u store hu with hu | ⟨entries, members, rfl⟩
    · rcases hpublishing v store hv with hv | ⟨rfl, mode, rest, hcode, hpublishes⟩
      · exact h.apart u v store hu hv
      · exact hapart store mode rest hcode hpublishes u hu
    · rcases hpublishing v store hv with hv | ⟨hact, -⟩
      · exact hapart v store hv
      · cases hact

/-- The stores that an exchange has still to come to are above the connections, the others below. -/
noncomputable def rank (s : State) : Lock → Nat
  | .connections => 1
  | .store store => open Classical in if ∃ t, (s.threads t).Exchanging store then 2 else 0

theorem asksUpwards (h : Ordered s) :
    AsksUpwards (fun t => (s.threads t).request) (fun t => (s.threads t).Holds) (rank s) := by
  intro t l l' hrequest hholds
  rcases Shape.asks (h.shape t) hrequest hholds with ⟨store, rfl, rfl, hpublishing⟩ | ⟨store, rfl, rfl, hexchanging⟩
  · have hnone : ¬∃ u, (s.threads u).Exchanging store := fun ⟨u, hu⟩ => h.apart u t store hu hpublishing
    simp [rank, hnone]
  · have hsome : ∃ u, (s.threads u).Exchanging store := ⟨t, hexchanging⟩
    simp [rank, hsome]

end Ordered

/-- **No deadlock on the control plane.** For every run of any number of threads, whatever the peers have in their
snapshots and wherever sending or connecting fails: where no connection is opened while someone publishes under the lock
of a store, and no one begins to publish under the lock of a store that an open exchange has still to come to, no thread
asks for a lock it holds, and no two threads wait for each other's. -/
theorem no_deadlock {peers : List NodeId} {τ : List (State × (Nat × Act))} {s : State} (h : Run (Step peers) {} τ s)
    (hapart : ∀ x ∈ τ, Apart x.1 x.2) :
    (∀ t l, (s.threads t).request = some l → ¬(s.threads t).Holds l) ∧
      ∀ t u l l', (s.threads t).request = some l → (s.threads u).Holds l →
        (s.threads u).request = some l' → ¬(s.threads t).Holds l' := by
  have hordered := h.inv_of_steps Ordered.init (fun s a s' hi hP hs => hi.step hP hs) hapart
  have hup := hordered.asksUpwards
  refine ⟨fun t l hrequest hholds => ?_, fun t u l l' hrequest hholds hrequest' hholds' => ?_⟩
  · exact hup.acyclic t (.single ⟨l, hrequest, hholds⟩)
  · exact hup.acyclic t ((Relation.TransGen.single ⟨l, hrequest, hholds⟩).tail ⟨l', hrequest', hholds'⟩)

/-- A connection is being opened, and a registration has to wait for the named store. -/
theorem no_deadlock_of_two :
    ∃ (τ : List (State × (Nat × Act))) (s : State), Run (Step ["b"]) {} τ s ∧ (∀ x ∈ τ, Apart x.1 x.2) ∧
      (s.threads 1).request = some (.store .named) ∧ (s.threads 0).Holds (.store .named) ∧
      ∀ l, (s.threads 0).request = some l → ¬(s.threads 1).Holds l := by
  have h₁ := Run.nil.snoc (@Step.call ["b"] {} 0 (.transport ["b"]) rfl)
  have h₂ := h₁.snoc (@Step.connections _ _ 0 "b" [] [] rfl (by
    intro u mode hmem
    by_cases hu : u = 0 <;> simp [State.set, hu] at hmem))
  have h₃ := h₂.snoc (@Step.dialled _ _ 0 "b" _ 1 1 rfl (by decide))
  have h₄ := h₃.snoc (@Step.access _ _ 0 "b" .named .read _ _ rfl (by
    intro u mode hmem
    by_cases hu : u = 0 <;> simp [State.set, hu] at hmem))
  have h₅ := h₄.snoc (@Step.call _ _ 1 (.registerNamed true) rfl)
  suffices hapart : ∀ x : State × (Nat × Act), x ∈ _ → Apart x.1 x.2 by
    refine ⟨_, _, h₅, hapart, rfl, by decide, fun l hrequest hholds => ?_⟩
    exact (no_deadlock h₅ hapart).2 1 0 _ l rfl (by decide) hrequest hholds
  intro x hx
  simp only [List.nil_append, List.mem_append, List.mem_singleton] at hx
  rcases hx with (((rfl | rfl) | rfl) | rfl) | rfl
  · exact trivial
  · exact trivial
  · rintro u store ⟨hholds, -⟩
    by_cases hu : u = 0 <;> simp [Thread.Holds, State.set, hu] at hholds
  · exact trivial
  · exact trivial

/-- The first registration opens the connection to the peer, and asks for the store that it has locked. Or another thread
opens the connection at that time: it asks for the store, and the registration for the connections. -/
theorem registration_deadlocks :
    (∃ (τ : List (State × (Nat × Act))) (s : State), Run (Step ["b"]) {} τ s ∧
      (s.threads 0).request = some (.store .named) ∧ (s.threads 0).Holds (.store .named)) ∧
    ∃ (τ : List (State × (Nat × Act))) (s : State), Run (Step ["b"]) {} τ s ∧
      (s.threads 0).request = some .connections ∧ (s.threads 1).Holds .connections ∧
      (s.threads 1).request = some (.store .named) ∧ (s.threads 0).Holds (.store .named) := by
  have h₁ := Run.nil.snoc (@Step.call ["b"] {} 0 (.registerNamed true) rfl)
  have h₂ := h₁.snoc (@Step.lock _ _ 0 .named .write _ rfl (by
    intro u mode hmem
    by_cases hu : u = 0 <;> simp [State.set, hu] at hmem))
  constructor
  · have h₃ := h₂.snoc (@Step.connections _ _ 0 "b" [] _ rfl (by
      intro u mode hmem
      by_cases hu : u = 0 <;> simp [State.set, hu] at hmem))
    have h₄ := h₃.snoc (@Step.dialled _ _ 0 "b" _ 0 0 rfl (by decide))
    exact ⟨_, _, h₄, rfl, by decide⟩
  · have h₃ := h₂.snoc (@Step.call _ _ 1 (.transport ["b"]) rfl)
    have h₄ := h₃.snoc (@Step.connections _ _ 1 "b" [] _ rfl (by
      intro u mode hmem
      by_cases hu : u = 1
      · simp [State.set, hu] at hmem
      · by_cases hu' : u = 0 <;> simp [State.set, hu, hu'] at hmem))
    have h₅ := h₄.snoc (@Step.dialled _ _ 1 "b" _ 0 0 rfl (by decide))
    exact ⟨_, _, h₅, rfl, by decide, rfl, by decide⟩

end Spawned.ControlPlane
