import Mathlib.Tactic.Common
import Spawned.Lib.Calls
import Spawned.Lib.Run

/-!
# The cancellation token of the threads runtime

A token is a flag and a list of callbacks behind a mutex, shared by its clones. The run loop of an actor is stopped by the
callback that `ActorRef::spawn` registers, which sends the stop item.

* `TokenCall` : where a call of `cancel` or `on_cancel` stands. A callback is known by the call that registers it;
* `CancellationToken.next` : one atomic step of some call, or a new call; `unwind` : a callback panics;
* `CancellationToken.places` : in how many places a callback is; `Inv` : a callback that was given away is in exactly one,
  and after a drain none is waiting;
* `callbacks_fire_once` : callbacks run after the flag was set, and once; and all of them, unless one panics before the
  others that its `cancel` has taken.

A callback returns or panics, if only after a long time; it may make calls on the token itself.
-/

namespace Spawned

open Lib

/-- Where `cancel()` stands. -/
inductive CancelPc
  /-- `is_cancelled.store(true)` -/
  | store
  | lock
  /-- `drain(..)`, the mutex held -/
  | drain
  /-- the loop over the callbacks it has taken -/
  | fire (callbacks : List Nat)
  /-- in a callback -/
  | running (cb : Nat) (callbacks : List Nat)
  | returned
  /-- a callback has panicked -/
  | unwound
deriving DecidableEq

/-- Where `on_cancel(callback)` stands. -/
inductive OnCancelPc
  | lock
  /-- `is_cancelled()`, the mutex held -/
  | load
  /-- the flag was not set: `callbacks.push(callback)`, the mutex held -/
  | push
  /-- the flag was set: `drop(callbacks)` -/
  | unlock
  | fire
  | running
  | returned
  | unwound
deriving DecidableEq

def CancelPc.isOver : CancelPc → Bool
  | returned | unwound => true
  | _ => false

def OnCancelPc.isOver : OnCancelPc → Bool
  | returned | unwound => true
  | _ => false

inductive TokenCall
  | cancel (pc : CancelPc)
  | onCancel (pc : OnCancelPc)
deriving DecidableEq

namespace TokenCall

/-- The callbacks that a call of `cancel` has taken and not yet called. -/
@[simp] def taken : TokenCall → List Nat
  | cancel (.fire callbacks) | cancel (.running _ callbacks) => callbacks
  | _ => []

/-- A call of `on_cancel` that no longer has its callback. -/
@[simp] def given : TokenCall → Bool
  | onCancel .running | onCancel .returned | onCancel .unwound => true
  | _ => false

@[simp] def holdsLock : TokenCall → Bool
  | cancel .drain | onCancel .load | onCancel .push | onCancel .unlock => true
  | _ => false

/-- A call that has set the flag, or has read it as set and not returned yet. -/
@[simp] def pastFlag : TokenCall → Bool
  | cancel .store | onCancel .lock | onCancel .load | onCancel .push | onCancel .returned => false
  | _ => true

@[simp] def pastDrain : TokenCall → Bool
  | cancel (.fire _) | cancel (.running ..) | cancel .returned | cancel .unwound => true
  | _ => false

end TokenCall

/-- What the clones of a token share, and every call ever made on one of them. -/
structure CancellationToken where
  isCancelled : Bool := false
  /-- the call that holds the mutex -/
  holder : Option Nat := none
  callbacks : List Nat := []
  calls : List TokenCall := []
  /-- the callbacks that were called, in this order -/
  ran : List Nat := []
  /-- the callbacks that were dropped without a call -/
  dropped : List Nat := []

inductive TokenAct
  | cancel
  | onCancel
  /-- the next step of call `i` -/
  | step (i : Nat)
  /-- the callback that call `i` runs panics -/
  | panics (i : Nat)
deriving DecidableEq

namespace CancellationToken

/-- The next step of call `i`, which stands at `c`; `none` where it waits or has returned. -/
def callStep (s : CancellationToken) (i : Nat) : TokenCall → Option (CancellationToken × TokenCall)
  | .cancel .store => some ({ s with isCancelled := true }, .cancel .lock)
  | .cancel .lock => if s.holder = none then some ({ s with holder := some i }, .cancel .drain) else none
  | .cancel .drain => some ({ s with callbacks := [], holder := none }, .cancel (.fire s.callbacks))
  | .cancel (.fire []) => some (s, .cancel .returned)
  | .cancel (.fire (cb :: callbacks)) => some ({ s with ran := s.ran ++ [cb] }, .cancel (.running cb callbacks))
  | .cancel (.running _ callbacks) => some (s, .cancel (.fire callbacks))
  | .cancel .returned | .cancel .unwound => none
  | .onCancel .lock => if s.holder = none then some ({ s with holder := some i }, .onCancel .load) else none
  | .onCancel .load => if s.isCancelled then some (s, .onCancel .unlock) else some (s, .onCancel .push)
  | .onCancel .push => some ({ s with callbacks := s.callbacks ++ [i], holder := none }, .onCancel .returned)
  | .onCancel .unlock => some ({ s with holder := none }, .onCancel .fire)
  | .onCancel .fire => some ({ s with ran := s.ran ++ [i] }, .onCancel .running)
  | .onCancel .running => some (s, .onCancel .returned)
  | .onCancel .returned | .onCancel .unwound => none

/-- The panic of a callback unwinds the call at `c`. With the loop of `cancel` goes the iterator over the callbacks it has
taken. -/
def unwind (s : CancellationToken) : TokenCall → Option (CancellationToken × TokenCall)
  | .cancel (.running _ callbacks) => some ({ s with dropped := s.dropped ++ callbacks }, .cancel .unwound)
  | .onCancel .running => some (s, .onCancel .unwound)
  | _ => none

def next (s : CancellationToken) : TokenAct → Option CancellationToken
  | .cancel => some { s with calls := s.calls ++ [.cancel .store] }
  | .onCancel => some { s with calls := s.calls ++ [.onCancel .lock] }
  | .step i => s.calls[i]?.bind fun c => (s.callStep i c).map fun p => { p.1 with calls := s.calls.set i p.2 }
  | .panics i => s.calls[i]?.bind fun c => (s.unwind c).map fun p => { p.1 with calls := s.calls.set i p.2 }

def Step (s : CancellationToken) (a : TokenAct) (s' : CancellationToken) : Prop := s.next a = some s'

/-- In how many places a callback is: in the list of the token, with a call of `cancel`, among those that were called, or
dropped. -/
def places (s : CancellationToken) (cb : Nat) : Nat :=
  s.callbacks.count cb + (s.calls.map fun c => c.taken.count cb).sum + s.ran.count cb + s.dropped.count cb

/-- Call `i` is one of `on_cancel` that no longer has its callback. -/
def gave (s : CancellationToken) (i : Nat) : Bool := s.calls[i]?.any TokenCall.given

/-! ## The invariant -/

structure Inv (s : CancellationToken) : Prop where
  /-- a callback is with the call that registers it, or in exactly one place -/
  placed : ∀ i, s.places i = if s.gave i then 1 else 0
  locked : ∀ i c, s.calls[i]? = some c → c.holdsLock = true → s.holder = some i
  flagged : (∃ c ∈ s.calls, c.pastFlag = true) ∨ s.ran ≠ [] → s.isCancelled = true
  /-- who drains has set the flag before, and whoever saw it unset has pushed before -/
  drained : (∃ c ∈ s.calls, c.pastDrain = true) → s.callbacks = [] ∧ .onCancel .push ∉ s.calls
  unwound : s.dropped ≠ [] → .cancel .unwound ∈ s.calls

variable {s s' : CancellationToken} {i : Nat} {c : TokenCall}

theorem inv_init : Inv {} := by
  refine ⟨fun i => ?_, ?_, ?_, ?_, ?_⟩
  · simp [places, gave]
  · simp
  · simp
  · simp
  · simp

/-- A call that moves changes the places of a callback by what it takes, calls or pushes. -/
theorem places_set (hi : s.calls[i]? = some c) {c' : TokenCall} (hcalls : s'.calls = s.calls.set i c') (cb : Nat) :
    s'.places cb + (s.callbacks.count cb + c.taken.count cb + s.ran.count cb + s.dropped.count cb) =
      s.places cb + (s'.callbacks.count cb + c'.taken.count cb + s'.ran.count cb + s'.dropped.count cb) := by
  have hsum := sum_map_set (fun c : TokenCall => c.taken.count cb) hi c'
  unfold places
  rw [hcalls]
  omega

theorem gave_set (hi : s.calls[i]? = some c) {c' : TokenCall} (hcalls : s'.calls = s.calls.set i c') (j : Nat) :
    s'.gave j = if j = i then c'.given else s.gave j := by
  have hlt : i < s.calls.length := (List.getElem?_eq_some_iff.mp hi).1
  unfold gave
  rw [hcalls]
  split_ifs with hj
  · rw [hj, List.getElem?_set_self hlt]
    rfl
  · rw [List.getElem?_set_ne (Ne.symm hj)]

/-- Call `i` moves from `c` to `c'`. -/
theorem Inv.move (h : s.Inv) (hi : s.calls[i]? = some c) {c' : TokenCall} (hcalls : s'.calls = s.calls.set i c')
    (hplaces : ∀ cb, s'.callbacks.count cb + c'.taken.count cb + s'.ran.count cb + s'.dropped.count cb +
        (if cb = i ∧ c.given then 1 else 0) =
      s.callbacks.count cb + c.taken.count cb + s.ran.count cb + s.dropped.count cb +
        (if cb = i ∧ c'.given then 1 else 0))
    (hlock : c'.holdsLock = true → s'.holder = some i)
    (hlocks : s'.holder = s.holder ∨ s.holder = none ∨ c.holdsLock = true)
    (hflag : s'.isCancelled = true ∨ s'.isCancelled = s.isCancelled ∧ c'.pastFlag = false ∧ s'.ran = s.ran)
    (hdrain : (∃ c ∈ s.calls, c.pastDrain = true) ∨ c'.pastDrain = true → s'.callbacks = [] ∧ c' ≠ .onCancel .push)
    (hpush : c'.pastDrain = true → c.pastDrain = true ∨ c = .cancel .drain)
    (hdropped : s'.dropped = s.dropped ∧ c ≠ .cancel .unwound ∨ c' = .cancel .unwound) : s'.Inv := by
  have hback : ∀ {c₂}, c₂ ∈ s'.calls → c₂ = c' ∨ c₂ ∈ s.calls := by
    intro c₂ hc₂
    rw [hcalls] at hc₂
    exact (List.mem_or_eq_of_mem_set hc₂).symm
  refine ⟨fun cb => ?_, fun j c₂ hj hheld => ?_, ?_, ?_, ?_⟩
  · have hplace := places_set hi hcalls cb
    have hold := h.placed cb
    have hnow := hplaces cb
    rw [gave_set hi hcalls]
    by_cases hcb : cb = i
    · have hgave : s.gave cb = c.given := by
        rw [gave, hcb, hi]
        rfl
      rw [hgave] at hold
      simp only [hcb, true_and, if_true] at hplace hold hnow ⊢
      omega
    · simp only [hcb, false_and, if_false] at hnow ⊢
      omega
  · rw [hcalls] at hj
    rcases getElem?_set_cases hi hj with ⟨rfl, rfl⟩ | ⟨hne, hj⟩
    · exact hlock hheld
    · -- who holds the mutex keeps it, since call `i` neither has it nor finds it free
      have hholder := h.locked j c₂ hj hheld
      rcases hlocks with hsame | hfree | hmine
      · rw [hsame, hholder]
      · rw [hfree] at hholder
        cases hholder
      · have hown := h.locked i c hi hmine
        rw [hholder] at hown
        exact absurd (Option.some.inj hown) hne
  · intro hpast
    rcases hflag with hset | ⟨hsame, hc', hran⟩
    · exact hset
    · rw [hsame]
      refine h.flagged ?_
      rcases hpast with ⟨c₂, hc₂, hp⟩ | hne
      · rcases hback hc₂ with rfl | hc₂
        · rw [hc'] at hp
          cases hp
        · exact Or.inl ⟨c₂, hc₂, hp⟩
      · exact Or.inr (hran ▸ hne)
  · rintro ⟨c₂, hc₂, hp⟩
    have hsome : (∃ c ∈ s.calls, c.pastDrain = true) ∨ c'.pastDrain = true := by
      rcases hback hc₂ with rfl | hc₂
      · exact Or.inr hp
      · exact Or.inl ⟨c₂, hc₂, hp⟩
    obtain ⟨hempty, hne⟩ := hdrain hsome
    refine ⟨hempty, fun hmem => ?_⟩
    rcases hback hmem with heq | hmem
    · exact hne heq.symm
    · -- another call at its push: not after a drain, and not while this one holds the mutex
      rcases hsome with hbefore | hafter
      · exact (h.drained hbefore).2 hmem
      · rcases hpush hafter with hbefore | rfl
        · exact (h.drained ⟨c, List.mem_of_getElem? hi, hbefore⟩).2 hmem
        · obtain ⟨j, hj⟩ := List.getElem?_of_mem hmem
          have hown := h.locked i _ hi rfl
          rw [h.locked j _ hj rfl] at hown
          cases hown
          rw [hi] at hj
          cases hj
  · intro hne
    rw [hcalls]
    rcases hdropped with ⟨hsame, hc⟩ | rfl
    · rw [hsame] at hne
      exact mem_set_of_ne hi c' (h.unwound hne) (Ne.symm hc)
    · exact mem_set_self hi _

theorem Inv.pastFlag (h : s.Inv) (hi : s.calls[i]? = some c) (hc : c.pastFlag = true) : s.isCancelled = true :=
  h.flagged (Or.inl ⟨c, List.mem_of_getElem? hi, hc⟩)

theorem Inv.pastDrain (h : s.Inv) (hi : s.calls[i]? = some c) (hc : c.pastDrain = true) : s.callbacks = [] :=
  (h.drained ⟨c, List.mem_of_getElem? hi, hc⟩).1

/-- A step of `cancel` keeps the invariant. -/
theorem Inv.cancelStep (h : s.Inv) {pc : CancelPc} (hi : s.calls[i]? = some (.cancel pc))
    {p : CancellationToken × TokenCall} (hstep : s.callStep i (.cancel pc) = some p) :
    Inv { p.1 with calls := s.calls.set i p.2 } := by
  have hold : (∃ c ∈ s.calls, c.pastDrain = true) → s.callbacks = [] := fun hd => (h.drained hd).1
  cases pc with
  | store =>
    cases hstep
    exact h.move hi rfl (by simp) (by simp) (Or.inl rfl)
      (Or.inl rfl) (by simpa using hold) (by simp) (Or.inl ⟨rfl, by simp⟩)
  | lock =>
    obtain ⟨hfree, hp⟩ := Option.ite_none_right_eq_some.mp hstep
    cases hp
    exact h.move hi rfl (by simp) (fun _ => rfl) (Or.inr (Or.inl hfree))
      (Or.inl (h.pastFlag hi rfl)) (by simpa using hold) (by simp) (Or.inl ⟨rfl, by simp⟩)
  | drain =>
    cases hstep
    refine h.move hi rfl ?_ (by simp) (Or.inr (Or.inr rfl)) (Or.inl (h.pastFlag hi rfl))
      (by simp) (fun _ => Or.inr rfl) (Or.inl ⟨rfl, by simp⟩)
    intro cb
    simp
  | fire callbacks =>
    have hflag := h.pastFlag hi rfl
    have hempty := h.pastDrain hi rfl
    cases callbacks with
    | nil =>
      cases hstep
      exact h.move hi rfl (by simp) (by simp) (Or.inl rfl)
        (Or.inl hflag) (fun _ => ⟨hempty, by simp⟩) (fun _ => Or.inl rfl) (Or.inl ⟨rfl, by simp⟩)
    | cons cb callbacks =>
      cases hstep
      refine h.move hi rfl ?_ (by simp) (Or.inl rfl) (Or.inl hflag) (fun _ => ⟨hempty, by simp⟩)
        (fun _ => Or.inl rfl) (Or.inl ⟨rfl, by simp⟩)
      intro k
      simp only [TokenCall.taken, TokenCall.given, List.count_append, List.count_cons, List.count_nil,
        Bool.false_eq_true, and_false, if_false]
      omega
  | running cb callbacks =>
    cases hstep
    exact h.move hi rfl (by simp) (by simp) (Or.inl rfl)
      (Or.inl (h.pastFlag hi rfl)) (fun _ => ⟨h.pastDrain hi rfl, by simp⟩) (fun _ => Or.inl rfl) (Or.inl ⟨rfl, by simp⟩)
  | returned | unwound => cases hstep

/-- A call of `on_cancel` gives away its own callback. -/
theorem count_own (cb i : Nat) : List.count cb [i] = if cb = i then 1 else 0 := by
  simp only [List.count_singleton, beq_iff_eq, @eq_comm _ i cb]

/-- A step of `on_cancel` keeps the invariant. -/
theorem Inv.onCancelStep (h : s.Inv) {pc : OnCancelPc} (hi : s.calls[i]? = some (.onCancel pc))
    {p : CancellationToken × TokenCall} (hstep : s.callStep i (.onCancel pc) = some p) :
    Inv { p.1 with calls := s.calls.set i p.2 } := by
  have hold : (∃ c ∈ s.calls, c.pastDrain = true) → s.callbacks = [] := fun hd => (h.drained hd).1
  cases pc with
  | lock =>
    obtain ⟨hfree, hp⟩ := Option.ite_none_right_eq_some.mp hstep
    cases hp
    exact h.move hi rfl (by simp) (fun _ => rfl) (Or.inr (Or.inl hfree))
      (Or.inr ⟨rfl, rfl, rfl⟩) (by simpa using hold) (by simp) (Or.inl ⟨rfl, by simp⟩)
  | load =>
    have hholder := h.locked i _ hi rfl
    simp only [callStep] at hstep
    split_ifs at hstep with hset
    · cases hstep
      exact h.move hi rfl (by simp) (fun _ => hholder) (Or.inl rfl) (Or.inl hset)
        (by simpa using hold) (by simp) (Or.inl ⟨rfl, by simp⟩)
    · cases hstep
      refine h.move hi rfl (by simp) (fun _ => hholder) (Or.inl rfl)
        (Or.inr ⟨rfl, rfl, rfl⟩) ?_ (by simp) (Or.inl ⟨rfl, by simp⟩)
      -- nobody has drained yet, or the flag would be set
      rintro (⟨c, hc, hp⟩ | hp)
      · refine absurd (h.flagged (Or.inl ⟨c, hc, ?_⟩)) hset
        cases c with
        | cancel pc => cases pc <;> first | rfl | cases hp
        | onCancel pc => cases hp
      · cases hp
  | push =>
    cases hstep
    refine h.move hi rfl ?_ (by simp) (Or.inr (Or.inr rfl)) (Or.inr ⟨rfl, rfl, rfl⟩) ?_
      (by simp) (Or.inl ⟨rfl, by simp⟩)
    · intro cb
      simp only [TokenCall.taken, TokenCall.given, List.count_append, count_own, Bool.false_eq_true, and_false, and_true,
        if_false]
      omega
    · rintro (hd | hp)
      · exact absurd (List.mem_of_getElem? hi) (h.drained hd).2
      · cases hp
  | unlock =>
    cases hstep
    exact h.move hi rfl (by simp) (by simp) (Or.inr (Or.inr rfl))
      (Or.inl (h.pastFlag hi rfl)) (by simpa using hold) (by simp) (Or.inl ⟨rfl, by simp⟩)
  | fire =>
    cases hstep
    refine h.move hi rfl ?_ (by simp) (Or.inl rfl) (Or.inl (h.pastFlag hi rfl))
      (by simpa using hold) (by simp) (Or.inl ⟨rfl, by simp⟩)
    intro cb
    simp only [TokenCall.taken, TokenCall.given, List.count_append, count_own, Bool.false_eq_true, and_false, and_true,
      if_false]
    omega
  | running =>
    cases hstep
    refine h.move hi rfl (by simp) (by simp) (Or.inl rfl)
      (Or.inl (h.pastFlag hi rfl)) (by simpa using hold) (by simp) (Or.inl ⟨rfl, by simp⟩)
  | returned | unwound => cases hstep

/-- So does a callback that panics. -/
theorem Inv.unwindStep (h : s.Inv) (hi : s.calls[i]? = some c) {p : CancellationToken × TokenCall}
    (hp : s.unwind c = some p) : Inv { p.1 with calls := s.calls.set i p.2 } := by
  revert hp
  fun_cases unwind s c with
  | case1 cb callbacks =>
    intro hp
    cases hp
    refine h.move hi rfl ?_ (by simp) (Or.inl rfl) (Or.inl (h.pastFlag hi rfl))
      (fun _ => ⟨h.pastDrain hi rfl, by simp⟩) (fun _ => Or.inl rfl) (Or.inr rfl)
    intro k
    simp only [TokenCall.taken, TokenCall.given, List.count_append, List.count_nil, Bool.false_eq_true, and_false, if_false]
    omega
  | case2 =>
    intro hp
    cases hp
    have hold : (∃ c ∈ s.calls, c.pastDrain = true) → s.callbacks = [] := fun hd => (h.drained hd).1
    exact h.move hi rfl (by simp) (by simp) (Or.inl rfl) (Or.inl (h.pastFlag hi rfl)) (by simpa using hold) (by simp)
      (Or.inl ⟨rfl, by simp⟩)
  | case3 =>
    intro hp
    cases hp

/-- A new call has its callback, if any, and holds nothing. -/
theorem Inv.call (h : s.Inv) (hc : c = .cancel .store ∨ c = .onCancel .lock) :
    Inv { s with calls := s.calls ++ [c] } := by
  have hback : ∀ {c₂}, c₂ ∈ s.calls ++ [c] → c₂ ∈ s.calls ∨ c₂ = .cancel .store ∨ c₂ = .onCancel .lock := by
    intro c₂ hc₂
    rcases List.mem_append.mp hc₂ with hc₂ | hc₂
    · exact Or.inl hc₂
    · exact Or.inr (List.mem_singleton.mp hc₂ ▸ hc)
  refine ⟨fun i => ?_, fun i c₂ hi hheld => ?_, fun hpast => h.flagged ?_, ?_, ?_⟩
  · have hplaces : places { s with calls := s.calls ++ [c] } i = s.places i := by
      rcases hc with rfl | rfl <;> simp [places]
    have hgave : gave { s with calls := s.calls ++ [c] } i = s.gave i := by
      unfold gave
      rcases Nat.lt_trichotomy i s.calls.length with hlt | rfl | hgt
      · rw [List.getElem?_append_left hlt]
      · rcases hc with rfl | rfl <;> simp
      · rw [List.getElem?_eq_none (by simp; omega), List.getElem?_eq_none (by omega)]
    rw [hplaces, hgave]
    exact h.placed i
  · rcases getElem?_snoc_cases hi with hi | ⟨-, rfl⟩
    · exact h.locked i c₂ hi hheld
    · rcases hc with rfl | rfl <;> cases hheld
  · rcases hpast with ⟨c₂, hc₂, hp⟩ | hne
    · rcases hback hc₂ with hc₂ | rfl | rfl
      · exact Or.inl ⟨c₂, hc₂, hp⟩
      · cases hp
      · cases hp
    · exact Or.inr hne
  · rintro ⟨c₂, hc₂, hp⟩
    rcases hback hc₂ with hc₂ | rfl | rfl
    · refine ⟨(h.drained ⟨c₂, hc₂, hp⟩).1, fun hmem => ?_⟩
      rcases hback hmem with hmem | heq | heq
      · exact (h.drained ⟨c₂, hc₂, hp⟩).2 hmem
      · cases heq
      · cases heq
    · cases hp
    · cases hp
  · exact fun hne => List.mem_append_left _ (h.unwound hne)

/-- A step of a call, taken apart. -/
theorem step_cases {a : TokenAct} (hstep : Step s a s') :
    (∃ c, (c = .cancel .store ∨ c = .onCancel .lock) ∧ (a = .cancel ∨ a = .onCancel) ∧
      s' = { s with calls := s.calls ++ [c] }) ∨
    ∃ i c p, s.calls[i]? = some c ∧ (a = .step i ∧ s.callStep i c = some p ∨ a = .panics i ∧ s.unwind c = some p) ∧
      s' = { p.1 with calls := s.calls.set i p.2 } := by
  unfold Step next at hstep
  cases a with
  | cancel =>
    cases hstep
    exact Or.inl ⟨_, Or.inl rfl, Or.inl rfl, rfl⟩
  | onCancel =>
    cases hstep
    exact Or.inl ⟨_, Or.inr rfl, Or.inr rfl, rfl⟩
  | step i =>
    obtain ⟨c, hc, hstep⟩ := Option.bind_eq_some_iff.mp hstep
    obtain ⟨p, hp, rfl⟩ := Option.map_eq_some_iff.mp hstep
    exact Or.inr ⟨i, c, p, hc, Or.inl ⟨rfl, hp⟩, rfl⟩
  | panics i =>
    obtain ⟨c, hc, hstep⟩ := Option.bind_eq_some_iff.mp hstep
    obtain ⟨p, hp, rfl⟩ := Option.map_eq_some_iff.mp hstep
    exact Or.inr ⟨i, c, p, hc, Or.inr ⟨rfl, hp⟩, rfl⟩

theorem Inv.step {a : TokenAct} (h : s.Inv) (hstep : Step s a s') : s'.Inv := by
  rcases step_cases hstep with ⟨c, hc, -, rfl⟩ | ⟨i, c, p, hi, ⟨-, hp⟩ | ⟨-, hp⟩, rfl⟩
  · exact h.call hc
  · cases c with
    | cancel pc => exact h.cancelStep hi hp
    | onCancel pc => exact h.onCancelStep hi hp
  · exact h.unwindStep hi hp

theorem inv_run {τ : List (CancellationToken × TokenAct)} (h : Run Step {} τ s) : s.Inv :=
  h.inv inv_init fun _ _ _ hinv hstep => hinv.step hstep

/-! ## What a run has done -/

/-- In this step a call of `cancel` sets the flag. -/
def SetsFlag (x : CancellationToken × TokenAct) : Prop := ∃ i, x.2 = .step i ∧ x.1.calls[i]? = some (.cancel .store)

/-- The callback that is called in this step. -/
def called (x : CancellationToken × TokenAct) : Option Nat :=
  match x.2 with
  | .step i =>
    match x.1.calls[i]? with
    | some (.cancel (.fire (cb :: _))) => some cb
    | some (.onCancel .fire) => some i
    | _ => none
  | _ => none

/-- A callback panics in this step, before others that the same `cancel` has taken. -/
def PanicsFirst (x : CancellationToken × TokenAct) : Prop :=
  ∃ i cb callbacks, x.2 = .panics i ∧ x.1.calls[i]? = some (.cancel (.running cb callbacks)) ∧ callbacks ≠ []

variable {τ : List (CancellationToken × TokenAct)}

/-- What a step of a call does to the flag, to the callbacks that were called and to those that were dropped. -/
theorem callStep_effect {p : CancellationToken × TokenCall} (hi : s.calls[i]? = some c) (hp : s.callStep i c = some p) :
    (p.1.isCancelled = true → s.isCancelled = true ∨ c = .cancel .store) ∧
      p.1.ran = s.ran ++ [(s, .step i)].filterMap called ∧ p.1.dropped = s.dropped := by
  simp only [List.filterMap_cons, List.filterMap_nil, called, hi]
  revert hp
  fun_cases callStep s i c <;> intro hp <;> cases hp <;> simp

/-- A panic drops the callbacks that the call has left. -/
theorem unwind_effect {p : CancellationToken × TokenCall} (hp : s.unwind c = some p) :
    p.1.isCancelled = s.isCancelled ∧ p.1.ran = s.ran ∧ p.1.dropped = s.dropped ++ c.taken := by
  revert hp
  fun_cases unwind s c <;> intro hp <;> cases hp <;> simp

/-- The panic drops some callback. -/
theorem panicsFirst_iff {p : CancellationToken × TokenCall} (hi : s.calls[i]? = some c) (hp : s.unwind c = some p) :
    PanicsFirst (s, .panics i) ↔ c.taken ≠ [] := by
  constructor
  · rintro ⟨j, cb, callbacks, hj, hcall, hne⟩
    cases hj
    rw [hi] at hcall
    cases hcall
    exact hne
  · intro hne
    revert hp
    fun_cases unwind s c with
    | case1 cb callbacks => exact fun _ => ⟨i, cb, callbacks, rfl, hi, hne⟩
    | case2 => exact absurd rfl hne
    | case3 =>
      intro hp
      cases hp

/-- Only `cancel` sets the flag. -/
theorem setsFlag_of_run (h : Run Step {} τ s) (hset : s.isCancelled = true) : ∃ x ∈ τ, SetsFlag x := by
  induction h with
  | nil => cases hset
  | @snoc τ s a s' hr hstep ih =>
    have hbefore : s.isCancelled = true → ∃ x ∈ τ ++ [(s, a)], SetsFlag x := by
      intro hset
      obtain ⟨x, hx, hs⟩ := ih hset
      exact ⟨x, List.mem_append_left _ hx, hs⟩
    rcases step_cases hstep with ⟨c, -, -, rfl⟩ | ⟨i, c, p, hi, ⟨rfl, hp⟩ | ⟨rfl, hp⟩, rfl⟩
    · exact hbefore hset
    · rcases (callStep_effect hi hp).1 hset with hset | rfl
      · exact hbefore hset
      · exact ⟨(s, .step i), by simp, i, rfl, hi⟩
    · exact hbefore ((unwind_effect hp).1 ▸ hset)

/-- The callbacks that were called, in this order. -/
theorem ran_eq (h : Run Step {} τ s) : s.ran = τ.filterMap called := by
  induction h with
  | nil => rfl
  | @snoc τ s a s' hr hstep ih =>
    rw [List.filterMap_append, ← ih]
    rcases step_cases hstep with ⟨c, -, rfl | rfl, rfl⟩ | ⟨i, c, p, hi, ⟨rfl, hp⟩ | ⟨rfl, hp⟩, rfl⟩
    · exact (List.append_nil _).symm
    · exact (List.append_nil _).symm
    · exact (callStep_effect hi hp).2.1
    · exact (unwind_effect hp).2.1.trans (List.append_nil _).symm

/-- A callback was dropped when one has panicked before it. -/
theorem dropped_eq_nil_iff (h : Run Step {} τ s) : s.dropped = [] ↔ ∀ x ∈ τ, ¬PanicsFirst x := by
  induction h with
  | nil => simp
  | @snoc τ s a s' hr hstep ih =>
    have hcall : (∀ i, a ≠ .panics i) → s'.dropped = s.dropped →
        (s'.dropped = [] ↔ ∀ x ∈ τ ++ [(s, a)], ¬PanicsFirst x) := by
      intro ha hsame
      rw [hsame, ih, List.forall_mem_append]
      refine ⟨fun hall => ⟨hall, ?_⟩, And.left⟩
      rintro x hx ⟨i, _, _, hpanics, -⟩
      obtain rfl := List.mem_singleton.mp hx
      exact ha i hpanics
    rcases step_cases hstep with ⟨c, -, ha, rfl⟩ | ⟨i, c, p, hi, ⟨rfl, hp⟩ | ⟨rfl, hp⟩, rfl⟩
    · refine hcall ?_ rfl
      rcases ha with rfl | rfl <;> simp
    · exact hcall (by simp) (callStep_effect hi hp).2.2
    · show p.1.dropped = [] ↔ _
      rw [(unwind_effect hp).2.2, List.append_eq_nil_iff, ih, List.forall_mem_append]
      refine and_congr_right fun _ => ?_
      rw [List.forall_mem_singleton, panicsFirst_iff hi hp, not_not]

/-- A callback is called when the flag is set. -/
theorem Inv.called (h : s.Inv) {a : TokenAct} (hc : (called (s, a)).isSome = true) : s.isCancelled = true := by
  unfold CancellationToken.called at hc
  split at hc
  · split at hc
    · rename_i hi
      exact h.pastFlag hi rfl
    · rename_i hi
      exact h.pastFlag hi rfl
    · cases hc
  · cases hc

/-- A callback was called, or a `cancel` in progress has it. -/
def CalledOrTaken (τ : List (CancellationToken × TokenAct)) (s : CancellationToken) (i : Nat) : Prop :=
  i ∈ τ.filterMap CancellationToken.called ∨ ∃ pc, .cancel pc ∈ s.calls ∧ i ∈ TokenCall.taken (.cancel pc)

/-- Some `cancel` is over, and so are all calls of `on_cancel`. -/
def Settled (s : CancellationToken) : Prop :=
  (∃ pc, .cancel pc ∈ s.calls ∧ pc.isOver = true) ∧ ∀ pc, .onCancel pc ∈ s.calls → pc.isOver = true

/-- Then a callback that was not dropped was called, or is about to be. -/
theorem calledOrTaken_of_settled (h : Run Step {} τ s) (hs : s.Settled) {pc : OnCancelPc}
    (hi : s.calls[i]? = some (.onCancel pc)) (hdropped : i ∉ s.dropped) : CalledOrTaken τ s i := by
  have hinv := inv_run h
  have hgave : s.gave i = true := by
    have hover := hs.2 pc (List.mem_of_getElem? hi)
    rw [gave, hi]
    cases pc <;> first | rfl | cases hover
  obtain ⟨pc', hmem, hover⟩ := hs.1
  have hpast : (TokenCall.cancel pc').pastDrain = true := by
    cases pc' <;> first | rfl | cases hover
  have hplaced := hinv.placed i
  rw [hgave, if_pos rfl, places, (hinv.drained ⟨_, hmem, hpast⟩).1, List.count_nil, List.count_eq_zero.mpr hdropped]
    at hplaced
  rw [CalledOrTaken, ← ran_eq h]
  by_cases hran : i ∈ s.ran
  · exact Or.inl hran
  · right
    rw [List.count_eq_zero.mpr hran] at hplaced
    have hsum : (s.calls.map fun c => c.taken.count i).sum ≠ 0 := by omega
    obtain ⟨n, hn, hpos⟩ := List.exists_mem_ne_zero_of_sum_ne_zero hsum
    obtain ⟨c, hc, rfl⟩ := List.mem_map.mp hn
    have htaken := List.count_pos_iff.mp (Nat.pos_of_ne_zero hpos)
    cases c with
    | cancel pc => exact ⟨pc, hc, htaken⟩
    | onCancel pc => cases htaken

/-- A callback that was dropped was given to the token, and is nowhere else. -/
theorem not_calledOrTaken_of_dropped (h : Run Step {} τ s) (hi : i ∈ s.dropped) :
    (∃ pc, s.calls[i]? = some (.onCancel pc)) ∧ ¬CalledOrTaken τ s i := by
  have hplaced := (inv_run h).placed i
  have hpos := List.count_pos_iff.mpr hi
  unfold places at hplaced
  split_ifs at hplaced with hgave
  · constructor
    · unfold gave at hgave
      cases hcall : s.calls[i]? with
      | none =>
        rw [hcall] at hgave
        cases hgave
      | some c =>
        rw [hcall] at hgave
        cases c with
        | cancel pc => cases hgave
        | onCancel pc => exact ⟨pc, rfl⟩
    · rw [CalledOrTaken, ← ran_eq h]
      rintro (hran | ⟨pc, hmem, htaken⟩)
      · have hcount := List.count_pos_iff.mpr hran
        omega
      · have hsum : (s.calls.map fun c => c.taken.count i).sum = 0 := by omega
        have hzero := List.sum_eq_zero_iff_forall_eq_nat.mp hsum _ (List.mem_map.mpr ⟨_, hmem, rfl⟩)
        exact List.count_eq_zero.mp hzero htaken
  · omega

/-- **Cancellation callbacks fire exactly once.** Whatever calls of `cancel` and `on_cancel` are made on the clones of a
token, and however their steps interleave: a callback is called only after a call of `cancel` has set the flag, and no
callback is called twice. When some `cancel` is over, and so are all calls of `on_cancel`, every callback was called, or a
`cancel` in progress has it, **if and only if** no callback has panicked before others that the same `cancel` had taken. -/
theorem callbacks_fire_once (h : Run Step {} τ s) :
    EachStep (fun τ₁ x => (CancellationToken.called x).isSome = true → ∃ y ∈ τ₁, SetsFlag y) τ ∧
      (τ.filterMap CancellationToken.called).Nodup ∧
      (s.Settled → ((∀ i pc, s.calls[i]? = some (.onCancel pc) → CalledOrTaken τ s i) ↔ ∀ x ∈ τ, ¬PanicsFirst x)) := by
  refine ⟨?_, ?_, fun hs => ?_⟩
  · rintro τ₁ ⟨u, a⟩ τ₂ rfl hc
    obtain ⟨hbefore, -⟩ := h.before
    exact setsFlag_of_run hbefore ((inv_run hbefore).called hc)
  · rw [← ran_eq h]
    refine List.nodup_iff_count.mpr fun cb => ?_
    have hplaced := (inv_run h).placed cb
    unfold places at hplaced
    split_ifs at hplaced <;> omega
  · rw [← dropped_eq_nil_iff h, List.eq_nil_iff_forall_not_mem]
    constructor
    · intro hall i hi
      obtain ⟨⟨pc, hcall⟩, hnot⟩ := not_calledOrTaken_of_dropped h hi
      exact hnot (hall i pc hcall)
    · intro hnone i pc hi
      exact calledOrTaken_of_settled h hs hi (hnone i)

/-- A callback pushed between the store of the flag and the lock of `cancel`, which takes it; a late one, which its own
call runs while that of the first is still running; and the first then panics, with nothing after it. -/
theorem callbacks_fire_once_of_two :
    ∃ τ s, Run Step {} τ s ∧ s.calls = [.onCancel .returned, .cancel .unwound, .onCancel .returned] ∧
      (τ.filterMap CancellationToken.called).Nodup ∧ 0 ∈ τ.filterMap CancellationToken.called ∧
      2 ∈ τ.filterMap CancellationToken.called := by
  let acts : List TokenAct := [.onCancel, .cancel, .step 0, .step 0, .step 1, .step 0, .step 1, .step 1, .step 1,
    .onCancel, .step 2, .step 2, .step 2, .step 2, .step 2, .panics 1]
  have hrun : Run Step {} _ _ := run_tryPlay next {} acts (by decide)
  have hcalls : ((tryPlay next {} acts).get (by decide)).2.calls =
      [.onCancel .returned, .cancel .unwound, .onCancel .returned] := by decide
  have hsettled : ((tryPlay next {} acts).get (by decide)).2.Settled := by
    rw [Settled, hcalls]
    refine ⟨⟨.unwound, by simp, rfl⟩, ?_⟩
    simp [OnCancelPc.isOver]
  have hnone : ((tryPlay next {} acts).get (by decide)).2.dropped = [] := by decide
  obtain ⟨-, hnodup, hall⟩ := callbacks_fire_once hrun
  have hdone := (hall hsettled).mpr ((dropped_eq_nil_iff hrun).mp hnone)
  refine ⟨_, _, hrun, hcalls, hnodup, ?_, ?_⟩
  · refine (hdone 0 .returned (by rw [hcalls]; rfl)).resolve_right ?_
    rw [hcalls]
    simp
  · refine (hdone 2 .returned (by rw [hcalls]; rfl)).resolve_right ?_
    rw [hcalls]
    simp

/-- Two callbacks are registered, and the first panics in the `cancel` that has taken both. The second is not called, not
even by another `cancel`, which returns. -/
theorem callback_is_dropped :
    ¬∀ τ s, Run Step {} τ s → .cancel .returned ∈ s.calls → (∀ pc, .onCancel pc ∈ s.calls → pc = .returned) →
      ∀ i pc, s.calls[i]? = some (.onCancel pc) → i ∈ τ.filterMap CancellationToken.called ∨
        ∃ pc, .cancel pc ∈ s.calls ∧ i ∈ TokenCall.taken (.cancel pc) := by
  intro hall
  let acts : List TokenAct := [.onCancel, .step 0, .step 0, .step 0, .onCancel, .step 1, .step 1, .step 1,
    .cancel, .step 2, .step 2, .step 2, .step 2, .panics 2, .cancel, .step 3, .step 3, .step 3, .step 3]
  have hrun : Run Step {} _ _ := run_tryPlay next {} acts (by decide)
  have hcalls : ((tryPlay next {} acts).get (by decide)).2.calls =
      [.onCancel .returned, .onCancel .returned, .cancel .unwound, .cancel .returned] := by decide
  have hran : ((tryPlay next {} acts).get (by decide)).2.ran = [0] := by decide
  have hone := hall _ _ hrun (by simp [hcalls]) (by simp [hcalls]) 1 .returned (by rw [hcalls]; rfl)
  rw [← ran_eq hrun, hran, hcalls] at hone
  simp at hone

end CancellationToken

end Spawned
