import Spawned.Actor.RunLoop

/-!
# Killing an actor

`kill` writes the reason `Kill` and then the flag that makes the run loop skip `stopped`; `shutdown` and an OS signal write
the reason only.

* `Overwrites` : a `Shutdown` is written over the reason of a kill, before the reason is resolved;
* `Killed`, `Orderly` : the invariants of the runs without such a write, and of those without a kill;
* `skipped_stopped_is_kill` : an actor that exits without `stopped` exits with `Kill`, unless that reason is overwritten.
-/

namespace Spawned

open Lib

namespace RunActor

variable {s s' : State} {a : Act}

/-! ## Skipping `stopped` -/

/-- The step calls `stopped`. -/
def RunsStopped (x : State × Act) : Bool :=
  match x.1.pc, x.2 with
  | .stopCheck _ _, .step => !x.1.cell.skipStopped
  | _, _ => false

/-- How often `stopped` was called. -/
def stoppedRuns (τ : List (State × Act)) : Nat := τ.countP RunsStopped

/-- The requested reason has not been taken yet. -/
def Pc.unresolved : Pc → Bool
  | .resolveLinked | .exited _ => false
  | _ => true

/-- The step writes `Shutdown` into the requested reason: that of a call of `shutdown`, or that of the run loop for an OS
signal. -/
def WritesShutdown (x : State × Act) : Bool :=
  match x.2 with
  | .write i => decide (x.1.calls[i]?.bind List.head? = some (.reason .shutdown))
  | .step => decide (x.1.pc = .signalled)
  | _ => false

/-- It does so before the reason is resolved. -/
def TakesEffect (x : State × Act) : Bool := WritesShutdown x && x.1.pc.unresolved

/-- And the reason was that of a kill. -/
def Overwrites (x : State × Act) : Bool := TakesEffect x && decide (x.1.cell.requestedExit = some .kill)

def NoPanic (τ : List (State × Act)) : Prop := ∀ x ∈ τ, ∀ msg, x.2 ≠ .panic msg

/-- Of all requests and exit signals there are only calls of `stop` and `shutdown`. -/
def NoKill (τ : List (State × Act)) : Prop :=
  ∀ x ∈ τ, x.2 ≠ .ask (.request .kill) ∧ ∀ reason, x.2 ≠ .ask (.linked reason)

variable {τ : List (State × Act)}

theorem runsStopped_of_ne (h : a ≠ .step) : RunsStopped (s, a) = false := by
  unfold RunsStopped
  split
  case h_1 ha => exact absurd ha h
  case h_2 => rfl

theorem stoppedRuns_snoc (x : State × Act) : stoppedRuns (τ ++ [x]) = stoppedRuns τ + if RunsStopped x then 1 else 0 := by
  simp [stoppedRuns, List.countP_cons]

/-- A call that has still to set the flag has written its reason. -/
def State.killing (s : State) : Prop := s.cell.skipStopped = true ∨ [.skipStopped, .cancel] ∈ s.calls

/-- What the points after the check of the flag say of `n`, the number of calls of `stopped`. -/
def SkippedAt (n : Nat) (cell : ActorCell) : Pc → Prop
  | .running (.stopped _ _) | .resolveLinked => n ≠ 0
  | .resolve _ => n = 0 → cell.skipStopped = true
  | .exited reason => n = 0 → reason = .kill
  | _ => True

theorem SkippedAt.mono {n : Nat} {cell cell' : ActorCell} {pc : Pc} (h : SkippedAt n cell pc)
    (hkeep : cell.skipStopped = true → cell'.skipStopped = true) : SkippedAt n cell' pc := by
  unfold SkippedAt at h ⊢
  split at h
  case h_3 => exact fun hn => hkeep (h hn)
  all_goals exact h

/-- The invariant of the runs that overwrite no kill. -/
structure Killed (n : Nat) (s : State) : Prop where
  calls : ∀ call ∈ s.calls, ∃ ask : Ask, call <:+ ask.writes
  kill : s.pc.unresolved = true → s.killing → s.cell.requestedExit = some .kill
  skipped : SkippedAt n s.cell s.pc

/-- What is left of the writes of a request, from one of them on. -/
theorem suffix_writes {ask : Ask} {w : Write} {rest : List Write} (h : w :: rest <:+ ask.writes) :
    (w = .reason .shutdown ∧ rest = [.cancel]) ∨ (w = .reason .kill ∧ rest = [.skipStopped, .cancel]) ∨
      (w = .skipStopped ∧ rest = [.cancel]) ∨ ((∃ r, w = .linked r) ∧ rest = [.cancel]) ∨ (w = .cancel ∧ rest = []) := by
  rcases ask with (_ | _ | _) | reason <;> simp only [Ask.writes, List.suffix_cons_iff, List.cons.injEq] at h <;>
    aesop

namespace Killed

variable {n : Nat}

/-- The run loop goes on, at a point where nothing is said of `stopped`. -/
theorem goes (h : Killed n s) {cell : ActorCell} {pc : Pc} {signals : Nat} (hfrom : s.pc.unresolved = true)
    (hskip : cell.skipStopped = s.cell.skipStopped) (hreq : cell.requestedExit = s.cell.requestedExit)
    (hto : SkippedAt n cell pc) : Killed n { s with cell, pc, signals } := by
  refine ⟨h.calls, fun _ hkilling => ?_, hto⟩
  show cell.requestedExit = some .kill
  rw [hreq]
  refine h.kill hfrom ?_
  rw [State.killing, ← hskip]
  exact hkilling

/-- A call makes its next write. -/
theorem write (h : Killed n s) {i : Nat} {w : Write} {rest : List Write} (hcall : s.calls[i]? = some (w :: rest))
    (hover : Overwrites (s, .write i) = false) :
    Killed n { s with cell := w.apply s.cell, calls := s.calls.set i rest } := by
  obtain ⟨ask, hsuffix⟩ := h.calls _ (List.mem_of_getElem? hcall)
  have hcases := suffix_writes hsuffix
  have hcalls : ∀ call ∈ s.calls.set i rest, ∃ ask : Ask, call <:+ ask.writes := by
    intro call hmem
    rcases List.mem_or_eq_of_mem_set hmem with hmem | rfl
    · exact h.calls call hmem
    · exact ⟨ask, (List.suffix_cons w call).trans hsuffix⟩
  -- a call whose rest is not that of a kill is nothing new
  have hold : rest ≠ [.skipStopped, .cancel] → [.skipStopped, .cancel] ∈ s.calls.set i rest →
      [.skipStopped, .cancel] ∈ s.calls := by
    intro hne hmem
    rcases List.mem_or_eq_of_mem_set hmem with hmem | heq
    · exact hmem
    · exact absurd heq.symm hne
  have hkeep : s.cell.skipStopped = true → (w.apply s.cell).skipStopped = true := by
    cases w <;> simp [Write.apply]
  have hskipped := h.skipped.mono hkeep
  refine ⟨hcalls, fun hunresolved hkilling => ?_, hskipped⟩
  rcases hcases with ⟨rfl, rfl⟩ | ⟨rfl, rfl⟩ | ⟨rfl, rfl⟩ | ⟨⟨r, rfl⟩, rfl⟩ | ⟨rfl, rfl⟩
  · have hkill := h.kill hunresolved (hkilling.imp id (hold (by simp)))
    have hun : s.pc.unresolved = true := hunresolved
    simp [Overwrites, TakesEffect, WritesShutdown, hcall, hkill, hun] at hover
  · rfl
  · exact h.kill hunresolved (Or.inr (List.mem_of_getElem? hcall))
  · exact h.kill hunresolved (hkilling.imp id (hold (by simp)))
  · exact h.kill hunresolved (hkilling.imp id (hold (by simp)))

theorem loop (h : Killed n s) {cell : ActorCell} {pc : Pc} (hloop : Loop s.cell s.pc cell pc)
    (hover : Overwrites (s, .step) = false) :
    Killed (n + if RunsStopped (s, .step) then 1 else 0) { s with cell, pc } := by
  have hat := h.skipped
  have hkill := h.kill
  generalize hpc : s.pc = here at hloop hat hkill
  have hfrom : ∀ {pc : Pc}, here = pc → pc.unresolved = true → s.pc.unresolved = true := by
    rintro pc rfl hun
    rw [hpc]
    exact hun
  cases hloop with
  | early | cancel | leave =>
    simp only [RunsStopped, hpc]
    exact h.goes (hfrom rfl rfl) rfl rfl trivial
  | serve _ hfrom' =>
    rcases hfrom' with rfl | rfl <;> simp only [RunsStopped, hpc] <;> exact h.goes (hfrom rfl rfl) rfl rfl trivial
  | signalled =>
    simp only [RunsStopped, hpc]
    refine ⟨h.calls, fun _ hkilling => ?_, trivial⟩
    have hold := hkill rfl hkilling
    simp [Overwrites, TakesEffect, WritesShutdown, hpc, Pc.unresolved, hold] at hover
  | skip early reason hskip =>
    simp only [RunsStopped, hpc, hskip]
    exact h.goes (hfrom rfl rfl) rfl rfl fun _ => hskip
  | stopped early reason hskip =>
    simp only [RunsStopped, hpc, hskip]
    refine ⟨h.calls, fun _ hkilling => hkill rfl hkilling, ?_⟩
    simp [SkippedAt]
  | requested reason requested hreq =>
    simp only [RunsStopped, hpc]
    refine ⟨h.calls, by simp [Pc.unresolved], fun hn => ?_⟩
    have hold := hkill rfl (Or.inl (hat hn))
    exact Option.some.inj (hreq.symm.trans hold)
  | unrequested hreq =>
    simp only [RunsStopped, hpc]
    refine ⟨h.calls, by simp [Pc.unresolved], fun hn => ?_⟩
    have hold := hkill rfl (Or.inl (hat hn))
    simp [hreq] at hold
  | own reason hreq hreason =>
    simp only [RunsStopped, hpc]
    refine ⟨h.calls, by simp [Pc.unresolved], fun hn => ?_⟩
    have hold := hkill rfl (Or.inl (hat hn))
    simp [hreq] at hold
  | linked =>
    simp only [RunsStopped, hpc]
    exact ⟨h.calls, by simp [Pc.unresolved], fun hn => absurd hn hat⟩

theorem step (h : Killed n s) (hstep : Step s a s') (hpanic : ∀ msg, a ≠ .panic msg)
    (hover : Overwrites (s, a) = false) : Killed (n + if RunsStopped (s, a) then 1 else 0) s' := by
  have hother : a ≠ .step → (n + if RunsStopped (s, a) then 1 else 0) = n := fun hne => by simp [runsStopped_of_ne hne]
  cases step_cases hstep with
  | ask ask =>
    rw [hother (by simp)]
    refine ⟨?_, fun hun hkilling => h.kill hun ?_, h.skipped⟩
    · intro call hcall
      rcases List.mem_append.mp hcall with hcall | hcall
      · exact h.calls call hcall
      · rw [List.mem_singleton.mp hcall]
        exact ⟨ask, List.suffix_refl _⟩
    · refine hkilling.imp id fun hmem => ?_
      rcases List.mem_append.mp hmem with hmem | hmem
      · exact hmem
      · rcases ask with (_ | _ | _) | reason <;> simp [Ask.writes] at hmem
  | write i w rest hcall =>
    rw [hother (by simp)]
    exact h.write hcall hover
  | osSignal =>
    rw [hother (by simp)]
    exact ⟨h.calls, h.kill, h.skipped⟩
  | loop hloop => exact h.loop hloop hover
  | ctxStop callback hpc =>
    rw [hother (by simp)]
    exact ⟨h.calls, h.kill, h.skipped.mono id⟩
  | returns callback hpc =>
    rw [hother (by simp)]
    refine h.goes (by simp [hpc, Pc.unresolved]) rfl rfl ?_
    cases callback with
    | stopped early reason =>
      have hran := h.skipped
      rw [hpc] at hran
      exact fun hn => absurd hn hran
    | _ => trivial
  | panic msg => exact absurd rfl (hpanic msg)
  | takeMessage hpc | takeExit hpc | takeSignal hpc =>
    rw [hother (by simp)]
    exact h.goes (by simp [hpc, Pc.unresolved]) rfl rfl trivial
  | leave _ ha hpc =>
    rw [hother (by rcases ha with rfl | rfl <;> simp)]
    exact h.goes (by simp [hpc, Pc.unresolved]) rfl rfl trivial

end Killed

/-- In a run that overwrites no kill. -/
theorem Killed.run (h : Run Step {} τ s) (hpanic : NoPanic τ) (hover : ∀ x ∈ τ, Overwrites x = false) :
    Killed (stoppedRuns τ) s := by
  induction h with
  | nil => exact ⟨by simp, by simp [State.killing], trivial⟩
  | @snoc τ s a s' _ hstep ih =>
    have hkilled := ih (fun x hx => hpanic x (by simp [hx])) fun x hx => hover x (by simp [hx])
    rw [stoppedRuns_snoc]
    exact hkilled.step hstep (hpanic (s, a) (by simp)) (hover (s, a) (by simp))

/-! ## Stopping and shutting down -/

/-- Where the run loop is, how often `stopped` was called so far, and what has become of the requests: `took` says that a
`Shutdown` took effect. -/
def OrderlyAt (n : Nat) (took : Prop) : Pc → Prop
  | .cancel reason | .stopCheck _ reason => n = 0 ∧ reason = .normal
  | .running (.stopped _ reason) | .resolve reason => n = 1 ∧ reason = .normal
  | .resolveLinked => n = 1 ∧ ¬took
  | .exited reason => n = 1 ∧ (reason = .shutdown ↔ took)
  | _ => n = 0

/-- The invariant of the runs with no request but `stop` and `shutdown`. -/
structure Orderly (n : Nat) (took : Prop) (s : State) : Prop where
  calls : ∀ call ∈ s.calls, ∀ w ∈ call, w = .reason .shutdown ∨ w = .cancel
  skip : s.cell.skipStopped = false
  linked : s.cell.linkedReason = none
  slot : s.pc.unresolved = true → (s.cell.requestedExit = some .shutdown ∧ took) ∨ (s.cell.requestedExit = none ∧ ¬took)
  here : OrderlyAt n took s.pc

namespace Orderly

variable {n : Nat} {took took' : Prop}

/-- The run loop goes on without a write to the slots. -/
theorem goes (h : Orderly n took s) {cell : ActorCell} {pc : Pc} {signals : Nat} (hfrom : s.pc.unresolved = true)
    (hskip : cell.skipStopped = s.cell.skipStopped) (hlinked : cell.linkedReason = s.cell.linkedReason)
    (hreq : cell.requestedExit = s.cell.requestedExit) {n' : Nat} (hto : OrderlyAt n' took pc) :
    Orderly n' took { s with cell, pc, signals } :=
  ⟨h.calls, hskip.trans h.skip, hlinked.trans h.linked, fun _ => by rw [hreq]; exact h.slot hfrom, hto⟩

theorem congr (h : Orderly n took s) (htook : took ↔ took') : Orderly n took' s := by
  rw [propext htook] at h
  exact h

theorem write (h : Orderly n took s) {i : Nat} {w : Write} {rest : List Write} (hcall : s.calls[i]? = some (w :: rest)) :
    Orderly n (took ∨ TakesEffect (s, .write i) = true) { s with cell := w.apply s.cell, calls := s.calls.set i rest } := by
  have hmem := List.mem_of_getElem? hcall
  have hcalls : ∀ call ∈ s.calls.set i rest, ∀ w ∈ call, w = .reason .shutdown ∨ w = .cancel := by
    intro call hc
    rcases List.mem_or_eq_of_mem_set hc with hc | rfl
    · exact h.calls call hc
    · exact fun w' hw' => h.calls _ hmem w' (List.mem_cons_of_mem _ hw')
  rcases h.calls _ hmem w (List.mem_cons_self ..) with rfl | rfl
  · by_cases hun : s.pc.unresolved = true
    · have heffect : TakesEffect (s, .write i) = true := by
        simp [TakesEffect, WritesShutdown, hcall, hun]
      refine ⟨hcalls, h.skip, h.linked, fun _ => Or.inl ⟨rfl, Or.inr heffect⟩, ?_⟩
      have hhere := h.here
      cases hpc : s.pc with
      | resolveLinked => simp [hpc, Pc.unresolved] at hun
      | exited reason => simp [hpc, Pc.unresolved] at hun
      | running callback =>
        rw [hpc] at hhere
        cases callback <;> exact hhere
      | _ =>
        rw [hpc] at hhere
        exact hhere
    · have heffect : TakesEffect (s, .write i) = false := by
        simp [TakesEffect, hun]
      have hsame : took ↔ took ∨ TakesEffect (s, .write i) = true := by simp [heffect]
      have hkeep := h.congr hsame
      exact ⟨hcalls, hkeep.skip, hkeep.linked, fun hun' => absurd hun' hun, hkeep.here⟩
  · have heffect : TakesEffect (s, .write i) = false := by
      simp [TakesEffect, WritesShutdown, hcall]
    have hsame : took ↔ took ∨ TakesEffect (s, .write i) = true := by simp [heffect]
    have hkeep := h.congr hsame
    exact ⟨hcalls, hkeep.skip, hkeep.linked, hkeep.slot, hkeep.here⟩

theorem loop (h : Orderly n took s) {cell : ActorCell} {pc : Pc} (hloop : Loop s.cell s.pc cell pc) :
    Orderly (n + if RunsStopped (s, .step) then 1 else 0) (took ∨ TakesEffect (s, .step) = true) { s with cell, pc } := by
  have hhere := h.here
  have hslot := h.slot
  generalize hpc : s.pc = here at hloop hhere hslot
  have hfrom : ∀ {pc : Pc}, here = pc → pc.unresolved = true → s.pc.unresolved = true := by
    rintro pc rfl hun
    rw [hpc]
    exact hun
  have hsame : here ≠ .signalled → (took ↔ took ∨ TakesEffect (s, .step) = true) := by
    intro hne
    simp [TakesEffect, WritesShutdown, hpc, hne]
  cases hloop with
  | early | leave =>
    simp only [RunsStopped, hpc]
    refine Orderly.congr ?_ (hsame (by simp))
    exact h.goes (hfrom rfl rfl) rfl rfl rfl ⟨hhere, rfl⟩
  | serve _ hfrom' =>
    rcases hfrom' with rfl | rfl
    all_goals
      simp only [RunsStopped, hpc]
      refine Orderly.congr ?_ (hsame (by simp))
      exact h.goes (hfrom rfl rfl) rfl rfl rfl hhere
  | signalled =>
    simp only [RunsStopped, hpc]
    have heffect : TakesEffect (s, .step) = true := by simp [TakesEffect, WritesShutdown, hpc, Pc.unresolved]
    exact ⟨h.calls, h.skip, h.linked, fun _ => Or.inl ⟨rfl, Or.inr heffect⟩, hhere, rfl⟩
  | cancel reason =>
    simp only [RunsStopped, hpc]
    refine Orderly.congr ?_ (hsame (by simp))
    refine h.goes (hfrom rfl rfl) ?_ ?_ ?_ ?_
    · rfl
    · rfl
    · rfl
    · exact hhere
  | skip early reason hskip =>
    rw [h.skip] at hskip
    cases hskip
  | stopped early reason hskip =>
    simp only [RunsStopped, hpc, hskip]
    refine Orderly.congr ?_ (hsame (by simp))
    exact h.goes (hfrom rfl rfl) rfl rfl rfl ⟨by simp [hhere.1], hhere.2⟩
  | requested reason requested hreq =>
    simp only [RunsStopped, hpc]
    refine Orderly.congr ?_ (hsame (by simp))
    rcases hslot rfl with ⟨hsome, htook⟩ | ⟨hnone, -⟩
    · obtain rfl := Option.some.inj (hreq.symm.trans hsome)
      exact ⟨h.calls, h.skip, h.linked, by simp [Pc.unresolved], hhere.1, by simp [htook]⟩
    · rw [hnone] at hreq
      cases hreq
  | unrequested hreq =>
    simp only [RunsStopped, hpc]
    refine Orderly.congr ?_ (hsame (by simp))
    rcases hslot rfl with ⟨hsome, -⟩ | ⟨-, hnot⟩
    · rw [hsome] at hreq
      cases hreq
    · exact ⟨h.calls, h.skip, h.linked, by simp [Pc.unresolved], hhere.1, hnot⟩
  | own reason hreq hreason => exact absurd hhere.2 hreason
  | linked =>
    simp only [RunsStopped, hpc]
    refine Orderly.congr ?_ (hsame (by simp))
    refine ⟨h.calls, h.skip, rfl, by simp [Pc.unresolved], hhere.1, ?_⟩
    simp [h.linked, hhere.2]

theorem step (h : Orderly n took s) (hstep : Step s a s') (hpanic : ∀ msg, a ≠ .panic msg)
    (hkill : a ≠ .ask (.request .kill) ∧ ∀ reason, a ≠ .ask (.linked reason)) :
    Orderly (n + if RunsStopped (s, a) then 1 else 0) (took ∨ TakesEffect (s, a) = true) s' := by
  have hother : a ≠ .step → (n + if RunsStopped (s, a) then 1 else 0) = n := fun hne => by simp [runsStopped_of_ne hne]
  have hsame : WritesShutdown (s, a) = false → (took ↔ took ∨ TakesEffect (s, a) = true) := by
    intro hno
    simp [TakesEffect, hno]
  cases step_cases hstep with
  | ask ask =>
    rw [hother (by simp)]
    refine Orderly.congr ⟨?_, h.skip, h.linked, h.slot, h.here⟩ (hsame rfl)
    intro call hcall
    rcases List.mem_append.mp hcall with hcall | hcall
    · exact h.calls call hcall
    · rw [List.mem_singleton.mp hcall]
      rcases ask with (_ | _ | _) | reason
      · simp [Ask.writes]
      · simp [Ask.writes]
      · exact absurd rfl hkill.1
      · exact absurd rfl (hkill.2 reason)
  | write i w rest hcall =>
    rw [hother (by simp)]
    exact h.write hcall
  | osSignal =>
    rw [hother (by simp)]
    exact Orderly.congr ⟨h.calls, h.skip, h.linked, h.slot, h.here⟩ (hsame rfl)
  | loop hloop => exact h.loop hloop
  | ctxStop callback hpc =>
    rw [hother (by simp)]
    exact Orderly.congr ⟨h.calls, h.skip, h.linked, h.slot, h.here⟩ (hsame rfl)
  | returns callback hpc =>
    rw [hother (by simp)]
    have hhere := h.here
    rw [hpc] at hhere
    refine Orderly.congr (h.goes (by simp [hpc, Pc.unresolved]) rfl rfl rfl ?_) (hsame rfl)
    cases callback <;> exact hhere
  | panic msg => exact absurd rfl (hpanic msg)
  | takeMessage hpc | takeExit hpc | takeSignal hpc =>
    rw [hother (by simp)]
    have hhere := h.here
    rw [hpc] at hhere
    refine Orderly.congr (h.goes (by simp [hpc, Pc.unresolved]) rfl rfl rfl ?_) (hsame rfl)
    exact hhere
  | leave _ ha hpc =>
    rw [hother (by rcases ha with rfl | rfl <;> simp)]
    have hhere := h.here
    rw [hpc] at hhere
    refine Orderly.congr (h.goes (by simp [hpc, Pc.unresolved]) rfl rfl rfl ?_) (hsame ?_)
    · exact ⟨hhere, rfl⟩
    · rcases ha with rfl | rfl <;> rfl

end Orderly

theorem Orderly.run (h : Run Step {} τ s) (hpanic : NoPanic τ) (hkill : NoKill τ) :
    Orderly (stoppedRuns τ) (∃ x ∈ τ, TakesEffect x = true) s := by
  induction h with
  | nil => exact ⟨by simp, rfl, rfl, fun _ => Or.inr ⟨rfl, by simp⟩, rfl⟩
  | @snoc τ s a s' _ hstep ih =>
    have horderly := ih (fun x hx => hpanic x (by simp [hx])) fun x hx => hkill x (by simp [hx])
    rw [stoppedRuns_snoc]
    exact (horderly.step hstep (hpanic (s, a) (by simp)) (hkill (s, a) (by simp))).congr exists_mem_snoc.symm

/-- **Skipping `stopped` goes with the reason `Kill`** in every run, without panics, in which no `shutdown` and no OS signal
writes its reason over that of a kill before the reason is resolved. With no request but `stop` and `shutdown`, and OS
signals, `stopped` is called exactly once and the reason is `Shutdown` exactly if such a write took effect. -/
theorem skipped_stopped_is_kill {τ : List (State × Act)} {s : State} {reason : ExitReason} (h : Run Step {} τ s)
    (hpanic : NoPanic τ) (hexited : s.pc = .exited reason) :
    ((∀ x ∈ τ, Overwrites x = false) → stoppedRuns τ = 0 → reason = .kill) ∧
      (NoKill τ → stoppedRuns τ = 1 ∧ (reason = .shutdown ↔ ∃ x ∈ τ, TakesEffect x = true)) := by
  constructor
  · intro hover hzero
    have hskipped := (Killed.run h hpanic hover).skipped
    rw [hexited] at hskipped
    exact hskipped hzero
  · intro hkill
    have hhere := (Orderly.run h hpanic hkill).here
    rw [hexited] at hhere
    exact hhere

/-- An actor that is killed while it waits for a message. -/
theorem killed_actor_skips_stopped :
    ∃ (τ : List (State × Act)) (s : State), Run Step {} τ s ∧ stoppedRuns τ = 0 ∧ s.pc = .exited .kill := by
  have hrun := run_tryPlay next {} [.returns, .step, .ask (.request .kill), .write 0, .write 0, .write 0, .takeStop, .step,
    .step, .step] (by decide)
  have hexited : ∃ reason, ((tryPlay next {} [.returns, .step, .ask (.request .kill), .write 0, .write 0, .write 0, .takeStop,
      .step, .step, .step]).get (by decide)).2.pc = .exited reason := ⟨.kill, by decide⟩
  obtain ⟨reason, hpc⟩ := hexited
  have hpanic : NoPanic ((tryPlay next {} [.returns, .step, .ask (.request .kill), .write 0, .write 0, .write 0, .takeStop,
      .step, .step, .step]).get (by decide)).1 := by
    refine forall_mem_tryPlay next {} _ (P := fun a => ∀ msg, a ≠ .panic msg) (by decide) ?_
    simp
  have hkill := (skipped_stopped_is_kill hrun hpanic hpc).1 (by decide) (by decide)
  exact ⟨_, _, hrun, by decide, hkill ▸ hpc⟩

/-- A `shutdown` after a `kill` replaces its reason and leaves its flag: the actor exits with `Shutdown` and without
`stopped`. So it is with an OS signal. -/
theorem shutdown_overwrites_kill :
    (∃ (τ : List (State × Act)) (s : State), Run Step {} τ s ∧ NoPanic τ ∧ stoppedRuns τ = 0 ∧ s.pc = .exited .shutdown) ∧
    ∃ (τ : List (State × Act)) (s : State), Run Step {} τ s ∧ NoPanic τ ∧ stoppedRuns τ = 0 ∧ s.pc = .exited .shutdown ∧
      ∀ x ∈ τ, x.2 ≠ .ask (.request .shutdown) := by
  constructor
  · have hrun := run_tryPlay next {} [.returns, .step, .ask (.request .kill), .write 0, .write 0, .write 0,
      .ask (.request .shutdown), .write 1, .write 1, .takeStop, .step, .step, .step] (by decide)
    refine ⟨_, _, hrun, ?_, by decide, by decide⟩
    refine forall_mem_tryPlay next {} _ (P := fun a => ∀ msg, a ≠ .panic msg) (by decide) ?_
    simp
  · have hrun := run_tryPlay next {} [.returns, .step, .osSignal, .ask (.request .kill), .write 0, .write 0, .write 0,
      .takeSignal, .step, .step, .step, .step] (by decide)
    refine ⟨_, _, hrun, ?_, by decide, by decide, ?_⟩
    · refine forall_mem_tryPlay next {} _ (P := fun a => ∀ msg, a ≠ .panic msg) (by decide) ?_
      simp
    · refine forall_mem_tryPlay next {} _ (P := fun a => a ≠ .ask (.request .shutdown)) (by decide) ?_
      simp

end RunActor

end Spawned
