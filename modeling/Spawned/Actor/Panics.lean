import Spawned.Actor.RunLoop

/-!
# Panics of an actor

Every callback runs under a `catch_unwind`. What becomes of a panic depends on where the run loop is.

* `panics` : the panics of a run, each as the reason it is reported as;
* `Told` : what the run loop knows of them at each of its points;
* `panic_reported_iff` : the first panic is the exit reason, unless it is in the `stopped` of an actor cancelled before its
  loop.
-/

namespace Spawned

open Lib

namespace RunActor

variable {s s' : State} {a : Act} {τ : List (State × Act)}

/-! ## What is reported -/

/-- What the panic of a step is reported as. -/
def panicOf (x : State × Act) : Option ExitReason :=
  match x.2, x.1.pc with
  | .panic msg, .running callback => some (callback.panicReason msg)
  | _, _ => none

/-- The panics of the callbacks, oldest first. -/
def panics (τ : List (State × Act)) : List ExitReason := τ.filterMap panicOf

/-- `stopped` panics in an actor that was cancelled when `started` returned. -/
def Swallowed (x : State × Act) : Bool :=
  match x.2, x.1.pc with
  | .panic _, .running (.stopped true _) => true
  | _, _ => false

/-- No reason is requested and no exit signal cancels the actor: it is at most asked to stop. -/
def NoReason (τ : List (State × Act)) : Prop :=
  ∀ x ∈ τ, (∀ ask, x.2 = .ask ask → ask = .request .stop) ∧ x.2 ≠ .takeSignal

/-- The exit reason is a panic exactly if a callback panicked, and then that of the first one. -/
def Reported (τ : List (State × Act)) (reason : ExitReason) : Prop :=
  ((∃ msg, reason = .panic msg) ↔ panics τ ≠ []) ∧ ∀ first ∈ (panics τ).head?, reason = first

theorem panics_snoc (x : State × Act) : panics (τ ++ [x]) = panics τ ++ (panicOf x).toList := by
  simp only [panics, List.filterMap_append, List.filterMap_cons, List.filterMap_nil]
  cases panicOf x <;> rfl

theorem panicOf_of_ne (h : ∀ msg, a ≠ .panic msg) : panicOf (s, a) = none ∧ Swallowed (s, a) = false := by
  constructor
  · unfold panicOf
    split
    case h_1 msg callback ha _ => exact absurd ha (h msg)
    case h_2 => rfl
  · unfold Swallowed
    split
    case h_1 msg reason ha _ => exact absurd ha (h msg)
    case h_2 => rfl

theorem panicReason_eq (callback : Callback) (msg : String) : ∃ text, callback.panicReason msg = .panic text := by
  cases callback <;> exact ⟨_, rfl⟩

theorem mem_panics {reason : ExitReason} (h : reason ∈ panics τ) : ∃ text, reason = .panic text := by
  obtain ⟨x, -, hx⟩ := List.mem_filterMap.mp h
  unfold panicOf at hx
  split at hx
  case h_1 msg callback _ _ =>
    obtain ⟨text, htext⟩ := panicReason_eq callback msg
    exact ⟨text, (Option.some.inj hx).symm.trans htext⟩
  case h_2 => cases hx

/-- The reason so far is the first panic, unless the panic was swallowed. -/
def OwnReason (ps : List ExitReason) (swallowed : Prop) (reason : ExitReason) : Prop :=
  (¬swallowed ∧ reason = ps.head?.getD .normal) ∨ (swallowed ∧ reason = .normal ∧ ps ≠ [])

/-- What is known of the panics so far at each point of the run loop. -/
def ToldAt (ps : List ExitReason) (swallowed : Prop) : Pc → Prop
  | .signalled => False
  | .running .started | .running .handler | .running .exitReceived | .launched | .recv | .handled => ps = [] ∧ ¬swallowed
  | .running (.stopped true reason) | .stopCheck true reason => ps = [] ∧ ¬swallowed ∧ reason = .normal
  | .running (.stopped false reason) | .stopCheck false reason | .cancel reason =>
    ¬swallowed ∧ reason = ps.head?.getD .normal
  | .resolve reason | .exited reason => OwnReason ps swallowed reason
  | .resolveLinked => OwnReason ps swallowed .normal

/-- The invariant of the runs in which no reason is requested. -/
structure Told (ps : List ExitReason) (swallowed : Prop) (s : State) : Prop where
  calls : ∀ call ∈ s.calls, ∀ w ∈ call, w = .cancel
  requested : s.cell.requestedExit = none
  linked : s.cell.linkedReason = none
  here : ToldAt ps swallowed s.pc

namespace Told

variable {ps : List ExitReason} {swallowed : Prop}

theorem goes (h : Told ps swallowed s) {cell : ActorCell} {pc : Pc} {signals : Nat}
    (hreq : cell.requestedExit = s.cell.requestedExit) (hlinked : cell.linkedReason = s.cell.linkedReason)
    (hto : ToldAt ps swallowed pc) : Told ps swallowed { s with cell, pc, signals } :=
  ⟨h.calls, hreq.trans h.requested, hlinked.trans h.linked, hto⟩

theorem loop (h : Told ps swallowed s) {cell : ActorCell} {pc : Pc} (hloop : Loop s.cell s.pc cell pc) :
    Told ps swallowed { s with cell, pc } := by
  have hhere := h.here
  generalize s.pc = here at hloop hhere
  cases hloop with
  | early => exact h.goes rfl rfl ⟨hhere.1, hhere.2, rfl⟩
  | serve _ hfrom =>
    rcases hfrom with rfl | rfl
    · exact h.goes rfl rfl hhere
    · exact h.goes rfl rfl hhere
  | signalled => exact hhere.elim
  | leave =>
    refine h.goes rfl rfl ⟨hhere.2, ?_⟩
    rw [hhere.1]
    rfl
  | cancel reason =>
    refine h.goes ?_ ?_ ?_
    · rfl
    · rfl
    · exact hhere
  | skip early reason hskip =>
    cases early with
    | true => exact h.goes rfl rfl (Or.inl ⟨hhere.2.1, by rw [hhere.1]; exact hhere.2.2⟩)
    | false => exact h.goes rfl rfl (Or.inl hhere)
  | stopped early reason hskip => cases early <;> exact h.goes rfl rfl hhere
  | requested reason requested hreq =>
    rw [h.requested] at hreq
    cases hreq
  | unrequested hreq => exact h.goes rfl rfl hhere
  | own reason hreq hreason => exact h.goes rfl rfl hhere
  | linked =>
    refine h.goes rfl h.linked.symm ?_
    rw [h.linked]
    exact hhere

/-- A panic of a callback. That of the `stopped` of an actor cancelled before its loop is lost. -/
theorem panic (h : Told ps swallowed s) (hps : ∀ reason ∈ ps, ∃ text, reason = .panic text) {msg : String}
    {callback : Callback} {cell : ActorCell} (hpc : s.pc = .running callback) (hcell : cell = s.cell ∨ cell = s.cell.stop) :
    Told (ps ++ [callback.panicReason msg]) (swallowed ∨ Swallowed (s, .panic msg) = true)
      { s with cell, pc := callback.unwind msg } := by
  have hhere := h.here
  rw [hpc] at hhere
  have hreq : cell.requestedExit = none := by rcases hcell with rfl | rfl <;> exact h.requested
  have hlinked : cell.linkedReason = none := by rcases hcell with rfl | rfl <;> exact h.linked
  refine ⟨h.calls, hreq, hlinked, ?_⟩
  have hfirst : ∀ {reason : ExitReason}, ps = [] → reason = (ps ++ [reason]).head?.getD .normal := by
    rintro reason rfl
    rfl
  cases callback with
  | started => exact Or.inl ⟨by simpa [Swallowed, hpc] using hhere.2, hfirst hhere.1⟩
  | handler => exact ⟨by simpa [Swallowed, hpc] using hhere.2, hfirst hhere.1⟩
  | exitReceived => exact ⟨by simpa [Swallowed, hpc] using hhere.2, hfirst hhere.1⟩
  | stopped early reason =>
    cases early with
    | true => exact Or.inr ⟨by simp [Swallowed, hpc], by simpa using hhere.2.2, by simp⟩
    | false =>
      refine Or.inl ⟨by simpa [Swallowed, hpc] using hhere.1, ?_⟩
      obtain ⟨-, hreason⟩ := hhere
      cases ps with
      | nil =>
        obtain rfl : reason = .normal := hreason
        rfl
      | cons first rest =>
        -- a handler panicked before, and that is the reason
        obtain rfl : reason = first := hreason
        obtain ⟨text, rfl⟩ := hps _ (List.mem_cons_self ..)
        rfl

theorem step (h : Told ps swallowed s) (hps : ∀ reason ∈ ps, ∃ text, reason = .panic text) (hstep : Step s a s')
    (hask : ∀ ask, a = .ask ask → ask = .request .stop) (hsignal : a ≠ .takeSignal) :
    Told (ps ++ (panicOf (s, a)).toList) (swallowed ∨ Swallowed (s, a) = true) s' := by
  have hother : (∀ msg, a ≠ .panic msg) → Told ps swallowed s' →
      Told (ps ++ (panicOf (s, a)).toList) (swallowed ∨ Swallowed (s, a) = true) s' := by
    intro hne htold
    obtain ⟨hnone, hkept⟩ := panicOf_of_ne (s := s) hne
    simpa [hnone, hkept] using htold
  have hhere := h.here
  cases step_cases hstep with
  | ask ask =>
    refine hother (by simp) ⟨?_, h.requested, h.linked, hhere⟩
    obtain rfl := hask ask rfl
    intro call hcall
    rcases List.mem_append.mp hcall with hcall | hcall
    · exact h.calls call hcall
    · rw [List.mem_singleton.mp hcall]
      simp [Ask.writes]
  | write i w rest hcall =>
    have hmem := List.mem_of_getElem? hcall
    obtain rfl := h.calls _ hmem w (List.mem_cons_self ..)
    refine hother (by simp) ⟨?_, h.requested, h.linked, hhere⟩
    intro call hc
    rcases List.mem_or_eq_of_mem_set hc with hc | rfl
    · exact h.calls call hc
    · exact fun w' hw' => h.calls _ hmem w' (List.mem_cons_of_mem _ hw')
  | osSignal => exact hother (by simp) ⟨h.calls, h.requested, h.linked, hhere⟩
  | loop hloop => exact hother (by simp) (h.loop hloop)
  | ctxStop callback hpc => exact hother (by simp) ⟨h.calls, h.requested, h.linked, hhere⟩
  | returns callback hpc =>
    refine hother (by simp) (h.goes rfl rfl ?_)
    rw [hpc] at hhere
    cases callback with
    | stopped early reason =>
      cases early with
      | true => exact Or.inl ⟨hhere.2.1, by rw [hhere.1]; exact hhere.2.2⟩
      | false => exact Or.inl hhere
    | _ => exact hhere
  | panic msg callback cell hpc hcell =>
    have hpanic : panicOf (s, .panic msg) = some (callback.panicReason msg) := by simp [panicOf, hpc]
    rw [hpanic]
    exact h.panic hps hpc hcell
  | takeMessage hpc =>
    rw [hpc] at hhere
    exact hother (by simp) (h.goes rfl rfl hhere)
  | takeExit hpc =>
    rw [hpc] at hhere
    exact hother (by simp) (h.goes rfl rfl hhere)
  | takeSignal hpc => exact absurd rfl hsignal
  | leave _ ha hpc =>
    rw [hpc] at hhere
    refine hother (by rcases ha with rfl | rfl <;> simp) (h.goes rfl rfl ⟨hhere.2, ?_⟩)
    rw [hhere.1]
    rfl

end Told

theorem Told.run (h : Run Step {} τ s) (hreason : NoReason τ) :
    Told (panics τ) (∃ x ∈ τ, Swallowed x = true) s := by
  induction h with
  | nil => exact ⟨by simp, rfl, rfl, rfl, by simp⟩
  | @snoc τ s a s' _ hstep ih =>
    have htold := ih fun x hx => hreason x (by simp [hx])
    obtain ⟨hask, hsignal⟩ := hreason (s, a) (by simp)
    have hnext := htold.step (fun _ => mem_panics) hstep hask hsignal
    rw [panics_snoc, exists_mem_snoc]
    exact hnext

/-- **A panic is never swallowed, unless it is in the `stopped` of an actor cancelled before its loop.** In every run in
which no reason is requested and no exit signal cancels the actor, the exit reason is a panic exactly if a callback
panicked, with the message of the first one, if and only if no such `stopped` panics. -/
theorem panic_reported_iff {τ : List (State × Act)} {s : State} {reason : ExitReason} (h : Run Step {} τ s)
    (hreason : NoReason τ) (hexited : s.pc = .exited reason) : Reported τ reason ↔ ∀ x ∈ τ, Swallowed x = false := by
  have hhere := (Told.run h hreason).here
  rw [hexited] at hhere
  rcases hhere with ⟨hkept, hfirst⟩ | ⟨hswallowed, hnormal, hne⟩
  · have hall : ∀ x ∈ τ, Swallowed x = false := fun x hx => by
      by_contra hx'
      exact hkept ⟨x, hx, by simpa using hx'⟩
    refine iff_of_true ?_ hall
    cases hps : panics τ with
    | nil =>
      rw [hps] at hfirst
      obtain rfl : reason = .normal := hfirst
      simp [Reported, hps]
    | cons first rest =>
      rw [hps] at hfirst
      obtain rfl : reason = first := hfirst
      obtain ⟨text, rfl⟩ := mem_panics (by rw [hps]; exact List.mem_cons_self .. : reason ∈ panics τ)
      simp [Reported, hps]
  · refine iff_of_false ?_ ?_
    · rintro ⟨hiff, -⟩
      obtain ⟨msg, hmsg⟩ := hiff.mpr hne
      rw [hnormal] at hmsg
      cases hmsg
    · intro hall
      obtain ⟨x, hx, hx'⟩ := hswallowed
      rw [hall x hx] at hx'
      cases hx'

/-- A handler panics, and then `stopped` too: the reason is the first panic. -/
theorem first_panic_reported :
    ∃ (τ : List (State × Act)) (s : State), Run Step {} τ s ∧ s.pc = .exited (.panic "panic in handler: boom") ∧
      Reported τ (.panic "panic in handler: boom") := by
  have hrun := run_tryPlay next {} [.returns, .step, .takeMessage, .panic "boom", .step, .step, .panic "again", .step]
    (by decide)
  have hreason : NoReason ((tryPlay next {} [.returns, .step, .takeMessage, .panic "boom", .step, .step, .panic "again",
      .step]).get (by decide)).1 := by
    refine forall_mem_tryPlay next {} _
      (P := fun a => (∀ ask, a = .ask ask → ask = .request .stop) ∧ a ≠ .takeSignal) (by decide) ?_
    simp
  exact ⟨_, _, hrun, by decide, (panic_reported_iff hrun hreason (by decide)).mpr (by decide)⟩

/-- `started` calls `ctx.stop()` and `stopped` panics: the actor exits with `Normal`. -/
theorem stopped_panic_swallowed :
    ∃ (τ : List (State × Act)) (s : State), Run Step {} τ s ∧ NoReason τ ∧ s.pc = .exited .normal ∧
      panics τ = [.panic "panic in stopped(): boom"] := by
  have hrun := run_tryPlay next {} [.ctxStop, .returns, .step, .step, .panic "boom", .step, .step] (by decide)
  refine ⟨_, _, hrun, ?_, by decide, by decide⟩
  refine forall_mem_tryPlay next {} _
    (P := fun a => (∀ ask, a = .ask ask → ask = .request .stop) ∧ a ≠ .takeSignal) (by decide) ?_
  simp

end RunActor

end Spawned
