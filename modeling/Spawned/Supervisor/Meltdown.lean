import Spawned.Actor.Simulate
import Spawned.Supervisor.Trapping

/-!
# The exit reason after a meltdown

A meltdown calls `ctx.stop()`, which cancels the supervisor and records no reason. Its final reason is then put together
by the rest of `run_actor` from the outcome of its callbacks, the requested and the linked reason.

* `Melts` : the step at which the engine answers an exit with `Meltdown`;
* `MeltInv` : what the callbacks' outcome and the two slots can be at each point of the loop;
* `meltdown_reason_iff` : the final reason is abnormal exactly when a Kill signal reached the supervisor or one of its
  callbacks panicked.
-/

namespace Spawned

open Lib

variable {S M R : Type} {c : Callbacks S M R} {me : ActorAddress} {s s' : System S M} {a : SysAct M}

/-- A Kill signal of a linked actor reaches the supervisor before its reason is resolved. -/
def KillReaches (me : ActorAddress) (x : System S M × SysAct M) : Prop :=
  (∃ sender, Signals me x.1 sender .kill x.2) ∧ ∀ reason, x.1.pc ≠ .exited reason

/-- A callback panics. -/
def Panics (x : System S M × SysAct M) : Prop := ∃ msg, x.2 = .panic msg

/-- The engine answers the exit being handled with `Meltdown`. -/
def Melts (logic : S → SupervisorLogic) (x : System S M × SysAct M) : Prop :=
  ∃ st exit now prog, x.1.pc = .running (.handler st (.exit exit)) prog ∧ x.2 = .call ⟨.now, now⟩ ∧
    ((logic st).onChildExit exit.from.actorId exit.reason now).1 = .meltdown

/-- A meltdown is decided in a handler. -/
theorem melts_handler {logic : S → SupervisorLogic} (x : System S M × SysAct M) (h : Melts logic x) :
    ∃ st event prog, x.1.pc = .running (.handler st event) prog := by
  obtain ⟨st, exit, now, prog, hpc, -⟩ := h
  exact ⟨st, _, prog, hpc⟩

/-! ## The slots -/

/-- Nothing was requested, and the linked reason is Kill exactly if a Kill signal came. -/
def Linked (killed : Prop) (cell : ActorCell) : Prop :=
  cell.requestedExit = none ∧ ((killed ∧ cell.linkedReason = some .kill) ∨ (¬killed ∧ cell.linkedReason = none))

/-- Nothing was requested, and a supervisor with a linked reason is cancelled. -/
def Starting (killed : Prop) (cell : ActorCell) : Prop :=
  cell.requestedExit = none ∧ ((killed ∨ cell.linkedReason ≠ none) → cell.cancelled = true)

/-- A step gives the supervisor at most one signal. -/
theorem signals_inj {sender sender' : ActorId} {reason reason' : ExitReason} (h : Signals me s sender reason a)
    (h' : Signals me s sender' reason' a) : reason = reason' := by
  cases a with
  | signal sender₀ reason₀ => exact h.2.trans h'.2.symm
  | exit kid =>
    obtain ⟨-, entries, h⟩ := h
    obtain ⟨-, entries', h'⟩ := h'
    rw [h] at h'
    exact (Prod.mk.inj (Option.some.inj h')).1
  | link kid =>
    have heq := h.2.symm.trans h'.2
    simpa using heq
  | _ => cases h

/-- What a signal does to the two slots of a trapping actor. -/
theorem makeSignal_linked {here : NodeId} {sender : ActorId} {reason : ExitReason} {cell : ActorCell} {killed : Prop}
    (htrap : cell.trapExit = true) (h : Linked killed cell) :
    Linked (killed ∨ reason = .kill) (makeSignal here sender reason cell) := by
  obtain ⟨hreq, hlinked⟩ := h
  by_cases hkill : reason = .kill
  · subst hkill
    refine ⟨by simpa [makeSignal] using hreq, Or.inl ⟨Or.inr rfl, ?_⟩⟩
    rcases hlinked with ⟨-, hlinked⟩ | ⟨-, hlinked⟩ <;> simp [makeSignal, hlinked]
  · have hslots : (makeSignal here sender reason cell).requestedExit = cell.requestedExit ∧
        (makeSignal here sender reason cell).linkedReason = cell.linkedReason := by
      unfold makeSignal
      split_ifs <;> simp_all
    simpa [Linked, hslots.1, hslots.2, hkill] using ⟨hreq, hlinked⟩

theorem makeSignal_starting {here : NodeId} {sender : ActorId} {reason : ExitReason} {cell : ActorCell} {killed : Prop}
    (h : Starting killed cell) : Starting (killed ∨ reason = .kill) (makeSignal here sender reason cell) := by
  obtain ⟨hreq, hlinked⟩ := h
  unfold makeSignal
  split_ifs with hkill hnormal htrap hopen
  · exact ⟨hreq, fun _ => rfl⟩
  · refine ⟨hreq, ?_⟩
    simpa [hkill] using hlinked
  · refine ⟨hreq, ?_⟩
    simpa [hkill] using hlinked
  · refine ⟨hreq, ?_⟩
    simpa [hkill] using hlinked
  · exact ⟨hreq, fun _ => rfl⟩

/-- Only a request writes the requested reason, and only a signal the linked one. -/
theorem OwnStep.slots {cell cell' : ActorCell} (hown : OwnStep me a s' cell cell') (hno : ¬Requested me a) :
    cell'.requestedExit = cell.requestedExit ∧ cell'.linkedReason = cell.linkedReason := by
  cases hown with
  | table htable =>
    obtain ⟨links, rfl⟩ := htable
    exact ⟨rfl, rfl⟩
  | sendExit ha =>
    unfold ActorCell.sendExit
    split_ifs <;> exact ⟨rfl, rfl⟩
  | requested hreq => exact absurd hreq hno
  | _ => exact ⟨rfl, rfl⟩

/-! ## The loop -/

/-- The outcome of the callbacks: a panic of one of them, or a normal one. -/
def Outcome (panicked : Prop) (reason : ExitReason) : Prop :=
  (reason = .normal ∧ ¬panicked) ∨ (reason.isAbnormal = true ∧ panicked)

/-- What the slots and the outcome can be at each point of the loop. A supervisor cancelled before its loop has handled
no exit, so it has not melted down. -/
def MeltInv (killed panicked melted : Prop) (cell : ActorCell) : RunPc S M → Prop
  | .running .started _ | .launched _ => ¬panicked ∧ ¬melted ∧ Starting killed cell
  | .receiving _ | .handled _ | .running (.handler _ _) _ => ¬panicked ∧ Linked killed cell
  | .closing _ reason | .stopCheck false _ reason | .running (.stopped false reason) _ =>
    Linked killed cell ∧ Outcome panicked reason
  | .stopCheck true _ _ | .running (.stopped true _) _ => ¬melted
  | .resolving reason => ¬melted ∨ Linked killed cell ∧ Outcome panicked reason
  | .resolvingLinked => ¬melted ∨ Linked killed cell ∧ ¬panicked
  | .exited reason => ¬melted ∨ (reason.isAbnormal = true ↔ killed ∨ panicked)

section Loop

variable {killed killed' panicked melted melted' : Prop} {cell cell' : ActorCell} {pc pc' : RunPc S M}

/-- The cells change, at the same point of the loop. -/
theorem MeltInv.frame (h : MeltInv killed panicked melted cell pc)
    (hstarting : Starting killed cell → Starting killed' cell')
    (hlinked : (∀ prog, pc ≠ .running .started prog) → Linked killed cell → Linked killed' cell')
    (hexited : ∀ reason, pc = .exited reason → (killed' ↔ killed)) : MeltInv killed' panicked melted cell' pc := by
  cases pc with
  | running cb prog =>
    cases cb with
    | started => exact ⟨h.1, h.2.1, hstarting h.2.2⟩
    | handler st event => exact ⟨h.1, hlinked (by simp) h.2⟩
    | stopped early reason =>
      cases early with
      | false => exact ⟨hlinked (by simp) h.1, h.2⟩
      | true => exact h
  | launched st => exact ⟨h.1, h.2.1, hstarting h.2.2⟩
  | receiving st => exact ⟨h.1, hlinked (by simp) h.2⟩
  | handled st => exact ⟨h.1, hlinked (by simp) h.2⟩
  | closing st reason => exact ⟨hlinked (by simp) h.1, h.2⟩
  | stopCheck early st reason =>
    cases early with
    | false => exact ⟨hlinked (by simp) h.1, h.2⟩
    | true => exact h
  | resolving reason => exact h.imp_right fun h => ⟨hlinked (by simp) h.1, h.2⟩
  | resolvingLinked => exact h.imp_right fun h => ⟨hlinked (by simp) h.1, h.2⟩
  | exited reason =>
    have hiff := hexited reason rfl
    exact h.imp_right fun h => by rw [hiff]; exact h

/-- Only a handler melts down. -/
theorem MeltInv.melt (h : MeltInv killed panicked melted cell pc)
    (hmelt : (∀ st event prog, pc ≠ .running (.handler st event) prog) → melted' → melted) :
    MeltInv killed panicked melted' cell pc := by
  cases pc with
  | running cb prog =>
    cases cb with
    | started => exact ⟨h.1, fun hm => h.2.1 (hmelt (by simp) hm), h.2.2⟩
    | handler st event => exact h
    | stopped early reason =>
      cases early with
      | false => exact h
      | true => exact fun hm => h (hmelt (by simp) hm)
  | launched st => exact ⟨h.1, fun hm => h.2.1 (hmelt (by simp) hm), h.2.2⟩
  | receiving st => exact h
  | handled st => exact h
  | closing st reason => exact h
  | stopCheck early st reason =>
    cases early with
    | false => exact h
    | true => exact fun hm => h (hmelt (by simp) hm)
  | resolving reason => exact h.imp_left fun h hm => h (hmelt (by simp) hm)
  | resolvingLinked => exact h.imp_left fun h hm => h (hmelt (by simp) hm)
  | exited reason => exact h.imp_left fun h hm => h (hmelt (by simp) hm)

theorem MeltInv.advance {w w' : Cells} (h : MeltInv killed panicked melted (w me.actorId) pc)
    (hadv : Advance c me.actorId w pc pc' w') : MeltInv killed panicked melted (w' me.actorId) pc' := by
  cases hadv with
  | started => exact h
  | handled => exact h
  | @stopped early reason st =>
    cases early with
    | false => exact Or.inr h
    | true => exact Or.inl h
  | early _ => exact h.2.1
  | serve hcancelled =>
    -- a supervisor that has got a signal by now is cancelled
    obtain ⟨hpanic, -, hreq, hcancel⟩ := h
    have hnone : ¬(killed ∨ (w me.actorId).linkedReason ≠ none) := fun hor => by
      simp [hcancel hor] at hcancelled
    rw [not_or, not_not] at hnone
    exact ⟨hpanic, hreq, Or.inr hnone⟩
  | shutdown _ => exact ⟨h.2, Or.inl ⟨rfl, h.1⟩⟩
  | leave _ => exact ⟨h.2, Or.inl ⟨rfl, h.1⟩⟩
  | again _ => exact h
  | cancel =>
    rw [Cells.modify_self]
    exact h
  | @skip early st reason _ =>
    cases early with
    | false => exact Or.inr h
    | true => exact Or.inl h
  | @stop early st reason _ =>
    cases early with
    | false => exact h
    | true => exact h
  | requested hreq =>
    refine h.imp_right fun ⟨hlinked, _⟩ => ?_
    rw [hlinked.1] at hreq
    cases hreq
  | abnormal _ hreason =>
    refine h.imp_right fun ⟨_, houtcome⟩ => ?_
    rcases houtcome with ⟨hnormal, -⟩ | ⟨habnormal, hpanic⟩
    · exact absurd hnormal hreason
    · simp [habnormal, hpanic]
  | unrequested _ =>
    refine h.imp_right fun ⟨hlinked, houtcome⟩ => ⟨hlinked, ?_⟩
    rcases houtcome with ⟨-, hpanic⟩ | ⟨habnormal, -⟩
    · exact hpanic
    · cases habnormal
  | linked hreason =>
    refine h.imp_right fun ⟨⟨_, hlinked⟩, hpanic⟩ => ?_
    rcases hlinked with ⟨hkilled, hkill⟩ | ⟨-, hnone⟩
    · rw [hkill] at hreason
      cases hreason
      simp [hkilled, ExitReason.isAbnormal]
    · rw [hnone] at hreason
      cases hreason
  | normal hnone =>
    refine h.imp_right fun ⟨⟨_, hlinked⟩, hpanic⟩ => ?_
    rcases hlinked with ⟨-, hkill⟩ | ⟨hkilled, -⟩
    · rw [hkill] at hnone
      cases hnone
    · simp [hkilled, hpanic, ExitReason.isAbnormal]

/-- A panic ends the callback, and is the outcome unless the supervisor never came to its loop. -/
theorem MeltInv.unwind {panicked' : Prop} {cb : Callback S M} {prog : SupProg S} {w : Cells} {msg : String} {st : S}
    (h : MeltInv killed panicked melted (w me.actorId) (.running cb prog)) (hpanic : panicked') :
    MeltInv killed panicked' melted ((cb.unwind me.actorId w msg st).2 me.actorId) (cb.unwind me.actorId w msg st).1 := by
  cases cb with
  | started => exact Or.inl h.2.1
  | handler st₀ event =>
    cases event with
    | exit exit => exact ⟨h.2, Or.inr ⟨rfl, hpanic⟩⟩
    | message msg => exact ⟨h.2, Or.inr ⟨rfl, hpanic⟩⟩
  | stopped early reason =>
    cases early with
    | true => exact Or.inl h
    | false =>
      refine Or.inr ⟨h.1, Or.inr ⟨?_, hpanic⟩⟩
      cases habnormal : reason.isAbnormal with
      | true => simpa using habnormal
      | false => rfl

/-- The running callback goes on. -/
theorem MeltInv.answer {cb : Callback S M} {prog prog' : SupProg S}
    (h : MeltInv killed panicked melted cell (.running cb prog)) :
    MeltInv killed panicked melted cell (.running cb prog') := by
  cases cb with
  | started => exact h
  | handler st event => exact h
  | stopped early reason =>
    cases early with
    | true => exact h
    | false => exact h

end Loop

section Run

variable {hist : List (System S M × SysAct M)} {P : System S M × SysAct M → Prop} {killed panicked melted : Prop}

/-- The cells of the supervisor change as the signals so far say. -/
theorem MeltInv.own (hwf : s.WF me) (harmed : Armed me s ∨ Unarmed s) (hno : ¬Requested me a)
    (hstep : SysStep c me s a s') (h : MeltInv killed panicked melted (s.cells me.actorId) s.pc) :
    MeltInv (killed ∨ KillReaches me (s, a)) panicked melted (s'.cells me.actorId) s.pc := by
  rcases hstep.own hwf with ⟨sender, reason, hsignal, hcell⟩ | ⟨hquiet, hown⟩
  · rw [hcell]
    have hkill : (∀ reason', s.pc ≠ .exited reason') → (KillReaches me (s, a) ↔ reason = .kill) := by
      intro hpc
      refine ⟨fun ⟨⟨_, hs⟩, _⟩ => signals_inj hsignal hs, ?_⟩
      rintro rfl
      exact ⟨⟨sender, hsignal⟩, hpc⟩
    by_cases hexited : ∃ reason', s.pc = .exited reason'
    · obtain ⟨reason', hpc⟩ := hexited
      have hnot : ¬KillReaches me (s, a) := fun hk => hk.2 reason' hpc
      rw [hpc] at h ⊢
      simpa [MeltInv, hnot] using h
    · rw [hkill (by simpa using hexited)]
      refine h.frame makeSignal_starting (fun hpc hl => makeSignal_linked ?_ hl) fun r hr => absurd ⟨r, hr⟩ hexited
      rcases harmed with harmed | ⟨-, -, ⟨k, hk, -⟩ | hk⟩
      · exact harmed.1
      · exact absurd hk (hpc _)
      · exact absurd hk hexited
  · have hnot : ¬KillReaches me (s, a) := fun ⟨⟨sender, hs⟩, _⟩ => hquiet sender _ hs
    obtain ⟨hreq, hlinked⟩ := hown.slots hno
    simp only [hnot, or_false]
    refine h.frame (fun hs => ?_) (fun _ hl => ?_) fun _ _ => Iff.rfl
    · exact ⟨hreq.trans hs.1, fun hor => hown.cancelled (hs.2 (hlinked ▸ hor))⟩
    · rw [Linked, hreq, hlinked]
      exact hl

theorem MeltInv.step (hwf : s.WF me) (harmed : Armed me s ∨ Unarmed s) (hno : ¬Requested me a)
    (hP : P (s, a) → ∃ st event prog, s.pc = .running (.handler st event) prog) (hstep : SysStep c me s a s')
    (h : MeltInv killed panicked melted (s.cells me.actorId) s.pc) :
    MeltInv (killed ∨ KillReaches me (s, a)) (panicked ∨ Panics (s, a)) (melted ∨ P (s, a)) (s'.cells me.actorId)
      s'.pc := by
  have hmelt : MeltInv killed panicked (melted ∨ P (s, a)) (s.cells me.actorId) s.pc := by
    refine h.melt fun hother hm => hm.resolve_right fun hp => ?_
    obtain ⟨st, event, prog, hpc⟩ := hP hp
    exact hother st event prog hpc
  have hown := hmelt.own hwf harmed hno hstep
  generalize (melted ∨ P (s, a)) = melted' at hmelt hown
  cases hstep with
  | call x hpc he =>
    rw [hpc] at hown
    simpa [Panics] using hown.answer
  | linked hlinking hpc =>
    rw [hpc] at hown
    simpa [Panics] using hown.answer
  | advance hadv => simpa [Panics, KillReaches, Signals] using hmelt.advance hadv
  | panic msg st hpc hlinking =>
    rw [hpc] at hmelt
    have hnot : ¬KillReaches me (s, .panic msg) := fun ⟨⟨_, hs⟩, _⟩ => hs
    simp only [hnot, or_false]
    exact hmelt.unwind (Or.inr ⟨msg, rfl⟩)
  | takeExit hpc hnext =>
    rw [hpc] at hown
    simp only [Panics, reduceCtorEq, exists_false, or_false]
    exact hown
  | message msg hpc =>
    rw [hpc] at hown
    simp only [Panics, reduceCtorEq, exists_false, or_false]
    exact hown
  | osSignal hpc => exact absurd rfl hno
  | disconnect hpc =>
    rw [hpc] at hown
    simpa [Panics] using ⟨hown.2, Or.inl ⟨rfl, hown.1⟩⟩
  | _ => simpa [Panics] using hown

theorem meltInv_init (c : Callbacks S M R) (me : ActorAddress) (w : Cells) (s₀ : S) :
    MeltInv False False False ((System.init c me w s₀ : System S M).cells me.actorId) (System.init c me w s₀).pc := by
  refine ⟨id, id, ?_⟩
  simp [Starting, System.init]

theorem meltInv_run (hc : c.Trapping) {w : Cells} {s₀ : S}
    (hP : ∀ x, P x → ∃ st event prog, x.1.pc = .running (.handler st event) prog)
    (h : Run (SysStep c me) (System.init c me w s₀) hist s) (hno : ∀ x ∈ hist, ¬Requested me x.2) :
    MeltInv (∃ x ∈ hist, KillReaches me x) (∃ x ∈ hist, Panics x) (∃ x ∈ hist, P x) (s.cells me.actorId) s.pc := by
  induction h with
  | nil => simpa using meltInv_init c me w s₀
  | @snoc τ s a s' hr hstep ih =>
    obtain ⟨hwf, harmed⟩ := armed_of_runs hc hr
    simp only [exists_mem_snoc]
    exact MeltInv.step hwf harmed (hno (s, a) (by simp)) (hP (s, a)) hstep (ih fun x hx => hno x (by simp [hx]))

end Run

/-- The final reason after a meltdown, for any actor with an engine of its own that traps exits. -/
theorem reason_iff_of_melts (hc : c.Trapping) (logic : S → SupervisorLogic) {w : Cells} {s₀ : S}
    {hist : List (System S M × SysAct M)} {reason : ExitReason}
    (h : Run (SysStep c me) (System.init c me w s₀) hist s) (hmelts : ∃ x ∈ hist, Melts logic x)
    (hno : ∀ x ∈ hist, ¬Requested me x.2) (hpc : s.pc = .exited reason) :
    reason.isAbnormal = true ↔ (∃ x ∈ hist, KillReaches me x) ∨ ∃ x ∈ hist, Panics x := by
  have hinv := meltInv_run (P := Melts logic) hc melts_handler h hno
  rw [hpc] at hinv
  exact hinv.resolve_left (not_not_intro hmelts)

/-- **The final reason of a supervisor that has melted down**, when nobody asked it to stop, to shut down or killed it: it
is abnormal if and only if a Kill signal of a linked actor reached it before the reason was resolved, or one of its
callbacks panicked. -/
theorem meltdown_reason_iff (rt : Runtime) (ctx : Context) :
    (∀ (w : Cells) (s₀ : Supervisor) (hist : List (System Supervisor Empty × SysAct Empty)) (s : System Supervisor Empty)
      (reason : ExitReason),
      Run (SysStep (rt.supervisor ctx) ctx.actorAddress) (System.init (rt.supervisor ctx) ctx.actorAddress w s₀) hist s →
      (∃ x ∈ hist, Melts Supervisor.logic x) → (∀ x ∈ hist, ¬Requested ctx.actorAddress x.2) → s.pc = .exited reason →
      (reason.isAbnormal = true ↔ (∃ x ∈ hist, KillReaches ctx.actorAddress x) ∨ ∃ x ∈ hist, Panics x)) ∧
    (∀ (w : Cells) (s₀ : DynamicSupervisor) (hist : List (System DynamicSupervisor DynMsg × SysAct DynMsg))
      (s : System DynamicSupervisor DynMsg) (reason : ExitReason),
      Run (SysStep (rt.dynamicSupervisor ctx) ctx.actorAddress)
        (System.init (rt.dynamicSupervisor ctx) ctx.actorAddress w s₀) hist s →
      (∃ x ∈ hist, Melts DynamicSupervisor.logic x) → (∀ x ∈ hist, ¬Requested ctx.actorAddress x.2) →
      s.pc = .exited reason →
      (reason.isAbnormal = true ↔ (∃ x ∈ hist, KillReaches ctx.actorAddress x) ∨ ∃ x ∈ hist, Panics x)) :=
  ⟨fun _ _ _ _ _ h hmelts hno hpc => reason_iff_of_melts (trapping_supervisor rt ctx) _ h hmelts hno hpc,
    fun _ _ _ _ _ h hmelts hno hpc => reason_iff_of_melts (trapping_dynamicSupervisor rt ctx) _ h hmelts hno hpc⟩

/-! ## Two meltdowns -/

/-- A supervisor that restarts nothing, and its one child (actor 2), which exits. -/
def brittleRun : List (System Supervisor Empty × SysAct Empty) × System Supervisor Empty :=
  let c := Runtime.supervisor .tasks ⟨⟨"n", 0⟩⟩
  let b : SupervisorBuilder := { specs := [{ id := "work", restart := .permanent }], intensity := { maxRestarts := 0 } }
  System.played c ⟨"n", 0⟩ (calmAnswers []) (System.init c ⟨"n", 0⟩ (fun _ => {}) b.build)
    ([Move.own, .own, .spawn 2] ++ List.replicate 6 Move.own ++ [Move.beginExit 2 .normal] ++
      List.replicate 7 (Move.exit 2) ++
      List.replicate 11 Move.own)

/-- The same of a dynamic supervisor. -/
def brittleDynamicRun :
    List (System DynamicSupervisor DynMsg × SysAct DynMsg) × System DynamicSupervisor DynMsg :=
  let c := Runtime.dynamicSupervisor .tasks ⟨⟨"n", 0⟩⟩
  let b : DynamicSupervisorBuilder := { intensity := { maxRestarts := 0 } }
  System.played c ⟨"n", 0⟩ (calmAnswers []) (System.init c ⟨"n", 0⟩ (fun _ => {}) b.build)
    (List.replicate 4 Move.own ++
      [Move.message (DynMsg.startChild { id := "work", restart := .permanent } none), .spawn 2] ++
      List.replicate 6 Move.own ++ [Move.beginExit 2 .normal] ++ List.replicate 7 (Move.exit 2) ++
        List.replicate 11 Move.own)

theorem run_brittle : ∃ w s₀, Run (SysStep (Runtime.supervisor .tasks ⟨⟨"n", 0⟩⟩) ⟨"n", 0⟩)
    (System.init (Runtime.supervisor .tasks ⟨⟨"n", 0⟩⟩) ⟨"n", 0⟩ w s₀) brittleRun.1 brittleRun.2 := by
  unfold brittleRun
  exact ⟨_, _, System.run_played ..⟩

theorem run_brittleDynamic : ∃ w s₀, Run (SysStep (Runtime.dynamicSupervisor .tasks ⟨⟨"n", 0⟩⟩) ⟨"n", 0⟩)
    (System.init (Runtime.dynamicSupervisor .tasks ⟨⟨"n", 0⟩⟩) ⟨"n", 0⟩ w s₀) brittleDynamicRun.1 brittleDynamicRun.2 := by
  unfold brittleDynamicRun
  exact ⟨_, _, System.run_played ..⟩

/-- In both the final reason is normal, so no Kill signal came and nothing panicked. -/
theorem meltdown_reason_brittle :
    ¬((∃ x ∈ brittleRun.1, KillReaches ⟨"n", 0⟩ x) ∨ ∃ x ∈ brittleRun.1, Panics x) ∧
    ¬((∃ x ∈ brittleDynamicRun.1, KillReaches ⟨"n", 0⟩ x) ∨ ∃ x ∈ brittleDynamicRun.1, Panics x) := by
  constructor
  · obtain ⟨w, s₀, hrun⟩ := run_brittle
    have hiff := (meltdown_reason_iff .tasks ⟨⟨"n", 0⟩⟩).1 w s₀ _ _ .normal hrun
      ⟨_, List.mem_of_getElem? (i := 18) rfl, _, _, _, _, rfl, rfl, rfl⟩ (by decide) rfl
    exact hiff.not.mp (by decide)
  · obtain ⟨w, s₀, hrun⟩ := run_brittleDynamic
    have hiff := (meltdown_reason_iff .tasks ⟨⟨"n", 0⟩⟩).2 w s₀ _ _ .normal hrun
      ⟨_, List.mem_of_getElem? (i := 21) rfl, _, _, _, _, rfl, rfl, rfl⟩ (by decide) rfl
    exact hiff.not.mp (by decide)

/-- **A meltdown is a normal exit.** -/
theorem meltdown_exits_normally :
    ¬∀ (rt : Runtime) (ctx : Context) (w : Cells) (s₀ : Supervisor)
      (hist : List (System Supervisor Empty × SysAct Empty)) (s : System Supervisor Empty) (reason : ExitReason),
      Run (SysStep (rt.supervisor ctx) ctx.actorAddress) (System.init (rt.supervisor ctx) ctx.actorAddress w s₀) hist s →
      (∃ x ∈ hist, Melts Supervisor.logic x) → (∀ x ∈ hist, ¬Requested ctx.actorAddress x.2) → s.pc = .exited reason →
      reason.isAbnormal = true := by
  intro h
  obtain ⟨w, s₀, hrun⟩ := run_brittle
  have habnormal := h .tasks ⟨⟨"n", 0⟩⟩ w s₀ _ _ .normal hrun
    ⟨_, List.mem_of_getElem? (i := 18) rfl, _, _, _, _, rfl, rfl, rfl⟩ (by decide) rfl
  exact absurd habnormal (by decide)

end Spawned
