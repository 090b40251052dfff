import Spawned.Actor.System

/-!
# Running the system

`System.perform` takes one step of the system on a `Move`, with a fixed answer to every call, and `System.simulate` a
list of them; what it reaches is reached by a run (`run_simulate`). Concrete runs are evaluated this way.
-/

namespace Spawned

open Lib

/-- Who moves next; `own` is whatever the supervisor does next. -/
inductive Move (M : Type)
  | own
  | spawn (kid : ActorId)
  | message (msg : M)
  /-- a child stops of itself, or because it was asked to -/
  | beginExit (kid : ActorId) (own : ExitReason)
  | exit (kid : ActorId)
  /-- somebody kills a child -/
  | kill (kid : ActorId)

namespace System

variable {S M R : Type} (c : Callbacks S M R) (me : ActorAddress) (answers : (e : SupOp) → e.Ans)

/-- The next step of the run loop, where `Advance` has one. -/
def advance (w : Cells) : RunPc S M → Option (RunPc S M × Cells)
  | .running .started (.pure s) => some (.launched s, w)
  | .running (.handler _ _) (.pure s) => some (.handled s, w)
  | .running (.stopped _ reason) (.pure _) => some (.resolving reason, w)
  | .running _ (.call _ _) => none
  | .launched s => some (bif (w me.actorId).cancelled then .stopCheck true s .normal else .receiving s, w)
  | .receiving s => bif (w me.actorId).cancelled then some (.closing s .normal, w) else none
  | .handled s => some (bif (w me.actorId).cancelled then .closing s .normal else .receiving s, w)
  | .closing s reason => some (.stopCheck false s reason, w.modify me.actorId ActorCell.stop)
  | .stopCheck early s reason =>
    some (bif (w me.actorId).skipStopped then .resolving reason else .running (.stopped early reason) (c.stopped s), w)
  | .resolving reason =>
    match (w me.actorId).requestedExit with
    | some requested => some (.exited requested, w.close me.actorId)
    | none => if reason = .normal then some (.resolvingLinked, w) else some (.exited reason, w.close me.actorId)
  | .resolvingLinked =>
    match (w me.actorId).linkedReason with
    | some linked => some (.exited linked, w.close me.actorId)
    | none => some (.exited .normal, w.close me.actorId)
  | .exited _ => none

variable {c me} in
theorem advance_sound {w w' : Cells} {pc pc' : RunPc S M} (h : advance c me w pc = some (pc', w')) :
    Advance c me.actorId w pc pc' w' := by
  unfold advance at h
  split at h
  · cases h
    exact .started
  · cases h
    exact .handled
  · cases h
    exact .stopped
  · cases h
  · cases hc : (w me.actorId).cancelled <;> rw [hc] at h <;> cases h
    · exact .serve hc
    · exact .early hc
  · cases hc : (w me.actorId).cancelled <;> rw [hc] at h <;> cases h
    exact .shutdown hc
  · cases hc : (w me.actorId).cancelled <;> rw [hc] at h <;> cases h
    · exact .again hc
    · exact .leave hc
  · cases h
    exact .cancel
  · cases hc : (w me.actorId).skipStopped <;> rw [hc] at h <;> cases h
    · exact .stop hc
    · exact .skip hc
  · cases hr : (w me.actorId).requestedExit with
    | some requested =>
      rw [hr] at h
      cases h
      exact .requested hr
    | none =>
      rw [hr] at h
      dsimp only at h
      split_ifs at h with hnormal
      · cases h
        subst hnormal
        exact .unrequested hr
      · cases h
        exact .abnormal hr hnormal
  · cases hl : (w me.actorId).linkedReason with
    | some linked =>
      rw [hl] at h
      cases h
      exact .linked hl
    | none =>
      rw [hl] at h
      cases h
      exact .normal hl
  · cases h

instance (s : System S M) (me : ActorAddress) (kid : ActorId) : Decidable (s.Fresh me kid) :=
  decidable_of_iff (me.actorId ≠ kid ∧ kid ∉ s.kids ∧ s.exits kid = none ∧
      exitsFrom me.node kid (s.cells me.actorId).lane = [])
    ⟨fun h => ⟨h.1, h.2.1, h.2.2.1, h.2.2.2⟩, fun h => ⟨h.1, h.2, h.3, h.4⟩⟩

def ownMove (s : System S M) : Option (SysAct M × System S M) :=
  match s.linking with
  | some (kid, pc) =>
    if pc = .done then
      match s.pc with
      | .running cb (.call (.startChild spec) k) =>
        some (.call ⟨.startChild spec, ⟨kid⟩⟩, { s with pc := .running cb (k ⟨kid⟩), linking := none })
      | _ => none
    else
      some (.link kid, { s with
        linking := some (kid, (linkStep me.node me.actorId kid s.cells pc).1)
        cells := (linkStep me.node me.actorId kid s.cells pc).2 })
  | none =>
    match s.pc with
    | .running _ (.call (.startChild _) _) => none
    | .running cb (.call e k) =>
      some (.call ⟨e, answers e⟩, { s with pc := .running cb (k (answers e)), cells := e.effect me.actorId s.cells })
    | .receiving st =>
      match (s.cells me.actorId).lane[s.taken]? with
      | some exit => some (.takeExit, { s with
          pc := .running (.handler st (.exit exit)) (c.react st (.exit exit)), taken := s.taken + 1 })
      | none => none
    | pc => (advance c me s.cells pc).map fun p => (.advance, { s with pc := p.1, cells := p.2 })

def perform (s : System S M) : Move M → Option (SysAct M × System S M)
  | .own => ownMove c me answers s
  | .spawn kid =>
    match s.pc with
    | .running _ (.call (.startChild _) _) =>
      if s.linking = none ∧ s.Fresh me kid then
        some (.spawn kid, { s with
          cells := Function.update s.cells kid {}, linking := some (kid, .pushOwn), kids := s.kids ++ [kid] })
      else none
    | _ => none
  | .message msg =>
    match s.pc with
    | .receiving st =>
      some (.message msg, { s with pc := .running (.handler st (.message msg)) (c.react st (.message msg)) })
    | _ => none
  | .beginExit kid own =>
    let reason := (resolveExitReason own (s.cells kid).requestedExit (s.cells kid).linkedReason).1
    if kid ∈ s.kids ∧ s.exits kid = none ∧ own ≠ .kill ∧ own ≠ .shutdown then
      some (.beginExit kid reason, { s with
        exits := Function.update s.exits kid (some (reason, .drain)), cells := s.cells.close kid })
    else none
  | .exit kid =>
    match s.exits kid with
    | some (reason, pc) =>
      some (.exit kid, { s with
        exits := Function.update s.exits kid (some (reason, (exitStep me.node kid reason s.cells pc).1))
        cells := (exitStep me.node kid reason s.cells pc).2 })
    | none => none
  | .kill kid =>
    if kid ≠ me.actorId then some (.others, { s with cells := s.cells.modify kid ActorCell.kill }) else none

variable {c me answers} in
theorem ownMove_sound {s s' : System S M} {a : SysAct M} (h : ownMove c me answers s = some (a, s')) :
    SysStep c me s a s' := by
  unfold ownMove at h
  split at h
  · rename_i kid pc hlinking
    split_ifs at h with hdone
    · subst hdone
      split at h
      · rename_i cb spec k hpc
        cases h
        exact .linked hlinking hpc
      · cases h
    · cases h
      exact .link hlinking hdone
  · split at h
    · cases h
    · rename_i cb e k hno hpc
      cases h
      refine .call _ hpc ?_
      rintro spec rfl
      exact hno _ _ rfl HEq.rfl
    · rename_i st hpc
      split at h
      · rename_i exit hnext
        cases h
        exact .takeExit hpc hnext
      · cases h
    · obtain ⟨⟨pc, w⟩, hadv, heq⟩ := Option.map_eq_some_iff.mp h
      cases heq
      exact .advance (advance_sound hadv)

variable {c me answers} in
theorem perform_sound {s s' : System S M} {a : SysAct M} {move : Move M}
    (h : perform c me answers s move = some (a, s')) : SysStep c me s a s' := by
  cases move with
  | own => exact ownMove_sound h
  | spawn kid =>
    simp only [perform] at h
    split at h
    · rename_i cb spec k hpc
      split_ifs at h with hfresh
      cases h
      exact .spawn kid hpc hfresh.1 hfresh.2
    · cases h
  | message msg =>
    simp only [perform] at h
    split at h
    · rename_i st hpc
      cases h
      exact .message msg hpc
    · cases h
  | beginExit kid own =>
    simp only [perform] at h
    split_ifs at h with hkid
    cases h
    obtain ⟨hmem, halive, hkill, hshutdown⟩ := hkid
    refine .beginExit hmem halive (Or.inr ⟨own, ?_, rfl⟩)
    cases own with
    | normal => exact Or.inl rfl
    | panic msg => exact Or.inr ⟨msg, rfl⟩
    | shutdown => exact absurd rfl hshutdown
    | kill => exact absurd rfl hkill
  | exit kid =>
    simp only [perform] at h
    split at h
    · rename_i reason pc hexit
      cases h
      exact .exit hexit
    · cases h
  | kill kid =>
    simp only [perform] at h
    split_ifs at h with hne
    cases h
    refine .others ⟨⟨(s.cells me.actorId).links, ?_⟩, ?_, ?_, ?_⟩
    · rw [Cells.modify_ne _ _ hne.symm]
    · intro k _
      rw [Cells.modify_apply]
      split_ifs <;> rfl
    · intro k _ hnodup
      rw [Cells.modify_apply]
      split_ifs <;> exact hnodup
    · intro k _
      rw [Cells.modify_apply]
      split_ifs <;> rfl

/-- The history and the last state of a list of moves, if all of them can be made. -/
def simulate (s : System S M) : List (Move M) → Option (List (System S M × SysAct M) × System S M)
  | [] => some ([], s)
  | move :: moves =>
    match perform c me answers s move with
    | none => none
    | some (a, s') => (simulate s' moves).map fun p => ((s, a) :: p.1, p.2)

variable {c me answers} in
theorem run_simulate {s s' : System S M} {moves : List (Move M)} {hist : List (System S M × SysAct M)}
    (h : simulate c me answers s moves = some (hist, s')) : Run (SysStep c me) s hist s' := by
  induction moves generalizing s hist with
  | nil =>
    cases h
    exact .nil
  | cons move moves ih =>
    rw [simulate] at h
    split at h
    · cases h
    · rename_i a s₁ hperform
      obtain ⟨⟨hist₁, s₂⟩, hsim, heq⟩ := Option.map_eq_some_iff.mp h
      cases heq
      exact .cons (perform_sound hperform) (ih hsim)

/-- What a list of moves comes to; nothing happens if one of them cannot be made. -/
def played (s : System S M) (moves : List (Move M)) : List (System S M × SysAct M) × System S M :=
  (simulate c me answers s moves).getD ([], s)

theorem run_played (s : System S M) (moves : List (Move M)) :
    Run (SysStep c me) s (played c me answers s moves).1 (played c me answers s moves).2 := by
  unfold played
  cases h : simulate c me answers s moves with
  | none => exact .nil
  | some p => exact run_simulate h

end System

end Spawned
