import Spawned.Actor.Simulate
import Spawned.Supervisor.Trapping

/-!
# A supervisor outlives its children

A child's exit reaches the supervisor through the link that `start_child` made. It arrives as one `Exit` and does nothing
else to the supervisor, except in two cases: a Kill cannot be trapped, and a link made between the drain of the child's
table and its completion value misses the exit.

* `Misses`, `Strikes` : the steps at which the exit is missed, and at which it cancels the supervisor or writes its
  linked reason;
* `KidInv` : what a child's exit still owes the supervisor, at each point of its link and of its exit;
* `supervisor_outlives_children` : the exact condition, over every run.
-/

namespace Spawned

open Lib

variable {S M R : Type} {c : Callbacks S M R} {me : ActorAddress} {s s' : System S M} {a : SysAct M}

/-! ## What a step does to a child -/

/-- Where `link_handles` is with a child. -/
def System.linkPc (s : System S M) (kid : ActorId) : LinkPc :=
  match s.linking with
  | some (k, pc) => if k = kid then pc else .done
  | none => .done

theorem System.linkPc_some {kid : ActorId} {pc : LinkPc} (h : s.linking = some (kid, pc)) : s.linkPc kid = pc := by
  simp [System.linkPc, h]

theorem System.linkPc_ne {kid k : ActorId} {pc : LinkPc} (h : s.linking = some (k, pc)) (hne : k ≠ kid) :
    s.linkPc kid = .done := by
  simp [System.linkPc, h, hne]

theorem System.linkPc_none {kid : ActorId} (h : s.linking = none) : s.linkPc kid = .done := by
  simp [System.linkPc, h]

/-- From `w` to `w'` the child's table keeps the entry of the supervisor, and its completion value stays. -/
structure SameKid (own kid : ActorId) (w w' : Cells) : Prop where
  entry : own ∈ (w' kid).links ↔ own ∈ (w kid).links
  nodup : (w kid).links.Nodup → (w' kid).links.Nodup
  completion : (w' kid).completion = (w kid).completion

theorem SameKid.of_eq {own kid : ActorId} {w w' : Cells} (hl : (w' kid).links = (w kid).links)
    (hc : (w' kid).completion = (w kid).completion) : SameKid own kid w w' :=
  ⟨by rw [hl], by rw [hl]; exact id, hc⟩

theorem sameKid_modify {own kid id : ActorId} {w : Cells} {f : ActorCell → ActorCell}
    (hl : ∀ cell, (f cell).links = cell.links) (hc : ∀ cell, (f cell).completion = cell.completion) :
    SameKid own kid w (w.modify id f) := by
  refine .of_eq ?_ ?_ <;> rw [Cells.modify_apply] <;> split_ifs <;> simp [hl, hc]

theorem sameKid_modify_ne {own kid id : ActorId} {w : Cells} {f : ActorCell → ActorCell} (hne : kid ≠ id) :
    SameKid own kid w (w.modify id f) := by
  refine .of_eq ?_ ?_ <;> rw [Cells.modify_ne _ _ hne]

theorem sameKid_effect (own kid : ActorId) (w : Cells) (e : SupOp) : SameKid own kid w (e.effect own w) := by
  cases e with
  | shutdown handle => exact sameKid_modify (fun _ => rfl) fun _ => rfl
  | kill handle => exact sameKid_modify (fun _ => rfl) fun _ => rfl
  | trapExit enabled =>
    simp only [SupOp.effect]
    exact sameKid_modify (fun _ => rfl) fun _ => rfl
  | stop => exact sameKid_modify (fun _ => rfl) fun _ => rfl
  | _ => exact .of_eq rfl rfl

theorem sameKid_advance {kid : ActorId} {w w' : Cells} {pc pc' : RunPc S M} (h : Advance c me.actorId w pc pc' w') :
    SameKid me.actorId kid w w' := by
  have hclose : SameKid me.actorId kid w (w.close me.actorId) := sameKid_modify (fun _ => rfl) fun _ => rfl
  cases h with
  | cancel => exact sameKid_modify (fun _ => rfl) fun _ => rfl
  | requested _ => exact hclose
  | abnormal _ _ => exact hclose
  | linked _ => exact hclose
  | normal _ => exact hclose
  | _ => exact .of_eq rfl rfl

/-- `link_handles` with another child. -/
theorem sameKid_linkStep {own kid k : ActorId} (hown : kid ≠ own) (hne : kid ≠ k) (here : NodeId) (w : Cells)
    (pc : LinkPc) : SameKid own kid w (linkStep here own k w pc).2 := by
  cases pc <;> simp only [linkStep]
  case pushOwn => exact sameKid_modify_ne hown
  case pushPeer => exact sameKid_modify_ne hne
  case readReason =>
    split
    · exact .of_eq rfl rfl
    · exact .of_eq rfl rfl
  case takeSelf reason => exact sameKid_modify_ne hne
  case signal reason => exact sameKid_modify_ne hown
  case done => exact .of_eq rfl rfl

/-- The exit of another child, which may take itself out of this child's table. -/
theorem sameKid_exitStep {own kid k : ActorId} (hown : own ≠ k) (hne : kid ≠ k) (here : NodeId) (reason : ExitReason)
    (w : Cells) (pc : ExitPc) : SameKid own kid w (exitStep here k reason w pc).2 := by
  cases pc with
  | drain =>
    simp only [exitStep]
    exact sameKid_modify_ne hne
  | dropSelf entries =>
    cases entries with
    | nil => exact .of_eq rfl rfl
    | cons p entries =>
      by_cases hp : kid = p
      · subst hp
        refine ⟨?_, ?_, ?_⟩ <;> simp only [exitStep, Cells.modify_self]
        · simp [hown]
        · exact nodup_dropLink
      · simp only [exitStep]
        exact sameKid_modify_ne hp
  | signalPeer p entries => exact sameKid_modify (by simp) (by simp)
  | remoteLinks => exact .of_eq rfl rfl
  | removeActor => exact .of_eq rfl rfl
  | complete =>
    simp only [exitStep]
    exact sameKid_modify_ne hne
  | done => exact .of_eq rfl rfl

/-- A step that is not the child's own. -/
structure KidFrame (me : ActorAddress) (kid : ActorId) (s s' : System S M) : Prop where
  exits : s'.exits kid = s.exits kid
  link : s'.linkPc kid = s.linkPc kid
  same : SameKid me.actorId kid s.cells s'.cells

/-- A child that is there is left alone by every step but those of its own link and its own exit. -/
theorem SysStep.kid {kid : ActorId} (hstep : SysStep c me s a s') (hwf : s.WF me) (hkid : kid ∈ s.kids) :
    KidFrame me kid s s' ∨ a = .link kid ∨ (∃ reason, a = .beginExit kid reason) ∨ a = .exit kid := by
  have hne : kid ≠ me.actorId := (hwf.ne kid hkid).symm
  cases hstep with
  | call x hpc he => exact Or.inl ⟨rfl, rfl, sameKid_effect _ _ _ _⟩
  | spawn k hpc hlinking hfresh =>
    have hk : k ≠ kid := fun h => hfresh.new (h ▸ hkid)
    refine Or.inl ⟨rfl, ?_, .of_eq ?_ ?_⟩
    · rw [System.linkPc_ne rfl hk, System.linkPc_none hlinking]
    · simp [Function.update_of_ne hk.symm]
    · simp [Function.update_of_ne hk.symm]
  | @link k pc hlinking hpc =>
    by_cases hk : k = kid
    · exact Or.inr (Or.inl (by rw [hk]))
    · refine Or.inl ⟨rfl, ?_, sameKid_linkStep hne (Ne.symm hk) _ _ _⟩
      rw [System.linkPc_ne rfl hk, System.linkPc_ne hlinking hk]
  | @linked k cb spec cont hlinking hpc =>
    refine Or.inl ⟨rfl, ?_, .of_eq rfl rfl⟩
    rw [System.linkPc_none rfl]
    by_cases hk : k = kid
    · subst hk
      rw [System.linkPc_some hlinking]
    · rw [System.linkPc_ne hlinking hk]
  | advance hadv => exact Or.inl ⟨rfl, rfl, sameKid_advance hadv⟩
  | @panic cb prog msg st hpc hlinking =>
    refine Or.inl ⟨rfl, rfl, ?_⟩
    cases cb with
    | started => refine .of_eq ?_ ?_ <;> simp [Callback.unwind, Cells.close, Cells.modify_ne _ _ hne]
    | handler st event => cases event <;> exact .of_eq rfl rfl
    | stopped early reason => exact .of_eq rfl rfl
  | osSignal hpc => exact Or.inl ⟨rfl, rfl, .of_eq (by simp [Cells.modify_ne _ _ hne]) (by simp [Cells.modify_ne _ _ hne])⟩
  | @beginExit k reason hk halive hreason =>
    by_cases hkk : k = kid
    · exact Or.inr (Or.inr (Or.inl ⟨reason, by rw [hkk]⟩))
    · refine Or.inl ⟨Function.update_of_ne (Ne.symm hkk) _ _, rfl, .of_eq ?_ ?_⟩
      · simp [Cells.close, Cells.modify_ne _ _ (Ne.symm hkk)]
      · simp [Cells.close, Cells.modify_ne _ _ (Ne.symm hkk)]
  | @exit k reason pc hexit =>
    by_cases hkk : k = kid
    · exact Or.inr (Or.inr (Or.inr (by rw [hkk])))
    · refine Or.inl ⟨?_, rfl, ?_⟩
      · exact Function.update_of_ne (Ne.symm hkk) _ _
      · exact sameKid_exitStep (hwf.ne k (hwf.exits k (by simp [hexit]))) (Ne.symm hkk) _ _ _ _
  | others hothers =>
    exact Or.inl ⟨rfl, rfl, hothers.entry kid hkid, hothers.nodup kid hkid, hothers.completion kid hkid⟩
  | signal hsender => exact Or.inl ⟨rfl, rfl, sameKid_modify_ne hne⟩
  | remoteExit hexit => exact Or.inl ⟨rfl, rfl, sameKid_modify_ne hne⟩
  | request request => exact Or.inl ⟨rfl, rfl, sameKid_modify_ne hne⟩
  | _ => exact Or.inl ⟨rfl, rfl, .of_eq rfl rfl⟩

/-! ## What a step does to the lane -/

theorem ActorCell.sendExit_laneOpen (exit : Exit) (cell : ActorCell) :
    (cell.sendExit exit).laneOpen = cell.laneOpen := by
  unfold ActorCell.sendExit
  split_ifs <;> rfl

/-- Only the end of `run_actor` closes the lane, and nothing opens it again. -/
theorem SysStep.laneOpen (hstep : SysStep c me s a s') (hwf : s.WF me) :
    (s'.cells me.actorId).laneOpen = (s.cells me.actorId).laneOpen ∨
      (s'.cells me.actorId).laneOpen = false ∧ ∃ reason, s'.pc = .exited reason := by
  rcases hstep.own hwf with ⟨sender, reason, -, hcell⟩ | ⟨-, hown⟩
  · rw [hcell, makeSignal_laneOpen]
    exact Or.inl rfl
  · generalize s'.cells me.actorId = cell at hown
    cases hown with
    | table htable =>
      obtain ⟨links, rfl⟩ := htable
      exact Or.inl rfl
    | close cancel hpc => exact Or.inr ⟨rfl, _, hpc⟩
    | sendExit ha => exact Or.inl (ActorCell.sendExit_laneOpen _ _)
    | _ => exact Or.inl rfl

theorem exitsFrom_append_of_ne {here : NodeId} {sender : ActorId} {lane : List Exit} {exit : Exit}
    (h : exit.from ≠ ⟨here, sender⟩) : exitsFrom here sender (lane ++ [exit]) = exitsFrom here sender lane := by
  simp [exitsFrom, h]

/-- The `Exit`s of a child come from the steps of its own exit and its own link only. -/
theorem SysStep.exitsFrom {kid : ActorId} (hstep : SysStep c me s a s') (hwf : s.WF me) (hkid : kid ∈ s.kids)
    (hexit : a ≠ .exit kid) (hlink : a ≠ .link kid) :
    exitsFrom me.node kid (s'.cells me.actorId).lane = exitsFrom me.node kid (s.cells me.actorId).lane := by
  rcases hstep.own hwf with ⟨sender, reason, hsignal, hcell⟩ | ⟨-, hown⟩
  · rw [hcell]
    refine exitsFrom_makeSignal_ne ?_
    rintro rfl
    cases hstep with
    | signal hsender => exact hsender (hsignal.1 ▸ hkid)
    | link _ _ => exact hlink (by rw [hsignal.1])
    | exit _ => exact hexit (by rw [hsignal.1])
    | _ => exact hsignal
  · generalize s'.cells me.actorId = cell at hown
    cases hown with
    | table htable =>
      obtain ⟨links, rfl⟩ := htable
      rfl
    | sendExit ha =>
      subst ha
      unfold ActorCell.sendExit
      split_ifs
      · generalize hact : (SysAct.remoteExit _ : SysAct M) = act at hstep
        cases hstep with
        | remoteExit hfrom =>
          cases hact
          exact exitsFrom_append_of_ne (hfrom kid hkid)
        | _ => cases hact
      · rfl
    | _ => rfl

/-! ## What a child's exit owes -/

section Owed

variable (me : ActorAddress) (kid : ActorId) (reason : ExitReason)

/-- The supervisor has an entry in the child's table, which the drain did not take. -/
def Stray (w : Cells) (pc : ExitPc) : Prop := pc ≠ .drain ∧ me.actorId ∈ (w kid).links

/-- The link is in the child's table: either the exit will find it there, or `link_handles` has to. -/
def InTable (w : Cells) (pc : ExitPc) : Prop :=
  (Owes me.node me.actorId kid reason 1 w pc ∧ ¬Stray me kid w pc) ∨
    (Owes me.node me.actorId kid reason 0 w pc ∧ Stray me kid w pc)

/-- What is owed to the supervisor at each point of `link_handles`. -/
def OwedTo (missed : Prop) (w : Cells) (pc : ExitPc) : LinkPc → Prop
  | .pushOwn | .pushPeer => ¬missed ∧ Owes me.node me.actorId kid reason 0 w pc ∧ me.actorId ∉ (w kid).links
  | .readReason => ¬missed ∧ InTable me kid reason w pc
  | .takeSelf _ => ¬missed ∧ pc = .done ∧ InTable me kid reason w pc
  | .signal _ => ¬missed ∧ pc = .done ∧ Owes me.node me.actorId kid reason 0 w pc
  | .done => (¬missed ∧ Owes me.node me.actorId kid reason 1 w pc) ∨ (missed ∧ Owes me.node me.actorId kid reason 0 w pc)

variable {me kid reason} {missed : Prop} {w w' : Cells} {pc pc' : ExitPc} {l : LinkPc}

/-- The child's exit goes on, or nothing of the child changes. -/
theorem OwedTo.map (h : OwedTo me kid reason missed w pc l)
    (howes : ∀ {k}, Owes me.node me.actorId kid reason k w pc → Owes me.node me.actorId kid reason k w' pc')
    (hentry : me.actorId ∈ (w' kid).links → me.actorId ∈ (w kid).links)
    (hstray : Stray me kid w' pc' ↔ Stray me kid w pc) (hdone : pc = .done → pc' = .done) :
    OwedTo me kid reason missed w' pc' l := by
  have htable : InTable me kid reason w pc → InTable me kid reason w' pc' := by
    unfold InTable
    rw [hstray]
    exact Or.imp (And.imp_left howes) (And.imp_left howes)
  cases l with
  | pushOwn => exact ⟨h.1, howes h.2.1, fun hmem => h.2.2 (hentry hmem)⟩
  | pushPeer => exact ⟨h.1, howes h.2.1, fun hmem => h.2.2 (hentry hmem)⟩
  | readReason => exact ⟨h.1, htable h.2⟩
  | takeSelf r => exact ⟨h.1, hdone h.2.1, htable h.2.2⟩
  | signal r => exact ⟨h.1, hdone h.2.1, howes h.2.2⟩
  | done => exact h.imp (And.imp_right howes) (And.imp_right howes)

theorem OwedTo.exitStep (hne : me.actorId ≠ kid) (hkill : reason ≠ .kill) (h : OwedTo me kid reason missed w pc l) :
    OwedTo me kid reason missed (exitStep me.node kid reason w pc).2 (exitStep me.node kid reason w pc).1 l := by
  refine h.map (fun howes => howes.step hne hkill) ?_ ?_ ?_
  · rw [mem_links_exitStep hne]
    exact And.right
  · unfold Stray
    rw [mem_links_exitStep hne]
    exact ⟨And.right, fun hs => ⟨exitStep_ne_drain, hs⟩⟩
  · rintro rfl
    rfl

/-- Nothing was sent to a supervisor to which nothing is owed. -/
theorem Owes.unsent {here : NodeId} {o t : ActorId} (h : Owes here o t reason 0 w pc) :
    exitsFrom here t (w o).lane = [] := by
  obtain ⟨n, hn, hsum⟩ := h.tally
  obtain rfl : n = 0 := by omega
  exact hn

/-- A step of `link_handles` leads to what its next point owes. It misses the exit if it finds no completion value while
the supervisor has a stray entry. -/
theorem OwedTo.linkStep (hne : me.actorId ≠ kid) (hkill : reason ≠ .kill) (hl : l ≠ .done)
    (hcompletion : ∀ r, (w kid).completion = some r ↔ pc = .done ∧ r = reason)
    (hsignal : ∀ r, l = .signal r → r = reason) (h : OwedTo me kid reason missed w pc l) :
    OwedTo me kid reason (missed ∨ (l = .readReason ∧ Stray me kid w pc ∧ pc ≠ .done))
      (linkStep me.node me.actorId kid w l).2 pc (linkStep me.node me.actorId kid w l).1 := by
  cases l with
  | pushOwn =>
    simp only [reduceCtorEq, false_and, or_false, Spawned.linkStep]
    refine ⟨h.1, Owes.modifyOwner hne h.2.1 (pushLink · kid), ?_⟩
    rw [Cells.modify_ne _ _ hne.symm]
    exact h.2.2
  | pushPeer =>
    simp only [reduceCtorEq, false_and, or_false, Spawned.linkStep]
    refine ⟨h.1, ?_⟩
    by_cases hdrain : pc = .drain
    · -- the table still has its reader
      subst hdrain
      exact Or.inl ⟨Owes.pushPeer hne h.2.1 h.2.1.unsent, fun hs => hs.1 rfl⟩
    · refine Or.inr ⟨Owes.modifyTarget hne h.2.1 hdrain (f := (pushLink · me.actorId)) (nodup_pushLink h.2.1.nodup),
        hdrain, ?_⟩
      simp [mem_pushLink]
  | readReason =>
    simp only [true_and, Spawned.linkStep]
    split
    · rename_i r hr
      obtain ⟨rfl, rfl⟩ := (hcompletion r).mp hr
      simp only [ne_eq, not_true_eq_false, and_false, or_false]
      exact ⟨h.1, rfl, h.2⟩
    · rename_i hr
      have hlive : pc ≠ .done := fun hdone => by simpa [hr] using (hcompletion reason).mpr ⟨hdone, rfl⟩
      rcases h.2 with ⟨howes, hs⟩ | ⟨howes, hs⟩
      · exact Or.inl ⟨not_or.mpr ⟨h.1, fun hm => hs hm.1⟩, howes⟩
      · exact Or.inr ⟨Or.inr ⟨hs, hlive⟩, howes⟩
  | takeSelf r =>
    simp only [reduceCtorEq, false_and, or_false, Spawned.linkStep]
    obtain ⟨hmissed, rfl, htable⟩ := h
    have hdrop : ∀ {k}, Owes me.node me.actorId kid reason k w .done → Owes me.node me.actorId kid reason k
        (w.modify kid fun c => { c with links := dropLink c.links me.actorId }) .done :=
      fun howes => Owes.modifyTarget hne howes (by simp) (nodup_dropLink howes.nodup)
    rcases htable with ⟨howes, hs⟩ | ⟨howes, hs⟩
    · have hmem : me.actorId ∉ (w kid).links := fun hmem => hs ⟨by simp, hmem⟩
      rw [if_neg (mt length_dropLink_ne.mp hmem)]
      exact Or.inl ⟨hmissed, hdrop howes⟩
    · rw [if_pos (length_dropLink_ne.mpr hs.2)]
      exact ⟨hmissed, rfl, hdrop howes⟩
  | signal r =>
    simp only [reduceCtorEq, false_and, or_false, Spawned.linkStep]
    obtain ⟨hmissed, rfl, howes⟩ := h
    rw [hsignal r rfl]
    exact Or.inl ⟨hmissed, howes.signal hne hkill (p := 0) rfl⟩
  | done => exact absurd rfl hl

end Owed

/-! ## The invariant of a child -/

/-- `link_handles` looks for a completion value between the child's drain and its completion, with the supervisor's entry
in the child's table. -/
def Misses (me : ActorAddress) (kid : ActorId) (x : System S M × SysAct M) : Prop :=
  x.2 = .link kid ∧ x.1.linkPc kid = .readReason ∧
    ∃ reason pc, x.1.exits kid = some (reason, pc) ∧ Stray me kid x.1.cells pc ∧ pc ≠ .done

/-- A step of the child's exit or of its link cancels the supervisor, or writes its linked reason. -/
def Strikes (c : Callbacks S M R) (me : ActorAddress) (kid : ActorId) (x : System S M × SysAct M) : Prop :=
  (x.2 = .exit kid ∨ x.2 = .link kid) ∧ ∃ s', SysStep c me x.1 x.2 s' ∧
    ((s'.cells me.actorId).cancelled ≠ (x.1.cells me.actorId).cancelled ∨
      (s'.cells me.actorId).linkedReason ≠ (x.1.cells me.actorId).linkedReason)

/-- The child exits with `reason` and is at `pc`. A child that has not stopped may do so with any reason. -/
def ExitAt (s : System S M) (kid : ActorId) (reason : ExitReason) (pc : ExitPc) : Prop :=
  s.exits kid = some (reason, pc) ∨ (s.exits kid = none ∧ pc = .drain)

/-- What holds of a child at every point of a run; `missed` says that the run so far has missed its exit. -/
structure KidInv (me : ActorAddress) (missed : Prop) (s : System S M) (kid : ActorId) : Prop where
  completion : ∀ r, (s.cells kid).completion = some r ↔ s.exits kid = some (r, .done)
  linked : ∀ r, (s.linkPc kid = .takeSelf r ∨ s.linkPc kid = .signal r) → s.exits kid = some (r, .done)
  killed : (∀ r pc, s.exits kid = some (r, pc) → r = .kill) → exitsFrom me.node kid (s.cells me.actorId).lane = []
  owed : (s.cells me.actorId).laneOpen = true → ∀ r pc, r ≠ .kill → ExitAt s kid r pc →
    OwedTo me kid r missed s.cells pc (s.linkPc kid)

section Child

variable {kid : ActorId} {missed : Prop}

/-- The completion value, seen from a child at `pc`. -/
theorem KidInv.completion_at (h : KidInv me missed s kid) {reason : ExitReason} {pc : ExitPc}
    (hat : ExitAt s kid reason pc) (r : ExitReason) :
    (s.cells kid).completion = some r ↔ pc = .done ∧ r = reason := by
  rw [h.completion]
  rcases hat with hexit | ⟨hexit, rfl⟩
  · rw [hexit, Option.some.injEq, Prod.mk.injEq, and_comm, eq_comm (a := r)]
  · simp [hexit]

/-- A step that is not the child's own. -/
theorem KidInv.frame (h : KidInv me missed s kid) (hframe : KidFrame me kid s s')
    (htrap : (s'.cells me.actorId).trapExit = (s.cells me.actorId).trapExit)
    (hopen : (s'.cells me.actorId).laneOpen = true → (s.cells me.actorId).laneOpen = true)
    (hlane : exitsFrom me.node kid (s'.cells me.actorId).lane = exitsFrom me.node kid (s.cells me.actorId).lane) :
    KidInv me missed s' kid := by
  obtain ⟨hexits, hlink, hsame⟩ := hframe
  refine ⟨?_, ?_, ?_, ?_⟩
  · rw [hexits, hsame.completion]
    exact h.completion
  · rw [hexits, hlink]
    exact h.linked
  · rw [hexits, hlane]
    exact h.killed
  · intro hopen' r pc hr hat
    rw [ExitAt, hexits] at hat
    rw [hlink]
    refine (h.owed (hopen hopen') r pc hr hat).map (fun howes => ?_) hsame.entry.mp ?_ id
    · have hnodup := hsame.nodup howes.nodup
      refine howes.congr htrap (by rw [hopen', hopen hopen']) hlane hnodup ?_
      rw [hnodup.count, howes.nodup.count]
      simp only [hsame.entry]
    · unfold Stray
      rw [hsame.entry]

/-- `link_handles` does not write the target's completion value. -/
theorem linkStep_completion (here : NodeId) {owner target : ActorId} (hne : owner ≠ target) (w : Cells) (pc : LinkPc) :
    ((linkStep here owner target w pc).2 target).completion = (w target).completion := by
  cases pc <;> simp only [linkStep]
  case pushOwn => rw [Cells.modify_ne _ _ hne.symm]
  case pushPeer => rw [Cells.modify_self]
  case readReason =>
    split
    · rfl
    · rfl
  case takeSelf reason => rw [Cells.modify_self]
  case signal reason => rw [Cells.modify_ne _ _ hne.symm]

/-- A Kill leaves the lane as it is. -/
theorem makeSignal_kill_lane (here : NodeId) (sender : ActorId) (cell : ActorCell) :
    (makeSignal here sender .kill cell).lane = cell.lane := by
  simp [makeSignal]

/-- The child's link, one step further. -/
theorem KidInv.linkStep {l : LinkPc} (hne : me.actorId ≠ kid) (hpc : s.linkPc kid = l) (hl : l ≠ .done)
    (hcells : s'.cells = (linkStep me.node me.actorId kid s.cells l).2) (hexits : s'.exits = s.exits)
    (hpc' : s'.linkPc kid = (linkStep me.node me.actorId kid s.cells l).1)
    (hopen : (s'.cells me.actorId).laneOpen = true → (s.cells me.actorId).laneOpen = true)
    (h : KidInv me missed s kid) : KidInv me (missed ∨ Misses me kid (s, .link kid)) s' kid := by
  refine ⟨?_, ?_, ?_, ?_⟩
  · intro r
    rw [hcells, hexits, linkStep_completion _ hne]
    exact h.completion r
  · intro r hr
    rw [hpc'] at hr
    rw [hexits]
    cases l with
    | readReason =>
      simp only [Spawned.linkStep] at hr
      split at hr
      · rename_i r' hr'
        obtain rfl : r' = r := by simpa using hr
        exact (h.completion r').mp hr'
      · simp at hr
    | takeSelf r' =>
      simp only [Spawned.linkStep] at hr
      split_ifs at hr
      · obtain rfl : r' = r := by simpa using hr
        exact h.linked r' (Or.inl hpc)
      · simp at hr
    | _ => simp [Spawned.linkStep] at hr
  · intro hkill
    rw [hexits] at hkill
    rw [hcells]
    rcases linkStep_owner me.node hne s.cells l with ⟨reason, rfl, hcell⟩ | ⟨-, links, hcell⟩
    · rw [hcell, hkill reason .done (h.linked reason (Or.inr hpc)), makeSignal_kill_lane]
      exact h.killed hkill
    · rw [hcell]
      exact h.killed hkill
  · intro hopen' r pc hr hat
    rw [ExitAt, hexits] at hat
    have howed := h.owed (hopen hopen') r pc hr hat
    have hsignal : ∀ r', l = .signal r' → r' = r := by
      rintro r' rfl
      exact ((h.completion_at hat r').mp ((h.completion r').mpr (h.linked r' (Or.inr hpc)))).2
    have hmisses : Misses me kid (s, .link kid) ↔ l = .readReason ∧ Stray me kid s.cells pc ∧ pc ≠ .done := by
      simp only [Misses, true_and, hpc]
      refine and_congr_right fun _ => ⟨?_, ?_⟩
      · rintro ⟨r', pc', hexit, hstray⟩
        rcases hat with hat | ⟨hnone, -⟩
        · rw [hexit] at hat
          cases hat
          exact hstray
        · rw [hexit] at hnone
          cases hnone
      · intro hstray
        rcases hat with hat | ⟨-, rfl⟩
        · exact ⟨r, pc, hat, hstray⟩
        · exact absurd rfl hstray.1.1
    rw [propext hmisses, hcells, hpc']
    rw [hpc] at howed
    exact howed.linkStep hne hr hl (h.completion_at hat) hsignal

/-- The child's exit, one step further. -/
theorem KidInv.exitStep {reason : ExitReason} {pc : ExitPc} (hne : me.actorId ≠ kid)
    (hexit : s.exits kid = some (reason, pc)) (hcells : s'.cells = (exitStep me.node kid reason s.cells pc).2)
    (hexit' : s'.exits kid = some (reason, (exitStep me.node kid reason s.cells pc).1))
    (hpc : s'.linkPc kid = s.linkPc kid)
    (hopen : (s'.cells me.actorId).laneOpen = true → (s.cells me.actorId).laneOpen = true)
    (h : KidInv me missed s kid) : KidInv me missed s' kid := by
  have hat : ExitAt s kid reason pc := Or.inl hexit
  refine ⟨?_, ?_, ?_, ?_⟩
  · intro r
    rw [hcells, hexit', completion_exitStep (h.completion_at hat), Option.some.injEq, Prod.mk.injEq, and_comm,
      eq_comm (a := r)]
  · intro r hr
    rw [hpc] at hr
    have hdone := h.linked r hr
    rw [hexit] at hdone
    cases hdone
    exact hexit'
  · intro hkill
    obtain rfl : reason = .kill := hkill reason _ hexit'
    have hsent : exitsFrom me.node kid (s.cells me.actorId).lane = [] := by
      refine h.killed fun r pc' hr => ?_
      rw [hexit] at hr
      cases hr
      rfl
    rw [hcells]
    rcases exitStep_peer me.node hne .kill s.cells pc with ⟨entries, -, hcell⟩ | ⟨-, links, hcell⟩
    · rw [hcell, makeSignal_kill_lane]
      exact hsent
    · rw [hcell]
      exact hsent
  · intro hopen' r pc' hr hat'
    obtain ⟨rfl, rfl⟩ : reason = r ∧ (Spawned.exitStep me.node kid reason s.cells pc).1 = pc' := by
      simpa [ExitAt, hexit'] using hat'
    rw [hcells, hpc]
    exact (h.owed (hopen hopen') reason pc hr hat).exitStep hne hr

/-- The child stops. -/
theorem KidInv.beginExit {reason : ExitReason} (hne : me.actorId ≠ kid) (halive : s.exits kid = none)
    (hcells : s'.cells = s.cells.close kid) (hexit : s'.exits kid = some (reason, .drain))
    (hpc : s'.linkPc kid = s.linkPc kid) (h : KidInv me missed s kid) : KidInv me missed s' kid := by
  have hown : s'.cells me.actorId = s.cells me.actorId := by
    rw [hcells]
    exact Cells.modify_ne _ _ hne
  have hkid : s'.cells kid = { s.cells kid with laneOpen := false } := by
    rw [hcells]
    exact Cells.modify_self _ _ _
  refine ⟨?_, ?_, ?_, ?_⟩
  · intro r
    rw [hkid, h.completion, halive, hexit]
    simp
  · intro r hr
    rw [hpc] at hr
    have hdone := h.linked r hr
    rw [halive] at hdone
    cases hdone
  · intro _
    rw [hown]
    refine h.killed fun r pc hr => ?_
    rw [halive] at hr
    cases hr
  · intro hopen r pc hr hat
    rw [hown] at hopen
    rw [hpc]
    obtain ⟨-, rfl⟩ : reason = r ∧ ExitPc.drain = pc := by simpa [ExitAt, hexit] using hat
    refine (h.owed hopen r .drain hr (Or.inr ⟨halive, rfl⟩)).map (fun howes => ?_) ?_ ?_ id
    · exact howes.congr (by rw [hown]) (by rw [hown]) (by rw [hown]) (by rw [hkid]; exact howes.nodup) (by rw [hkid])
    · rw [hkid]
      exact id
    · simp [Stray]

/-- A new child. -/
theorem kidInv_spawn (hfresh : s.Fresh me kid) (htrap : (s.cells me.actorId).trapExit = true) (hmissed : ¬missed)
    (hcells : s'.cells = Function.update s.cells kid {}) (hexits : s'.exits = s.exits)
    (hpc : s'.linkPc kid = .pushOwn) : KidInv me missed s' kid := by
  have hown : s'.cells me.actorId = s.cells me.actorId := by
    rw [hcells]
    exact Function.update_of_ne hfresh.ne _ _
  have hkid : s'.cells kid = {} := by
    rw [hcells]
    exact Function.update_self ..
  refine ⟨?_, ?_, ?_, ?_⟩
  · intro r
    simp [hkid, hexits, hfresh.alive]
  · intro r hr
    simp [hpc] at hr
  · intro _
    rw [hown]
    exact hfresh.unsent
  · intro hopen r pc hr hat
    obtain rfl : pc = .drain := by simpa [ExitAt, hexits, hfresh.alive] using hat
    rw [hpc]
    refine ⟨hmissed, ⟨by rw [hown, htrap], hopen, by simp [hkid], 0, ?_, by simp [hkid]⟩, by simp [hkid]⟩
    rw [hown]
    exact hfresh.unsent

/-- A lane that is open after a step was open before. -/
theorem SysStep.laneOpen_before (hstep : SysStep c me s a s') (hwf : s.WF me)
    (h : (s'.cells me.actorId).laneOpen = true) : (s.cells me.actorId).laneOpen = true := by
  rcases hstep.laneOpen hwf with heq | ⟨hclosed, -⟩
  · rw [← heq, h]
  · rw [h] at hclosed
    cases hclosed

/-- Every step keeps the invariant of a child that is there. -/
theorem KidInv.step (hc : c.Trapping) (hwf : s.WF me) (harmed : Armed me s) (hkid : kid ∈ s.kids)
    (hstep : SysStep c me s a s') (h : KidInv me missed s kid) : KidInv me (missed ∨ Misses me kid (s, a)) s' kid := by
  have hne : me.actorId ≠ kid := hwf.ne kid hkid
  have hopen := hstep.laneOpen_before hwf
  have htrap : (s'.cells me.actorId).trapExit = (s.cells me.actorId).trapExit := by
    rw [harmed.1, (harmed.step hc hwf hstep).1]
  by_cases hlink : a = .link kid
  · subst hlink
    generalize ha : (SysAct.link kid : SysAct M) = act at hstep
    cases hstep with
    | link hlinking hpc =>
      cases ha
      exact h.linkStep hne (System.linkPc_some hlinking) hpc rfl rfl (System.linkPc_some rfl) hopen
    | _ => cases ha
  have hmisses : ¬Misses me kid (s, a) := fun hm => hlink hm.1
  simp only [hmisses, or_false]
  by_cases hexit : a = .exit kid
  · subst hexit
    generalize ha : (SysAct.exit kid : SysAct M) = act at hstep
    cases hstep with
    | exit hexit =>
      cases ha
      exact h.exitStep hne hexit rfl (Function.update_self ..) rfl hopen
    | _ => cases ha
  rcases hstep.kid hwf hkid with hframe | hlink' | ⟨reason, rfl⟩ | hexit'
  · exact h.frame hframe htrap hopen (hstep.exitsFrom hwf hkid hexit hlink)
  · exact absurd hlink' hlink
  · generalize ha : (SysAct.beginExit kid reason : SysAct M) = act at hstep
    cases hstep with
    | beginExit _ halive _ =>
      cases ha
      exact h.beginExit hne halive rfl (Function.update_self ..) rfl
    | _ => cases ha
  · exact absurd hexit' hexit

/-- The children stay, and a new one is spawned. -/
theorem SysStep.mem_kids (hstep : SysStep c me s a s') : kid ∈ s'.kids ↔ kid ∈ s.kids ∨ a = .spawn kid := by
  cases hstep with
  | spawn k hpc hlinking hfresh => simp [eq_comm]
  | _ => simp

/-- A supervisor with a child traps exits. -/
theorem Unarmed.kid_not_mem (h : Unarmed s) : kid ∉ s.kids := by
  rw [h.1]
  exact List.not_mem_nil

/-- **The invariant holds of every child along every run.** -/
theorem kidInv_run (hc : c.Trapping) {w : Cells} {s₀ : S} {hist : List (System S M × SysAct M)}
    (h : Run (SysStep c me) (System.init c me w s₀) hist s) :
    (kid ∈ s.kids → KidInv me (∃ x ∈ hist, Misses me kid x) s kid) ∧
      (kid ∉ s.kids → ¬∃ x ∈ hist, Misses me kid x) := by
  induction h with
  | nil => exact ⟨fun hkid => absurd hkid List.not_mem_nil, fun _ => by simp⟩
  | @snoc τ s a s' hr hstep ih =>
    obtain ⟨hwf, harmed⟩ := armed_of_runs hc hr
    simp only [exists_mem_snoc]
    by_cases hkid : kid ∈ s.kids
    · refine ⟨fun _ => ?_, fun hno => absurd (hstep.mem_kids.mpr (Or.inl hkid)) hno⟩
      exact (ih.1 hkid).step hc hwf (harmed.resolve_right fun hun => hun.kid_not_mem hkid) hkid hstep
    · have hmissed : ¬((∃ x ∈ τ, Misses me kid x) ∨ Misses me kid (s, a)) := by
        rintro (hmiss | ⟨-, -, reason, pc, hexit, -⟩)
        · exact ih.2 hkid hmiss
        · exact hkid (hwf.exits kid fun hnone => Option.some_ne_none _ (hexit.symm.trans hnone))
      refine ⟨fun hkid' => ?_, fun _ => hmissed⟩
      obtain rfl : a = .spawn kid := (hstep.mem_kids.mp hkid').resolve_left hkid
      generalize ha : (SysAct.spawn kid : SysAct M) = act at hstep hmissed
      cases hstep with
      | spawn k hpc hlinking hfresh =>
        cases ha
        have htrap : (s.cells me.actorId).trapExit = true := by
          rcases harmed with harmed | ⟨-, -, ⟨k, hpc', -⟩ | ⟨reason, hpc'⟩⟩
          · exact harmed.1
          · rw [hpc] at hpc'
            cases hpc'
          · rw [hpc] at hpc'
            cases hpc'
        exact kidInv_spawn hfresh htrap hmissed rfl rfl (System.linkPc_some rfl)
      | _ => cases ha

/-! ## Strikes -/

/-- A signal other than Kill neither cancels a trapping actor nor writes its linked reason. -/
theorem makeSignal_spares {here : NodeId} {sender : ActorId} {reason : ExitReason} {cell : ActorCell}
    (htrap : cell.trapExit = true) (hkill : reason ≠ .kill) :
    (makeSignal here sender reason cell).cancelled = cell.cancelled ∧
      (makeSignal here sender reason cell).linkedReason = cell.linkedReason := by
  unfold makeSignal
  rw [if_neg hkill, if_neg (by simp [htrap]), if_pos htrap]
  split_ifs
  · exact ⟨rfl, rfl⟩
  · exact ⟨rfl, rfl⟩

/-- A child strikes by its signal only. -/
theorem strikes_signals (hwf : s.WF me) (h : Strikes c me kid (s, a)) :
    ∃ reason, Signals me s kid reason a ∧
      ((makeSignal me.node kid reason (s.cells me.actorId)).cancelled ≠ (s.cells me.actorId).cancelled ∨
        (makeSignal me.node kid reason (s.cells me.actorId)).linkedReason ≠ (s.cells me.actorId).linkedReason) := by
  obtain ⟨hact, s', hstep, hchange⟩ := h
  dsimp only at hact hstep hchange
  have htable : ¬TableOnly (s.cells me.actorId) (s'.cells me.actorId) := by
    rintro ⟨links, hcell⟩
    rw [hcell] at hchange
    simp at hchange
  cases hstep with
  | @link k l hlinking hl =>
    obtain rfl : k = kid := by simpa using hact
    rcases linkStep_owner me.node (hwf.ne k (hwf.linking _ _ hlinking)) s.cells l with ⟨reason, rfl, hcell⟩ | ⟨-, ht⟩
    · refine ⟨reason, ⟨rfl, hlinking⟩, ?_⟩
      rw [← hcell]
      exact hchange
    · exact absurd ht htable
  | @exit k reason pc hexit =>
    obtain rfl : k = kid := by simpa using hact
    rcases exitStep_peer me.node (hwf.ne k (hwf.exits k (by simp [hexit]))) reason s.cells pc with
      ⟨entries, rfl, hcell⟩ | ⟨-, ht⟩
    · refine ⟨reason, ⟨rfl, entries, hexit⟩, ?_⟩
      rw [← hcell]
      exact hchange
    · exact absurd ht htable
  | _ => simp at hact

/-- The reason of an exit stays. -/
theorem SysStep.exits_reason (hstep : SysStep c me s a s') {reason : ExitReason}
    (h : ∃ pc, s.exits kid = some (reason, pc)) : ∃ pc, s'.exits kid = some (reason, pc) := by
  obtain ⟨pc, hpc⟩ := h
  cases hstep with
  | @beginExit k r hk halive hreason =>
    have hne : kid ≠ k := by
      rintro rfl
      rw [hpc] at halive
      cases halive
    exact ⟨pc, (Function.update_of_ne hne ..).trans hpc⟩
  | @exit k r pc' hexit =>
    by_cases hk : kid = k
    · subst hk
      rw [hpc] at hexit
      cases hexit
      exact ⟨_, Function.update_self ..⟩
    · exact ⟨pc, (Function.update_of_ne hk ..).trans hpc⟩
  | _ => exact ⟨pc, hpc⟩

/-- **Only a child that exits with Kill strikes.** -/
theorem struck_killed (hc : c.Trapping) {w : Cells} {s₀ : S} {hist : List (System S M × SysAct M)}
    (h : Run (SysStep c me) (System.init c me w s₀) hist s) (hstruck : ∃ x ∈ hist, Strikes c me kid x) :
    ∃ pc, s.exits kid = some (.kill, pc) := by
  induction h with
  | nil => simp at hstruck
  | @snoc τ s a s' hr hstep ih =>
    refine hstep.exits_reason ?_
    rcases exists_mem_snoc.mp hstruck with hstruck | hstruck
    · exact ih hstruck
    · obtain ⟨hwf, harmed⟩ := armed_of_runs hc hr
      obtain ⟨reason, hsignals, hchange⟩ := strikes_signals hwf hstruck
      have hexits : ∃ pc, s.exits kid = some (reason, pc) := by
        rcases hstruck.1 with rfl | rfl
        · obtain ⟨-, entries, hexit⟩ := hsignals
          exact ⟨_, hexit⟩
        · have hkid := hwf.linking kid _ hsignals.2
          exact ⟨_, ((kidInv_run hc hr).1 hkid).linked reason (Or.inr (System.linkPc_some hsignals.2))⟩
      have hkid : kid ∈ s.kids := by
        obtain ⟨pc, hpc⟩ := hexits
        exact hwf.exits kid (by simp [hpc])
      have htrap := (harmed.resolve_right fun hun => hun.kid_not_mem hkid).1
      obtain rfl : reason = .kill := by
        by_contra hkill
        rcases hchange with hcancelled | hlinked
        · exact hcancelled (makeSignal_spares htrap hkill).1
        · exact hlinked (makeSignal_spares htrap hkill).2
      exact hexits

end Child

/-! ## Whole runs -/

/-- `run_actor` returns once. -/
theorem SysStep.exited (hstep : SysStep c me s a s') {reason : ExitReason} (h : s.pc = .exited reason) :
    ∃ reason', s'.pc = .exited reason' := by
  cases hstep with
  | advance hadv =>
    rw [h] at hadv
    cases hadv
  | call x hpc => rw [h] at hpc; cases hpc
  | linked hlinking hpc => rw [h] at hpc; cases hpc
  | panic msg st hpc => rw [h] at hpc; cases hpc
  | takeExit hpc => rw [h] at hpc; cases hpc
  | message msg hpc => rw [h] at hpc; cases hpc
  | osSignal hpc => rw [h] at hpc; cases hpc
  | disconnect hpc => rw [h] at hpc; cases hpc
  | _ => exact ⟨reason, h⟩

/-- The lane is open as long as `run_actor` has not returned. -/
theorem laneOpen_run (hc : c.Trapping) {w : Cells} {s₀ : S} {hist : List (System S M × SysAct M)}
    (h : Run (SysStep c me) (System.init c me w s₀) hist s) :
    (s.cells me.actorId).laneOpen = true ∨ ∃ reason, s.pc = .exited reason := by
  induction h with
  | nil => exact Or.inl (by simp [System.init])
  | @snoc τ s a s' hr hstep ih =>
    obtain ⟨hwf, -⟩ := armed_of_runs hc hr
    rcases hstep.laneOpen hwf with heq | ⟨-, hexited⟩
    · rw [heq]
      refine ih.imp_right ?_
      rintro ⟨reason, hpc⟩
      exact hstep.exited hpc
    · exact Or.inr hexited

theorem Owes.received {here : NodeId} {o t : ActorId} {reason : ExitReason} {k : Nat} {w : Cells}
    (h : Owes here o t reason k w .done) :
    exitsFrom here t (w o).lane = List.replicate k { «from» := ⟨here, t⟩, reason } := by
  obtain ⟨n, hn, hk⟩ := h.tally
  obtain rfl : n = k := by simpa [ExitPc.pending] using hk
  exact hn

/-- The supervisor's lane has received the child's exit, once. -/
def Delivered (me : ActorAddress) (s : System S M) (kid : ActorId) (reason : ExitReason) : Prop :=
  exitsFrom me.node kid (s.cells me.actorId).lane = [{ «from» := ⟨me.node, kid⟩, reason }]

/-- When an exited child's exit was delivered and did nothing else, for any actor that traps exits. -/
theorem delivered_iff_of_trapping (hc : c.Trapping) {w : Cells} {s₀ : S} {hist : List (System S M × SysAct M)}
    {kid : ActorId} {reason : ExitReason} (h : Run (SysStep c me) (System.init c me w s₀) hist s)
    (hexit : s.exits kid = some (reason, .done)) (hlink : s.linkPc kid = .done) (hpc : ∀ r, s.pc ≠ .exited r) :
    (Delivered me s kid reason ∧ ¬∃ x ∈ hist, Strikes c me kid x) ↔
      reason ≠ .kill ∧ ¬∃ x ∈ hist, Misses me kid x := by
  obtain ⟨hwf, -⟩ := armed_of_runs hc h
  have hkid : kid ∈ s.kids := hwf.exits kid (by simp [hexit])
  have hinv := (kidInv_run hc h).1 hkid
  have hopen : (s.cells me.actorId).laneOpen = true := by
    refine (laneOpen_run hc h).resolve_right ?_
    rintro ⟨r, hr⟩
    exact hpc r hr
  have howed : reason ≠ .kill → OwedTo me kid reason (∃ x ∈ hist, Misses me kid x) s.cells .done .done := fun hkill => by
    rw [← hlink]
    exact hinv.owed hopen reason .done hkill (Or.inl hexit)
  constructor
  · rintro ⟨hdelivered, -⟩
    have hkill : reason ≠ .kill := by
      rintro rfl
      have hsent := hinv.killed fun r pc hr => by
        rw [hexit] at hr
        cases hr
        rfl
      rw [Delivered, hsent] at hdelivered
      cases hdelivered
    refine ⟨hkill, fun hmissed => ?_⟩
    rcases howed hkill with ⟨hnot, -⟩ | ⟨-, howes⟩
    · exact hnot hmissed
    · rw [Delivered, howes.received] at hdelivered
      cases hdelivered
  · rintro ⟨hkill, hmissed⟩
    constructor
    · rcases howed hkill with ⟨-, howes⟩ | ⟨hm, -⟩
      · exact howes.received
      · exact absurd hm hmissed
    · intro hstruck
      obtain ⟨pc, hpc⟩ := struck_killed hc h hstruck
      rw [hexit] at hpc
      cases hpc
      exact hkill rfl

/-- **When a supervisor outlives a child.** In every run of either supervisor, in both runtimes, and for every child
that has exited while the supervisor runs: its exit was delivered as one `Exit`, and no step of it cancelled the
supervisor or wrote its linked reason, if and only if the reason is not Kill and `link_handles` did not look for the
completion value between the child's drain and its completion, with its entry in the table. Whatever point a child's
exit is at, it cancels the supervisor or writes its linked reason only if the reason is Kill. -/
theorem supervisor_outlives_children (rt : Runtime) (ctx : Context) :
    (∀ (w : Cells) (s₀ : Supervisor) (hist : List (System Supervisor Empty × SysAct Empty)) (s : System Supervisor Empty)
      (kid : ActorId),
      Run (SysStep (rt.supervisor ctx) ctx.actorAddress) (System.init (rt.supervisor ctx) ctx.actorAddress w s₀) hist s →
      ((∃ x ∈ hist, Strikes (rt.supervisor ctx) ctx.actorAddress kid x) → ∃ pc, s.exits kid = some (.kill, pc)) ∧
      ∀ reason, s.exits kid = some (reason, .done) → s.linkPc kid = .done → (∀ r, s.pc ≠ .exited r) →
        ((Delivered ctx.actorAddress s kid reason ∧
            ¬∃ x ∈ hist, Strikes (rt.supervisor ctx) ctx.actorAddress kid x) ↔
          reason ≠ .kill ∧ ¬∃ x ∈ hist, Misses ctx.actorAddress kid x)) ∧
    (∀ (w : Cells) (s₀ : DynamicSupervisor) (hist : List (System DynamicSupervisor DynMsg × SysAct DynMsg))
      (s : System DynamicSupervisor DynMsg) (kid : ActorId),
      Run (SysStep (rt.dynamicSupervisor ctx) ctx.actorAddress)
        (System.init (rt.dynamicSupervisor ctx) ctx.actorAddress w s₀) hist s →
      ((∃ x ∈ hist, Strikes (rt.dynamicSupervisor ctx) ctx.actorAddress kid x) → ∃ pc, s.exits kid = some (.kill, pc)) ∧
      ∀ reason, s.exits kid = some (reason, .done) → s.linkPc kid = .done → (∀ r, s.pc ≠ .exited r) →
        ((Delivered ctx.actorAddress s kid reason ∧
            ¬∃ x ∈ hist, Strikes (rt.dynamicSupervisor ctx) ctx.actorAddress kid x) ↔
          reason ≠ .kill ∧ ¬∃ x ∈ hist, Misses ctx.actorAddress kid x)) := by
  constructor
  · intro w s₀ hist s kid h
    have hc := trapping_supervisor rt ctx
    exact ⟨struck_killed hc h, fun reason hexit hlink hpc => delivered_iff_of_trapping hc h hexit hlink hpc⟩
  · intro w s₀ hist s kid h
    have hc := trapping_dynamicSupervisor rt ctx
    exact ⟨struck_killed hc h, fun reason hexit hlink hpc => delivered_iff_of_trapping hc h hexit hlink hpc⟩

/-! ## A batch that kills -/

/-- The first child has panicked, and the second has not exited. -/
def batchAnswers : (e : SupOp) → e.Ans
  | .exitReason handle => if handle.id = 2 then some (.panic "boom") else none
  | e => calmAnswers [] e

/-- A OneForAll supervisor starts a child and a second one to be killed; the first panics, -/
def boomMoves : List (Move Empty) :=
  [Move.own, .own, .spawn 2] ++ List.replicate 4 Move.own ++ [Move.spawn 3] ++ List.replicate 6 Move.own ++
    [Move.beginExit 2 (.panic "boom")] ++ List.replicate 7 (Move.exit 2)

/-- and the batch kills the second, which exits. -/
def batchMoves : List (Move Empty) :=
  boomMoves ++ List.replicate 5 Move.own ++ [Move.beginExit 3 .normal] ++ List.replicate 7 (Move.exit 3)

def playBatch (moves : List (Move Empty)) : List (System Supervisor Empty × SysAct Empty) × System Supervisor Empty :=
  let c := Runtime.supervisor .tasks ⟨⟨"n", 0⟩⟩
  let b : SupervisorBuilder := {
    specs := [{ id := "work", restart := .permanent }, { id := "log", restart := .permanent, shutdown := .brutalKill }]
    strategy := .oneForAll }
  System.played c ⟨"n", 0⟩ batchAnswers (System.init c ⟨"n", 0⟩ (fun _ => {}) b.build) moves

/-- A dynamic supervisor whose one child exits normally. -/
def calmDynamicRun : List (System DynamicSupervisor DynMsg × SysAct DynMsg) × System DynamicSupervisor DynMsg :=
  let c := Runtime.dynamicSupervisor .tasks ⟨⟨"n", 0⟩⟩
  System.played c ⟨"n", 0⟩ (calmAnswers []) (System.init c ⟨"n", 0⟩ (fun _ => {}) ({} : DynamicSupervisorBuilder).build)
    (List.replicate 4 Move.own ++
      [Move.message (DynMsg.startChild { id := "work", restart := .permanent } none), .spawn 2] ++
      List.replicate 6 Move.own ++ [Move.beginExit 2 .normal] ++ List.replicate 7 (Move.exit 2))

theorem run_playBatch (moves : List (Move Empty)) :
    ∃ w s₀, Run (SysStep (Runtime.supervisor .tasks ⟨⟨"n", 0⟩⟩) ⟨"n", 0⟩)
      (System.init (Runtime.supervisor .tasks ⟨⟨"n", 0⟩⟩) ⟨"n", 0⟩ w s₀) (playBatch moves).1 (playBatch moves).2 := by
  unfold playBatch
  exact ⟨_, _, System.run_played ..⟩

theorem run_calmDynamic : ∃ w s₀, Run (SysStep (Runtime.dynamicSupervisor .tasks ⟨⟨"n", 0⟩⟩) ⟨"n", 0⟩)
    (System.init (Runtime.dynamicSupervisor .tasks ⟨⟨"n", 0⟩⟩) ⟨"n", 0⟩ w s₀) calmDynamicRun.1 calmDynamicRun.2 := by
  unfold calmDynamicRun
  exact ⟨_, _, System.run_played ..⟩

/-- No exit was missed if the child was alive when its completion value was read. -/
theorem not_misses_of_alive {hist : List (System S M × SysAct M)} {kid : ActorId}
    (h : ∀ x ∈ hist, x.1.linkPc kid = .readReason → x.1.exits kid = none) : ¬∃ x ∈ hist, Misses me kid x := by
  rintro ⟨x, hx, -, hpc, reason, pc, hexit, -⟩
  rw [h x hx hpc] at hexit
  cases hexit

/-- The panic of the first child, and the normal exit of a dynamic one. -/
theorem supervisor_outlives_panic :
    Delivered ⟨"n", 0⟩ (playBatch boomMoves).2 2 (.panic "boom") ∧ Delivered ⟨"n", 0⟩ calmDynamicRun.2 2 .normal := by
  constructor
  · obtain ⟨w, s₀, hrun⟩ := run_playBatch boomMoves
    have hiff := ((supervisor_outlives_children .tasks ⟨⟨"n", 0⟩⟩).1 w s₀ _ _ 2 hrun).2 (.panic "boom") (by decide)
      (by decide) fun _ => nofun
    exact (hiff.mpr ⟨by decide, not_misses_of_alive (by decide)⟩).1
  · obtain ⟨w, s₀, hrun⟩ := run_calmDynamic
    have hiff := ((supervisor_outlives_children .tasks ⟨⟨"n", 0⟩⟩).2 w s₀ _ _ 2 hrun).2 .normal (by decide)
      (by decide) fun _ => nofun
    exact (hiff.mpr ⟨by decide, not_misses_of_alive (by decide)⟩).1

/-- **A batch kills its own supervisor.** The exit of the child that `terminate_children` has killed is not delivered. -/
theorem batch_kill_not_delivered :
    ¬∀ (rt : Runtime) (ctx : Context) (w : Cells) (s₀ : Supervisor)
      (hist : List (System Supervisor Empty × SysAct Empty)) (s : System Supervisor Empty) (kid : ActorId)
      (reason : ExitReason),
      Run (SysStep (rt.supervisor ctx) ctx.actorAddress) (System.init (rt.supervisor ctx) ctx.actorAddress w s₀) hist s →
      s.exits kid = some (reason, .done) → s.linkPc kid = .done → (∀ r, s.pc ≠ .exited r) →
      Delivered ctx.actorAddress s kid reason ∧ ¬∃ x ∈ hist, Strikes (rt.supervisor ctx) ctx.actorAddress kid x := by
  intro h
  obtain ⟨w, s₀, hrun⟩ := run_playBatch batchMoves
  have hdelivered := (h .tasks ⟨⟨"n", 0⟩⟩ w s₀ _ _ 3 .kill hrun (by decide) (by decide) fun _ => nofun).1
  exact absurd hdelivered (by unfold Delivered; decide)

end Spawned
