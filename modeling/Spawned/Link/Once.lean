import Spawned.Lib.Run
import Spawned.Link.Basic

/-!
# When linking delivers the exit exactly once

`link_handles(owner, target)` races with the exit of the target. The exit drains the target's table *before* the
completion value is set, and the fallback of `link_handles` reads the completion value: a link that enters the table
between the two is seen by neither side.

* `Owes k` : the `Exit`s from the target in the owner's lane, with those its exit sequence still has to send, are `k`;
* `Race.Inv` : what is owed at every point of `link_handles`, from whether the table was reached in time and whether
  the completion value was read;
* `Race.delivered_once_iff` : the exact condition.
-/

namespace Spawned

open Lib

/-! ## The tally of one pair -/

/-- The exit of `t` gives `o` exactly `k` `Exit`s: those in its lane and those still to come from the exit sequence. -/
structure Owes (here : NodeId) (o t : ActorId) (reason : ExitReason) (k : Nat) (w : Cells) (pc : ExitPc) : Prop where
  trapping : (w o).trapExit = true
  laneOpen : (w o).laneOpen = true
  nodup : (w t).links.Nodup
  tally : ∃ n, exitsFrom here t (w o).lane = List.replicate n { «from» := ⟨here, t⟩, reason } ∧
    n + (if pc = .drain then (w t).links.count o else pc.pending o) = k

section Pair

variable {here : NodeId} {o t : ActorId} {reason : ExitReason} {k : Nat} {w w' : Cells} {pc pc' : ExitPc}

/-- The tally reads the `Exit`s of `t` in the lane of `o`, and the table of `t`. -/
theorem Owes.congr (h : Owes here o t reason k w pc) (htrap : (w' o).trapExit = (w o).trapExit)
    (hopen : (w' o).laneOpen = (w o).laneOpen)
    (hlane : exitsFrom here t (w' o).lane = exitsFrom here t (w o).lane)
    (hlinks : (w' t).links.Nodup) (hcount : (if pc' = .drain then (w' t).links.count o else pc'.pending o) =
      if pc = .drain then (w t).links.count o else pc.pending o) : Owes here o t reason k w' pc' := by
  obtain ⟨n, hn, hk⟩ := h.tally
  exact ⟨htrap.trans h.trapping, hopen.trans h.laneOpen, hlinks, n, by rw [hlane, hn], by rw [hcount, hk]⟩

/-- One more signal from `t` reaches `o`. -/
theorem Owes.signal (h : Owes here o t reason k w pc) (hne : o ≠ t) (hr : reason ≠ .kill)
    {p : Nat} (hp : (if pc' = .drain then (w t).links.count o else pc'.pending o) + p =
      if pc = .drain then (w t).links.count o else pc.pending o) :
    Owes here o t reason (k + 1 - p) (w.modify o (makeSignal here t reason)) pc' := by
  obtain ⟨n, hn, hk⟩ := h.tally
  refine ⟨by simpa using h.trapping, by simpa using h.laneOpen, ?_, n + 1, ?_, ?_⟩
  · rw [Cells.modify_ne _ _ hne.symm]
    exact h.nodup
  · rw [Cells.modify_self, makeSignal_trapping hr h.trapping h.laneOpen, exitsFrom_append_self, hn,
      List.replicate_succ']
  · rw [Cells.modify_ne _ _ hne.symm]
    omega

/-- Every step of the exit sequence keeps the tally. -/
theorem Owes.step (hne : o ≠ t) (hr : reason ≠ .kill) (h : Owes here o t reason k w pc) :
    Owes here o t reason k (exitStep here t reason w pc).2 (exitStep here t reason w pc).1 := by
  cases pc with
  | drain =>
    -- the table moves into the list of drained entries
    refine h.congr ?_ ?_ ?_ ?_ ?_ <;> simp [exitStep, Cells.modify_ne _ _ hne, ExitPc.pending]
  | dropSelf entries =>
    cases entries with
    | nil => exact h.congr rfl rfl rfl h.nodup (by simp [exitStep, ExitPc.pending])
    | cons peer entries =>
      refine h.congr ?_ ?_ ?_ ?_ ?_ <;> simp only [exitStep, Cells.modify_apply]
      · split_ifs <;> rfl
      · split_ifs <;> rfl
      · split_ifs <;> rfl
      · split_ifs
        · exact nodup_dropLink h.nodup
        · exact h.nodup
      · simp [ExitPc.pending]
  | signalPeer peer entries =>
    by_cases hp : peer = o
    · subst hp
      exact h.signal hne hr (p := 1) (by simp [exitStep, ExitPc.pending])
    · refine h.congr ?_ ?_ ?_ ?_ ?_
      · simp [exitStep, Cells.modify_ne _ _ (Ne.symm hp)]
      · simp [exitStep, Cells.modify_ne _ _ (Ne.symm hp)]
      · simp [exitStep, Cells.modify_ne _ _ (Ne.symm hp)]
      · simp only [exitStep, Cells.modify_apply]
        split_ifs
        · simpa using h.nodup
        · exact h.nodup
      · simp [exitStep, ExitPc.pending, hp]
  | remoteLinks => exact h.congr rfl rfl rfl h.nodup (by simp [exitStep, ExitPc.pending])
  | removeActor => exact h.congr rfl rfl rfl h.nodup (by simp [exitStep, ExitPc.pending])
  | complete =>
    refine h.congr ?_ ?_ ?_ ?_ ?_ <;> simp [exitStep, Cells.modify_ne _ _ hne, ExitPc.pending, h.nodup]
  | done => exact h

/-- Changing the table of `o` changes nothing owed. -/
theorem Owes.modifyOwner (hne : o ≠ t) (h : Owes here o t reason k w pc) (f : List ActorId → List ActorId) :
    Owes here o t reason k (w.modify o fun c => { c with links := f c.links }) pc := by
  refine h.congr ?_ ?_ ?_ ?_ ?_ <;> simp [Cells.modify_ne _ _ hne.symm, h.nodup]

/-- Nor does changing the table of `t` once it is drained. -/
theorem Owes.modifyTarget (hne : o ≠ t) (h : Owes here o t reason k w pc) (hd : pc ≠ .drain)
    {f : List ActorId → List ActorId} (hf : (f (w t).links).Nodup) :
    Owes here o t reason k (w.modify t fun c => { c with links := f c.links }) pc := by
  refine h.congr ?_ ?_ ?_ ?_ ?_ <;> simp [Cells.modify_ne _ _ hne, hf, hd]

/-- A push in time: the drain will find exactly one entry of `o`. -/
theorem Owes.pushPeer (hne : o ≠ t) (h : Owes here o t reason k w .drain) (hsent : exitsFrom here t (w o).lane = []) :
    Owes here o t reason 1 (w.modify t fun c => { c with links := pushLink c.links o }) .drain := by
  have hmem : o ∈ pushLink (w t).links o := mem_pushLink.mpr (Or.inr rfl)
  have hnodup : (pushLink (w t).links o).Nodup := nodup_pushLink h.nodup
  refine ⟨?_, ?_, by simpa using hnodup, 0, ?_, ?_⟩
  · simpa [Cells.modify_ne _ _ hne] using h.trapping
  · simpa [Cells.modify_ne _ _ hne] using h.laneOpen
  · simpa [Cells.modify_ne _ _ hne] using hsent
  · simp [List.count_eq_one_of_mem hnodup hmem]

/-- Once drained, the exit sequence never looks at the table again. -/
theorem exitStep_ne_drain : (exitStep here t reason w pc).1 ≠ .drain := by
  cases pc with
  | dropSelf entries => cases entries <;> simp [exitStep]
  | _ => simp [exitStep]

/-- The exit of `t` touches `o`'s entry in the table of `t` by the drain only. -/
theorem mem_links_exitStep (hne : o ≠ t) :
    o ∈ ((exitStep here t reason w pc).2 t).links ↔ pc ≠ .drain ∧ o ∈ (w t).links := by
  cases pc with
  | drain => simp [exitStep]
  | dropSelf entries =>
    cases entries with
    | nil => simp [exitStep]
    | cons peer entries =>
      simp only [exitStep, Cells.modify_apply]
      split_ifs <;> simp [hne]
  | signalPeer peer entries =>
    simp only [exitStep, Cells.modify_apply]
    split_ifs <;> simp
  | complete => simp [exitStep]
  | _ => simp [exitStep]

/-- The completion value is the last thing the exit sequence sets. -/
theorem completion_exitStep (h : ∀ r, (w t).completion = some r ↔ pc = .done ∧ r = reason) (r : ExitReason) :
    ((exitStep here t reason w pc).2 t).completion = some r ↔
      (exitStep here t reason w pc).1 = .done ∧ r = reason := by
  cases pc with
  | drain => simpa [exitStep] using h r
  | dropSelf entries =>
    cases entries with
    | nil => simpa [exitStep] using h r
    | cons peer entries =>
      simp only [exitStep, Cells.modify_apply]
      split_ifs <;> simpa using h r
  | signalPeer peer entries =>
    simp only [exitStep, Cells.modify_apply]
    split_ifs <;> simpa using h r
  | complete => simp [exitStep, eq_comm]
  | _ => simpa [exitStep] using h r

end Pair

/-! ## The race -/

/-- A link about to be made: a trapping owner that stays alive, and a target that exits with `reason`. -/
structure Race where
  here : NodeId
  owner : ActorId
  target : ActorId
  reason : ExitReason
  cells : Cells
  /-- the owner stays alive and the target exits -/
  owner_ne : owner ≠ target
  reason_ne : reason ≠ .kill
  trapping : (cells owner).trapExit = true
  laneOpen : (cells owner).laneOpen = true
  /-- the target has not exited before -/
  alive : (cells target).completion = none
  unsent : exitsFrom here target (cells owner).lane = []
  /-- `register_link` never pushes a peer twice -/
  nodup : (cells target).links.Nodup

namespace Race

/-- The cells, and where the two parties are. -/
structure State where
  cells : Cells
  link : LinkPc
  exit : ExitPc

/-- Who takes the next step. -/
inductive Party
  | linker
  | target
deriving DecidableEq, Repr

variable (m : Race)

def init : State where
  cells := m.cells
  link := .pushOwn
  exit := .drain

/-- The party's next atomic step. -/
def next (s : State) : Party → State
  | .linker => { s with link := (linkStep m.here m.owner m.target s.cells s.link).1,
                        cells := (linkStep m.here m.owner m.target s.cells s.link).2 }
  | .target => { s with exit := (exitStep m.here m.target m.reason s.cells s.exit).1,
                        cells := (exitStep m.here m.target m.reason s.cells s.exit).2 }

theorem lanesGrow_next (s : State) (p : Party) : LanesGrow m.here s.cells (m.next s p).cells := by
  cases p with
  | linker => exact lanesGrow_linkStep m.here m.owner m.target s.cells s.link
  | target => exact lanesGrow_exitStep m.here m.target m.reason s.cells s.exit

/-- Any interleaving of the two parties' steps. -/
abbrev Runs : List (State × Party) → State → Prop := Run (fun s p s' => s' = m.next s p) m.init

/-- What the owner's lane has received from the target. -/
def received (s : State) : List Exit := exitsFrom m.here m.target (s.cells m.owner).lane

/-- `link_handles` pushed into the target's table before the exit drained it. -/
def PushedInTime (τ : List (State × Party)) : Prop :=
  ∃ x ∈ τ, x.2 = .linker ∧ x.1.link = .pushPeer ∧ x.1.exit = .drain

/-- `link_handles` read the target's exit reason after it was set. -/
def ReadAfterCompletion (τ : List (State × Party)) : Prop :=
  ∃ x ∈ τ, x.2 = .linker ∧ x.1.link = .readReason ∧ x.1.exit = .done

/-- The owner is in the target's table already, from an earlier link. -/
def LinkedBefore : Prop := m.owner ∈ (m.cells m.target).links

variable {m}

theorem pushedInTime_snoc {τ : List (State × Party)} {s : State} {p : Party} :
    PushedInTime (τ ++ [(s, p)]) ↔ PushedInTime τ ∨ (p = .linker ∧ s.link = .pushPeer ∧ s.exit = .drain) :=
  exists_mem_snoc

theorem readAfterCompletion_snoc {τ : List (State × Party)} {s : State} {p : Party} :
    ReadAfterCompletion (τ ++ [(s, p)]) ↔
      ReadAfterCompletion τ ∨ (p = .linker ∧ s.link = .readReason ∧ s.exit = .done) :=
  exists_mem_snoc

variable (m)

/-- The earlier link counts once. -/
def before : Nat := (m.cells m.target).links.count m.owner

/-- The exit gives the owner `k` `Exit`s. -/
abbrev Owed (k : Nat) (s : State) : Prop := Owes m.here m.owner m.target m.reason k s.cells s.exit

/-- The owner has an entry in the target's table, which the drain did not take. -/
abbrev Stray (s : State) : Prop := s.exit ≠ .drain ∧ m.owner ∈ (s.cells m.target).links

/-- What is owed at each point of `link_handles`: `A` says that the push was in time, `B` that the completion value was
read after it was set. -/
def OwedAt (A B : Prop) (s : State) : LinkPc → Prop
  | .pushOwn | .pushPeer => ¬A ∧ ¬B ∧ m.Owed m.before s ∧ ¬m.Stray s
  | .readReason => ¬B ∧ ((A ∧ m.Owed 1 s ∧ ¬m.Stray s) ∨ (¬A ∧ m.Owed m.before s ∧ m.Stray s))
  | .takeSelf reason => reason = m.reason ∧ B ∧ s.exit = .done ∧
      ((A ∧ m.Owed 1 s ∧ ¬m.Stray s) ∨ (¬A ∧ m.Owed m.before s ∧ m.Stray s))
  | .signal reason => reason = m.reason ∧ B ∧ ¬A ∧ s.exit = .done ∧ m.Owed m.before s
  | .done => (A ∧ m.Owed 1 s) ∨ (¬A ∧ s.exit ≠ .drain ∧
      ((B ∧ m.Owed (m.before + 1) s) ∨ (¬B ∧ m.Owed m.before s)))

/-- The invariant of the race. -/
structure Inv (τ : List (State × Party)) (s : State) : Prop where
  completion : ∀ r, (s.cells m.target).completion = some r ↔ s.exit = .done ∧ r = m.reason
  unsent : s.exit = .drain → m.received s = []
  owed : m.OwedAt (PushedInTime τ) (ReadAfterCompletion τ) s s.link

theorem inv_init : m.Inv [] m.init := by
  refine ⟨fun r => by simp [init, m.alive], fun _ => m.unsent, ?_⟩
  refine ⟨by simp [PushedInTime], by simp [ReadAfterCompletion], ?_, by simp [Stray, init]⟩
  exact ⟨m.trapping, m.laneOpen, m.nodup, 0, by simpa [init] using m.unsent, by simp [init, before]⟩

variable {m} {τ : List (State × Party)} {s : State}

/-- A step of the exit keeps what is owed, wherever `link_handles` is. -/
theorem OwedAt.exitStep {A B : Prop} {pc : LinkPc} (h : m.OwedAt A B s pc) : m.OwedAt A B (m.next s .target) pc := by
  have howed : ∀ {k}, m.Owed k s → m.Owed k (m.next s .target) := fun h => h.step m.owner_ne m.reason_ne
  have hstray : m.Stray (m.next s .target) ↔ m.Stray s := by
    simp [Stray, next, exitStep_ne_drain, mem_links_exitStep m.owner_ne]
  have hdrain : (m.next s .target).exit ≠ .drain := exitStep_ne_drain
  have hdone : s.exit = .done → (m.next s .target).exit = .done := fun h => by simp [next, h, Spawned.exitStep]
  cases pc with
  | pushOwn => exact ⟨h.1, h.2.1, howed h.2.2.1, hstray.not.mpr h.2.2.2⟩
  | pushPeer => exact ⟨h.1, h.2.1, howed h.2.2.1, hstray.not.mpr h.2.2.2⟩
  | readReason =>
    refine ⟨h.1, h.2.imp ?_ ?_⟩
    · exact And.imp_right (And.imp howed hstray.not.mpr)
    · exact And.imp_right (And.imp howed hstray.mpr)
  | takeSelf reason =>
    refine ⟨h.1, h.2.1, hdone h.2.2.1, h.2.2.2.imp ?_ ?_⟩
    · exact And.imp_right (And.imp howed hstray.not.mpr)
    · exact And.imp_right (And.imp howed hstray.mpr)
  | signal reason => exact ⟨h.1, h.2.1, h.2.2.1, hdone h.2.2.2.1, howed h.2.2.2.2⟩
  | done =>
    refine h.imp (And.imp_right howed) ?_
    rintro ⟨hA, -, hread⟩
    exact ⟨hA, hdrain, hread.imp (And.imp_right howed) (And.imp_right howed)⟩

/-- A step of `link_handles` leads to what its next point owes. -/
theorem Inv.linkStep (h : m.Inv τ s) : m.Inv (τ ++ [(s, .linker)]) (m.next s .linker) := by
  have hA := pushedInTime_snoc (τ := τ) (s := s) (p := .linker)
  have hB := readAfterCompletion_snoc (τ := τ) (s := s) (p := .linker)
  obtain ⟨w, pc, e⟩ := s
  obtain ⟨hc, hu, ho⟩ := h
  dsimp only at hc hu ho hA hB
  cases pc with
  | pushOwn =>
    simp only [reduceCtorEq, false_and, and_false, or_false] at hA hB
    obtain ⟨hnA, hnB, howed, hstray⟩ := ho
    refine ⟨?_, ?_, hA.not.mpr hnA, hB.not.mpr hnB, Owes.modifyOwner m.owner_ne howed (pushLink · m.target), ?_⟩
    · simpa [next, Spawned.linkStep, Cells.modify_ne _ _ m.owner_ne.symm] using hc
    · simpa [next, Spawned.linkStep, received] using hu
    · simpa [next, Spawned.linkStep, Cells.modify_ne _ _ m.owner_ne.symm] using hstray
  | pushPeer =>
    simp only [reduceCtorEq, false_and, and_false, or_false, true_and] at hA hB
    obtain ⟨hnA, hnB, howed, hstray⟩ := ho
    refine ⟨?_, ?_, hB.not.mpr hnB, ?_⟩
    · simpa [next, Spawned.linkStep] using hc
    · simpa [next, Spawned.linkStep, received, Cells.modify_ne _ _ m.owner_ne] using hu
    · by_cases hd : e = .drain
      · -- the table still has its reader
        subst hd
        exact Or.inl ⟨hA.mpr (Or.inr rfl), Owes.pushPeer m.owner_ne howed (hu rfl), by simp [next, Spawned.linkStep]⟩
      · refine Or.inr ⟨fun ha => (hA.mp ha).elim hnA hd, ?_, hd, ?_⟩
        · exact Owes.modifyTarget m.owner_ne howed hd (f := (pushLink · m.owner)) (nodup_pushLink howed.nodup)
        · simp [next, Spawned.linkStep, mem_pushLink]
  | readReason =>
    simp only [reduceCtorEq, false_and, and_false, or_false, true_and] at hA hB
    obtain ⟨hnB, ho⟩ := ho
    cases hr : (w m.target).completion with
    | some r =>
      obtain ⟨hdone, rfl⟩ := (hc r).mp hr
      subst hdone
      have hnext : m.next ⟨w, .readReason, .done⟩ .linker = ⟨w, .takeSelf m.reason, .done⟩ := by
        simp [next, Spawned.linkStep, hr]
      rw [hnext]
      exact ⟨hc, by simp, rfl, hB.mpr (Or.inr rfl), rfl, by simpa only [hA] using ho⟩
    | none =>
      -- the fallback sees a living target
      have hnd : e ≠ .done := fun he => by simpa [hr] using (hc m.reason).mpr ⟨he, rfl⟩
      have hnext : m.next ⟨w, .readReason, e⟩ .linker = ⟨w, .done, e⟩ := by
        simp [next, Spawned.linkStep, hr]
      rw [hnext]
      refine ⟨hc, hu, ho.imp ?_ ?_⟩
      · rintro ⟨ha, howed, -⟩
        exact ⟨hA.mpr ha, howed⟩
      · rintro ⟨ha, howed, hs⟩
        exact ⟨hA.not.mpr ha, hs.1, Or.inr ⟨fun hb => (hB.mp hb).elim hnB hnd, howed⟩⟩
  | takeSelf r =>
    simp only [reduceCtorEq, false_and, and_false, or_false] at hA hB
    obtain ⟨rfl, hb, hdone, ho⟩ := ho
    dsimp only at hdone
    subst hdone
    refine ⟨by simpa [next, Spawned.linkStep] using hc, by simp [next], ?_⟩
    have hdrop : ∀ {k} pc, m.Owed k ⟨w, .takeSelf m.reason, .done⟩ → m.Owed k ⟨w.modify m.target fun c =>
        { c with links := dropLink c.links m.owner }, pc, .done⟩ :=
      fun pc howed => Owes.modifyTarget m.owner_ne howed (by simp) (nodup_dropLink howed.nodup)
    rcases ho with ⟨ha, howed, hs⟩ | ⟨ha, howed, hs⟩
    · have hmem : m.owner ∉ (w m.target).links := by simpa [Stray] using hs
      have hpc : (m.next ⟨w, .takeSelf m.reason, .done⟩ .linker).link = .done := by
        simp only [next, Spawned.linkStep, length_dropLink_ne, hmem, if_false]
      rw [hpc]
      exact Or.inl ⟨hA.mpr ha, hdrop _ howed⟩
    · have hpc : (m.next ⟨w, .takeSelf m.reason, .done⟩ .linker).link = .signal m.reason := by
        simp only [next, Spawned.linkStep, length_dropLink_ne, hs.2, if_true]
      rw [hpc]
      exact ⟨rfl, hB.mpr hb, hA.not.mpr ha, rfl, hdrop _ howed⟩
  | signal r =>
    simp only [reduceCtorEq, false_and, and_false, or_false] at hA hB
    obtain ⟨rfl, hb, ha, hdone, howed⟩ := ho
    dsimp only at hdone
    subst hdone
    refine ⟨?_, by simp [next], Or.inr ⟨hA.not.mpr ha, by simp [next], Or.inl ⟨hB.mpr hb, ?_⟩⟩⟩
    · simpa [next, Spawned.linkStep, Cells.modify_ne _ _ m.owner_ne.symm] using hc
    · exact Owes.signal howed m.owner_ne m.reason_ne (p := 0) rfl
  | done =>
    simp only [reduceCtorEq, false_and, and_false, or_false] at hA hB
    exact ⟨hc, hu, by simpa only [next, Spawned.linkStep, OwedAt, hA, hB] using ho⟩

theorem Inv.exitStep (h : m.Inv τ s) : m.Inv (τ ++ [(s, .target)]) (m.next s .target) := by
  refine ⟨completion_exitStep h.completion, fun hd => absurd hd exitStep_ne_drain, ?_⟩
  simp only [pushedInTime_snoc, readAfterCompletion_snoc, reduceCtorEq, false_and, or_false]
  exact OwedAt.exitStep h.owed

/-- The invariant holds along every interleaving. -/
theorem inv_run (h : m.Runs τ s) : m.Inv τ s := by
  induction h with
  | nil => exact m.inv_init
  | @snoc τ s p s' _ hstep ih =>
    subst hstep
    cases p with
    | linker => exact ih.linkStep
    | target => exact ih.exitStep

/-- At no point has the lane received more than the earlier link and this one account for. -/
theorem Inv.received_le (h : m.Inv τ s) :
    ∃ n ≤ m.before + 1, m.received s = List.replicate n { «from» := ⟨m.here, m.target⟩, reason := m.reason } := by
  have hle : ∀ {k}, m.Owed k s → k ≤ m.before + 1 →
      ∃ n ≤ m.before + 1, m.received s = List.replicate n { «from» := ⟨m.here, m.target⟩, reason := m.reason } := by
    intro k howed hk
    obtain ⟨n, hn, hsum⟩ := howed.tally
    exact ⟨n, by omega, hn⟩
  have ho := h.owed
  unfold OwedAt at ho
  split at ho
  · exact hle ho.2.2.1 (by omega)
  · exact hle ho.2.2.1 (by omega)
  · rcases ho.2 with ⟨-, howed, -⟩ | ⟨-, howed, -⟩
    · exact hle howed (by omega)
    · exact hle howed (by omega)
  · rcases ho.2.2.2 with ⟨-, howed, -⟩ | ⟨-, howed, -⟩
    · exact hle howed (by omega)
    · exact hle howed (by omega)
  · exact hle ho.2.2.2.2 (by omega)
  · rcases ho with ⟨-, howed⟩ | ⟨-, -, ⟨-, howed⟩ | ⟨-, howed⟩⟩
    · exact hle howed (by omega)
    · exact hle howed (by omega)
    · exact hle howed (by omega)

/-- What a finished exit owed is in the lane. -/
theorem Owed.received {k : Nat} (h : m.Owed k s) (hdone : s.exit = .done) :
    m.received s = List.replicate k { «from» := ⟨m.here, m.target⟩, reason := m.reason } := by
  obtain ⟨n, hn, hk⟩ := h.tally
  obtain rfl : n = k := by simpa [hdone, ExitPc.pending] using hk
  exact hn

theorem replicate_eq_singleton {k : Nat} {e : Exit} : List.replicate k e = [e] ↔ k = 1 := by
  constructor
  · intro h
    simpa using congrArg List.length h
  · rintro rfl
    rfl

/-- **When linking delivers the exit exactly once.** Once both parties have finished, the owner's lane has received
exactly the one `Exit` of the target if and only if the link entered the target's table before the drain, or, for a
pair not linked before, its fallback read the exit reason after it was set (for a pair linked before, it did not). -/
theorem delivered_once_iff (m : Race) (τ : List (State × Party)) (s : State) (h : m.Runs τ s)
    (hlink : s.link = .done) (hexit : s.exit = .done) :
    m.received s = [{ «from» := ⟨m.here, m.target⟩, reason := m.reason }] ↔
      PushedInTime τ ∨ (ReadAfterCompletion τ ↔ ¬m.LinkedBefore) := by
  have ho := (inv_run h).owed
  rw [hlink] at ho
  have hone : m.LinkedBefore → m.before = 1 := fun hmem => List.count_eq_one_of_mem m.nodup hmem
  have hzero : ¬m.LinkedBefore → m.before = 0 := fun hmem => List.count_eq_zero_of_not_mem hmem
  rcases ho with ⟨ha, howed⟩ | ⟨ha, -, ⟨hb, howed⟩ | ⟨hb, howed⟩⟩ <;>
    rw [howed.received hexit, replicate_eq_singleton]
  · simp [ha]
  · by_cases hl : m.LinkedBefore
    · simp [ha, hb, hl, hone hl]
    · simp [ha, hb, hl, hzero hl]
  · by_cases hl : m.LinkedBefore
    · simp [ha, hb, hl, hone hl]
    · simp [ha, hb, hl, hzero hl]

/-- A trapping owner 1 and a target 2 that panics, not linked before. -/
def fresh : Race where
  here := "spawned@localhost"
  owner := 1
  target := 2
  reason := .panic "boom"
  cells := Cells.modify (fun _ => {}) 1 fun c => { c with trapExit := true }
  owner_ne := by decide
  reason_ne := by decide
  trapping := by decide
  laneOpen := by decide
  alive := by decide
  nodup := by decide
  unsent := by decide

theorem runs_play (m : Race) (parties : List Party) :
    m.Runs (play m.next m.init parties).1 (play m.next m.init parties).2 := run_play ..

/-- The link enters the table in time, and the exit delivers it. -/
theorem delivered_once_fresh :
    fresh.received (play fresh.next fresh.init
        ([Party.linker, .linker, .linker] ++ List.replicate 7 Party.target)).2 =
      [{ «from» := ⟨"spawned@localhost", 2⟩, reason := .panic "boom" }] := by
  refine (delivered_once_iff fresh _ _ (fresh.runs_play _) (by decide) (by decide)).mpr (Or.inl ?_)
  exact ⟨(fresh.next fresh.init .linker, .linker), by simp [play], rfl, rfl, rfl⟩

/-- **A lost exit.** The target drains its table, the owner links and still finds no exit reason, the target
completes: both have finished and the owner's lane is empty. -/
theorem link_after_drain_loses_exit :
    ¬∀ (m : Race) (τ : List (State × Party)) (s : State), m.Runs τ s → s.link = .done → s.exit = .done →
      m.received s = [{ «from» := ⟨m.here, m.target⟩, reason := m.reason }] := by
  intro h
  have hrun := fresh.runs_play ([Party.target, .linker, .linker, .linker] ++ List.replicate 4 Party.target)
  exact absurd (h fresh _ _ hrun (by decide) (by decide)) (by decide)

end Race

end Spawned
