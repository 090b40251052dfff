import Spawned.Cluster.RemoteMonitor
import Spawned.Lib.Run

/-!
# Remote links at the broker

Links and unlinks from other nodes for an actor of the broker, while it exits. The first link starts a wait task, which
tells all peers that are in the list when the actor has completed; a link that finds the actor gone tells its peer itself;
and `propagate_child_exit` tells the parent of the actor.

* `LinkPc.next`, `TaskPc.next` : `apply_link` and its wait task, by the locks they take;
* `Step` : the exit of the actor with any number of monitors, demonitors, links and unlinks;
* `Clear` : a link neither comes to a peer that has its answer, nor answers one whom a wait task answers, and no request
  looks for the actor while it is in neither table;
* `Telling` : how often a peer is told, given where its links are; `Traced` : by whom;
* `notified_once` : in a clear run every monitor and every link is answered once, and none is refused.
-/

namespace Spawned.BrokerExit

open Lib

/-- Where a link is in `apply_link`: it puts the peer into the list, looks for the actor in the `exited` table and then
in the `handles`, looks whether it has completed, and sees to the wait task; or it tells the peer itself. -/
inductive LinkPc
  | push
  | exited
  | handles
  | check
  | wait
  | answer
  /-- left to the wait task -/
  | done
  /-- answered by the link itself -/
  | answered
  /-- `Link: unknown local actor` -/
  | refused
deriving DecidableEq, Repr

structure LinkCall where
  peer : ActorAddress
  pc : LinkPc := .push
  /-- an unlink has taken the peer from the list -/
  unlinked : Bool := false
deriving DecidableEq, Repr

/-- Where a wait task is: waiting for the actor, about to take the list, and telling the peers it has taken. -/
inductive TaskPc
  | waiting
  | take
  | publish (peers : List ActorAddress)
deriving DecidableEq, Repr

structure Links where
  /-- `link_peers` of the actor -/
  peers : List ActorAddress := []
  /-- whether the actor is in `link_waits` -/
  waits : Bool := false
  calls : List LinkCall := []
  tasks : List TaskPc := []
  /-- the peers told by a `ChildExit`, in order -/
  childExits : List ActorAddress := []

/-- The next step of a link. -/
def LinkPc.next (life : Life) (l : Links) (peer : ActorAddress) : LinkPc → Option (LinkPc × Links)
  | .push => some (.exited, { l with peers := if peer ∈ l.peers then l.peers else l.peers ++ [peer] })
  | .exited => some (if life.exited then .answer else .handles, l)
  | .handles => some (if life.registered then .check else .refused, l)
  | .check => some (if life.completed then .answer else .wait, l)
  | .wait => some (.done, if l.waits then l else { l with waits := true, tasks := l.tasks ++ [.waiting] })
  | .answer => some (.answered, { l with childExits := l.childExits ++ [peer] })
  | .done => none
  | .answered => none
  | .refused => none

/-- The next step of a wait task. -/
def TaskPc.next (life : Life) (l : Links) : TaskPc → Option (TaskPc × Links)
  | .waiting => if life.completed then some (.take, { l with waits := false }) else none
  | .take => some (.publish l.peers, { l with peers := [] })
  | .publish (peer :: peers) => some (.publish peers, { l with childExits := l.childExits ++ [peer] })
  | .publish [] => none

inductive LinkAct
  | link (peer : ActorAddress)
  | call (i : Nat)
  | unlink (peer : ActorAddress)
  | task (i : Nat)
deriving DecidableEq, Repr

/-- A step of one of them, if it can take one. -/
def LinkAct.next (life : Life) (l : Links) : LinkAct → Option Links
  | .link peer => some { l with calls := l.calls ++ [{ peer }] }
  | .call i => do
    let call ← l.calls[i]?
    let (pc, l') ← call.pc.next life l call.peer
    some { l' with calls := l.calls.set i { call with pc } }
  | .unlink peer =>
    some
      { l with
        peers := l.peers.filter (· ≠ peer)
        calls := l.calls.map fun call =>
          if call.peer = peer ∧ call.pc ≠ .push ∧ peer ∈ l.peers then { call with unlinked := true } else call }
  | .task i => do
    let task ← l.tasks[i]?
    let (pc, l') ← task.next life l
    some { l' with tasks := l.tasks.set i pc }

theorem LinkAct.next_call {life : Life} {l l' : Links} {i : Nat} (h : (LinkAct.call i).next life l = some l') :
    ∃ call pc l₁, l.calls[i]? = some call ∧ call.pc.next life l call.peer = some (pc, l₁) ∧
      l' = { l₁ with calls := l.calls.set i { call with pc } } := by
  obtain ⟨call, hcall, h⟩ := Option.bind_eq_some_iff.mp h
  obtain ⟨⟨pc, l₁⟩, hnext, h⟩ := Option.bind_eq_some_iff.mp h
  exact ⟨call, pc, l₁, hcall, hnext, (Option.some.inj h).symm⟩

theorem LinkAct.next_task {life : Life} {l l' : Links} {i : Nat} (h : (LinkAct.task i).next life l = some l') :
    ∃ task pc l₁, l.tasks[i]? = some task ∧ task.next life l = some (pc, l₁) ∧
      l' = { l₁ with tasks := l.tasks.set i pc } := by
  obtain ⟨task, htask, h⟩ := Option.bind_eq_some_iff.mp h
  obtain ⟨⟨pc, l₁⟩, hnext, h⟩ := Option.bind_eq_some_iff.mp h
  exact ⟨task, pc, l₁, htask, hnext, (Option.some.inj h).symm⟩

/-! ## Whose links are clear -/

/-- The exit shows: in the `exited` table, or at the handle. -/
def Life.Over (life : Life) : Prop := life.exited = true ∨ life.completed = true

instance (life : Life) : Decidable life.Over := inferInstanceAs (Decidable (_ ∨ _))

/-- The task has still to take the list. -/
def TaskPc.pending : TaskPc → Bool
  | .publish _ => false
  | _ => true

/-- A wait task has still to take the list. -/
def Links.Pending (l : Links) : Prop := ∃ task ∈ l.tasks, task.pending = true

instance (l : Links) : Decidable l.Pending := inferInstanceAs (Decidable (∃ task ∈ l.tasks, _))

/-- A wait task has still to take the list, or may yet come to it: a link has found the actor alive. -/
def Links.Awaited (life : Life) (l : Links) : Prop :=
  l.Pending ∨ (∃ call ∈ l.calls, call.pc = .wait) ∨
    (life.completed = false ∧ ∃ call ∈ l.calls, call.pc = .handles ∨ call.pc = .check)

instance (life : Life) (l : Links) : Decidable (l.Awaited life) := inferInstanceAs (Decidable (_ ∨ _ ∨ _))

/-- A link of the peer has found the actor gone and answered. -/
def Links.AnsweredByLink (l : Links) (peer : ActorAddress) : Prop :=
  ∃ call ∈ l.calls, call.peer = peer ∧ call.pc = .answered

instance (l : Links) (peer : ActorAddress) : Decidable (l.AnsweredByLink peer) :=
  inferInstanceAs (Decidable (∃ call ∈ l.calls, _))

/-- The peer has its answer from a link of its own, or as the parent from `propagate_child_exit`. -/
def Links.Answered (parent : ActorAddress) (life : Life) (l : Links) (peer : ActorAddress) : Prop :=
  (peer = parent ∧ life.propagate = .done) ∨ l.AnsweredByLink peer

instance (parent : ActorAddress) (life : Life) (l : Links) (peer : ActorAddress) :
    Decidable (l.Answered parent life peer) := inferInstanceAs (Decidable (_ ∨ _))

/-- A link has put the peer into the list, and no unlink has taken it out. -/
def Links.Linked (l : Links) (peer : ActorAddress) : Prop :=
  ∃ call ∈ l.calls, call.peer = peer ∧ call.pc ≠ .push ∧ call.unlinked = false

instance (l : Links) (peer : ActorAddress) : Decidable (l.Linked peer) :=
  inferInstanceAs (Decidable (∃ call ∈ l.calls, _))

/-- No wait task answers the peer: its entry is in the list for which none comes, or was unlinked. -/
def Links.Unreached (life : Life) (l : Links) (peer : ActorAddress) : Prop :=
  if peer ∈ l.peers then ¬l.Awaited life else ¬l.Linked peer

instance (life : Life) (l : Links) (peer : ActorAddress) : Decidable (l.Unreached life peer) :=
  inferInstanceAs (Decidable (if peer ∈ l.peers then _ else _))

/-- The peer has no answer, and will get none from a wait task. -/
def Links.Apart (parent : ActorAddress) (life : Life) (l : Links) (peer : ActorAddress) : Prop :=
  ¬l.Answered parent life peer ∧ l.Unreached life peer

instance (parent : ActorAddress) (life : Life) (l : Links) (peer : ActorAddress) :
    Decidable (l.Apart parent life peer) := inferInstanceAs (Decidable (_ ∧ _))

/-- Once the exit shows, a link comes only to a peer that has no other link and no answer; a link answers only a peer that
is answered by nobody else; and no link looks into the `exited` table while the actor is in neither. -/
def LinkAct.Clear (parent : ActorAddress) (life : Life) (l : Links) : LinkAct → Prop
  | .call i => ∀ call ∈ l.calls[i]?,
      (call.pc = .push → life.Over → ¬l.Answered parent life call.peer ∧ ¬l.Linked call.peer) ∧
      (call.pc = .exited → life.propagate ≠ .unregistered) ∧
      (call.pc = .answer → l.Apart parent life call.peer)
  | _ => True

instance (parent : ActorAddress) (life : Life) (l : Links) : (act : LinkAct) → Decidable (act.Clear parent life l)
  | .call i => inferInstanceAs (Decidable (∀ call ∈ l.calls[i]?, _))
  | .link _ => inferInstanceAs (Decidable True)
  | .unlink _ => inferInstanceAs (Decidable True)
  | .task _ => inferInstanceAs (Decidable True)

/-! ## The system -/

structure State where
  life : Life := {}
  monitors : Monitors := {}
  links : Links := {}

inductive Act
  | complete
  | unregister
  | insertExited
  | publishParent
  | monitor (act : MonitorAct)
  | link (act : LinkAct)
deriving DecidableEq, Repr

/-- A step at the broker of the actor's node, if it can be taken; `parent` is the parent that had the actor spawned. -/
def State.next (parent : ActorAddress) (s : State) : Act → Option State
  | .complete => some { s with life := { s.life with completed := true } }
  | .unregister =>
    if s.life.propagate = .idle then some { s with life := { s.life with propagate := .unregistered } } else none
  | .insertExited =>
    if s.life.propagate = .unregistered then some { s with life := { s.life with propagate := .publish } } else none
  | .publishParent =>
    if s.life.propagate = .publish then
      some
        { s with
          life := { s.life with propagate := .done }
          links := { s.links with childExits := s.links.childExits ++ [parent] } }
    else none
  | .monitor act => (act.next s.life s.monitors).map fun monitors => { s with monitors }
  | .link act => (act.next s.life s.links).map fun links => { s with links }

abbrev Step (parent : ActorAddress) (s : State) (act : Act) (s' : State) : Prop := s.next parent act = some s'

/-- Monitors have references of their own; links and `propagate_child_exit` answer whom nobody else does; the actor is not
taken from the `handles` while a link has looked for it in the `exited` table only, and no request looks there while it is
in neither. -/
def Clear (parent : ActorAddress) (s : State) : Act → Prop
  | .complete => True
  | .unregister => ∀ call ∈ s.links.calls, call.pc ≠ .handles
  | .insertExited => True
  | .publishParent => ¬s.links.AnsweredByLink parent ∧ s.links.Unreached s.life parent
  | .monitor act => act.Clear s.life s.monitors
  | .link act => act.Clear parent s.life s.links

instance (parent : ActorAddress) (s : State) : (act : Act) → Decidable (Clear parent s act)
  | .complete => inferInstanceAs (Decidable True)
  | .unregister => inferInstanceAs (Decidable (∀ call ∈ s.links.calls, _))
  | .insertExited => inferInstanceAs (Decidable True)
  | .publishParent => inferInstanceAs (Decidable (_ ∧ s.links.Unreached s.life parent))
  | .monitor act => inferInstanceAs (Decidable (act.Clear s.life s.monitors))
  | .link act => inferInstanceAs (Decidable (act.Clear parent s.life s.links))

/-! ## Each peer is told once -/

/-- How often a wait task has still to tell the peer. -/
def TaskPc.toTell (peer : ActorAddress) : TaskPc → Nat
  | .publish peers => peers.count peer
  | _ => 0

/-- How often the peer has been told, or will be by a wait task that has taken the list. -/
def Links.told (l : Links) (peer : ActorAddress) : Nat :=
  l.childExits.count peer + (l.tasks.map (TaskPc.toTell peer)).sum

/-- The peer can be told outside of the wait tasks: it has not been told, and no wait task will find it in the list. -/
def Links.Untold (life : Life) (l : Links) (peer : ActorAddress) : Prop :=
  l.told peer = 0 ∧ (l.Awaited life → peer ∉ l.peers)

section Told

variable {life : Life} {l l' : Links} {peer : ActorAddress}

theorem Links.told_tell (l : Links) (peer p : ActorAddress) :
    Links.told { l with childExits := l.childExits ++ [peer] } p = l.told p + if p = peer then 1 else 0 := by
  simp only [Links.told, List.count_append, List.count_singleton, beq_iff_eq]
  by_cases hp : p = peer
  · simp [hp]
    omega
  · simp [hp, Ne.symm hp]

theorem Links.told_spawn (l : Links) (p : ActorAddress) :
    Links.told { l with waits := true, tasks := l.tasks ++ [.waiting] } p = l.told p := by
  simp [Links.told, TaskPc.toTell]

/-- Taking the list is what makes a wait task tell. -/
theorem TaskPc.told_next {i : Nat} {task pc : TaskPc} (htask : l.tasks[i]? = some task)
    (h : task.next life l = some (pc, l')) (p : ActorAddress) :
    Links.told { l' with tasks := l.tasks.set i pc } p = l.told p + if task = .take then l.peers.count p else 0 := by
  have hsum := sum_map_set (TaskPc.toTell p) htask pc
  cases task with
  | waiting =>
    obtain ⟨-, rfl, rfl⟩ := by simpa [TaskPc.next] using h
    simp only [TaskPc.toTell] at hsum
    simp only [Links.told, reduceCtorEq, if_false]
    omega
  | take =>
    obtain ⟨rfl, rfl⟩ := by simpa [TaskPc.next] using h
    simp only [TaskPc.toTell] at hsum
    simp only [Links.told, if_true]
    omega
  | publish peers =>
    cases peers with
    | nil => cases h
    | cons peer peers =>
      obtain ⟨rfl, rfl⟩ := by simpa [TaskPc.next] using h
      simp only [TaskPc.toTell, List.count_cons] at hsum
      simp only [Links.told, List.count_append, List.count_singleton, reduceCtorEq, if_false]
      omega

end Told

/-- What holds of a link, given whether its peer is in the list, how often it is told, and whether a wait task has still
to take the list. -/
def LinkPc.Holds (life : Life) (listed : Prop) (told : Nat) (pending : Prop) (unlinked : Bool) : LinkPc → Prop
  | .push => True
  | .exited => unlinked = false → listed ∨ told = 1
  | .handles => life.registered = true ∧ (unlinked = false → listed ∨ told = 1)
  | .check => unlinked = false → listed ∨ told = 1
  | .wait => unlinked = false → listed ∨ told = 1
  | .answer => life.Over
  | .done => unlinked = false → told = 1 ∨ (listed ∧ pending)
  | .answered => unlinked = false → told = 1 ∨ (listed ∧ pending)
  | .refused => False

namespace LinkPc.Holds

variable {life life' : Life} {listed listed' pending pending' : Prop} {told told' : Nat} {unlinked : Bool} {pc : LinkPc}

/-- Who was in the list is still there, or is told. -/
theorem mono (h : pc.Holds life listed told pending unlinked) (hreg : pc = .handles → life'.registered = true)
    (hover : life.Over → life'.Over) (hlisted : listed → listed' ∨ told' = 1) (htold : told = 1 → told' = 1)
    (hpending : listed → pending → (listed' ∧ pending') ∨ told' = 1) :
    pc.Holds life' listed' told' pending' unlinked := by
  have hnext : (unlinked = false → listed ∨ told = 1) → unlinked = false → listed' ∨ told' = 1 := by
    intro hold hnot
    rcases hold hnot with hl | ht
    · exact hlisted hl
    · exact Or.inr (htold ht)
  have hend : (unlinked = false → told = 1 ∨ (listed ∧ pending)) →
      unlinked = false → told' = 1 ∨ (listed' ∧ pending') := by
    intro hold hnot
    rcases hold hnot with ht | ⟨hl, hp⟩
    · exact Or.inl (htold ht)
    · exact (hpending hl hp).symm
  cases pc with
  | push => trivial
  | exited => exact hnext h
  | handles => exact ⟨hreg rfl, hnext h.2⟩
  | check => exact hnext h
  | wait => exact hnext h
  | answer => exact hover h
  | done => exact hend h
  | answered => exact hend h
  | refused => exact h

theorem registered (h : pc.Holds life listed told pending unlinked) (hpc : pc = .handles) : life.registered = true := by
  subst hpc
  exact h.1

/-- Nothing is asked for a link that was unlinked. -/
theorem unlink (h : pc.Holds life listed told pending unlinked) : pc.Holds life listed' told' pending' true := by
  cases pc with
  | push => trivial
  | handles => exact ⟨h.1, by simp⟩
  | answer => exact h
  | refused => exact h
  | _ =>
    intro hnot
    cases hnot

end LinkPc.Holds

/-- What every run keeps. -/
structure Telling (life : Life) (l : Links) : Prop where
  waits : l.waits = true → .waiting ∈ l.tasks
  started : ∀ task ∈ l.tasks, task ≠ .waiting → life.completed = true
  nodup : l.peers.Nodup
  early : ¬life.Over → ∀ peer, l.told peer = 0
  list : l.Awaited life → ∀ peer ∈ l.peers, l.told peer = 0
  once : ∀ peer, l.told peer ≤ 1
  calls : ∀ call ∈ l.calls, call.pc.Holds life (call.peer ∈ l.peers) (l.told call.peer) l.Pending call.unlinked

namespace Telling

variable {life life' : Life} {l l' : Links}

theorem init (life : Life) : Telling life {} := by
  refine ⟨by simp, by simp, by simp, ?_, by simp, ?_, by simp⟩ <;> simp [Links.told]

/-- The exit of the actor goes on. -/
theorem age (h : Telling life l) (hover : life.Over → life'.Over)
    (hcompleted : life.completed = true → life'.completed = true)
    (hreg : ∀ call ∈ l.calls, call.pc = .handles → life'.registered = true) : Telling life' l := by
  refine ⟨h.waits, ?_, h.nodup, ?_, ?_, h.once, ?_⟩
  · exact fun task htask hne => hcompleted (h.started task htask hne)
  · exact fun hnot => h.early fun hold => hnot (hover hold)
  · intro hawaited
    apply h.list
    rcases hawaited with hp | hw | ⟨hnot, hc⟩
    · exact Or.inl hp
    · exact Or.inr (Or.inl hw)
    · refine Or.inr (Or.inr ⟨?_, hc⟩)
      by_contra hne
      rw [hcompleted (by simpa using hne)] at hnot
      cases hnot
  · intro call hcall
    exact (h.calls call hcall).mono (hreg call hcall) hover Or.inl id fun hl hp => Or.inl ⟨hl, hp⟩

/-- A peer is told outside of the wait tasks. -/
theorem tell (h : Telling life l) (hover : life.Over) {peer : ActorAddress} (huntold : l.Untold life peer) :
    Telling life { l with childExits := l.childExits ++ [peer] } := by
  obtain ⟨hzero, hunlisted⟩ := huntold
  have htold := l.told_tell peer
  have hother : ∀ p, l.told p = 1 → p ≠ peer := by
    rintro p hone rfl
    omega
  refine ⟨h.waits, h.started, h.nodup, fun hnot => absurd hover hnot, ?_, ?_, ?_⟩
  · intro hawaited p hp
    have hne : p ≠ peer := by
      rintro rfl
      exact hunlisted hawaited hp
    rw [htold, if_neg hne]
    exact h.list hawaited p hp
  · intro p
    rw [htold]
    by_cases hp : p = peer
    · subst hp
      simp [hzero]
    · simpa [hp] using h.once p
  · intro call hcall
    refine (h.calls call hcall).mono (h.calls call hcall).registered id Or.inl ?_ fun hl hp => Or.inl ⟨hl, hp⟩
    intro hone
    rw [htold, if_neg (hother _ hone), hone]

/-- A link goes on to `pc`. -/
theorem move (h : Telling life l) (i : Nat) {call : LinkCall} {pc : LinkPc}
    (hholds : pc.Holds life (call.peer ∈ l.peers) (l.told call.peer) l.Pending call.unlinked)
    (hlist : pc = .wait ∨ (life.completed = false ∧ (pc = .handles ∨ pc = .check)) →
      ∀ peer ∈ l.peers, l.told peer = 0) : Telling life { l with calls := l.calls.set i { call with pc } } := by
  refine ⟨h.waits, h.started, h.nodup, h.early, ?_, h.once, ?_⟩
  · rintro (hp | ⟨c, hc, hpc⟩ | ⟨hnot, c, hc, hpc⟩)
    · exact h.list (Or.inl hp)
    · rcases List.mem_or_eq_of_mem_set hc with hc | rfl
      · exact h.list (Or.inr (Or.inl ⟨c, hc, hpc⟩))
      · exact hlist (Or.inl hpc)
    · rcases List.mem_or_eq_of_mem_set hc with hc | rfl
      · exact h.list (Or.inr (Or.inr ⟨hnot, c, hc, hpc⟩))
      · exact hlist (Or.inr ⟨hnot, hpc⟩)
  · intro c hc
    rcases List.mem_or_eq_of_mem_set hc with hc | rfl
    · exact h.calls c hc
    · exact hholds

theorem link (h : Telling life l) (peer : ActorAddress) : Telling life { l with calls := l.calls ++ [{ peer }] } := by
  refine ⟨h.waits, h.started, h.nodup, h.early, ?_, h.once, ?_⟩
  · intro hawaited
    apply h.list
    simpa [Links.Awaited, Links.Pending] using hawaited
  · intro call hcall
    rcases List.mem_append.mp hcall with hcall | hcall
    · exact h.calls call hcall
    · obtain rfl : call = { peer } := by simpa using hcall
      trivial

/-- A peer comes into the list. -/
theorem push (h : Telling life l) {peer : ActorAddress} (hzero : l.told peer = 0) :
    Telling life { l with peers := if peer ∈ l.peers then l.peers else l.peers ++ [peer] } := by
  by_cases hin : peer ∈ l.peers
  · rw [if_pos hin]
    exact h
  · rw [if_neg hin]
    refine ⟨h.waits, h.started, ?_, h.early, ?_, h.once, ?_⟩
    · exact List.nodup_append.mpr ⟨h.nodup, by simp, fun p hp q hq he => hin (by simp_all)⟩
    · intro hawaited p hp
      rcases List.mem_append.mp hp with hp | hp
      · exact h.list hawaited p hp
      · obtain rfl : p = peer := by simpa using hp
        exact hzero
    · intro call hcall
      have hkeep : call.peer ∈ l.peers → call.peer ∈ l.peers ++ [peer] := List.mem_append_left _
      exact (h.calls call hcall).mono (h.calls call hcall).registered id (fun hl => Or.inl (hkeep hl)) id
        fun hl hp => Or.inl ⟨hkeep hl, hp⟩

/-- A wait task begins. -/
theorem spawn (h : Telling life l) (hawaited : l.Awaited life) :
    Telling life { l with waits := true, tasks := l.tasks ++ [.waiting] } := by
  have htold := l.told_spawn
  refine ⟨by simp, ?_, h.nodup, ?_, ?_, ?_, ?_⟩
  · intro task htask hne
    rcases List.mem_append.mp htask with htask | htask
    · exact h.started task htask hne
    · exact absurd (by simpa using htask) hne
  · intro hnot p
    rw [htold]
    exact h.early hnot p
  · intro _ p hp
    rw [htold]
    exact h.list hawaited p hp
  · intro p
    rw [htold]
    exact h.once p
  · intro call hcall
    rw [htold]
    refine (h.calls call hcall).mono (h.calls call hcall).registered id Or.inl id fun hl _ => Or.inl ⟨hl, ?_⟩
    exact ⟨.waiting, by simp, rfl⟩

/-- The step of a link: what it does to the tables, and then where it is. -/
theorem call (h : Telling life l) {i : Nat} {call : LinkCall} {pc : LinkPc} (hcall : l.calls[i]? = some call)
    (hpush : call.pc = .push → l.told call.peer = 0) (hwindow : call.pc = .exited → life.propagate ≠ .unregistered)
    (hanswer : call.pc = .answer → l.Untold life call.peer) (hnext : call.pc.next life l call.peer = some (pc, l')) :
    Telling life { l' with calls := l.calls.set i { call with pc } } := by
  have hmem := List.mem_of_getElem? hcall
  have hholds := h.calls call hmem
  cases hpc : call.pc <;> rw [hpc] at hnext hholds
  case push =>
    obtain ⟨rfl, rfl⟩ := by simpa [LinkPc.next] using hnext
    refine (h.push (hpush hpc)).move i (fun _ => Or.inl ?_) (by simp)
    show call.peer ∈ if call.peer ∈ l.peers then l.peers else l.peers ++ [call.peer]
    split <;> simp_all
  case exited =>
    obtain ⟨rfl, rfl⟩ := by simpa [LinkPc.next] using hnext
    cases hexited : life.exited with
    | true => exact h.move i (Or.inl hexited) (by simp)
    | false =>
      have hreg : life.registered = true := by
        have hne := hwindow hpc
        cases hp : life.propagate <;> simp_all [Life.registered, Life.exited]
      refine h.move i ⟨hreg, hholds⟩ ?_
      rintro (hw | ⟨hnot, -⟩)
      · cases hw
      · exact fun p _ => h.early (fun hover => by simp [Life.Over, hexited, hnot] at hover) p
  case handles =>
    obtain ⟨rfl, rfl⟩ := by simpa [LinkPc.next] using hnext
    rw [hholds.1]
    refine h.move i hholds.2 ?_
    rintro (hw | ⟨hnot, -⟩)
    · cases hw
    · exact h.list (Or.inr (Or.inr ⟨hnot, call, hmem, Or.inl hpc⟩))
  case check =>
    obtain ⟨rfl, rfl⟩ := by simpa [LinkPc.next] using hnext
    cases hcompleted : life.completed with
    | true => exact h.move i (Or.inr hcompleted) (by simp)
    | false =>
      refine h.move i hholds fun _ => ?_
      exact h.list (Or.inr (Or.inr ⟨hcompleted, call, hmem, Or.inr hpc⟩))
  case wait =>
    obtain ⟨rfl, rfl⟩ := by simpa [LinkPc.next] using hnext
    have hdone : ∀ {l₁ : Links}, l₁.peers = l.peers → l₁.told call.peer = l.told call.peer → l₁.Pending →
        LinkPc.done.Holds life (call.peer ∈ l₁.peers) (l₁.told call.peer) l₁.Pending call.unlinked := by
      intro l₁ hpeers htold hpending hnot
      rw [hpeers, htold]
      exact (hholds hnot).symm.imp id fun hl => ⟨hl, hpending⟩
    cases hwaits : l.waits with
    | true =>
      rw [if_pos rfl]
      exact h.move i (hdone rfl rfl ⟨.waiting, h.waits hwaits, rfl⟩) (by simp)
    | false =>
      rw [if_neg (by simp)]
      exact (h.spawn (Or.inr (Or.inl ⟨call, hmem, hpc⟩))).move i
        (hdone rfl (l.told_spawn _) ⟨.waiting, by simp, rfl⟩) (by simp)
  case answer =>
    obtain ⟨rfl, rfl⟩ := by simpa [LinkPc.next] using hnext
    have huntold := hanswer hpc
    refine (h.tell hholds huntold).move i (fun _ => Or.inl ?_) (by simp)
    have hzero := huntold.1
    simp only [Links.told, List.count_append, List.count_singleton_self] at hzero ⊢
    omega
  case done => cases hnext
  case answered => cases hnext
  case refused => cases hnext

/-- A peer goes from the list, and with it the links that had put it there. -/
theorem unlink (h : Telling life l) (peer : ActorAddress) :
    Telling life
      { l with
        peers := l.peers.filter (· ≠ peer)
        calls := l.calls.map fun call =>
          if call.peer = peer ∧ call.pc ≠ .push ∧ peer ∈ l.peers then { call with unlinked := true } else call } := by
  have hpc : ∀ call : LinkCall, (if call.peer = peer ∧ call.pc ≠ .push ∧ peer ∈ l.peers then
      { call with unlinked := true } else call).pc = call.pc := by
    intro call
    split <;> rfl
  refine ⟨h.waits, h.started, h.nodup.filter _, h.early, ?_, h.once, ?_⟩
  · intro hawaited p hp
    refine h.list ?_ p (List.mem_of_mem_filter hp)
    simpa only [Links.Awaited, Links.Pending, List.mem_map, exists_exists_and_eq_and, hpc] using hawaited
  · intro call hcall
    obtain ⟨call, hold, rfl⟩ := List.mem_map.mp hcall
    have hholds := h.calls call hold
    by_cases hmark : call.peer = peer ∧ call.pc ≠ .push ∧ peer ∈ l.peers
    · rw [if_pos hmark]
      exact hholds.unlink
    · rw [if_neg hmark]
      by_cases hpush : call.pc = .push
      · rw [hpush]
        trivial
      · have hkeep : call.peer ∈ l.peers → call.peer ∈ l.peers.filter (· ≠ peer) := by
          intro hin
          have hne : call.peer ≠ peer := fun he => hmark ⟨he, hpush, he ▸ hin⟩
          simp [hin, hne]
        exact hholds.mono hholds.registered id (fun hl => Or.inl (hkeep hl)) id fun hl hp => Or.inl ⟨hkeep hl, hp⟩

/-- What a wait task does: it begins to take the list, takes it, or tells a peer of those it has taken. -/
theorem task (h : Telling life l) {i : Nat} {task pc : TaskPc} (htask : l.tasks[i]? = some task)
    (hnext : task.next life l = some (pc, l')) : Telling life { l' with tasks := l.tasks.set i pc } := by
  have hmem := List.mem_of_getElem? htask
  have htells := TaskPc.told_next htask hnext
  have hstarted : life.completed = true → ∀ t ∈ l.tasks.set i pc, t ≠ .waiting → life.completed = true :=
    fun hc _ _ _ => hc
  cases task with
  | waiting =>
    obtain ⟨hcompleted, rfl, rfl⟩ := by simpa [TaskPc.next] using hnext
    have hpending : Links.Pending { l with waits := false, tasks := l.tasks.set i .take } :=
      ⟨.take, mem_set_self htask .take, rfl⟩
    have htold : ∀ p, Links.told { l with waits := false, tasks := l.tasks.set i .take } p = l.told p := htells
    refine ⟨by simp, hstarted hcompleted, h.nodup, fun hnot => absurd (Or.inr hcompleted) hnot, ?_, ?_, ?_⟩
    · intro _ p hp
      rw [htold]
      exact h.list (Or.inl ⟨.waiting, hmem, rfl⟩) p hp
    · intro p
      rw [htold]
      exact h.once p
    · intro call hcall
      rw [htold]
      exact (h.calls call hcall).mono (h.calls call hcall).registered id Or.inl id fun hl _ => Or.inl ⟨hl, hpending⟩
  | take =>
    obtain ⟨rfl, rfl⟩ := by simpa [TaskPc.next] using hnext
    have hcompleted := h.started _ hmem (by simp)
    have hlist := h.list (Or.inl ⟨.take, hmem, rfl⟩)
    have htold : ∀ p, Links.told { l with peers := [], tasks := l.tasks.set i (.publish l.peers) } p =
        l.told p + l.peers.count p := htells
    have hlisted : ∀ p ∈ l.peers, l.told p + l.peers.count p = 1 := by
      intro p hp
      rw [hlist p hp, List.count_eq_one_of_mem h.nodup hp]
    have hunlisted : ∀ p ∉ l.peers, l.told p + l.peers.count p = l.told p := by
      intro p hp
      rw [List.count_eq_zero.mpr hp, Nat.add_zero]
    refine ⟨?_, hstarted hcompleted, by simp, fun hnot => absurd (Or.inr hcompleted) hnot, by simp, ?_, ?_⟩
    · exact fun hw => mem_set_of_ne htask _ (h.waits hw) (by simp)
    · intro p
      rw [htold]
      by_cases hp : p ∈ l.peers
      · exact (hlisted p hp).le
      · rw [hunlisted p hp]
        exact h.once p
    · intro call hcall
      rw [htold]
      refine (h.calls call hcall).mono (h.calls call hcall).registered id (fun hl => Or.inr (hlisted _ hl)) ?_
        fun hl _ => Or.inr (hlisted _ hl)
      intro hone
      rw [hunlisted _ fun hin => by rw [hlist _ hin] at hone; cases hone]
      exact hone
  | publish peers =>
    cases peers with
    | nil => cases hnext
    | cons peer peers =>
      obtain ⟨rfl, rfl⟩ := by simpa [TaskPc.next] using hnext
      have hkeep : ∀ t ∈ l.tasks, t.pending = true → t ∈ l.tasks.set i (.publish peers) := by
        intro t ht hp
        refine mem_set_of_ne htask _ ht ?_
        rintro rfl
        cases hp
      have hback : ∀ t ∈ l.tasks.set i (.publish peers), t.pending = true → t ∈ l.tasks := by
        intro t ht hp
        rcases List.mem_or_eq_of_mem_set ht with ht | rfl
        · exact ht
        · cases hp
      have htold : ∀ p, Links.told
          { l with childExits := l.childExits ++ [peer], tasks := l.tasks.set i (.publish peers) } p = l.told p := htells
      have hcompleted := h.started _ hmem (by simp)
      refine ⟨fun hw => hkeep _ (h.waits hw) rfl, hstarted hcompleted, h.nodup,
        fun hnot => absurd (Or.inr hcompleted) hnot, ?_, ?_, ?_⟩
      · intro hawaited p hp
        rw [htold]
        refine h.list (hawaited.imp ?_ id) p hp
        rintro ⟨t, ht, hpending⟩
        exact ⟨t, hback t ht hpending, hpending⟩
      · intro p
        rw [htold]
        exact h.once p
      · intro call hcall
        rw [htold]
        refine (h.calls call hcall).mono (h.calls call hcall).registered id Or.inl id ?_
        rintro hl ⟨t, ht, hpending⟩
        exact Or.inl ⟨hl, t, hkeep t ht hpending, hpending⟩

end Telling

/-! ## Who has told the peers -/

/-- A peer that is told is the parent, or has a link that told it or that was not unlinked. -/
structure Traced (parent : ActorAddress) (life : Life) (l : Links) : Prop where
  pushing : ∀ call ∈ l.calls, call.pc = .push → call.unlinked = false
  listed : ∀ peer ∈ l.peers, l.Linked peer ∧ (l.told peer = 0 ∨ l.Answered parent life peer)
  told : ∀ peer, l.told peer = 0 ∨ l.Answered parent life peer ∨ l.Linked peer

namespace Traced

variable {parent peer : ActorAddress} {life life' : Life} {l l' : Links}

theorem init (parent : ActorAddress) (life : Life) : Traced parent life {} := by
  refine ⟨by simp, by simp, fun peer => Or.inl ?_⟩
  simp [Links.told]

/-- What is asked of a link that comes once the exit shows. -/
theorem told_of_push (h : Traced parent life l) (ht : Telling life l)
    (hclear : life.Over → ¬l.Answered parent life peer ∧ ¬l.Linked peer) : l.told peer = 0 := by
  by_cases hover : life.Over
  · obtain ⟨hanswered, hlinked⟩ := hclear hover
    rcases h.told peer with hzero | ha | hl
    · exact hzero
    · exact absurd ha hanswered
    · exact absurd hl hlinked
  · exact ht.early hover peer

/-- A peer apart is told by nobody else. -/
theorem untold (h : Traced parent life l) (hapart : l.Apart parent life peer) : l.Untold life peer := by
  obtain ⟨hanswered, hrest⟩ := hapart
  unfold Links.Unreached at hrest
  split at hrest
  · next hin => exact ⟨(h.listed peer hin).2.resolve_right hanswered, fun ha => absurd ha hrest⟩
  · next hnot =>
    refine ⟨?_, fun _ => hnot⟩
    rcases h.told peer with hzero | ha | hl
    · exact hzero
    · exact absurd ha hanswered
    · exact absurd hl hrest

/-- Links stay, and answers too, while the others are told as before. -/
theorem mono (h : Traced parent life l) (hpushing : ∀ call ∈ l'.calls, call.pc = .push → call.unlinked = false)
    (hpeers : ∀ p ∈ l'.peers, p ∈ l.peers) (hlinked : ∀ p, l.Linked p → l'.Linked p)
    (hanswered : ∀ p, l.Answered parent life p → l'.Answered parent life' p)
    (htold : ∀ p, l'.told p = l.told p ∨ l'.Answered parent life' p) : Traced parent life' l' := by
  refine ⟨hpushing, fun p hp => ?_, fun p => ?_⟩
  · obtain ⟨hlink, hzero⟩ := h.listed p (hpeers p hp)
    refine ⟨hlinked p hlink, ?_⟩
    rcases htold p with he | ha
    · rw [he]
      exact hzero.imp id (hanswered p)
    · exact Or.inr ha
  · rcases htold p with he | ha
    · rw [he]
      exact (h.told p).imp id (Or.imp (hanswered p) (hlinked p))
    · exact Or.inr (Or.inl ha)

theorem age (h : Traced parent life l) (hdone : life.propagate = .done → life'.propagate = .done) :
    Traced parent life' l :=
  h.mono h.pushing (fun _ hp => hp) (fun _ hl => hl) (fun _ ha => ha.imp (And.imp id hdone) id) fun _ => Or.inl rfl

/-- A link stays a link of its peer, and its answer stays, as long as it does not go back. -/
theorem move (h : Traced parent life l) {i : Nat} {call : LinkCall} (hcall : l.calls[i]? = some call) (pc : LinkPc)
    (hpc : pc ≠ .push) (hanswered : call.pc ≠ .answered) :
    Traced parent life { l with calls := l.calls.set i { call with pc } } := by
  have hkeep : ∀ c ∈ l.calls, c = call ∨ c ∈ l.calls.set i { call with pc } := by
    intro c hc
    by_cases he : c = call
    · exact Or.inl he
    · exact Or.inr (mem_set_of_ne hcall _ hc he)
  refine h.mono (fun c hc hpush => ?_) (fun _ hp => hp) (fun p hl => ?_) (fun p ha => ?_) fun _ => Or.inl rfl
  · rcases List.mem_or_eq_of_mem_set hc with hc | rfl
    · exact h.pushing c hc hpush
    · exact absurd hpush hpc
  · obtain ⟨c, hc, hpeer, hpast, hnot⟩ := hl
    rcases hkeep c hc with rfl | hc'
    · exact ⟨_, mem_set_self hcall _, hpeer, hpc, hnot⟩
    · exact ⟨c, hc', hpeer, hpast, hnot⟩
  · refine ha.imp id fun hans => ?_
    obtain ⟨c, hc, hpeer, hdone⟩ := hans
    rcases hkeep c hc with rfl | hc'
    · exact absurd hdone hanswered
    · exact ⟨c, hc', hpeer, hdone⟩

theorem link (h : Traced parent life l) (peer : ActorAddress) :
    Traced parent life { l with calls := l.calls ++ [{ peer }] } := by
  refine h.mono (fun c hc hpush => ?_) (fun _ hp => hp) (fun p hl => ?_) (fun p ha => ?_) fun _ => Or.inl rfl
  · rcases List.mem_append.mp hc with hc | hc
    · exact h.pushing c hc hpush
    · rw [List.mem_singleton.mp hc]
  · obtain ⟨c, hc, hrest⟩ := hl
    exact ⟨c, List.mem_append_left _ hc, hrest⟩
  · refine ha.imp id fun hans => ?_
    obtain ⟨c, hc, hrest⟩ := hans
    exact ⟨c, List.mem_append_left _ hc, hrest⟩

/-- The peer of a link comes into the list, and the link goes on. -/
theorem push (h : Traced parent life l) {i : Nat} {call : LinkCall} (hcall : l.calls[i]? = some call)
    (hpush : call.pc = .push) (hzero : l.told call.peer = 0) :
    Traced parent life
      { l with
        peers := if call.peer ∈ l.peers then l.peers else l.peers ++ [call.peer]
        calls := l.calls.set i { call with pc := .exited } } := by
  have hmoved := h.move hcall .exited (by simp) (by simp [hpush])
  refine ⟨hmoved.pushing, fun p hp => ?_, hmoved.told⟩
  have hp' : p ∈ l.peers ∨ p = call.peer := by
    dsimp only at hp
    split at hp
    · exact Or.inl hp
    · simpa using hp
  rcases hp' with hin | rfl
  · exact hmoved.listed p hin
  · refine ⟨⟨_, mem_set_self hcall _, rfl, by simp, ?_⟩, Or.inl hzero⟩
    exact h.pushing call (List.mem_of_getElem? hcall) hpush

/-- The step of a link. -/
theorem call (h : Traced parent life l) {i : Nat} {call : LinkCall} {pc : LinkPc} (hcall : l.calls[i]? = some call)
    (hpush : call.pc = .push → l.told call.peer = 0) (hnext : call.pc.next life l call.peer = some (pc, l')) :
    Traced parent life { l' with calls := l.calls.set i { call with pc } } := by
  cases hpc : call.pc <;> rw [hpc] at hnext
  case push =>
    obtain ⟨rfl, rfl⟩ := by simpa [LinkPc.next] using hnext
    exact h.push hcall hpc (hpush hpc)
  case exited =>
    obtain ⟨rfl, rfl⟩ := by simpa [LinkPc.next] using hnext
    exact h.move hcall _ (by split <;> simp) (by simp [hpc])
  case handles =>
    obtain ⟨rfl, rfl⟩ := by simpa [LinkPc.next] using hnext
    exact h.move hcall _ (by split <;> simp) (by simp [hpc])
  case check =>
    obtain ⟨rfl, rfl⟩ := by simpa [LinkPc.next] using hnext
    exact h.move hcall _ (by split <;> simp) (by simp [hpc])
  case wait =>
    obtain ⟨rfl, rfl⟩ := by simpa [LinkPc.next] using hnext
    have hmoved := h.move hcall .done (by simp) (by simp [hpc])
    split
    · exact hmoved
    · exact hmoved.mono hmoved.pushing (fun _ hp => hp) (fun _ hl => hl) (fun _ ha => ha)
        fun p => Or.inl (l.told_spawn p)
  case answer =>
    obtain ⟨rfl, rfl⟩ := by simpa [LinkPc.next] using hnext
    have hmoved := h.move hcall .answered (by simp) (by simp [hpc])
    refine hmoved.mono hmoved.pushing (fun _ hp => hp) (fun _ hl => hl) (fun _ ha => ha) fun p => ?_
    by_cases hp : p = call.peer
    · exact Or.inr (Or.inr ⟨_, mem_set_self hcall _, hp.symm, rfl⟩)
    · have htold := l.told_tell call.peer p
      rw [if_neg hp] at htold
      exact Or.inl htold
  case done => cases hnext
  case answered => cases hnext
  case refused => cases hnext

theorem unlink (h : Traced parent life l) (peer : ActorAddress) :
    Traced parent life
      { l with
        peers := l.peers.filter (· ≠ peer)
        calls := l.calls.map fun call =>
          if call.peer = peer ∧ call.pc ≠ .push ∧ peer ∈ l.peers then { call with unlinked := true } else call } := by
  have hlinked : ∀ p, (p = peer → peer ∉ l.peers) → l.Linked p → Links.Linked
      { l with
        peers := l.peers.filter (· ≠ peer)
        calls := l.calls.map fun call =>
          if call.peer = peer ∧ call.pc ≠ .push ∧ peer ∈ l.peers then { call with unlinked := true } else call } p := by
    rintro p hp ⟨c, hc, hpeer, hrest⟩
    refine ⟨c, List.mem_map.mpr ⟨c, hc, if_neg ?_⟩, hpeer, hrest⟩
    exact fun hmark => hp (hpeer.symm.trans hmark.1) hmark.2.2
  have hanswered : ∀ p, l.Answered parent life p → Links.Answered parent life
      { l with
        peers := l.peers.filter (· ≠ peer)
        calls := l.calls.map fun call =>
          if call.peer = peer ∧ call.pc ≠ .push ∧ peer ∈ l.peers then { call with unlinked := true } else call } p := by
    intro p ha
    refine ha.imp id ?_
    rintro ⟨c, hc, hpeer, hpc⟩
    refine ⟨_, List.mem_map_of_mem hc, ?_, ?_⟩ <;> split <;> assumption
  refine ⟨fun c hc hpush => ?_, fun p hp => ?_, fun p => ?_⟩
  · obtain ⟨old, hold, rfl⟩ := List.mem_map.mp hc
    by_cases hmark : old.peer = peer ∧ old.pc ≠ .push ∧ peer ∈ l.peers
    · rw [if_pos hmark] at hpush
      exact absurd hpush hmark.2.1
    · rw [if_neg hmark] at hpush ⊢
      exact h.pushing old hold hpush
  · obtain ⟨hin, hne⟩ := List.mem_filter.mp hp
    have hne' : p ≠ peer := by simpa using hne
    obtain ⟨hl, hzero⟩ := h.listed p hin
    exact ⟨hlinked p (fun he => absurd he hne') hl, hzero.imp id (hanswered p)⟩
  · by_cases hp : p = peer ∧ peer ∈ l.peers
    · -- an unlinked peer has not been told, or by a link of its own
      obtain ⟨rfl, hin⟩ := hp
      exact (h.listed p hin).2.imp id fun ha => Or.inl (hanswered p ha)
    · exact (h.told p).imp id (Or.imp (hanswered p) (hlinked p fun he hin => hp ⟨he, hin⟩))

/-- What a wait task tells was in the list. -/
theorem task (h : Traced parent life l) {i : Nat} {task pc : TaskPc} (htask : l.tasks[i]? = some task)
    (hnext : task.next life l = some (pc, l')) : Traced parent life { l' with tasks := l.tasks.set i pc } := by
  have htold := TaskPc.told_next htask hnext
  cases task with
  | waiting =>
    obtain ⟨-, rfl, rfl⟩ := by simpa [TaskPc.next] using hnext
    exact h.mono h.pushing (fun _ hp => hp) (fun _ hl => hl) (fun _ ha => ha) fun p => Or.inl (htold p)
  | take =>
    obtain ⟨rfl, rfl⟩ := by simpa [TaskPc.next] using hnext
    refine ⟨h.pushing, by simp, fun p => ?_⟩
    by_cases hp : p ∈ l.peers
    · exact Or.inr (Or.inr (h.listed p hp).1)
    · rw [htold, if_pos rfl, List.count_eq_zero.mpr hp, Nat.add_zero]
      exact h.told p
  | publish peers =>
    cases peers with
    | nil => cases hnext
    | cons peer peers =>
      obtain ⟨rfl, rfl⟩ := by simpa [TaskPc.next] using hnext
      exact h.mono h.pushing (fun _ hp => hp) (fun _ hl => hl) (fun _ ha => ha) fun p => Or.inl (htold p)

end Traced

/-- A clear step of a link, an unlink or a wait task keeps both. -/
theorem LinkAct.keeps {parent : ActorAddress} {life : Life} {l l' : Links} {act : LinkAct} (h : Telling life l)
    (ht : Traced parent life l) (hclear : act.Clear parent life l) (hs : act.next life l = some l') :
    Telling life l' ∧ Traced parent life l' := by
  cases act with
  | link peer =>
    obtain rfl := Option.some.inj hs
    exact ⟨h.link peer, ht.link peer⟩
  | call i =>
    obtain ⟨call, pc, l₁, hcall, hnext, rfl⟩ := LinkAct.next_call hs
    obtain ⟨hpush, hwindow, hanswer⟩ := hclear call hcall
    have hzero : call.pc = .push → l.told call.peer = 0 := fun hpc => ht.told_of_push h (hpush hpc)
    exact ⟨h.call hcall hzero hwindow (fun hpc => ht.untold (hanswer hpc)) hnext, ht.call hcall hzero hnext⟩
  | unlink peer =>
    obtain rfl := Option.some.inj hs
    exact ⟨h.unlink peer, ht.unlink peer⟩
  | task i =>
    obtain ⟨task, pc, l₁, htask, hnext, rfl⟩ := LinkAct.next_task hs
    exact ⟨h.task htask hnext, ht.task htask hnext⟩

/-! ## The whole run -/

/-- The actor has completed, and nothing under way can go on. -/
structure State.AtRest (s : State) : Prop where
  completed : s.life.completed = true
  monitors : ∀ call ∈ s.monitors.calls, call.pc.next s.life s.monitors.table call.key = none
  links : ∀ call ∈ s.links.calls, call.pc.next s.life s.links call.peer = none
  tasks : ∀ task ∈ s.links.tasks, task.next s.life s.links = none

theorem MonitorPc.eq_of_next_eq_none {pc : MonitorPc} {life : Life} {table : Finset MonitorKey} {key : MonitorKey}
    (hcompleted : life.completed = true) (h : pc.next life table key = none) : pc = .done ∨ pc = .refused := by
  cases pc <;> simp_all [MonitorPc.next]

theorem LinkPc.eq_of_next_eq_none {pc : LinkPc} {life : Life} {l : Links} {peer : ActorAddress}
    (h : pc.next life l peer = none) : pc = .done ∨ pc = .answered ∨ pc = .refused := by
  cases pc <;> simp_all [LinkPc.next]

theorem TaskPc.eq_of_next_eq_none {task : TaskPc} {life : Life} {l : Links} (hcompleted : life.completed = true)
    (h : task.next life l = none) : task = .publish [] := by
  cases task with
  | waiting => simp [TaskPc.next, hcompleted] at h
  | take => cases h
  | publish peers =>
    cases peers with
    | nil => rfl
    | cons peer peers => cases h

/-- Monitors are answered, and peers are told, at most once and in time. -/
structure Inv (parent : ActorAddress) (s : State) : Prop where
  answering : Answering s.life s.monitors
  telling : Telling s.life s.links
  traced : Traced parent s.life s.links

theorem inv_init (parent : ActorAddress) : Inv parent {} := ⟨Answering.init _, Telling.init _, Traced.init parent _⟩

theorem inv_step {parent : ActorAddress} {s s' : State} {act : Act} (h : Inv parent s) (hclear : Clear parent s act)
    (hs : Step parent s act s') : Inv parent s' := by
  obtain ⟨hanswering, htelling, htraced⟩ := h
  cases act with
  | complete =>
    obtain rfl := Option.some.inj hs
    refine ⟨hanswering.age id, htelling.age (fun hover => hover.imp id fun _ => rfl) (fun _ => rfl) ?_, htraced.age id⟩
    exact fun call hcall hpc => (htelling.calls call hcall).registered hpc
  | unregister =>
    obtain ⟨hpropagate, hnext⟩ := Option.ite_none_right_eq_some.mp hs
    obtain rfl := Option.some.inj hnext
    refine ⟨hanswering.age fun _ => rfl, htelling.age ?_ id fun call hcall hpc => absurd hpc (hclear call hcall),
      htraced.age (by simp [hpropagate])⟩
    refine fun hover => hover.imp (fun hexited => ?_) id
    simp [Life.exited, hpropagate] at hexited
  | insertExited =>
    obtain ⟨hpropagate, hnext⟩ := Option.ite_none_right_eq_some.mp hs
    obtain rfl := Option.some.inj hnext
    refine ⟨hanswering.age fun _ => rfl, htelling.age (fun _ => Or.inl rfl) id fun call hcall hpc => ?_,
      htraced.age (by simp [hpropagate])⟩
    have hreg := (htelling.calls call hcall).registered hpc
    simp [Life.registered, hpropagate] at hreg
  | publishParent =>
    obtain ⟨hpropagate, hnext⟩ := Option.ite_none_right_eq_some.mp hs
    obtain rfl := Option.some.inj hnext
    have hover : s.life.Over := Or.inl (by simp [Life.exited, hpropagate])
    have hapart : s.links.Apart parent s.life parent := by
      refine ⟨?_, hclear.2⟩
      rintro (⟨-, hdone⟩ | hanswered)
      · simp [hpropagate] at hdone
      · exact hclear.1 hanswered
    have htold := htelling.tell hover (htraced.untold hapart)
    refine ⟨hanswering.age fun _ => rfl, htold.age (fun _ => Or.inl rfl) id fun call hcall hpc => ?_, ?_⟩
    · have hreg := (htold.calls call hcall).registered hpc
      simp [Life.registered, hpropagate] at hreg
    · refine htraced.mono htraced.pushing (fun _ hp => hp) (fun _ hl => hl)
        (fun _ ha => ha.imp (And.imp id fun _ => rfl) id) fun p => ?_
      by_cases hp : p = parent
      · exact Or.inr (Or.inl ⟨hp, rfl⟩)
      · have htold := s.links.told_tell parent p
        rw [if_neg hp] at htold
        exact Or.inl htold
  | monitor act =>
    obtain ⟨monitors, hnext, rfl⟩ := Option.map_eq_some_iff.mp hs
    exact ⟨hanswering.step hclear hnext, htelling, htraced⟩
  | link act =>
    obtain ⟨links, hnext, rfl⟩ := Option.map_eq_some_iff.mp hs
    obtain ⟨ht, htr⟩ := LinkAct.keeps htelling htraced hclear hnext
    exact ⟨hanswering, ht, htr⟩

/-- **Remote monitors and links fire once.** For every run of monitors, demonitors, links and unlinks with the exit of
the actor, the wait tasks and `propagate_child_exit`, in which monitors have references of their own, links and
`propagate_child_exit` answer whom nobody else does, and requests do not fall between the tables: no monitor and no link
is refused, no `Down` and no `ChildExit` is published twice, and when all is at rest each monitor that was not demonitored
has had one `Down`, and the peer of each link that was not unlinked one `ChildExit`. -/
theorem notified_once {parent : ActorAddress} {τ : List (State × Act)} {s : State} (h : Run (Step parent) {} τ s)
    (hclear : ∀ x ∈ τ, Clear parent x.1 x.2) :
    (∀ call ∈ s.monitors.calls, call.pc ≠ .refused ∧ s.monitors.downs.count call.key ≤ 1) ∧
      (∀ call ∈ s.links.calls, call.pc ≠ .refused ∧ s.links.childExits.count call.peer ≤ 1) ∧
      (s.AtRest →
        (∀ call ∈ s.monitors.calls, call.demonitored = false → s.monitors.downs.count call.key = 1) ∧
        ∀ call ∈ s.links.calls, call.unlinked = false → s.links.childExits.count call.peer = 1) := by
  obtain ⟨hanswering, htelling, -⟩ : Inv parent s :=
    h.inv_of_steps (inv_init parent) (fun s act s' hi hP hs => inv_step hi hP hs) hclear
  have hmonitor : ∀ call ∈ s.monitors.calls, call.pc ≠ .refused := by
    intro call hcall hpc
    have hholds := hanswering.holds call hcall
    rw [hpc] at hholds
    exact hholds
  have hlink : ∀ call ∈ s.links.calls, call.pc ≠ .refused := by
    intro call hcall hpc
    have hholds := htelling.calls call hcall
    rw [hpc] at hholds
    exact hholds
  refine ⟨fun call hcall => ⟨hmonitor call hcall, ?_⟩, fun call hcall => ⟨hlink call hcall, ?_⟩, fun hrest => ⟨?_, ?_⟩⟩
  · exact (hanswering.holds call hcall).answers_le
  · exact (Nat.le_add_right _ _).trans (htelling.once call.peer)
  · intro call hcall hnot
    have hdone := (MonitorPc.eq_of_next_eq_none hrest.completed (hrest.monitors call hcall)).resolve_right
      (hmonitor call hcall)
    have hholds := hanswering.holds call hcall
    rw [hdone] at hholds
    exact hholds.2.2 hnot
  · intro call hcall hnot
    have hholds : LinkPc.done.Holds s.life (call.peer ∈ s.links.peers) (s.links.told call.peer) s.links.Pending
        call.unlinked := by
      have hholds := htelling.calls call hcall
      rcases LinkPc.eq_of_next_eq_none (hrest.links call hcall) with hpc | hpc | hpc
      · exact hpc ▸ hholds
      · rw [hpc] at hholds
        exact hholds
      · exact absurd hpc (hlink call hcall)
    have htasks : ∀ task ∈ s.links.tasks, task = .publish [] :=
      fun task htask => TaskPc.eq_of_next_eq_none hrest.completed (hrest.tasks task htask)
    rcases hholds hnot with hone | ⟨-, task, htask, hpending⟩
    · have hzero : (s.links.tasks.map (TaskPc.toTell call.peer)).sum = 0 := by
        refine List.sum_eq_zero fun n hn => ?_
        obtain ⟨task, htask, rfl⟩ := List.mem_map.mp hn
        rw [htasks task htask]
        rfl
      rw [Links.told, hzero] at hone
      exact hone
    · rw [htasks task htask] at hpending
      cases hpending

/-- A link that waits for the exit of the actor, and a monitor and a link that come after it. -/
def lateRun : Option (List (State × Act) × State) :=
  tryPlay (State.next ⟨"p", 1⟩) {} [.link (.link ⟨"c", 1⟩), .link (.call 0), .link (.call 0), .link (.call 0),
    .link (.call 0), .link (.call 0), .unregister, .insertExited, .publishParent, .complete, .link (.task 0),
    .link (.task 0), .link (.task 0), .monitor (.monitor ⟨⟨"b", 1⟩, 1⟩), .monitor (.call 0), .monitor (.call 0),
    .monitor (.call 0), .link (.link ⟨"b", 2⟩), .link (.call 1), .link (.call 1), .link (.call 1)]

theorem notified_once_of_late :
    ∃ (τ : List (State × Act)) (s : State), Run (Step ⟨"p", 1⟩) {} τ s ∧ (∀ x ∈ τ, Clear ⟨"p", 1⟩ x.1 x.2) ∧ s.AtRest ∧
      s.monitors.calls.map (·.key) = [⟨⟨"b", 1⟩, 1⟩] ∧ s.links.calls.map (·.peer) = [⟨"c", 1⟩, ⟨"b", 2⟩] ∧
      s.monitors.downs.count ⟨⟨"b", 1⟩, 1⟩ = 1 ∧ s.links.childExits.count ⟨"c", 1⟩ = 1 ∧
      s.links.childExits.count ⟨"b", 2⟩ = 1 := by
  have hrun := run_tryPlay (State.next ⟨"p", 1⟩) {} _ (show lateRun.isSome by decide)
  have hclear : ∀ x ∈ (lateRun.get (by decide)).1, Clear ⟨"p", 1⟩ x.1 x.2 := by decide
  have hrest : (lateRun.get (by decide)).2.AtRest := ⟨by decide, by decide, by decide, by decide⟩
  obtain ⟨hdown, hchildExit⟩ := (notified_once hrun hclear).2.2 hrest
  refine ⟨_, _, hrun, hclear, hrest, by decide, by decide, ?_, ?_, ?_⟩
  · exact hdown ⟨⟨⟨"b", 1⟩, 1⟩, .done, false⟩ (by decide) rfl
  · exact hchildExit ⟨⟨"c", 1⟩, .done, false⟩ (by decide) rfl
  · exact hchildExit ⟨⟨"b", 2⟩, .answered, false⟩ (by decide) rfl

/-- A monitor that comes between the tables is refused. And a peer that links just before the actor completes is told
twice: by the link, which finds the actor gone, and by the wait task of another peer. -/
theorem notified_twice_or_refused :
    (∃ (τ : List (State × Act)) (s : State), Run (Step ⟨"p", 1⟩) {} τ s ∧
      ∃ call ∈ s.monitors.calls, call.pc = .refused) ∧
    ∃ (τ : List (State × Act)) (s : State), Run (Step ⟨"p", 1⟩) {} τ s ∧ s.AtRest ∧
      s.links.calls = [⟨⟨"b", 1⟩, .done, false⟩, ⟨⟨"c", 1⟩, .answered, false⟩] ∧ s.links.childExits.count ⟨"c", 1⟩ = 2 := by
  constructor
  · have hrun := run_tryPlay (State.next ⟨"p", 1⟩) {} [.unregister, .monitor (.monitor ⟨⟨"b", 1⟩, 1⟩),
      .monitor (.call 0), .monitor (.call 0)] (by decide)
    exact ⟨_, _, hrun, by decide⟩
  · -- `c` has found the handle when the actor completes, and the wait task of `b` has still to take the list
    have hrun := run_tryPlay (State.next ⟨"p", 1⟩) {} [.link (.link ⟨"b", 1⟩), .link (.call 0), .link (.call 0),
      .link (.call 0), .link (.call 0), .link (.call 0), .link (.link ⟨"c", 1⟩), .link (.call 1), .link (.call 1),
      .link (.call 1), .complete, .link (.call 1), .link (.call 1), .link (.task 0), .link (.task 0),
      .link (.task 0), .link (.task 0)] (by decide)
    exact ⟨_, _, hrun, ⟨by decide, by decide, by decide, by decide⟩, by decide, by decide⟩

/-! ## Coming to rest -/

/-- How many steps a monitor can still take. -/
def MonitorPc.left : MonitorPc → Nat
  | .handles => 5
  | .exited => 2
  | .insert => 4
  | .check => 3
  | .remove => 2
  | .down => 1
  | .waiting => 2
  | .notify => 1
  | .done => 0
  | .refused => 0

/-- How many steps a link, its peer in the list and its wait task can still take. -/
def LinkPc.left : LinkPc → Nat
  | .push => 8
  | .exited => 6
  | .handles => 5
  | .check => 4
  | .wait => 3
  | .answer => 1
  | .done => 0
  | .answered => 0
  | .refused => 0

def TaskPc.left : TaskPc → Nat
  | .waiting => 2
  | .take => 1
  | .publish peers => peers.length

/-- A bound on the steps of all that is under way. -/
def State.left (s : State) : Nat :=
  (s.monitors.calls.map (·.pc.left)).sum + (s.links.calls.map (·.pc.left)).sum + (s.links.tasks.map TaskPc.left).sum +
    s.links.peers.length

/-- A step of a request or a wait task under way. -/
inductive Act.UnderWay : Act → Prop
  | monitor (i : Nat) : UnderWay (.monitor (.call i))
  | link (i : Nat) : UnderWay (.link (.call i))
  | task (i : Nat) : UnderWay (.link (.task i))

theorem MonitorPc.left_next {pc pc' : MonitorPc} {life : Life} {table table' : Finset MonitorKey} {key : MonitorKey}
    {downs : List MonitorKey} (h : pc.next life table key = some (pc', table', downs)) : pc'.left < pc.left := by
  cases pc <;> simp only [MonitorPc.next, Option.some.injEq, Prod.mk.injEq, reduceCtorEq] at h
  case waiting =>
    split at h
    · obtain ⟨rfl, -, -⟩ := by simpa using h
      split <;> decide
    · cases h
  all_goals
    obtain ⟨rfl, -, -⟩ := h
    first
      | decide
      | split <;> decide

/-- What a link adds to the list and to the wait tasks is less than what it has done. -/
theorem LinkPc.left_next {pc pc' : LinkPc} {life : Life} {l l' : Links} {peer : ActorAddress}
    (h : pc.next life l peer = some (pc', l')) :
    pc'.left + (l'.tasks.map TaskPc.left).sum + l'.peers.length <
      pc.left + (l.tasks.map TaskPc.left).sum + l.peers.length := by
  cases pc <;> simp only [LinkPc.next, Option.some.injEq, Prod.mk.injEq, reduceCtorEq] at h
  all_goals obtain ⟨rfl, rfl⟩ := h
  case push =>
    split <;> simp [LinkPc.left]
    omega
  case wait =>
    split <;> simp [LinkPc.left, TaskPc.left]
    omega
  case answer => simp [LinkPc.left]
  all_goals split <;> simp [LinkPc.left]

theorem TaskPc.left_next {task task' : TaskPc} {life : Life} {l l' : Links}
    (h : task.next life l = some (task', l')) :
    task'.left + l'.peers.length < task.left + l.peers.length ∧ l'.calls = l.calls := by
  cases task with
  | waiting =>
    obtain ⟨-, rfl, rfl⟩ := by simpa [TaskPc.next] using h
    simp [TaskPc.left]
  | take =>
    obtain ⟨rfl, rfl⟩ := by simpa [TaskPc.next] using h
    simp [TaskPc.left]
  | publish peers =>
    cases peers with
    | nil => cases h
    | cons peer peers =>
      obtain ⟨rfl, rfl⟩ := by simpa [TaskPc.next] using h
      simp [TaskPc.left]

theorem left_lt {parent : ActorAddress} {s s' : State} {act : Act} (hact : act.UnderWay) (hs : Step parent s act s') :
    s'.left < s.left := by
  cases hact with
  | monitor i =>
    obtain ⟨monitors, hact, rfl⟩ := Option.map_eq_some_iff.mp hs
    obtain ⟨call, pc, table, downs, hcall, hnext, rfl⟩ := MonitorAct.next_call hact
    have hsum := sum_map_set (fun c : MonitorCall => c.pc.left) hcall { call with pc }
    have hlt := MonitorPc.left_next hnext
    simp only [State.left] at hsum ⊢
    omega
  | link i =>
    obtain ⟨links, hact, rfl⟩ := Option.map_eq_some_iff.mp hs
    obtain ⟨call, pc, l, hcall, hnext, rfl⟩ := LinkAct.next_call hact
    have hsum := sum_map_set (fun c : LinkCall => c.pc.left) hcall { call with pc }
    have hlt := LinkPc.left_next hnext
    simp only [State.left] at hsum ⊢
    omega
  | task i =>
    obtain ⟨links, hact, rfl⟩ := Option.map_eq_some_iff.mp hs
    obtain ⟨task, pc, l, htask, hnext, rfl⟩ := LinkAct.next_task hact
    have hsum := sum_map_set TaskPc.left htask pc
    obtain ⟨hlt, hcalls⟩ := TaskPc.left_next hnext
    simp only [State.left, hcalls]
    omega

/-- Requests and wait tasks under way come to rest once the actor has completed: they take no more than so many steps,
and as long as they are not at rest one of them can go on. -/
theorem settles {parent : ActorAddress} {s s' : State} {σ : List (State × Act)} (hcompleted : s.life.completed = true)
    (h : Run (fun s act s' => act.UnderWay ∧ Step parent s act s') s σ s') :
    σ.length ≤ s.left ∧ (s'.AtRest ∨ ∃ act s'', act.UnderWay ∧ Step parent s' act s'') := by
  have hlife : s'.life.completed = true := by
    refine h.inv (I := fun s => s.life.completed = true) hcompleted ?_
    rintro s act s' hi ⟨hact, hs⟩
    cases hact <;>
      · obtain ⟨_, -, rfl⟩ := Option.map_eq_some_iff.mp hs
        exact hi
  have hlength := h.length_le State.left (I := fun _ => True) trivial (fun _ _ _ _ _ => trivial)
    fun _ _ _ _ hs => left_lt hs.1 hs.2
  refine ⟨by omega, ?_⟩
  by_contra hnot
  obtain ⟨hrest, hstuck⟩ := not_or.mp hnot
  refine hrest ⟨hlife, fun call hcall => ?_, fun call hcall => ?_, fun task htask => ?_⟩
  · obtain ⟨i, hi⟩ := List.getElem?_of_mem hcall
    by_contra hne
    obtain ⟨⟨pc, table, downs⟩, hnext⟩ := Option.ne_none_iff_exists'.mp hne
    exact hstuck ⟨_, _, .monitor i, by simp [Step, State.next, MonitorAct.next, hi, hnext]; rfl⟩
  · obtain ⟨i, hi⟩ := List.getElem?_of_mem hcall
    by_contra hne
    obtain ⟨⟨pc, l⟩, hnext⟩ := Option.ne_none_iff_exists'.mp hne
    exact hstuck ⟨_, _, .link i, by simp [Step, State.next, LinkAct.next, hi, hnext]; rfl⟩
  · obtain ⟨i, hi⟩ := List.getElem?_of_mem htask
    by_contra hne
    obtain ⟨⟨pc, l⟩, hnext⟩ := Option.ne_none_iff_exists'.mp hne
    exact hstuck ⟨_, _, .task i, by simp [Step, State.next, LinkAct.next, hi, hnext]; rfl⟩

end Spawned.BrokerExit
