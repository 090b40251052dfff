import Spawned.Mailbox

/-!
# Receiving from a mailbox

An actor mailbox is four channels. `recv` polls them in order of priority and then selects over them; the two runtimes
differ in the select.

* `Lane` : the four channels, in order of priority;
* `Receiver.next` : one `try_recv`, one branch of a select or one pick of it at a time, with sends and the drop of senders
  anywhere in between;
* `Receiver.take_cases`, `next_cases` : what a step does;
* `Receiving` : what a call of `recv` knows of the lanes as they were when it began;
* `recv_is_priority_queue` : what every call returns.

A tokio `select!` polls its branches in the order they are written (`biased`), passes over those whose guard is false, and
panics if all are. The select of crossbeam has no guards: a channel without senders is ready, and any ready one may be
picked.
-/

namespace Spawned

open Lib

inductive OsSignal
  | ctrlC
  | terminate
deriving DecidableEq, Repr

inductive SignalItem
  | osShutdown (signal : OsSignal)
deriving DecidableEq, Repr

/-- What `recv` returns. -/
inductive MailboxItem (M : Type)
  | message (msg : M)
  | signal (signal : OsSignal)
  | exit (exit : Exit)
  | shutdown
deriving DecidableEq, Repr

/-- The channels of a mailbox. -/
inductive Lane
  | signal
  | stop
  | supervision
  | user
deriving DecidableEq, Repr

namespace Lane

/-- What is sent on a lane. -/
abbrev Item (M : Type) : Lane → Type
  | signal => SignalItem
  | stop => Unit
  | supervision => Exit
  | user => M

/-- What `recv` makes of it. -/
def wrap {M : Type} : (l : Lane) → l.Item M → MailboxItem M
  | signal, .osShutdown sig => .signal sig
  | stop, () => .shutdown
  | supervision, exit => .exit exit
  | user, msg => .message msg

/-- How many lanes go before it. -/
def rank : Lane → Nat
  | signal => 0
  | stop => 1
  | supervision => 2
  | user => 3

/-- The lane that is polled after it. -/
def next : Lane → Option Lane
  | signal => some stop
  | stop => some supervision
  | supervision => some user
  | user => none

/-- `l` has strictly higher priority. -/
def Above (l l' : Lane) : Prop := l.rank < l'.rank

instance (l l' : Lane) : Decidable (l.Above l') := inferInstanceAs (Decidable (_ < _))

end Lane

/-- Where `recv` is. -/
inductive Receiver.Pc (M : Type)
  /-- `recv` has not been called -/
  | idle
  /-- the top of the loop -/
  | check
  /-- `try_recv` on a lane -/
  | poll (lane : Lane)
  | select
  /-- a branch of tokio's select -/
  | branch (lane : Lane)
  | returned (result : Option (MailboxItem M))
  | panicked
deriving DecidableEq

/-- The receive side of a mailbox, with what is in its channels. -/
structure Receiver (M : Type) where
  queue : (l : Lane) → List (l.Item M)
  /-- a sender of the lane is left -/
  senders : Lane → Bool
  /-- `signal_closed`, `stop_closed`, `supervision_closed` and `user_closed` -/
  closed : Lane → Bool := fun _ => false
  pc : Receiver.Pc M := .idle
  /-- what `recv` has returned from each lane so far -/
  received : (l : Lane) → List (l.Item M) := fun _ => []

inductive Receiver.Act (M : Type)
  | send (lane : Lane) (item : lane.Item M)
  /-- the last sender of a lane is dropped -/
  | dropSenders (lane : Lane)
  | recv
  /-- `recv` goes on -/
  | step
  /-- crossbeam's select picks a lane -/
  | pick (lane : Lane)

namespace Receiver

variable {M : Type}

def allClosed (s : Receiver M) : Bool := s.closed .signal && s.closed .stop && s.closed .supervision && s.closed .user

/-- Receive on one lane: its head is returned; without senders the lane is closed and `recv` goes to `closed`; an empty
lane that may still get something is `pending`. -/
def take (s : Receiver M) (l : Lane) (pending : Option (Receiver M)) (closed : Pc M) : Option (Receiver M) :=
  match s.queue l with
  | item :: rest =>
    some { s with
      queue := Function.update s.queue l rest
      received := Function.update s.received l (s.received l ++ [item])
      pc := .returned (some (l.wrap item)) }
  | [] => if s.senders l then pending else some { s with closed := Function.update s.closed l true, pc := closed }

/-- After the `try_recv` of a lane. -/
def afterPoll (l : Lane) : Pc M := (l.next.map Pc.poll).getD .select

/-- After a pending branch of tokio's select; when all are pending, the task is woken and polls them again. -/
def afterBranch (l : Lane) : Pc M := .branch (l.next.getD .signal)

/-- A lane that is marked closed is passed over. -/
def pollLane (s : Receiver M) (l : Lane) (next closed : Pc M) : Option (Receiver M) :=
  if s.closed l then some { s with pc := next } else s.take l (some { s with pc := next }) closed

def next (runtime : MailboxRuntime) (s : Receiver M) : Act M → Option (Receiver M)
  | .send l item =>
    if s.senders l then some { s with queue := Function.update s.queue l (s.queue l ++ [item]) } else none
  | .dropSenders l => if s.senders l then some { s with senders := Function.update s.senders l false } else none
  | .recv =>
    match s.pc with
    | .idle | .returned _ => some { s with pc := .check }
    | _ => none
  | .step =>
    match s.pc with
    | .check => if s.allClosed then some { s with pc := .returned none } else some { s with pc := .poll .signal }
    | .poll l => s.pollLane l (afterPoll l) (afterPoll l)
    | .select =>
      match runtime with
      | .tasks => if s.allClosed then some { s with pc := .panicked } else some { s with pc := .branch .signal }
      | .threads => none
    | .branch l => s.pollLane l (afterBranch l) .check
    | .idle | .returned _ | .panicked => none
  | .pick l =>
    match runtime, s.pc with
    | .threads, .select => s.take l none .check
    | _, _ => none

def Step (runtime : MailboxRuntime) (s : Receiver M) (a : Act M) (s' : Receiver M) : Prop := s.next runtime a = some s'

/-! ## What a step does -/

variable {runtime : MailboxRuntime} {s s' : Receiver M} {a : Act M} {l : Lane}

/-- The oldest item of a lane is returned. -/
structure Returns (s : Receiver M) (l : Lane) (item : l.Item M) (rest : List (l.Item M)) (s' : Receiver M) : Prop where
  head : s.queue l = item :: rest
  eq : s' = { s with
    queue := Function.update s.queue l rest
    received := Function.update s.received l (s.received l ++ [item])
    pc := .returned (some (l.wrap item)) }

/-- A lane was found empty: `recv` goes on, and marks it closed if it has no senders. -/
structure Passes (s : Receiver M) (l : Lane) (pc : Pc M) (s' : Receiver M) : Prop where
  empty : s.queue l = []
  eq : s' = { s with pc } ∨
    (s.senders l = false ∧ s' = { s with closed := Function.update s.closed l true, pc })

/-- The flags are right: a lane marked closed has no senders and is empty. -/
def FlagsRight (s : Receiver M) : Prop := ∀ l, s.closed l = true → s.senders l = false ∧ s.queue l = []

theorem take_cases {pending : Option (Receiver M)} {closed : Pc M} (h : s.take l pending closed = some s') :
    (∃ item rest, Returns s l item rest s') ∨ (s.queue l = [] ∧ s.senders l = true ∧ pending = some s') ∨
      Passes s l closed s' := by
  unfold take at h
  split at h
  case h_1 item rest hqueue =>
    cases h
    exact Or.inl ⟨item, rest, hqueue, rfl⟩
  case h_2 hqueue =>
    split at h
    case isTrue hopen => exact Or.inr (Or.inl ⟨hqueue, hopen, h⟩)
    case isFalse hopen =>
      cases h
      exact Or.inr (Or.inr ⟨hqueue, Or.inr ⟨by simpa using hopen, rfl⟩⟩)

theorem pollLane_cases {next closed : Pc M} (hflags : FlagsRight s) (h : s.pollLane l next closed = some s') :
    (∃ item rest, Returns s l item rest s') ∨ Passes s l next s' ∨ Passes s l closed s' := by
  unfold pollLane at h
  split at h
  case isTrue hclosed =>
    cases h
    exact Or.inr (Or.inl ⟨(hflags l hclosed).2, Or.inl rfl⟩)
  case isFalse =>
    rcases take_cases h with hret | ⟨hqueue, -, hpending⟩ | hpass
    · exact Or.inl hret
    · cases hpending
      exact Or.inr (Or.inl ⟨hqueue, Or.inl rfl⟩)
    · exact Or.inr (Or.inr hpass)

theorem allClosed_iff : s.allClosed = true ↔ ∀ l, s.closed l = true := by
  constructor
  · intro h l
    simp only [allClosed, Bool.and_eq_true] at h
    cases l
    · exact h.1.1.1
    · exact h.1.1.2
    · exact h.1.2
    · exact h.2
  · intro h
    simp [allClosed, h]

/-- What a step of `recv` does: it returns the head of a lane, or passes an empty lane, or moves on. -/
inductive Move (runtime : MailboxRuntime) (s : Receiver M) : Receiver M → Prop
  /-- all lanes are closed -/
  | ends (hpc : s.pc = .check) (h : ∀ l, s.closed l = true) : Move runtime s { s with pc := .returned none }
  | check (hpc : s.pc = .check) : Move runtime s { s with pc := .poll .signal }
  | polled {l : Lane} {item : l.Item M} {rest : List (l.Item M)} {s' : Receiver M} (hpc : s.pc = .poll l)
      (h : Returns s l item rest s') : Move runtime s s'
  | pass {l : Lane} {s' : Receiver M} (hpc : s.pc = .poll l) (h : Passes s l (afterPoll l) s') : Move runtime s s'
  /-- tokio's select has all branches disabled -/
  | panic (hpc : s.pc = .select) (hruntime : runtime = .tasks) (h : ∀ l, s.closed l = true) :
      Move runtime s { s with pc := .panicked }
  | select (hpc : s.pc = .select) : Move runtime s { s with pc := .branch .signal }
  | selected {l : Lane} {item : l.Item M} {rest : List (l.Item M)} {s' : Receiver M}
      (hpc : s.pc = .select ∨ s.pc = .branch l) (h : Returns s l item rest s') : Move runtime s s'
  | again {l : Lane} {s' : Receiver M} {pc : Pc M} (hpc : s.pc = .select ∨ s.pc = .branch l) (h : Passes s l pc s')
      (hto : pc = .check ∨ ∃ l', pc = .branch l') : Move runtime s s'

/-- A step is a send, the drop of senders, a call of `recv`, or a move of one. -/
theorem next_cases (hflags : FlagsRight s) (h : Step runtime s a s') :
    (∃ l item, a = .send l item ∧ s.senders l = true ∧ s' = { s with queue := Function.update s.queue l (s.queue l ++ [item]) }) ∨
    (∃ l, a = .dropSenders l ∧ s' = { s with senders := Function.update s.senders l false }) ∨
    (a = .recv ∧ (s.pc = .idle ∨ ∃ result, s.pc = .returned result) ∧ s' = { s with pc := .check }) ∨
    ((a = .step ∨ ∃ l, a = .pick l) ∧ Move runtime s s') := by
  unfold Step at h
  cases a with
  | send l item =>
    simp only [next] at h
    split at h
    case isTrue hopen =>
      cases h
      exact Or.inl ⟨l, item, rfl, hopen, rfl⟩
    case isFalse => cases h
  | dropSenders l =>
    simp only [next] at h
    split at h
    · cases h
      exact Or.inr (Or.inl ⟨l, rfl, rfl⟩)
    · cases h
  | recv =>
    simp only [next] at h
    refine Or.inr (Or.inr (Or.inl ⟨rfl, ?_⟩))
    split at h
    case h_1 hpc =>
      cases h
      exact ⟨Or.inl hpc, rfl⟩
    case h_2 result hpc =>
      cases h
      exact ⟨Or.inr ⟨result, hpc⟩, rfl⟩
    case h_3 => cases h
  | step =>
    refine Or.inr (Or.inr (Or.inr ⟨Or.inl rfl, ?_⟩))
    simp only [next] at h
    split at h
    case h_1 hpc =>
      split at h
      case isTrue hall =>
        cases h
        exact .ends hpc (allClosed_iff.mp hall)
      case isFalse =>
        cases h
        exact .check hpc
    case h_2 l hpc =>
      rcases pollLane_cases hflags h with ⟨item, rest, hret⟩ | hpass | hpass
      · exact .polled hpc hret
      · exact .pass hpc hpass
      · exact .pass hpc hpass
    case h_3 hpc =>
      split at h
      case h_1 =>
        split at h
        case isTrue hall =>
          cases h
          exact .panic hpc rfl (allClosed_iff.mp hall)
        case isFalse =>
          cases h
          exact .select hpc
      case h_2 => cases h
    case h_4 l hpc =>
      rcases pollLane_cases hflags h with ⟨item, rest, hret⟩ | hpass | hpass
      · exact .selected (Or.inr hpc) hret
      · exact .again (Or.inr hpc) hpass (Or.inr ⟨_, rfl⟩)
      · exact .again (Or.inr hpc) hpass (Or.inl rfl)
    all_goals cases h
  | pick l =>
    refine Or.inr (Or.inr (Or.inr ⟨Or.inr ⟨l, rfl⟩, ?_⟩))
    simp only [next] at h
    split at h
    case h_1 hpc =>
      rcases take_cases h with ⟨item, rest, hret⟩ | ⟨-, -, hpending⟩ | hpass
      · exact .selected (Or.inl hpc) hret
      · cases hpending
      · exact .again (Or.inl hpc) hpass (Or.inl rfl)
    case h_2 => cases h

/-! ## Calls -/

/-- What an action sends on a lane. -/
def Act.sends (l : Lane) : Act M → Option (l.Item M)
  | .send l' item => if h : l' = l then some (h ▸ item) else none
  | _ => none

/-- What was sent on a lane, in order. -/
def sentOn (l : Lane) (τ : List (Receiver M × Act M)) : List (l.Item M) := τ.filterMap fun x => x.2.sends l

/-- The action is a step of `recv`. -/
def Act.isMove : Act M → Bool
  | .step | .pick _ => true
  | _ => false

/-- How many steps of `recv` there were. -/
def moves (τ : List (Receiver M × Act M)) : Nat := τ.countP fun x => x.2.isMove

variable {s₀ : Receiver M} {τ : List (Receiver M × Act M)}

theorem sentOn_snoc (x : Receiver M × Act M) : sentOn l (τ ++ [x]) = sentOn l τ ++ (x.2.sends l).toList := by
  simp only [sentOn, List.filterMap_append, List.filterMap_cons, List.filterMap_nil]
  cases x.2.sends l <;> rfl

theorem moves_snoc (x : Receiver M × Act M) : moves (τ ++ [x]) = moves τ + if x.2.isMove then 1 else 0 := by
  simp [moves, List.countP_cons]

/-- What a call of `recv` that began in `s₀` knows, `τ` being the steps since: before it returns it has taken nothing, and
the lanes it has polled were empty when it began. Its first pass over the lanes is its first five steps. -/
def Receiving (s₀ : Receiver M) (τ : List (Receiver M × Act M)) (s : Receiver M) : Prop :=
  match s.pc with
  | .idle => False
  | .check => (∀ l, s.queue l = s₀.queue l ++ sentOn l τ) ∧ (moves τ = 0 ∨ ∀ l, s₀.queue l = [])
  | .poll lane => (∀ l, s.queue l = s₀.queue l ++ sentOn l τ) ∧ (∀ l, l.Above lane → s₀.queue l = []) ∧
      (moves τ = lane.rank + 1 ∨ ∀ l, s₀.queue l = [])
  | .select | .branch _ | .panicked => (∀ l, s.queue l = s₀.queue l ++ sentOn l τ) ∧ ∀ l, s₀.queue l = []
  | .returned none => ∀ l, s₀.queue l = []
  | .returned (some item) => (∃ l x, item = Lane.wrap l x ∧ (s₀.queue l ++ sentOn l τ).head? = some x ∧
      (s.received l).getLast? = some x ∧ ∀ l', l'.Above l → s₀.queue l' = []) ∧ (moves τ ≤ 5 ∨ ∀ l, s₀.queue l = [])

/-- What is not a step of `recv` only adds to the lanes. -/
theorem Receiving.frame (h : Receiving s₀ τ s) {x : Receiver M × Act M} (hmove : x.2.isMove = false) (hpc : s'.pc = s.pc)
    (hreceived : s'.received = s.received)
    (hqueue : ∀ l, s'.queue l = s.queue l ++ (x.2.sends l).toList) : Receiving s₀ (τ ++ [x]) s' := by
  have hheld : (∀ l, s.queue l = s₀.queue l ++ sentOn l τ) → ∀ l, s'.queue l = s₀.queue l ++ sentOn l (τ ++ [x]) := by
    intro hs l
    rw [hqueue, hs, sentOn_snoc, List.append_assoc]
  have hmoves : moves (τ ++ [x]) = moves τ := by simp [moves_snoc, hmove]
  unfold Receiving at h ⊢
  rw [hpc, hmoves, hreceived]
  split at h
  · exact h
  · exact ⟨hheld h.1, h.2⟩
  · exact ⟨hheld h.1, h.2⟩
  · exact ⟨hheld h.1, h.2⟩
  · exact ⟨hheld h.1, h.2⟩
  · exact ⟨hheld h.1, h.2⟩
  · exact h
  · obtain ⟨⟨l, y, hitem, hhead, hlast, habove⟩, hbound⟩ := h
    refine ⟨⟨l, y, hitem, ?_, hlast, habove⟩, hbound⟩
    rw [sentOn_snoc, ← List.append_assoc, List.head?_append, hhead]
    rfl

/-- A lane that is found empty was empty when the call began. -/
theorem empty_before (hheld : ∀ l, s.queue l = s₀.queue l ++ sentOn l τ) (h : s.queue l = []) : s₀.queue l = [] :=
  (List.append_eq_nil_iff.mp ((hheld l).symm.trans h)).1

theorem Passes.queue {pc : Pc M} (h : Passes s l pc s') : s'.queue = s.queue := by
  rcases h.eq with rfl | ⟨-, rfl⟩ <;> rfl

theorem Passes.pc {pc : Pc M} (h : Passes s l pc s') : s'.pc = pc := by
  rcases h.eq with rfl | ⟨-, rfl⟩ <;> rfl

/-- The lanes before the next one, when this one and those before it are empty. -/
theorem afterPoll_above {lane lane' : Lane} (hnext : lane.next = some lane') (habove : l.Above lane') :
    l.Above lane ∨ l = lane := by
  revert hnext habove
  cases lane <;> cases lane' <;> cases l <;> decide

theorem above_or_eq_user (l : Lane) : l.Above .user ∨ l = .user := by
  cases l <;> decide

theorem Receiving.move (hflags : FlagsRight s) (h : Receiving s₀ τ s) (hm : Move runtime s s')
    {x : Receiver M × Act M} (hx : x.2.isMove = true) : Receiving s₀ (τ ++ [x]) s' := by
  have hsent : ∀ l, sentOn l (τ ++ [x]) = sentOn l τ := by
    intro l
    rw [sentOn_snoc]
    cases hact : x.2 <;> simp_all [Act.sends, Act.isMove]
  have hmoves : moves (τ ++ [x]) = moves τ + 1 := by simp [moves_snoc, hx]
  cases hm with
  | ends hpc hall =>
    simp only [Receiving, hpc] at h
    exact fun l => empty_before h.1 (hflags l (hall l)).2
  | check hpc =>
    simp only [Receiving, hpc] at h
    simp only [Receiving, hsent, hmoves]
    refine ⟨h.1, fun l habove => absurd habove (by simp [Lane.Above, Lane.rank]), h.2.imp_left fun hzero => ?_⟩
    simp [hzero, Lane.rank]
  | @polled l item rest _ hpc hret =>
    simp only [Receiving, hpc] at h
    obtain ⟨hheld, habove, hcount⟩ := h
    obtain ⟨hhead, rfl⟩ := hret
    simp only [Receiving, hsent, hmoves]
    refine ⟨⟨l, item, rfl, ?_, by simp, habove⟩, hcount.imp_left fun hcount => ?_⟩
    · rw [← hheld l, hhead]
      rfl
    · have hrank : l.rank ≤ 3 := by cases l <;> decide
      omega
  | @pass l _ hpc hpass =>
    simp only [Receiving, hpc] at h
    obtain ⟨hheld, habove, hcount⟩ := h
    have hempty := empty_before hheld hpass.empty
    have hheld' : ∀ l, s'.queue l = s₀.queue l ++ sentOn l (τ ++ [x]) := by
      intro l
      rw [hpass.queue, hsent]
      exact hheld l
    simp only [Receiving, hpass.pc]
    cases hnext : l.next with
    | some l' =>
      simp only [afterPoll, hnext, Option.map_some, Option.getD_some]
      refine ⟨hheld', fun l₁ habove₁ => ?_, hcount.imp_left fun hcount => ?_⟩
      · rcases afterPoll_above hnext habove₁ with h₁ | rfl
        · exact habove l₁ h₁
        · exact hempty
      · have hrank : l'.rank = l.rank + 1 := by
          cases l <;> cases hnext <;> rfl
        omega
    | none =>
      obtain rfl : l = .user := by cases l <;> first | rfl | cases hnext
      simp only [afterPoll, hnext, Option.map_none, Option.getD_none]
      refine ⟨hheld', fun l₁ => ?_⟩
      rcases above_or_eq_user l₁ with h₁ | rfl
      · exact habove l₁ h₁
      · exact hempty
  | panic hpc _ _ =>
    simp only [Receiving, hpc] at h
    simpa only [Receiving, hsent] using h
  | select hpc =>
    simp only [Receiving, hpc] at h
    simpa only [Receiving, hsent] using h
  | @selected l item rest _ hpc hret =>
    have hall : (∀ l, s.queue l = s₀.queue l ++ sentOn l τ) ∧ ∀ l, s₀.queue l = [] := by
      rcases hpc with hpc | hpc <;> simpa only [Receiving, hpc] using h
    obtain ⟨hhead, rfl⟩ := hret
    simp only [Receiving, hsent]
    refine ⟨⟨l, item, rfl, ?_, by simp, fun l' _ => hall.2 l'⟩, Or.inr hall.2⟩
    rw [← hall.1 l, hhead]
    rfl
  | @again l _ pc hpc hpass hto =>
    have hall : (∀ l, s.queue l = s₀.queue l ++ sentOn l τ) ∧ ∀ l, s₀.queue l = [] := by
      rcases hpc with hpc | hpc <;> simpa only [Receiving, hpc] using h
    have hheld' : ∀ l, s'.queue l = s₀.queue l ++ sentOn l (τ ++ [x]) := by
      intro l
      rw [hpass.queue, hsent]
      exact hall.1 l
    simp only [Receiving, hpass.pc]
    rcases hto with rfl | ⟨l', rfl⟩
    · exact ⟨hheld', Or.inr hall.2⟩
    · exact ⟨hheld', hall.2⟩

/-! ## Runs -/

/-- The invariant of the runs: the flags are right, nothing is lost, and the call in progress knows what it should. -/
structure Served (runtime : MailboxRuntime) (queue : (l : Lane) → List (l.Item M)) (τ : List (Receiver M × Act M))
    (s : Receiver M) : Prop where
  flags : FlagsRight s
  conserved : ∀ l, s.received l ++ s.queue l = queue l ++ sentOn l τ
  ended : s.pc = .returned none → ∀ l, s.closed l = true
  panicked : s.pc = .panicked → runtime = .tasks ∧ ∀ l, s.closed l = true
  call : ∀ τ₁ s₁ τ₂, τ = τ₁ ++ (s₁, .recv) :: τ₂ → (∀ x ∈ τ₂, x.2 ≠ .recv) → Receiving s₁ τ₂ s

/-- A move takes the head of a lane, or nothing. -/
theorem Move.lanes (hflags : FlagsRight s) (hm : Move runtime s s') :
    FlagsRight s' ∧ ∀ l, s'.received l ++ s'.queue l = s.received l ++ s.queue l := by
  have hreturn : ∀ {l : Lane} {item : l.Item M} {rest : List (l.Item M)}, Returns s l item rest s' →
      FlagsRight s' ∧ ∀ l, s'.received l ++ s'.queue l = s.received l ++ s.queue l := by
    rintro l item rest ⟨hhead, rfl⟩
    constructor
    · intro l' hclosed
      obtain ⟨hsenders, hempty⟩ := hflags l' hclosed
      have hne : l' ≠ l := by
        rintro rfl
        rw [hhead] at hempty
        cases hempty
      refine ⟨hsenders, ?_⟩
      simpa [Function.update_of_ne hne] using hempty
    · intro l'
      by_cases hl : l' = l
      · subst hl
        simp [hhead]
      · simp [Function.update_of_ne hl]
  have hpasses : ∀ {l : Lane} {pc : Pc M}, Passes s l pc s' →
      FlagsRight s' ∧ ∀ l, s'.received l ++ s'.queue l = s.received l ++ s.queue l := by
    rintro l pc ⟨hempty, rfl | ⟨hsenders, rfl⟩⟩
    · exact ⟨hflags, fun _ => rfl⟩
    · refine ⟨fun l' hclosed => ?_, fun _ => rfl⟩
      by_cases hl : l' = l
      · subst hl
        exact ⟨hsenders, hempty⟩
      · exact hflags l' (by simpa [Function.update_of_ne hl] using hclosed)
  cases hm with
  | polled _ hret => exact hreturn hret
  | selected _ hret => exact hreturn hret
  | pass _ hpass => exact hpasses hpass
  | again _ hpass _ => exact hpasses hpass
  | _ => exact ⟨hflags, fun _ => rfl⟩

/-- A call ends with nothing, or in a panic, only when every lane is marked closed. -/
theorem Move.ended (hm : Move runtime s s') :
    (s'.pc = .returned none → ∀ l, s'.closed l = true) ∧
      (s'.pc = .panicked → runtime = .tasks ∧ ∀ l, s'.closed l = true) := by
  cases hm with
  | ends hpc hall => exact ⟨fun _ => hall, by simp⟩
  | panic hpc hruntime hall => exact ⟨by simp, fun _ => ⟨hruntime, hall⟩⟩
  | polled _ hret =>
    obtain ⟨-, rfl⟩ := hret
    simp
  | selected _ hret =>
    obtain ⟨-, rfl⟩ := hret
    simp
  | @pass l _ _ hpass =>
    rw [hpass.pc]
    cases l <;> simp [afterPoll, Lane.next]
  | again _ hpass hto =>
    rw [hpass.pc]
    rcases hto with rfl | ⟨l', rfl⟩ <;> simp
  | _ => simp

theorem Served.step {queue : (l : Lane) → List (l.Item M)} (h : Served runtime queue τ s) (hstep : Step runtime s a s') :
    Served runtime queue (τ ++ [(s, a)]) s' := by
  -- the last call of the longer history: the step is the call, or comes after it
  have hcall : (a = .recv → Receiving s [] s') →
      (∀ s₁ τ₂, Receiving s₁ τ₂ s → a ≠ .recv → Receiving s₁ (τ₂ ++ [(s, a)]) s') →
      ∀ τ₁ s₁ τ₂, τ ++ [(s, a)] = τ₁ ++ (s₁, .recv) :: τ₂ → (∀ x ∈ τ₂, x.2 ≠ .recv) → Receiving s₁ τ₂ s' := by
    intro hnew hgoes τ₁ s₁ τ₂ hτ hlast
    rcases List.eq_nil_or_concat τ₂ with rfl | ⟨σ, y, rfl⟩
    · obtain ⟨-, hx⟩ := List.append_inj' hτ rfl
      obtain ⟨rfl, rfl⟩ := Prod.mk.inj (List.singleton_inj.mp hx)
      exact hnew rfl
    · have hτ' : τ ++ [(s, a)] = (τ₁ ++ (s₁, .recv) :: σ) ++ [y] := by simpa using hτ
      obtain ⟨hpre, hy⟩ := List.append_inj' hτ' rfl
      obtain rfl := List.singleton_inj.mp hy
      have hrecv := h.call τ₁ s₁ σ hpre fun x hx => hlast x (by simp [hx])
      simpa using hgoes s₁ σ hrecv (hlast (s, a) (by simp))
  rcases next_cases h.flags hstep with ⟨l, item, rfl, hopen, rfl⟩ | ⟨l, rfl, rfl⟩ | ⟨rfl, hpc, rfl⟩ | ⟨ha, hm⟩
  · have hsends : ∀ l', ((s, Act.send l item).2.sends l').toList = if h : l = l' then [h ▸ item] else [] := by
      intro l'
      simp only [Act.sends]
      split <;> rfl
    have hqueue : ∀ l', Function.update s.queue l (s.queue l ++ [item]) l' =
        s.queue l' ++ ((s, Act.send l item).2.sends l').toList := by
      intro l'
      rw [hsends]
      by_cases hl : l = l'
      · subst hl
        simp
      · simp [Function.update_of_ne (Ne.symm hl), hl]
    refine ⟨?_, ?_, h.ended, h.panicked, hcall (by simp) fun s₁ τ₂ hr _ => hr.frame rfl rfl rfl hqueue⟩
    · intro l' hclosed
      obtain ⟨hsenders, hempty⟩ := h.flags l' hclosed
      have hne : l' ≠ l := by
        rintro rfl
        rw [hopen] at hsenders
        cases hsenders
      exact ⟨hsenders, by simpa [Function.update_of_ne hne] using hempty⟩
    · intro l'
      rw [sentOn_snoc, ← List.append_assoc, ← h.conserved l']
      show s.received l' ++ Function.update s.queue l (s.queue l ++ [item]) l' = _
      rw [hqueue, List.append_assoc]
  · refine ⟨?_, ?_, h.ended, h.panicked, hcall (by simp) fun s₁ τ₂ hr _ => hr.frame rfl rfl rfl (by simp [Act.sends])⟩
    · intro l' hclosed
      obtain ⟨hsenders, hempty⟩ := h.flags l' hclosed
      refine ⟨?_, hempty⟩
      show Function.update s.senders l false l' = false
      by_cases hl : l' = l
      · subst hl
        simp
      · rw [Function.update_of_ne hl, hsenders]
    · intro l'
      rw [sentOn_snoc]
      simpa [Act.sends] using h.conserved l'
  · refine ⟨h.flags, ?_, by simp, by simp, hcall (fun _ => ?_) fun _ _ _ hne => absurd rfl hne⟩
    · intro l'
      rw [sentOn_snoc]
      simpa [Act.sends] using h.conserved l'
    · exact ⟨by simp [sentOn], Or.inl rfl⟩
  · have hmove : (s, a).2.isMove = true := by
      rcases ha with rfl | ⟨l, rfl⟩ <;> rfl
    have hnone : ∀ l, (s, a).2.sends l = none := by
      rcases ha with rfl | ⟨l, rfl⟩ <;> simp [Act.sends]
    obtain ⟨hflags, hkept⟩ := hm.lanes h.flags
    refine ⟨hflags, ?_, hm.ended.1, hm.ended.2, hcall ?_ fun s₁ τ₂ hr _ => hr.move h.flags hm hmove⟩
    · intro l'
      rw [sentOn_snoc, hnone, hkept, h.conserved]
      simp
    · rintro rfl
      rcases ha with ha | ⟨l, ha⟩ <;> cases ha

theorem Served.run {queue : (l : Lane) → List (l.Item M)} {senders : Lane → Bool}
    (h : Run (Step runtime) ({ queue, senders } : Receiver M) τ s) : Served runtime queue τ s := by
  induction h with
  | nil =>
    refine ⟨by simp [FlagsRight], by simp [sentOn], by simp, by simp, ?_⟩
    intro τ₁ s₁ τ₂ hτ
    simp at hτ
  | snoc _ hstep ih => exact ih.step hstep

/-- In its first pass over the lanes `recv` can always go on. -/
theorem step_isSome {l : Lane} (h : s.pc = .check ∨ s.pc = .poll l) : (s.next runtime .step).isSome = true := by
  rcases h with hpc | hpc
  · simp only [next, hpc]
    split <;> rfl
  · simp only [next, hpc, pollLane, take]
    split
    · rfl
    · split
      · rfl
      · split <;> rfl

/-- **Receiving from a mailbox is a strict priority queue of first-in-first-out lanes**, in both runtimes. Whatever is in
the lanes, is sent, and has its senders dropped at whatever moment: what was received from a lane, followed by what is
still in it, is what was put in, in that order. An item returned was the first of its lane since the call began, and no
lane of higher priority had anything when the call began; without sends since, it is the head of the first lane that had
something then. A call that finds something returns within five steps. `None` is returned, and a select of tokio may
panic, only when every lane is empty and without senders. -/
theorem recv_is_priority_queue (runtime : MailboxRuntime) (queue : (l : Lane) → List (l.Item M)) (senders : Lane → Bool)
    {τ : List (Receiver M × Act M)} {s : Receiver M} (h : Run (Step runtime) ({ queue, senders } : Receiver M) τ s) :
    (∀ l, s.received l ++ s.queue l = queue l ++ sentOn l τ) ∧
    (∀ τ₁ s₁ τ₂, τ = τ₁ ++ (s₁, .recv) :: τ₂ → (∀ x ∈ τ₂, x.2 ≠ .recv) →
      (∀ item, s.pc = .returned (some item) →
        ∃ l x, item = Lane.wrap l x ∧ (s.received l).getLast? = some x ∧ (s₁.queue l ++ sentOn l τ₂).head? = some x ∧
          (∀ l', l'.Above l → s₁.queue l' = []) ∧ ((∀ l, sentOn l τ₂ = []) → (s₁.queue l).head? = some x)) ∧
      ((∃ l, s₁.queue l ≠ []) → (∃ item, s.pc = .returned (some item)) ∨
        ((s.next runtime .step).isSome = true ∧ moves τ₂ < 5))) ∧
    (s.pc = .returned none → ∀ l, s.senders l = false ∧ s.queue l = []) ∧
    (s.pc = .panicked → runtime = .tasks ∧ ∀ l, s.senders l = false ∧ s.queue l = []) := by
  have hserved := Served.run h
  refine ⟨hserved.conserved, ?_, ?_, ?_⟩
  · intro τ₁ s₁ τ₂ hτ hlast
    have hcall := hserved.call τ₁ s₁ τ₂ hτ hlast
    constructor
    · intro item hpc
      simp only [Receiving, hpc] at hcall
      obtain ⟨⟨l, x, hitem, hhead, hgot, habove⟩, -⟩ := hcall
      refine ⟨l, x, hitem, hgot, hhead, habove, fun hquiet => ?_⟩
      simpa [hquiet] using hhead
    · rintro ⟨l, hne⟩
      have hsome : ¬∀ l, s₁.queue l = [] := fun hall => hne (hall l)
      unfold Receiving at hcall
      split at hcall
      case h_1 => exact hcall.elim
      case h_2 hpc =>
        have hzero := hcall.2.resolve_right hsome
        exact Or.inr ⟨step_isSome (l := .signal) (Or.inl hpc), by omega⟩
      case h_3 lane hpc =>
        have hcount := hcall.2.2.resolve_right hsome
        have hrank : lane.rank ≤ 3 := by cases lane <;> decide
        exact Or.inr ⟨step_isSome (Or.inr hpc), by omega⟩
      case h_7 => exact absurd hcall hsome
      case h_8 item hpc => exact Or.inl ⟨item, hpc⟩
      all_goals exact absurd hcall.2 hsome
  · intro hpc l
    exact hserved.flags l (hserved.ended hpc l)
  · intro hpc
    obtain ⟨hruntime, hall⟩ := hserved.panicked hpc
    exact ⟨hruntime, fun l => hserved.flags l (hall l)⟩

/-- A stop goes before a message sent earlier. -/
theorem recv_takes_stop_first :
    ∃ (τ : List (Receiver Nat × Act Nat)) (s : Receiver Nat),
      Run (Step .threads) ({ queue := fun _ => [], senders := fun _ => true } : Receiver Nat) τ s ∧
      s.pc = .returned (some .shutdown) ∧ ∀ l, s.received l ++ s.queue l = [] ++ sentOn l τ := by
  have hrun := run_tryPlay (next .threads) ({ queue := fun _ => [], senders := fun _ => true } : Receiver Nat)
    [.send .user 1, .send .stop (), .recv, .step, .step, .step] (by decide)
  exact ⟨_, _, hrun, by decide, (recv_is_priority_queue .threads _ _ hrun).1⟩

/-- With all senders gone the select of tokio has no branch left, where the other `recv` returns `None`. -/
example : (tryPlay (next .tasks) ({ queue := fun _ => [], senders := fun _ => false } : Receiver Nat)
    [.recv, .step, .step, .step, .step, .step, .step]).map (·.2.pc) = some .panicked ∧
    (tryPlay (next .threads) ({ queue := fun _ => [], senders := fun _ => false } : Receiver Nat)
      [.recv, .step, .step, .step, .step, .step, .pick .user, .step]).map (·.2.pc) = some (.returned none) := by
  decide

end Receiver

end Spawned
