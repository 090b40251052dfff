import Spawned.Actor.Life
import Spawned.Link.Once

/-!
# A supervisor among its children

`run_actor` of a supervisor, one access at a time, over the cells it shares with its children and its peers. Its
callbacks are the programs of `Callbacks`; `startChild` is the spawn of a new actor and the steps of `link_handles`, and
every child goes through the exit sequence of `Link.Basic` whenever it stops.

* `RunPc`, `Advance` : the run loop, from `started` to the resolved exit reason;
* `SysStep` : the steps of the supervisor, of its children, and of everybody else;
* `Callbacks.Trapping` : what the two supervisors have in common: they trap exits before anything else, and for good;
* `lives_of_runs` : between two callbacks the system is in a life of the supervisor.
-/

namespace Spawned

open Lib

/-! ## Requests -/

namespace ActorCell

/-- `ChildHandle::stop`, `shutdown` and `kill`. -/
def stop (c : ActorCell) : ActorCell := { c with cancelled := true }

def shutdown (c : ActorCell) : ActorCell := { c with requestedExit := some .shutdown, cancelled := true }

def kill (c : ActorCell) : ActorCell := { c with requestedExit := some .kill, skipStopped := true, cancelled := true }

/-- `send_exit`: push to the supervision lane, if somebody still reads it. -/
def sendExit (exit : Exit) (c : ActorCell) : ActorCell := if c.laneOpen then { c with lane := c.lane ++ [exit] } else c

/-- The reasons `run_actor` can return for an actor with these cells: a panic in `started`, or what
`resolve_exit_reason` makes of its own outcome. -/
def MayExit (c : ActorCell) (reason : ExitReason) : Prop :=
  (∃ msg, reason = .panic ("panic in started(): " ++ msg)) ∨
    ∃ own, (own = .normal ∨ ∃ msg, own = .panic msg) ∧
      (resolveExitReason own c.requestedExit c.linkedReason).1 = reason

end ActorCell

/-- What anybody with a handle can ask of an actor. -/
inductive Request
  | stop
  | shutdown
  | kill
deriving DecidableEq, Repr

def Request.apply : Request → ActorCell → ActorCell
  | .stop => ActorCell.stop
  | .shutdown => ActorCell.shutdown
  | .kill => ActorCell.kill

/-- What a call of the supervisor does to the cells. -/
def SupOp.effect (own : ActorId) (w : Cells) : SupOp → Cells
  | .shutdown handle => w.modify handle.id ActorCell.shutdown
  | .kill handle => w.modify handle.id ActorCell.kill
  | .trapExit enabled => w.modify own fun c => { c with trapExit := enabled }
  | .stop => w.modify own ActorCell.stop
  | _ => w

/-! ## The run loop -/

/-- The callback that is running: a handler with the state it began in, `stopped` with the reason so far and whether it
runs because the actor was cancelled before its loop. -/
inductive Callback (S M : Type)
  | started
  | handler (state : S) (event : Event M)
  | stopped (early : Bool) (reason : ExitReason)

/-- Where `run_actor` is. -/
inductive RunPc (S M : Type)
  | running (callback : Callback S M) (prog : SupProg S)
  /-- `started` has returned -/
  | launched (state : S)
  | receiving (state : S)
  /-- a handler has returned -/
  | handled (state : S)
  /-- out of the loop -/
  | closing (state : S) (reason : ExitReason)
  | stopCheck (early : Bool) (state : S) (reason : ExitReason)
  /-- the two halves of `resolve_exit_reason` -/
  | resolving (reason : ExitReason)
  | resolvingLinked
  | exited (reason : ExitReason)

/-- `run_actor` has returned and its receivers are dropped. -/
def Cells.close (w : Cells) (own : ActorId) : Cells := w.modify own fun c => { c with laneOpen := false }

namespace Callbacks

variable {S M R : Type} (c : Callbacks S M R)

/-- The program of an event's handler, without its reply. -/
def react (s : S) (event : Event M) : SupProg S := do
  let (s, _) ← c.onEvent s event
  pure s

end Callbacks

/-- What `run_actor` does of itself: everything but calls, panics and taking from the mailbox. -/
inductive Advance {S M R : Type} (c : Callbacks S M R) (own : ActorId) (w : Cells) :
    RunPc S M → RunPc S M → Cells → Prop
  | started {s : S} : Advance c own w (.running .started (.pure s)) (.launched s) w
  | handled {s₀ s : S} {event : Event M} : Advance c own w (.running (.handler s₀ event) (.pure s)) (.handled s) w
  | stopped {early : Bool} {reason : ExitReason} {s : S} :
      Advance c own w (.running (.stopped early reason) (.pure s)) (.resolving reason) w
  | early {s : S} (h : (w own).cancelled = true) : Advance c own w (.launched s) (.stopCheck true s .normal) w
  | serve {s : S} (h : (w own).cancelled = false) : Advance c own w (.launched s) (.receiving s) w
  /-- a cancelled mailbox gives `MailboxItem::Shutdown` -/
  | shutdown {s : S} (h : (w own).cancelled = true) : Advance c own w (.receiving s) (.closing s .normal) w
  | leave {s : S} (h : (w own).cancelled = true) : Advance c own w (.handled s) (.closing s .normal) w
  | again {s : S} (h : (w own).cancelled = false) : Advance c own w (.handled s) (.receiving s) w
  | cancel {s : S} {reason : ExitReason} :
      Advance c own w (.closing s reason) (.stopCheck false s reason) (w.modify own ActorCell.stop)
  | skip {early : Bool} {s : S} {reason : ExitReason} (h : (w own).skipStopped = true) :
      Advance c own w (.stopCheck early s reason) (.resolving reason) w
  | stop {early : Bool} {s : S} {reason : ExitReason} (h : (w own).skipStopped = false) :
      Advance c own w (.stopCheck early s reason) (.running (.stopped early reason) (c.stopped s)) w
  | requested {reason requested : ExitReason} (h : (w own).requestedExit = some requested) :
      Advance c own w (.resolving reason) (.exited requested) (w.close own)
  | abnormal {reason : ExitReason} (h : (w own).requestedExit = none) (hreason : reason ≠ .normal) :
      Advance c own w (.resolving reason) (.exited reason) (w.close own)
  | unrequested (h : (w own).requestedExit = none) : Advance c own w (.resolving .normal) .resolvingLinked w
  | linked {reason : ExitReason} (h : (w own).linkedReason = some reason) :
      Advance c own w .resolvingLinked (.exited reason) (w.close own)
  | normal (h : (w own).linkedReason = none) : Advance c own w .resolvingLinked (.exited .normal) (w.close own)

/-- Where a panic in a callback leads; a panicking handler leaves the actor in some state `s`. -/
def Callback.unwind {S M : Type} (own : ActorId) (w : Cells) (msg : String) (s : S) :
    Callback S M → RunPc S M × Cells
  | .started => (.exited (.panic ("panic in started(): " ++ msg)), (w.modify own ActorCell.stop).close own)
  | .handler _ (.message _) => (.closing s (.panic ("panic in handler: " ++ msg)), w)
  | .handler _ (.exit _) => (.closing s (.panic ("panic in exit_received: " ++ msg)), w)
  | .stopped early reason =>
    (.resolving (if early || reason.isAbnormal then reason else .panic ("panic in stopped(): " ++ msg)), w)

/-! ## The system -/

/-- The supervisor, the cells of all actors, and the exit sequences of its children. -/
structure System (S M : Type) where
  cells : Cells
  pc : RunPc S M
  /-- the child `link_handles` is at work on -/
  linking : Option (ActorId × LinkPc) := none
  /-- how many `Exit`s the supervisor has taken off its lane -/
  taken : Nat := 0
  /-- the local children started so far -/
  kids : List ActorId := []
  exits : ActorId → Option (ExitReason × ExitPc) := fun _ => none

/-- Who acts. -/
inductive SysAct (M : Type)
  /-- the supervisor -/
  | call (call : SupCall)
  | spawn (kid : ActorId)
  | link (kid : ActorId)
  | advance
  | panic (msg : String)
  | takeExit
  | message (msg : M)
  | osSignal
  | disconnect
  /-- a child -/
  | beginExit (kid : ActorId) (reason : ExitReason)
  | exit (kid : ActorId)
  /-- anybody else -/
  | others
  | signal (sender : ActorId) (reason : ExitReason)
  | remoteExit (exit : Exit)
  | request (request : Request)

/-- What the rest of the node may do to the cells: anything, except to the supervisor's own cells other than its link
table, to the entry of the supervisor in a child's table, and to a child's completion value. -/
structure Others (own : ActorId) (kids : List ActorId) (w w' : Cells) : Prop where
  self : ∃ links, w' own = { w own with links }
  entry : ∀ kid ∈ kids, own ∈ (w' kid).links ↔ own ∈ (w kid).links
  nodup : ∀ kid ∈ kids, (w kid).links.Nodup → (w' kid).links.Nodup
  completion : ∀ kid ∈ kids, (w' kid).completion = (w kid).completion

/-- An id nobody has had. -/
structure System.Fresh {S M : Type} (s : System S M) (me : ActorAddress) (kid : ActorId) : Prop where
  ne : me.actorId ≠ kid
  new : kid ∉ s.kids
  alive : s.exits kid = none
  unsent : exitsFrom me.node kid (s.cells me.actorId).lane = []

section Steps

variable {S M R : Type} (c : Callbacks S M R) (me : ActorAddress)

/-- The steps of the supervisor at `me` with the callbacks `c`, of its children and of everybody else. -/
inductive SysStep : System S M → SysAct M → System S M → Prop
  | call {s : System S M} {cb : Callback S M} {e : SupOp} {k : e.Ans → SupProg S} (x : e.Ans)
      (hpc : s.pc = .running cb (.call e k)) (he : ∀ spec, e ≠ .startChild spec) :
      SysStep s (.call ⟨e, x⟩) { s with pc := .running cb (k x), cells := e.effect me.actorId s.cells }
  /-- `startChild` spawns the actor, -/
  | spawn {s : System S M} {cb : Callback S M} {spec : ChildSpec} {k : ChildHandle → SupProg S} (kid : ActorId)
      (hpc : s.pc = .running cb (.call (.startChild spec) k)) (hlinking : s.linking = none) (hfresh : s.Fresh me kid) :
      SysStep s (.spawn kid) { s with
        cells := Function.update s.cells kid {}, linking := some (kid, .pushOwn), kids := s.kids ++ [kid] }
  /-- links it, -/
  | link {s : System S M} {kid : ActorId} {pc : LinkPc} (hlinking : s.linking = some (kid, pc)) (hpc : pc ≠ .done) :
      SysStep s (.link kid) { s with
        linking := some (kid, (linkStep me.node me.actorId kid s.cells pc).1)
        cells := (linkStep me.node me.actorId kid s.cells pc).2 }
  /-- and returns its handle. -/
  | linked {s : System S M} {kid : ActorId} {cb : Callback S M} {spec : ChildSpec} {k : ChildHandle → SupProg S}
      (hlinking : s.linking = some (kid, .done)) (hpc : s.pc = .running cb (.call (.startChild spec) k)) :
      SysStep s (.call ⟨.startChild spec, ⟨kid⟩⟩) { s with pc := .running cb (k ⟨kid⟩), linking := none }
  | advance {s : System S M} {pc : RunPc S M} {w : Cells} (h : Advance c me.actorId s.cells s.pc pc w) :
      SysStep s .advance { s with pc := pc, cells := w }
  | panic {s : System S M} {cb : Callback S M} {prog : SupProg S} (msg : String) (st : S)
      (hpc : s.pc = .running cb prog) (hlinking : s.linking = none) :
      SysStep s (.panic msg) { s with
        pc := (cb.unwind me.actorId s.cells msg st).1, cells := (cb.unwind me.actorId s.cells msg st).2 }
  | takeExit {s : System S M} {st : S} {exit : Exit} (hpc : s.pc = .receiving st)
      (hnext : (s.cells me.actorId).lane[s.taken]? = some exit) :
      SysStep s .takeExit { s with
        pc := .running (.handler st (.exit exit)) (c.react st (.exit exit)), taken := s.taken + 1 }
  | message {s : System S M} {st : S} (msg : M) (hpc : s.pc = .receiving st) :
      SysStep s (.message msg) { s with pc := .running (.handler st (.message msg)) (c.react st (.message msg)) }
  | osSignal {s : System S M} {st : S} (hpc : s.pc = .receiving st) :
      SysStep s .osSignal { s with
        pc := .closing st .normal
        cells := s.cells.modify me.actorId fun c => { c with requestedExit := some .shutdown } }
  | disconnect {s : System S M} {st : S} (hpc : s.pc = .receiving st) :
      SysStep s .disconnect { s with pc := .closing st .normal }
  | beginExit {s : System S M} {kid : ActorId} {reason : ExitReason} (hkid : kid ∈ s.kids) (halive : s.exits kid = none)
      (hreason : (s.cells kid).MayExit reason) :
      SysStep s (.beginExit kid reason) { s with
        exits := Function.update s.exits kid (some (reason, .drain)), cells := s.cells.close kid }
  | exit {s : System S M} {kid : ActorId} {reason : ExitReason} {pc : ExitPc} (hexit : s.exits kid = some (reason, pc)) :
      SysStep s (.exit kid) { s with
        exits := Function.update s.exits kid (some (reason, (exitStep me.node kid reason s.cells pc).1))
        cells := (exitStep me.node kid reason s.cells pc).2 }
  | others {s : System S M} {w : Cells} (h : Others me.actorId s.kids s.cells w) :
      SysStep s .others { s with cells := w }
  /-- a linked peer that is no child exits -/
  | signal {s : System S M} {sender : ActorId} {reason : ExitReason} (hsender : sender ∉ s.kids) :
      SysStep s (.signal sender reason) { s with
        cells := s.cells.modify me.actorId (makeSignal me.node sender reason) }
  /-- the broker delivers the `ChildExit` of an actor that is no local child -/
  | remoteExit {s : System S M} {exit : Exit} (hexit : ∀ kid ∈ s.kids, exit.from ≠ ⟨me.node, kid⟩) :
      SysStep s (.remoteExit exit) { s with cells := s.cells.modify me.actorId (ActorCell.sendExit exit) }
  | request {s : System S M} (request : Request) :
      SysStep s (.request request) { s with cells := s.cells.modify me.actorId request.apply }

/-- The supervisor is started in `s₀`, with new cells of its own. -/
def System.init (w : Cells) (s₀ : S) : System S M where
  cells := Function.update w me.actorId {}
  pc := .running .started (c.started s₀)

end Steps

/-! ## Who is who -/

variable {S M R : Type} {c : Callbacks S M R} {me : ActorAddress} {s s' : System S M} {a : SysAct M}

/-- The children are other actors, and only children exit or are linked. -/
structure System.WF (me : ActorAddress) (s : System S M) : Prop where
  ne : ∀ kid ∈ s.kids, me.actorId ≠ kid
  exits : ∀ kid, s.exits kid ≠ none → kid ∈ s.kids
  linking : ∀ kid pc, s.linking = some (kid, pc) → kid ∈ s.kids

theorem System.wf_init (c : Callbacks S M R) (me : ActorAddress) (w : Cells) (s₀ : S) : (System.init c me w s₀).WF me := by
  refine ⟨?_, ?_, ?_⟩ <;> simp [System.init]

theorem SysStep.wf (hstep : SysStep c me s a s') (h : s.WF me) : s'.WF me := by
  cases hstep with
  | spawn kid hpc hlinking hfresh =>
    refine ⟨fun k hk => ?_, fun k hk => List.mem_append_left _ (h.exits k hk), fun k pc hk => ?_⟩
    · rcases List.mem_append.mp hk with hk | hk
      · exact h.ne k hk
      · rw [List.mem_singleton.mp hk]
        exact hfresh.ne
    · obtain ⟨rfl, -⟩ : kid = k ∧ LinkPc.pushOwn = pc := by simpa using hk
      simp
  | link hlinking hpc =>
    refine ⟨h.ne, h.exits, fun k pc hk => ?_⟩
    obtain ⟨rfl, -⟩ := Prod.mk.inj (Option.some.inj hk)
    exact h.linking _ _ hlinking
  | linked hlinking hpc => exact ⟨h.ne, h.exits, fun _ _ hk => nomatch hk⟩
  | @beginExit kid reason hkid halive hreason =>
    refine ⟨h.ne, fun k hk => ?_, h.linking⟩
    by_cases hne : k = kid
    · exact hne ▸ hkid
    · exact h.exits k (by simpa [hne] using hk)
  | @exit kid reason pc hexit =>
    refine ⟨h.ne, fun k hk => ?_, h.linking⟩
    by_cases hne : k = kid
    · exact hne ▸ h.exits kid (by simp [hexit])
    · exact h.exits k (by simpa [hne] using hk)
  | _ => exact ⟨h.ne, h.exits, h.linking⟩

/-! ## What a step does to the supervisor -/

/-- The step gives the supervisor the exit signal of `sender`. -/
def Signals (me : ActorAddress) (s : System S M) (sender : ActorId) (reason : ExitReason) : SysAct M → Prop
  | .signal sender' reason' => sender = sender' ∧ reason = reason'
  | .exit kid => sender = kid ∧ ∃ entries, s.exits kid = some (reason, .signalPeer me.actorId entries)
  | .link kid => sender = kid ∧ s.linking = some (kid, .signal reason)
  | _ => False

/-- The supervisor is asked to stop, to shut down, or is killed, be it by itself. -/
def requests (me : ActorAddress) : SysAct M → Bool
  | .request _ | .osSignal => true
  | .call ⟨.shutdown handle, _⟩ | .call ⟨.kill handle, _⟩ => handle.id == me.actorId
  | _ => false

abbrev Requested (me : ActorAddress) (a : SysAct M) : Prop := requests me a = true

/-- The changes of the supervisor's cells other than a signal. -/
inductive OwnStep (me : ActorAddress) (a : SysAct M) (s' : System S M) (cell : ActorCell) : ActorCell → Prop
  | table {cell' : ActorCell} (h : TableOnly cell cell') : OwnStep me a s' cell cell'
  | trap {enabled : Bool} (h : a = .call ⟨.trapExit enabled, ()⟩) :
      OwnStep me a s' cell { cell with trapExit := enabled }
  | stop : OwnStep me a s' cell cell.stop
  | close (cancel : Bool) {reason : ExitReason} (h : s'.pc = .exited reason) :
      OwnStep me a s' cell { cell with cancelled := cancel || cell.cancelled, laneOpen := false }
  | sendExit {exit : Exit} (h : a = .remoteExit exit) : OwnStep me a s' cell (cell.sendExit exit)
  | requested (h : Requested me a) (request : Option ExitReason) (skip cancel : Bool) :
      OwnStep me a s' cell
        { cell with requestedExit := request, skipStopped := skip, cancelled := cancel || cell.cancelled }

theorem ownStep_effect (e : SupOp) (x : e.Ans) (w : Cells) :
    OwnStep me (.call ⟨e, x⟩ : SysAct M) s' (w me.actorId) (e.effect me.actorId w me.actorId) := by
  cases e with
  | shutdown handle =>
    by_cases hid : handle.id = me.actorId
    · have hreq : Requested me (.call ⟨.shutdown handle, x⟩ : SysAct M) := beq_iff_eq.mpr hid
      simp only [SupOp.effect, hid, Cells.modify_self]
      exact .requested hreq (some .shutdown) (w me.actorId).skipStopped true
    · exact .table (.of_eq (by simp [SupOp.effect, Cells.modify_ne _ _ (Ne.symm hid)]))
  | kill handle =>
    by_cases hid : handle.id = me.actorId
    · have hreq : Requested me (.call ⟨.kill handle, x⟩ : SysAct M) := beq_iff_eq.mpr hid
      simp only [SupOp.effect, hid, Cells.modify_self]
      exact .requested hreq (some .kill) true true
    · exact .table (.of_eq (by simp [SupOp.effect, Cells.modify_ne _ _ (Ne.symm hid)]))
  | trapExit enabled =>
    simp only [SupOp.effect, Cells.modify_self]
    exact .trap rfl
  | stop =>
    simp only [SupOp.effect, Cells.modify_self]
    exact .stop
  | _ => exact .table (.of_eq rfl)

/-- What the run loop does to the supervisor's cells. -/
theorem ownStep_advance {pc pc' : RunPc S M} {w w' : Cells} (hpc : s'.pc = pc') (h : Advance c me.actorId w pc pc' w') :
    OwnStep me a s' (w me.actorId) (w' me.actorId) := by
  have hclose : ∀ {reason}, s'.pc = .exited reason → OwnStep me a s' (w me.actorId) (w.close me.actorId me.actorId) := by
    intro reason hexited
    simp only [Cells.close, Cells.modify_self]
    exact .close false hexited
  cases h with
  | cancel =>
    rw [Cells.modify_self]
    exact .stop
  | requested _ => exact hclose hpc
  | abnormal _ _ => exact hclose hpc
  | linked _ => exact hclose hpc
  | normal _ => exact hclose hpc
  | _ => exact .table (.of_eq rfl)

theorem SysStep.own (hstep : SysStep c me s a s') (h : s.WF me) :
    (∃ sender reason, Signals me s sender reason a ∧
        s'.cells me.actorId = makeSignal me.node sender reason (s.cells me.actorId)) ∨
      (∀ sender reason, ¬Signals me s sender reason a) ∧
        OwnStep me a s' (s.cells me.actorId) (s'.cells me.actorId) := by
  cases hstep with
  | call x hpc he => exact Or.inr ⟨fun _ _ => id, ownStep_effect _ x s.cells⟩
  | spawn kid hpc hlinking hfresh =>
    refine Or.inr ⟨fun _ _ => id, .table (.of_eq ?_)⟩
    exact Function.update_of_ne hfresh.ne _ _
  | @link kid pc hlinking hpc =>
    rcases linkStep_owner me.node (h.ne kid (h.linking _ _ hlinking)) s.cells pc with
      ⟨reason, rfl, heq⟩ | ⟨hno, htable⟩
    · exact Or.inl ⟨kid, reason, ⟨rfl, hlinking⟩, heq⟩
    · refine Or.inr ⟨?_, .table htable⟩
      rintro sender reason ⟨rfl, hsig⟩
      rw [hlinking] at hsig
      exact hno reason (Prod.mk.inj (Option.some.inj hsig)).2
  | linked hlinking hpc => exact Or.inr ⟨fun _ _ => id, .table (.of_eq rfl)⟩
  | advance hadv => exact Or.inr ⟨fun _ _ => id, ownStep_advance rfl hadv⟩
  | @panic cb prog msg st hpc hlinking =>
    refine Or.inr ⟨fun _ _ => id, ?_⟩
    cases cb with
    | started =>
      simp only [Callback.unwind, Cells.close, Cells.modify_self]
      exact .close true rfl
    | handler state event => cases event <;> exact .table (.of_eq rfl)
    | stopped early reason => exact .table (.of_eq rfl)
  | takeExit hpc hnext => exact Or.inr ⟨fun _ _ => id, .table (.of_eq rfl)⟩
  | message msg hpc => exact Or.inr ⟨fun _ _ => id, .table (.of_eq rfl)⟩
  | osSignal hpc =>
    refine Or.inr ⟨fun _ _ => id, ?_⟩
    simp only [Cells.modify_self]
    have hreq : Requested me (.osSignal : SysAct M) := rfl
    exact .requested hreq (some .shutdown) (s.cells me.actorId).skipStopped false
  | disconnect hpc => exact Or.inr ⟨fun _ _ => id, .table (.of_eq rfl)⟩
  | beginExit hkid halive hreason =>
    refine Or.inr ⟨fun _ _ => id, .table (.of_eq ?_)⟩
    simp [Cells.close, Cells.modify_ne _ _ (h.ne _ hkid)]
  | @exit kid reason pc hexit =>
    rcases exitStep_peer me.node (h.ne kid (h.exits kid (by simp [hexit]))) reason s.cells pc with
      ⟨entries, rfl, heq⟩ | ⟨hno, htable⟩
    · exact Or.inl ⟨kid, reason, ⟨rfl, entries, hexit⟩, heq⟩
    · refine Or.inr ⟨?_, .table htable⟩
      rintro sender reason' ⟨rfl, entries, hsig⟩
      rw [hexit] at hsig
      exact hno entries (Prod.mk.inj (Option.some.inj hsig)).2
  | others hothers => exact Or.inr ⟨fun _ _ => id, .table hothers.self⟩
  | @signal sender reason hsender =>
    refine Or.inl ⟨sender, reason, ⟨rfl, rfl⟩, ?_⟩
    simp only [Cells.modify_self]
  | remoteExit hexit =>
    refine Or.inr ⟨fun _ _ => id, ?_⟩
    simp only [Cells.modify_self]
    exact .sendExit rfl
  | request request =>
    refine Or.inr ⟨fun _ _ => id, ?_⟩
    have hreq : Requested me (.request request : SysAct M) := rfl
    simp only [Cells.modify_self]
    cases request with
    | stop => exact .stop
    | shutdown => exact .requested hreq (some .shutdown) (s.cells me.actorId).skipStopped true
    | kill => exact .requested hreq (some .kill) true true

/-! ## Trapping -/

/-- The call does not turn trapping off. -/
def KeepsTrap (e : SupOp) : Prop := e ≠ .trapExit false

/-- The actor traps exits before anything else, and for good. -/
structure Callbacks.Trapping (c : Callbacks S M R) : Prop where
  started : ∀ s, ∃ k, c.started s = .call (.trapExit true) k ∧ (k ()).Calls KeepsTrap
  exitReceived : ∀ s exit, (c.exitReceived s exit).Calls KeepsTrap
  handle : ∀ s msg, (c.handle s msg).Calls KeepsTrap
  stopped : ∀ s, (c.stopped s).Calls KeepsTrap

theorem Callbacks.Trapping.react (hc : c.Trapping) (s : S) (event : Event M) :
    (c.react s event).Calls KeepsTrap := by
  refine .bind ?_ fun _ => trivial
  cases event with
  | exit exit => exact .bind (hc.exitReceived s exit) fun _ => trivial
  | message msg => exact .bind (hc.handle s msg) fun _ => trivial

def RunPc.KeepsTrap : RunPc S M → Prop
  | .running _ prog => prog.Calls Spawned.KeepsTrap
  | _ => True

/-- The supervisor traps exits, and whatever it still runs does not turn that off. -/
def Armed (me : ActorAddress) (s : System S M) : Prop := (s.cells me.actorId).trapExit = true ∧ s.pc.KeepsTrap

/-- The supervisor has not trapped exits: it is about to, or it panicked first. It has no children. -/
def Unarmed (s : System S M) : Prop :=
  s.kids = [] ∧ s.linking = none ∧
    ((∃ k, s.pc = .running .started (.call (.trapExit true) k) ∧ (k ()).Calls KeepsTrap) ∨ ∃ reason, s.pc = .exited reason)

theorem unarmed_init (hc : c.Trapping) (me : ActorAddress) (w : Cells) (s₀ : S) : Unarmed (System.init c me w s₀) := by
  obtain ⟨k, hk, hcalls⟩ := hc.started s₀
  exact ⟨rfl, rfl, Or.inl ⟨k, by rw [← hk]; rfl, hcalls⟩⟩

/-- The programs the run loop goes on to do not turn trapping off. -/
theorem SysStep.keepsTrap (hc : c.Trapping) (hstep : SysStep c me s a s') (h : s.pc.KeepsTrap) : s'.pc.KeepsTrap := by
  cases hstep with
  | call x hpc he =>
    rw [hpc] at h
    exact h.2 x
  | linked hlinking hpc =>
    rw [hpc] at h
    exact h.2 _
  | advance hadv =>
    generalize s.pc = pc at hadv
    cases hadv with
    | stop _ => exact hc.stopped _
    | _ => trivial
  | @panic cb prog msg st hpc hlinking =>
    cases cb with
    | handler state event => cases event <;> trivial
    | _ => trivial
  | takeExit hpc hnext => exact hc.react _ _
  | message msg hpc => exact hc.react _ _
  | osSignal hpc => trivial
  | disconnect hpc => trivial
  | _ => exact h

@[simp] theorem ActorCell.stop_trapExit (cell : ActorCell) : cell.stop.trapExit = cell.trapExit := rfl

@[simp] theorem ActorCell.sendExit_trapExit (exit : Exit) (cell : ActorCell) :
    (cell.sendExit exit).trapExit = cell.trapExit := by
  unfold ActorCell.sendExit
  split_ifs <;> rfl

/-- A call of the running callback, as an action. -/
theorem SysStep.call_inv {e : SupOp} {x : e.Ans} (hstep : SysStep c me s (.call ⟨e, x⟩) s') :
    ∃ cb k, s.pc = .running cb (.call e k) ∧ s'.pc = .running cb (k x) := by
  generalize ha : (SysAct.call ⟨e, x⟩ : SysAct M) = a at hstep
  cases hstep with
  | call x' hpc he =>
    cases ha
    exact ⟨_, _, hpc, rfl⟩
  | linked hlinking hpc =>
    cases ha
    exact ⟨_, _, hpc, rfl⟩
  | _ => cases ha

theorem Armed.step (hc : c.Trapping) (hwf : s.WF me) (h : Armed me s) (hstep : SysStep c me s a s') : Armed me s' := by
  refine ⟨?_, hstep.keepsTrap hc h.2⟩
  obtain ⟨htrap, hkeeps⟩ := h
  rcases hstep.own hwf with ⟨sender, reason, -, hcell⟩ | ⟨-, hown⟩
  · rw [hcell, makeSignal_trapExit, htrap]
  · generalize s'.cells me.actorId = cell at hown
    cases hown with
    | table htable =>
      obtain ⟨links, rfl⟩ := htable
      exact htrap
    | @trap enabled ha =>
      subst ha
      obtain ⟨cb, k, hpc, -⟩ := hstep.call_inv
      rw [hpc] at hkeeps
      cases enabled with
      | true => rfl
      | false => exact absurd rfl hkeeps.1
    | sendExit ha => simpa using htrap
    | _ => exact htrap

/-- Before it traps exits the supervisor can do nothing but trap them, or panic. -/
theorem Unarmed.step (hwf : s.WF me) (h : Unarmed s) (hstep : SysStep c me s a s') : Armed me s' ∨ Unarmed s' := by
  obtain ⟨hkids, hlinking, hpc⟩ := h
  have hnoexit : ∀ kid, s.exits kid = none := by
    intro kid
    by_contra hexit
    simpa [hkids] using hwf.exits kid hexit
  have hframe : s'.kids = s.kids → s'.linking = s.linking → s'.pc = s.pc → Armed me s' ∨ Unarmed s' := by
    intro h₁ h₂ h₃
    exact Or.inr ⟨h₁.trans hkids, h₂.trans hlinking, h₃ ▸ hpc⟩
  cases hstep with
  | @call cb e k' x hpc' he =>
    rcases hpc with ⟨k, hpc, hcalls⟩ | ⟨reason, hpc⟩
    · rw [hpc] at hpc'
      cases hpc'
      refine Or.inl ⟨?_, hcalls⟩
      simp [SupOp.effect]
    · rw [hpc] at hpc'
      cases hpc'
  | panic msg st hpc' =>
    rcases hpc with ⟨k, hpc, -⟩ | ⟨reason, hpc⟩
    · rw [hpc] at hpc'
      cases hpc'
      exact Or.inr ⟨hkids, hlinking, Or.inr ⟨_, rfl⟩⟩
    · rw [hpc] at hpc'
      cases hpc'
  | spawn _ hpc' | takeExit hpc' | message _ hpc' | osSignal hpc' | disconnect hpc' =>
    rcases hpc with ⟨k, hpc, -⟩ | ⟨reason, hpc⟩ <;> rw [hpc] at hpc' <;> cases hpc'
  | advance hadv => rcases hpc with ⟨k, hpc, -⟩ | ⟨reason, hpc⟩ <;> rw [hpc] at hadv <;> cases hadv
  | link hl | linked hl =>
    rw [hlinking] at hl
    cases hl
  | beginExit hkid => simp [hkids] at hkid
  | exit hexit =>
    rw [hnoexit] at hexit
    cases hexit
  | _ => exact hframe rfl rfl rfl

/-- **Along every run the supervisor traps exits from the moment it can have a child.** -/
theorem armed_of_runs (hc : c.Trapping) {w : Cells} {s₀ : S} {hist : List (System S M × SysAct M)}
    (h : Run (SysStep c me) (System.init c me w s₀) hist s) : s.WF me ∧ (Armed me s ∨ Unarmed s) := by
  refine Run.inv (I := fun s => s.WF me ∧ (Armed me s ∨ Unarmed s))
    ⟨System.wf_init c me w s₀, Or.inr (unarmed_init hc me w s₀)⟩ ?_ h
  rintro s a s' ⟨hwf, harmed | hunarmed⟩ hstep
  · exact ⟨hstep.wf hwf, Or.inl (harmed.step hc hwf hstep)⟩
  · exact ⟨hstep.wf hwf, hunarmed.step hwf hstep⟩

/-! ## The lives in a run -/

theorem makeSignal_cancelled {here : NodeId} {sender : ActorId} {reason : ExitReason} {cell : ActorCell}
    (h : cell.cancelled = true) : (makeSignal here sender reason cell).cancelled = true := by
  unfold makeSignal
  split_ifs <;> simp [h]

theorem OwnStep.cancelled {cell cell' : ActorCell} (hown : OwnStep me a s' cell cell') (h : cell.cancelled = true) :
    cell'.cancelled = true := by
  cases hown with
  | table htable =>
    obtain ⟨links, rfl⟩ := htable
    exact h
  | sendExit ha =>
    unfold ActorCell.sendExit
    split_ifs <;> exact h
  | _ => simp [h, ActorCell.stop]

/-- A cancelled actor stays cancelled. -/
theorem SysStep.cancelled (hstep : SysStep c me s a s') (hwf : s.WF me) (h : (s.cells me.actorId).cancelled = true) :
    (s'.cells me.actorId).cancelled = true := by
  rcases hstep.own hwf with ⟨sender, reason, -, hcell⟩ | ⟨-, hown⟩
  · rw [hcell]
    exact makeSignal_cancelled h
  · exact hown.cancelled h

/-- What the run so far says about the life of the supervisor, at each point of the loop. -/
def LivesAt (c : Callbacks S M R) (me : ActorAddress) (s₀ : S) (w : Cells) : RunPc S M → Prop
  | .running .started prog => ∃ τ, (c.started s₀).Reaches τ prog
  | .launched s => ∃ τ, (c.started s₀).Exec τ s
  | .receiving s => ∃ τ₀ turns, c.Lives s₀ τ₀ turns ⟨s, false⟩
  | .running (.handler s event) prog => ∃ τ₀ turns τ, c.Lives s₀ τ₀ turns ⟨s, false⟩ ∧
      (c.react s event).Reaches τ prog ∧ (CalledStop τ → (w me.actorId).cancelled = true)
  | .handled s => ∃ τ₀ turns stopped, c.Lives s₀ τ₀ turns ⟨s, stopped⟩ ∧
      (stopped = true → (w me.actorId).cancelled = true)
  | _ => True

theorem LivesAt.mono {s₀ : S} {w w' : Cells} {pc : RunPc S M}
    (hmono : (w me.actorId).cancelled = true → (w' me.actorId).cancelled = true) (h : LivesAt c me s₀ w pc) :
    LivesAt c me s₀ w' pc := by
  unfold LivesAt at h ⊢
  split at h
  · exact h
  · exact h
  · exact h
  · obtain ⟨τ₀, turns, τ, hlives, hreach, hstop⟩ := h
    exact ⟨τ₀, turns, τ, hlives, hreach, fun hs => hmono (hstop hs)⟩
  · obtain ⟨τ₀, turns, stopped, hlives, hstop⟩ := h
    exact ⟨τ₀, turns, stopped, hlives, fun hs => hmono (hstop hs)⟩
  · trivial

/-- A handler that has returned is one more turn of the life. -/
theorem lives_handled {s₀ st st' : S} {τ₀ τ : SupTrace} {turns : List (Serving S × Turn M R)} {event : Event M}
    (hlives : c.Lives s₀ τ₀ turns ⟨st, false⟩) (hexec : (c.react st event).Exec τ st') :
    ∃ turns', c.Lives s₀ τ₀ turns' ⟨st', decide (CalledStop τ)⟩ := by
  obtain ⟨⟨st₁, reply⟩, hevent, rfl⟩ := Prog.exec_bind_pure.mp hexec
  obtain ⟨s₁, hstarted, hrun⟩ := hlives
  exact ⟨_, s₁, hstarted, hrun.snoc (a := ⟨event, τ, reply⟩) ⟨rfl, hevent, rfl⟩⟩

/-- The running callback goes on after an answered call. -/
theorem LivesAt.answer {s₀ : S} {w w' : Cells} {cb : Callback S M} {e : SupOp} {k : e.Ans → SupProg S} (x : e.Ans)
    (hmono : (w me.actorId).cancelled = true → (w' me.actorId).cancelled = true)
    (hstop : e = .stop → (w' me.actorId).cancelled = true) (h : LivesAt c me s₀ w (.running cb (.call e k))) :
    LivesAt c me s₀ w' (.running cb (k x)) := by
  cases cb with
  | started =>
    obtain ⟨τ, hreach⟩ := h
    exact ⟨_, hreach.answer x⟩
  | handler st event =>
    obtain ⟨τ₀, turns, τ, hlives, hreach, hcalled⟩ := h
    refine ⟨τ₀, turns, _, hlives, hreach.answer x, ?_⟩
    rintro ⟨call, hmem, hop⟩
    rcases List.mem_append.mp hmem with hmem | hmem
    · exact hmono (hcalled ⟨call, hmem, hop⟩)
    · rw [List.mem_singleton.mp hmem] at hop
      exact hstop hop
  | stopped early reason => trivial

theorem LivesAt.advance {s₀ : S} {w w' : Cells} {pc pc' : RunPc S M} (h : LivesAt c me s₀ w pc)
    (hadv : Advance c me.actorId w pc pc' w') : LivesAt c me s₀ w' pc' := by
  cases hadv with
  | started =>
    obtain ⟨τ, hreach⟩ := h
    exact ⟨τ, hreach.exec⟩
  | handled =>
    obtain ⟨τ₀, turns, τ, hlives, hreach, hstop⟩ := h
    obtain ⟨turns', hlives'⟩ := lives_handled hlives hreach.exec
    exact ⟨τ₀, turns', _, hlives', fun hs => hstop (of_decide_eq_true hs)⟩
  | serve hcancelled =>
    obtain ⟨τ, hexec⟩ := h
    exact ⟨τ, [], _, hexec, .nil⟩
  | again hcancelled =>
    obtain ⟨τ₀, turns, stopped, hlives, hstop⟩ := h
    cases stopped with
    | false => exact ⟨τ₀, turns, hlives⟩
    | true =>
      rw [hstop rfl] at hcancelled
      cases hcancelled
  | _ => trivial

theorem LivesAt.step {s₀ : S} (hwf : s.WF me) (h : LivesAt c me s₀ s.cells s.pc) (hstep : SysStep c me s a s') :
    LivesAt c me s₀ s'.cells s'.pc := by
  have hmono := hstep.cancelled hwf
  cases hstep with
  | @call cb e k x hpc he =>
    rw [hpc] at h
    refine h.answer x hmono ?_
    rintro rfl
    simp [SupOp.effect, ActorCell.stop]
  | linked hlinking hpc =>
    rw [hpc] at h
    refine h.answer _ hmono fun hstop => ?_
    cases hstop
  | advance hadv => exact h.advance hadv
  | @panic cb prog msg st hpc hlinking =>
    cases cb with
    | handler state event => cases event <;> trivial
    | _ => trivial
  | takeExit hpc hnext =>
    rw [hpc] at h
    obtain ⟨τ₀, turns, hlives⟩ := h
    exact ⟨τ₀, turns, [], hlives, .refl _, by simp [CalledStop]⟩
  | message msg hpc =>
    rw [hpc] at h
    obtain ⟨τ₀, turns, hlives⟩ := h
    exact ⟨τ₀, turns, [], hlives, .refl _, by simp [CalledStop]⟩
  | osSignal hpc => trivial
  | disconnect hpc => trivial
  | _ => exact h.mono hmono

/-- **Between two callbacks a run of the system is in a life of the supervisor.** What holds of all lives, whatever the
answers, holds of the supervisor among its children. -/
theorem lives_of_runs {w : Cells} {s₀ st : S} {hist : List (System S M × SysAct M)}
    (h : Run (SysStep c me) (System.init c me w s₀) hist s) (hpc : s.pc = .receiving st) :
    ∃ τ₀ turns, c.Lives s₀ τ₀ turns ⟨st, false⟩ := by
  have hstart : LivesAt c me s₀ (System.init c me w s₀).cells (System.init c me w s₀).pc := ⟨[], .refl _⟩
  have hinv : s.WF me ∧ LivesAt c me s₀ s.cells s.pc := by
    refine Run.inv (I := fun s => s.WF me ∧ LivesAt c me s₀ s.cells s.pc) ⟨System.wf_init c me w s₀, hstart⟩ ?_ h
    rintro s a s' ⟨hwf, hlives⟩ hstep
    exact ⟨hstep.wf hwf, hlives.step hwf hstep⟩
  rw [hpc] at hinv
  exact hinv.2

end Spawned
