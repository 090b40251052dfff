import Spawned.Cluster.Broker
import Spawned.Link.Once

/-!
# The exit of a remotely spawned child

A child spawned for a remote parent is linked to the broker of its node, and the broker answers its `Exit` by a
`ChildExit` to the parent it finds in its table. The thread in `apply_spawn` records the parent only after `spawn_local`
has started and linked the child, so the child may die, and the broker look up its parent, before it is there.

* `RemoteChild.next` : the thread in `apply_spawn`, the exit of the child and the broker's actor, one access at a time;
* `RemoteChild.Stage` : what the broker's tables and the published envelopes say at each point of the broker;
* `RemoteChild.reported_once_iff` : the exact condition.
-/

namespace Spawned

open Lib

/-- A linked spawn about to be applied: the race of `link_handles(broker, child)` with the exit of the child, the
broker's tables, and the request. -/
structure RemoteChild where
  race : Race
  tables : SupervisionBrokerInner
  correlationId : Nat
  parent : ActorAddress
  /-- the remote addresses the child has linked itself to when it exits -/
  remoteLinks : List ActorAddress
  here_eq : tables.localNode = race.here
  /-- a linked spawn is refused until the broker's actor has started -/
  ready : tables.brokerHandle = some ⟨race.owner⟩
  /-- the child is a new actor, with an id no table mentions -/
  unlinked : race.owner ∉ (race.cells race.target).links
  handles_none : tables.handles race.target = none
  parents_none : tables.parents race.target = none
  /-- the lane of the broker receives the signals of local links only -/
  lane_local : ∀ exit ∈ (race.cells race.owner).lane, exit.from.node = race.here

namespace RemoteChild

/-- Where `apply_spawn` is; `linking` is `spawn_local`. -/
inductive SpawnPc
  | linking
  | register
  | insertParent
  | answered (reply : Except TransportError SupervisionEnvelope)

/-- Where the broker's actor is: waiting for an `Exit`, or in `propagate_child_exit`. -/
inductive BrokerPc
  | idle
  | lookup (exit : Exit)
  | removeHandle (exit : Exit) (parent : ActorAddress)
  | removeParent (exit : Exit) (parent : ActorAddress)
  | insertExited (exit : Exit) (parent : ActorAddress)
  | publish (exit : Exit) (parent : ActorAddress)
deriving DecidableEq

structure State where
  race : Race.State
  tables : SupervisionBrokerInner
  spawn : SpawnPc
  broker : BrokerPc
  /-- how many `Exit`s the broker has taken off its lane -/
  taken : Nat
  published : List SupervisionEnvelope

/-- Who takes the next step. -/
inductive Party
  | spawner
  | child
  | broker
deriving DecidableEq, Repr

variable (m : RemoteChild)

/-- The child's id, and its address. -/
abbrev child : ActorId := m.race.target

abbrev address : ActorAddress := ⟨m.race.here, m.child⟩

/-- The one `ChildExit` the parent is to get. -/
def report : SupervisionEnvelope := childExitEnvelope m.address m.parent m.race.reason

/-- What the broker has received so far. -/
def lane (s : State) : List Exit := (s.race.cells m.race.owner).lane

def init : State where
  race := m.race.init
  tables := m.tables
  spawn := .linking
  broker := .idle
  taken := 0
  published := []

def spawnStep (s : State) : State :=
  match s.spawn with
  | .linking =>
    if s.race.link = .done then { s with spawn := .register } else { s with race := m.race.next s.race .linker }
  | .register =>
    match s.tables.register ⟨s.tables.localNode, m.child⟩ ⟨m.child⟩ with
    | .ok tables => { s with tables := tables, spawn := .insertParent }
    | .error err => { s with spawn := .answered (.error err) }
  | .insertParent =>
    { s with
      tables := s.tables.insertParent m.child m.parent
      spawn := .answered (.ok ⟨m.correlationId, .spawnOk ⟨s.tables.localNode, m.child⟩⟩) }
  | .answered _ => s

/-- The exit sequence of the child; its remote links are published before its completion value is set. -/
def childStep (s : State) : State :=
  { s with
    race := m.race.next s.race .target
    published := s.published ++
      if s.race.exit = .remoteLinks then m.remoteLinks.map (childExitEnvelope m.address · m.race.reason) else [] }

def brokerStep (s : State) : State :=
  match s.broker with
  | .idle =>
    match (m.lane s)[s.taken]? with
    | some exit => { s with broker := .lookup exit, taken := s.taken + 1 }
    | none => s
  | .lookup exit =>
    match s.tables.parents exit.from.actorId with
    | some parent => { s with broker := .removeHandle exit parent }
    | none => { s with broker := .idle }
  | .removeHandle exit parent =>
    { s with tables := s.tables.removeHandle exit.from.actorId, broker := .removeParent exit parent }
  | .removeParent exit parent =>
    { s with tables := s.tables.removeParent exit.from.actorId, broker := .insertExited exit parent }
  | .insertExited exit parent =>
    { s with tables := s.tables.insertExited exit.from.actorId exit.reason, broker := .publish exit parent }
  | .publish exit parent =>
    { s with
      published := s.published ++ [childExitEnvelope ⟨s.tables.localNode, exit.from.actorId⟩ parent exit.reason]
      broker := .idle }

def next (s : State) : Party → State
  | .spawner => m.spawnStep s
  | .child => m.childStep s
  | .broker => m.brokerStep s

/-- Any interleaving of the three parties' steps. -/
abbrev Runs : List (State × Party) → State → Prop := Run (fun s p s' => s' = m.next s p) m.init

/-! ## The race inside -/

/-- The step of the race that a step of the three parties is, if it is one. -/
def raceEntry : State × Party → Option (Race.State × Race.Party)
  | (s, .spawner) =>
    match s.spawn with
    | .linking => some (s.race, .linker)
    | _ => none
  | (s, .child) => some (s.race, .target)
  | (_, .broker) => none

/-- The history of the race of the link with the child's exit. -/
def raceHistory (τ : List (State × Party)) : List (Race.State × Race.Party) := τ.filterMap raceEntry

theorem raceHistory_snoc (τ : List (State × Party)) (x : State × Party) :
    raceHistory (τ ++ [x]) = raceHistory τ ++ (raceEntry x).toList := by
  cases h : raceEntry x with
  | none => simp [raceHistory, h]
  | some entry => simp [raceHistory, h]

/-- `register` accepts the child under its own address. -/
theorem spawnStep_register {m : RemoteChild} {s : State} (hs : s.spawn = .register) :
    m.spawnStep s = { s with
      tables := { s.tables with handles := s.tables.handles.insert m.child ⟨m.child⟩ }
      spawn := .insertParent } := by
  have hown : s.tables.register ⟨s.tables.localNode, m.child⟩ ⟨m.child⟩ =
      .ok { s.tables with handles := s.tables.handles.insert m.child ⟨m.child⟩ } :=
    s.tables.register_own ⟨m.child⟩
  simp only [spawnStep, hs, hown]

/-- The broker does not touch the cells of the race. -/
theorem brokerStep_race {m : RemoteChild} (s : State) : (m.brokerStep s).race = s.race := by
  unfold brokerStep
  split
  · split <;> rfl
  · split <;> rfl
  · rfl
  · rfl
  · rfl
  · rfl

/-- The other two parties take the race's own steps. -/
theorem run_race {m : RemoteChild} {τ : List (State × Party)} {s : State} (h : m.Runs τ s) :
    m.race.Runs (raceHistory τ) s.race := by
  induction h with
  | nil => exact Run.nil
  | @snoc τ s p s' _ hstep ih =>
    subst hstep
    rw [raceHistory_snoc]
    cases p with
    | spawner =>
      cases hs : s.spawn with
      | linking =>
        have hentry : (raceEntry (s, .spawner)).toList = [(s.race, .linker)] := by simp [raceEntry, hs]
        rw [hentry]
        refine ih.snoc ?_
        by_cases hdone : s.race.link = .done
        · -- `link_handles` has returned, and another step of it changes nothing
          simp only [next, spawnStep, hs, hdone, if_true, Race.next, linkStep]
          rw [← hdone]
        · simp only [next, spawnStep, hs, hdone, if_false]
      | register =>
        have hentry : (raceEntry (s, .spawner)).toList = [] := by simp [raceEntry, hs]
        rw [hentry, List.append_nil, next, spawnStep_register hs]
        exact ih
      | insertParent =>
        have hentry : (raceEntry (s, .spawner)).toList = [] := by simp [raceEntry, hs]
        rw [hentry, List.append_nil]
        simpa only [next, spawnStep, hs] using ih
      | answered reply =>
        have hentry : (raceEntry (s, .spawner)).toList = [] := by simp [raceEntry, hs]
        rw [hentry, List.append_nil]
        simpa only [next, spawnStep, hs] using ih
    | child => exact ih.snoc rfl
    | broker =>
      rw [next, brokerStep_race]
      simpa [raceEntry] using ih

/-! ## What the broker does with the child's `Exit` -/

/-- `register` has run. -/
def SpawnPc.registered : SpawnPc → Bool
  | .linking | .register => false
  | .insertParent | .answered _ => true

/-- The parent of the child is recorded. -/
def SpawnPc.recorded : SpawnPc → Bool
  | .answered _ => true
  | _ => false

/-- The child has published to its remote links. -/
def linksPublished : ExitPc → Bool
  | .removeActor | .complete | .done => true
  | _ => false

/-- The broker looked up the parent of the child before it was recorded. -/
def EarlyLookup (τ : List (State × Party)) : Prop :=
  ∃ x ∈ τ, x.2 = .broker ∧ x.1.spawn.recorded = false ∧
    ∃ exit, x.1.broker = .lookup exit ∧ exit.from.actorId = m.child

theorem earlyLookup_snoc {m : RemoteChild} {τ : List (State × Party)} {s : State} {p : Party} :
    m.EarlyLookup (τ ++ [(s, p)]) ↔ m.EarlyLookup τ ∨
      (p = .broker ∧ s.spawn.recorded = false ∧ ∃ exit, s.broker = .lookup exit ∧ exit.from.actorId = m.child) :=
  exists_mem_snoc

/-- How many `Exit`s of the child the broker has taken. -/
def seen (s : State) : Nat := ((m.lane s).take s.taken).countP (fun exit => exit.from.actorId == m.child)

/-- The broker has published `k` reports, besides what the child itself has sent. -/
def Reported (k : Nat) (s : State) : Prop :=
  s.published.count m.report = k + if linksPublished s.race.exit then m.remoteLinks.count m.parent else 0

/-- The tables say what `apply_spawn` has written so far. -/
def Follows (s : State) : Prop :=
  s.tables.handles m.child = (if s.spawn.registered then some ⟨m.child⟩ else none) ∧
    s.tables.parents m.child = if s.spawn.recorded then some m.parent else none

/-- The tables no longer mention the child. -/
def Forgotten (s : State) : Prop := s.tables.handles m.child = none ∧ s.tables.parents m.child = none

/-- The broker has not met the child's `Exit`, has dropped it, or has reported it. -/
def Away (early : Prop) (s : State) : Prop :=
  (m.seen s = 0 ∧ ¬early ∧ m.Follows s ∧ m.Reported 0 s) ∨ (m.seen s = 1 ∧ early ∧ m.Follows s ∧ m.Reported 0 s) ∨
    (m.seen s = 1 ∧ ¬early ∧ s.spawn.recorded ∧ m.Forgotten s ∧ m.Reported 1 s)

/-- The broker is in `propagate_child_exit` for the child: up to the last step nothing is published, and what is removed
from the tables stays removed. -/
def Handling (s : State) : BrokerPc → Prop
  | .idle => False
  | .lookup exit => exit.reason = m.race.reason ∧ m.Follows s
  | .removeHandle exit parent => exit.reason = m.race.reason ∧ parent = m.parent ∧ s.spawn.recorded
  | .removeParent exit parent => exit.reason = m.race.reason ∧ parent = m.parent ∧ s.spawn.recorded ∧
      s.tables.handles m.child = none
  | .insertExited exit parent | .publish exit parent =>
      exit.reason = m.race.reason ∧ parent = m.parent ∧ s.spawn.recorded ∧ m.Forgotten s

/-- The `Exit` in hand. -/
def BrokerPc.exit : BrokerPc → Option Exit
  | .idle => none
  | .lookup exit | .removeHandle exit _ | .removeParent exit _ | .insertExited exit _ | .publish exit _ => some exit

/-- The broker has the child's `Exit` in hand. -/
def Mine (pc : BrokerPc) : Prop := ∃ exit, pc.exit = some exit ∧ exit.from.actorId = m.child

theorem mine_some {m : RemoteChild} {pc : BrokerPc} {exit : Exit} (h : pc.exit = some exit) :
    m.Mine pc ↔ exit.from.actorId = m.child := by
  simp [Mine, h]

/-- What holds at each point of the broker. -/
structure Stage (early : Prop) (s : State) (pc : BrokerPc) : Prop where
  handling : m.Mine pc → m.seen s = 1 ∧ ¬early ∧ m.Reported 0 s ∧ m.Handling s pc
  away : ¬m.Mine pc → m.Away early s

structure Inv (τ : List (State × Party)) (s : State) : Prop where
  localNode : s.tables.localNode = m.race.here
  ready : s.tables.brokerHandle = some ⟨m.race.owner⟩
  linked : s.spawn = .linking ∨ s.race.link = .done
  taken : s.taken ≤ (m.lane s).length
  laneLocal : ∀ exit ∈ m.lane s, exit.from.node = m.race.here
  stage : m.Stage (m.EarlyLookup τ) s s.broker

section Steps

variable {m : RemoteChild} {τ : List (State × Party)} {s s' : State} {early : Prop}

/-- A step that takes no `Exit`, keeps the count of reports and writes to the tables only what `Follows` says. -/
structure Keeps (m : RemoteChild) (s s' : State) : Prop where
  seen : m.seen s' = m.seen s
  reported : ∀ k, m.Reported k s → m.Reported k s'
  follows : m.Follows s → m.Follows s'
  recorded : s.spawn.recorded → s'.spawn.recorded ∧ s'.tables.handles m.child = s.tables.handles m.child ∧
    s'.tables.parents m.child = s.tables.parents m.child

theorem Keeps.forgotten (h : m.Keeps s s') (hr : s.spawn.recorded) (hf : m.Forgotten s) : m.Forgotten s' :=
  ⟨(h.recorded hr).2.1.trans hf.1, (h.recorded hr).2.2.trans hf.2⟩

theorem Away.keep (h : m.Away early s) (hk : m.Keeps s s') : m.Away early s' := by
  rcases h with ⟨hseen, hearly, hf, hr⟩ | ⟨hseen, hearly, hf, hr⟩ | ⟨hseen, hearly, hrec, hgone, hr⟩
  · exact Or.inl ⟨hk.seen.trans hseen, hearly, hk.follows hf, hk.reported 0 hr⟩
  · exact Or.inr (Or.inl ⟨hk.seen.trans hseen, hearly, hk.follows hf, hk.reported 0 hr⟩)
  · exact Or.inr (Or.inr ⟨hk.seen.trans hseen, hearly, (hk.recorded hrec).1, hk.forgotten hrec hgone, hk.reported 1 hr⟩)

theorem Handling.keep {pc : BrokerPc} (h : m.Handling s pc) (hk : m.Keeps s s') : m.Handling s' pc := by
  cases pc with
  | idle => exact h
  | lookup exit => exact ⟨h.1, hk.follows h.2⟩
  | removeHandle exit parent => exact ⟨h.1, h.2.1, (hk.recorded h.2.2).1⟩
  | removeParent exit parent =>
    obtain ⟨hreason, hparent, hrec, hnone⟩ := h
    exact ⟨hreason, hparent, (hk.recorded hrec).1, (hk.recorded hrec).2.1.trans hnone⟩
  | insertExited exit parent =>
    obtain ⟨hreason, hparent, hrec, hgone⟩ := h
    exact ⟨hreason, hparent, (hk.recorded hrec).1, hk.forgotten hrec hgone⟩
  | publish exit parent =>
    obtain ⟨hreason, hparent, hrec, hgone⟩ := h
    exact ⟨hreason, hparent, (hk.recorded hrec).1, hk.forgotten hrec hgone⟩

theorem Stage.keep {pc : BrokerPc} (h : m.Stage early s pc) (hk : m.Keeps s s') : m.Stage early s' pc := by
  refine ⟨fun hmine => ?_, fun hother => (h.away hother).keep hk⟩
  obtain ⟨hseen, hearly, hr, hh⟩ := h.handling hmine
  exact ⟨hk.seen.trans hseen, hearly, hk.reported 0 hr, hh.keep hk⟩

/-- The lane grows behind what the broker has taken. -/
theorem seen_of_grow (htaken : s'.taken = s.taken) (hle : s.taken ≤ (m.lane s).length)
    (hgrow : LanesGrow m.race.here s.race.cells s'.race.cells) : m.seen s' = m.seen s := by
  obtain ⟨exits, hlane, -⟩ := hgrow m.race.owner
  have hlane' : m.lane s' = m.lane s ++ exits := hlane
  rw [seen, seen, htaken, hlane', List.take_append_of_le_length hle]

/-- The race may add to the lane, and only local `Exit`s. -/
theorem Inv.grow (h : m.Inv τ s) (htaken : s'.taken = s.taken)
    (hgrow : LanesGrow m.race.here s.race.cells s'.race.cells) :
    s'.taken ≤ (m.lane s').length ∧ ∀ exit ∈ m.lane s', exit.from.node = m.race.here := by
  obtain ⟨exits, hlane, hlocal⟩ := hgrow m.race.owner
  have hlane' : m.lane s' = m.lane s ++ exits := hlane
  rw [htaken, hlane']
  refine ⟨le_trans h.taken (by simp), fun exit hmem => ?_⟩
  rcases List.mem_append.mp hmem with hmem | hmem
  · exact h.laneLocal exit hmem
  · exact hlocal exit hmem

/-- A step of `apply_spawn` or of the child, which the broker does not notice. -/
theorem Inv.keep {p : Party} (h : m.Inv τ s) (hp : p ≠ .broker) (hbroker : s'.broker = s.broker)
    (htaken : s'.taken = s.taken) (hnode : s'.tables.localNode = s.tables.localNode)
    (hready : s'.tables.brokerHandle = s.tables.brokerHandle)
    (hlinked : s'.spawn = .linking ∨ s'.race.link = .done)
    (hgrow : LanesGrow m.race.here s.race.cells s'.race.cells)
    (hreported : ∀ k, m.Reported k s → m.Reported k s') (hfollows : m.Follows s → m.Follows s')
    (hrecorded : s.spawn.recorded → s'.spawn.recorded ∧ s'.tables.handles m.child = s.tables.handles m.child ∧
      s'.tables.parents m.child = s.tables.parents m.child) : m.Inv (τ ++ [(s, p)]) s' := by
  obtain ⟨htaken', hlocal'⟩ := h.grow htaken hgrow
  refine ⟨hnode.trans h.localNode, hready.trans h.ready, hlinked, htaken', hlocal', ?_⟩
  have hearly : m.EarlyLookup (τ ++ [(s, p)]) = m.EarlyLookup τ := by simp [earlyLookup_snoc, hp]
  rw [hearly, hbroker]
  exact h.stage.keep ⟨seen_of_grow htaken h.taken hgrow, hreported, hfollows, hrecorded⟩

theorem Inv.spawnStep (h : m.Inv τ s) : m.Inv (τ ++ [(s, .spawner)]) (m.spawnStep s) := by
  cases hs : s.spawn with
  | linking =>
    by_cases hdone : s.race.link = .done
    · have hstep : m.spawnStep s = { s with spawn := .register } := by
        simp only [RemoteChild.spawnStep, hs, hdone, if_true]
      rw [hstep]
      refine h.keep nofun rfl rfl rfl rfl (Or.inr hdone) (LanesGrow.refl _ _) (fun _ hr => hr) (fun hf => ?_) ?_
      · simpa [Follows, hs, SpawnPc.registered, SpawnPc.recorded] using hf
      · simp [hs, SpawnPc.recorded]
    · have hstep : m.spawnStep s = { s with race := m.race.next s.race .linker } := by
        simp only [RemoteChild.spawnStep, hs, hdone, if_false]
      rw [hstep]
      exact h.keep nofun rfl rfl rfl rfl (Or.inl hs) (m.race.lanesGrow_next s.race .linker) (fun _ hr => hr) (fun hf => hf)
        fun hr => ⟨hr, rfl, rfl⟩
  | register =>
    have hdone : s.race.link = .done := h.linked.resolve_left (by simp [hs])
    rw [spawnStep_register hs]
    refine h.keep nofun rfl rfl rfl rfl (Or.inr hdone) (LanesGrow.refl _ _) (fun _ hr => hr) (fun hf => ?_) ?_
    · simpa [Follows, hs, SpawnPc.registered, SpawnPc.recorded] using hf.2
    · simp [hs, SpawnPc.recorded]
  | insertParent =>
    have hdone : s.race.link = .done := h.linked.resolve_left (by simp [hs])
    refine h.keep nofun ?_ ?_ ?_ ?_ ?_ ?_ ?_ ?_ ?_ <;> simp only [RemoteChild.spawnStep, hs]
    · rfl
    · rfl
    · exact Or.inr hdone
    · exact LanesGrow.refl _ _
    · exact fun _ hr => hr
    · intro hf
      simpa [Follows, hs, SpawnPc.registered, SpawnPc.recorded, SupervisionBrokerInner.insertParent] using hf.1
    · simp [SpawnPc.recorded]
  | answered reply =>
    have hstep : m.spawnStep s = s := by simp only [RemoteChild.spawnStep, hs]
    rw [hstep]
    exact h.keep nofun rfl rfl rfl rfl h.linked (LanesGrow.refl _ _) (fun _ hr => hr) (fun hf => hf)
      fun hr => ⟨hr, rfl, rfl⟩

/-- The child's own publications are counted as its remote links have it. -/
theorem count_report_remoteLinks :
    (m.remoteLinks.map (childExitEnvelope m.address · m.race.reason)).count m.report = m.remoteLinks.count m.parent := by
  have hinj : Function.Injective (childExitEnvelope m.address · m.race.reason) := by
    intro a b hab
    simpa [childExitEnvelope] using hab
  exact List.count_map_of_injective m.remoteLinks _ hinj m.parent

/-- The step at which the exit sequence of the child comes to publish. -/
theorem linksPublished_exitStep (here : NodeId) (own : ActorId) (reason : ExitReason) (w : Cells) (pc : ExitPc) :
    linksPublished (exitStep here own reason w pc).1 = (linksPublished pc || decide (pc = .remoteLinks)) := by
  cases pc with
  | dropSelf entries => cases entries <;> rfl
  | _ => rfl

theorem Inv.childStep (h : m.Inv τ s) : m.Inv (τ ++ [(s, .child)]) (m.childStep s) := by
  refine h.keep nofun rfl rfl rfl rfl h.linked (m.race.lanesGrow_next s.race .target) ?_ (fun hf => hf)
    fun hr => ⟨hr, rfl, rfl⟩
  intro k hr
  have hpub : linksPublished (m.childStep s).race.exit =
    (linksPublished s.race.exit || decide (s.race.exit = .remoteLinks)) :=
    linksPublished_exitStep m.race.here m.race.target m.race.reason s.race.cells s.race.exit
  unfold Reported at hr ⊢
  rw [hpub]
  by_cases hlinks : s.race.exit = .remoteLinks
  · simp only [RemoteChild.childStep, hlinks, if_true, List.count_append, hr, count_report_remoteLinks]
    simp [linksPublished]
  · simpa [RemoteChild.childStep, hlinks] using hr

/-- All the `Exit`s of the child in the lane are the one its exit sent, and there is at most one. -/
theorem Inv.lane_child (h : m.Inv τ s) (hrun : m.race.Inv (raceHistory τ) s.race) :
    (m.lane s).countP (fun exit => exit.from.actorId == m.child) = (m.race.received s.race).length ∧
      (m.race.received s.race).length ≤ 1 ∧
      ∀ exit ∈ m.lane s, exit.from.actorId = m.child → exit.reason = m.race.reason := by
  have hbefore : m.race.before = 0 := List.count_eq_zero_of_not_mem m.unlinked
  obtain ⟨n, hn, hreceived⟩ := hrun.received_le
  have hfrom : ∀ exit ∈ m.lane s, exit.from.actorId = m.child ↔ exit.from = m.address := by
    intro exit hmem
    obtain ⟨⟨node, id⟩, reason⟩ := exit
    obtain rfl : node = m.race.here := h.laneLocal _ hmem
    simp
  refine ⟨?_, ?_, ?_⟩
  · rw [List.countP_eq_length_filter, Race.received, exitsFrom]
    congr 1
    refine List.filter_congr fun exit hmem => ?_
    rw [Bool.eq_iff_iff, beq_iff_eq, beq_iff_eq]
    exact hfrom exit hmem
  · rw [hreceived, List.length_replicate]
    omega
  · intro exit hmem hid
    have hin : exit ∈ m.race.received s.race :=
      List.mem_filter.mpr ⟨hmem, beq_iff_eq.mpr ((hfrom exit hmem).mp hid)⟩
    rw [hreceived] at hin
    exact (List.eq_of_mem_replicate hin) ▸ rfl

/-- The broker takes the next `Exit`. -/
theorem Inv.take (h : m.Inv τ s) (hrun : m.race.Inv (raceHistory τ) s.race) (hidle : s.broker = .idle) {exit : Exit}
    (hnext : (m.lane s)[s.taken]? = some exit) :
    m.Stage (m.EarlyLookup τ) { s with broker := .lookup exit, taken := s.taken + 1 } (.lookup exit) := by
  have haway := h.stage.away (by simp [Mine, hidle, BrokerPc.exit])
  obtain ⟨hcount, hle, hreason⟩ := h.lane_child hrun
  have hmem : exit ∈ m.lane s := List.mem_of_getElem? hnext
  have htake : m.seen { s with broker := .lookup exit, taken := s.taken + 1 } =
      m.seen s + if exit.from.actorId = m.child then 1 else 0 := by
    show ((m.lane s).take (s.taken + 1)).countP _ = _
    rw [List.take_add_one, hnext, List.countP_append]
    simp [seen, List.countP_cons]
  refine ⟨fun hmine => ?_, fun hother => ?_⟩
  · have hid : exit.from.actorId = m.child := (mine_some rfl).mp hmine
    have htotal : m.seen { s with broker := .lookup exit, taken := s.taken + 1 } ≤ 1 := by
      refine le_trans (List.Sublist.countP_le (List.take_sublist _ _)) ?_
      exact hcount.le.trans hle
    rw [htake, if_pos hid] at htotal ⊢
    rcases haway with ⟨hseen, hearly, hf, hr⟩ | ⟨hseen, -⟩ | ⟨hseen, -⟩
    · exact ⟨by rw [hseen], hearly, hr, hreason exit hmem hid, hf⟩
    · omega
    · omega
  · have hid : exit.from.actorId ≠ m.child := fun hid => hother ((mine_some rfl).mpr hid)
    refine haway.keep ⟨?_, fun _ hr => hr, fun hf => hf, fun hr => ⟨hr, rfl, rfl⟩⟩
    rw [htake, if_neg hid, Nat.add_zero]

/-- A step of the broker, from what holds at the point it comes to. -/
theorem Inv.of_stage (h : m.Inv τ s) (hrace : s'.race = s.race) (hspawn : s'.spawn = s.spawn)
    (hnode : s'.tables.localNode = s.tables.localNode) (hready : s'.tables.brokerHandle = s.tables.brokerHandle)
    (htaken : s'.taken ≤ (m.lane s).length)
    (hstage : m.Stage (m.EarlyLookup (τ ++ [(s, .broker)])) s' s'.broker) : m.Inv (τ ++ [(s, .broker)]) s' := by
  have hlane : m.lane s' = m.lane s := by rw [lane, lane, hrace]
  refine ⟨hnode.trans h.localNode, hready.trans h.ready, ?_, ?_, ?_, hstage⟩
  · rw [hspawn, hrace]
    exact h.linked
  · rw [hlane]
    exact htaken
  · rw [hlane]
    exact h.laneLocal

theorem brokerStep_removeHandle {exit : Exit} {parent : ActorAddress} (hs : s.broker = .removeHandle exit parent) :
    m.brokerStep s = { s with
      tables := s.tables.removeHandle exit.from.actorId, broker := .removeParent exit parent } := by
  simp only [brokerStep, hs]

theorem brokerStep_removeParent {exit : Exit} {parent : ActorAddress} (hs : s.broker = .removeParent exit parent) :
    m.brokerStep s = { s with
      tables := s.tables.removeParent exit.from.actorId, broker := .insertExited exit parent } := by
  simp only [brokerStep, hs]

theorem brokerStep_insertExited {exit : Exit} {parent : ActorAddress} (hs : s.broker = .insertExited exit parent) :
    m.brokerStep s = { s with
      tables := s.tables.insertExited exit.from.actorId exit.reason, broker := .publish exit parent } := by
  simp only [brokerStep, hs]

theorem brokerStep_publish {exit : Exit} {parent : ActorAddress} (hs : s.broker = .publish exit parent) :
    m.brokerStep s = { s with
      published := s.published ++ [childExitEnvelope ⟨s.tables.localNode, exit.from.actorId⟩ parent exit.reason]
      broker := .idle } := by
  simp only [brokerStep, hs]

/-- The entries of the child, and its reports, stay as they are. -/
theorem Keeps.of_entries (hrace : s'.race = s.race) (hspawn : s'.spawn = s.spawn) (htaken : s'.taken = s.taken)
    (hhandles : s'.tables.handles m.child = s.tables.handles m.child)
    (hparents : s'.tables.parents m.child = s.tables.parents m.child)
    (hcount : s'.published.count m.report = s.published.count m.report) : m.Keeps s s' := by
  refine ⟨by simp only [RemoteChild.seen, lane, hrace, htaken], ?_, ?_, ?_⟩
  · intro k hr
    rw [Reported, hcount, hrace]
    exact hr
  · intro hf
    rw [Follows, hhandles, hparents, hspawn]
    exact hf
  · rw [hspawn]
    exact fun hr => ⟨hr, hhandles, hparents⟩

/-- The broker goes on with an `Exit` of another actor. -/
theorem brokerStep_other {exit : Exit} (hpc : s.broker.exit = some exit) (hid : exit.from.actorId ≠ m.child) :
    (m.brokerStep s).spawn = s.spawn ∧ (m.brokerStep s).tables.localNode = s.tables.localNode ∧
      (m.brokerStep s).tables.brokerHandle = s.tables.brokerHandle ∧ (m.brokerStep s).taken = s.taken ∧
        ¬m.Mine (m.brokerStep s).broker ∧ m.Keeps s (m.brokerStep s) := by
  cases hs : s.broker with
  | idle => simp [hs, BrokerPc.exit] at hpc
  | lookup exit' =>
    obtain rfl : exit' = exit := by simpa [hs, BrokerPc.exit] using hpc
    cases hparent : s.tables.parents exit'.from.actorId with
    | some parent =>
      have hstep : m.brokerStep s = { s with broker := .removeHandle exit' parent } := by
        simp only [brokerStep, hs, hparent]
      rw [hstep]
      exact ⟨rfl, rfl, rfl, rfl, by simpa [Mine, BrokerPc.exit] using hid, Keeps.of_entries rfl rfl rfl rfl rfl rfl⟩
    | none =>
      have hstep : m.brokerStep s = { s with broker := .idle } := by simp only [brokerStep, hs, hparent]
      rw [hstep]
      exact ⟨rfl, rfl, rfl, rfl, by simp [Mine, BrokerPc.exit], Keeps.of_entries rfl rfl rfl rfl rfl rfl⟩
  | removeHandle exit' parent =>
    obtain rfl : exit' = exit := by simpa [hs, BrokerPc.exit] using hpc
    rw [brokerStep_removeHandle hs]
    refine ⟨rfl, rfl, rfl, rfl, by simpa [Mine, BrokerPc.exit] using hid, Keeps.of_entries rfl rfl rfl ?_ rfl rfl⟩
    exact Table.remove_ne _ hid.symm
  | removeParent exit' parent =>
    obtain rfl : exit' = exit := by simpa [hs, BrokerPc.exit] using hpc
    rw [brokerStep_removeParent hs]
    refine ⟨rfl, rfl, rfl, rfl, by simpa [Mine, BrokerPc.exit] using hid, Keeps.of_entries rfl rfl rfl rfl ?_ rfl⟩
    exact Table.remove_ne _ hid.symm
  | insertExited exit' parent =>
    obtain rfl : exit' = exit := by simpa [hs, BrokerPc.exit] using hpc
    rw [brokerStep_insertExited hs]
    exact ⟨rfl, rfl, rfl, rfl, by simpa [Mine, BrokerPc.exit] using hid, Keeps.of_entries rfl rfl rfl rfl rfl rfl⟩
  | publish exit' parent =>
    obtain rfl : exit' = exit := by simpa [hs, BrokerPc.exit] using hpc
    rw [brokerStep_publish hs]
    refine ⟨rfl, rfl, rfl, rfl, by simp [Mine, BrokerPc.exit], Keeps.of_entries rfl rfl rfl rfl rfl ?_⟩
    have hne : childExitEnvelope ⟨s.tables.localNode, exit'.from.actorId⟩ parent exit'.reason ≠ m.report := by
      simp [report, childExitEnvelope, hid]
    show (s.published ++ [_]).count m.report = _
    rw [List.count_append, List.count_singleton, beq_false_of_ne hne]
    rfl

theorem Inv.brokerStep_other (h : m.Inv τ s) {exit : Exit} (hpc : s.broker.exit = some exit)
    (hid : exit.from.actorId ≠ m.child) : m.Inv (τ ++ [(s, .broker)]) (m.brokerStep s) := by
  obtain ⟨hspawn, hnode, hready, htaken, hother, hk⟩ := RemoteChild.brokerStep_other hpc hid
  have haway := h.stage.away (by simpa [mine_some hpc] using hid)
  have hearly : m.EarlyLookup (τ ++ [(s, .broker)]) = m.EarlyLookup τ := by
    have hnot : ¬∃ exit', s.broker = .lookup exit' ∧ exit'.from.actorId = m.child := by
      rintro ⟨exit', hlookup, hid'⟩
      rw [hlookup] at hpc
      exact hid (Option.some.inj hpc ▸ hid')
    simp [earlyLookup_snoc, hnot]
  refine h.of_stage (brokerStep_race s) hspawn hnode hready (htaken ▸ h.taken) ?_
  exact hearly ▸ ⟨fun hmine => absurd hmine hother, fun _ => haway.keep hk⟩

/-- The broker goes on with the child's `Exit`, from the lookup of its parent to the report. -/
theorem Inv.brokerStep_mine (h : m.Inv τ s) {exit : Exit} (hpc : s.broker.exit = some exit)
    (hid : exit.from.actorId = m.child) : m.Inv (τ ++ [(s, .broker)]) (m.brokerStep s) := by
  obtain ⟨hseen, hearly, hr, hh⟩ := h.stage.handling ((mine_some hpc).mpr hid)
  have hearly' : s.spawn.recorded → ¬m.EarlyLookup (τ ++ [(s, .broker)]) := by
    intro hrec
    simpa [earlyLookup_snoc, hrec] using hearly
  cases hs : s.broker with
  | idle => simp [hs, BrokerPc.exit] at hpc
  | lookup exit' =>
    obtain rfl : exit' = exit := by simpa [hs, BrokerPc.exit] using hpc
    rw [hs] at hh
    obtain ⟨hreason, hf⟩ := hh
    have hparents := hf.2
    rw [← hid] at hparents
    cases hrec : s.spawn.recorded with
    | true =>
      rw [hrec, if_pos rfl] at hparents
      have hstep : m.brokerStep s = { s with broker := .removeHandle exit' m.parent } := by
        simp only [brokerStep, hs, hparents]
      rw [hstep]
      refine h.of_stage rfl rfl rfl rfl h.taken ⟨fun _ => ?_, fun hother => absurd ((mine_some rfl).mpr hid) hother⟩
      exact ⟨hseen, hearly' hrec, hr, hreason, rfl, hrec⟩
    | false =>
      -- the broker drops the `Exit`, and the entries to come will stay
      rw [hrec, if_neg Bool.false_ne_true] at hparents
      have hstep : m.brokerStep s = { s with broker := .idle } := by
        simp only [brokerStep, hs, hparents]
      rw [hstep]
      refine h.of_stage rfl rfl rfl rfl h.taken ⟨fun hmine => ?_, fun _ => Or.inr (Or.inl ⟨hseen, ?_, hf, hr⟩)⟩
      · simp [Mine, BrokerPc.exit] at hmine
      · exact earlyLookup_snoc.mpr (Or.inr ⟨rfl, hrec, exit', hs, hid⟩)
  | removeHandle exit' parent =>
    obtain rfl : exit' = exit := by simpa [hs, BrokerPc.exit] using hpc
    rw [hs] at hh
    obtain ⟨hreason, hparent, hrec⟩ := hh
    rw [brokerStep_removeHandle hs]
    refine h.of_stage rfl rfl rfl rfl h.taken ⟨fun _ => ?_, fun hother => absurd ((mine_some rfl).mpr hid) hother⟩
    refine ⟨hseen, hearly' hrec, hr, hreason, hparent, hrec, ?_⟩
    simp [SupervisionBrokerInner.removeHandle, hid]
  | removeParent exit' parent =>
    obtain rfl : exit' = exit := by simpa [hs, BrokerPc.exit] using hpc
    rw [hs] at hh
    obtain ⟨hreason, hparent, hrec, hnone⟩ := hh
    rw [brokerStep_removeParent hs]
    refine h.of_stage rfl rfl rfl rfl h.taken ⟨fun _ => ?_, fun hother => absurd ((mine_some rfl).mpr hid) hother⟩
    refine ⟨hseen, hearly' hrec, hr, hreason, hparent, hrec, hnone, ?_⟩
    simp [SupervisionBrokerInner.removeParent, hid]
  | insertExited exit' parent =>
    obtain rfl : exit' = exit := by simpa [hs, BrokerPc.exit] using hpc
    rw [hs] at hh
    obtain ⟨hreason, hparent, hrec, hgone⟩ := hh
    rw [brokerStep_insertExited hs]
    refine h.of_stage rfl rfl rfl rfl h.taken ⟨fun _ => ?_, fun hother => absurd ((mine_some rfl).mpr hid) hother⟩
    exact ⟨hseen, hearly' hrec, hr, hreason, hparent, hrec, hgone⟩
  | publish exit' parent =>
    obtain rfl : exit' = exit := by simpa [hs, BrokerPc.exit] using hpc
    rw [hs] at hh
    obtain ⟨hreason, hparent, hrec, hgone⟩ := hh
    have hreport : childExitEnvelope ⟨s.tables.localNode, exit'.from.actorId⟩ parent exit'.reason = m.report := by
      rw [h.localNode, hid, hparent, hreason, report]
    rw [brokerStep_publish hs, hreport]
    refine h.of_stage rfl rfl rfl rfl h.taken ⟨fun hmine => ?_, fun _ => Or.inr (Or.inr ?_)⟩
    · simp [Mine, BrokerPc.exit] at hmine
    · refine ⟨hseen, hearly' hrec, hrec, hgone, ?_⟩
      unfold Reported at hr
      show (s.published ++ [m.report]).count m.report =
        1 + if linksPublished s.race.exit then m.remoteLinks.count m.parent else 0
      rw [List.count_append, List.count_singleton_self, hr]
      omega

theorem Inv.brokerStep (h : m.Inv τ s) (hrun : m.race.Inv (raceHistory τ) s.race) :
    m.Inv (τ ++ [(s, .broker)]) (m.brokerStep s) := by
  cases hexit : s.broker.exit with
  | some exit =>
    by_cases hid : exit.from.actorId = m.child
    · exact h.brokerStep_mine hexit hid
    · exact h.brokerStep_other hexit hid
  | none =>
    have hidle : s.broker = .idle := by
      cases hs : s.broker <;> simp [hs, BrokerPc.exit] at hexit
      rfl
    have hearly : m.EarlyLookup (τ ++ [(s, .broker)]) = m.EarlyLookup τ := by simp [earlyLookup_snoc, hidle]
    cases hnext : (m.lane s)[s.taken]? with
    | none =>
      have hstep : m.brokerStep s = s := by simp only [RemoteChild.brokerStep, hidle, hnext]
      rw [hstep]
      exact h.of_stage rfl rfl rfl rfl h.taken (hearly ▸ h.stage)
    | some exit =>
      have hstep : m.brokerStep s = { s with broker := .lookup exit, taken := s.taken + 1 } := by
        simp only [RemoteChild.brokerStep, hidle, hnext]
      rw [hstep]
      refine h.of_stage rfl rfl rfl rfl ?_ (hearly ▸ h.take hrun hidle hnext)
      exact (List.getElem?_eq_some_iff.mp hnext).1

end Steps

theorem inv_init (m : RemoteChild) : m.Inv [] m.init := by
  refine ⟨m.here_eq, m.ready, Or.inl rfl, Nat.zero_le _, m.lane_local, ?_, fun _ => Or.inl ⟨?_, ?_, ⟨?_, ?_⟩, ?_⟩⟩
  · simp [init, Mine, BrokerPc.exit]
  · simp [seen, init]
  · simp [EarlyLookup]
  · exact m.handles_none
  · exact m.parents_none
  · simp [Reported, init, Race.init, linksPublished]

theorem inv_run {m : RemoteChild} {τ : List (State × Party)} {s : State} (h : m.Runs τ s) : m.Inv τ s := by
  induction h with
  | nil => exact inv_init m
  | @snoc τ s p s' hr hstep ih =>
    subst hstep
    cases p with
    | spawner => exact ih.spawnStep
    | child => exact ih.childStep
    | broker => exact ih.brokerStep (Race.inv_run (run_race hr))

/-! ## When the exit is reported exactly once -/

/-- Once `spawn_local` has returned, the two remaining steps, taken alone, are the rest of `apply_spawn`. -/
theorem applySpawn_of_runs {m : RemoteChild} {τ : List (State × Party)} {s : State} (h : m.Runs τ s)
    (hs : s.spawn = .register) (spec : RemoteSpawnSpec) :
    ∃ reply, (m.spawnStep (m.spawnStep s)).spawn = .answered reply ∧
      (s.tables.applySpawn m.correlationId m.parent m.race.here spec true).Exec
        [⟨.spawnLocal spec true (some ⟨m.race.owner⟩), .ok ⟨m.child⟩⟩] ((m.spawnStep (m.spawnStep s)).tables, reply) := by
  have hinv := inv_run h
  rw [spawnStep_register hs, ← hinv.localNode, ← hinv.ready]
  refine ⟨.ok ⟨m.correlationId, .spawnOk ⟨s.tables.localNode, m.child⟩⟩, rfl, ?_⟩
  exact s.tables.applySpawn_spawned m.correlationId m.parent spec (fun _ => by simp [hinv.ready]) ⟨m.child⟩

/-- **When the exit of a remotely spawned child is reported exactly once.** The parent was answered `SpawnOk`, the child
has exited and the broker has handled its lane. One `ChildExit` has been published and the broker's tables are free of
the child if and only if the link was made in time for its exit or saw that it was over, the broker did not look up the
parent before it was recorded, and the child had not linked itself to the parent. -/
theorem reported_once_iff (m : RemoteChild) (τ : List (State × Party)) (s : State) (h : m.Runs τ s)
    (hanswered : s.spawn = .answered (.ok ⟨m.correlationId, .spawnOk m.address⟩)) (hexit : s.race.exit = .done)
    (hbroker : s.broker = .idle) (hlane : s.taken = (m.lane s).length) :
    (s.published.count m.report = 1 ∧ s.tables.handles m.child = none ∧ s.tables.parents m.child = none) ↔
      (Race.PushedInTime (raceHistory τ) ∨ Race.ReadAfterCompletion (raceHistory τ)) ∧ ¬m.EarlyLookup τ ∧
        m.parent ∉ m.remoteLinks := by
  have hinv := inv_run h
  have hrace := run_race h
  have hlink : s.race.link = .done := hinv.linked.resolve_left (by simp [hanswered])
  -- the lane holds the child's `Exit` exactly when the link was made in time or saw the completion
  have hdelivered : m.seen s = 1 ↔
      Race.PushedInTime (raceHistory τ) ∨ Race.ReadAfterCompletion (raceHistory τ) := by
    have honce := Race.delivered_once_iff m.race _ _ hrace hlink hexit
    have hfresh : ¬m.race.LinkedBefore := m.unlinked
    obtain ⟨n, -, hn⟩ := (Race.inv_run hrace).received_le
    have hseen : m.seen s = n := by
      rw [seen, hlane, List.take_length, (hinv.lane_child (Race.inv_run hrace)).1, hn, List.length_replicate]
    simp only [hfresh, not_false_eq_true, iff_true] at honce
    rw [← honce, hn, hseen, Race.replicate_eq_singleton]
  have hstays : m.Follows s → s.tables.handles m.child ≠ none := by
    intro hf hnone
    simp [Follows, hanswered, SpawnPc.registered, hnone] at hf
  have haway := hinv.stage.away (by simp [hbroker, Mine, BrokerPc.exit])
  rw [← hdelivered]
  rcases haway with ⟨hseen, hearly, hf, hr⟩ | ⟨hseen, hearly, hf, hr⟩ | ⟨hseen, hearly, -, hgone, hr⟩
  · simp [hstays hf, hseen]
  · simp [hstays hf, hearly]
  · simp only [Reported, hexit, linksPublished, if_true] at hr
    rw [hr]
    simp only [hgone.1, hgone.2, hseen, hearly, not_false_eq_true, true_and, and_true, Nat.add_eq_left,
      List.count_eq_zero]

/-- Child 2 of the remote supervisor 9, spawned and linked by broker 1. -/
def fresh : RemoteChild where
  race := Race.fresh
  tables := { localNode := "spawned@localhost", brokerHandle := some ⟨1⟩ }
  correlationId := 1
  parent := ⟨"home@localhost", 9⟩
  remoteLinks := []
  here_eq := rfl
  ready := rfl
  unlinked := by decide
  handles_none := rfl
  parents_none := rfl
  lane_local := by decide

theorem runs_play (m : RemoteChild) (parties : List Party) :
    m.Runs (play m.next m.init parties).1 (play m.next m.init parties).2 := run_play ..

/-- The child outlives `apply_spawn`. -/
theorem reported_once_fresh :
    let s := (play fresh.next fresh.init
      (List.replicate 6 Party.spawner ++ List.replicate 7 Party.child ++ List.replicate 6 Party.broker)).2
    s.published.count fresh.report = 1 ∧ s.tables.handles 2 = none ∧ s.tables.parents 2 = none := by
  refine (reported_once_iff fresh _ _ (fresh.runs_play _) rfl (by decide) (by decide) (by decide)).mpr ⟨?_, ?_, ?_⟩
  · exact Or.inl ⟨_, List.mem_of_getElem? (i := 1) rfl, rfl, rfl, rfl⟩
  · rintro ⟨x, hx, hp, hrec, -⟩
    have hrecorded : ∀ x ∈ (play fresh.next fresh.init
        (List.replicate 6 Party.spawner ++ List.replicate 7 Party.child ++ List.replicate 6 Party.broker)).1,
        x.2 = .broker → x.1.spawn.recorded = true := by decide
    rw [hrecorded x hx hp] at hrec
    cases hrec
  · decide

/-- **A lost `ChildExit`.** The child is linked and dies, the broker finds no parent for it and drops its `Exit`, and only
then does `apply_spawn` register the child, record its parent and answer `SpawnOk`. -/
theorem exit_before_parent_recorded :
    ¬∀ (m : RemoteChild) (τ : List (State × Party)) (s : State), m.Runs τ s →
      s.spawn = .answered (.ok ⟨m.correlationId, .spawnOk m.address⟩) → s.race.exit = .done → s.broker = .idle →
      s.taken = (m.lane s).length →
      s.published.count m.report = 1 ∧ s.tables.handles m.child = none ∧ s.tables.parents m.child = none := by
  intro h
  have hrun := fresh.runs_play
    (List.replicate 3 Party.spawner ++ List.replicate 7 Party.child ++ List.replicate 2 Party.broker ++
      List.replicate 3 Party.spawner)
  exact absurd (h fresh _ _ hrun rfl (by decide) (by decide) (by decide)).1 (by decide)

end RemoteChild

end Spawned
