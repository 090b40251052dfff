import Mathlib.Logic.Function.Basic
import Spawned.Exit
import Spawned.Lib.Calls
import Spawned.Lib.Run

/-!
# Nodes of one process

`NodeBuilder::build` fills cells of the whole process on its way: the name of the node and the router are kept by who sets
them first, the supervision broker and the hooks that publish events by who installs them last. Nothing takes them back, not
even where the build fails after that. `set_global` and the functions that install are public, but only builds call them, and
nothing else is a step here.

* `ClusterProcess` : the cells, and all builds ever begun; `ClusterProcess.next` : one step of any build, one cell at a time;
* `Build.installed` : what a build has installed, by where it stands;
* `nodes_share_name` : all nodes have the name of the process;
* `router_is_first` : the router of the process is that of the first build to come there, unless someone asked for it before;
* `slots_have_owners` : what is installed was installed by a build that came past it, and stays;
* `slots_are_latest` : where builds come one after the other, by the latest of these.

The listener and the libp2p cluster are started outside, which may fail. Features are as with `cluster-libp2p`.
-/

namespace Spawned

open Lib

inductive TransportKind
  | tcp
  | libp2p
deriving DecidableEq, Repr

inductive NodeError
  | transport
  | nameAlreadySet
  | invalidConfig (message : String)
deriving DecidableEq, Repr

/-- Addresses are strings, and of a peer only the name counts. -/
structure NodeBuilder where
  name : Option NodeId := none
  transport : TransportKind := .tcp
  listen : Option String := none
  peers : List NodeId := []
  listenLibp2p : Option String := none
  libp2pPeers : List NodeId := []
deriving DecidableEq, Repr

namespace NodeBuilder

def validate (b : NodeBuilder) : Except NodeError Unit :=
  if b.transport = .libp2p then
    if b.listen.isSome || !b.peers.isEmpty then
      .error (.invalidConfig "libp2p transport cannot be combined with TCP listen/peer options")
    else .ok ()
  else if b.listenLibp2p.isSome || !b.libp2pPeers.isEmpty then
    .error (.invalidConfig "TCP transport cannot be combined with libp2p listen/peer options")
  else .ok ()

/-- `cluster_active`, and `federated`. -/
def clusterActive (b : NodeBuilder) : Bool :=
  match b.transport with
  | .libp2p => b.listenLibp2p.isSome || !b.libp2pPeers.isEmpty
  | .tcp => b.listen.isSome || !b.peers.isEmpty

/-- There is a transport to publish through. -/
def connects (b : NodeBuilder) : Bool :=
  match b.transport with
  | .libp2p => b.listenLibp2p.isSome || !b.libp2pPeers.isEmpty
  | .tcp => !b.peers.isEmpty

end NodeBuilder

/-- A cell that a build overwrites. -/
inductive Slot
  /-- `install_supervision_broker` -/
  | broker
  /-- `registry_sync::install` -/
  | registry
  /-- `pg_sync::install` -/
  | pg
  /-- `supervision_sync::install_publish`, -/
  | publish
  /-- and `install_request` -/
  | request
deriving DecidableEq, Repr

/-- Where a build stands. -/
inductive BuildPc
  | validate
  /-- `set_local_node_for_test(name)` -/
  | setName
  /-- `local_node() != name` -/
  | checkName
  /-- `let local = local_node()` -/
  | readName
  | installBroker
  /-- the transport is made, or `Libp2pCluster::start` called -/
  | connect
  /-- these hooks are to be installed -/
  | installHooks (todo : List Slot)
  /-- `ClusterRouter::set_global(router)` -/
  | setRouter
  /-- the listener is bound, if there is one -/
  | bind
  | returned (result : Except NodeError Unit)
deriving DecidableEq

structure Build where
  builder : NodeBuilder
  pc : BuildPc := .validate
  localNode : NodeId := ""
deriving DecidableEq

/-- The cells; a router is that of a build, or the unavailable one. -/
structure ClusterProcess where
  /-- `LOCAL_NODE` -/
  localNode : Option NodeId := none
  /-- `DEFAULT_ROUTER` -/
  router : Option (Option Nat) := none
  slots : Slot → Option Nat := fun _ => none
  builds : List Build := []

inductive ClusterAct
  | build (builder : NodeBuilder)
  /-- build `i` goes on; `ok` where it depends on the outside -/
  | step (i : Nat) (ok : Bool)
  /-- someone calls `local_node()`, -/
  | localNode
  /-- or `ClusterRouter::global()` -/
  | globalRouter
deriving DecidableEq

/-- The hooks that a build with a transport installs: those of the control plane and those of supervision. -/
def hooksOf (b : NodeBuilder) : List Slot :=
  (if b.clusterActive then [.registry, .pg] else []) ++ (if b.clusterActive then [.publish, .request] else [])

namespace ClusterProcess

/-- `local_node()`, with the name from the environment or the default. -/
def named (env : NodeId) (s : ClusterProcess) : NodeId := s.localNode.getD env

def initialized (env : NodeId) (s : ClusterProcess) : ClusterProcess := { s with localNode := some (s.named env) }

def setBuild (s : ClusterProcess) (i : Nat) (b : Build) : ClusterProcess := { s with builds := s.builds.set i b }

def buildStep (env : NodeId) (s : ClusterProcess) (i : Nat) (b : Build) (ok : Bool) : Option ClusterProcess :=
  match b.pc with
  | .validate =>
    match b.builder.validate with
    | .error e => some (s.setBuild i { b with pc := .returned (.error e) })
    | .ok () => some (s.setBuild i { b with pc := if b.builder.name.isSome then .setName else .readName })
  | .setName => some ({ s with localNode := s.localNode.or b.builder.name }.setBuild i { b with pc := .checkName })
  | .checkName =>
    some ((s.initialized env).setBuild i
      { b with pc := if some (s.named env) = b.builder.name then .readName else .returned (.error .nameAlreadySet) })
  | .readName =>
    some ((s.initialized env).setBuild i
      { b with localNode := s.named env, pc := if b.builder.clusterActive then .installBroker else .connect })
  | .installBroker =>
    some ({ s with slots := Function.update s.slots .broker (some i) }.setBuild i { b with pc := .connect })
  | .connect =>
    match b.builder.transport with
    | .tcp =>
      some (s.setBuild i
        { b with pc := if b.builder.peers.isEmpty then .setRouter else .installHooks (hooksOf b.builder) })
    | .libp2p =>
      if b.builder.listenLibp2p.isNone && b.builder.libp2pPeers.isEmpty then
        some (s.setBuild i { b with
          pc := .returned (.error (.invalidConfig "libp2p node requires listen_libp2p or at least one libp2p_peer")) })
      else
        some (s.setBuild i
          { b with pc := if ok then .installHooks (hooksOf b.builder) else .returned (.error .transport) })
  | .installHooks [] => some (s.setBuild i { b with pc := .setRouter })
  | .installHooks (hook :: hooks) =>
    some ({ s with slots := Function.update s.slots hook (some i) }.setBuild i { b with pc := .installHooks hooks })
  | .setRouter => some ({ s with router := s.router.or (some (some i)) }.setBuild i { b with pc := .bind })
  | .bind =>
    some (s.setBuild i { b with
      pc := if b.builder.transport = .tcp ∧ b.builder.listen.isSome ∧ ok = false then .returned (.error .transport)
        else .returned (.ok ()) })
  | .returned _ => none

def next (env : NodeId) (s : ClusterProcess) : ClusterAct → Option ClusterProcess
  | .build builder => some { s with builds := s.builds ++ [{ builder }] }
  | .step i ok => s.builds[i]?.bind fun b => buildStep env s i b ok
  | .localNode => some (s.initialized env)
  | .globalRouter => some { s with router := s.router.or (some none) }

def Step (env : NodeId) (s : ClusterProcess) (a : ClusterAct) (s' : ClusterProcess) : Prop := s.next env a = some s'

end ClusterProcess

/-! ## What a build has done -/

/-- It is past the broker, or failed after it. -/
def BuildPc.pastBroker : BuildPc → Bool
  | .connect | .installHooks _ | .setRouter | .bind => true
  | .returned (.ok ()) | .returned (.error .transport) => true
  | _ => false

/-- It has come past this hook; a TCP build that failed did so at its listener. -/
def BuildPc.pastHook (transport : TransportKind) (hook : Slot) : BuildPc → Bool
  | .installHooks todo => !todo.contains hook
  | .setRouter | .bind | .returned (.ok ()) => true
  | .returned (.error .transport) => transport = .tcp
  | _ => false

def Build.installed (b : Build) (slot : Slot) : Bool :=
  match slot with
  | .broker => b.builder.clusterActive && b.pc.pastBroker
  | hook => b.builder.connects && b.pc.pastHook b.builder.transport hook

/-- It has read the name of the process. -/
def BuildPc.pastName : BuildPc → Bool
  | .installBroker | .connect | .installHooks _ | .setRouter | .bind => true
  | .returned (.ok ()) | .returned (.error .transport) => true
  | _ => false

/-- It is a node, or about to be one, -/
def BuildPc.pastRouter : BuildPc → Bool
  | .bind | .returned (.ok ()) => true
  | _ => false

/-- or has failed with the transport after that, as a TCP build does at its listener. -/
def BuildPc.routed (pc : BuildPc) : Bool := pc.pastRouter || pc = .returned (.error .transport)

namespace ClusterProcess

variable {env : NodeId} {s s' : ClusterProcess} {a : ClusterAct} {i : Nat} {b b' : Build} {ok : Bool}
  {τ : List (ClusterProcess × ClusterAct)}

/-- What holds of a build wherever it stands. -/
structure Valid (s : ClusterProcess) (b : Build) : Prop where
  asked : b.pc = .setName ∨ b.pc = .checkName → b.builder.name.isSome = true
  broker : b.pc = .installBroker → b.builder.clusterActive = true
  hooks : ∀ todo, b.pc = .installHooks todo → b.builder.connects = true ∧ todo <:+ [.registry, .pg, .publish, .request]
  name : b.pc = .readName → ∀ n, b.builder.name = some n → s.localNode = some n
  named : b.pc.pastName = true → s.localNode = some b.localNode ∧ ∀ n, b.builder.name = some n → b.localNode = n
  taken : b.pc = .returned (.error .nameAlreadySet) → ∃ n m, b.builder.name = some n ∧ s.localNode = some m ∧ n ≠ m
  router : b.pc.pastRouter = true → s.router ≠ none

/-- Cells that are written once keep what they have. -/
structure Kept (s s' : ClusterProcess) : Prop where
  localNode : ∀ n, s.localNode = some n → s'.localNode = some n
  router : ∀ o, s.router = some o → s'.router = some o

/-- What a step of a build does to the slots: nothing, or it takes one. -/
inductive Installs (s : ClusterProcess) (i : Nat) (b b' : Build) : ClusterProcess → Prop
  | nothing {s' : ClusterProcess} (hslots : s'.slots = s.slots) (h : ∀ slot, b'.installed slot = b.installed slot) :
      Installs s i b b' s'
  | one {s' : ClusterProcess} (slot : Slot) (hslots : s'.slots = Function.update s.slots slot (some i))
      (hnew : b'.installed slot = true) (h : ∀ slot' ≠ slot, b'.installed slot' = b.installed slot') :
      Installs s i b b' s'

theorem Kept.same (hname : s'.localNode = s.localNode) (hrouter : s'.router = s.router) : Kept s s' :=
  ⟨fun _ hn => hname.trans hn, fun _ ho => hrouter.trans ho⟩

theorem Kept.setBuild (h : Kept s s') : Kept s (s'.setBuild i b) := ⟨h.localNode, h.router⟩

theorem kept_initialized : Kept s (s.initialized env) where
  localNode n hn := by simp [initialized, named, hn]
  router _ := id

theorem Valid.kept (h : Valid s b) (hkept : Kept s s') : Valid s' b where
  asked := h.asked
  broker := h.broker
  hooks := h.hooks
  name hpc n hn := hkept.localNode n (h.name hpc n hn)
  named hpc := ⟨hkept.localNode _ (h.named hpc).1, (h.named hpc).2⟩
  taken hpc := by
    obtain ⟨n, m, hn, hm, hne⟩ := h.taken hpc
    exact ⟨n, m, hn, hkept.localNode m hm, hne⟩
  router hpc hnone := by
    obtain ⟨o, ho⟩ := Option.ne_none_iff_exists'.mp (h.router hpc)
    rw [hkept.router o ho] at hnone
    cases hnone

/-- A build that has failed by its configuration, or has not begun. -/
theorem valid_outside (s : ClusterProcess) {b : Build}
    (hpc : b.pc = .validate ∨ ∃ message, b.pc = .returned (.error (.invalidConfig message))) : Valid s b := by
  rcases hpc with hpc | ⟨message, hpc⟩
  all_goals constructor <;> simp [hpc, BuildPc.pastName, BuildPc.pastRouter]

theorem validate_error {builder : NodeBuilder} {e : NodeError} (h : builder.validate = .error e) :
    ∃ message, e = .invalidConfig message := by
  unfold NodeBuilder.validate at h
  split at h <;> split at h <;> cases h
  all_goals exact ⟨_, rfl⟩

/-- A build that goes on after its name keeps that. -/
theorem Valid.goOn (h : Valid s b) (hat : b.pc.pastName = true) (pc : BuildPc) (hpc : pc.pastName = true)
    (hbroker : pc ≠ .installBroker)
    (hhooks : ∀ todo, pc = .installHooks todo → b.builder.connects = true ∧ todo <:+ [.registry, .pg, .publish, .request])
    (hrouter : pc.pastRouter = true → s.router ≠ none) : Valid s { b with pc } where
  asked h := by rcases h with h | h <;> obtain rfl : pc = _ := h <;> cases hpc
  broker h := absurd h hbroker
  hooks := hhooks
  name h := by
    obtain rfl : pc = .readName := h
    cases hpc
  named _ := h.named hat
  taken h := by
    obtain rfl : pc = .returned (.error .nameAlreadySet) := h
    cases hpc
  router := hrouter

theorem hooksOf_eq {builder : NodeBuilder} (h : builder.connects = true) :
    hooksOf builder = [.registry, .pg, .publish, .request] := by
  have hactive : builder.clusterActive = true := by
    unfold NodeBuilder.connects at h
    unfold NodeBuilder.clusterActive
    split at h <;> simp_all
  simp [hooksOf, hactive]

/-! ## One step of a build -/

/-- What a step of a build does to the process, by what it is afterwards. -/
structure Goes (s : ClusterProcess) (i : Nat) (b : Build) (s' : ClusterProcess) (b' : Build) : Prop where
  builds : s'.builds = s.builds.set i b'
  builder : b'.builder = b.builder
  kept : Kept s s'
  valid : Valid s' b'
  installs : Installs s i b b' s'

theorem goes_validate (hpc : b.pc = .validate) (h : buildStep env s i b ok = some s') : ∃ b', Goes s i b s' b' := by
  simp only [buildStep, hpc] at h
  cases hvalidate : b.builder.validate with
  | error e =>
    simp only [hvalidate] at h
    cases h
    obtain ⟨message, rfl⟩ := validate_error hvalidate
    refine ⟨_, rfl, rfl, .same rfl rfl, valid_outside _ (Or.inr ⟨message, rfl⟩), .nothing rfl fun slot => ?_⟩
    cases slot <;> simp [Build.installed, hpc, BuildPc.pastBroker, BuildPc.pastHook]
  | ok u =>
    simp only [hvalidate] at h
    cases h
    refine ⟨_, rfl, rfl, .same rfl rfl, ?_, .nothing rfl fun slot => ?_⟩
    · cases hname : b.builder.name <;>
        constructor <;> simp [hname, BuildPc.pastName, BuildPc.pastRouter]
    · cases b.builder.name.isSome <;> cases slot <;>
        simp [Build.installed, hpc, BuildPc.pastBroker, BuildPc.pastHook]

theorem goes_setName (hv : Valid s b) (hpc : b.pc = .setName) (h : buildStep env s i b ok = some s') :
    ∃ b', Goes s i b s' b' := by
  simp only [buildStep, hpc] at h
  cases h
  refine ⟨_, rfl, rfl, ⟨fun n hn => by simp [setBuild, hn], fun _ => id⟩, ?_, .nothing rfl fun slot => ?_⟩
  · constructor <;> simp [BuildPc.pastName, BuildPc.pastRouter, hv.asked (Or.inl hpc)]
  · cases slot <;> simp [Build.installed, hpc, BuildPc.pastBroker, BuildPc.pastHook]

theorem goes_checkName (hv : Valid s b) (hpc : b.pc = .checkName) (h : buildStep env s i b ok = some s') :
    ∃ b', Goes s i b s' b' := by
  simp only [buildStep, hpc] at h
  cases h
  obtain ⟨n, hn⟩ := Option.isSome_iff_exists.mp (hv.asked (Or.inr hpc))
  refine ⟨_, rfl, rfl, kept_initialized.setBuild, ?_, .nothing rfl fun slot => ?_⟩
  · by_cases hsame : s.named env = n
    · constructor <;> simp [hn, hsame, BuildPc.pastName, BuildPc.pastRouter, setBuild, initialized]
    · constructor <;> simp [hn, hsame, Ne.symm hsame, BuildPc.pastName, BuildPc.pastRouter, setBuild, initialized]
  · split <;> cases slot <;> simp [Build.installed, hpc, BuildPc.pastBroker, BuildPc.pastHook]

theorem goes_readName (hv : Valid s b) (hpc : b.pc = .readName) (h : buildStep env s i b ok = some s') :
    ∃ b', Goes s i b s' b' := by
  simp only [buildStep, hpc] at h
  cases h
  have hname : ∀ n, b.builder.name = some n → s.named env = n := fun n hn => by simp [named, hv.name hpc n hn]
  refine ⟨_, rfl, rfl, kept_initialized.setBuild, ?_, .nothing rfl fun slot => ?_⟩
  · cases hactive : b.builder.clusterActive <;>
      constructor <;> simp [hactive, BuildPc.pastName, BuildPc.pastRouter, setBuild, initialized] <;> exact hname
  · cases hactive : b.builder.clusterActive <;> cases slot <;>
      simp [Build.installed, hpc, hactive, BuildPc.pastBroker, BuildPc.pastHook]

theorem goes_installBroker (hv : Valid s b) (hpc : b.pc = .installBroker) (h : buildStep env s i b ok = some s') :
    ∃ b', Goes s i b s' b' := by
  simp only [buildStep, hpc] at h
  cases h
  refine ⟨_, rfl, rfl, .same rfl rfl, ?_, .one .broker rfl ?_ fun slot hne => ?_⟩
  · exact (hv.goOn (by simp [hpc, BuildPc.pastName]) .connect rfl nofun nofun nofun).kept (.same rfl rfl)
  · simp [Build.installed, hv.broker hpc, BuildPc.pastBroker]
  · cases slot
    · exact absurd rfl hne
    all_goals simp [Build.installed, hpc, BuildPc.pastHook]

theorem goes_connect (hv : Valid s b) (hpc : b.pc = .connect) (h : buildStep env s i b ok = some s') :
    ∃ b', Goes s i b s' b' := by
  have hat : b.pc.pastName = true := by simp [hpc, BuildPc.pastName]
  have hhooks : ∀ todo, BuildPc.installHooks (hooksOf b.builder) = .installHooks todo → b.builder.connects = true →
      b.builder.connects = true ∧ todo <:+ [.registry, .pg, .publish, .request] := by
    rintro todo ⟨⟩ hconnects
    exact ⟨hconnects, hooksOf_eq hconnects ▸ List.suffix_rfl⟩
  simp only [buildStep, hpc] at h
  cases htransport : b.builder.transport with
  | tcp =>
    simp only [htransport] at h
    cases hpeers : b.builder.peers.isEmpty with
    | true =>
      simp only [hpeers, if_true] at h
      cases h
      refine ⟨_, rfl, rfl, .same rfl rfl, ?_, .nothing rfl fun slot => ?_⟩
      · exact (hv.goOn hat .setRouter rfl nofun nofun nofun).kept (.same rfl rfl)
      · cases slot <;>
          simp [Build.installed, hpc, NodeBuilder.connects, htransport, hpeers, BuildPc.pastBroker, BuildPc.pastHook]
    | false =>
      simp only [hpeers, Bool.false_eq_true, if_false] at h
      cases h
      have hconnects : b.builder.connects = true := by simp [NodeBuilder.connects, htransport, hpeers]
      refine ⟨_, rfl, rfl, .same rfl rfl, ?_, .nothing rfl fun slot => ?_⟩
      · exact (hv.goOn hat (.installHooks _) rfl nofun (fun todo h => hhooks todo h hconnects) nofun).kept (.same rfl rfl)
      · cases slot <;> simp [Build.installed, hpc, hooksOf_eq hconnects, BuildPc.pastBroker, BuildPc.pastHook]
  | libp2p =>
    simp only [htransport] at h
    split at h
    case isTrue hbare =>
      cases h
      refine ⟨_, rfl, rfl, .same rfl rfl, valid_outside _ (Or.inr ⟨_, rfl⟩), .nothing rfl fun slot => ?_⟩
      cases slot <;> simp_all [Build.installed, NodeBuilder.connects, NodeBuilder.clusterActive]
    case isFalse hbare =>
      have hconnects : b.builder.connects = true := by
        simp only [NodeBuilder.connects, htransport]
        cases hlisten : b.builder.listenLibp2p <;> simp_all
      cases ok with
      | true =>
        simp only [if_true] at h
        cases h
        refine ⟨_, rfl, rfl, .same rfl rfl, ?_, .nothing rfl fun slot => ?_⟩
        · exact (hv.goOn hat (.installHooks _) rfl nofun (fun todo h => hhooks todo h hconnects) nofun).kept (.same rfl rfl)
        · cases slot <;> simp [Build.installed, hpc, hooksOf_eq hconnects, BuildPc.pastBroker, BuildPc.pastHook]
      | false =>
        simp only [Bool.false_eq_true, if_false] at h
        cases h
        refine ⟨_, rfl, rfl, .same rfl rfl, ?_, .nothing rfl fun slot => ?_⟩
        · exact (hv.goOn hat (.returned (.error .transport)) rfl nofun nofun nofun).kept (.same rfl rfl)
        · cases slot <;> simp [Build.installed, hpc, htransport, BuildPc.pastBroker, BuildPc.pastHook]

theorem goes_installHooks {todo : List Slot} (hv : Valid s b) (hpc : b.pc = .installHooks todo)
    (h : buildStep env s i b ok = some s') : ∃ b', Goes s i b s' b' := by
  have hat : b.pc.pastName = true := by simp [hpc, BuildPc.pastName]
  obtain ⟨hconnects, hsuffix⟩ := hv.hooks todo hpc
  cases todo with
  | nil =>
    simp only [buildStep, hpc] at h
    cases h
    refine ⟨_, rfl, rfl, .same rfl rfl, ?_, .nothing rfl fun slot => ?_⟩
    · exact (hv.goOn hat .setRouter rfl nofun nofun nofun).kept (.same rfl rfl)
    · cases slot <;> simp [Build.installed, hpc, BuildPc.pastBroker, BuildPc.pastHook]
  | cons hook hooks =>
    simp only [buildStep, hpc] at h
    cases h
    have hmem : hook ≠ .broker := by
      rintro rfl
      simpa using hsuffix.subset List.mem_cons_self
    have hnodup : (hook :: hooks).Nodup := hsuffix.sublist.nodup (by decide)
    have hnew : hook ∉ hooks := (List.nodup_cons.mp hnodup).1
    refine ⟨_, rfl, rfl, .same rfl rfl, ?_, .one hook rfl ?_ fun slot hne => ?_⟩
    · refine (hv.goOn hat (.installHooks hooks) rfl nofun ?_ nofun).kept (.same rfl rfl)
      rintro todo ⟨⟩
      exact ⟨hconnects, (List.suffix_cons hook hooks).trans hsuffix⟩
    · cases hook
      · exact absurd rfl hmem
      all_goals simp [Build.installed, hconnects, BuildPc.pastHook, hnew]
    · cases slot <;> simp [Build.installed, hpc, BuildPc.pastBroker, BuildPc.pastHook, hne]

theorem goes_setRouter (hv : Valid s b) (hpc : b.pc = .setRouter) (h : buildStep env s i b ok = some s') :
    ∃ b', Goes s i b s' b' := by
  simp only [buildStep, hpc] at h
  cases h
  have hkept (b' : Build) : Kept s ({ s with router := s.router.or (some (some i)) }.setBuild i b') :=
    ⟨fun _ => id, fun o ho => by simp [setBuild, ho]⟩
  refine ⟨_, rfl, rfl, hkept _, ?_, .nothing rfl fun slot => ?_⟩
  · have hat : b.pc.pastName = true := by simp [hpc, BuildPc.pastName]
    exact (hv.kept (hkept _)).goOn hat .bind rfl nofun nofun fun _ => by simp [setBuild]
  · cases slot <;> simp [Build.installed, hpc, BuildPc.pastBroker, BuildPc.pastHook]

theorem goes_bind (hv : Valid s b) (hpc : b.pc = .bind) (h : buildStep env s i b ok = some s') :
    ∃ b', Goes s i b s' b' := by
  have hat : b.pc.pastName = true := by simp [hpc, BuildPc.pastName]
  simp only [buildStep, hpc] at h
  cases h
  split
  case isTrue hfailed =>
    refine ⟨_, rfl, rfl, .same rfl rfl, ?_, .nothing rfl fun slot => ?_⟩
    · exact (hv.goOn hat (.returned (.error .transport)) rfl nofun nofun nofun).kept (.same rfl rfl)
    · cases slot <;> simp [Build.installed, hpc, hfailed.1, BuildPc.pastBroker, BuildPc.pastHook]
  case isFalse =>
    refine ⟨_, rfl, rfl, .same rfl rfl, ?_, .nothing rfl fun slot => ?_⟩
    · have hrouter : s.router ≠ none := hv.router (by simp [hpc, BuildPc.pastRouter])
      exact (hv.goOn hat (.returned (.ok ())) rfl nofun nofun fun _ => hrouter).kept (.same rfl rfl)
    · cases slot <;> simp [Build.installed, hpc, BuildPc.pastBroker, BuildPc.pastHook]

theorem buildStep_goes (hv : Valid s b) (h : buildStep env s i b ok = some s') : ∃ b', Goes s i b s' b' := by
  cases hpc : b.pc with
  | validate => exact goes_validate hpc h
  | setName => exact goes_setName hv hpc h
  | checkName => exact goes_checkName hv hpc h
  | readName => exact goes_readName hv hpc h
  | installBroker => exact goes_installBroker hv hpc h
  | connect => exact goes_connect hv hpc h
  | installHooks todo => exact goes_installHooks hv hpc h
  | setRouter => exact goes_setRouter hv hpc h
  | bind => exact goes_bind hv hpc h
  | returned result => simp [buildStep, hpc] at h

/-! ## Steps and runs -/

/-- A step, by what it does to the cells and the builds. -/
inductive Moves (env : NodeId) (s : ClusterProcess) : ClusterAct → ClusterProcess → Prop
  | begun (builder : NodeBuilder) : Moves env s (.build builder) { s with builds := s.builds ++ [{ builder }] }
  | goes {i : Nat} {ok : Bool} {b b' : Build} {s' : ClusterProcess} (hi : s.builds[i]? = some b)
      (hstep : buildStep env s i b ok = some s') (hgoes : Goes s i b s' b') : Moves env s (.step i ok) s'
  | asked {a : ClusterAct} {s' : ClusterProcess} (hbuilds : s'.builds = s.builds) (hslots : s'.slots = s.slots)
      (hkept : Kept s s') (hrouter : s'.router = s.router.or (if a = .globalRouter then some none else none))
      (ha : ∀ i ok, a ≠ .step i ok) : Moves env s a s'

/-- Each build is where it may be, and what is installed was installed by a build that came past it. -/
structure Inv (s : ClusterProcess) : Prop where
  valid : ∀ (i : Nat) b, s.builds[i]? = some b → Valid s b
  owned : ∀ slot i, s.slots slot = some i → ∃ b, s.builds[i]? = some b ∧ b.installed slot = true
  empty : ∀ slot, s.slots slot = none → ∀ (i : Nat) b, s.builds[i]? = some b → b.installed slot = false
  routed : ∀ i, s.router = some (some i) → ∃ b, s.builds[i]? = some b ∧ b.pc.routed = true

theorem Inv.moves (h : Inv s) (hstep : Step env s a s') : Moves env s a s' := by
  unfold Step at hstep
  cases a with
  | build builder =>
    cases hstep
    exact .begun builder
  | step i ok =>
    obtain ⟨b, hi, hstep⟩ := Option.bind_eq_some_iff.mp hstep
    obtain ⟨b', hgoes⟩ := buildStep_goes (h.valid i b hi) hstep
    exact .goes hi hstep hgoes
  | localNode =>
    cases hstep
    exact .asked rfl rfl kept_initialized (by simp [initialized]) nofun
  | globalRouter =>
    cases hstep
    exact .asked rfl rfl ⟨fun _ => id, fun o ho => by simp [ho]⟩ rfl nofun

theorem Moves.kept (h : Moves env s a s') : Kept s s' := by
  cases h with
  | begun builder => exact .same rfl rfl
  | goes _ _ hgoes => exact hgoes.kept
  | asked _ _ hkept => exact hkept

/-- The router that a step brings, if there is none yet. -/
def claim (x : ClusterProcess × ClusterAct) : Option (Option Nat) :=
  match x.2 with
  | .globalRouter => some none
  | .step i _ => if (x.1.builds[i]?.map (·.pc)) = some .setRouter then some (some i) else none
  | _ => none

theorem router_buildStep (h : buildStep env s i b ok = some s') :
    s'.router = s.router.or (if b.pc = .setRouter then some (some i) else none) := by
  cases hpc : b.pc with
  | validate =>
    simp only [buildStep, hpc] at h
    split at h <;> cases h <;> simp [setBuild]
  | connect =>
    simp only [buildStep, hpc] at h
    split at h
    · cases h
      simp [setBuild]
    · split at h <;> cases h <;> simp [setBuild]
  | installHooks todo => cases todo <;> simp only [buildStep, hpc] at h <;> cases h <;> simp [setBuild]
  | returned result => simp [buildStep, hpc] at h
  | _ =>
    simp only [buildStep, hpc] at h
    cases h
    simp [setBuild, initialized]

theorem Moves.router (h : Moves env s a s') : s'.router = s.router.or (claim (s, a)) := by
  cases h with
  | begun builder => simp [claim]
  | goes hi hstep _ => simpa [claim, hi] using router_buildStep hstep
  | @asked a _ _ _ _ hrouter ha =>
    cases a with
    | step i ok => exact absurd rfl (ha i ok)
    | _ => simpa [claim] using hrouter

/-- A build that comes to the router, or is past it, is past it afterwards. -/
theorem Goes.routed (hgoes : Goes s i b s' b') (hi : s.builds[i]? = some b) (h : buildStep env s i b ok = some s')
    (hpc : b.pc = .setRouter ∨ b.pc.routed = true) : b'.pc.routed = true := by
  have hat {b'' : Build} (heq : s.builds.set i b'' = s.builds.set i b') : b'' = b' := by
    have hget := congrArg (fun builds => builds[i]?) heq
    have hlt := (List.getElem?_eq_some_iff.mp hi).1
    simpa [List.getElem?_set_self hlt] using hget
  have hbuilds := hgoes.builds
  rcases hpc with hpc | hpc
  · simp only [buildStep, hpc] at h
    cases h
    rw [← hat hbuilds]
    rfl
  · cases hat' : b.pc with
    | bind =>
      simp only [buildStep, hat'] at h
      cases h
      rw [← hat hbuilds]
      split <;> rfl
    | returned result => simp [buildStep, hat'] at h
    | _ => simp [BuildPc.routed, BuildPc.pastRouter, hat'] at hpc

theorem Installs.owned (h : Installs s i b b' s') {slot : Slot} {k : Nat} (hslot : s'.slots slot = some k) :
    (k = i ∧ b'.installed slot = true) ∨ (s.slots slot = some k ∧ b'.installed slot = b.installed slot) := by
  cases h with
  | nothing hslots hsame =>
    rw [hslots] at hslot
    exact Or.inr ⟨hslot, hsame slot⟩
  | one slot' hslots hnew hsame =>
    rw [hslots] at hslot
    by_cases hne : slot = slot'
    · subst hne
      rw [Function.update_self] at hslot
      cases hslot
      exact Or.inl ⟨rfl, hnew⟩
    · rw [Function.update_of_ne hne] at hslot
      exact Or.inr ⟨hslot, hsame slot hne⟩

theorem Installs.empty (h : Installs s i b b' s') {slot : Slot} (hslot : s'.slots slot = none) :
    s.slots slot = none ∧ b'.installed slot = b.installed slot := by
  cases h with
  | nothing hslots hsame => exact ⟨hslots ▸ hslot, hsame slot⟩
  | one slot' hslots hnew hsame =>
    rw [hslots] at hslot
    by_cases hne : slot = slot'
    · subst hne
      rw [Function.update_self] at hslot
      cases hslot
    · rw [Function.update_of_ne hne] at hslot
      exact ⟨hslot, hsame slot hne⟩

/-- The build that has moved, and the others. -/
theorem Goes.self (h : Goes s i b s' b') (hi : s.builds[i]? = some b) : s'.builds[i]? = some b' := by
  rw [h.builds, List.getElem?_set_self (List.getElem?_eq_some_iff.mp hi).1]

theorem Goes.others (h : Goes s i b s' b') {k : Nat} (hk : k ≠ i) : s'.builds[k]? = s.builds[k]? := by
  rw [h.builds, List.getElem?_set_ne (Ne.symm hk)]

theorem installed_begun (builder : NodeBuilder) (slot : Slot) : Build.installed { builder } slot = false := by
  cases slot <;> simp [Build.installed, BuildPc.pastBroker, BuildPc.pastHook]

theorem inv_init : Inv {} := ⟨by simp, by simp, by simp, by simp⟩

theorem Inv.begun (h : Inv s) (builder : NodeBuilder) : Inv { s with builds := s.builds ++ [{ builder }] } where
  valid k c hk := by
    rcases getElem?_snoc_cases hk with hk | ⟨-, rfl⟩
    · exact (h.valid k c hk).kept (.same rfl rfl)
    · exact valid_outside _ (Or.inl rfl)
  owned slot k hslot := by
    obtain ⟨c, hk, hc⟩ := h.owned slot k hslot
    exact ⟨c, by rw [List.getElem?_append_left (List.getElem?_eq_some_iff.mp hk).1, hk], hc⟩
  empty slot hslot k c hk := by
    rcases getElem?_snoc_cases hk with hk | ⟨-, rfl⟩
    · exact h.empty slot hslot k c hk
    · exact installed_begun builder slot
  routed k hrouter := by
    obtain ⟨c, hk, hc⟩ := h.routed k hrouter
    exact ⟨c, by rw [List.getElem?_append_left (List.getElem?_eq_some_iff.mp hk).1, hk], hc⟩

theorem Inv.goes (h : Inv s) (hi : s.builds[i]? = some b) (hstep : buildStep env s i b ok = some s')
    (hgoes : Goes s i b s' b') : Inv s' where
  valid k c hk := by
    rw [hgoes.builds] at hk
    rcases getElem?_set_cases hi hk with ⟨rfl, rfl⟩ | ⟨-, hk⟩
    · exact hgoes.valid
    · exact (h.valid k c hk).kept hgoes.kept
  owned slot k hslot := by
    rcases hgoes.installs.owned hslot with ⟨rfl, hnew⟩ | ⟨hold, hsame⟩
    · exact ⟨b', hgoes.self hi, hnew⟩
    · obtain ⟨c, hk, hc⟩ := h.owned slot k hold
      by_cases hne : k = i
      · subst hne
        obtain rfl : b = c := Option.some.inj (hi.symm.trans hk)
        exact ⟨b', hgoes.self hi, hsame.trans hc⟩
      · exact ⟨c, (hgoes.others hne).trans hk, hc⟩
  empty slot hslot k c hk := by
    obtain ⟨hold, hsame⟩ := hgoes.installs.empty hslot
    rw [hgoes.builds] at hk
    rcases getElem?_set_cases hi hk with ⟨rfl, rfl⟩ | ⟨-, hk⟩
    · exact hsame.trans (h.empty slot hold k b hi)
    · exact h.empty slot hold k c hk
  routed k hrouter := by
    rw [router_buildStep hstep] at hrouter
    have hmoved : (b.pc = .setRouter ∧ k = i) ∨ s.router = some (some k) := by
      rcases Option.or_eq_some_iff.mp hrouter with hold | ⟨-, hnew⟩
      · exact Or.inr hold
      · obtain ⟨hpc, hk⟩ := Option.ite_none_right_eq_some.mp hnew
        cases hk
        exact Or.inl ⟨hpc, rfl⟩
    rcases hmoved with ⟨hpc, rfl⟩ | hold
    · exact ⟨b', hgoes.self hi, hgoes.routed hi hstep (Or.inl hpc)⟩
    · obtain ⟨c, hk, hc⟩ := h.routed k hold
      by_cases hne : k = i
      · subst hne
        obtain rfl : b = c := Option.some.inj (hi.symm.trans hk)
        exact ⟨b', hgoes.self hi, hgoes.routed hi hstep (Or.inr hc)⟩
      · exact ⟨c, (hgoes.others hne).trans hk, hc⟩

theorem Inv.step (h : Inv s) (hstep : Step env s a s') : Inv s' := by
  have hmoves := h.moves hstep
  cases hmoves with
  | begun builder => exact h.begun builder
  | goes hi hb hgoes => exact h.goes hi hb hgoes
  | asked hbuilds hslots hkept hrouter ha =>
    refine ⟨fun k c hk => (h.valid k c (hbuilds ▸ hk)).kept hkept, fun slot k hslot => ?_, fun slot hslot k c hk => ?_,
      fun k hr => ?_⟩
    · rw [hbuilds]
      exact h.owned slot k (hslots ▸ hslot)
    · exact h.empty slot (hslots ▸ hslot) k c (hbuilds ▸ hk)
    · rw [hrouter] at hr
      rw [hbuilds]
      rcases Option.or_eq_some_iff.mp hr with hold | ⟨-, hnew⟩
      · exact h.routed k hold
      · split at hnew <;> cases hnew

theorem inv_run (h : Run (Step env) {} τ s) : Inv s := h.inv inv_init fun _ _ _ hinv hstep => hinv.step hstep

theorem kept_run {σ : List (ClusterProcess × ClusterAct)} (hinv : Inv s) (h : Run (Step env) s σ s') :
    Inv s' ∧ Kept s s' := by
  refine h.inv (I := fun u => Inv u ∧ Kept s u) ⟨hinv, .same rfl rfl⟩ fun u a u' hu hstep => ⟨hu.1.step hstep, ?_⟩
  have hkept := (hu.1.moves hstep).kept
  exact ⟨fun n hn => hkept.localNode n (hu.2.localNode n hn), fun o ho => hkept.router o (hu.2.router o ho)⟩

/-- A node has the name of its process, which is the one its builder asked for if it asked for one; so all nodes of a
process have one name, and keep it. A build that finds another name has set nothing. -/
theorem nodes_share_name (h : Run (Step env) {} τ s) (hi : s.builds[i]? = some b) :
    (b.pc = .returned (.ok ()) → s.localNode = some b.localNode ∧ (∀ n, b.builder.name = some n → b.localNode = n) ∧
      ∀ σ s', Run (Step env) s σ s' → s'.localNode = some b.localNode) ∧
      (b.pc = .returned (.error .nameAlreadySet) →
        (∃ n m, b.builder.name = some n ∧ s.localNode = some m ∧ n ≠ m) ∧ s.router ≠ some (some i) ∧
          ∀ slot, s.slots slot ≠ some i) := by
  have hinv := inv_run h
  have hvalid := hinv.valid i b hi
  refine ⟨fun hpc => ?_, fun hpc => ⟨hvalid.taken hpc, fun hrouter => ?_, fun slot hslot => ?_⟩⟩
  · have hnamed := hvalid.named (by simp [hpc, BuildPc.pastName])
    exact ⟨hnamed.1, hnamed.2, fun σ s' hrun => (kept_run hinv hrun).2.localNode _ hnamed.1⟩
  · obtain ⟨c, hc, hrouted⟩ := hinv.routed i hrouter
    obtain rfl : b = c := Option.some.inj (hi.symm.trans hc)
    simp [hpc, BuildPc.routed, BuildPc.pastRouter] at hrouted
  · obtain ⟨c, hc, hinstalled⟩ := hinv.owned slot i hslot
    obtain rfl : b = c := Option.some.inj (hi.symm.trans hc)
    cases slot <;> simp [hpc, Build.installed, BuildPc.pastBroker, BuildPc.pastHook] at hinstalled

/-- The router of the process is that of the first build that came to set it, or none can connect if someone asked for the
router before; it stays, and every node that is built finds one. -/
theorem router_is_first (h : Run (Step env) {} τ s) :
    s.router = τ.findSome? claim ∧ (∀ σ s' o, Run (Step env) s σ s' → s.router = some o → s'.router = some o) ∧
      ∀ (i : Nat) b, s.builds[i]? = some b → b.pc = .returned (.ok ()) → s.router ≠ none := by
  have hinv := inv_run h
  refine ⟨?_, fun σ s' o hrun ho => (kept_run hinv hrun).2.router o ho, fun i b hi hpc => ?_⟩
  · refine (h.inv_history (I := fun τ s => Inv s ∧ s.router = τ.findSome? claim) ⟨inv_init, rfl⟩ ?_).2
    intro τ s a s' hboth hstep
    refine ⟨hboth.1.step hstep, ?_⟩
    rw [(hboth.1.moves hstep).router, hboth.2, List.findSome?_append]
    simp
  · exact (hinv.valid i b hi).router (by simp [hpc, BuildPc.pastRouter])

/-- Whatever the order of the steps, a hook and the broker are those of a build that came past it, and missing only where
none did. -/
theorem slots_have_owners (h : Run (Step env) {} τ s) (slot : Slot) :
    (s.slots slot = none ↔ ∀ (i : Nat) b, s.builds[i]? = some b → b.installed slot = false) ∧
      ∀ i, s.slots slot = some i → ∃ b, s.builds[i]? = some b ∧ b.installed slot = true := by
  have hinv := inv_run h
  refine ⟨⟨hinv.empty slot, fun hnone => ?_⟩, hinv.owned slot⟩
  cases hslot : s.slots slot with
  | none => rfl
  | some i =>
    obtain ⟨b, hi, hb⟩ := hinv.owned slot i hslot
    rw [hnone i b hi] at hb
    cases hb

/-- The build that goes on is the one begun last. -/
def inTurn (x : ClusterProcess × ClusterAct) : Bool :=
  match x.2 with
  | .step i _ => i + 1 = x.1.builds.length
  | _ => true

/-- No build after the owner has installed the slot. -/
def Latest (s : ClusterProcess) : Prop :=
  ∀ slot i, s.slots slot = some i → ∀ (j : Nat) b, i < j → s.builds[j]? = some b → b.installed slot = false

theorem Latest.step (hinv : Inv s) (h : Latest s) (hturn : inTurn (s, a) = true) (hstep : Step env s a s') : Latest s' := by
  intro slot k hslot j c hkj hj
  have hmoves := hinv.moves hstep
  cases hmoves with
  | begun builder =>
    rcases getElem?_snoc_cases hj with hj | ⟨-, rfl⟩
    · exact h slot k hslot j c hkj hj
    · exact installed_begun builder slot
  | @goes i ok b b' s' hi hb hgoes =>
    have hlast : i + 1 = s.builds.length := of_decide_eq_true hturn
    rw [hgoes.builds] at hj
    have hlt := (List.getElem?_eq_some_iff.mp hj).1
    rw [List.length_set] at hlt
    rcases hgoes.installs.owned hslot with ⟨rfl, -⟩ | ⟨hold, hsame⟩
    · omega
    · rcases getElem?_set_cases hi hj with ⟨rfl, rfl⟩ | ⟨-, hj⟩
      · exact hsame.trans (h slot k hold j b hkj hi)
      · exact h slot k hold j c hkj hj
  | asked hbuilds hslots hkept hrouter ha => exact h slot k (hslots ▸ hslot) j c hkj (hbuilds ▸ hj)

/-- Where builds come one after the other, what is installed is that of the latest build that came past it; the four hooks
are those of the latest node that connects. -/
theorem slots_are_latest (h : Run (Step env) {} τ s) (hturn : ∀ x ∈ τ, inTurn x = true) :
    (∀ slot i, s.slots slot = some i ↔ (∃ b, s.builds[i]? = some b ∧ b.installed slot = true) ∧
      ∀ (j : Nat) b, i < j → s.builds[j]? = some b → b.installed slot = false) ∧
      ∀ (i : Nat) b, s.builds[i]? = some b → b.pc = .returned (.ok ()) → b.builder.connects = true →
        (∀ (j : Nat) c, i < j → s.builds[j]? = some c → c.builder.connects = false) →
          ∀ slot, slot ≠ .broker → s.slots slot = some i := by
  have hinv := inv_run h
  have hlatest : Latest s := by
    refine (h.inv_of_steps (P := fun s a => inTurn (s, a) = true) (I := fun s => Inv s ∧ Latest s)
      ⟨inv_init, nofun⟩ ?_ hturn).2
    intro s a s' hboth hin hstep
    exact ⟨hboth.1.step hstep, hboth.2.step hboth.1 hin hstep⟩
  have howner : ∀ slot (i : Nat), s.slots slot = some i ↔ (∃ b, s.builds[i]? = some b ∧ b.installed slot = true) ∧
      ∀ (j : Nat) b, i < j → s.builds[j]? = some b → b.installed slot = false := by
    refine fun slot i => ⟨fun hslot => ⟨hinv.owned slot i hslot, hlatest slot i hslot⟩, ?_⟩
    rintro ⟨⟨b, hi, hb⟩, hlater⟩
    cases hslot : s.slots slot with
    | none =>
      rw [hinv.empty slot hslot i b hi] at hb
      cases hb
    | some k =>
      obtain ⟨c, hk, hc⟩ := hinv.owned slot k hslot
      rcases Nat.lt_trichotomy k i with hlt | rfl | hlt
      · rw [hlatest slot k hslot i b hlt hi] at hb
        cases hb
      · rfl
      · rw [hlater k c hlt hk] at hc
        cases hc
  refine ⟨howner, fun i b hi hpc hconnects hothers slot hslot => ?_⟩
  refine (howner slot i).mpr ⟨⟨b, hi, ?_⟩, fun j c hj hc => ?_⟩
  · cases slot
    · exact absurd rfl hslot
    all_goals simp [Build.installed, hconnects, hpc, BuildPc.pastHook]
  · have hbare := hothers j c hj hc
    cases slot
    · exact absurd rfl hslot
    all_goals simp [Build.installed, hbare]

/-! ## Two builds in one process -/

/-- A node with a peer, -/
def first : NodeBuilder := { name := some "a@host", peers := ["b@host"] }

/-- and one that asks for another name, or for none. -/
def second : NodeBuilder := { name := some "c@host", listen := some "127.0.0.1:0" }

def third : NodeBuilder := { listen := some "127.0.0.1:0", peers := ["d@host"] }

def steps (i : Nat) (ok : Bool) (n : Nat) : List ClusterAct := List.replicate n (.step i ok)

/-- The first node is built, the second finds its name, and the listener of the third does not come up. -/
def threeBuilds : List ClusterAct :=
  [.build first] ++ steps 0 true 13 ++ [.build second] ++ steps 1 true 3 ++ [.build third] ++ steps 2 false 11

/-- The name that was asked for second. -/
def taken : Build := { builder := second, pc := .returned (.error .nameAlreadySet) }

theorem nodes_share_name_of_three :
    ∃ τ s b, Run (Step "env@host") {} τ s ∧ s.builds[0]? = some b ∧ s.localNode = some b.localNode ∧
      s.builds[1]? = some taken ∧ s.router ≠ some (some 1) := by
  have hrun := run_tryPlay (next "env@host") {} threeBuilds (by decide)
  refine ⟨_, _, ⟨first, .returned (.ok ()), "a@host"⟩, hrun, by decide, ?_, by decide, ?_⟩
  · exact ((nodes_share_name (i := 0) hrun (by decide)).1 rfl).1
  · exact ((nodes_share_name (i := 1) (b := taken) hrun (by decide)).2 rfl).2.1

theorem router_is_first_of_three :
    ∃ τ s, Run (Step "env@host") {} τ s ∧ s.router = τ.findSome? claim ∧ s.router = some (some 0) := by
  have hrun := run_tryPlay (next "env@host") {} threeBuilds (by decide)
  exact ⟨_, _, hrun, (router_is_first hrun).1, by decide⟩

/-- Where two nodes are built at once, the hooks of one may stand beside those of the other. -/
theorem slots_have_owners_of_mixed :
    ∃ τ s, Run (Step "env@host") {} τ s ∧ s.slots .registry = some 1 ∧ s.slots .pg = some 0 ∧
      ∃ b, s.builds[0]? = some b ∧ b.installed .pg = true := by
  have hrun := run_tryPlay (next "env@host") {}
    ([.build third, .build third] ++ steps 0 true 5 ++ steps 1 true 6 ++ steps 0 true 6 ++ steps 1 true 5) (by decide)
  exact ⟨_, _, hrun, by decide, by decide, (slots_have_owners hrun .pg).2 0 (by decide)⟩

/-- The build that fails at its listener has taken the hooks over. -/
theorem slots_are_latest_of_three :
    ∃ τ s, Run (Step "env@host") {} τ s ∧ s.slots .pg = some 2 ∧
      (s.builds.map (·.pc))[2]? = some (.returned (.error .transport)) ∧
        ∃ b, s.builds[2]? = some b ∧ b.installed .pg = true := by
  have hrun := run_tryPlay (next "env@host") {} threeBuilds (by decide)
  exact ⟨_, _, hrun, by decide, by decide, (((slots_are_latest hrun (by decide)).1 .pg 2).mp (by decide)).1⟩

end ClusterProcess

end Spawned
