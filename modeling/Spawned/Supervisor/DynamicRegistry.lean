import Spawned.Registry
import Spawned.Supervisor.DynamicService

/-!
# The registry names of a dynamic supervisor

A supervisor and the registry it shares with all other parties. `start_child` registers the new actor's handle under the
name it was given, `cleanup_child` gives the name up, and a restart does not touch the registry.

* `NamedStep`, `NamedLives` : the supervisor's turns, with the registry calls of all parties during each;
* `Ledger` : `reg_names` are the names the supervisor holds, one for each named child;
* `names_follow_iff` : every name leads to its child's current actor exactly when no named child is restarted; a name
  is given up with its child.
-/

namespace Spawned

open Lib Registry

namespace DynamicSupervisor

variable {ctx : Context} {s s' : DynamicSupervisor} {r r' : Registry} {effs : List Effect}

/-- The supervisor and the registry. -/
structure Named where
  serving : Serving DynamicSupervisor
  registry : Registry

/-- A turn, and what happened in the registry during it. -/
structure NamedTurn where
  turn : Turn DynMsg DynReply
  log : List (Registry × RegMove)

/-- The supervisor's calls are its own moves; the moves of others come in between. -/
def NamedStep (c : Callbacks DynamicSupervisor DynMsg DynReply) (x : Named) (a : NamedTurn) (y : Named) : Prop :=
  c.Handles x.serving a.turn y.serving ∧ Run Registry.Step x.registry a.log y.registry ∧
    owned a.log = effects a.turn.calls

/-- A life beside a registry in which others may have registered anything before. -/
def NamedLives (rt : Runtime) (ctx : Context) (b : DynamicSupervisorBuilder) (τ₀ : SupTrace)
    (hist : List (Named × NamedTurn)) (y : Named) : Prop :=
  ∃ s store, ((rt.dynamicSupervisor ctx).started b.build).Exec τ₀ s ∧
    Run (NamedStep (rt.dynamicSupervisor ctx)) ⟨⟨s, false⟩, ⟨store, Table.empty⟩⟩ hist y

/-- Every name leads to its child's current actor. -/
def Follows (x : Named) : Prop :=
  ∀ name childId, x.serving.state.regNames.lookup name = some childId →
    ∃ handle, x.serving.state.handles childId = some handle ∧ x.registry.store.whereis name = some handle

/-- The name of a child that is registered no more is vacant, unless another party has registered it in this turn. -/
def Frees (x : Named) (a : NamedTurn) (y : Named) : Prop :=
  ∀ name childId, x.serving.state.regNames.lookup name = some childId →
    childId ∉ allChildIds y.serving.state.logic.children → (∀ z ∈ a.log, ∀ value, z.2 ≠ .register name value) →
    y.registry.store name = none

/-- The turn restarts a child that holds a name. -/
def RestartsNamed (x : Named × NamedTurn) : Prop :=
  ∃ exit now childId name, x.2.turn.event = .exit exit ∧ Effect.read now ∈ effects x.2.turn.calls ∧
    (x.1.serving.state.logic.onChildExit exit.from.actorId exit.reason now).1 = .restartOne childId ∧
    x.1.serving.state.regNames.lookup name = some childId

/-! ## The ledger -/

/-- `reg_names` are the held names, and each named child has one name and a handle. -/
structure Ledger (s : DynamicSupervisor) (r : Registry) : Prop where
  sound : r.Sound
  keys : ∀ name, s.regNames.lookup name ≠ none ↔ r.held name ≠ none
  one : ∀ name name' id, s.regNames.lookup name = some id → s.regNames.lookup name' = some id → name = name'
  known : ∀ name id, s.regNames.lookup name = some id → s.handles id ≠ none

/-- The held handles are those of the current actors. -/
def Current (s : DynamicSupervisor) (r : Registry) : Prop :=
  ∀ name id, s.regNames.lookup name = some id → r.held name = s.handles id

theorem Ledger.follows_iff {stopped : Bool} (h : Ledger s r) : Follows ⟨⟨s, stopped⟩, r⟩ ↔ Current s r := by
  constructor
  · intro hf name id hname
    obtain ⟨handle, hh, hwhere⟩ := hf name id hname
    obtain ⟨held, hheld⟩ := Option.ne_none_iff_exists'.mp ((h.keys name).mp (by simp [hname]))
    rw [h.sound.whereis hheld] at hwhere
    rw [hheld, hwhere]
    exact hh.symm
  · intro hc name id hname
    obtain ⟨handle, hh⟩ := Option.ne_none_iff_exists'.mp (h.known name id hname)
    exact ⟨handle, hh, h.sound.whereis ((hc name id hname).trans hh)⟩

theorem lookup_insert (names : AList fun _ : String => String) (name name' id : String) :
    (names.insert name id).lookup name' = if name' = name then some id else names.lookup name' := by
  split_ifs with h
  · rw [h, AList.lookup_insert]
  · exact AList.lookup_insert_ne h

theorem nameOf_none {childId : String} (h : s.nameOf childId = none) (name : String) :
    s.regNames.lookup name ≠ some childId := by
  intro hname
  have hmem := AList.mem_lookup_iff.mp hname
  have hall := List.find?_eq_none.mp (Option.map_eq_none_iff.mp h) _ hmem
  simp at hall

/-- What a turn that restarts no local child does to the names. -/
inductive NameStep (s : DynamicSupervisor) (effs : List Effect) (s' : DynamicSupervisor) : Prop
  /-- no name and no named child changes -/
  | quiet (hn : s'.regNames = s.regNames) (he : ∀ held, heldAfter held effs = held)
      (hh : ∀ name id, s.regNames.lookup name = some id → s'.handles id = s.handles id)
  | named {name id : String} {handle : ChildHandle} (hfresh : ∀ name, s.regNames.lookup name ≠ some id)
      (hn : s'.regNames = s.regNames.insert name id) (he : ∀ held, heldAfter held effs = held.insert name handle)
      (hid : s'.handles id = some handle) (hh : ∀ id', id' ≠ id → s'.handles id' = s.handles id')
  | cleaned {id : String} (before : List Effect) (hn : s'.regNames = (s.cleaned id).regNames)
      (heffs : effs = before ++ s.unnaming id) (he : ∀ held, heldAfter held before = held)
      (hh : s'.handles = s.handles.remove id)

/-- A new actor takes the place of a child's actor, and no name changes. -/
structure Renews (s : DynamicSupervisor) (effs : List Effect) (s' : DynamicSupervisor) (id : String)
    (handle : ChildHandle) : Prop where
  names : s'.regNames = s.regNames
  started : Effect.started handle ∈ effs
  held : ∀ held, heldAfter held effs = held
  handles : s'.handles = s.handles.insert id handle

theorem nameStep_message (hi : Indexed s) (hk : ∀ name id, s.regNames.lookup name = some id → s.handles id ≠ none)
    {msg : DynMsg} {reply : Option DynReply} (hstep : DynStep ctx s (.message msg) reply effs s') :
    NameStep s effs s' := by
  have hnext : ∀ template, s.handles (s.nextId template) = none := fun template => by
    by_contra hne
    exact hi.fresh template (Or.inr (Or.inl hne))
  have hfresh : ∀ template name, s.regNames.lookup name ≠ some (s.nextId template) :=
    fun template name hname => hk _ _ hname (hnext template)
  cases hstep with
  | idle | drawn | spawned | released | stuck => exact .quiet rfl (fun _ => rfl) fun _ _ _ => rfl
  | @added spec handle =>
    refine .quiet rfl (fun _ => rfl) fun name id hname => Table.insert_ne _ _ ?_
    rintro rfl
    exact hfresh spec.id name hname
  | @named spec name handle =>
    exact .named (hfresh spec.id) rfl (fun _ => rfl) (Table.insert_self _ _ _) fun id' hne => Table.insert_ne _ _ hne
  | @unnamed spec name msg handle =>
    refine .cleaned [.started handle, .refused name] rfl rfl (fun _ => rfl) ?_
    show (s.handles.insert (s.nextId spec.id) handle).remove (s.nextId spec.id) = s.handles.remove (s.nextId spec.id)
    simp [Table.insert, Table.remove]
  | terminated =>
    rw [hi.removed_cleaned]
    exact .cleaned [] rfl rfl (fun _ => rfl) rfl

/-- The names left after a clean-up, and who held them. -/
theorem lookup_cleaned {name id id' : String} (h : Ledger s r)
    (hname : (s.cleaned id).regNames.lookup name = some id') :
    s.regNames.lookup name = some id' ∧ id' ≠ id ∧ heldAfter r.held (s.unnaming id) name = r.held name := by
  rw [cleaned_regNames] at hname
  cases hn : s.nameOf id with
  | none =>
    rw [hn] at hname
    refine ⟨hname, ?_, by simp [unnaming, hn, heldAfter]⟩
    rintro rfl
    exact nameOf_none hn name hname
  | some name' =>
    rw [hn] at hname
    have hne : name ≠ name' := by
      rintro rfl
      simp [AList.lookup_erase] at hname
    rw [AList.lookup_erase_ne hne] at hname
    refine ⟨hname, ?_, ?_⟩
    · rintro rfl
      exact hne (h.one name name' _ hname (nameOf_lookup hn))
    · simp [unnaming, hn, heldAfter, heldStep, Table.remove_ne _ hne]

/-- A clean-up gives up the names it takes out. -/
theorem keys_cleaned {name id : String} (h : Ledger s r) :
    (s.cleaned id).regNames.lookup name ≠ none ↔ heldAfter r.held (s.unnaming id) name ≠ none := by
  rw [cleaned_regNames]
  cases hn : s.nameOf id with
  | none => simpa [unnaming, hn, heldAfter] using h.keys name
  | some name' =>
    simp only [unnaming, hn, Option.toList_some, List.map_cons, List.map_nil, heldAfter, List.foldl_cons, List.foldl_nil,
      heldStep]
    by_cases hne : name = name'
    · subst hne
      simp [AList.lookup_erase]
    · rw [AList.lookup_erase_ne hne, Table.remove_ne _ hne]
      exact h.keys name

/-- **The ledger is kept by every turn.** -/
theorem Ledger.step (h : Ledger s r) (hstep : NameStep s effs s') (hsound : r'.Sound)
    (hheld : r'.held = heldAfter r.held effs) : Ledger s' r' := by
  cases hstep with
  | quiet hn he hh =>
    rw [he] at hheld
    refine ⟨hsound, fun name => ?_, ?_, fun name id hname => ?_⟩
    · rw [hn, hheld]
      exact h.keys name
    · rw [hn]
      exact h.one
    · rw [hn] at hname
      rw [hh name id hname]
      exact h.known name id hname
  | @named name id handle hfresh hn he hid hh =>
    rw [he] at hheld
    have hlookup : ∀ name' id', s'.regNames.lookup name' = some id' →
        (name' = name ∧ id' = id) ∨ (name' ≠ name ∧ id' ≠ id ∧ s.regNames.lookup name' = some id') := by
      intro name' id' hname
      rw [hn, lookup_insert] at hname
      split_ifs at hname with heq
      · exact Or.inl ⟨heq, (Option.some.inj hname).symm⟩
      · refine Or.inr ⟨heq, ?_, hname⟩
        rintro rfl
        exact hfresh name' hname
    refine ⟨hsound, fun name' => ?_, fun name₁ name₂ id' h₁ h₂ => ?_, fun name' id' hname => ?_⟩
    · rw [hn, hheld, lookup_insert, Table.insert_apply]
      split_ifs
      · simp
      · exact h.keys name'
    · rcases hlookup name₁ id' h₁ with ⟨rfl, rfl⟩ | ⟨-, hne, hold⟩ <;>
        rcases hlookup name₂ _ h₂ with ⟨rfl, hid₂⟩ | ⟨-, hne₂, hold₂⟩
      · rfl
      · exact absurd rfl hne₂
      · exact absurd hid₂ hne
      · exact h.one name₁ name₂ _ hold hold₂
    · rcases hlookup name' id' hname with ⟨-, rfl⟩ | ⟨-, hne, hold⟩
      · simp [hid]
      · rw [hh id' hne]
        exact h.known name' id' hold
  | @cleaned id before hn heffs he hh =>
    have hheld' : r'.held = heldAfter r.held (s.unnaming id) := by
      rw [hheld, heffs, heldAfter_append, he]
    refine ⟨hsound, fun name => ?_, fun name₁ name₂ id' h₁ h₂ => ?_, fun name id' hname => ?_⟩
    · rw [hn, hheld']
      exact keys_cleaned h
    · rw [hn] at h₁ h₂
      exact h.one name₁ name₂ id' (lookup_cleaned h h₁).1 (lookup_cleaned h h₂).1
    · rw [hn] at hname
      obtain ⟨hold, hne, -⟩ := lookup_cleaned h hname
      rw [hh, Table.remove_ne _ hne]
      exact h.known name id' hold

theorem Ledger.renew (h : Ledger s r) {id : String} {handle : ChildHandle} (hstep : Renews s effs s' id handle)
    (hsound : r'.Sound) (hheld : r'.held = heldAfter r.held effs) : Ledger s' r' := by
  rw [hstep.held] at hheld
  refine ⟨hsound, fun name => ?_, ?_, fun name id' hname => ?_⟩
  · rw [hstep.names, hheld]
    exact h.keys name
  · rw [hstep.names]
    exact h.one
  · rw [hstep.names] at hname
    rw [hstep.handles]
    exact Table.insert_ne_none.mpr (Or.inl (h.known name id' hname))

theorem Current.step (h : Current s r) (hl : Ledger s r) (hstep : NameStep s effs s')
    (hheld : r'.held = heldAfter r.held effs) : Current s' r' := by
  intro name id hname
  cases hstep with
  | quiet hn he hh =>
    rw [hn] at hname
    rw [hheld, he, hh name id hname]
    exact h name id hname
  | @named name' id' handle hfresh hn he hid hh =>
    rw [hn, lookup_insert] at hname
    rw [hheld, he, Table.insert_apply]
    split_ifs at hname ⊢
    · obtain rfl := Option.some.inj hname
      exact hid.symm
    · have hne : id ≠ id' := by
        rintro rfl
        exact hfresh name hname
      rw [hh id hne]
      exact h name id hname
  | @cleaned id' before hn heffs he hh =>
    rw [hn] at hname
    obtain ⟨hold, hne, hkept⟩ := lookup_cleaned hl hname
    rw [hheld, heffs, heldAfter_append, he, hkept, hh, Table.remove_ne _ hne]
    exact h name id hold

/-- The held handle of a restarted child is that of its old actor. -/
theorem Current.renew_iff (h : Current s r) {id : String} {handle : ChildHandle} (hstep : Renews s effs s' id handle)
    (hheld : r'.held = heldAfter r.held effs) (hnew : s.handles id ≠ some handle) :
    Current s' r' ↔ ∀ name, s.regNames.lookup name ≠ some id := by
  rw [hstep.held] at hheld
  constructor
  · intro h' name hname
    have hnow := h' name id (by rw [hstep.names, hname])
    rw [hheld, h name id hname, hstep.handles, Table.insert_self] at hnow
    exact hnew hnow
  · intro hnone name id' hname
    rw [hstep.names] at hname
    have hne : id' ≠ id := by
      rintro rfl
      exact hnone name hname
    rw [hheld, hstep.handles, Table.insert_ne _ _ hne]
    exact h name id' hname

/-- A child that is registered no more was cleaned up, and its name given up last. -/
theorem unregistered_of_gone (hl : Ledger s r) (hc : Complete s') (hstep : NameStep s effs s') {name id : String}
    (hname : s.regNames.lookup name = some id) (hgone : id ∉ allChildIds s'.logic.children) :
    effs.getLast? = some (.unregistered name) := by
  have hnone : s'.handles id = none := by
    by_contra hne
    exact hgone ((hc.children id).mpr (Or.inl hne))
  have hknown := hl.known name id hname
  cases hstep with
  | quiet hn he hh =>
    rw [hh name id hname] at hnone
    exact absurd hnone hknown
  | @named name' id' handle hfresh hn he hid hh =>
    have hne : id ≠ id' := by
      rintro rfl
      exact hfresh name hname
    rw [hh id hne] at hnone
    exact absurd hnone hknown
  | @cleaned id' before hn heffs he hh =>
    have hid : id = id' := by
      by_contra hne
      rw [hh, Table.remove_ne _ hne] at hnone
      exact hknown hnone
    subst hid
    cases hn' : s.nameOf id with
    | none => exact absurd hname (nameOf_none hn' name)
    | some name' =>
      rw [heffs, hl.one name name' id hname (nameOf_lookup hn')]
      simp [unnaming, hn']

/-! ## Restarts -/

/-- The child the engine decides to restart is the one it found, alive. -/
theorem InService.restarts_of_restartOne (h : InService s) {exit : Exit} {now : Instant} {id : String}
    (hact : (s.logic.onChildExit exit.from.actorId exit.reason now).1 = .restartOne id) :
    ∃ child l, Hit s exit child l ∧ id = child.policy.id ∧ shouldRestart child.policy.restart exit.reason = true ∧
      (s.logic.intensity.recordRestart now).1 = true := by
  rcases hx : s.logic.onChildExit exit.from.actorId exit.reason now with ⟨action, l⟩
  rw [hx] at hact
  obtain rfl : action = .restartOne id := hact
  obtain ⟨child, hit, hid, hr, hi⟩ := h.hit_of_restartOne (SupervisorLogic.decides_of_onChildExit hx)
  exact ⟨child, l, hit, hid, hr, hi⟩

/-- It does decide so when the policy and the intensity allow it. -/
theorem InService.restartOne_of_hit (h : InService s) (hi : Indexed s) {exit : Exit} {now : Instant}
    {child : SupervisedChild} {l : SupervisorLogic} (hit : Hit s exit child l)
    (hr : shouldRestart child.policy.restart exit.reason = true) (ha : (s.logic.intensity.recordRestart now).1 = true) :
    (s.logic.onChildExit exit.from.actorId exit.reason now).1 = .restartOne child.policy.id := by
  have hon := h.enabled
  have hone := h.strategy
  -- whichever child it finds is this one
  have hsame : ∀ {p : Nat} {other : SupervisedChild}, s.logic.childIndexByActor exit.from.actorId = some p →
      s.logic.children[p]? = some other → other = child := by
    intro p other hp hc
    have hother := (h.hit (l := s.logic.markChildDead exit.from.actorId) hp hc rfl (by simp) (by simp))
    refine List.inj_on_of_nodup_map hi.ids hother.mem hit.mem ?_
    exact Option.some.inj (hother.any.symm.trans hit.any)
  rcases hx : s.logic.onChildExit exit.from.actorId exit.reason now with ⟨action, l'⟩
  cases SupervisorLogic.decides_of_onChildExit hx with
  | suppressed hs => simp [hs] at hon
  | unknown hn =>
    have hany := hit.any
    rw [SupervisorLogic.childIdByActorAny_of_alive h.alive, hn] at hany
    cases hany
  | final hp hc hno =>
    rw [hsame hp hc, hr] at hno
    cases hno
  | meltdown hp hc hyes hno =>
    rw [ha] at hno
    cases hno
  | restartOne hrest => rw [hsame hrest.index hrest.child_eq]
  | all hrest hst | rest hrest hst => simp [hst] at hone

/-- What an exit does to the names: it renews the child the engine decided to restart, or that child has no name. -/
theorem InService.nameStep_exit (h : InService s) (hi : Indexed s)
    (hk : ∀ name id, s.regNames.lookup name = some id → s.handles id ≠ none) {exit : Exit} {now : Instant}
    (hstep : ExitStep ctx s exit now effs s') :
    (NameStep s effs s' ∧ ∀ name id, (s.logic.onChildExit exit.from.actorId exit.reason now).1 = .restartOne id →
        s.regNames.lookup name ≠ some id) ∨
      ∃ id handle, (s.logic.onChildExit exit.from.actorId exit.reason now).1 = .restartOne id ∧
        Renews s effs s' id handle := by
  -- the decision is about the child that was hit
  have hwhich : ∀ {child : SupervisedChild} {l : SupervisorLogic} {id : String}, Hit s exit child l →
      (s.logic.onChildExit exit.from.actorId exit.reason now).1 = .restartOne id →
      id = child.policy.id ∧ shouldRestart child.policy.restart exit.reason = true ∧
        (s.logic.intensity.recordRestart now).1 = true := by
    intro child l id hit hact
    obtain ⟨other, l', hit', rfl, hr, ha⟩ := h.restarts_of_restartOne hact
    obtain rfl : other = child := by
      refine List.inj_on_of_nodup_map hi.ids hit'.mem hit.mem ?_
      exact Option.some.inj (hit'.any.symm.trans hit.any)
    exact ⟨rfl, hr, ha⟩
  -- a remote child has no name
  have hremote : ∀ {child : SupervisedChild} {l : SupervisorLogic}, Hit s exit child l →
      s.remoteSpawnMeta child.policy.id ≠ none → ∀ name id,
      (s.logic.onChildExit exit.from.actorId exit.reason now).1 = .restartOne id → s.regNames.lookup name ≠ some id := by
    intro child l hit hmeta name id hact hname
    obtain ⟨rfl, -, -⟩ := hwhich hit hact
    obtain ⟨handle, hh⟩ := Option.ne_none_iff_exists'.mp (hk name _ hname)
    exact hmeta (hi.handle _ handle hh).1
  cases hstep with
  | unknown hany =>
    refine Or.inl ⟨.quiet rfl (fun _ => rfl) fun _ _ _ => rfl, fun name id hact => ?_⟩
    obtain ⟨child, l, hit, -⟩ := h.restarts_of_restartOne hact
    rw [hit.any] at hany
    cases hany
  | final hit hr =>
    refine Or.inl ⟨.cleaned [.read now] rfl rfl (fun _ => rfl) rfl, fun name id hact => ?_⟩
    rw [(hwhich hit hact).2.1] at hr
    cases hr
  | meltdown hit hr ha =>
    refine Or.inl ⟨.quiet rfl (fun _ => rfl) fun _ _ _ => rfl, fun name id hact => ?_⟩
    rw [(hwhich hit hact).2.2] at ha
    cases ha
  | respawned hit hr ha hmeta => exact Or.inl ⟨.quiet rfl (fun _ => rfl) fun _ _ _ => rfl, hremote hit hmeta⟩
  | lost hit hr ha hmeta =>
    exact Or.inl ⟨.cleaned [.read now] rfl rfl (fun _ => rfl) rfl, hremote hit hmeta⟩
  | @restarted child l spec handle hit hr ha =>
    exact Or.inr ⟨child.policy.id, handle, h.restartOne_of_hit hi hit hr ha, ⟨rfl, by simp, fun _ => rfl, rfl⟩⟩

theorem ExitStep.read_mem {exit : Exit} {now : Instant} (h : ExitStep ctx s exit now effs s') :
    Effect.read now ∈ effs := by
  cases h <;> simp

/-- An exit reads the clock once. -/
theorem ExitStep.read_unique {exit : Exit} {now now' : Instant} (h : ExitStep ctx s exit now effs s')
    (hread : Effect.read now' ∈ effs) : now' = now := by
  cases h <;> simpa [unnaming] using hread

/-- The turns of the supervisor alone. -/
def turnsOf (hist : List (Named × NamedTurn)) : List DynTurn := hist.map fun x => (x.1.serving, x.2.turn)

theorem NamedLives.lives {rt : Runtime} {b : DynamicSupervisorBuilder} {τ₀ : SupTrace} {hist : List (Named × NamedTurn)}
    {y : Named} (h : NamedLives rt ctx b τ₀ hist y) :
    (rt.dynamicSupervisor ctx).Lives b.build τ₀ (turnsOf hist) y.serving := by
  obtain ⟨s, store, hstarted, hrun⟩ := h
  refine ⟨s, hstarted, ?_⟩
  refine hrun.inv_history (I := fun hist y => Run (rt.dynamicSupervisor ctx).Handles ⟨s, false⟩ (turnsOf hist) y.serving)
    .nil fun hist x a y ih hstep => ?_
  rw [turnsOf, List.map_append]
  exact ih.snoc hstep.1

theorem NamedLives.snoc {rt : Runtime} {b : DynamicSupervisorBuilder} {τ₀ : SupTrace} {hist : List (Named × NamedTurn)}
    {x y : Named} {a : NamedTurn} (h : NamedLives rt ctx b τ₀ hist x)
    (hstep : NamedStep (rt.dynamicSupervisor ctx) x a y) : NamedLives rt ctx b τ₀ (hist ++ [(x, a)]) y := by
  obtain ⟨s, store, hstarted, hrun⟩ := h
  exact ⟨s, store, hstarted, hrun.snoc hstep⟩

/-- What a turn does to the names, and when it restarts a named child. -/
theorem NamedLives.nameStep {rt : Runtime} {b : DynamicSupervisorBuilder} {τ₀ : SupTrace}
    {hist : List (Named × NamedTurn)} {x y : Named} {a : NamedTurn} (h : NamedLives rt ctx b τ₀ hist x)
    (hl : Ledger x.serving.state x.registry) (hstep : NamedStep (rt.dynamicSupervisor ctx) x a y) :
    (NameStep x.serving.state (effects a.turn.calls) y.serving.state ∧ ¬RestartsNamed (x, a)) ∨
      ∃ id handle, Renews x.serving.state (effects a.turn.calls) y.serving.state id handle ∧
        (RestartsNamed (x, a) ↔ ∃ name, x.serving.state.regNames.lookup name = some id) := by
  have hlives := h.lives
  obtain ⟨hdyn, -⟩ := dynStep_of_handles hstep.1
  cases hevent : a.turn.event with
  | message msg =>
    rw [hevent] at hdyn
    refine Or.inl ⟨nameStep_message (indexed_lives hlives) hl.known hdyn, ?_⟩
    rintro ⟨exit, now, childId, name, he, -⟩
    rw [show a.turn.event = _ from he] at hevent
    cases hevent
  | exit exit =>
    rw [hevent] at hdyn
    have hserving := inService_lives hlives hstep.1.1
    obtain ⟨now, hexit⟩ := hserving.exitStep (complete_lives hlives) hdyn
    -- the event and the clock of a restart are those of the turn
    have hargs : RestartsNamed (x, a) ↔ ∃ id name,
        (x.serving.state.logic.onChildExit exit.from.actorId exit.reason now).1 = .restartOne id ∧
        x.serving.state.regNames.lookup name = some id := by
      constructor
      · rintro ⟨exit', now', id, name, he, hread', hact, hname⟩
        obtain rfl : exit' = exit := Event.exit.inj ((show a.turn.event = _ from he).symm.trans hevent)
        obtain rfl := hexit.read_unique hread'
        exact ⟨id, name, hact, hname⟩
      · rintro ⟨id, name, hact, hname⟩
        exact ⟨exit, now, id, name, hevent, hexit.read_mem, hact, hname⟩
    rcases hserving.nameStep_exit (indexed_lives hlives) hl.known hexit with ⟨hn, hnone⟩ | ⟨id, handle, hact, hr⟩
    · refine Or.inl ⟨hn, fun hrestart => ?_⟩
      obtain ⟨id, name, hact, hname⟩ := hargs.mp hrestart
      exact hnone name id hact hname
    · refine Or.inr ⟨id, handle, hr, hargs.trans ⟨?_, ?_⟩⟩
      · rintro ⟨id', name, hact', hname⟩
        rw [hact] at hact'
        obtain rfl := SupervisorAction.restartOne.inj hact'
        exact ⟨name, hname⟩
      · rintro ⟨name, hname⟩
        exact ⟨id, name, hact, hname⟩

theorem ledger_lives {rt : Runtime} {b : DynamicSupervisorBuilder} {τ₀ : SupTrace} {hist : List (Named × NamedTurn)}
    {y : Named} (h : NamedLives rt ctx b τ₀ hist y) : Ledger y.serving.state y.registry := by
  obtain ⟨s, store, hstarted, hrun⟩ := h
  refine (hrun.inv_history (I := fun hist y => NamedLives rt ctx b τ₀ hist y ∧ Ledger y.serving.state y.registry)
    ⟨⟨s, store, hstarted, .nil⟩, ?_⟩ ?_).2
  · obtain rfl := started_state hstarted
    exact ⟨nofun, fun name => by simp [DynamicSupervisorBuilder.build], nofun, nofun⟩
  · rintro hist x a y ⟨hx, hl⟩ hstep
    have hsound := hl.sound.run hstep.2.1
    have hheld := held_run hstep.2.1
    rw [hstep.2.2] at hheld
    refine ⟨hx.snoc hstep, ?_⟩
    rcases hx.nameStep hl hstep with ⟨hn, -⟩ | ⟨id, handle, hr, -⟩
    · exact hl.step hn hsound hheld
    · exact hl.renew hr hsound hheld

/-- One turn keeps the held handles current exactly when it restarts no named child. -/
theorem NamedLives.current_iff {rt : Runtime} {b : DynamicSupervisorBuilder} {τ₀ : SupTrace}
    {hist : List (Named × NamedTurn)} {x y : Named} {a : NamedTurn} (h : NamedLives rt ctx b τ₀ hist x)
    (hstep : NamedStep (rt.dynamicSupervisor ctx) x a y) (hfresh : (startedIn (turnsOf (hist ++ [(x, a)]))).Nodup)
    (hcurrent : Current x.serving.state x.registry) :
    Current y.serving.state y.registry ↔ ¬RestartsNamed (x, a) := by
  have hl := ledger_lives h
  have hheld := held_run hstep.2.1
  rw [hstep.2.2] at hheld
  rcases h.nameStep hl hstep with ⟨hn, hnot⟩ | ⟨id, handle, hr, hiff⟩
  · exact iff_of_true (hcurrent.step hl hn hheld) hnot
  · rw [turnsOf, List.map_append, startedIn_append] at hfresh
    obtain ⟨hold, -, hdisj⟩ := List.nodup_append.mp hfresh
    have hnew : x.serving.state.handles id ≠ some handle := by
      intro hh
      have hin := (inverse_lives h.lives hold).2 id handle hh
      exact hdisj _ hin _ (by simpa using mem_startedIds hr.started) rfl
    rw [hcurrent.renew_iff hr hheld hnew, hiff, not_exists]

/-- **Names follow restarts of unnamed children only.** In a life in which every actor is started with a fresh id and no
other party unregisters a name the supervisor holds, the registry leads from every name of `reg_names` to the child's
current actor in all states between handlers exactly when no turn restarts a child that has a name. In any case a name is
vacant again once its child is registered no more, unless another party takes it. -/
theorem names_follow_iff (rt : Runtime) (ctx : Context) (b : DynamicSupervisorBuilder) (τ₀ : SupTrace)
    (hist : List (Named × NamedTurn)) (y : Named) (h : NamedLives rt ctx b τ₀ hist y)
    (hfresh : (startedIn (turnsOf hist)).Nodup) :
    (((∀ x ∈ hist, Follows x.1) ∧ Follows y) ↔ ∀ x ∈ hist, ¬RestartsNamed x) ∧
      ∀ before x a, hist = before ++ [(x, a)] → Frees x a y := by
  constructor
  · obtain ⟨s, store, hstarted, hrun⟩ := h
    have hinit : NamedLives rt ctx b τ₀ [] ⟨⟨s, false⟩, ⟨store, Table.empty⟩⟩ := ⟨s, store, hstarted, .nil⟩
    refine (hrun.inv_history (I := fun hist y => NamedLives rt ctx b τ₀ hist y ∧ ((startedIn (turnsOf hist)).Nodup →
      (((∀ x ∈ hist, Follows x.1) ∧ Follows y) ↔ ∀ x ∈ hist, ¬RestartsNamed x))) ⟨hinit, fun _ => ?_⟩ ?_).2 hfresh
    · refine iff_of_true ⟨by simp, ?_⟩ (by simp)
      refine (ledger_lives hinit).follows_iff.mpr ?_
      obtain rfl := started_state hstarted
      exact nofun
    · rintro hist x a y ⟨hx, ih⟩ hstep
      refine ⟨hx.snoc hstep, fun hnodup => ?_⟩
      have hone : Follows x → (Follows y ↔ ¬RestartsNamed (x, a)) := by
        intro hfollows
        rw [(ledger_lives (hx.snoc hstep)).follows_iff]
        exact hx.current_iff hstep hnodup ((ledger_lives hx).follows_iff.mp hfollows)
      have hold : (startedIn (turnsOf hist)).Nodup := by
        rw [turnsOf, List.map_append, startedIn_append] at hnodup
        exact (List.nodup_append.mp hnodup).1
      simp only [List.mem_append, List.mem_singleton, or_imp, forall_and, forall_eq]
      rw [← ih hold]
      constructor
      · rintro ⟨⟨hall, hfx⟩, hfy⟩
        exact ⟨⟨hall, hfx⟩, (hone hfx).mp hfy⟩
      · rintro ⟨⟨hall, hfx⟩, hnot⟩
        exact ⟨⟨hall, hfx⟩, (hone hfx).mpr hnot⟩
  · rintro before x a rfl name childId hname hgone hothers
    have hc := complete_lives h.lives
    obtain ⟨s, store, hstarted, hrun⟩ := h
    obtain ⟨hbefore, hstep⟩ := hrun.snoc_inv
    have hx : NamedLives rt ctx b τ₀ before x := ⟨s, store, hstarted, hbefore⟩
    have hl := ledger_lives hx
    refine vacant_run hstep.2.1 ?_ hothers
    rw [hstep.2.2]
    rcases hx.nameStep hl hstep with ⟨hn, -⟩ | ⟨id, handle, hr, -⟩
    · exact unregistered_of_gone hl hc hn hname hgone
    · -- a restart leaves every child registered
      have hne : y.serving.state.handles childId ≠ none := by
        rw [hr.handles]
        exact Table.insert_ne_none.mpr (Or.inl (hl.known name childId hname))
      exact absurd ((hc.children childId).mpr (Or.inl hne)) hgone

/-- Two turns beside a registry that is empty at first. -/
theorem namedLives_pair {rt : Runtime} {b : DynamicSupervisorBuilder} {τ₀ : SupTrace} {x₁ x₂ : DynTurn}
    {p : Serving DynamicSupervisor} (h : (rt.dynamicSupervisor ctx).Lives b.build τ₀ [x₁, x₂] p) {r₁ r₂ : Registry}
    {log₁ log₂ : List (Registry × RegMove)} (h₁ : Run Registry.Step ⟨Table.empty, Table.empty⟩ log₁ r₁)
    (hlog₁ : owned log₁ = effects x₁.2.calls) (h₂ : Run Registry.Step r₁ log₂ r₂)
    (hlog₂ : owned log₂ = effects x₂.2.calls) :
    NamedLives rt ctx b τ₀ [(⟨x₁.1, ⟨Table.empty, Table.empty⟩⟩, ⟨x₁.2, log₁⟩), (⟨x₂.1, r₁⟩, ⟨x₂.2, log₂⟩)] ⟨p, r₂⟩ := by
  obtain ⟨s, hstarted, hrun⟩ := h
  obtain ⟨hone, hstep₂⟩ := Run.snoc_inv (τ := [x₁]) hrun
  obtain ⟨hnil, hstep₁⟩ := Run.snoc_inv (τ := []) hone
  refine ⟨s, Table.empty, hstarted, ?_⟩
  rw [← hnil.nil_inv]
  exact (Run.nil.snoc (a := (⟨x₁.2, log₁⟩ : NamedTurn)) ⟨hstep₁, h₁, hlog₁⟩).snoc (a := (⟨x₂.2, log₂⟩ : NamedTurn))
    ⟨hstep₂, h₂, hlog₂⟩

/-- A permanent worker named `main` (actor 2) that exits. -/
def namedEvents (reason : ExitReason) : List (Event DynMsg) :=
  [.message (.startChild { id := "work", restart := .permanent } (some "main")), .exit ⟨⟨"n", 2⟩, reason⟩]

/-- The registry with `main` in it. -/
def mainRegistry : Registry where
  store := (Table.empty : RegStore).insert "main" (.handle ⟨2⟩)
  held := (Table.empty : Table String ChildHandle).insert "main" ⟨2⟩

def mainLog : List (Registry × RegMove) :=
  [(⟨Table.empty, Table.empty⟩, .own (.started ⟨2⟩)), (⟨Table.empty, Table.empty⟩, .own (.registered "main" ⟨2⟩))]

theorem run_mainLog : Run Registry.Step ⟨Table.empty, Table.empty⟩ mainLog mainRegistry :=
  (Run.nil.snoc (.elsewhere (by simp) (by simp) (by simp))).snoc (.registered rfl)

/-- The worker is shut down, which is final: `main` leads to it before, and is vacant afterwards. -/
theorem names_follow_shutdown :
    ∃ τ₀ hist y, NamedLives .tasks ⟨⟨"n", 0⟩⟩ {} τ₀ hist y ∧
      (∃ x ∈ hist, x.1.serving.state.regNames.lookup "main" = some "work#1" ∧ Follows x.1) ∧
      y.registry.store "main" = none ∧ Follows y := by
  have hlives := Callbacks.lives_life (Runtime.dynamicSupervisor .tasks ⟨⟨"n", 0⟩⟩) calmAnswers
    ({} : DynamicSupervisorBuilder).build (namedEvents .shutdown)
  have hnamed := namedLives_pair hlives run_mainLog rfl ((Run.nil.snoc (a := .own (.read 0)) (.elsewhere (by simp)
    (by simp) (by simp))).snoc (a := .own (.unregistered "main")) .unregistered) rfl
  obtain ⟨hiff, hfrees⟩ := names_follow_iff .tasks ⟨⟨"n", 0⟩⟩ {} _ _ _ hnamed (by decide)
  have hvacant := hfrees [_] _ _ rfl "main" "work#1" rfl (by decide) (by simp)
  refine ⟨_, _, _, hnamed, ?_⟩
  suffices hnot : ∀ x ∈ _, ¬RestartsNamed x by
    obtain ⟨hbefore, hlast⟩ := hiff.mpr hnot
    exact ⟨⟨_, List.mem_cons_of_mem _ (List.mem_singleton_self _), rfl,
      hbefore _ (List.mem_cons_of_mem _ (List.mem_singleton_self _))⟩, hvacant, hlast⟩
  intro x hx
  rcases List.mem_cons.mp hx with rfl | hx
  · rintro ⟨exit, now, childId, name, he, -⟩
    cases he
  · obtain rfl := List.mem_singleton.mp hx
    rintro ⟨exit, now, childId, name, he, -, hact, -⟩
    cases he
    cases hact

/-- The worker crashes and is restarted as another actor; `main` still leads to the dead one. -/
theorem name_of_restarted_stale :
    ¬∀ (rt : Runtime) (ctx : Context) (b : DynamicSupervisorBuilder) (τ₀ : SupTrace) (hist : List (Named × NamedTurn))
      (y : Named), NamedLives rt ctx b τ₀ hist y → (startedIn (turnsOf hist)).Nodup → Follows y := by
  intro h
  have hlives := Callbacks.lives_life (Runtime.dynamicSupervisor .tasks ⟨⟨"n", 0⟩⟩) calmAnswers
    ({} : DynamicSupervisorBuilder).build (namedEvents (.panic "boom"))
  have hnamed := namedLives_pair hlives run_mainLog rfl ((Run.nil.snoc (a := .own (.read 0)) (.elsewhere (by simp)
    (by simp) (by simp))).snoc (a := .own (.started ⟨5⟩)) (.elsewhere (by simp) (by simp) (by simp))) rfl
  obtain ⟨handle, hh, hwhere⟩ := h _ _ _ _ _ _ hnamed (by decide) "main" "work#1" (by decide)
  have heq := hh.symm.trans (show _ = some (⟨5⟩ : ChildHandle) from rfl)
  have heq' := hwhere.symm.trans (show _ = some (⟨2⟩ : ChildHandle) from rfl)
  rw [Option.some.inj heq] at heq'
  exact absurd heq' (by decide)

end DynamicSupervisor

end Spawned
