import Spawned.Lib.Calls
import Spawned.Supervisor.DynamicFinal

/-!
# The instances of a dynamic supervisor

A dynamic supervisor starts every child under an id of its own, the template's id and a number drawn from a counter, and
its engine counts the restarts of a child under that id.

* `instanceIds` : the ids a history has produced, the `n`-th of them with the number `n` (`Numbered`);
* `instance_ids_distinct` : no two are equal, and no start finds its id taken;
* `BackoffRegistered` : only registered children have attempts counted;
* `backoff_registered_iff` : that is so as long as no local child with attempts is terminated.
-/

namespace Spawned

open Lib

namespace DynamicSupervisor

variable {ctx : Context} {s s' : DynamicSupervisor}

/-! ## Instance ids -/

/-- The id that `instance_id` produces for a request, in the state in which it is handled. -/
def producedFor (s : DynamicSupervisor) : DynMsg → Option String
  | .startChild spec _ => if s.draws then some (s.nextId spec.id) else none
  | .startChildRemote _ _ _ => if s.draws then some (s.nextId "remote") else none
  | .terminateChild _ | .countChildren | .whichChildren => none

/-- The id that `instance_id` produces in a turn. -/
def produced (x : DynTurn) : Option String :=
  match x.2.event with
  | .message msg => x.1.state.producedFor msg
  | .exit _ => none

/-- All ids that `instance_id` has produced, oldest first. -/
def instanceIds (hist : List DynTurn) : List String := hist.filterMap produced

/-- The id of a `DuplicateChildId`. -/
def duplicateId : Option DynReply → Option String
  | some (.startChild (.error (.duplicateChildId id))) => some id
  | some (.startChildRemote (.error (.duplicateChildId id))) => some id
  | _ => none

@[simp] theorem instanceIds_nil : instanceIds [] = [] := rfl

theorem instanceIds_snoc (hist : List DynTurn) (x : DynTurn) :
    instanceIds (hist ++ [x]) = instanceIds hist ++ (produced x).toList := by
  cases h : produced x <;> simp [instanceIds, h]

theorem producedFor_eq_some {msg : DynMsg} {id : String} (h : s.producedFor msg = some id) :
    ∃ template, id = s.nextId template := by
  cases msg with
  | startChild spec regName =>
    simp only [producedFor, Option.ite_none_right_eq_some, Option.some.injEq] at h
    exact ⟨_, h.2.symm⟩
  | startChildRemote spec placement link =>
    simp only [producedFor, Option.ite_none_right_eq_some, Option.some.injEq] at h
    exact ⟨_, h.2.symm⟩
  | terminateChild | countChildren | whichChildren => cases h

theorem produced_eq_some {x : DynTurn} {id : String} (h : produced x = some id) :
    ∃ template, id = x.1.state.nextId template := by
  unfold produced at h
  cases hevent : x.2.event with
  | exit exit => simp [hevent] at h
  | message msg =>
    rw [hevent] at h
    exact producedFor_eq_some h

theorem duplicateId_refusal (s : DynamicSupervisor) :
    duplicateId (some (.startChild (.error s.refusal))) = none ∧
      duplicateId (some (.startChildRemote (.error s.refusal))) = none := by
  unfold refusal
  split_ifs
  · exact ⟨rfl, rfl⟩
  · exact ⟨rfl, rfl⟩

/-- The turn produced the id, if any: it is what the counter counts, the only new child has it, and only it can be found
taken. -/
structure Draws (s : DynamicSupervisor) (id : Option String) (reply : Option DynReply) (s' : DynamicSupervisor) :
    Prop where
  counter : s'.idCounter = s.idCounter + id.toList.length
  added : ∀ id' ∈ allChildIds s'.logic.children, id' ∈ allChildIds s.logic.children ∨ id = some id'
  taken : ∀ id', duplicateId reply = some id' → id = some id' ∧ s.logic.hasChildId id' = true

theorem Draws.idle {reply : Option DynReply} (h : duplicateId reply = none) : Draws s none reply s := by
  refine ⟨rfl, fun _ hid => Or.inl hid, fun id' hid => ?_⟩
  rw [h] at hid
  cases hid

theorem ids_register {l : SupervisorLogic} {policy : ChildPolicy} {slot : ChildHandleSlot} {id : String}
    (h : id ∈ allChildIds (l.registerChild policy slot).children) :
    id ∈ allChildIds l.children ∨ some policy.id = some id := by
  obtain ⟨child, hchild, rfl⟩ := List.mem_map.mp h
  rcases mem_register hchild with hchild | rfl
  · exact Or.inl (List.mem_map_of_mem hchild)
  · exact Or.inr rfl

theorem ids_of_removed {l : SupervisorLogic} {childId id : String}
    (h : id ∈ allChildIds (l.removeChildById childId).children) : id ∈ allChildIds l.children :=
  List.map_subset _ List.eraseP_subset h

theorem StartStep.draws {spec : ChildSpec} {regName : Option String} {τ : SupTrace}
    {result : Except DynamicSupervisorError ChildHandle} (h : StartStep s spec regName τ s' result) :
    Draws s (s.producedFor (.startChild spec regName)) (some (.startChild result)) s' := by
  cases h with
  | refused hdraws =>
    rw [producedFor, hdraws]
    exact .idle (duplicateId_refusal s).1
  | duplicate hdraws hdup =>
    rw [producedFor, hdraws]
    refine ⟨rfl, fun _ h => Or.inl h, fun id' hid => ?_⟩
    cases hid
    exact ⟨rfl, hdup⟩
  | added hdraws | named hdraws =>
    rw [producedFor, hdraws]
    exact ⟨rfl, fun _ h => ids_register h, nofun⟩
  | unnamed hdraws _ hclean =>
    rw [producedFor, hdraws, (exec_cleanupChild hclean).1]
    exact ⟨rfl, fun _ h => ids_register (ids_of_removed h), nofun⟩

theorem RemoteStartStep.draws {spec : RemoteSpawnSpec} {placement : NodeId} {link : Bool} {τ : SupTrace}
    {result : Except DynamicSupervisorError RemoteChildHandle}
    (h : RemoteStartStep ctx s spec placement link τ s' result) :
    Draws s (s.producedFor (.startChildRemote spec placement link)) (some (.startChildRemote result)) s' := by
  cases h with
  | refused hdraws =>
    rw [producedFor, hdraws]
    exact .idle (duplicateId_refusal s).2
  | duplicate hdraws hdup =>
    rw [producedFor, hdraws]
    refine ⟨rfl, fun _ h => Or.inl h, fun id' hid => ?_⟩
    cases hid
    exact ⟨rfl, hdup⟩
  | failed hdraws =>
    rw [producedFor, hdraws]
    exact ⟨rfl, fun _ h => Or.inl h, nofun⟩
  | spawned hdraws =>
    rw [producedFor, hdraws]
    exact ⟨rfl, fun _ h => ids_register h, nofun⟩

theorem TerminateStep.draws {actorId : ActorId} {τ : SupTrace} {result : Except DynamicSupervisorError Unit}
    (h : TerminateStep s actorId τ s' result) : Draws s none (some (.terminateChild result)) s' := by
  cases h with
  | unknown => exact .idle rfl
  | stuck => exact ⟨rfl, fun _ h => Or.inl h, nofun⟩
  | released => exact ⟨rfl, fun _ h => Or.inl (ids_of_removed h), nofun⟩
  | terminated _ _ _ _ hclean =>
    rw [(exec_cleanupChild hclean).1]
    exact ⟨rfl, fun _ h => Or.inl (ids_of_removed (ids_of_removed h)), nofun⟩

theorem HandleStep.draws {msg : DynMsg} {reply : DynReply} {τ : SupTrace} (h : HandleStep ctx s msg τ reply s') :
    Draws s (s.producedFor msg) (some reply) s' := by
  cases h with
  | startChild h => exact h.draws
  | startChildRemote h => exact h.draws
  | terminateChild h => exact h.draws
  | countChildren | whichChildren => exact .idle rfl

/-- An exit registers nobody. -/
theorem ids_exit {exit : Exit} {reply : Option DynReply} {effs : List Effect}
    (hstep : DynStep ctx s (.exit exit) reply effs s') {id : String} (h : id ∈ allChildIds s'.logic.children) :
    id ∈ allChildIds s.logic.children := by
  have hdecided : ∀ {now : Instant} {action : SupervisorAction} {l : SupervisorLogic},
      s.logic.Decides exit.from.actorId exit.reason now action l → id ∈ allChildIds l.children →
        id ∈ allChildIds s.logic.children := by
    intro now action l hd hid
    rwa [ids_of_faces (faces_of_decides hd)] at hid
  have hdelayed : ∀ {t : DynamicSupervisor} {childId : String}, id ∈ allChildIds (t.delayed childId).logic.children →
      id ∈ allChildIds t.logic.children := by
    intro t childId hid
    rwa [delayed, withLogic_logic, SupervisorLogic.backoffDelay_children] at hid
  cases hstep with
  | ignored hd | stopped hd => exact hdecided hd h
  | removed hd => exact hdecided hd (ids_of_removed h)
  | restarted hd =>
    rw [localRestarted_logic, ids_replaced] at h
    exact hdecided hd (hdelayed h)
  | respawned hd =>
    rw [remoteRestarted_logic, ids_replaced] at h
    exact hdecided hd (hdelayed h)
  | lost hd => exact hdecided hd (hdelayed (ids_of_removed h))
  | orphaned hd => exact hdecided hd (hdelayed h)

theorem draws_exit {exit : Exit} {reply : Option DynReply} {effs : List Effect}
    (hstep : DynStep ctx s (.exit exit) reply effs s') : Draws s none reply s' := by
  have hcounter : s'.idCounter = s.idCounter := by cases hstep <;> rfl
  have hreply : reply = none := by cases hstep <;> rfl
  exact ⟨hcounter, fun _ h => Or.inl (ids_exit hstep h), by rw [hreply]; exact nofun⟩

theorem draws_of_handles {rt : Runtime} {p q : Serving DynamicSupervisor} {turn : Turn DynMsg DynReply}
    (h : (rt.dynamicSupervisor ctx).Handles p turn q) : Draws p.state (produced (p, turn)) turn.reply q.state := by
  unfold produced
  cases hevent : turn.event with
  | exit exit =>
    have hstep := (dynStep_of_handles h).1
    rw [hevent] at hstep
    exact draws_exit hstep
  | message msg =>
    obtain ⟨reply, hreply, hhandle⟩ := handleStep_of_handles h hevent
    rw [hreply]
    exact hhandle.draws

/-- The counter says how many ids were produced, each of them ends in its number, and the children have such ids. -/
structure Numbered (hist : List DynTurn) (p : Serving DynamicSupervisor) : Prop where
  counter : p.state.idCounter = (instanceIds hist).length
  number : ∀ i id, (instanceIds hist)[i]? = some id → ∃ template, id = instanceId template (i + 1)
  children : ∀ id ∈ allChildIds p.state.logic.children, id ∈ instanceIds hist

theorem Numbered.step {rt : Runtime} {hist : List DynTurn} {p q : Serving DynamicSupervisor}
    {turn : Turn DynMsg DynReply} (h : Numbered hist p) (hturn : (rt.dynamicSupervisor ctx).Handles p turn q) :
    Numbered (hist ++ [(p, turn)]) q := by
  have hdraws := draws_of_handles hturn
  constructor <;> rw [instanceIds_snoc]
  · rw [List.length_append, hdraws.counter, h.counter]
  · intro i id hi
    cases hp : produced (p, turn) with
    | none =>
      rw [hp, Option.toList_none, List.append_nil] at hi
      exact h.number i id hi
    | some new =>
      rw [hp, Option.toList_some] at hi
      rcases getElem?_snoc_cases hi with hi | ⟨rfl, rfl⟩
      · exact h.number i id hi
      · obtain ⟨template, rfl⟩ := produced_eq_some hp
        exact ⟨template, by rw [nextId, h.counter]⟩
  · intro id hid
    rw [List.mem_append]
    rcases hdraws.added id hid with hold | hnew
    · exact Or.inl (h.children id hold)
    · exact Or.inr (by simp [hnew])

theorem numbered_lives {rt : Runtime} {b : DynamicSupervisorBuilder} {τ₀ : SupTrace} {hist : List DynTurn}
    {p : Serving DynamicSupervisor} (h : (rt.dynamicSupervisor ctx).Lives b.build τ₀ hist p) : Numbered hist p := by
  obtain ⟨s₀, hstarted, hserve⟩ := h
  obtain rfl := started_state hstarted
  have hempty : Numbered [] ⟨b.build, false⟩ :=
    ⟨rfl, by simp, by simp [DynamicSupervisorBuilder.build, SupervisorLogic.new, allChildIds]⟩
  exact hserve.inv_history hempty fun _ _ _ _ hn hturn => hn.step hturn

/-- Ids with different numbers are different, whatever the templates are. -/
theorem Numbered.nodup {hist : List DynTurn} {p : Serving DynamicSupervisor} (h : Numbered hist p) :
    (instanceIds hist).Nodup := by
  rw [List.nodup_iff_getElem?_ne_getElem?]
  intro i j hij hj heq
  obtain ⟨template', hid'⟩ := h.number j _ (List.getElem?_eq_getElem hj)
  rw [List.getElem?_eq_getElem hj] at heq
  obtain ⟨template, hid⟩ := h.number i _ heq
  have hnumber := instanceId_counter (hid.symm.trans hid')
  omega

/-- The next id is not among them. -/
theorem Numbered.next {hist : List DynTurn} {p : Serving DynamicSupervisor} (h : Numbered hist p) (template : String) :
    p.state.nextId template ∉ instanceIds hist := by
  intro hmem
  obtain ⟨i, hi⟩ := List.mem_iff_getElem?.mp hmem
  obtain ⟨template', hid⟩ := h.number i _ hi
  have hnumber : p.state.idCounter + 1 = i + 1 := instanceId_counter hid
  have hlt : i < (instanceIds hist).length := (List.getElem?_eq_some_iff.mp hi).1
  have hcounter := h.counter
  omega

theorem hasChildId_iff {l : SupervisorLogic} {id : String} : l.hasChildId id = true ↔ id ∈ allChildIds l.children := by
  simp [SupervisorLogic.hasChildId, allChildIds]

/-- No start finds its id taken. -/
theorem duplicateId_lives {rt : Runtime} {b : DynamicSupervisorBuilder} {τ₀ : SupTrace} {hist : List DynTurn}
    {p : Serving DynamicSupervisor} (h : (rt.dynamicSupervisor ctx).Lives b.build τ₀ hist p) {x : DynTurn}
    (hx : x ∈ hist) : duplicateId x.2.reply = none := by
  obtain ⟨s₀, hstarted, hserve⟩ := h
  obtain ⟨before, -, q, -, hbefore, hturn⟩ := hserve.mem_split hx
  have hn : Numbered before x.1 := numbered_lives ⟨s₀, hstarted, hbefore⟩
  refine Option.eq_none_iff_forall_ne_some.mpr fun id hid => ?_
  obtain ⟨hproduced, htaken⟩ := (draws_of_handles hturn).taken id hid
  obtain ⟨template, rfl⟩ := produced_eq_some hproduced
  exact hn.next template (hn.children _ (hasChildId_iff.mp htaken))

/-- **Instance ids never collide.** In every life in which `instance_id` is called fewer than `2 ^ 64` times, from
whatever templates, the counter counts the calls and does not overflow, no two of the ids are equal, and no request fails
with `DuplicateChildId`. -/
theorem instance_ids_distinct (rt : Runtime) (ctx : Context) (b : DynamicSupervisorBuilder) (τ₀ : SupTrace)
    (hist : List DynTurn) (p : Serving DynamicSupervisor) (h : (rt.dynamicSupervisor ctx).Lives b.build τ₀ hist p)
    (hstarts : (instanceIds hist).length < 2 ^ 64) :
    (p.state.idCounter = (instanceIds hist).length ∧ p.state.idCounter < 2 ^ 64) ∧ (instanceIds hist).Nodup ∧
      ∀ x ∈ hist, duplicateId x.2.reply = none := by
  have hn := numbered_lives h
  refine ⟨⟨hn.counter, ?_⟩, hn.nodup, fun x hx => duplicateId_lives h hx⟩
  rw [hn.counter]
  exact hstarts

/-- Children with an empty id, one that ends in a number and `remote`, next to a remote child; the first crashes, the
second is terminated. -/
def templateEvents : List (Event DynMsg) :=
  [.message (.startChild { id := "", restart := .permanent } none),
    .message (.startChild { id := "a#1", restart := .temporary } none),
    .message (.startChildRemote (.worker "work" []) "m" true),
    .message (.startChild { id := "remote", restart := .temporary } none),
    .exit ⟨⟨"n", 2⟩, .panic "boom"⟩, .message (.terminateChild 3)]

def templateLife : Life DynamicSupervisor DynMsg DynReply :=
  (Runtime.dynamicSupervisor .tasks ⟨⟨"n", 0⟩⟩).life placedAnswers ({} : DynamicSupervisorBuilder).build templateEvents

theorem instance_ids_distinct_templates :
    instanceIds templateLife.turns = ["#1", "a#1#2", "remote#3", "remote#4"] ∧ (instanceIds templateLife.turns).Nodup := by
  refine ⟨by decide, ?_⟩
  exact (instance_ids_distinct .tasks ⟨⟨"n", 0⟩⟩ {} _ templateLife.turns _
    (Callbacks.lives_life _ placedAnswers _ templateEvents) (by decide)).2.1

/-! ## Attempts of children that are gone -/

/-- Only registered children have restart attempts counted. -/
def BackoffRegistered (s : DynamicSupervisor) : Prop :=
  ∀ id, s.logic.backoffAttempts id ≠ none → s.logic.hasChildId id = true

/-- The turn terminates a local child that has attempts counted. -/
def LeavesBackoff (x : DynTurn) : Prop :=
  ∃ actorId childId, x.2.event = .message (.terminateChild actorId) ∧ ¬x.1.state.RemoteChild actorId ∧
    x.1.state.actorToId actorId = some childId ∧ x.1.state.logic.backoffAttempts childId ≠ none

/-- A decision forgets the attempts of a child, or none. -/
theorem attempts_of_decides {l l' : SupervisorLogic} {actorId : ActorId} {reason : ExitReason} {now : Instant}
    {action : SupervisorAction} (h : l.Decides actorId reason now action l') :
    l'.backoffAttempts = l.backoffAttempts ∨
      ∃ child ∈ l.children, l'.backoffAttempts = l.backoffAttempts.remove child.policy.id := by
  cases h with
  | suppressed | unknown => exact Or.inl rfl
  | final hp hc =>
    refine Or.inr ⟨_, List.mem_of_getElem? hc, ?_⟩
    simp [SupervisorLogic.resetBackoff]
  | meltdown | restartOne | all | rest => exact Or.inl (by simp [SupervisorLogic.recorded])

/-- A restart counts an attempt of the child, if its spec has a backoff. -/
theorem delayed_attempts {childId id : String} :
    (s.delayed childId).logic.backoffAttempts id ≠ none ↔
      s.logic.backoffAttempts id ≠ none ∨ (id = childId ∧ s.backoffFor childId ≠ .none) := by
  rw [delayed, withLogic_logic, SupervisorLogic.backoffDelay]
  split_ifs with hnone
  · simp [hnone]
  · rw [Table.insert_ne_none]
    simp [hnone]

theorem backoffFor_of_none {childId : String} (h : s.specs childId = none) : s.backoffFor childId = .none := by
  simp [backoffFor, h]

/-! ### While nothing is left behind -/

/-- Only local children have attempts counted: the specs of remote children are not kept, so they have no backoff. -/
def BackoffLocal (s : DynamicSupervisor) : Prop := ∀ id, s.logic.backoffAttempts id ≠ none → s.handles id ≠ none

theorem BackoffLocal.registered (h : BackoffLocal s) (hc : Complete s) : BackoffRegistered s :=
  fun id hid => hasChildId_iff.mpr ((hc.children id).mpr (Or.inl (h id hid)))

/-- The attempts of a child that is removed are forgotten with it. -/
theorem BackoffLocal.cleaned (h : BackoffLocal s) {childId : String} (hnone : s.logic.backoffAttempts childId = none) :
    BackoffLocal (s.cleaned childId) := by
  intro id hid
  refine Table.remove_ne_none.mpr ⟨h id hid, ?_⟩
  rintro rfl
  exact hid hnone

theorem BackoffLocal.exit (h : BackoffLocal s) (hi : Indexed s) (hs : InService s) {exit : Exit}
    {reply : Option DynReply} {effs : List Effect} (hstep : DynStep ctx s (.exit exit) reply effs s') :
    BackoffLocal s' := by
  have hdecided : ∀ {action : SupervisorAction} {now : Instant} {l : SupervisorLogic},
      s.logic.Decides exit.from.actorId exit.reason now action l → BackoffLocal (s.withLogic l) := by
    intro action now l hd id hid
    rcases attempts_of_decides hd with heq | ⟨child, -, heq⟩
    · rw [withLogic_logic, heq] at hid
      exact h id hid
    · rw [withLogic_logic, heq] at hid
      exact h id (Table.remove_ne_none.mp hid).1
  -- a remote child has no spec, so its restart counts nothing
  have hremote : ∀ {l : SupervisorLogic} {childId : String}, BackoffLocal (s.withLogic l) → s.specs childId = none →
      BackoffLocal ((s.withLogic l).delayed childId) := by
    intro l childId hl hspec id hid
    rcases delayed_attempts.mp hid with hid | ⟨-, hne⟩
    · exact hl id hid
    · exact absurd (backoffFor_of_none hspec) hne
  cases hstep with
  | ignored hd => exact hdecided hd
  | @removed _ now l childId hd hany =>
    refine (hdecided hd).cleaned ?_
    cases hd with
    | suppressed hsuppressed =>
      rw [hs.enabled] at hsuppressed
      cases hsuppressed
    | unknown hn =>
      rw [SupervisorLogic.childIdByActorAny_of_alive hs.alive, hn] at hany
      cases hany
    | final hp hch =>
      -- the child that is removed is the one whose attempts were reset
      have hit := hs.hit_of_final hp hch
      rw [SupervisorLogic.childIdByActorAny_of_faces hit.faces, hit.any] at hany
      obtain rfl := Option.some.inj hany
      exact Table.remove_self _ _
  | stopped hd => exact hdecided hd
  | @restarted _ now l childId spec handle hd =>
    intro id hid
    rw [localRestarted_logic, SupervisorLogic.replaceChildHandle_backoffAttempts] at hid
    rw [localRestarted_handles, Table.insert_ne_none]
    exact (delayed_attempts.mp hid).imp (hdecided hd id) And.left
  | @respawned _ now l childId address hd hmeta =>
    intro id hid
    rw [remoteRestarted_logic, SupervisorLogic.replaceChildHandle_backoffAttempts] at hid
    exact hremote (hdecided hd) (hi.spawned childId hmeta) id hid
  | @lost _ now l childId hd hmeta =>
    have hdelayed := hremote (hdecided hd) (hi.spawned childId hmeta)
    refine BackoffLocal.cleaned (s := ((s.withLogic l).delayed childId).remoteForgotten childId) hdelayed ?_
    by_contra hne
    obtain ⟨handle, hh⟩ := Option.ne_none_iff_exists'.mp (hdelayed childId hne)
    exact hmeta (hi.handle childId handle hh).1
  | orphaned hd _ hspec => exact hremote (hdecided hd) hspec

/-- A request other than `terminate_child` removes nobody that was there. -/
theorem BackoffLocal.message (h : BackoffLocal s) (hi : Indexed s) {msg : DynMsg} {reply : Option DynReply}
    {effs : List Effect} (hstep : DynStep ctx s (.message msg) reply effs s')
    (hmsg : ∀ actorId, msg ≠ .terminateChild actorId) : BackoffLocal s' := by
  have hadded : ∀ (spec : ChildSpec) (handle : ChildHandle),
      BackoffLocal (s.drawn.localAdded (s.nextId spec.id) spec handle) :=
    fun spec handle id hid => Table.insert_ne_none.mpr (Or.inl (h id hid))
  cases hstep with
  | idle | drawn | spawned => exact h
  | added | named => exact hadded _ _
  | @unnamed spec =>
    refine (hadded _ _).cleaned ?_
    by_contra hne
    exact hi.fresh spec.id (Or.inr (Or.inl (h _ hne)))
  | terminated | released | stuck => exact absurd rfl (hmsg _)

/-- The turn of a `terminate_child`. -/
theorem terminateStep_of_handles {rt : Runtime} {p q : Serving DynamicSupervisor} {turn : Turn DynMsg DynReply}
    {actorId : ActorId} (h : (rt.dynamicSupervisor ctx).Handles p turn q)
    (hevent : turn.event = .message (.terminateChild actorId)) :
    ∃ result, TerminateStep p.state actorId turn.calls q.state result := by
  obtain ⟨reply, -, hhandle⟩ := handleStep_of_handles h hevent
  cases hhandle with
  | terminateChild hterminate => exact ⟨_, hterminate⟩

/-- **A turn that leaves no attempts behind.** -/
theorem BackoffLocal.step {rt : Runtime} {p q : Serving DynamicSupervisor} {turn : Turn DynMsg DynReply}
    (h : BackoffLocal p.state) (hi : Indexed p.state) (hs : InService p.state)
    (hturn : (rt.dynamicSupervisor ctx).Handles p turn q) (hkeeps : ¬LeavesBackoff (p, turn)) : BackoffLocal q.state := by
  have hstep := (dynStep_of_handles hturn).1
  cases hevent : turn.event with
  | exit exit =>
    rw [hevent] at hstep
    exact h.exit hi hs hstep
  | message msg =>
    by_cases hmsg : ∃ actorId, msg = .terminateChild actorId
    · obtain ⟨actorId, rfl⟩ := hmsg
      obtain ⟨result, hterminate⟩ := terminateStep_of_handles hturn hevent
      generalize q.state = s', turn.calls = τ at hterminate ⊢
      cases hterminate with
      | unknown | released | stuck => exact h
      | terminated hlocal hid hh hwait hclean =>
        rw [(exec_cleanupChild hclean).1, hi.removed_cleaned]
        refine h.cleaned ?_
        by_contra hne
        exact hkeeps ⟨actorId, _, hevent, hlocal, hid, hne⟩
    · rw [hevent] at hstep
      exact h.message hi hstep fun actorId he => hmsg ⟨actorId, he⟩

/-! ### What is left behind stays -/

/-- Attempts are counted for a child that is gone. -/
def Stranded (s : DynamicSupervisor) : Prop := ∃ id, s.logic.backoffAttempts id ≠ none ∧ Gone s id

theorem Stranded.not_registered (h : Stranded s) : ¬BackoffRegistered s := by
  obtain ⟨id, hid, hgone⟩ := h
  intro hr
  obtain ⟨child, hchild, hcid⟩ := List.mem_map.mp (hasChildId_iff.mp (hr id hid))
  exact hgone.nowhere (Or.inl ⟨child, hchild, hcid⟩)

/-- Only the attempts of a registered child are ever forgotten. -/
theorem attempts_step {event : Event DynMsg} {reply : Option DynReply} {effs : List Effect} {id : String}
    (hstep : DynStep ctx s event reply effs s') (hid : s.logic.backoffAttempts id ≠ none) (hgone : ¬s.Mentions id) :
    s'.logic.backoffAttempts id ≠ none := by
  have hdecided : ∀ {actorId : ActorId} {reason : ExitReason} {now : Instant} {action : SupervisorAction}
      {l : SupervisorLogic}, s.logic.Decides actorId reason now action l → l.backoffAttempts id ≠ none := by
    intro actorId reason now action l hd
    rcases attempts_of_decides hd with heq | ⟨child, hchild, heq⟩
    · rwa [heq]
    · rw [heq, Table.remove_ne_none]
      refine ⟨hid, ?_⟩
      rintro rfl
      exact hgone (Or.inl ⟨child, hchild, rfl⟩)
  cases hstep with
  | idle | drawn | added | named | unnamed | spawned | terminated | released | stuck => exact hid
  | ignored hd | stopped hd => exact hdecided hd
  | @removed _ _ l _ hd => exact hdecided (l := l) hd
  | restarted hd | respawned hd =>
    simp only [localRestarted_logic, remoteRestarted_logic, SupervisorLogic.replaceChildHandle_backoffAttempts]
    exact delayed_attempts.mpr (Or.inl (hdecided hd))
  | lost hd | orphaned hd => exact delayed_attempts.mpr (Or.inl (hdecided hd))

theorem Stranded.step {event : Event DynMsg} {reply : Option DynReply} {effs : List Effect} (h : Stranded s)
    (hi : Indexed s) (hstep : DynStep ctx s event reply effs s') : Stranded s' := by
  obtain ⟨id, hid, hgone⟩ := h
  exact ⟨id, attempts_step hstep hid hgone.nowhere, hgone.step hi hstep⟩

/-- A local child that was terminated with attempts counted. -/
theorem stranded_of_leaves {rt : Runtime} {p q : Serving DynamicSupervisor} {turn : Turn DynMsg DynReply}
    (hi : Indexed p.state) (hc : Complete p.state) (hturn : (rt.dynamicSupervisor ctx).Handles p turn q)
    (hleaves : LeavesBackoff (p, turn)) : Stranded q.state := by
  obtain ⟨actorId, childId, hevent, hlocal, hid, hattempts⟩ := hleaves
  obtain ⟨handle, hh, -⟩ := hi.actor actorId childId hid
  have hhandle : p.state.handles childId ≠ none := by simp [hh]
  have hrev : ∀ n, p.state.remoteActorToId n ≠ some childId :=
    fun n hn => (hc.specs childId).mpr hhandle (hi.remote n childId hn).1
  obtain ⟨result, hterminate⟩ := terminateStep_of_handles hturn hevent
  generalize q.state = s', turn.calls = τ at hterminate ⊢
  cases hterminate with
  | unknown _ hnone => exact absurd (hnone childId hid) hhandle
  | terminated _ hid' _ _ hclean =>
    obtain rfl := Option.some.inj (hid.symm.trans hid')
    rw [(exec_cleanupChild hclean).1, hi.removed_cleaned]
    exact ⟨childId, hattempts, hi.gone_cleaned hrev (Or.inr (Or.inl hhandle))⟩
  | released hid' hr | stuck hid' hr => exact absurd ⟨_, _, hid', hr⟩ hlocal

/-- **When attempts do not outlive their child.** In every life, every child with restart attempts counted is registered
exactly when no turn has terminated a local child with attempts counted. -/
theorem backoff_registered_iff (rt : Runtime) (ctx : Context) (b : DynamicSupervisorBuilder) (τ₀ : SupTrace)
    (hist : List DynTurn) (p : Serving DynamicSupervisor) (h : (rt.dynamicSupervisor ctx).Lives b.build τ₀ hist p) :
    BackoffRegistered p.state ↔ ∀ x ∈ hist, ¬LeavesBackoff x := by
  suffices hcases : (BackoffLocal p.state ∧ ∀ x ∈ hist, ¬LeavesBackoff x) ∨
      (Stranded p.state ∧ ∃ x ∈ hist, LeavesBackoff x) by
    rcases hcases with ⟨hlocal, hnone⟩ | ⟨hstranded, x, hx, hleaves⟩
    · exact iff_of_true (hlocal.registered (complete_lives h)) hnone
    · exact iff_of_false hstranded.not_registered fun hnone => hnone x hx hleaves
  obtain ⟨s₀, hstarted, hserve⟩ := h
  refine (hserve.inv_history (I := fun hist p => (rt.dynamicSupervisor ctx).Lives b.build τ₀ hist p ∧
    ((BackoffLocal p.state ∧ ∀ x ∈ hist, ¬LeavesBackoff x) ∨ (Stranded p.state ∧ ∃ x ∈ hist, LeavesBackoff x))) ?_ ?_).2
  · have hempty : BackoffLocal s₀ := by
      rw [started_state hstarted]
      exact fun id hid => absurd rfl hid
    exact ⟨⟨s₀, hstarted, .nil⟩, Or.inl ⟨hempty, by simp⟩⟩
  · rintro hist p turn q ⟨hlives, hcases⟩ hturn
    have hi := indexed_lives hlives
    refine ⟨hlives.snoc hturn, ?_⟩
    rcases hcases with ⟨hlocal, hnone⟩ | ⟨hstranded, hsome⟩
    · by_cases hleaves : LeavesBackoff (p, turn)
      · exact Or.inr ⟨stranded_of_leaves hi (complete_lives hlives) hturn hleaves, (p, turn), by simp, hleaves⟩
      · refine Or.inl ⟨hlocal.step hi (inService_lives hlives hturn.1) hturn hleaves, fun x hx => ?_⟩
        rcases List.mem_append.mp hx with hx | hx
        · exact hnone x hx
        · rwa [List.mem_singleton.mp hx]
    · exact Or.inr ⟨hstranded.step hi (dynStep_of_handles hturn).1, exists_mem_snoc.mpr (Or.inl hsome)⟩

/-- A worker with a backoff (actor 2) crashes and is restarted (as actor 5), and then `last` happens. -/
def backoffEvents (last : Event DynMsg) : List (Event DynMsg) :=
  [.message (.startChild { id := "work", restart := .transient, backoff := .fixed 1 } none),
    .exit ⟨⟨"n", 2⟩, .panic "boom"⟩, last]

def backoffLife (last : Event DynMsg) : Life DynamicSupervisor DynMsg DynReply :=
  (Runtime.dynamicSupervisor .tasks ⟨⟨"n", 0⟩⟩).life calmAnswers ({} : DynamicSupervisorBuilder).build (backoffEvents last)

/-- Its attempt is counted while it is registered. -/
theorem backoff_registered_counted :
    (backoffLife (.message .countChildren)).last.state.logic.backoffAttempts "work#1" = some 1 ∧
      BackoffRegistered (backoffLife (.message .countChildren)).last.state := by
  refine ⟨by decide, (backoff_registered_iff .tasks ⟨⟨"n", 0⟩⟩ {} _ _ _ (Callbacks.lives_life _ calmAnswers _
    (backoffEvents (.message .countChildren)))).mpr ?_⟩
  rintro x hx ⟨actorId, childId, he, -⟩
  have hevent := Callbacks.event_life (Runtime.dynamicSupervisor .tasks ⟨⟨"n", 0⟩⟩) calmAnswers _
    (backoffEvents (.message .countChildren)) hx
  rw [he] at hevent
  simp [backoffEvents] at hevent

/-- It is terminated: nobody is registered, and its attempt stays counted. -/
theorem backoff_outlives_child :
    ¬∀ (rt : Runtime) (ctx : Context) (b : DynamicSupervisorBuilder) (τ₀ : SupTrace) (hist : List DynTurn)
      (p : Serving DynamicSupervisor), (rt.dynamicSupervisor ctx).Lives b.build τ₀ hist p →
        BackoffRegistered p.state := by
  intro h
  have hregistered := h .tasks ⟨⟨"n", 0⟩⟩ {} _ _ _ (Callbacks.lives_life _ calmAnswers _
    (backoffEvents (.message (.terminateChild 5)))) "work#1"
  exact absurd (hregistered (by decide)) (by decide)

end DynamicSupervisor

end Spawned
