import Spawned.Cluster.RemoteActorRef
import Spawned.Pool.RoundRobin

/-!
# Broadcasts to a process group

`cast` and `call` go through the members of a group one after the other, first those of this node, by its typed bucket,
then those of other nodes, by their addresses; a report says who was reached.

* `GroupProg` : what a node does, with its process groups and members, as a program that makes calls;
* `toMembers`, `toRemotes` : the two loops, for any way to tell a member something;
* `castFederatedScoped`, `callFederatedScoped` : the broadcasts of both runtimes;
* `cast_accounts`, `call_accounts` : each live member is told once, and the report has one entry for each.
-/

namespace Spawned

open Lib

/-- The calls of a broadcast. -/
inductive GroupOp (V : Type)
  | node (op : NodeOp V)
  /-- `pg::typed_members` -/
  | typedMembers (key : GroupKey)
  /-- `actor.exit_reason().is_none()` -/
  | isRunning (actor : ActorId)
  /-- `pg::member_addresses_scoped` -/
  | memberAddresses (key : GroupKey)

abbrev GroupOp.Ans {V : Type} (R : Type) : GroupOp V → Type
  | .node op => NodeOp.Ans R op
  | .typedMembers _ => List ActorId
  | .isRunning _ => Bool
  | .memberAddresses _ => List ActorAddress

abbrev GroupProg (V R : Type) := Prog (GroupOp V) (GroupOp.Ans R)

abbrev GroupTrace (V R : Type) := Trace (GroupOp V) (GroupOp.Ans (V := V) R)

structure PgSendReport where
  delivered : Nat := 0
  failed : List (ActorId × RequestError) := []
deriving DecidableEq, Repr

structure PgCallReport (R : Type) where
  ok : List (ActorId × R) := []
  failed : List (ActorId × RequestError) := []
deriving DecidableEq, Repr

def PgSendReport.add (report : PgSendReport) (id : ActorId) : Except RequestError Unit → PgSendReport
  | .ok () => { report with delivered := report.delivered + 1 }
  | .error err => { report with failed := report.failed ++ [(id, err)] }

def PgCallReport.add {R : Type} (report : PgCallReport R) (id : ActorId) : Except RequestError R → PgCallReport R
  | .ok result => { report with ok := report.ok ++ [(id, result)] }
  | .error err => { report with failed := report.failed ++ [(id, err)] }

section Programs

variable {V R X B : Type}

def ofNode {α : Type} (p : NodeProg V R α) : GroupProg V R α := p.lift GroupOp.node fun _ x => x

/-- `RemoteActorRef::remote_global`. -/
def RemoteMessage.remoteGlobal (m : RemoteMessage V R) (address : ActorAddress) : RemoteActorRef V R := { m with address }

/-- The filter of `members_scoped`. -/
def running : List ActorId → GroupProg V R (List ActorId)
  | [] => pure []
  | member :: members => do
    let alive ← Prog.op (GroupOp.isRunning member)
    let rest ← running members
    pure (if alive then member :: rest else rest)

def groupMembers (key : GroupKey) : GroupProg V R (List ActorId) := do
  let values ← Prog.op (GroupOp.typedMembers key)
  running values

/-- The loop over the members of this node. -/
def toMembers (key : GroupKey) (tell : ActorId → NodeProg V R (Except RequestError X))
    (add : B → ActorId → Except RequestError X → B) (report : B) : GroupProg V R B := do
  let members ← groupMembers key
  members.foldlM (fun report member => do
    let result ← ofNode (tell member)
    pure (add report member result)) report

/-- The loop over the addresses of all members, in which those of node `here` are passed over. -/
def toRemotes (here : NodeId) (key : GroupKey) (tell : ActorAddress → NodeProg V R (Except RequestError X))
    (add : B → ActorId → Except RequestError X → B) (report : B) : GroupProg V R B := do
  let addresses ← Prog.op (GroupOp.memberAddresses key)
  addresses.foldlM (fun report address =>
    if address.node = here then pure report
    else do
      let result ← ofNode (tell address)
      pure (add report address.actorId result)) report

/-! ## The broadcasts -/

def castScoped (key : GroupKey) (msg : V) : GroupProg V R PgSendReport :=
  toMembers key (fun member => Prog.op (NodeOp.send member msg)) PgSendReport.add {}

def castRemote (here : NodeId) (m : RemoteMessage V R) (key : GroupKey) (msg : V) (report : PgSendReport) :
    GroupProg V R PgSendReport :=
  toRemotes here key (fun address => (m.remoteGlobal address).send here msg) PgSendReport.add report

def castFederatedScoped (here : NodeId) (m : RemoteMessage V R) (key : GroupKey) (msg : V) :
    GroupProg V R PgSendReport := do
  let report ← castScoped key msg
  castRemote here m key msg report

def callScoped (key : GroupKey) (msg : V) : GroupProg V R (PgCallReport R) :=
  toMembers key (fun member => Prog.op (NodeOp.request member msg defaultRequestTimeout)) PgCallReport.add {}

/-- The request to one address of `call_remote` of the tasks runtime, -/
def callAddressTasks (here : NodeId) (m : RemoteMessage V R) (msg : V) (address : ActorAddress) :
    NodeProg V R (Except RequestError R) := do
  let rx ← (m.remoteGlobal address).requestRaw here msg
  match rx with
  | .ok rx => (m.remoteGlobal address).recv rx
  | .error err => pure (.error err)

/-- and of the threads runtime. -/
def callAddressThreads (here : NodeId) (m : RemoteMessage V R) (msg : V) (address : ActorAddress) :
    NodeProg V R (Except RequestError R) := do
  let rx ← (m.remoteGlobal address).requestRaw here msg
  match rx with
  | .ok (.remote payload) =>
    match (m.remoteGlobal address).decodeReply payload with
    | .ok result => pure (.ok result)
    | .error _ => pure (.error .remoteUnreachable)
  | .ok (.«local» _) => pure (.error .remoteUnreachable)
  | .error err => pure (.error err)

def callAddress : Runtime → NodeId → RemoteMessage V R → V → ActorAddress → NodeProg V R (Except RequestError R)
  | .tasks => callAddressTasks
  | .threads => callAddressThreads

def callRemote (runtime : Runtime) (here : NodeId) (m : RemoteMessage V R) (key : GroupKey) (msg : V)
    (report : PgCallReport R) : GroupProg V R (PgCallReport R) :=
  toRemotes here key (callAddress runtime here m msg) PgCallReport.add report

def callFederatedScoped (runtime : Runtime) (here : NodeId) (m : RemoteMessage V R) (key : GroupKey) (msg : V) :
    GroupProg V R (PgCallReport R) := do
  let report ← callScoped key msg
  callRemote runtime here m key msg report

/-! ## What was said to whom -/

variable {here : NodeId} {key : GroupKey} {m : RemoteMessage V R} {msg : V} {τ : GroupTrace V R}

/-- The calls on actors and the transport. -/
def nodeCalls (τ : GroupTrace V R) : NodeTrace V R :=
  τ.filterMap fun
    | ⟨.node op, ans⟩ => some ⟨op, ans⟩
    | _ => none

theorem nodeCalls_append (τ σ : GroupTrace V R) : nodeCalls (τ ++ σ) = nodeCalls τ ++ nodeCalls σ :=
  List.filterMap_append

/-- An address, and what came of telling it. -/
abbrev GroupOutcome (X : Type) := ActorAddress × Except RequestError X

/-- What a member is told: a message, or what it is on the wire. -/
inductive Said (V : Type)
  | message (msg : V)
  | payload (remoteMsgId : String) (payload : Bytes)
deriving DecidableEq, Repr

/-- An address, what it was told, and what came of it. -/
abbrev GroupCall (V X : Type) := ActorAddress × Said V × Except RequestError X

/-- The outcomes of the calls of a broadcast, as `read` takes them from the single calls. -/
def outcomes (read : Call (NodeOp V) (NodeOp.Ans R) → Option (GroupCall V X)) (τ : GroupTrace V R) : List (GroupCall V X) :=
  (nodeCalls τ).filterMap read

/-- Of `cast`: a send to an actor of node `here`, or an envelope. -/
def castOutcome (here : NodeId) : Call (NodeOp V) (NodeOp.Ans R) → Option (GroupCall V Unit)
  | ⟨.send recipient msg, sent⟩ => some (⟨here, recipient⟩, .message msg, sent)
  | ⟨.sendEnvelope envelope, sent⟩ =>
    some (envelope.to, .payload envelope.remoteMsgId envelope.payload, sent.mapError mapTransportError)
  | _ => none

/-- Of `call`: a request to an actor of node `here`, or an envelope and the decoding of its reply. -/
def callOutcome (here : NodeId) (m : RemoteMessage V R) : Call (NodeOp V) (NodeOp.Ans R) → Option (GroupCall V R)
  | ⟨.request recipient msg _, result⟩ => some (⟨here, recipient⟩, .message msg, result)
  | ⟨.requestEnvelope envelope, payload⟩ =>
    some (envelope.to, .payload envelope.remoteMsgId envelope.payload,
      (payload.mapError mapTransportError).bind (m.remoteGlobal envelope.to).decoded)
  | _ => none

/-- Who is told: the live ones of the values found in the bucket, and then the addresses found of other nodes. -/
def groupTargets (here : NodeId) (values : List ActorId) (alive : ActorId → Bool) (addresses : List ActorAddress) :
    List ActorAddress :=
  (values.filter alive).map (⟨here, ·⟩) ++ addresses.filter (·.node ≠ here)

/-- Telling the address is one call, which says `said` and has the result as its outcome; or none at all, if the message could
not be written. -/
def Tells (read : Call (NodeOp V) (NodeOp.Ans R) → Option (GroupCall V X)) (said : Option (Said V)) (address : ActorAddress)
    (p : NodeProg V R (Except RequestError X)) : Prop :=
  ∀ σ x, p.Exec σ x →
    σ.filterMap read = (said.map fun what => (address, what, x)).toList ∧ (said = none → x = .error .remoteUnreachable)

/-- Each target was told, and the calls were those for which there was something to say. -/
structure ToldEach (read : Call (NodeOp V) (NodeOp.Ans R) → Option (GroupCall V X)) (said : ActorAddress → Option (Said V))
    (τ : GroupTrace V R) (targets : List ActorAddress) (results : List (GroupOutcome X)) : Prop where
  each : results.map (·.1) = targets
  calls : outcomes read τ = results.filterMap fun o => (said o.1).map fun what => (o.1, what, o.2)
  unsent : ∀ o ∈ results, said o.1 = none → o.2 = .error .remoteUnreachable

/-- What the group store and the members answer during a broadcast. -/
def Answers (values : List ActorId) (alive : ActorId → Bool) (addresses : List ActorAddress) :
    Call (GroupOp V) (GroupOp.Ans R) → Prop
  | ⟨.typedMembers _, ans⟩ => ans = values
  | ⟨.isRunning actor, ans⟩ => ans = alive actor
  | ⟨.memberAddresses _, ans⟩ => ans = addresses
  | _ => True

variable {values : List ActorId} {alive : ActorId → Bool} {addresses : List ActorAddress}
  {read : Call (NodeOp V) (NodeOp.Ans R) → Option (GroupCall V X)} {said : ActorAddress → Option (Said V)}

theorem exec_ofNode {α : Type} {p : NodeProg V R α} {x : α} (h : (ofNode p).Exec τ x) : p.Exec (nodeCalls τ) x := by
  induction p generalizing τ with
  | pure a =>
    obtain ⟨rfl, rfl⟩ := h
    exact ⟨rfl, rfl⟩
  | call e k ih =>
    obtain ⟨ans, τ', rfl, h⟩ := h
    exact ⟨ans, nodeCalls τ', rfl, ih ans h⟩

theorem exec_running {members live : List ActorId} (h : (running members).Exec τ live)
    (hans : ∀ c ∈ τ, Answers values alive addresses c) : live = members.filter alive ∧ nodeCalls τ = [] := by
  induction members generalizing τ live with
  | nil =>
    obtain ⟨rfl, rfl⟩ := h
    exact ⟨rfl, rfl⟩
  | cons member members ih =>
    obtain ⟨b, τ', rfl, hbody⟩ := Prog.exec_op_bind.mp h
    obtain ⟨rest, hrest, rfl⟩ := Prog.exec_bind_pure.mp hbody
    obtain ⟨rfl, hcalls⟩ := ih hrest fun c hc => hans c (List.mem_cons_of_mem _ hc)
    have hb : b = alive member := hans ⟨.isRunning member, b⟩ (List.mem_cons_self ..)
    refine ⟨?_, hcalls⟩
    rw [hb, List.filter_cons]

theorem outcomes_append (τ σ : GroupTrace V R) : outcomes read (τ ++ σ) = outcomes read τ ++ outcomes read σ := by
  rw [outcomes, nodeCalls_append, List.filterMap_append, ← outcomes, ← outcomes]

theorem ToldEach.append {τ' : GroupTrace V R} {targets targets' : List ActorAddress} {results results' : List (GroupOutcome X)}
    (h : ToldEach read said τ targets results) (h' : ToldEach read said τ' targets' results') :
    ToldEach read said (τ ++ τ') (targets ++ targets') (results ++ results') where
  each := by rw [List.map_append, h.each, h'.each]
  calls := by rw [outcomes_append, List.filterMap_append, h.calls, h'.calls]
  unsent o ho := (List.mem_append.mp ho).elim (h.unsent o) (h'.unsent o)

/-- One address is told. -/
theorem toldEach_single {address : ActorAddress} {x : Except RequestError X}
    (hread : outcomes read τ = ((said address).map fun what => (address, what, x)).toList)
    (hunsent : said address = none → x = .error .remoteUnreachable) : ToldEach read said τ [address] [(address, x)] := by
  refine ⟨rfl, hread.trans ?_, by simpa using hunsent⟩
  cases hsaid : said address <;> simp [hsaid]

/-- A loop that tells each of its targets makes the report of their results. -/
theorem exec_tellEach {T : Type} {tell : T → NodeProg V R (Except RequestError X)} (address : T → ActorAddress)
    {add : B → ActorId → Except RequestError X → B} {targets : List T}
    (htells : ∀ t ∈ targets, Tells read (said (address t)) (address t) (tell t)) {b b' : B}
    (h : (targets.foldlM (fun b t => ofNode (tell t) >>= fun x => pure (add b (address t).actorId x)) b).Exec τ b') :
    ∃ results, ToldEach read said τ (targets.map address) results ∧
      b' = results.foldl (fun b o => add b o.1.actorId o.2) b := by
  obtain ⟨os, hos, rfl, rfl⟩ :=
    (Prog.exec_foldlM (fun t => ofNode (tell t)) (fun b t x => add b (address t).actorId x)).mp h
  clear h
  induction hos generalizing b with
  | nil => exact ⟨[], ⟨rfl, rfl, by simp⟩, rfl⟩
  | @cons t o targets os ho hos ih =>
    obtain ⟨hread, hunsent⟩ := htells t (by simp) _ _ (exec_ofNode ho)
    obtain ⟨results, htold, hfold⟩ := ih (fun t ht => htells t (by simp [ht])) (b := add b (address t).actorId o.2)
    have hone : ToldEach read said o.1 [address t] [(address t, o.2)] := toldEach_single hread hunsent
    exact ⟨(address t, o.2) :: results, hone.append htold, hfold⟩

theorem outcomes_of_nil (h : nodeCalls τ = []) : outcomes read τ = [] := by
  rw [outcomes, h, List.filterMap_nil]

theorem foldlM_skip {T E : Type} {A : E → Type} {p : T → Prop} [DecidablePred p] (f : B → T → Prog E A B) (ts : List T)
    (b : B) : ts.foldlM (fun b t => if p t then pure b else f b t) b = (ts.filter fun t => ¬p t).foldlM f b := by
  induction ts generalizing b with
  | nil => rfl
  | cons t ts ih =>
    rw [List.foldlM_cons]
    by_cases ht : p t
    · rw [if_pos ht, Prog.pure_bind', List.filter_cons_of_neg (by simpa using ht), ih]
    · rw [if_neg ht, List.filter_cons_of_pos (by simpa using ht), List.foldlM_cons]
      exact congrArg (f b t >>= ·) (funext ih)

/-- The live members of this node, in the order of the bucket. -/
theorem exec_toMembers {tell : ActorId → NodeProg V R (Except RequestError X)}
    {add : B → ActorId → Except RequestError X → B} {b b' : B}
    (htells : ∀ member, Tells read (said ⟨here, member⟩) ⟨here, member⟩ (tell member))
    (h : (toMembers key tell add b).Exec τ b') (hans : ∀ c ∈ τ, Answers values alive addresses c) :
    ∃ results, ToldEach read said τ ((values.filter alive).map (⟨here, ·⟩)) results ∧
      b' = results.foldl (fun b o => add b o.1.actorId o.2) b := by
  obtain ⟨τ₁, live, τ₂, rfl, hmembers, hloop⟩ := Prog.exec_bind.mp h
  obtain ⟨values', τ₁, rfl, hrunning⟩ := Prog.exec_op_bind.mp hmembers
  obtain rfl : values' = values := hans ⟨.typedMembers key, values'⟩ (by simp)
  have hrest : ∀ c ∈ τ₁, Answers values' alive addresses c := fun c hc => hans c (by simp [hc])
  obtain ⟨rfl, hcalls⟩ := exec_running hrunning hrest
  obtain ⟨results, htold, hfold⟩ := exec_tellEach (fun member => ⟨here, member⟩) (fun member _ => htells member) hloop
  refine ⟨results, ⟨htold.each, ?_, htold.unsent⟩, hfold⟩
  have hnone : nodeCalls (⟨.typedMembers key, values'⟩ :: τ₁) = [] := hcalls
  rw [outcomes_append, outcomes_of_nil hnone, List.nil_append, htold.calls]

/-- The members on other nodes, in the order of their addresses. -/
theorem exec_toRemotes {tell : ActorAddress → NodeProg V R (Except RequestError X)}
    {add : B → ActorId → Except RequestError X → B} {b b' : B}
    (htells : ∀ address : ActorAddress, address.node ≠ here → Tells read (said address) address (tell address))
    (h : (toRemotes here key tell add b).Exec τ b') (hans : ∀ c ∈ τ, Answers values alive addresses c) :
    ∃ results, ToldEach read said τ (addresses.filter (·.node ≠ here)) results ∧
      b' = results.foldl (fun b o => add b o.1.actorId o.2) b := by
  obtain ⟨addresses', τ', rfl, hloop⟩ := Prog.exec_op_bind.mp h
  obtain rfl : addresses' = addresses := hans ⟨.memberAddresses key, addresses'⟩ (by simp)
  rw [foldlM_skip] at hloop
  obtain ⟨results, htold, hfold⟩ := exec_tellEach (fun address => address)
    (fun address ha => htells address (by simpa using (List.mem_filter.mp ha).2)) hloop
  rw [List.map_id'] at htold
  exact ⟨results, ⟨htold.each, htold.calls, htold.unsent⟩, hfold⟩

/-- Both loops. -/
theorem exec_federated {tell : ActorId → NodeProg V R (Except RequestError X)}
    {tellRemote : ActorAddress → NodeProg V R (Except RequestError X)} {add : B → ActorId → Except RequestError X → B}
    {b b' : B} (htells : ∀ member, Tells read (said ⟨here, member⟩) ⟨here, member⟩ (tell member))
    (hremote : ∀ address : ActorAddress, address.node ≠ here → Tells read (said address) address (tellRemote address))
    (h : (toMembers key tell add b >>= fun b => toRemotes here key tellRemote add b).Exec τ b')
    (hans : ∀ c ∈ τ, Answers values alive addresses c) :
    ∃ results, ToldEach read said τ (groupTargets here values alive addresses) results ∧
      b' = results.foldl (fun b o => add b o.1.actorId o.2) b := by
  obtain ⟨τ₁, c, τ₂, rfl, h₁, h₂⟩ := Prog.exec_bind.mp h
  obtain ⟨results₁, htold₁, hfold₁⟩ := exec_toMembers htells h₁ fun c hc => hans c (by simp [hc])
  obtain ⟨results₂, htold₂, hfold₂⟩ := exec_toRemotes hremote h₂ fun c hc => hans c (by simp [hc])
  refine ⟨results₁ ++ results₂, htold₁.append htold₂, ?_⟩
  rw [List.foldl_append, ← hfold₁]
  exact hfold₂

/-! ## Sends and requests -/

/-- A member of another node is told what can be written of the message. -/
def RemoteMessage.saidTo (m : RemoteMessage V R) (here : NodeId) (msg : V) (address : ActorAddress) : Option (Said V) :=
  if address.node = here then some (.message msg) else (m.toAllocvec msg).toOption.map (.payload m.remoteId)

theorem saidTo_here (member : ActorId) : m.saidTo here msg ⟨here, member⟩ = some (.message msg) := if_pos rfl

theorem saidTo_of_ne {address : ActorAddress} (h : address.node ≠ here) :
    m.saidTo here msg address = (m.toAllocvec msg).toOption.map (.payload m.remoteId) := if_neg h

theorem tells_send (member : ActorId) :
    Tells (castOutcome here) (m.saidTo here msg ⟨here, member⟩) ⟨here, member⟩
      (Prog.op (NodeOp.send member msg) : NodeProg V R _) := by
  intro σ x h
  rw [Prog.exec_op] at h
  rw [h, saidTo_here]
  exact ⟨rfl, by simp⟩

theorem tells_request (member : ActorId) (timeout : Nat) :
    Tells (callOutcome here m) (m.saidTo here msg ⟨here, member⟩) ⟨here, member⟩
      (Prog.op (NodeOp.request member msg timeout) : NodeProg V R _) := by
  intro σ x h
  rw [Prog.exec_op] at h
  rw [h, saidTo_here]
  exact ⟨rfl, by simp⟩

theorem localOn_remoteGlobal (address : ActorAddress) : (m.remoteGlobal address).localOn here = none := by
  unfold RemoteActorRef.localOn
  split <;> rfl

theorem tells_remote_send (address : ActorAddress) (ha : address.node ≠ here) :
    Tells (castOutcome here) (m.saidTo here msg address) address ((m.remoteGlobal address).send here msg) := by
  intro σ x h
  rw [RemoteActorRef.send, localOn_remoteGlobal] at h
  rw [saidTo_of_ne ha]
  cases hpayload : m.toAllocvec msg with
  | error e =>
    have henvelope : (m.remoteGlobal address).envelope msg 0 = .error (.encode e) :=
      RemoteActorRef.envelope_error hpayload 0
    rw [henvelope] at h
    obtain ⟨rfl, rfl⟩ := h
    exact ⟨rfl, fun _ => rfl⟩
  | ok payload =>
    have henvelope : (m.remoteGlobal address).envelope msg 0 = .ok ⟨address, m.remoteId, payload, 0⟩ :=
      RemoteActorRef.envelope_ok hpayload 0
    rw [henvelope] at h
    obtain ⟨sent, hsent, rfl⟩ := Prog.exec_bind_pure.mp h
    rw [Prog.exec_op] at hsent
    rw [hsent]
    exact ⟨rfl, by simp [Except.toOption]⟩

/-- A raw request across nodes is one envelope, if it can be written. -/
theorem exec_requestRaw {address : ActorAddress} {σ : NodeTrace V R} {rx : Except RequestError RemoteRequest} :
    ((m.remoteGlobal address).requestRaw here msg).Exec σ rx ↔ ∃ c,
      match m.toAllocvec msg with
      | .error _ => σ = [⟨.nextCorrelationId, c⟩] ∧ rx = .error .remoteUnreachable
      | .ok payload => ∃ reply,
        σ = [⟨.nextCorrelationId, c⟩, ⟨.requestEnvelope ⟨address, m.remoteId, payload, c⟩, reply⟩] ∧
          rx = (reply.mapError mapTransportError).map .remote := by
  rw [RemoteActorRef.requestRaw, localOn_remoteGlobal]
  cases hpayload : m.toAllocvec msg with
  | error e =>
    have henvelope : ∀ c, (m.remoteGlobal address).envelope msg c = .error (.encode e) :=
      RemoteActorRef.envelope_error hpayload
    simp only [Prog.exec_bind_pure, RemoteActorRef.requestRemote, RemoteActorRef.requestWith, henvelope, Prog.exec_op]
    constructor
    · rintro ⟨_, ⟨c, rfl, rfl⟩, rfl⟩
      exact ⟨c, rfl, rfl⟩
    · rintro ⟨c, rfl, rfl⟩
      exact ⟨_, ⟨c, rfl, rfl⟩, rfl⟩
  | ok payload =>
    have henvelope : ∀ c, (m.remoteGlobal address).envelope msg c = .ok ⟨address, m.remoteId, payload, c⟩ :=
      RemoteActorRef.envelope_ok hpayload
    simp only [Prog.exec_bind_pure, RemoteActorRef.requestRemote, RemoteActorRef.requestWith, Prog.exec_op_bind, henvelope,
      Prog.exec_op]
    constructor
    · rintro ⟨_, ⟨c, σ, rfl, reply, rfl, rfl⟩, rfl⟩
      exact ⟨c, reply, rfl, rfl⟩
    · rintro ⟨c, reply, rfl, rfl⟩
      exact ⟨_, ⟨c, _, rfl, reply, rfl, rfl⟩, rfl⟩

theorem remote_of_requestRaw {address : ActorAddress} {σ : NodeTrace V R} {rx : Except RequestError RemoteRequest}
    (h : ((m.remoteGlobal address).requestRaw here msg).Exec σ rx) :
    ∃ payload : Except RequestError Bytes, rx = payload.map .remote := by
  rw [RemoteActorRef.requestRaw, localOn_remoteGlobal] at h
  obtain ⟨payload, -, rfl⟩ := Prog.exec_bind_pure.mp h
  exact ⟨payload, rfl⟩

/-- The two runtimes make the same of a raw request. -/
theorem exec_callAddress (runtime : Runtime) {address : ActorAddress} {σ : NodeTrace V R} {x : Except RequestError R}
    (h : (callAddress runtime here m msg address).Exec σ x) : ∃ payload : Except RequestError Bytes,
      ((m.remoteGlobal address).requestRaw here msg).Exec σ (payload.map .remote) ∧
        x = payload.bind (m.remoteGlobal address).decoded := by
  cases runtime with
  | tasks =>
    obtain ⟨σ₁, rx, σ₂, rfl, hraw, hrest⟩ := Prog.exec_bind.mp h
    obtain ⟨payload, rfl⟩ := remote_of_requestRaw hraw
    cases payload with
    | error err =>
      obtain ⟨rfl, rfl⟩ := hrest
      exact ⟨.error err, by rwa [List.append_nil], rfl⟩
    | ok bytes =>
      obtain ⟨rfl, rfl⟩ := hrest
      exact ⟨.ok bytes, by rwa [List.append_nil], rfl⟩
  | threads =>
    obtain ⟨σ₁, rx, σ₂, rfl, hraw, hrest⟩ := Prog.exec_bind.mp h
    obtain ⟨payload, rfl⟩ := remote_of_requestRaw hraw
    cases payload with
    | error err =>
      obtain ⟨rfl, rfl⟩ := hrest
      exact ⟨.error err, by rwa [List.append_nil], rfl⟩
    | ok bytes =>
      simp only [Except.map] at hrest
      cases hreply : (m.remoteGlobal address).decodeReply bytes with
      | error err =>
        rw [hreply] at hrest
        obtain ⟨rfl, rfl⟩ := hrest
        refine ⟨.ok bytes, by rwa [List.append_nil], ?_⟩
        simp [Except.bind, RemoteActorRef.decoded, hreply, Except.mapError]
      | ok result =>
        rw [hreply] at hrest
        obtain ⟨rfl, rfl⟩ := hrest
        refine ⟨.ok bytes, by rwa [List.append_nil], ?_⟩
        simp [Except.bind, RemoteActorRef.decoded, hreply, Except.mapError]

/-- The two runtimes handle the reply alike. -/
theorem tells_callAddress (runtime : Runtime) (address : ActorAddress) (ha : address.node ≠ here) :
    Tells (callOutcome here m) (m.saidTo here msg address) address (callAddress runtime here m msg address) := by
  intro σ x h
  rw [saidTo_of_ne ha]
  obtain ⟨rx, hraw, rfl⟩ := exec_callAddress runtime h
  obtain ⟨c, hcase⟩ := exec_requestRaw.mp hraw
  cases hpayload : m.toAllocvec msg with
  | error e =>
    simp only [hpayload] at hcase
    obtain ⟨rfl, hrx⟩ := hcase
    cases rx with
    | error err =>
      cases hrx
      exact ⟨rfl, fun _ => rfl⟩
    | ok bytes => cases hrx
  | ok payload =>
    simp only [hpayload] at hcase
    obtain ⟨reply, rfl, hrx⟩ := hcase
    have hrx : rx = reply.mapError mapTransportError := by
      cases rx <;> cases reply <;> cases hrx <;> rfl
    rw [hrx]
    exact ⟨rfl, by simp [Except.toOption]⟩

end Programs

/-! ## The members of a group -/

section Members

variable {V : Type} {here : NodeId} {key : GroupKey} {type : TypeId}

theorem mem_elim_keys {K A W : Type} [DecidableEq A] {tables : Nested K A W} {k : K} {a : A} :
    a ∈ (tables k).elim [] AList.keys ↔ tables.Has k a := by
  unfold Nested.Has
  cases tables k with
  | none => simp
  | some inner => simp [AList.mem_keys]

theorem nodup_elim_keys {K A W : Type} (tables : Nested K A W) (k : K) : ((tables k).elim [] AList.keys).Nodup := by
  cases tables k with
  | none => exact List.nodup_nil
  | some inner => exact AList.keys_nodup inner

/-- Among the addresses of a group those of other nodes are the federated ones, each there once. -/
theorem remote_addresses {τ : List (PgNode V × PgCall V)} {s : PgNode V} (h : Run (PgNode.Step here) {} τ s)
    (key : GroupKey) (alive : ActorId → Bool) :
    ((s.tables.memberAddressesScoped alive key).1.filter (·.node ≠ here)).Nodup ∧
      ∀ a : ActorAddress, a ∈ (s.tables.memberAddressesScoped alive key).1.filter (·.node ≠ here) ↔
        s.tables.remote.Has key a ∧ a.node ≠ here := by
  simp only [PgTables.memberAddressesScoped]
  set pruned := s.tables.groups.onInner key fun members => members.retain fun member => alive member.handle with hpruned
  set groups := if pruned.vacant key then Table.remove pruned key else pruned with hgroups
  have hmembers : ∀ a ∈ (groups key).elim [] AList.keys, a.node = here := by
    intro a ha
    have hkept : pruned.Has key a := by
      have ha := mem_elim_keys.mp ha
      rw [hgroups] at ha
      split_ifs at ha with hvacant
      · exact (Nested.has_remove_vacant hvacant).mp ha
      · exact ha
    obtain ⟨member, hholds, -⟩ := Nested.has_onInner_retain.mp hkept
    rw [handle_of_member h (Nested.get_eq_some.mpr hholds)]
  have hnone : ((groups key).elim [] AList.keys).filter (·.node ≠ here) = [] :=
    List.filter_eq_nil_iff.mpr fun a ha => by simp [hmembers a ha]
  rw [List.filter_append, hnone, List.nil_append]
  refine ⟨(nodup_elim_keys _ key).filter _, fun a => ?_⟩
  rw [List.mem_filter, mem_elim_keys, decide_eq_true_iff]

/-- Who a broadcast is for: each member once, its own before those of other nodes. -/
structure Members (here : NodeId) (key : GroupKey) (type : TypeId) (alive : ActorId → Bool)
    (store store' : PgTables ActorId) (targets : List ActorAddress) : Prop where
  nodup : targets.Nodup
  mem : ∀ a : ActorAddress, a ∈ targets ↔
    store.typed.Has (key, type) a ∧ alive a.actorId = true ∨ store'.remote.Has key a ∧ a.node ≠ here
  own_first : targets.Pairwise fun a b : ActorAddress => b.node = here → a.node = here

/-- The live values of the bucket, found in one state, and the addresses found in another. -/
theorem members_of_run {τ τ' : List (PgNode ActorId × PgCall ActorId)} {s s' : PgNode ActorId}
    (h : Run (PgNode.Step here) {} τ s) (hown : ∀ x ∈ τ, OwnValue x.2) {values : List ActorId}
    (hvalues : s.tables.TypedMembers key type values) (h' : Run (PgNode.Step here) {} τ' s')
    (alive alive' : ActorId → Bool) :
    Members here key type alive s.tables s'.tables
      (groupTargets here values alive (s'.tables.memberAddressesScoped alive' key).1) := by
  have haddress : ∀ a id, s.tables.typed.Holds (key, type) a id → a = ⟨here, id⟩ :=
    fun a id hholds => address_of_value h hown (Nested.get_eq_some.mpr hholds)
  obtain ⟨hnodup, hremote⟩ := remote_addresses h' key alive'
  have hlocal : ∀ a : ActorAddress, a ∈ (values.filter alive).map (⟨here, ·⟩) ↔
      s.tables.typed.Has (key, type) a ∧ alive a.actorId = true := by
    intro a
    rw [List.mem_map, Nested.has_iff_holds]
    constructor
    · rintro ⟨id, hid, rfl⟩
      obtain ⟨⟨a, hholds⟩, halive⟩ := (mem_membersScoped hvalues).mp hid
      obtain rfl := haddress a id hholds
      exact ⟨⟨id, hholds⟩, halive⟩
    · rintro ⟨⟨id, hholds⟩, halive⟩
      obtain rfl := haddress a id hholds
      exact ⟨id, (mem_membersScoped hvalues).mpr ⟨⟨_, hholds⟩, halive⟩, rfl⟩
  have hhere : ∀ a : ActorAddress, a ∈ (values.filter alive).map (⟨here, ·⟩) → a.node = here := by
    rintro _ ha
    obtain ⟨id, -, rfl⟩ := List.mem_map.mp ha
    rfl
  refine ⟨?_, fun a => ?_, ?_⟩
  · have hids := (nodup_of_own hvalues haddress).filter alive
    refine (hids.map fun x y hxy => congrArg ActorAddress.actorId hxy).append hnodup fun a ha hb => ?_
    exact ((hremote a).mp hb).2 (hhere a ha)
  · rw [groupTargets, List.mem_append, hlocal, hremote]
  · refine List.pairwise_append.mpr ⟨?_, ?_, fun a ha b _ _ => hhere a ha⟩
    · exact List.pairwise_iff_getElem.mpr fun i j hi hj _ _ => hhere _ (List.getElem_mem hi)
    · refine List.pairwise_iff_getElem.mpr fun i j hi hj _ hb => absurd hb ((hremote _).mp (List.getElem_mem hj)).2

end Members

/-! ## The reports -/

def failures {X : Type} (results : List (GroupOutcome X)) : List (ActorId × RequestError) :=
  results.filterMap fun o =>
    match o.2 with
    | .ok _ => none
    | .error err => some (o.1.actorId, err)

def successes {X : Type} (results : List (GroupOutcome X)) : List (ActorId × X) :=
  results.filterMap fun o => o.2.toOption.map (o.1.actorId, ·)

theorem foldl_sendReport (results : List (GroupOutcome Unit)) (report : PgSendReport) :
    results.foldl (fun b o => b.add o.1.actorId o.2) report =
      { delivered := report.delivered + (successes results).length, failed := report.failed ++ failures results } := by
  induction results generalizing report with
  | nil => simp [successes, failures]
  | cons o results ih =>
    obtain ⟨address, x⟩ := o
    rw [List.foldl_cons, ih]
    cases x <;> simp [PgSendReport.add, successes, failures, Except.toOption, Nat.add_assoc, Nat.add_comm 1]

theorem foldl_callReport {R : Type} (results : List (GroupOutcome R)) (report : PgCallReport R) :
    results.foldl (fun b o => b.add o.1.actorId o.2) report =
      { ok := report.ok ++ successes results, failed := report.failed ++ failures results } := by
  induction results generalizing report with
  | nil => simp [successes, failures]
  | cons o results ih =>
    obtain ⟨address, x⟩ := o
    rw [List.foldl_cons, ih]
    cases x <;> simp [PgCallReport.add, successes, failures, Except.toOption]

section Accounts

variable {V R : Type} {here : NodeId} {key : GroupKey} {type : TypeId} {m : RemoteMessage V R} {msg : V}
  {τ : GroupTrace V R} {ρ ρ' : List (PgNode ActorId × PgCall ActorId)} {s s' : PgNode ActorId} (values : List ActorId)
  {alive : ActorId → Bool}

/-- **A federated cast.** It finds the bucket of the group in one state of the node and the addresses in another. It gives
the message to each live member of the bucket and then what it is on the wire to each member on other nodes, once each; of
the results, in this order, it counts the good ones and lists the others, each by the id of its actor. A message that cannot
be written is not sent to other nodes: their members are listed as out of reach. -/
theorem cast_accounts (h : Run (PgNode.Step here) {} ρ s) (hown : ∀ x ∈ ρ, OwnValue x.2)
    (hvalues : s.tables.TypedMembers key type values) (h' : Run (PgNode.Step here) {} ρ' s') {report : PgSendReport}
    (hexec : (castFederatedScoped here m key msg).Exec τ report)
    (hans : ∀ c ∈ τ, Answers values alive (s'.tables.memberAddressesScoped s'.alive key).1 c) :
    ∃ results, Members here key type alive s.tables s'.tables
        (groupTargets here values alive (s'.tables.memberAddressesScoped s'.alive key).1) ∧
      ToldEach (castOutcome here) (m.saidTo here msg) τ
        (groupTargets here values alive (s'.tables.memberAddressesScoped s'.alive key).1) results ∧
      report = { delivered := (successes results).length, failed := failures results } := by
  obtain ⟨results, htold, hreport⟩ := exec_federated tells_send tells_remote_send hexec hans
  refine ⟨results, members_of_run h hown hvalues h' alive s'.alive, htold, ?_⟩
  rw [hreport, foldl_sendReport]
  simp

/-- A group with two members on node `n` and one on node `p`. -/
def acrossNodes : List (PgCall ActorId) :=
  joinedInTurn ++ [.applyRemotePgEvent (.join ⟨"default", "g"⟩ ⟨"p", 7⟩)]

/-- The actor 2 has exited, and node `p` is out of reach. -/
def castAcross : GroupTrace UInt8 UInt8 :=
  [⟨.typedMembers ⟨"default", "g"⟩, [1, 2]⟩, ⟨.isRunning 1, true⟩, ⟨.isRunning 2, false⟩, ⟨.node (.send 1 7), .ok ()⟩,
    ⟨.memberAddresses ⟨"default", "g"⟩, [⟨"n", 2⟩, ⟨"n", 1⟩, ⟨"p", 7⟩]⟩,
    ⟨.node (.sendEnvelope ⟨⟨"p", 7⟩, "spawned.test.A/v1", [7], 0⟩), .error (.io "connection refused")⟩]

theorem cast_accounts_across :
    ∃ s : PgNode ActorId, ∃ results,
      Members "n" ⟨"default", "g"⟩ "A" (· ≠ 2) s.tables s.tables [⟨"n", 1⟩, ⟨"p", 7⟩] ∧
      ToldEach (castOutcome "n") ((byteRef "spawned.test.A/v1").saidTo "n" 7) castAcross [⟨"n", 1⟩, ⟨"p", 7⟩] results ∧
      (⟨1, [(7, .remoteUnreachable)]⟩ : PgSendReport) =
        { delivered := (successes results).length, failed := failures results } := by
  have hrun : Run (PgNode.Step "n") ({} : PgNode ActorId) _ _ :=
    run_tryPlay (PgNode.next "n") {} acrossNodes (by decide)
  refine ⟨_, cast_accounts [1, 2] hrun (by decide) (by unfold PgTables.TypedMembers; decide) hrun ?_ ?_⟩
  · exact ⟨_, _, rfl, _, _, rfl, _, _, rfl, _, _, rfl, _, _, rfl, _, _, rfl, rfl, rfl⟩
  · simp only [castAcross, List.forall_mem_cons]
    exact ⟨rfl, rfl, rfl, trivial, rfl, trivial, by simp⟩

/-- **A federated call**, in either runtime: the same with requests, and the report has all replies and all errors in this
order. A reply that does not decode is out of reach as well. -/
theorem call_accounts (runtime : Runtime) (h : Run (PgNode.Step here) {} ρ s) (hown : ∀ x ∈ ρ, OwnValue x.2)
    (hvalues : s.tables.TypedMembers key type values) (h' : Run (PgNode.Step here) {} ρ' s') {report : PgCallReport R}
    (hexec : (callFederatedScoped runtime here m key msg).Exec τ report)
    (hans : ∀ c ∈ τ, Answers values alive (s'.tables.memberAddressesScoped s'.alive key).1 c) :
    ∃ results, Members here key type alive s.tables s'.tables
        (groupTargets here values alive (s'.tables.memberAddressesScoped s'.alive key).1) ∧
      ToldEach (callOutcome here m) (m.saidTo here msg) τ
        (groupTargets here values alive (s'.tables.memberAddressesScoped s'.alive key).1) results ∧
      report = { ok := successes results, failed := failures results } := by
  obtain ⟨results, htold, hreport⟩ := exec_federated (tells_request · _) (tells_callAddress runtime) hexec hans
  refine ⟨results, members_of_run h hown hvalues h' alive s'.alive, htold, ?_⟩
  rw [hreport, foldl_callReport]
  simp

/-- The actor 2 exits while it is asked; the actor on node `p` answers. -/
def callAcross : GroupTrace UInt8 UInt8 :=
  [⟨.typedMembers ⟨"default", "g"⟩, [1, 2]⟩, ⟨.isRunning 1, true⟩, ⟨.isRunning 2, true⟩, ⟨.node (.request 1 7 5), .ok 8⟩,
    ⟨.node (.request 2 7 5), .error (.actor .actorStopped)⟩,
    ⟨.memberAddresses ⟨"default", "g"⟩, [⟨"n", 2⟩, ⟨"n", 1⟩, ⟨"p", 7⟩]⟩, ⟨.node .nextCorrelationId, (1 : Nat)⟩,
    ⟨.node (.requestEnvelope ⟨⟨"p", 7⟩, "spawned.test.A/v1", [7], 1⟩), .ok [9]⟩]

theorem call_accounts_across :
    ∃ s : PgNode ActorId, ∃ results,
      Members "n" ⟨"default", "g"⟩ "A" (fun _ => true) s.tables s.tables [⟨"n", 1⟩, ⟨"n", 2⟩, ⟨"p", 7⟩] ∧
      ToldEach (callOutcome "n" (byteRef "spawned.test.A/v1").toRemoteMessage)
        ((byteRef "spawned.test.A/v1").saidTo "n" 7) callAcross [⟨"n", 1⟩, ⟨"n", 2⟩, ⟨"p", 7⟩] results ∧
      (⟨[(1, 8), (7, 9)], [(2, .actor .actorStopped)]⟩ : PgCallReport UInt8) =
        { ok := successes results, failed := failures results } := by
  have hrun : Run (PgNode.Step "n") ({} : PgNode ActorId) _ _ :=
    run_tryPlay (PgNode.next "n") {} acrossNodes (by decide)
  refine ⟨_, call_accounts [1, 2] .threads hrun (by decide) (by unfold PgTables.TypedMembers; decide) hrun ?_ ?_⟩
  · exact ⟨_, _, rfl, _, _, rfl, _, _, rfl, _, _, rfl, _, _, rfl, _, _, rfl, _, _, rfl, _, _, rfl, rfl, rfl⟩
  · simp only [callAcross, List.forall_mem_cons]
    exact ⟨rfl, rfl, rfl, trivial, trivial, rfl, trivial, trivial, by simp⟩

end Accounts

end Spawned
