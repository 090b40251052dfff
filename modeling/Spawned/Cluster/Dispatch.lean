import Mathlib.Data.List.Nodup
import Spawned.Actor.Life
import Spawned.Cluster.Wire

/-!
# Inbound dispatch

An envelope from a peer goes to the handlers registered for its address. Each of them is for one type of message, and only
its error says whether it took the envelope.

* `InboundProg` : what a dispatch does to the actors, as a program that makes calls. Messages and replies of all types are
  in `V` and `R`;
* `TasksWireDispatch`, `ThreadsWireDispatch` : the typed handlers of the two runtimes, as `WireHandler`;
* `AddressDispatch` : the handlers by address, tried one after the other;
* `dispatch_by_message_id` : the handler with the id of the envelope decides alone, whatever the order.
-/

namespace Spawned

open Lib

/-- `WireError`. -/
inductive WireError
  | encode (msg : String)
  | decode (msg : String)
  | messageIdMismatch (expected actual : String)
deriving DecidableEq, Repr

/-- `TransportError`, with the `WireError` in it. -/
inductive InboundError
  | remoteUnreachable
  | wire (err : WireError)
  | io (msg : String)
  | protocol (msg : String)
deriving DecidableEq, Repr

def displayAddress (address : ActorAddress) : String := address.node ++ "#" ++ displayActorId address.actorId

/-! ## Typed handlers -/

/-- The calls of a handler on its recipient. The errors of the answers are dropped, so they are `false` or `none`. -/
inductive InboundOp (V : Type)
  | send (recipient : ActorId) (msg : V)
  /-- `tasks::request` in a task of its own, with its timeout in seconds, and the wait for that task, which may have gone
  with its runtime -/
  | request (recipient : ActorId) (msg : V) (timeout : Nat)
  | requestRaw (recipient : ActorId) (msg : V)
  /-- the wait for the reply to `request_raw` -/
  | recv (recipient : ActorId)

abbrev InboundOp.Ans {V : Type} (R : Type) : InboundOp V → Type
  | .send _ _ | .requestRaw _ _ => Bool
  | .request _ _ _ => Option (Option R)
  | .recv _ => Option R

abbrev InboundProg (V R : Type) := Prog (InboundOp V) (InboundOp.Ans R)

abbrev InboundTrace (V R : Type) := Trace (InboundOp V) (InboundOp.Ans (V := V) R)

/-- `InboundDispatch`. -/
abbrev InboundDispatch (V R : Type) := WireEnvelope → InboundProg V R (Except InboundError (Option Bytes))

/-- `TasksWireDispatch<M>` or `ThreadsWireDispatch<M>`. -/
structure WireHandler (V R : Type) where
  runtime : Runtime
  address : ActorAddress
  recipient : ActorId
  /-- `M::REMOTE_ID` -/
  remoteId : String
  /-- `postcard::from_bytes` at the type of the messages -/
  fromBytes : Bytes → Except String V
  /-- `postcard::to_allocvec` at the type of the results -/
  toAllocvec : R → Except String Bytes

namespace WireHandler

variable {V R : Type}

def decodePayload (h : WireHandler V R) (envelope : WireEnvelope) : Except WireError V :=
  if envelope.remoteMsgId ≠ h.remoteId then .error (.messageIdMismatch h.remoteId envelope.remoteMsgId)
  else (h.fromBytes envelope.payload).mapError .decode

def encodeReply (h : WireHandler V R) (value : R) : Except WireError Bytes := (h.toAllocvec value).mapError .encode

/-- The reply on the wire, or why there is none. -/
def reply (h : WireHandler V R) (value : R) : Except InboundError (Option Bytes) :=
  match h.encodeReply value with
  | .error err => .error (.wire err)
  | .ok bytes => .ok (some bytes)

def unexpectedTarget (envelope : WireEnvelope) : InboundError :=
  .protocol ("unexpected target address " ++ displayAddress envelope.to)

/-- `TasksWireDispatch::dispatch`. -/
def dispatchTasks (h : WireHandler V R) : InboundDispatch V R := fun envelope =>
  if envelope.to ≠ h.address then pure (.error (unexpectedTarget envelope))
  else
    match h.decodePayload envelope with
    | .error err => pure (.error (.wire err))
    | .ok msg =>
      if envelope.correlationId = 0 then do
        let sent ← Prog.op (InboundOp.send h.recipient msg)
        pure (if sent then .ok none else .error .remoteUnreachable)
      else do
        let result ← Prog.op (InboundOp.request h.recipient msg 5)
        match result with
        | none => pure (.error .remoteUnreachable)
        | some none => pure (.error .remoteUnreachable)
        | some (some result) => pure (h.reply result)

/-- `ThreadsWireDispatch::dispatch`. -/
def dispatchThreads (h : WireHandler V R) : InboundDispatch V R := fun envelope =>
  if envelope.to ≠ h.address then pure (.error (unexpectedTarget envelope))
  else
    match h.decodePayload envelope with
    | .error err => pure (.error (.wire err))
    | .ok msg =>
      if envelope.correlationId = 0 then do
        let sent ← Prog.op (InboundOp.send h.recipient msg)
        pure (if sent then .ok none else .error .remoteUnreachable)
      else do
        let requested ← Prog.op (InboundOp.requestRaw h.recipient msg)
        if requested then do
          let result ← Prog.op (InboundOp.recv h.recipient)
          match result with
          | none => pure (.error .remoteUnreachable)
          | some result => pure (h.reply result)
        else pure (.error .remoteUnreachable)

def dispatch (h : WireHandler V R) : InboundDispatch V R :=
  match h.runtime with
  | .tasks => h.dispatchTasks
  | .threads => h.dispatchThreads

end WireHandler

/-! ## Handlers by address -/

structure AddressDispatch (V R : Type) where
  routes : Table ActorAddress (List (InboundDispatch V R)) := Table.empty

namespace AddressDispatch

variable {V R : Type}

def register (d : AddressDispatch V R) (address : ActorAddress) (handler : InboundDispatch V R) : AddressDispatch V R :=
  { d with routes := d.routes.insert address ((d.routes address).getD [] ++ [handler]) }

/-- The loop of `dispatch` over the handlers. -/
def tryHandlers (envelope : WireEnvelope) :
    Option InboundError → List (InboundDispatch V R) → InboundProg V R (Except InboundError (Option Bytes))
  | lastWire, [] =>
    pure (.error (lastWire.getD (.protocol ("no handler accepted message " ++ envelope.remoteMsgId ++ " for " ++
      displayAddress envelope.to))))
  | lastWire, handler :: handlers => do
    let result ← handler envelope
    match result with
    | .ok result => pure (.ok result)
    | .error (.wire (.messageIdMismatch expected actual)) =>
      tryHandlers envelope (some (.wire (.messageIdMismatch expected actual))) handlers
    | .error (.protocol _) => tryHandlers envelope lastWire handlers
    | .error err => pure (.error err)

def dispatch (d : AddressDispatch V R) : InboundDispatch V R := fun envelope =>
  match d.routes envelope.to with
  | none => pure (.error (.protocol ("no handler for " ++ displayAddress envelope.to)))
  | some handlers => tryHandlers envelope none handlers

end AddressDispatch

/-! ## What a handler does -/

/-- The messages that were handed to actors, each with its actor. -/
def offered {V R : Type} (τ : InboundTrace V R) : List (ActorId × V) :=
  τ.filterMap fun call =>
    match call.op with
    | .send recipient msg | .request recipient msg _ | .requestRaw recipient msg => some (recipient, msg)
    | .recv _ => none

/-- A result that the loop of `dispatch` returns. -/
def Final : Except InboundError (Option Bytes) → Prop
  | .error (.wire (.messageIdMismatch _ _)) | .error (.protocol _) => False
  | _ => True

namespace WireHandler

variable {V R : Type} {h : WireHandler V R} {envelope : WireEnvelope}

/-- A handler for other messages says so, and does nothing. -/
theorem dispatch_of_ne (hto : envelope.to = h.address) (hid : h.remoteId ≠ envelope.remoteMsgId) :
    h.dispatch envelope = pure (.error (.wire (.messageIdMismatch h.remoteId envelope.remoteMsgId))) := by
  have hdecode : h.decodePayload envelope = .error (.messageIdMismatch h.remoteId envelope.remoteMsgId) :=
    if_pos hid.symm
  unfold dispatch
  cases h.runtime with
  | tasks => simp only [dispatchTasks, hto, ne_eq, not_true_eq_false, if_false, hdecode]
  | threads => simp only [dispatchThreads, hto, ne_eq, not_true_eq_false, if_false, hdecode]

theorem final_reply (value : R) : Final (h.reply value) := by
  unfold reply encodeReply
  cases h.toAllocvec value <;> trivial

/-- The message went to the actor of the handler, if to any, and at most once. -/
def Keeps (h : WireHandler V R) (τ : InboundTrace V R) : Prop :=
  (offered τ).length ≤ 1 ∧ ∀ x ∈ offered τ, x.1 = h.recipient

theorem exec_send {msg : V} {τ : InboundTrace V R} {result : Except InboundError (Option Bytes)}
    (hexec : (do
      let sent ← Prog.op (InboundOp.send h.recipient msg)
      pure (if sent then .ok none else .error .remoteUnreachable) : InboundProg V R _).Exec τ result) :
    Final result ∧ h.Keeps τ := by
  obtain ⟨sent, τ', rfl, rfl, rfl⟩ := hexec
  refine ⟨?_, by simp [offered], by simp [offered]⟩
  cases sent <;> trivial

/-- The handler of the message hands it to its own actor, at most once, and its result is final. -/
theorem exec_dispatch (hto : envelope.to = h.address) (hid : h.remoteId = envelope.remoteMsgId) {τ : InboundTrace V R}
    {result : Except InboundError (Option Bytes)} (hexec : (h.dispatch envelope).Exec τ result) :
    Final result ∧ h.Keeps τ := by
  have hdecode : h.decodePayload envelope = (h.fromBytes envelope.payload).mapError .decode :=
    if_neg (by simp [hid])
  unfold dispatch at hexec
  cases hruntime : h.runtime with
  | tasks =>
    simp only [hruntime, dispatchTasks, hto, ne_eq, not_true_eq_false, if_false, hdecode] at hexec
    cases hbytes : h.fromBytes envelope.payload with
    | error err =>
      simp only [hbytes, Except.mapError] at hexec
      obtain ⟨rfl, rfl⟩ := hexec
      exact ⟨trivial, by simp [offered], by simp [offered]⟩
    | ok msg =>
      simp only [hbytes, Except.mapError] at hexec
      split_ifs at hexec
      · exact exec_send hexec
      · obtain ⟨answer, τ', rfl, hrest⟩ := Prog.exec_op_bind.mp hexec
        rcases answer with _ | _ | value
        · obtain ⟨rfl, rfl⟩ := hrest
          exact ⟨trivial, by simp [offered], by simp [offered]⟩
        · obtain ⟨rfl, rfl⟩ := hrest
          exact ⟨trivial, by simp [offered], by simp [offered]⟩
        · obtain ⟨rfl, rfl⟩ := hrest
          exact ⟨final_reply value, by simp [offered], by simp [offered]⟩
  | threads =>
    simp only [hruntime, dispatchThreads, hto, ne_eq, not_true_eq_false, if_false, hdecode] at hexec
    cases hbytes : h.fromBytes envelope.payload with
    | error err =>
      simp only [hbytes, Except.mapError] at hexec
      obtain ⟨rfl, rfl⟩ := hexec
      exact ⟨trivial, by simp [offered], by simp [offered]⟩
    | ok msg =>
      simp only [hbytes, Except.mapError] at hexec
      split_ifs at hexec
      · exact exec_send hexec
      · obtain ⟨requested, τ', rfl, hrest⟩ := Prog.exec_op_bind.mp hexec
        cases requested with
        | false =>
          obtain ⟨rfl, rfl⟩ := hrest
          exact ⟨trivial, by simp [offered], by simp [offered]⟩
        | true =>
          obtain ⟨answer, τ'', rfl, hreply⟩ := Prog.exec_op_bind.mp hrest
          rcases answer with _ | value
          · obtain ⟨rfl, rfl⟩ := hreply
            exact ⟨trivial, by simp [offered], by simp [offered]⟩
          · obtain ⟨rfl, rfl⟩ := hreply
            exact ⟨final_reply value, by simp [offered], by simp [offered]⟩

end WireHandler

/-! ## Dispatch -/

namespace AddressDispatch

variable {V R : Type} {envelope : WireEnvelope}

/-- The handlers of an address, in the order in which they were registered. -/
def registeredAt (registered : List (ActorAddress × InboundDispatch V R)) (address : ActorAddress) :
    List (InboundDispatch V R) :=
  (registered.filter (·.1 = address)).map (·.2)

/-- The dispatch with handlers registered one after the other, those of other addresses among them. -/
def ofRegistered (registered : List (ActorAddress × InboundDispatch V R)) : AddressDispatch V R :=
  registered.foldl (fun d entry => d.register entry.1 entry.2) {}

theorem routes_ofRegistered (registered : List (ActorAddress × InboundDispatch V R)) (address : ActorAddress) :
    (ofRegistered registered).routes address =
      if registeredAt registered address = [] then none else some (registeredAt registered address) := by
  induction registered using List.reverseRecOn with
  | nil => rfl
  | append_singleton registered entry ih =>
    have hroutes : (ofRegistered (registered ++ [entry])).routes =
        (ofRegistered registered).routes.insert entry.1
          (((ofRegistered registered).routes entry.1).getD [] ++ [entry.2]) := by
      simp [ofRegistered, register]
    rw [hroutes, Table.insert_apply]
    by_cases haddress : address = entry.1
    · subst haddress
      have hlast : registeredAt (registered ++ [entry]) entry.1 = registeredAt registered entry.1 ++ [entry.2] := by
        simp [registeredAt]
      rw [hlast, if_pos rfl, ih]
      by_cases hempty : registeredAt registered entry.1 = [] <;> simp [hempty]
    · have hsame : registeredAt (registered ++ [entry]) address = registeredAt registered address := by
        simp [registeredAt, Ne.symm haddress]
      rw [hsame, if_neg haddress, ih]

/-- Handlers for other messages are passed over. -/
theorem tryHandlers_append {before : List (WireHandler V R)} (hbefore : ∀ h ∈ before, h.address = envelope.to ∧
      h.remoteId ≠ envelope.remoteMsgId) (lastWire : Option InboundError) (handlers : List (InboundDispatch V R)) :
    ∃ lastWire', tryHandlers envelope lastWire (before.map WireHandler.dispatch ++ handlers) =
      tryHandlers envelope lastWire' handlers := by
  induction before generalizing lastWire with
  | nil => exact ⟨lastWire, rfl⟩
  | cons h before ih =>
    obtain ⟨haddress, hid⟩ := hbefore h (by simp)
    obtain ⟨lastWire', htail⟩ := ih (fun h' hh' => hbefore h' (by simp [hh']))
      (some (.wire (.messageIdMismatch h.remoteId envelope.remoteMsgId)))
    refine ⟨lastWire', ?_⟩
    rw [List.map_cons, List.cons_append, tryHandlers, WireHandler.dispatch_of_ne haddress.symm hid, Prog.pure_bind']
    exact htail

/-- The handler of the message decides. -/
theorem tryHandlers_cons {h : WireHandler V R} (haddress : h.address = envelope.to)
    (hid : h.remoteId = envelope.remoteMsgId) (lastWire : Option InboundError) (handlers : List (InboundDispatch V R)) :
    tryHandlers envelope lastWire (h.dispatch :: handlers) = h.dispatch envelope := by
  rw [tryHandlers]
  refine Prog.bind_eq_self fun τ result hexec => ?_
  have hfinal := (WireHandler.exec_dispatch haddress.symm hid hexec).1
  match result with
  | .ok result => rfl
  | .error .remoteUnreachable => rfl
  | .error (.wire (.encode msg)) => rfl
  | .error (.wire (.decode msg)) => rfl
  | .error (.io msg) => rfl
  | .error (.wire (.messageIdMismatch expected actual)) => exact hfinal.elim
  | .error (.protocol msg) => exact hfinal.elim

/-- **Inbound dispatch is independent of registration order.** Among the handlers of an address, which are built for it and
have distinct ids, the one with the id of the envelope is the whole of the dispatch: its result is returned, whatever it
is, and the message goes to its actor only, at most once. Without such a handler the dispatch is an error, and no actor is
handed anything. -/
theorem dispatch_by_message_id (envelope : WireEnvelope) (registered : List (ActorAddress × InboundDispatch V R))
    (handlers : List (WireHandler V R))
    (hregistered : registeredAt registered envelope.to = handlers.map WireHandler.dispatch)
    (hbuilt : ∀ h ∈ handlers, h.address = envelope.to) (hids : (handlers.map WireHandler.remoteId).Nodup) :
    (∀ h ∈ handlers, h.remoteId = envelope.remoteMsgId →
      (ofRegistered registered).dispatch envelope = h.dispatch envelope ∧
      ∀ τ result, ((ofRegistered registered).dispatch envelope).Exec τ result →
        (offered τ).length ≤ 1 ∧ ∀ x ∈ offered τ, x.1 = h.recipient) ∧
    ((∀ h ∈ handlers, h.remoteId ≠ envelope.remoteMsgId) →
      ∃ err, (ofRegistered registered).dispatch envelope = pure (.error err)) := by
  have hroutes := routes_ofRegistered registered envelope.to
  rw [hregistered] at hroutes
  constructor
  · intro h hh hid
    have hdispatch : (ofRegistered registered).dispatch envelope = h.dispatch envelope := by
      obtain ⟨before, after, rfl⟩ := List.append_of_mem hh
      have hbefore : ∀ h' ∈ before, h'.address = envelope.to ∧ h'.remoteId ≠ envelope.remoteMsgId := by
        intro h' hh'
        refine ⟨hbuilt h' (by simp [hh']), fun heq => ?_⟩
        rw [List.map_append, List.map_cons, List.nodup_append] at hids
        exact hids.2.2 _ (List.mem_map_of_mem hh') _ (by simp) (heq.trans hid.symm)
      obtain ⟨lastWire, hpass⟩ := tryHandlers_append hbefore none (h.dispatch :: after.map WireHandler.dispatch)
      rw [if_neg (by simp)] at hroutes
      simp only [dispatch, hroutes, List.map_append, List.map_cons]
      rw [hpass]
      exact tryHandlers_cons (hbuilt h (by simp)) hid lastWire _
    refine ⟨hdispatch, fun τ result hexec => ?_⟩
    rw [hdispatch] at hexec
    exact (WireHandler.exec_dispatch (hbuilt h hh).symm hid hexec).2
  · intro hnone
    by_cases hempty : handlers.map WireHandler.dispatch = []
    · rw [if_pos hempty] at hroutes
      simp only [dispatch, hroutes]
      exact ⟨_, rfl⟩
    · obtain ⟨lastWire, hpass⟩ := tryHandlers_append (fun h hh => ⟨hbuilt h hh, hnone h hh⟩) none
        ([] : List (InboundDispatch V R))
      rw [if_neg hempty] at hroutes
      rw [List.append_nil] at hpass
      simp only [dispatch, hroutes, hpass, tryHandlers]
      exact ⟨_, rfl⟩

/-- A handler on node `n` for messages of one byte. -/
def byteHandler (runtime : Runtime) (recipient : ActorId) (remoteId : String) : WireHandler UInt8 UInt8 where
  runtime := runtime
  address := ⟨"n", 1⟩
  recipient := recipient
  remoteId := remoteId
  fromBytes
    | [byte] => .ok byte
    | _ => .error "Hit the end of buffer, expected more data"
  toAllocvec byte := .ok [byte]

/-- The second of two handlers takes its message, also when a handler of another address was registered in between. -/
theorem dispatch_by_message_id_second :
    let first := byteHandler .tasks 1 "spawned.test.A/v1"
    let second := byteHandler .threads 2 "spawned.test.B/v1"
    let registered := [(⟨"n", 1⟩, first.dispatch), (⟨"n", 5⟩, first.dispatch), (⟨"n", 1⟩, second.dispatch)]
    (ofRegistered registered).dispatch ⟨⟨"n", 1⟩, "spawned.test.B/v1", [7], 0⟩ =
        second.dispatch ⟨⟨"n", 1⟩, "spawned.test.B/v1", [7], 0⟩ ∧
      ((ofRegistered registered).dispatch ⟨⟨"n", 1⟩, "spawned.test.B/v1", [7], 0⟩).Exec [⟨.send 2 7, true⟩] (.ok none) := by
  intro first second registered
  have hdispatch := (dispatch_by_message_id ⟨⟨"n", 1⟩, "spawned.test.B/v1", [7], 0⟩ registered
    [first, second] rfl (by simp [first, second, byteHandler]) (by decide)).1 second (by simp) rfl
  refine ⟨hdispatch.1, ?_⟩
  rw [hdispatch.1]
  exact ⟨true, [], rfl, rfl, rfl⟩

end AddressDispatch

end Spawned
