import Spawned.Cluster.Tcp.Transport

/-!
# Replies on a pooled TCP stream

On one stream go the handshakes, two snapshots in each direction, frames without an answer, and requests with two kinds of
replies. Both ends agree which frames are answered, and the mutex and the pool see to it that a stream has at most one
request on it and nothing left of an earlier one.

* `Quiet` : a frame that `serve_connection` does not answer; `Call.quiet` : so are the frames of all calls but requests;
* `Greets` : what is on a stream while both ends greet, and on a pooled stream that is not used;
* `Asking` : what is on the stream of a request that waits;
* `Inv` : where each call is, with what is on its stream, and the pool;
* `reply_is_own` : the frame that a request reads as its reply is the one that the peer wrote for it.
-/

namespace Spawned.Tcp

open Lib

/-! ## Frames without an answer -/

/-- The inbound supervision hook answers spawn requests only. -/
def AnswersSpawns (hooks : Hooks) : Prop :=
  ∀ inbound, hooks.supervisionInbound = some inbound → ∀ envelope reply, inbound envelope = .ok (some reply) →
    ∃ parent placement spec link, envelope.event = .spawnRequest parent placement spec link

/-- `serve_connection` writes nothing back for the frame. -/
def Quiet (codec : Codec) (frame : Bytes) : Prop :=
  ∀ hooks, AnswersSpawns hooks → ∀ bytes, answerFrame codec hooks frame ≠ .ok (some bytes)

section Quiet

variable {codec : Codec} (hcodec : codec.frame.RoundTrips)
include hcodec

theorem decode_encodeClusterFrame {frame : ClusterFrame} {bytes : Bytes}
    (h : codec.encodeClusterFrame frame = .ok bytes) : codec.decodeClusterFrame bytes = .ok frame := by
  unfold Codec.encodeClusterFrame at h
  unfold Codec.decodeClusterFrame
  cases hframe : codec.frame.toAllocvec frame with
  | error msg =>
    rw [hframe] at h
    cases h
  | ok body =>
    rw [hframe] at h
    cases h
    rw [hcodec frame _ hframe]
    rfl

theorem quiet_registry {event : RegistryEvent} {bytes : Bytes} (h : codec.encodeRegistryEvent event = .ok bytes) :
    Quiet codec bytes := by
  intro hooks _ reply hreply
  rw [answerFrame, decode_encodeClusterFrame hcodec h] at hreply
  obtain ⟨_, ⟨⟩, hreply⟩ := except_bind_eq_ok.mp hreply
  obtain ⟨_, -, hnone⟩ := except_bind_eq_ok.mp hreply
  cases hnone

theorem quiet_pg {event : PgEvent} {bytes : Bytes} (h : codec.encodePgEvent event = .ok bytes) : Quiet codec bytes := by
  intro hooks _ reply hreply
  rw [answerFrame, decode_encodeClusterFrame hcodec h] at hreply
  obtain ⟨_, ⟨⟩, hreply⟩ := except_bind_eq_ok.mp hreply
  obtain ⟨_, -, hnone⟩ := except_bind_eq_ok.mp hreply
  cases hnone

theorem quiet_actor {envelope : WireEnvelope} {bytes : Bytes} (hid : envelope.correlationId = 0)
    (h : codec.encodeClusterFrame (.actor envelope) = .ok bytes) : Quiet codec bytes := by
  intro hooks _ reply hreply
  rw [answerFrame, decode_encodeClusterFrame hcodec h] at hreply
  obtain ⟨_, ⟨⟩, hreply⟩ := except_bind_eq_ok.mp hreply
  obtain ⟨_, -, hnone⟩ := except_bind_eq_ok.mp hreply
  rw [if_neg (by simpa using hid)] at hnone
  cases hnone

theorem quiet_supervision {envelope : SupervisionEnvelope} {bytes : Bytes}
    (hevent : requiresCorrelation envelope.event = false) (h : codec.encodeSupervisionFrame envelope = .ok bytes) :
    Quiet codec bytes := by
  intro hooks hhooks reply hreply
  rw [answerFrame, decode_encodeClusterFrame hcodec h] at hreply
  obtain ⟨_, ⟨⟩, hreply⟩ := except_bind_eq_ok.mp hreply
  obtain ⟨answer, hanswer, hreply⟩ := except_bind_eq_ok.mp hreply
  cases answer with
  | none => cases hreply
  | some answer =>
    obtain ⟨_, -, hanswer⟩ := except_bind_eq_ok.mp hanswer
    cases hinbound : hooks.supervisionInbound with
    | none =>
      rw [hinbound] at hanswer
      cases hanswer
    | some inbound =>
      rw [hinbound] at hanswer
      obtain ⟨parent, placement, spec, link, hspawn⟩ := hhooks inbound hinbound envelope answer hanswer
      rw [hspawn] at hevent
      cases hevent

omit hcodec in
/-- A call that writes no frame reads none. -/
theorem Call.isRequest_of_frame_none {call : Call} (h : call.frame codec = .ok none) : call.isRequest = false := by
  have hmap : ∀ {encoded : Except TransportError Bytes}, encoded.map some ≠ .ok none := by
    rintro (err | encoded) h <;> cases h
  cases call with
  | requestEnvelope envelope =>
    simp only [Call.frame] at h
    split_ifs at h
    exact absurd h hmap
  | requestSupervision node envelope => exact absurd h hmap
  | _ => rfl

/-- The frame of a call that reads no reply has none. -/
theorem Call.quiet {peers : List NodeId} {call : Call} {bytes : Bytes} (hrequest : call.isRequest = false)
    (hcheck : call.check codec peers = .ok ()) (hframe : call.frame codec = .ok (some bytes)) : Quiet codec bytes := by
  have hbytes : ∀ {encoded : Except TransportError Bytes}, encoded.map some = .ok (some bytes) → encoded = .ok bytes := by
    rintro (err | encoded) h
    · cases h
    · cases h
      rfl
  cases call with
  | sendEnvelope envelope =>
    refine quiet_actor hcodec ?_ (hbytes hframe)
    by_contra hid
    rw [Call.check, if_pos hid] at hcheck
    cases hcheck
  | sendSupervision node envelope =>
    refine quiet_supervision hcodec ?_ (hbytes hframe)
    obtain ⟨_, hvalid, hid⟩ := except_bind_eq_ok.mp hcheck
    have hzero : envelope.correlationId = 0 := by
      by_contra hne
      rw [if_pos hne] at hid
      cases hid
    by_contra hneeds
    rw [Codec.validateEnvelope, if_pos (by simpa [hzero] using hneeds)] at hvalid
    cases hvalid
  | broadcastRegistry event => exact quiet_registry hcodec (hbytes hframe)
  | broadcastPg event => exact quiet_pg hcodec (hbytes hframe)
  | syncPeers => cases hframe
  | requestEnvelope envelope => cases hrequest
  | requestSupervision node envelope => cases hrequest

end Quiet

/-! ## What is on a stream -/

/-- `m` frames of the greeting are written where `serve_connection` is at `pc`. -/
def Wrote {T : Type} (pc : ServePc T) (m : Nat) : Prop :=
  match pc with
  | .readHandshake | .writeAck => m = 0
  | .writeRegistry => m = 1
  | .writePg => m = 2
  | .serving => m = 3
  | .reply .. => False
  | .ended _ => m ≤ 3

theorem Wrote.le {T : Type} {pc : ServePc T} {m : Nat} (h : Wrote pc m) : m ≤ 3 := by
  cases pc with
  | reply bytes mark => exact absurd h id
  | _ =>
    simp only [Wrote] at h
    omega

/-- The frames that `serve_connection` will take in its loop. -/
def Connection.unread {T : Type} (c : Connection T) : List (Bytes × T) :=
  match c.pc with
  | .readHandshake => c.inbound.tail
  | .ended _ => []
  | _ => c.inbound

/-- Of the greeting `n` frames are read and the others that are written are on the stream. No frame to the peer has an
answer. -/
structure Greets {T : Type} (codec : Codec) (n : Nat) (c : Connection T) : Prop where
  wrote : Wrote c.pc (c.outbound.length + n)
  quiet : ∀ x ∈ c.unread, Quiet codec x.1

section Greets

variable {T : Type} {codec : Codec} {n : Nat} {c c' : Connection T}

theorem Greets.of_ended {err : TransportError} (hpc : c.pc = .ended err) (hout : c.outbound.length + n ≤ 3) :
    Greets codec n c where
  wrote := by
    rw [hpc]
    exact hout
  quiet := by simp [Connection.unread, hpc]

theorem Greets.readFrame (h : Greets codec n c) {frame : Bytes × Origin T} {outbound : List (Bytes × Origin T)}
    (hout : c.outbound = frame :: outbound) : Greets codec (n + 1) { c with outbound } where
  wrote := by
    have hwrote := h.wrote
    rw [hout, List.length_cons, Nat.add_assoc, Nat.add_comm 1 n] at hwrote
    exact hwrote
  quiet := h.quiet

/-- Once a frame of the greeting is read, the handshake is no longer on the stream. -/
theorem Greets.writeFrame (h : Greets codec n c) (hn : 0 < n) {body : Bytes} (hbody : Quiet codec body) (writer : T) :
    Greets codec n { c with inbound := c.inbound ++ [(body, writer)] } where
  wrote := h.wrote
  quiet := by
    intro x hx
    have hmem : x ∈ c.unread ∨ x = (body, writer) := by
      have hwrote := h.wrote
      unfold Connection.unread at hx ⊢
      cases hpc : c.pc with
      | readHandshake =>
        rw [hpc, Wrote] at hwrote
        omega
      | ended err => simp [hpc] at hx
      | _ => simpa [hpc] using hx
    rcases hmem with hold | rfl
    · exact h.quiet x hold
    · exact hbody

/-- After the greeting nothing is on its way to the client. -/
theorem Greets.outbound_eq_nil (h : Greets codec 3 c) : c.outbound = [] := by
  have hle := h.wrote.le
  exact List.length_eq_zero_iff.mp (by omega)

theorem Greets.serving_or_ended (h : Greets codec 3 c) : c.pc = .serving ∨ c.Ended := by
  have hwrote := h.wrote
  rw [h.outbound_eq_nil, List.length_nil] at hwrote
  cases hpc : c.pc with
  | serving => exact Or.inl rfl
  | ended err => exact Or.inr ⟨err, hpc⟩
  | _ => simp [hpc, Wrote] at hwrote

/-- A call of `serve_connection` goes on with the greeting, takes a frame without an answer, or fails. -/
theorem Greets.serve (h : Greets codec n c) {hooks : Hooks} {fault : Option TransportError}
    (hhooks : AnswersSpawns hooks) (hserve : Connection.Served codec hooks c fault c') : Greets codec n c' := by
  have hwrote := h.wrote
  have hquiet := h.quiet
  cases hserve with
  | failed fault inbound err => exact .of_ended rfl hwrote.le
  | @greeted x rest hpc hin =>
    rw [hpc] at hwrote
    refine ⟨hwrote, fun y hy => hquiet y ?_⟩
    simpa [Connection.unread, hpc, hin] using hy
  | @wrote bytes origin pc hpc hbytes =>
    unfold Connection.unread at hquiet
    generalize hc : c.pc = before at hpc hwrote hquiet
    cases hpc with
    | reply body mark => exact absurd hwrote id
    | _ =>
      simp only [Wrote] at hwrote
      refine ⟨?_, hquiet⟩
      simp only [Wrote, List.length_append, List.length_singleton]
      omega
  | @took frame mark rest hpc hin hanswer =>
    refine ⟨hwrote, fun y hy => hquiet y ?_⟩
    simp only [Connection.unread, hpc, hin] at hy ⊢
    exact List.mem_cons_of_mem _ hy
  | @answers frame bytes mark rest hpc hin hanswer =>
    refine absurd hanswer (hquiet (frame, mark) ?_ hooks hhooks bytes)
    simp [Connection.unread, hpc, hin]

end Greets

/-- A stream just opened. -/
structure Fresh {T : Type} (c : Connection T) : Prop where
  inbound : c.inbound = []
  outbound : c.outbound = []
  pc : c.pc = .readHandshake ∨ c.Ended

section Fresh

variable {T : Type} {codec : Codec} {c c' : Connection T}

theorem Fresh.serve (h : Fresh c) {hooks : Hooks} {fault : Option TransportError} {node : NodeId}
    (hserve : c.serve codec node hooks fault = some c') : Fresh c' := by
  unfold Connection.serve at hserve
  rcases h.pc with hpc | ⟨err, hpc⟩
  · cases fault with
    | none => simp [hpc, h.inbound] at hserve
    | some err =>
      simp only [hpc] at hserve
      cases hserve
      exact ⟨h.inbound, h.outbound, Or.inr ⟨err, rfl⟩⟩
  · simp [hpc] at hserve

theorem Fresh.writeFrame (h : Fresh c) (x : Bytes × T) : Greets codec 0 { c with inbound := c.inbound ++ [x] } := by
  rcases h.pc with hpc | ⟨err, hpc⟩
  · exact ⟨by simp [hpc, h.outbound, Wrote], by simp [Connection.unread, hpc, h.inbound]⟩
  · exact .of_ended hpc (by simp [h.outbound])

end Fresh

/-- The stream while `connect` is at a stage. -/
def Stage.Ready (codec : Codec) (c : Connection Writer) : Stage → Prop
  | .writeHandshake => Fresh c
  | .readAck => Greets codec 0 c
  | .writeRegistry | .writePg | .readRegistry => Greets codec 1 c
  | .readPg => Greets codec 2 c

/-- The stream after the stage. -/
def Stage.After (codec : Codec) (c : Connection Writer) (stage : Stage) : Prop :=
  match stage.next with
  | some next => next.Ready codec c
  | none => Greets codec 3 c

theorem Stage.Ready.serve {codec : Codec} {c c' : Connection Writer} {stage : Stage} (h : stage.Ready codec c)
    {hooks : Hooks} {fault : Option TransportError} {node : NodeId} (hhooks : AnswersSpawns hooks)
    (hserve : c.serve codec node hooks fault = some c') : stage.Ready codec c' := by
  have hserved := Connection.serve_served hserve
  cases stage with
  | writeHandshake => exact Fresh.serve h hserve
  | _ => exact Greets.serve h hhooks hserved

/-- The request of call `i` is on the stream; `answered` tells which answers the peer gave to it. The request waits behind
frames without an answer, then the answer is about to be written, or it is written, or there will be none. -/
inductive Asking (codec : Codec) (answered : Bytes → Prop) (i : Nat) (frame : Bytes) (c : Connection Writer) : Prop
  | sent (before : List (Bytes × Writer)) (hpc : c.pc = .serving) (hin : c.inbound = before ++ [(frame, .call i)])
      (hquiet : ∀ x ∈ before, Quiet codec x.1) (hout : c.outbound = [])
  | replies (bytes : Bytes) (hpc : c.pc = .reply bytes (.call i)) (hin : c.inbound = []) (hout : c.outbound = [])
      (hanswered : answered bytes)
  | replied (bytes : Bytes) (hpc : c.pc = .serving ∨ c.Ended) (hin : c.unread = [])
      (hout : c.outbound = [(bytes, .reply (.call i))]) (hanswered : answered bytes)
  | unanswered (h : Greets codec 3 c)

section Asking

variable {codec : Codec} {answered answered' : Bytes → Prop} {i : Nat} {frame : Bytes} {c c' : Connection Writer}

theorem Asking.mono (h : Asking codec answered i frame c) (hsub : ∀ bytes, answered bytes → answered' bytes) :
    Asking codec answered' i frame c := by
  cases h with
  | sent before hpc hin hquiet hout => exact .sent before hpc hin hquiet hout
  | replies bytes hpc hin hout hanswered => exact .replies bytes hpc hin hout (hsub bytes hanswered)
  | replied bytes hpc hin hout hanswered => exact .replied bytes hpc hin hout (hsub bytes hanswered)
  | unanswered h => exact .unanswered h

/-- A request starts on a stream that is not used. -/
theorem Asking.of_greets (h : Greets codec 3 c) :
    Asking codec answered i frame { c with inbound := c.inbound ++ [(frame, .call i)] } := by
  rcases h.serving_or_ended with hpc | ⟨err, hpc⟩
  · refine .sent c.inbound hpc rfl (fun x hx => h.quiet x ?_) h.outbound_eq_nil
    rw [Connection.unread, hpc]
    exact hx
  · exact .unanswered (.of_ended hpc (by simp [h.outbound_eq_nil]))

theorem Asking.serve (h : Asking codec answered i frame c) {hooks : Hooks} {fault : Option TransportError}
    (hhooks : AnswersSpawns hooks) (hserve : Connection.Served codec hooks c fault c')
    (hsub : ∀ bytes, answered bytes → answered' bytes)
    (hanswers : ∀ bytes rest, fault = none → c.pc = .serving → c.inbound = (frame, .call i) :: rest →
      answerFrame codec hooks frame = .ok (some bytes) → answered' bytes) :
    Asking codec answered' i frame c' := by
  cases h with
  | unanswered h => exact .unanswered (h.serve hhooks hserve)
  | sent before hpc hin hquiet hout =>
    cases hserve with
    | failed fault inbound err => exact .unanswered (.of_ended rfl (by simp [hout]))
    | greeted hpc' => simp [hpc] at hpc'
    | wrote hpc' =>
      rw [hpc] at hpc'
      cases hpc'
    | took hpc' hin' hanswer =>
      cases before with
      | nil =>
        -- the request itself has no answer
        obtain ⟨-, rfl⟩ := List.cons.inj (hin.symm.trans hin')
        exact .unanswered ⟨by simp [hpc, hout, Wrote], by simp [Connection.unread, hpc]⟩
      | cons x before =>
        obtain ⟨-, rfl⟩ := List.cons.inj (hin.symm.trans hin')
        exact .sent before hpc rfl (fun y hy => hquiet y (List.mem_cons_of_mem _ hy)) hout
    | @answers taken bytes mark rest hpc' hin' hanswer =>
      cases before with
      | nil =>
        obtain ⟨hhead, rfl⟩ := List.cons.inj (hin.symm.trans hin')
        cases hhead
        exact .replies bytes rfl rfl hout (hanswers bytes [] rfl hpc hin hanswer)
      | cons x before =>
        obtain ⟨rfl, -⟩ := List.cons.inj (hin.symm.trans hin')
        exact absurd hanswer (hquiet _ List.mem_cons_self hooks hhooks bytes)
  | replies bytes hpc hin hout hanswered =>
    cases hserve with
    | failed fault inbound err => exact .unanswered (.of_ended rfl (by simp [hout]))
    | greeted hpc' => simp [hpc] at hpc'
    | took hpc' => simp [hpc] at hpc'
    | answers hpc' => simp [hpc] at hpc'
    | wrote hpc' hbytes =>
      obtain rfl := hbytes _ _ hpc
      rw [hpc] at hpc'
      cases hpc'
      exact .replied _ (Or.inl rfl) hin (by simp [hout]) (hsub _ hanswered)
  | replied bytes hpc hin hout hanswered =>
    cases hserve with
    | failed fault inbound err => exact .replied bytes (Or.inr ⟨err, rfl⟩) rfl hout (hsub bytes hanswered)
    | greeted hpc' => rcases hpc with hpc | ⟨err, hpc⟩ <;> simp [hpc] at hpc'
    | wrote hpc' =>
      rcases hpc with hpc | ⟨err, hpc⟩ <;>
      · rw [hpc] at hpc'
        cases hpc'
    | took hpc' hin' => simp [Connection.unread, hpc', hin'] at hin
    | answers hpc' hin' => simp [Connection.unread, hpc', hin'] at hin

/-- The frame that is on the stream is the answer to the request, and with it the stream is as before the request. -/
theorem Asking.readFrame (h : Asking codec answered i frame c) {x : Bytes × Origin Writer}
    {outbound : List (Bytes × Origin Writer)} (hout : c.outbound = x :: outbound) :
    x.2 = .reply (.call i) ∧ answered x.1 ∧ Greets codec 3 { c with outbound } := by
  cases h with
  | sent before hpc hin hquiet hnil => simp [hnil] at hout
  | replies bytes hpc hin hnil hanswered => simp [hnil] at hout
  | unanswered h => simp [h.outbound_eq_nil] at hout
  | replied bytes hpc hin hone hanswered =>
    obtain ⟨rfl, rfl⟩ := List.cons.inj (hone.symm.trans hout)
    refine ⟨rfl, hanswered, ?_⟩
    rcases hpc with hpc | ⟨err, hpc⟩
    · refine ⟨by simp [hpc, Wrote], fun x hx => ?_⟩
      have hnil : x ∈ c.unread := hx
      rw [hin] at hnil
      cases hnil
    · exact .of_ended hpc (by simp)

end Asking

namespace TcpTransport

/-! ## The pool -/

/-- A call waits for its reply on stream `k`. -/
def Reading (s : TcpTransport) (k : Nat) : Prop :=
  ∃ (i : Nat) (node : NodeId) (c : Caller), s.callers[i]? = some c ∧ c.pc = .read k node

/-- Every pooled stream is one to its node, and is not used unless `busy` says so. -/
def Pooled (codec : Codec) (busy : Nat → Prop) (connections : NodeId → Option Nat) (streams : List Stream) : Prop :=
  ∀ node k, connections node = some k →
    ∃ stream, streams[k]? = some stream ∧ stream.node = node ∧ (busy k ∨ Greets codec 3 stream.conn)

section Pooled

variable {codec : Codec} {busy busy' : Nat → Prop} {connections : NodeId → Option Nat} {streams : List Stream}

theorem Pooled.mono (h : Pooled codec busy connections streams) (hbusy : ∀ k, busy k → busy' k) :
    Pooled codec busy' connections streams := by
  intro node k hk
  obtain ⟨stream, hstream, hnode, hrest⟩ := h node k hk
  exact ⟨stream, hstream, hnode, hrest.imp_left (hbusy k)⟩

theorem Pooled.remove (h : Pooled codec busy connections streams) (gone : NodeId)
    (hbusy : ∀ node k, node ≠ gone → connections node = some k → busy k → busy' k) :
    Pooled codec busy' (Function.update connections gone none) streams := by
  intro node k hk
  by_cases hgone : node = gone
  · subst hgone
    simp at hk
  · rw [Function.update_of_ne hgone] at hk
    obtain ⟨stream, hstream, hnode, hrest⟩ := h node k hk
    exact ⟨stream, hstream, hnode, hrest.imp_left (hbusy node k hgone hk)⟩

theorem Pooled.insert (h : Pooled codec busy connections streams) (stream : Stream) {k : Nat}
    (hk : streams[k]? = some stream) (hrest : Greets codec 3 stream.conn) :
    Pooled codec busy (Function.update connections stream.node (some k)) streams := by
  intro node k' hk'
  by_cases hnode : node = stream.node
  · subst hnode
    rw [Function.update_self] at hk'
    cases hk'
    exact ⟨stream, hk, rfl, Or.inr hrest⟩
  · rw [Function.update_of_ne hnode] at hk'
    exact h node k' hk'

theorem Pooled.snoc (h : Pooled codec busy connections streams) (stream : Stream) :
    Pooled codec busy connections (streams ++ [stream]) := by
  intro node k hk
  obtain ⟨old, hold, hrest⟩ := h node k hk
  have hlt : k < streams.length := (List.getElem?_eq_some_iff.mp hold).1
  exact ⟨old, by rw [List.getElem?_append_left hlt, hold], hrest⟩

/-- Something happens on one stream. -/
theorem Pooled.set (h : Pooled codec busy connections streams) {stream : Stream} {k : Nat} {conn : Connection Writer}
    (hk : streams[k]? = some stream) (hbusy : ∀ k', k' ≠ k → busy k' → busy' k')
    (hconn : connections stream.node = some k → busy' k ∨ Greets codec 3 conn) :
    Pooled codec busy' connections (streams.set k { stream with conn }) := by
  intro node k' hk'
  obtain ⟨old, hold, rfl, hrest⟩ := h node k' hk'
  have hlt : k < streams.length := (List.getElem?_eq_some_iff.mp hk).1
  by_cases hkk : k' = k
  · subst hkk
    cases hk.symm.trans hold
    exact ⟨{ stream with conn }, List.getElem?_set_self hlt, rfl, hconn hk'⟩
  · exact ⟨old, by rw [List.getElem?_set_ne (Ne.symm hkk), hold], rfl, hrest.imp_left (hbusy k' hkk)⟩

end Pooled

/-! ## The invariant -/

/-- In this step `serve_connection` of `node` takes the frame of call `i` from its stream, and `bytes` is its answer. -/
def Answers (codec : Codec) (i : Nat) (node : NodeId) (frame bytes : Bytes) (x : TcpTransport × Act) : Prop :=
  ∃ k hooks stream rest, x.2 = .serve k hooks none ∧ x.1.streams[k]? = some stream ∧ stream.node = node ∧
    stream.conn.pc = .serving ∧ stream.conn.inbound = (frame, .call i) :: rest ∧
    answerFrame codec hooks frame = .ok (some bytes)

/-- The peer's answer to the request of call `i`. -/
def Answered (codec : Codec) (τ : List (TcpTransport × Act)) (i : Nat) (node : NodeId) (frame bytes : Bytes) : Prop :=
  ∃ x ∈ τ, Answers codec i node frame bytes x

/-- The nodes a call that is under way has still to do with. -/
def ahead : Pc → List NodeId
  | .lock node rest | .dial node rest | .greet _ _ node rest | .write _ node rest => node :: rest
  | .read _ node => [node]
  | .start | .returned _ | .panicked => []

@[simp] theorem ahead_visit (nodes : List NodeId) : ahead (.visit nodes) = nodes := by
  cases nodes <;> rfl

/-- What holds where call `i` is: under the mutex it is the holder, and its stream is in the state that its next call on
it expects. -/
def Phase (codec : Codec) (τ : List (TcpTransport × Act)) (s : TcpTransport) (i : Nat) (c : Caller) : Prop :=
  match c.pc with
  | .dial node _ => s.holder = some i ∧ s.connections node = none
  | .greet stage k node _ => s.holder = some i ∧ s.connections node = none ∧
    ∃ stream, s.streams[k]? = some stream ∧ stream.node = node ∧ stage.Ready codec stream.conn
  | .write k node _ => s.holder = some i ∧ s.connections node = some k
  | .read k node => s.holder = some i ∧ s.connections node = some k ∧
    ∃ stream frame, s.streams[k]? = some stream ∧ c.call.frame codec = .ok (some frame) ∧
      Asking codec (Answered codec τ i node frame) i frame stream.conn
  | .start | .lock .. | .returned _ | .panicked => True

/-- The frame call `i` took as its reply is the peer's answer to its own frame. -/
def Own (codec : Codec) (peers : List NodeId) (τ : List (TcpTransport × Act)) (i : Nat) (c : Caller) : Prop :=
  ∀ bytes origin, c.took = some (bytes, origin) → origin = .reply (.call i) ∧
    ∃ node ∈ c.call.nodes peers, ∃ frame, c.call.frame codec = .ok (some frame) ∧ Answered codec τ i node frame bytes

/-- A request that returned `Ok` returned what it read in the frame it took. -/
def Faithful (codec : Codec) (c : Caller) : Prop :=
  c.call.isRequest = true → ∀ outcome, c.pc = .returned (.ok outcome) →
    ∃ bytes origin, c.took = some (bytes, origin) ∧ c.call.decodeReply codec bytes = .ok outcome

structure Sound (codec : Codec) (peers : List NodeId) (τ : List (TcpTransport × Act)) (s : TcpTransport) (i : Nat)
    (c : Caller) : Prop where
  checked : ahead c.pc ≠ [] → c.call.check codec peers = .ok ()
  nodes : ahead c.pc ⊆ c.call.nodes peers
  phase : Phase codec τ s i c
  own : Own codec peers τ i c
  faithful : Faithful codec c

structure Inv (codec : Codec) (peers : List NodeId) (τ : List (TcpTransport × Act)) (s : TcpTransport) : Prop where
  callers : ∀ i c, s.callers[i]? = some c → Sound codec peers τ s i c
  pool : Pooled codec s.Reading s.connections s.streams

variable {codec : Codec} {peers : List NodeId} {localNode : NodeId} {τ : List (TcpTransport × Act)}
  {x : TcpTransport × Act} {s s' : TcpTransport} {i : Nat} {c c' : Caller} {hooks : Hooks} {fault : Option TransportError}

theorem Answered.snoc {node : NodeId} {frame bytes : Bytes} (h : Answered codec τ i node frame bytes) :
    Answered codec (τ ++ [x]) i node frame bytes := by
  obtain ⟨y, hy, hanswers⟩ := h
  exact ⟨y, List.mem_append_left _ hy, hanswers⟩

theorem Own.snoc (h : Own codec peers τ i c) : Own codec peers (τ ++ [x]) i c := by
  intro bytes origin htook
  obtain ⟨horigin, node, hnode, frame, hframe, hanswered⟩ := h bytes origin htook
  exact ⟨horigin, node, hnode, frame, hframe, hanswered.snoc⟩

/-- A call under the mutex is not disturbed by the others, and nothing is said of one that is not. -/
theorem Phase.frame (h : Phase codec τ s i c)
    (hsame : s.holder = some i → s'.holder = some i ∧ s'.connections = s.connections ∧ s'.streams = s.streams) :
    Phase codec (τ ++ [x]) s' i c := by
  unfold Phase at h ⊢
  cases hpc : c.pc with
  | dial node rest =>
    simp only [hpc] at h ⊢
    obtain ⟨hholder, hconnections, -⟩ := hsame h.1
    rw [hconnections]
    exact ⟨hholder, h.2⟩
  | greet stage k node rest =>
    simp only [hpc] at h ⊢
    obtain ⟨hholder, hconnections, hstreams⟩ := hsame h.1
    rw [hconnections, hstreams]
    exact ⟨hholder, h.2⟩
  | write k node rest =>
    simp only [hpc] at h ⊢
    obtain ⟨hholder, hconnections, -⟩ := hsame h.1
    rw [hconnections]
    exact ⟨hholder, h.2⟩
  | read k node =>
    simp only [hpc] at h ⊢
    obtain ⟨hholder, hconnections, hstreams⟩ := hsame h.1
    obtain ⟨-, hpooled, stream, frame, hstream, hframe, hasking⟩ := h
    rw [hconnections, hstreams]
    exact ⟨hholder, hpooled, stream, frame, hstream, hframe, hasking.mono fun bytes hb => hb.snoc⟩
  | _ => trivial

theorem Sound.frame (h : Sound codec peers τ s i c)
    (hsame : s.holder = some i → s'.holder = some i ∧ s'.connections = s.connections ∧ s'.streams = s.streams) :
    Sound codec peers (τ ++ [x]) s' i c :=
  ⟨h.checked, h.nodes, h.phase.frame hsame, h.own.snoc, h.faithful⟩

/-- Call `i` moves; while another call holds the mutex, it moves nothing else. -/
theorem Inv.of_move (h : Inv codec peers τ s) (hi : s.callers[i]? = some c) (hcallers : s'.callers = s.callers.set i c')
    (hothers : ∀ j, j ≠ i → s.holder = some j →
      s'.holder = some j ∧ s'.connections = s.connections ∧ s'.streams = s.streams)
    (hsound : Sound codec peers (τ ++ [x]) s' i c') (hpool : Pooled codec s'.Reading s'.connections s'.streams) :
    Inv codec peers (τ ++ [x]) s' := by
  refine ⟨fun j d hj => ?_, hpool⟩
  rw [hcallers] at hj
  rcases getElem?_set_cases hi hj with ⟨rfl, rfl⟩ | ⟨hji, hj⟩
  · exact hsound
  · exact (h.callers j d hj).frame (hothers j hji)

/-- A call that does not return `Ok` yet goes on to `pc`. -/
theorem Sound.move (h : Sound codec peers τ s i c) {pc : Pc} (hahead : ahead pc ⊆ ahead c.pc)
    (hphase : Phase codec (τ ++ [x]) s' i { c with pc })
    (hreturn : c.call.isRequest = true → ∀ outcome, pc ≠ .returned (.ok outcome)) :
    Sound codec peers (τ ++ [x]) s' i { c with pc } where
  checked hne := h.checked fun hnil => hne (List.subset_nil.mp (hnil ▸ hahead))
  nodes := List.Subset.trans hahead h.nodes
  phase := hphase
  own := h.own.snoc
  faithful hrequest outcome hpc := absurd hpc (hreturn hrequest outcome)

/-- While no call holds the mutex, no pooled stream is used. -/
theorem Inv.idle (h : Inv codec peers τ s) (hfree : s.holder = none) :
    Pooled codec (fun _ => False) s.connections s.streams := by
  refine h.pool.mono ?_
  rintro k ⟨j, node, d, hj, hpc⟩
  have hphase := (h.callers j d hj).phase
  rw [Phase, hpc, hfree] at hphase
  cases hphase.1

/-- While call `i` does, only the stream it reads on is used. -/
theorem Inv.idle_but (h : Inv codec peers τ s) (hi : s.callers[i]? = some c) (hholder : s.holder = some i) :
    Pooled codec (fun k => ∃ node, c.pc = .read k node) s.connections s.streams := by
  refine h.pool.mono ?_
  rintro k ⟨j, node, d, hj, hpc⟩
  have hphase := (h.callers j d hj).phase
  rw [Phase, hpc, hholder] at hphase
  cases hphase.1
  cases hi.symm.trans hj
  exact ⟨node, hpc⟩

/-- A step of the call that holds the mutex. -/
theorem Inv.of_holder (h : Inv codec peers τ s) (hi : s.callers[i]? = some c) (hholder : s.holder = some i)
    (hcallers : s'.callers = s.callers.set i c') (hsound : Sound codec peers (τ ++ [x]) s' i c')
    (hpool : Pooled codec s'.Reading s'.connections s'.streams) : Inv codec peers (τ ++ [x]) s' := by
  refine h.of_move hi hcallers (fun j hji hj => ?_) hsound hpool
  cases hholder.symm.trans hj
  exact absurd rfl hji

/-- The call that holds the mutex lets go of it, and no pooled stream is used. -/
theorem Inv.of_release (h : Inv codec peers τ s) (hi : s.callers[i]? = some c) (hholder : s.holder = some i) {pc : Pc}
    (hcallers : s'.callers = s.callers.set i { c with pc }) (hahead : ahead pc ⊆ ahead c.pc)
    (hphase : Phase codec (τ ++ [x]) s' i { c with pc })
    (hreturn : c.call.isRequest = true → ∀ outcome, pc ≠ .returned (.ok outcome))
    (hpool : Pooled codec (fun _ => False) s'.connections s'.streams) : Inv codec peers (τ ++ [x]) s' :=
  h.of_holder hi hholder hcallers ((h.callers i c hi).move hahead hphase hreturn) (hpool.mono fun _ hk => hk.elim)

theorem phase_visit (nodes : List NodeId) : Phase codec τ s i { c with pc := .visit nodes } := by
  cases nodes <;> trivial

/-! ## Each call of a call -/

/-- A call that is not under the mutex moves on without it. -/
theorem Inv.move (h : Inv codec peers τ s) (hi : s.callers[i]? = some c) {pc : Pc} (hpc : ∀ k node, c.pc ≠ .read k node)
    (hsound : Sound codec peers (τ ++ [x]) (s.move i c pc) i { c with pc }) :
    Inv codec peers (τ ++ [x]) (s.move i c pc) := by
  refine h.of_move hi rfl (fun j _ hj => ⟨hj, rfl, rfl⟩) hsound (h.pool.mono ?_)
  rintro k ⟨j, node, d, hj, hread⟩
  refine ⟨j, node, d, ?_, hread⟩
  have hji : i ≠ j := by
    rintro rfl
    cases hi.symm.trans hj
    exact hpc k node hread
  exact (List.getElem?_set_ne hji).trans hj

theorem Inv.start (h : Inv codec peers τ s) (hi : s.callers[i]? = some c) (hpc : c.pc = .start)
    (hstep : s.advance i c codec peers localNode hooks fault = some s') : Inv codec peers (τ ++ [x]) s' := by
  have hsound := h.callers i c hi
  rw [advance, hpc] at hstep
  cases hcheck : c.call.check codec peers with
  | error err =>
    rw [hcheck] at hstep
    cases hstep
    exact h.move hi (by simp [hpc]) (hsound.move (by simp [ahead]) trivial (by simp))
  | ok _ =>
    rw [hcheck] at hstep
    cases hstep
    refine h.move hi (by simp [hpc]) ⟨fun _ => hcheck, by simp, phase_visit _, hsound.own.snoc, ?_⟩
    intro hrequest outcome hreturned
    have hnodes : c.call.nodes peers ≠ [] := by
      cases hcall : c.call <;> simp_all [Call.isRequest, Call.nodes]
    cases hvisit : c.call.nodes peers with
    | nil => exact absurd hvisit hnodes
    | cons node rest => simp [hvisit, Pc.visit] at hreturned

theorem Inv.lock {node : NodeId} {rest : List NodeId} (h : Inv codec peers τ s) (hi : s.callers[i]? = some c)
    (hpc : c.pc = .lock node rest) (hstep : s.lock i c node rest = some s') : Inv codec peers (τ ++ [x]) s' := by
  have hsound := h.callers i c hi
  unfold TcpTransport.lock at hstep
  split_ifs at hstep with hholder hpoisoned
  · cases hstep
    exact h.move hi (by simp [hpc]) (hsound.move (by simp [ahead]) trivial (by simp))
  · have hfree : s.holder = none := Option.not_isSome_iff_eq_none.mp hholder
    have hothers : ∀ j, j ≠ i → s.holder = some j →
        s'.holder = some j ∧ s'.connections = s.connections ∧ s'.streams = s.streams := by
      intro j _ hj
      cases hfree.symm.trans hj
    cases hpooled : s.connections node with
    | none =>
      rw [hpooled] at hstep
      cases hstep
      exact h.of_move hi rfl hothers (hsound.move (by simp [ahead, hpc]) ⟨rfl, hpooled⟩ (by simp))
        ((h.idle hfree).mono fun _ hk => hk.elim)
    | some k =>
      rw [hpooled] at hstep
      cases hstep
      exact h.of_move hi rfl hothers (hsound.move (by simp [ahead, hpc]) ⟨rfl, hpooled⟩ (by simp))
        ((h.idle hfree).mono fun _ hk => hk.elim)

theorem Inv.dial {node : NodeId} {rest : List NodeId} (h : Inv codec peers τ s) (hi : s.callers[i]? = some c)
    (hpc : c.pc = .dial node rest) : Inv codec peers (τ ++ [x]) (s.dial i c peers fault node rest) := by
  have hsound := h.callers i c hi
  have hphase := hsound.phase
  rw [Phase, hpc] at hphase
  obtain ⟨hholder, hpooled⟩ := hphase
  have hidle : Pooled codec (fun _ => False) s.connections s.streams :=
    (h.idle_but hi hholder).mono (by simp [hpc])
  unfold TcpTransport.dial
  split_ifs with hpeer
  · cases fault with
    | some err => exact h.of_release hi hholder rfl (by simp [ahead]) trivial (by simp) hidle
    | none =>
      refine h.of_holder hi hholder rfl (hsound.move (by simp [ahead, hpc]) ?_ (by simp))
        ((hidle.snoc { node }).mono fun _ hk => hk.elim)
      exact ⟨hholder, hpooled, { node }, by simp, rfl, rfl, rfl, Or.inl rfl⟩
  · exact h.of_release hi hholder rfl (by simp [ahead]) trivial (by simp) hidle

section Greet

variable {k : Nat} {stream : Stream} {result : Except TransportError Unit} {P : Connection Writer → Prop}

theorem writeFrame_conn {writer : Writer} {bytes : Except TransportError Bytes} (hk : s.streams[k]? = some stream)
    (h : s.writeFrame fault k writer bytes = some (result, s'))
    (hP : ∀ body, bytes = .ok body →
      P { stream.conn with inbound := stream.conn.inbound ++ [(body, writer)] }) :
    ∃ conn, s' = s.put k { stream with conn } ∧ (result = .ok () → P conn) := by
  rcases writeFrame_cases h with ⟨rfl, err, rfl⟩ | ⟨body, stream', hbody, hk', rfl, rfl⟩
  · exact ⟨stream.conn, (put_self hk).symm, by simp⟩
  · cases hk.symm.trans hk'
    exact ⟨_, rfl, fun _ => hP body hbody⟩

theorem readFrame_conn {f : Bytes × Origin Writer → Except TransportError Unit} (hk : s.streams[k]? = some stream)
    (h : (s.readFrame fault k).map (fun (frame, s) => (frame.bind f, s)) = some (result, s'))
    (hP : ∀ frame outbound, stream.conn.outbound = frame :: outbound → P { stream.conn with outbound }) :
    ∃ conn, s' = s.put k { stream with conn } ∧ (result = .ok () → P conn) := by
  obtain ⟨⟨frame, s₁⟩, hread, hs'⟩ := Option.map_eq_some_iff.mp h
  cases hs'
  rcases readFrame_cases hread with ⟨rfl, err, rfl⟩ | ⟨stream', frame, outbound, hk', hout, rfl, rfl⟩
  · exact ⟨stream.conn, (put_self hk).symm, fun hok => (by cases hok)⟩
  · cases hk.symm.trans hk'
    exact ⟨_, rfl, fun _ => hP frame outbound hout⟩

/-- A stage of `connect` writes a frame without an answer, or reads the frame that the peer wrote for it. -/
theorem greet_conn (hcodec : codec.frame.RoundTrips) {stage : Stage} (hk : s.streams[k]? = some stream)
    (hready : stage.Ready codec stream.conn) (h : s.greet codec localNode hooks fault k stage = some (result, s')) :
    ∃ conn, s' = s.put k { stream with conn } ∧ (result = .ok () → stage.After codec conn) := by
  cases stage with
  | writeHandshake => exact writeFrame_conn hk h fun body _ => Fresh.writeFrame hready _
  | readAck => exact readFrame_conn hk h fun frame outbound hout => Greets.readFrame hready hout
  | writeRegistry =>
    exact writeFrame_conn hk h fun body hbody => Greets.writeFrame hready Nat.one_pos (quiet_registry hcodec hbody) _
  | writePg =>
    exact writeFrame_conn hk h fun body hbody => Greets.writeFrame hready Nat.one_pos (quiet_pg hcodec hbody) _
  | readRegistry => exact readFrame_conn hk h fun frame outbound hout => Greets.readFrame hready hout
  | readPg => exact readFrame_conn hk h fun frame outbound hout => Greets.readFrame hready hout

theorem Inv.greet (hcodec : codec.frame.RoundTrips) {stage : Stage} {node : NodeId} {rest : List NodeId}
    {s₁ : TcpTransport} (h : Inv codec peers τ s) (hi : s.callers[i]? = some c) (hpc : c.pc = .greet stage k node rest)
    (hstep : s.greet codec localNode hooks fault k stage = some (result, s₁)) :
    Inv codec peers (τ ++ [x]) (s₁.greeted i c stage k node rest result) := by
  have hsound := h.callers i c hi
  have hphase := hsound.phase
  rw [Phase, hpc] at hphase
  obtain ⟨hholder, hpooled, stream, hk, rfl, hready⟩ := hphase
  obtain ⟨conn, rfl, hafter⟩ := greet_conn hcodec hk hready hstep
  have hlt : k < s.streams.length := (List.getElem?_eq_some_iff.mp hk).1
  have hidle : Pooled codec (fun _ => False) s.connections (s.streams.set k { stream with conn }) := by
    refine (h.idle_but hi hholder).set hk (by simp [hpc]) fun hconn => ?_
    cases hpooled.symm.trans hconn
  cases result with
  | error err => exact h.of_release hi hholder rfl (by simp [ahead]) trivial (by simp) hidle
  | ok _ =>
    have hafter := hafter rfl
    unfold greeted
    unfold Stage.After at hafter
    cases hnext : stage.next with
    | some next =>
      rw [hnext] at hafter
      refine h.of_holder hi hholder rfl (hsound.move (by simp [ahead, hpc]) ?_ (by simp))
        (hidle.mono fun _ hk => hk.elim)
      exact ⟨hholder, hpooled, { stream with conn }, List.getElem?_set_self hlt, rfl, hafter⟩
    | none =>
      -- the last stage: the stream enters the pool
      rw [hnext] at hafter
      refine h.of_holder hi hholder rfl (hsound.move (by simp [ahead, hpc]) ⟨hholder, by simp⟩ (by simp)) ?_
      exact (hidle.insert { stream with conn } (List.getElem?_set_self hlt) hafter).mono fun _ hk => hk.elim

end Greet

section Use

variable {k : Nat} {node : NodeId} {rest : List NodeId}

/-- A failed call takes its stream out of the pool. -/
theorem Inv.discard (h : Inv codec peers τ s) (hi : s.callers[i]? = some c) (hholder : s.holder = some i)
    {took : Option (Bytes × Origin Writer)} {err : TransportError} {streams : List Stream}
    (hown : Own codec peers (τ ++ [x]) i { c with took })
    (hpool : Pooled codec (fun _ => False) (Function.update s.connections node none) streams) :
    Inv codec peers (τ ++ [x]) ({ s with streams }.discard i { c with took } node err) := by
  refine h.of_holder hi hholder rfl ⟨by simp [ahead], by simp [ahead], trivial, hown, ?_⟩
    (hpool.mono fun _ hk => hk.elim)
  intro _ outcome hreturned
  cases hreturned

theorem Inv.use (hcodec : codec.frame.RoundTrips) (h : Inv codec peers τ s) (hi : s.callers[i]? = some c)
    (hpc : c.pc = .write k node rest) (hstep : s.use i c codec fault k node rest = some s') :
    Inv codec peers (τ ++ [x]) s' := by
  have hsound := h.callers i c hi
  have hphase := hsound.phase
  rw [Phase, hpc] at hphase
  obtain ⟨hholder, hpooled⟩ := hphase
  have hidle : Pooled codec (fun _ => False) s.connections s.streams :=
    (h.idle_but hi hholder).mono (by simp [hpc])
  have hdiscard : ∀ err, Inv codec peers (τ ++ [x]) (s.discard i c node err) := fun err =>
    h.discard hi hholder hsound.own.snoc (hidle.remove node fun _ _ _ _ hk => hk)
  have hrelease : ∀ streams, c.call.isRequest = false → Pooled codec (fun _ => False) s.connections streams →
      Inv codec peers (τ ++ [x]) ({ s with streams }.release i c (.visit rest)) := by
    intro streams hrequest hpool
    refine h.of_release hi hholder rfl ?_ (phase_visit rest) (by simp [hrequest]) hpool
    rw [ahead_visit, hpc]
    exact List.subset_cons_self node rest
  unfold TcpTransport.use at hstep
  cases hframe : c.call.frame codec with
  | error err =>
    rw [hframe] at hstep
    cases hstep
    exact hdiscard err
  | ok frame =>
    rw [hframe] at hstep
    cases frame with
    | none =>
      cases hstep
      exact hrelease s.streams (Call.isRequest_of_frame_none hframe) hidle
    | some bytes =>
      obtain ⟨⟨result, s₁⟩, hwrite, rfl⟩ := Option.map_eq_some_iff.mp hstep
      rcases writeFrame_cases hwrite with ⟨rfl, err, rfl⟩ | ⟨body, stream, hbody, hk, rfl, rfl⟩
      · exact hdiscard err
      · cases hbody
        obtain ⟨old, hold, rfl, hgreets⟩ := hidle node k hpooled
        cases hk.symm.trans hold
        have hgreets := hgreets.resolve_left id
        have hlt : k < s.streams.length := (List.getElem?_eq_some_iff.mp hk).1
        unfold written
        split_ifs with hrequest
        · refine h.of_holder hi hholder rfl (hsound.move (by simp [ahead, hpc]) ?_ (by simp)) ?_
          · exact ⟨hholder, hpooled, _, bytes, List.getElem?_set_self hlt, hframe, .of_greets hgreets⟩
          · refine hidle.set hk (fun _ _ hk => hk.elim) fun _ => Or.inl ?_
            exact ⟨i, stream.node, _, List.getElem?_set_self (List.getElem?_eq_some_iff.mp hi).1, rfl⟩
        · have hquiet := Call.quiet hcodec (Bool.eq_false_iff.mpr hrequest) (hsound.checked (by simp [ahead, hpc])) hframe
          refine hrelease _ (Bool.eq_false_iff.mpr hrequest) (hidle.set hk (fun _ _ hk => hk) fun _ => Or.inr ?_)
          exact hgreets.writeFrame (by omega) hquiet _

theorem Inv.read {result : Except TransportError (Bytes × Origin Writer)} {s₁ : TcpTransport} (h : Inv codec peers τ s)
    (hi : s.callers[i]? = some c) (hpc : c.pc = .read k node) (hstep : s.readFrame fault k = some (result, s₁)) :
    Inv codec peers (τ ++ [x]) (s₁.answered i c codec node result) := by
  have hsound := h.callers i c hi
  have hphase := hsound.phase
  rw [Phase, hpc] at hphase
  obtain ⟨hholder, hpooled, stream, frame, hk, hframe, hasking⟩ := hphase
  have hpool := h.idle_but hi hholder
  -- the stream it reads on is the one that leaves the pool
  have hgone : ∀ node' k', node' ≠ node → s.connections node' = some k' → (∃ m, c.pc = .read k' m) → False := by
    rintro node' k' hne hk' ⟨m, hread⟩
    rw [hpc] at hread
    cases hread
    obtain ⟨old, hold, rfl, -⟩ := h.pool node k hpooled
    obtain ⟨old', hold', rfl, -⟩ := h.pool node' k hk'
    cases hold.symm.trans hold'
    exact hne rfl
  rcases readFrame_cases hstep with ⟨rfl, err, rfl⟩ | ⟨stream', taken, outbound, hk', hout, rfl, rfl⟩
  · exact h.discard hi hholder hsound.own.snoc (hpool.remove node hgone)
  · cases hk.symm.trans hk'
    obtain ⟨horigin, hanswered, hgreets⟩ := hasking.readFrame hout
    have hown : Own codec peers (τ ++ [x]) i { c with took := some taken } := by
      intro bytes origin htook
      cases htook
      exact ⟨horigin, node, hsound.nodes (by simp [ahead, hpc]), frame, hframe, hanswered.snoc⟩
    have hidle : Pooled codec (fun _ => False) s.connections
        (s.streams.set k { stream with conn := { stream.conn with outbound } }) := by
      refine hpool.set hk ?_ fun _ => Or.inr hgreets
      rintro k' hne ⟨m, hread⟩
      rw [hpc] at hread
      cases hread
      exact hne rfl
    cases hdecode : c.call.decodeReply codec taken.1 with
    | error err =>
      simp only [answered, hdecode]
      exact h.discard hi hholder hown (hidle.remove node fun _ _ _ _ hk => hk)
    | ok outcome =>
      simp only [answered, hdecode]
      refine h.of_holder hi hholder rfl ⟨by simp [ahead], by simp [ahead], trivial, hown, ?_⟩
        (hidle.mono fun _ hk => hk.elim)
      intro _ outcome' hreturned
      cases hreturned
      exact ⟨taken.1, taken.2, rfl, hdecode⟩

end Use

/-! ## Every step -/

theorem Inv.advance (hcodec : codec.frame.RoundTrips) (h : Inv codec peers τ s) (hi : s.callers[i]? = some c)
    (hstep : s.advance i c codec peers localNode hooks fault = some s') : Inv codec peers (τ ++ [x]) s' := by
  cases hpc : c.pc with
  | start => exact h.start hi hpc hstep
  | lock node rest =>
    rw [TcpTransport.advance, hpc] at hstep
    exact h.lock hi hpc hstep
  | dial node rest =>
    rw [TcpTransport.advance, hpc] at hstep
    cases hstep
    exact h.dial hi hpc
  | greet stage k node rest =>
    rw [TcpTransport.advance, hpc] at hstep
    obtain ⟨⟨result, s₁⟩, hgreet, rfl⟩ := Option.map_eq_some_iff.mp hstep
    exact h.greet hcodec hi hpc hgreet
  | write k node rest =>
    rw [TcpTransport.advance, hpc] at hstep
    exact h.use hcodec hi hpc hstep
  | read k node =>
    rw [TcpTransport.advance, hpc] at hstep
    obtain ⟨⟨result, s₁⟩, hread, rfl⟩ := Option.map_eq_some_iff.mp hstep
    exact h.read hi hpc hread
  | returned result =>
    rw [TcpTransport.advance, hpc] at hstep
    cases hstep
  | panicked =>
    rw [TcpTransport.advance, hpc] at hstep
    cases hstep

theorem Inv.panic (h : Inv codec peers τ s) (hi : s.callers[i]? = some c) (hstep : s.panic i c = some s') :
    Inv codec peers (τ ++ [x]) s' := by
  have hphase := (h.callers i c hi).phase
  unfold TcpTransport.panic at hstep
  cases hpc : c.pc with
  | greet stage k node rest =>
    rw [Phase, hpc] at hphase
    rw [hpc] at hstep
    obtain ⟨-, hs'⟩ := Option.ite_none_right_eq_some.mp hstep
    cases hs'
    exact h.of_release hi hphase.1 rfl (by simp [ahead]) trivial (by simp)
      ((h.idle_but hi hphase.1).mono (by simp [hpc]))
  | _ => simp [hpc] at hstep

theorem Inv.call (h : Inv codec peers τ s) (call : Call) :
    Inv codec peers (τ ++ [x]) { s with callers := s.callers ++ [{ call }] } := by
  refine ⟨fun j d hj => ?_, h.pool.mono ?_⟩
  · rcases getElem?_snoc_cases hj with hj | ⟨-, rfl⟩
    · exact (h.callers j d hj).frame fun hholder => ⟨hholder, rfl, rfl⟩
    · exact ⟨by simp [ahead], by simp [ahead], trivial, fun _ _ htook => (by cases htook),
        fun _ _ hpc => (by cases hpc)⟩
  · rintro k ⟨j, node, d, hj, hpc⟩
    have hlt : j < s.callers.length := (List.getElem?_eq_some_iff.mp hj).1
    exact ⟨j, node, d, (List.getElem?_append_left hlt).trans hj, hpc⟩

/-- The peer of a stream goes on. -/
theorem Inv.serve {k : Nat} {stream : Stream} {conn : Connection Writer} (hhooks : AnswersSpawns hooks)
    (h : Inv codec peers τ s) (hk : s.streams[k]? = some stream)
    (hserve : stream.conn.serve codec stream.node hooks fault = some conn) :
    Inv codec peers (τ ++ [(s, .serve k hooks fault)]) (s.put k { stream with conn }) := by
  have hserved := Connection.serve_served hserve
  have hlt : k < s.streams.length := (List.getElem?_eq_some_iff.mp hk).1
  refine ⟨fun j d hj => ?_, h.pool.set hk (fun _ _ hk => hk) fun hpooled => ?_⟩
  · have hsound := h.callers j d hj
    refine ⟨hsound.checked, hsound.nodes, ?_, hsound.own.snoc, hsound.faithful⟩
    have hphase := hsound.phase
    unfold Phase at hphase ⊢
    cases hpc : d.pc with
    | dial node rest =>
      simp only [hpc] at hphase ⊢
      exact hphase
    | write k' node rest =>
      simp only [hpc] at hphase ⊢
      exact hphase
    | greet stage k' node rest =>
      simp only [hpc] at hphase ⊢
      obtain ⟨hholder, hpooled, old, hold, hnode, hready⟩ := hphase
      refine ⟨hholder, hpooled, ?_⟩
      by_cases hkk : k' = k
      · subst hkk
        cases hk.symm.trans hold
        exact ⟨_, List.getElem?_set_self hlt, hnode, hready.serve hhooks hserve⟩
      · exact ⟨old, (List.getElem?_set_ne (Ne.symm hkk)).trans hold, hnode, hready⟩
    | read k' node =>
      simp only [hpc] at hphase ⊢
      obtain ⟨hholder, hpooled, old, frame, hold, hframe, hasking⟩ := hphase
      refine ⟨hholder, hpooled, ?_⟩
      by_cases hkk : k' = k
      · subst hkk
        cases hk.symm.trans hold
        obtain ⟨old, hold, hnode, -⟩ := h.pool node k' hpooled
        cases hk.symm.trans hold
        refine ⟨_, frame, List.getElem?_set_self hlt, hframe,
          hasking.serve hhooks hserved (fun _ hb => hb.snoc) fun bytes rest hfault hpc hin hanswer => ?_⟩
        subst hfault
        exact ⟨(s, .serve k' hooks none), by simp, k', hooks, stream, rest, rfl, hk, hnode, hpc, hin, hanswer⟩
      · exact ⟨old, frame, (List.getElem?_set_ne (Ne.symm hkk)).trans hold, hframe,
          hasking.mono fun _ hb => hb.snoc⟩
    | _ => trivial
  · obtain ⟨old, hold, -, hrest⟩ := h.pool stream.node k hpooled
    cases hk.symm.trans hold
    exact hrest.imp_right fun hgreets => hgreets.serve hhooks hserved

/-- The hooks of the peers, where a step is one of theirs. -/
def Act.AnswersSpawns : Act → Prop
  | .serve _ hooks _ => Tcp.AnswersSpawns hooks
  | .call _ | .step .. | .panic _ => True

theorem Inv.step (hcodec : codec.frame.RoundTrips) {a : Act} (h : Inv codec peers τ s) (ha : a.AnswersSpawns)
    (hstep : Step codec peers localNode s a s') : Inv codec peers (τ ++ [(s, a)]) s' := by
  unfold Step at hstep
  cases a with
  | call call =>
    cases hstep
    exact h.call call
  | step i hooks fault =>
    obtain ⟨c, hi, hstep⟩ := Option.bind_eq_some_iff.mp hstep
    exact h.advance hcodec hi hstep
  | panic i =>
    obtain ⟨c, hi, hstep⟩ := Option.bind_eq_some_iff.mp hstep
    exact h.panic hi hstep
  | serve k hooks fault =>
    obtain ⟨stream, hk, hstep⟩ := Option.bind_eq_some_iff.mp hstep
    obtain ⟨conn, hserve, rfl⟩ := Option.map_eq_some_iff.mp hstep
    exact h.serve ha hk hserve

theorem inv_run (hcodec : codec.frame.RoundTrips) (h : Run (Step codec peers localNode) {} τ s)
    (hhooks : ∀ x ∈ τ, x.2.AnswersSpawns) : Inv codec peers τ s := by
  refine h.inv_history (I := fun τ s => (∀ x ∈ τ, x.2.AnswersSpawns) → Inv codec peers τ s) ?_ ?_ hhooks
  · exact fun _ => ⟨by simp, fun _ _ hk => (by cases hk)⟩
  · intro τ s a s' ih hstep hall
    exact (ih fun x hx => hall x (by simp [hx])).step hcodec (hall (s, a) (by simp)) hstep

/-- **Replies are not mixed up.** In every run, with any calls, any peers and any failures, the frame that a request takes
as its reply is the answer which `serve_connection` of its node gave to its own frame, and a request that returns `Ok`
returns what that frame holds. -/
theorem reply_is_own (hcodec : codec.frame.RoundTrips) (h : Run (Step codec peers localNode) {} τ s)
    (hhooks : ∀ x ∈ τ, x.2.AnswersSpawns) :
    ∀ i c, s.callers[i]? = some c →
      (∀ bytes origin, c.took = some (bytes, origin) → origin = .reply (.call i) ∧
        ∃ node ∈ c.call.nodes peers, ∃ frame, c.call.frame codec = .ok (some frame) ∧
          ∃ x ∈ τ, Answers codec i node frame bytes x) ∧
      (c.call.isRequest = true → ∀ outcome, c.pc = .returned (.ok outcome) →
        ∃ bytes origin, c.took = some (bytes, origin) ∧ c.call.decodeReply codec bytes = .ok outcome) := by
  intro i c hi
  have hsound := (inv_run hcodec h hhooks).callers i c hi
  exact ⟨hsound.own, hsound.faithful⟩

/-- The frames of two requests of node `a` to an actor of node `b`. -/
def pingCodec : Codec where
  handshake := .ofTable [(.own "a", [3, 1, 97]), (.own "b", [3, 1, 98])]
  frame := .ofTable
    [(.registry (.snapshot []), [1, 2, 0]), (.pg (.snapshot []), [2, 2, 0]),
      (.actor ⟨⟨"b", 1⟩, "ping", [1], 7⟩, [0, 1, 98, 1, 4, 112, 105, 110, 103, 1, 1, 7]),
      (.actor ⟨⟨"b", 1⟩, "ping", [2], 8⟩, [0, 1, 98, 1, 4, 112, 105, 110, 103, 1, 2, 8])]
  reply := .ofTable [(⟨7, [1]⟩, [7, 1, 1]), (⟨8, [2]⟩, [8, 1, 2])]
  supervision := .ofTable []
  debug := fun _ => ""

/-- Two threads make a request each. The first times out and the peer answers it too late; the second gets its own reply,
on a stream of its own. -/
def lateReply : List Act :=
  let hooks : Hooks := { dispatch := fun envelope => .ok (some envelope.payload) }
  let step (i n : Nat) : List Act := List.replicate n (.step i hooks none)
  let serve (k n : Nat) : List Act := List.replicate n (.serve k hooks none)
  List.flatten
    [[.call (.requestEnvelope ⟨⟨"b", 1⟩, "ping", [1], 7⟩), .call (.requestEnvelope ⟨⟨"b", 1⟩, "ping", [2], 8⟩)],
      step 0 4, serve 0 4, step 0 6, [.step 0 hooks (some (.io "timed out"))], serve 0 4,
      step 1 4, serve 1 4, step 1 6, serve 1 4, step 1 1]

theorem late_reply_not_taken :
    ∃ (τ : List (TcpTransport × Act)) (s : TcpTransport) (c₀ c₁ : Caller),
      Run (Step pingCodec ["b"] "a") {} τ s ∧ s.callers = [c₀, c₁] ∧ c₀.pc = .returned (.error (.io "timed out")) ∧
      s.streams.map (·.conn.outbound) = [[([7, 1, 1], .reply (.call 0))], []] ∧
      c₁.pc = .returned (.ok (.payload [2])) ∧
      ∃ bytes, c₁.took = some (bytes, .reply (.call 1)) ∧
        c₁.call.decodeReply pingCodec bytes = .ok (.payload [2]) := by
  have hrun : Run (Step pingCodec ["b"] "a") {} _ _ := run_tryPlay (next pingCodec ["b"] "a") {} lateReply (by decide)
  have hcodec : pingCodec.frame.RoundTrips := Postcard.ofTable_roundTrips (by decide)
  have hhooks := forall_mem_tryPlay (next pingCodec ["b"] "a") {} lateReply (P := Act.AnswersSpawns) (by decide)
    (by simp [lateReply, Act.AnswersSpawns, Tcp.AnswersSpawns])
  have hcallers : ((tryPlay (next pingCodec ["b"] "a") {} lateReply).get (by decide)).2.callers =
      [{ call := .requestEnvelope ⟨⟨"b", 1⟩, "ping", [1], 7⟩, pc := .returned (.error (.io "timed out")) },
        { call := .requestEnvelope ⟨⟨"b", 1⟩, "ping", [2], 8⟩, pc := .returned (.ok (.payload [2])),
          took := some ([8, 1, 2], .reply (.call 1)) }] := by
    decide
  refine ⟨_, _, _, _, hrun, hcallers, rfl, by decide, rfl, ?_⟩
  obtain ⟨hown, hresult⟩ := reply_is_own hcodec hrun hhooks 1 _ (by rw [hcallers]; rfl)
  obtain ⟨bytes, origin, htook, hdecode⟩ := hresult rfl _ rfl
  obtain ⟨rfl, -⟩ := hown bytes origin htook
  exact ⟨bytes, htook, hdecode⟩

end TcpTransport

end Spawned.Tcp
