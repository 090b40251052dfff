import Spawned.Cluster.Tcp.Listener
import Spawned.Lib.BigEndian

/-!
# Length-prefixed frames

`write_frame` and `read_frame` put the transports' frames on a stream of bytes, each body after its length in four bytes.
The codec of the libp2p streams has a pair of its own.

* `Source`, `Sink` : the two ends of a stream, with the text of the error when it ends or takes no more. The frames only
  pass it on: `read_exact` of `std` words an early end otherwise than that of `futures`;
* `writeFrame`, `readFrame`, `writeFrameAsync`, `readFrameAsync`;
* `readFrame_eq_ok` : a frame is read exactly when the stream starts with it;
* `frames_round_trip` : streams of frames are read as they were written.
-/

namespace Spawned

open Lib Tcp

/-! ## Streams -/

/-- What is still to be read of a stream. -/
structure Source where
  bytes : Bytes
  /-- what the stream's `read_exact` says when it finds too few bytes -/
  failure : String

/-- `read_exact` into a buffer of `n` bytes. -/
def Source.readExact (source : Source) (n : Nat) : Except String (Bytes × Source) :=
  if n ≤ source.bytes.length then .ok (source.bytes.take n, { source with bytes := source.bytes.drop n })
  else .error source.failure

/-- What was written to a stream, and how many bytes it still takes before it fails. -/
structure Sink where
  written : Bytes := []
  room : Option Nat := none
  failure : String := ""

/-- `write_all`. -/
def Sink.writeAll (sink : Sink) (bytes : Bytes) : Except String Unit × Sink :=
  match sink.room with
  | none => (.ok (), { sink with written := sink.written ++ bytes })
  | some room =>
    if bytes.length ≤ room then
      (.ok (), { sink with written := sink.written ++ bytes, room := some (room - bytes.length) })
    else (.error sink.failure, { sink with written := sink.written ++ bytes.take room, room := some 0 })

/-! ## The two codecs -/

/-- `u32::to_be_bytes`. -/
def u32ToBeBytes (n : UInt32) : Bytes := toBeBytes 4 n.toNat

/-- `u32::from_be_bytes(..) as usize`. -/
def u32FromBeBytes (bytes : Bytes) : Nat := ofBeBytes bytes

def frameTooLarge (len : Nat) : TransportError := .protocol ("frame too large: " ++ toString len ++ " bytes")

/-- `write_frame`. -/
def writeFrame (writer : Sink) (body : Bytes) : Except TransportError Unit × Sink :=
  if body.length > maxFrameSize then (.error (frameTooLarge body.length), writer)
  else
    let len := UInt32.ofNat body.length
    match writer.writeAll (u32ToBeBytes len) with
    | (.error e, writer) => (.error (.io e), writer)
    | (.ok (), writer) =>
      match writer.writeAll body with
      | (.error e, writer) => (.error (.io e), writer)
      | (.ok (), writer) => (.ok (), writer)

/-- `read_frame`, with the rest of the stream. -/
def readFrame (reader : Source) : Except TransportError (Bytes × Source) := do
  let header ← (reader.readExact 4).mapError .io
  let len := u32FromBeBytes header.1
  if len > maxFrameSize then throw (frameTooLarge len)
  else (header.2.readExact len).mapError .io

/-- `write_frame_async`. -/
def writeFrameAsync (writer : Sink) (body : Bytes) : Except TransportError Unit × Sink :=
  if body.length > maxFrameSize then (.error (frameTooLarge body.length), writer)
  else
    let len := UInt32.ofNat body.length
    match writer.writeAll (u32ToBeBytes len) with
    | (.error e, writer) => (.error (.io e), writer)
    | (.ok (), writer) =>
      match writer.writeAll body with
      | (.error e, writer) => (.error (.io e), writer)
      | (.ok (), writer) => (.ok (), writer)

/-- `read_frame_async`. -/
def readFrameAsync (reader : Source) : Except TransportError (Bytes × Source) := do
  let header ← (reader.readExact 4).mapError .io
  let len := u32FromBeBytes header.1
  if len > maxFrameSize then throw (frameTooLarge len)
  else (header.2.readExact len).mapError .io

/-- The same result of reading a stream that words its failure otherwise. -/
def rewordFailure (failure : String) : Except TransportError (Bytes × Source) → Except TransportError (Bytes × Source)
  | .ok (body, reader) => .ok (body, { reader with failure })
  | .error (.io _) => .error (.io failure)
  | .error err => .error err

/-- Frame after frame, `n` of them. -/
def readFrames : Nat → Source → Except TransportError (List Bytes × Source)
  | 0, reader => .ok ([], reader)
  | n + 1, reader => do
    let frame ← readFrame reader
    let frames ← readFrames n frame.2
    pure (frame.1 :: frames.1, frames.2)

/-! ## Writing -/

/-- What `write_frame` writes to a stream that takes it. -/
def frameBytes (body : Bytes) : Bytes := u32ToBeBytes (UInt32.ofNat body.length) ++ body

theorem writeFrame_of_gt {body : Bytes} (h : maxFrameSize < body.length) (writer : Sink) :
    writeFrame writer body = (.error (frameTooLarge body.length), writer) :=
  if_pos h

theorem writeFrame_of_le {body : Bytes} (h : body.length ≤ maxFrameSize) {writer : Sink} (hroom : writer.room = none) :
    writeFrame writer body = (.ok (), { writer with written := writer.written ++ frameBytes body }) := by
  unfold writeFrame
  rw [if_neg (Nat.not_lt.mpr h)]
  simp only [Sink.writeAll, hroom, frameBytes, List.append_assoc]

/-- The connections, whose streams are modelled frame by frame, refuse what `write_frame` refuses. -/
theorem writeFrame_eq_checkFrame {writer : Sink} (hroom : writer.room = none) (body : Bytes) :
    (writeFrame writer body).1 = checkFrame body := by
  unfold checkFrame
  split_ifs with hlarge
  · rw [writeFrame_of_gt hlarge]
    rfl
  · rw [writeFrame_of_le (Nat.not_lt.mp hlarge) hroom]

/-- The length of a body that is not too large fits the four bytes. -/
theorem u32FromBeBytes_header {n : Nat} (h : n ≤ maxFrameSize) : u32FromBeBytes (u32ToBeBytes (UInt32.ofNat n)) = n := by
  have hlt : n < 2 ^ 32 := Nat.lt_of_le_of_lt h (by decide)
  have hnat : (UInt32.ofNat n).toNat = n := UInt32.toNat_ofNat_of_lt' hlt
  rw [u32FromBeBytes, u32ToBeBytes, hnat]
  exact ofBeBytes_toBeBytes hlt

/-! ## Reading -/

theorem readExact_eq_ok {source source' : Source} {n : Nat} {bytes : Bytes} :
    source.readExact n = .ok (bytes, source') ↔
      bytes.length = n ∧ source = { source' with bytes := bytes ++ source'.bytes } := by
  unfold Source.readExact
  constructor
  · intro h
    split_ifs at h with hle
    cases h
    refine ⟨List.length_take_of_le hle, ?_⟩
    rw [List.take_append_drop]
  · rintro ⟨rfl, rfl⟩
    rw [if_pos (by simp), List.take_left', List.drop_left'] <;> rfl

theorem mapError_readExact {source source' : Source} {n : Nat} {bytes : Bytes} :
    (source.readExact n).mapError TransportError.io = .ok (bytes, source') ↔
      source.readExact n = .ok (bytes, source') := by
  cases source.readExact n with
  | error e => simp [Except.mapError]
  | ok read => simp [Except.mapError]

/-- A frame is read exactly when the stream starts with its four bytes of length, which are not above the limit, and with
so many bytes after them. -/
theorem readFrame_eq_ok {reader reader' : Source} {body : Bytes} :
    readFrame reader = .ok (body, reader') ↔
      ∃ header, header.length = 4 ∧ u32FromBeBytes header = body.length ∧ body.length ≤ maxFrameSize ∧
        reader = { reader' with bytes := header ++ body ++ reader'.bytes } := by
  unfold readFrame
  constructor
  · intro h
    obtain ⟨⟨header, source⟩, hheader, hrest⟩ := except_bind_eq_ok.mp h
    obtain ⟨hfour, rfl⟩ := readExact_eq_ok.mp (mapError_readExact.mp hheader)
    dsimp only at hrest
    split_ifs at hrest with hlarge
    obtain ⟨hlen, rfl⟩ := readExact_eq_ok.mp (mapError_readExact.mp hrest)
    exact ⟨header, hfour, hlen.symm, hlen ▸ Nat.not_lt.mp hlarge, by simp⟩
  · rintro ⟨header, hfour, hlen, hle, rfl⟩
    refine except_bind_eq_ok.mpr ⟨(header, { reader' with bytes := body ++ reader'.bytes }), ?_, ?_⟩
    · exact mapError_readExact.mpr (readExact_eq_ok.mpr ⟨hfour, by simp⟩)
    · dsimp only
      rw [if_neg (by rw [hlen]; exact Nat.not_lt.mpr hle)]
      exact mapError_readExact.mpr (readExact_eq_ok.mpr ⟨hlen.symm, rfl⟩)

/-- The frame that was written first is read first, and the stream goes on after it. -/
theorem readFrame_frameBytes {body : Bytes} (h : body.length ≤ maxFrameSize) (rest : Bytes) (failure : String) :
    readFrame ⟨frameBytes body ++ rest, failure⟩ = .ok (body, ⟨rest, failure⟩) :=
  readFrame_eq_ok.mpr ⟨_, length_toBeBytes 4 _, u32FromBeBytes_header h, h, rfl⟩

theorem readFrames_frameBytes {bodies : List Bytes} (h : ∀ body ∈ bodies, body.length ≤ maxFrameSize) (rest : Bytes)
    (failure : String) :
    readFrames bodies.length ⟨bodies.flatMap frameBytes ++ rest, failure⟩ = .ok (bodies, ⟨rest, failure⟩) := by
  induction bodies with
  | nil => rfl
  | cons body bodies ih =>
    have hbody := readFrame_frameBytes (h body (by simp)) (bodies.flatMap frameBytes ++ rest) failure
    have hbodies := ih fun b hb => h b (by simp [hb])
    rw [List.flatMap_cons, List.append_assoc]
    refine except_bind_eq_ok.mpr ⟨_, hbody, except_bind_eq_ok.mpr ⟨_, hbodies, rfl⟩⟩

/-- What is not a frame is an error: a length above the limit, an end inside the header or inside the body. -/
theorem readFrame_eq_error {reader : Source}
    (h : reader.bytes.length < 4 ∨ maxFrameSize < u32FromBeBytes (reader.bytes.take 4) ∨
      reader.bytes.length < 4 + u32FromBeBytes (reader.bytes.take 4)) : ∃ err, readFrame reader = .error err := by
  cases hread : readFrame reader with
  | error err => exact ⟨err, rfl⟩
  | ok frame =>
    obtain ⟨header, hfour, hlen, hle, hreader⟩ := (@readFrame_eq_ok reader frame.2 frame.1).mp hread
    have htake : reader.bytes.take 4 = header := by
      rw [hreader, List.append_assoc, List.take_left' hfour]
    have hlength : reader.bytes.length = 4 + frame.1.length + frame.2.bytes.length := by
      rw [hreader, List.length_append, List.length_append, hfour]
    rw [htake] at h
    omega

theorem readExact_reword (source : Source) (n : Nat) (failure : String) :
    (Source.readExact { source with failure } n).mapError TransportError.io =
      match source.readExact n with
      | .ok (bytes, rest) => .ok (bytes, { rest with failure })
      | .error _ => .error (.io failure) := by
  unfold Source.readExact
  split_ifs <;> rfl

/-- On a stream that words its failure otherwise the reader comes to the same result. -/
theorem readFrame_reword (reader : Source) (failure : String) :
    readFrame { reader with failure } = rewordFailure failure (readFrame reader) := by
  unfold readFrame
  rw [readExact_reword]
  cases reader.readExact 4 with
  | error e => rfl
  | ok header =>
    show (if u32FromBeBytes header.1 > maxFrameSize then _ else _) =
      rewordFailure failure (if u32FromBeBytes header.1 > maxFrameSize then _ else _)
    split_ifs with hlarge
    · rfl
    · rw [readExact_reword]
      cases header.2.readExact (u32FromBeBytes header.1) <;> rfl

/-! ## Whole streams -/

/-- **Framing round-trips whole streams.** Bodies within the limit are written, and from what was written, whatever comes
after it, exactly they are read; a larger body is refused before anything is written; what is read is a whole body with
its length before it, and a length above the limit, or an end inside a frame, is an error; and the codec of the libp2p
streams does the same on every stream, also on one that words an early end otherwise. -/
theorem frames_round_trip :
    (∀ bodies : List Bytes, (∀ body ∈ bodies, body.length ≤ maxFrameSize) →
      (∀ body ∈ bodies, ∀ writer : Sink, writer.room = none →
        writeFrame writer body =
          (.ok (), { writer with written := writer.written ++ (writeFrame {} body).2.written })) ∧
      ∀ rest failure,
        readFrames bodies.length ⟨bodies.flatMap (fun body => (writeFrame {} body).2.written) ++ rest, failure⟩ =
          .ok (bodies, ⟨rest, failure⟩)) ∧
    (∀ body : Bytes, maxFrameSize < body.length → ∀ writer, ∃ err, writeFrame writer body = (.error err, writer)) ∧
    (∀ reader : Source, (reader.bytes.length < 4 ∨ maxFrameSize < u32FromBeBytes (reader.bytes.take 4) ∨
      reader.bytes.length < 4 + u32FromBeBytes (reader.bytes.take 4)) → ∃ err, readFrame reader = .error err) ∧
    (∀ reader body reader', readFrame reader = .ok (body, reader') →
      reader = { reader' with bytes := reader.bytes.take 4 ++ body ++ reader'.bytes } ∧
        body.length = u32FromBeBytes (reader.bytes.take 4)) ∧
    (∀ writer body, writeFrameAsync writer body = writeFrame writer body) ∧
    (∀ reader, readFrameAsync reader = readFrame reader) ∧
    ∀ reader failure, readFrameAsync { reader with failure } = rewordFailure failure (readFrame reader) := by
  have hbytes : ∀ {body : Bytes}, body.length ≤ maxFrameSize → (writeFrame {} body).2.written = frameBytes body := by
    intro body h
    rw [writeFrame_of_le h rfl]
    rfl
  refine ⟨fun bodies h => ⟨fun body hbody writer hroom => ?_, fun rest failure => ?_⟩, fun body h writer => ?_,
    fun reader h => readFrame_eq_error h, fun reader body reader' h => ?_, fun _ _ => rfl, fun _ => rfl,
    readFrame_reword⟩
  · rw [hbytes (h body hbody)]
    exact writeFrame_of_le (h body hbody) hroom
  · have hmap : bodies.flatMap (fun body => (writeFrame {} body).2.written) = bodies.flatMap frameBytes :=
      List.flatMap_congr fun body hbody => hbytes (h body hbody)
    rw [hmap]
    exact readFrames_frameBytes h rest failure
  · exact ⟨_, writeFrame_of_gt h writer⟩
  · obtain ⟨header, hfour, hlen, -, hreader⟩ := readFrame_eq_ok.mp h
    have htake : reader.bytes.take 4 = header := by
      rw [hreader, List.append_assoc, List.take_left' hfour]
    rw [htake]
    exact ⟨hreader, hlen.symm⟩

/-- An empty body and one of three bytes, with a byte of a frame that is still to come. -/
theorem frames_round_trip_two :
    readFrames 2 ⟨[0, 0, 0, 0, 0, 0, 0, 3, 7, 8, 9, 0], "failed to fill whole buffer"⟩ =
      .ok ([[], [7, 8, 9]], ⟨[0], "failed to fill whole buffer"⟩) :=
  (frames_round_trip.1 [[], [7, 8, 9]] (by decide)).2 [0] "failed to fill whole buffer"

end Spawned
