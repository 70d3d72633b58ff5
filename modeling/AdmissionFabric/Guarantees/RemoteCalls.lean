import AdmissionFabric.Guarantees.ExactRequests
import AdmissionFabric.Guarantees.RemoteFencing
import AdmissionFabric.Guarantees.ReplyFidelity
import AdmissionFabric.Ipc.Client

/-!
# An admission over the wire

A client and a worker stand at the two ends of a connection. The worker admits the request that the
client sent, and the client is told what the engine answered, up to what the encoding of a decision
drops. A failure of the engine arrives as an error with the same code and the first bytes of the
same text.
-/

namespace AdmissionFabric

open ByteDecoder

variable {maxFrame : UInt32} {stream : Stream}

/-- The error message that stands for a failure. -/
def reportOf (status : Status) : ErrorMessage :=
  ⟨status.code.code, bounded status.message Limits.maxStringBytes⟩

/-- What a worker can send of an answer. -/
def sendable (maxFrame : UInt32) : Except Status AdmissionDecision → Except Status AdmissionDecision
  | .ok decision =>
    if decision.encode.length > maxFrame.toNat then
      .error ⟨.oversizedFrame, "decision payload exceeds the frame bound"⟩
    else .ok decision
  | .error status => .error status

/-- The frame that carries an answer. -/
def answerFrame : Except Status AdmissionDecision → WireFrame
  | .ok decision => { kind := .decision, payload := decision.encode }
  | .error status => { kind := .errorMessage, payload := (reportOf status).encode }

/-- What a client makes of an answer. -/
def received : Except Status AdmissionDecision → Except CallFailure AdmissionDecision
  | .ok decision => (decodeDecision decision.encode).mapError .status
  | .error status => .error (.reported (reportOf status))

theorem length_reportOf_le (status : Status) : (reportOf status).encode.length ≤ 100 := by
  have hlength : (bounded status.message Limits.maxStringBytes).length ≤ 96 :=
    length_bounded_le _ _
  have htext := Nat.not_lt.mpr (length_bounded_le status.message Limits.maxStringBytes)
  simp [ErrorMessage.encode, reportOf, putString, putText, htext, length_asciiBytes, putU16]
  omega

theorem decodeError_reportOf {status : Status} (h : IsBytes status.message) :
    decodeError (reportOf status).encode = .ok (reportOf status) :=
  decode_of_reads <| (Reads.u16 _ _).bind <| (reads_string (isBytes_bounded h _)
    (length_bounded_le _ _) _).bind <| Reads.pure _

theorem writeMessage_of_nil (hwrites : stream.writes = []) (frame : WireFrame)
    (hlength : frame.payload.length ≤ maxFrame.toNat) :
    writeMessage stream frame.kind frame.flags frame.payload maxFrame =
      (.ok (), { stream with written := stream.written ++ frame.encode }) := by
  rw [writeMessage, if_neg (Nat.not_lt.mpr hlength), Stream.writeAll, hwrites]
  rfl

theorem sendError_of_nil (hwrites : stream.writes = []) (hbound : 100 ≤ maxFrame.toNat)
    (status : Status) : sendError maxFrame stream status.code status.message = (.ok (),
      { stream with written := stream.written ++ (answerFrame (.error status)).encode }) := by
  have htext : (if status.message.length > Limits.maxStringBytes then
      String.ofList (status.message.toList.take Limits.maxStringBytes) else status.message) =
      bounded status.message Limits.maxStringBytes := by
    simp only [bounded, gt_iff_lt, ← Nat.not_le, ite_not]
  rw [sendError, htext]
  exact writeMessage_of_nil hwrites (answerFrame (.error status))
    ((length_reportOf_le status).trans hbound)

/-- Two states of a stream that differ in nothing but what is still to arrive. -/
def Stream.SameWrites (stream stream' : Stream) : Prop :=
  stream'.writes = stream.writes ∧ stream'.written = stream.written

theorem Stream.SameWrites.trans {stream₁ stream₂ stream₃ : Stream}
    (h : stream₁.SameWrites stream₂) (h' : stream₂.SameWrites stream₃) :
    stream₁.SameWrites stream₃ :=
  ⟨h'.1.trans h.1, h'.2.trans h.2⟩

theorem sameWrites_readLoop (turns : Nat) : ∀ (stream : Stream) (size : Nat),
    stream.SameWrites (Stream.readLoop turns stream size).2 := by
  induction turns with
  | zero => exact fun _ _ => ⟨rfl, rfl⟩
  | succ turns ih =>
    intro stream size
    have hsome : stream.SameWrites (stream.readSome size).2 := by
      unfold Stream.readSome
      split
      · exact ⟨rfl, rfl⟩
      · exact ⟨rfl, rfl⟩
      · split <;> exact ⟨rfl, rfl⟩
    unfold Stream.readLoop
    split
    · exact ⟨rfl, rfl⟩
    · generalize stream.readSome size = read at hsome ⊢
      obtain ⟨status | _ | ⟨byte, got⟩, stream'⟩ := read
      · exact hsome
      · dsimp only
        split <;> exact hsome
      · have hmore := ih stream' (size - (byte :: got).length)
        dsimp only
        generalize Stream.readLoop turns stream' _ = more at hmore ⊢
        obtain ⟨status | _, _⟩ := more <;> exact hsome.trans hmore

theorem sameWrites_readMessage (stream : Stream) (maxFrame : UInt32) :
    stream.SameWrites (readMessage stream maxFrame).2 := by
  have hheader : stream.SameWrites (stream.readFull wireHeaderBytes).2 :=
    sameWrites_readLoop _ _ _
  unfold readMessage
  generalize stream.readFull wireHeaderBytes = read at hheader ⊢
  obtain ⟨status | header, stream'⟩ := read
  · exact hheader
  · dsimp only
    split_ifs
    · exact hheader
    · exact hheader
    · split
      · exact hheader
      · rename_i fields _
        unfold readPayload
        split_ifs
        · exact hheader
        · exact hheader
        · have hbody : stream'.SameWrites (stream'.readFull fields.length).2 :=
            sameWrites_readLoop _ _ _
          generalize stream'.readFull fields.length = read at hbody ⊢
          obtain ⟨status | payload, stream''⟩ := read
          · exact hheader.trans hbody
          · dsimp only
            split_ifs <;> exact hheader.trans hbody

/-- A client and a worker at the two ends of a connection. What either side writes is delivered to
the other, in chunks of any size. -/
structure Connected (client : Client) (sent : WireFrame) (maxFrame : UInt32) (stop : StopSeen)
    (core : EngineCore) (served : Stream) : Prop where
  running : stop ≠ .atHead
  bound : 100 ≤ maxFrame.toNat
  frames : maxFrame.toNat ≤ client.maxFrame.toNat
  sent_le : sent.payload.length ≤ maxFrame.toNat
  arrives : served.writes = [] ∧ ∃ rest, served.Delivers (sent.encode ++ rest)
  returns : ∃ stream answer rest, client.stream = some stream ∧ stream.writes = [] ∧
    (handleTurn maxFrame stop core served).stream.written = served.written ++ answer ∧
    stream.Delivers (answer ++ rest)

theorem sendDecision_answer (hwrites : stream.writes = []) (hbound : 100 ≤ maxFrame.toNat)
    (message : AdmitMessage) (core : EngineCore) (call : AdmitMessage → Outcome AdmissionDecision) :
    answerCall maxFrame (.ok message) call (sendDecision maxFrame) core stream =
      ⟨.again, (call message).2, { stream with written := stream.written ++
        (answerFrame (sendable maxFrame (call message).1)).encode }⟩ := by
  rcases hcall : call message with ⟨status | decision, core'⟩
  · simp only [answerCall, hcall, afterError, sendable, sendError_of_nil hwrites hbound status]
  · simp only [answerCall, hcall, sendDecision, sendBounded, sendable]
    split
    · rw [sendError_of_nil hwrites hbound ⟨.oversizedFrame, _⟩]
      rfl
    · rename_i hfits
      rw [writeMessage_of_nil hwrites { kind := .decision, payload := decision.encode }
        (Nat.not_lt.mp hfits)]
      rfl

theorem of_sendable {result : Except Status AdmissionDecision} (hbound : 100 ≤ maxFrame.toNat)
    (hbytes : ∀ status, result = .error status → IsBytes status.message) :
    (answerFrame (sendable maxFrame result)).payload.length ≤ maxFrame.toNat ∧
      ∀ status, sendable maxFrame result = .error status → IsBytes status.message := by
  cases result with
  | error status => exact ⟨(length_reportOf_le status).trans hbound, hbytes⟩
  | ok decision =>
    simp only [sendable]
    split
    · refine ⟨(length_reportOf_le _).trans hbound, fun status hstatus => ?_⟩
      obtain rfl := Except.error.inj hstatus
      exact isBytes_of_all (by decide +kernel)
    · rename_i hfits
      exact ⟨Nat.not_lt.mp hfits, nofun⟩

/-- The worker leaves the engine as the admission left it, and the client is told what the engine
answered. -/
theorem admit_over_wire {client : Client} {request : AdmissionRequest} {core : EngineCore}
    {stop : StopSeen} {served : Stream}
    (h : Connected client { kind := .admitMessage, payload := (client.admitMessage request).encode }
      maxFrame stop core served)
    (hmessage : (client.admitMessage request).Encodable)
    (hbytes : ∀ status, (core.admitLocked request (client.admitMessage request).claim).1 =
      .error status → IsBytes status.message) :
    (handleTurn maxFrame stop core served).core =
        (core.admitLocked request (client.admitMessage request).claim).2 ∧
      (client.admitRequest request).1 = received (sendable maxFrame
        (core.admitLocked request (client.admitMessage request).claim).1) := by
  obtain ⟨stream, answer, rest, hstream, hwrites, hwritten, hdelivers⟩ := h.returns
  obtain ⟨hserved, more, harrives⟩ := h.arrives
  obtain ⟨hsent, -⟩ := readMessage_of_delivers h.sent_le harrives
  obtain ⟨served', hread⟩ : ∃ served', readMessage served maxFrame = (.ok _, served') :=
    ⟨_, Prod.ext hsent rfl⟩
  have hquiet := sameWrites_readMessage served maxFrame
  rw [hread] at hquiet
  rw [← hquiet.1] at hserved
  rw [← hquiet.2] at hwritten
  have hanswer := sendDecision_answer hserved h.bound (client.admitMessage request) core
    fun message => core.admitLocked message.request message.claim
  have hturn : handleTurn maxFrame stop core served = answerCall maxFrame
      (.ok (client.admitMessage request)) (fun message => core.admitLocked message.request
        message.claim) (sendDecision maxFrame) core served' := by
    simp only [handleTurn, if_neg h.running, hread, handleMessage,
      exact_requestCodecs.2.1.decode_encode _ hmessage]
  rw [hturn, hanswer] at hwritten ⊢
  obtain rfl := List.append_cancel_left hwritten
  refine ⟨rfl, ?_⟩
  change stream.Delivers ((answerFrame (sendable maxFrame (core.admitLocked request _).1)).encode ++
    rest) at hdelivers
  obtain ⟨hfits, hbytes'⟩ := of_sendable h.bound hbytes
  generalize sendable maxFrame (core.admitLocked request _).1 = result at *
  -- the write changes nothing of what is delivered
  have hsent (written : List UInt8) : ({ stream with written } : Stream).Delivers _ := hdelivers
  obtain ⟨hreply, -⟩ := readMessage_of_delivers (hfits.trans h.frames) (hsent _)
  have hwrite : writeMessage stream .admitMessage 0 (client.admitMessage request).encode
      client.maxFrame = _ :=
    writeMessage_of_nil hwrites ⟨.admitMessage, 0, _⟩ (h.sent_le.trans h.frames)
  simp only [Client.admitRequest, Client.request, hstream, hwrite]
  generalize readMessage _ client.maxFrame = outcome at hreply ⊢
  obtain ⟨read, stream'⟩ := outcome
  obtain rfl := hreply
  cases result with
  | ok decision => simp [answerFrame, received]
  | error status => simp [answerFrame, decodeError_reportOf (hbytes' status rfl), received]

section Examples

open RemoteFencing

/-- A client of the session of the ready engine. -/
def readyClient (stream : Stream) : Client :=
  { publisher := 7, boot := 7, welcome := { session := 1, epoch := 1 }, stream := some stream }

/-- The claim that the client attaches. -/
def wireClaim : ClaimContext :=
  { boundClaim with attempt := (SmallFabric.request 1 ⟨1, 20, 20⟩ [1]).attempt, sequence := 1 }

theorem admitMessage_readyClient (stream : Stream) :
    (readyClient stream).admitMessage (SmallFabric.request 1 ⟨1, 20, 20⟩ [1]) =
      message wireClaim := by
  rfl

theorem exists_connected : ∃ stream, Connected (readyClient stream) (frameOf wireClaim)
    Limits.maxFrameBytes .never readyCore (streamOf wireClaim) := by
  have hlength : (frameOf wireClaim).payload.length ≤ Limits.maxFrameBytes.toNat := by
    decide +kernel
  have harrives : (streamOf wireClaim).Delivers ((frameOf wireClaim).encode ++ []) := by
    have hne := (frameOf wireClaim).encode_ne_nil
    exact ⟨rfl, [(frameOf wireClaim).encode], rfl, List.forall_mem_singleton.mpr hne, by simp⟩
  have hdelivers (answer : List UInt8) :
      Stream.Delivers { arrivals := (answer.map ([·])).map .ok } (answer ++ []) :=
    ⟨rfl, answer.map ([·]), rfl, by simp, by
      rw [List.append_nil, ← List.flatMap_def, List.flatMap_singleton']⟩
  exact ⟨_, nofun, by decide, le_rfl, hlength, ⟨rfl, [], harrives⟩, _, _, [], rfl, rfl,
    (List.nil_append _).symm, hdelivers _⟩

/-- The request of the ready client. -/
theorem admit_over_wire_ready :
    ∃ client : Client, (client.admitRequest (SmallFabric.request 1 ⟨1, 20, 20⟩ [1])).1 =
      received (sendable Limits.maxFrameBytes
        (readyCore.admitLocked (SmallFabric.request 1 ⟨1, 20, 20⟩ [1]) wireClaim).1) := by
  have hok : (readyCore.admitLocked (SmallFabric.request 1 ⟨1, 20, 20⟩ [1]) wireClaim).1.toBool =
      true := by decide +kernel
  have hencodable : (message wireClaim).Encodable :=
    ⟨by change 1 < 2 ^ 64; decide, by decide, by decide, by decide⟩
  obtain ⟨stream, hconnected⟩ := exists_connected
  have hmessage := admitMessage_readyClient stream
  have hwire := @admit_over_wire Limits.maxFrameBytes (readyClient stream)
    (SmallFabric.request 1 ⟨1, 20, 20⟩ [1]) readyCore .never (streamOf wireClaim)
  rw [hmessage] at hwire
  refine ⟨readyClient stream, (hwire hconnected hencodable fun status hstatus => ?_).2⟩
  change (readyCore.admitLocked _ wireClaim).1 = _ at hstatus
  rw [hstatus] at hok
  cases hok

end Examples

end AdmissionFabric
