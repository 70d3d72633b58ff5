import AdmissionFabric.Engine.Operation
import AdmissionFabric.Ipc.Frame
import AdmissionFabric.Ipc.Protocol

/-!
# The coordinator server

The server accepts connections and gives each one a worker that runs `serve`: it reads the greeting,
registers a session, answers messages in a loop and retires the session at the end. The workers and
the owner of the engine run interleaved; the engine serialises their calls, so a worker is modelled
by the stretches of `serve` between one engine call and the next.

The loop is left in many ways. A `Bye` leaves it with the flag `registered` lowered, and `serve`
retires the session of a connection only if the flag is still up.

A worker may see that the server stops at the head of the loop or after a read that failed. That a
stopping server closes its streams shows in their scripts. The bound on the number of connections
is not modelled: there may be any number of them.

Source: `include/naf/ipc/server.hpp`, `src/ipc/server.cpp`.
-/

namespace AdmissionFabric

open EngineCore (SessionGrant)

/-! ### Replies -/

section

variable (maxFrame : UInt32)

/-- Reply with an error. -/
def sendError (stream : Stream) (code : StatusCode) (text : String) :
    Except Status Unit × Stream :=
  let text := if text.length > Limits.maxStringBytes then
      String.ofList (text.toList.take Limits.maxStringBytes)
    else text
  writeMessage stream .errorMessage 0 ({ code := code.code, text } : ErrorMessage).encode maxFrame

/-- Send a reply, or an error if it does not fit into a frame. -/
def sendBounded (kind : MessageKind) (tooLarge : String) (stream : Stream)
    (payload : List UInt8) : Except Status Unit × Stream :=
  if payload.length > maxFrame.toNat then sendError maxFrame stream .oversizedFrame tooLarge
  else writeMessage stream kind 0 payload maxFrame

/-- Reply with a decision. -/
def sendDecision (stream : Stream) (decision : AdmissionDecision) : Except Status Unit × Stream :=
  sendBounded maxFrame .decision "decision payload exceeds the frame bound" stream decision.encode

/-- Reply with a result. -/
def sendRevalidation (stream : Stream) (result : RevalidationResult) :
    Except Status Unit × Stream :=
  sendBounded maxFrame .revalidation "revalidation payload exceeds the frame bound" stream
    result.encode

/-! ### The message loop -/

/-- How a turn of the loop ends: with the next turn, or by leaving with the given flag. -/
inductive TurnEnd
  | again
  | leave (registered : Bool)
  deriving DecidableEq, Repr

/-- What one turn of the loop leaves. -/
structure LoopTurn where
  ending : TurnEnd
  core : EngineCore
  stream : Stream

/-- A turn ends with its reply; the loop is left if the reply cannot be sent. -/
def afterReply (core : EngineCore) : Except Status Unit × Stream → LoopTurn
  | (.ok (), stream) => ⟨.again, core, stream⟩
  | (.error _, stream) => ⟨.leave true, core, stream⟩

/-- Report an error and go on. -/
def afterError (core : EngineCore) (stream : Stream) (status : Status) : LoopTurn :=
  ⟨.again, core, (sendError maxFrame stream status.code status.message).2⟩

/-- Decode a message, call the engine with it and send the result. -/
def answerCall {μ α : Type} (decoded : Except Status μ) (call : μ → Outcome α)
    (send : Stream → α → Except Status Unit × Stream) (core : EngineCore) (stream : Stream) :
    LoopTurn :=
  match decoded with
  | .error status => afterError maxFrame core stream status
  | .ok message =>
    match call message with
    | (.error status, core) => afterError maxFrame core stream status
    | (.ok result, core) => afterReply core (send stream result)

/-- Serve one message. -/
def handleMessage (core : EngineCore) (stream : Stream) (frame : WireFrame) : LoopTurn :=
  match frame.kind with
  | .admitMessage =>
    answerCall maxFrame (decodeAdmit frame.payload)
      (fun message => core.admitLocked message.request message.claim) (sendDecision maxFrame)
      core stream
  | .revalidate =>
    answerCall maxFrame (decodeRevalidate frame.payload)
      (fun message => core.revalidateLocked message.decision message.claim)
      (sendRevalidation maxFrame) core stream
  | .revoke =>
    answerCall maxFrame (decodeRevoke frame.payload)
      (fun message => core.revokeLocked message.decision message.reason message.claim)
      (sendRevalidation maxFrame) core stream
  | .statusRequest =>
    if frame.payload ≠ [] then
      afterError maxFrame core stream ⟨.protocolViolation, "status request must be empty"⟩
    else afterReply core (writeMessage stream .statusReply 0 core.statusLocked.encode maxFrame)
  | .ping => afterReply core (writeMessage stream .pong 0 [] maxFrame)
  | .bye => ⟨.leave false, core, stream⟩
  | kind =>
    ⟨.leave true, core,
      (sendError maxFrame stream .protocolViolation ("unexpected message " ++ kind.toText)).2⟩

/-- When a worker sees in a turn that the server stops. -/
inductive StopSeen
  | never
  | atHead
  | afterRead
  deriving DecidableEq, Repr

/-- One turn of `handle_connection`. -/
def handleTurn (stop : StopSeen) (core : EngineCore) (stream : Stream) : LoopTurn :=
  if stop = .atHead then ⟨.leave true, core, stream⟩
  else match readMessage stream maxFrame with
    | (.error status, stream) =>
      if status.message = "" ∨ stop = .afterRead then ⟨.leave true, core, stream⟩
      else ⟨.leave true, core, (sendError maxFrame stream status.code status.message).2⟩
    | (.ok frame, stream) => handleMessage maxFrame core stream frame

/-! ### One connection -/

/-- Where the worker of a connection stands in `serve`. -/
inductive Phase
  /-- Nothing has been read. -/
  | accepted
  /-- A session is registered and the welcome is about to be written. -/
  | granted (grant : SessionGrant)
  /-- The message loop. -/
  | serving (session : SessionNonce)
  /-- The loop was left. -/
  | leaving (session : SessionNonce) (registered : Bool)
  /-- `serve` has returned; the session that it had registered. -/
  | returned (session : Option SessionNonce)
  deriving DecidableEq, Repr

/-- A stream, and how far it is served. -/
structure Connection where
  stream : Stream
  phase : Phase := .accepted

/-- Close the stream and return without a session. -/
def turnedAway (stream : Stream) : Connection := ⟨stream.close, .returned none⟩

/-- Read the greeting and register a session. -/
def greet (core : EngineCore) (stream : Stream) : EngineCore × Connection :=
  match readMessage stream maxFrame with
  | (.error _, stream) => (core, turnedAway stream)
  | (.ok frame, stream) =>
    let reject (code : StatusCode) (text : String) : EngineCore × Connection :=
      (core, turnedAway (sendError maxFrame stream code text).2)
    if frame.kind ≠ .hello then reject .protocolViolation "the first message must be Hello"
    else match decodeHello frame.payload with
      | .error status => reject status.code status.message
      | .ok hello =>
        if hello.maxFrame < Limits.minFrameBytes then
          reject .protocolViolation "client frame bound is too small"
        else match core.registerSession hello.publisher hello.boot with
          | (.ok grant, core) => (core, ⟨stream, .granted grant⟩)
          | (.error status, core) =>
            let welcome : WelcomeMessage := {
              accepted := false
              epoch := core.epoch
              incarnation := core.incarnation
              reason := status.message }
            (core, turnedAway (writeMessage stream .welcome 0 welcome.encode maxFrame).2)

/-- Write the welcome; a session whose welcome cannot be written is retired. -/
def welcome (core : EngineCore) (stream : Stream) (grant : SessionGrant) :
    EngineCore × Connection :=
  let welcome : WelcomeMessage := {
    accepted := true
    epoch := grant.epoch
    incarnation := grant.incarnation
    session := grant.session
    reason := "session established" }
  match writeMessage stream .welcome 0 welcome.encode maxFrame with
  | (.ok (), stream) => (core, ⟨stream, .serving grant.session⟩)
  | (.error _, stream) =>
    ((core.retireSession grant.session).2, ⟨stream.close, .returned (some grant.session)⟩)

/-- The next stretch of `serve`. -/
def Connection.advance (stop : StopSeen) (core : EngineCore) (connection : Connection) :
    EngineCore × Connection :=
  match connection.phase with
  | .accepted => greet maxFrame core connection.stream
  | .granted grant => welcome maxFrame core connection.stream grant
  | .serving session =>
    let turn := handleTurn maxFrame stop core connection.stream
    match turn.ending with
    | .again => (turn.core, ⟨turn.stream, .serving session⟩)
    | .leave registered => (turn.core, ⟨turn.stream, .leaving session registered⟩)
  | .leaving session registered =>
    (if registered then (core.retireSession session).2 else core,
      ⟨connection.stream.close, .returned (some session)⟩)
  | .returned _ => (core, connection)

/-! ### All connections -/

/-- The engine and all connections that were ever accepted. -/
structure Server where
  core : EngineCore
  connections : List Connection := []

/-- What happens to a server. -/
inductive ServerEvent
  | accept (stream : Stream)
  | advance (index : Nat) (disk : List DiskOutcome) (stop : StopSeen)
  | operate (disk : List DiskOutcome) (operation : Operation)

/-- A step of one worker, or a call of the engine by its owner. -/
def Server.step (server : Server) : ServerEvent → Server
  | .accept stream => { server with connections := server.connections ++ [{ stream }] }
  | .advance index disk stop =>
    match server.connections[index]? with
    | none => server
    | some connection =>
      let (core, connection) := connection.advance maxFrame stop (server.core.onDisk disk)
      { core, connections := server.connections.set index connection }
  | .operate disk operation => { server with core := server.core.next disk operation }

end

end AdmissionFabric
