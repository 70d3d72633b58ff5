import AdmissionFabric.Ipc.Frame
import AdmissionFabric.Ipc.Protocol

/-!
# The claimant's client

A client sends one message at a time and reads the reply from the same stream. The claim that it
attaches is that of the session it was granted, unless another one is installed.

The connection and the greeting are not modelled: a client is given with its stream and its welcome.

Source: `include/naf/ipc/client.hpp`, `src/ipc/client.cpp`.
-/

namespace AdmissionFabric

open ByteDecoder

/-- Read an error. -/
def errorDecoder : Decoder Status ErrorMessage := do
  let code ← u16 (malformed "error is truncated")
  let text ← stringDecoder (malformed "error text is invalid")
  return { code, text }

/-- A whole payload as an error. -/
def decodeError (bytes : List UInt8) : Except Status ErrorMessage :=
  decodePayload errorDecoder bytes

/-- Why a call fails: on this side, or with an error that the peer reports, under any code. -/
inductive CallFailure
  | status (status : Status)
  | reported (message : ErrorMessage)
  deriving DecidableEq, Repr

/-- A client and its end of the connection. -/
structure Client where
  publisher : PublisherId := 0
  boot : BootId := 0
  maxFrame : UInt32 := Limits.maxFrameBytes
  origin : OriginKind := .claimant
  stream : Option Stream := none
  welcome : WelcomeMessage := {}
  override : Option ClaimContext := none
  sequence : UInt64 := 0

namespace Client

/-- Send a frame and wait for the reply. -/
def request (client : Client) (kind : MessageKind) (payload : List UInt8) :
    Except CallFailure WireFrame × Client :=
  match client.stream with
  | none => (.error (.status ⟨.transportFailure, "client is not connected"⟩), client)
  | some stream =>
    match writeMessage stream kind 0 payload client.maxFrame with
    | (.error status, stream) => (.error (.status status), { client with stream })
    | (.ok (), stream) =>
      match readMessage stream client.maxFrame with
      | (.error status, stream) => (.error (.status status), { client with stream })
      | (.ok frame, stream) =>
        (if frame.kind = .errorMessage then match decodeError frame.payload with
          | .error status => .error (.status status)
          | .ok message => .error (.reported message)
        else .ok frame, { client with stream })

/-- The claim of the client. -/
def buildClaim (client : Client) : ClaimContext :=
  let bound : ClaimContext := match client.override with
    | some claim => claim
    | none => {
      session := client.welcome.session
      incarnation := client.welcome.incarnation
      epoch := client.welcome.epoch }
  { bound with origin := client.origin, publisher := client.publisher, boot := client.boot }

/-- The message of an admission, which carries the next sequence number. -/
def admitMessage (client : Client) (request : AdmissionRequest) : AdmitMessage where
  claim := { client.buildClaim with
    attempt := request.attempt
    trace := request.provenance.trace
    sequence := client.sequence + 1 }
  request := request

/-- Ask for an admission. -/
def admitRequest (client : Client) (request : AdmissionRequest) :
    Except CallFailure AdmissionDecision × Client :=
  match { client with sequence := client.sequence + 1 }.request .admitMessage
    (client.admitMessage request).encode with
  | (.error failure, client) => (.error failure, client)
  | (.ok frame, client) =>
    (if frame.kind ≠ .decision then
      .error (.status ⟨.protocolViolation, "expected a Decision message"⟩)
    else (decodeDecision frame.payload).mapError .status, client)

end Client

end AdmissionFabric
