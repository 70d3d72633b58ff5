import AdmissionFabric.Core.Crc32c
import AdmissionFabric.Durable.Records

/-!
# Framed transport

A frame is a header of twenty bytes and a payload. A frame is delivered only once its whole length
is there and its checksum is right.

A stream delivers what the peer sent in reads of any size. What it will deliver is a script: a
chunk of bytes or a failure for each read, and nothing any more once the script is over. A chunk
that is larger than the buffer of a read is delivered in several reads. The outcomes of the writes
are a script as well; a write beyond it succeeds.

Source: `include/naf/ipc/frame.hpp`, `src/ipc/frame.cpp`, `include/naf/ipc/stream.hpp`.
-/

namespace AdmissionFabric

open LittleEndian

/-! ### Streams -/

/-- A duplex stream. -/
structure Stream where
  arrivals : List (Except Status (List UInt8)) := []
  isOpen : Bool := true
  writes : List (Except Status Unit) := []
  written : List UInt8 := []

namespace Stream

/-- The next bytes, at most `size` of them. -/
def readSome (stream : Stream) (size : Nat) : Except Status (List UInt8) × Stream :=
  match stream.arrivals with
  | [] => (.ok [], stream)
  | .error status :: rest => (.error status, { stream with arrivals := rest })
  | .ok chunk :: rest =>
    if chunk.length ≤ size then (.ok chunk, { stream with arrivals := rest })
    else (.ok (chunk.take size), { stream with arrivals := .ok (chunk.drop size) :: rest })

/-- Write all bytes. -/
def writeAll (stream : Stream) (data : List UInt8) : Except Status Unit × Stream :=
  match stream.writes with
  | .error status :: rest => (.error status, { stream with writes := rest })
  | .ok () :: rest =>
    (.ok (), { stream with writes := rest, written := stream.written ++ data })
  | [] => (.ok (), { stream with written := stream.written ++ data })

/-- Close the connection. -/
def close (stream : Stream) : Stream := { stream with isOpen := false }

/-- Read until the buffer of `size` bytes is full or the peer is done. -/
def readLoop : Nat → Stream → Nat → Except Status (List UInt8) × Stream
  | 0, stream, _ => (.ok [], stream)
  | turns + 1, stream, size =>
    if size = 0 then (.ok [], stream)
    else match stream.readSome size with
      | (.error status, stream) => (.error status, stream)
      | (.ok [], stream) =>
        if !stream.isOpen then
          (.error ⟨.transportFailure, "stream closed while reading a frame"⟩, stream)
        else (.ok [], stream)
      | (.ok got, stream) =>
        match readLoop turns stream (size - got.length) with
        | (.error status, stream) => (.error status, stream)
        | (.ok more, stream) => (.ok (got ++ more), stream)

/-- Read a number of bytes. -/
def readFull (stream : Stream) (size : Nat) : Except Status (List UInt8) × Stream :=
  readLoop size stream size

end Stream

/-! ### Frames -/

/-- The kinds of messages. -/
inductive MessageKind
  | reserved
  | hello
  | welcome
  | admitMessage
  | decision
  | revalidate
  | revalidation
  | revoke
  | statusRequest
  | statusReply
  | ping
  | pong
  | bye
  | errorMessage
  deriving DecidableEq, Repr

namespace MessageKind

/-- The code of a kind. -/
def code : MessageKind → UInt16
  | .reserved => 0
  | .hello => 1
  | .welcome => 2
  | .admitMessage => 3
  | .decision => 4
  | .revalidate => 5
  | .revalidation => 6
  | .revoke => 7
  | .statusRequest => 8
  | .statusReply => 9
  | .ping => 10
  | .pong => 11
  | .bye => 12
  | .errorMessage => 13

/-- Every kind. -/
def all : List MessageKind :=
  [.reserved, .hello, .welcome, .admitMessage, .decision, .revalidate, .revalidation, .revoke,
    .statusRequest, .statusReply, .ping, .pong, .bye, .errorMessage]

/-- The text of a kind. -/
def toText : MessageKind → String
  | .reserved => "reserved"
  | .hello => "hello"
  | .welcome => "welcome"
  | .admitMessage => "admit"
  | .decision => "decision"
  | .revalidate => "revalidate"
  | .revalidation => "revalidation"
  | .revoke => "revoke"
  | .statusRequest => "status_request"
  | .statusReply => "status_reply"
  | .ping => "ping"
  | .pong => "pong"
  | .bye => "bye"
  | .errorMessage => "error"

/-- The kind with a given code, if the code is in range. -/
def ofCode (code : Nat) : Option MessageKind := all.find? fun kind => kind.code.toNat = code

end MessageKind

/-- The letters `NAF1`. -/
def wireMagic : UInt32 := 0x3146414E

/-- The bytes of a header. -/
def wireHeaderBytes : Nat := 20

/-- A message as a frame. -/
structure WireFrame where
  kind : MessageKind := .reserved
  flags : UInt16 := 0
  payload : List UInt8 := []
  deriving DecidableEq, Repr

/-- A decoded header. -/
structure WireHeader where
  kind : MessageKind
  flags : UInt16
  length : Nat
  payloadCrc : UInt32
  deriving DecidableEq, Repr

/-- The header of a frame. -/
def encodeWireHeader (kind : MessageKind) (flags : UInt16) (payload : List UInt8) : List UInt8 :=
  List.flatten [putU32 wireMagic, putU16 formatRevision, putU16 kind.code, putU16 flags, putU16 0,
    putCount payload.length, putU32 (crc32c payload)]

/-- A frame as bytes. -/
def encodeWireFrame (kind : MessageKind) (flags : UInt16) (payload : List UInt8) : List UInt8 :=
  encodeWireHeader kind flags payload ++ payload

/-- A frame as bytes. -/
def WireFrame.encode (frame : WireFrame) : List UInt8 :=
  encodeWireFrame frame.kind frame.flags frame.payload

/-- Read a header, within a bound. -/
def decodeWireHeader (header : List UInt8) (maxFrame : UInt32) : Option WireHeader :=
  if header.length < wireHeaderBytes then none
  else if getWord 4 header 0 ≠ wireMagic.toNat then none
  else if getWord 2 header 4 ≠ formatRevision.toNat then none
  else match MessageKind.ofCode (getWord 2 header 6) with
    | none => none
    | some kind =>
      if getWord 2 header 10 ≠ 0 then none
      else if getWord 4 header 12 > maxFrame.toNat then none
      else some {
        kind
        flags := UInt16.ofNat (getWord 2 header 8)
        length := getWord 4 header 12
        payloadCrc := UInt32.ofNat (getWord 4 header 16) }

/-- Write a frame. -/
def writeMessage (stream : Stream) (kind : MessageKind) (flags : UInt16) (payload : List UInt8)
    (maxFrame : UInt32) : Except Status Unit × Stream :=
  if payload.length > maxFrame.toNat then
    (.error ⟨.oversizedFrame, "outgoing payload exceeds the frame bound"⟩, stream)
  else stream.writeAll (encodeWireFrame kind flags payload)

/-- Read the payload that a header announces. -/
def readPayload (stream : Stream) (header : WireHeader) : Except Status WireFrame × Stream :=
  if header.length = 0 then
    if header.payloadCrc ≠ crc32c [] then
      (.error ⟨.protocolViolation, "empty frame checksum mismatch"⟩, stream)
    else (.ok { kind := header.kind, flags := header.flags }, stream)
  else match stream.readFull header.length with
    | (.error status, stream) => (.error status, stream)
    | (.ok payload, stream) =>
      if payload.length ≠ header.length then
        (.error ⟨.truncatedFrame, "frame payload is incomplete"⟩, stream)
      else if crc32c payload ≠ header.payloadCrc then
        (.error ⟨.corruptJournal, "frame payload checksum mismatch"⟩, stream)
      else (.ok { kind := header.kind, flags := header.flags, payload }, stream)

/-- Read one frame; a peer that is done before a frame begins is told apart by an empty text. -/
def readMessage (stream : Stream) (maxFrame : UInt32) : Except Status WireFrame × Stream :=
  match stream.readFull wireHeaderBytes with
  | (.error status, stream) => (.error status, stream)
  | (.ok header, stream) =>
    if header.length = 0 then (.error ⟨.transportFailure, ""⟩, stream)
    else if header.length ≠ wireHeaderBytes then
      (.error ⟨.truncatedFrame, "frame header is incomplete"⟩, stream)
    else match decodeWireHeader header maxFrame with
      | none => (.error ⟨.protocolViolation,
          "frame header failed validation (magic, version, kind or length)"⟩, stream)
      | some header => readPayload stream header

end AdmissionFabric
