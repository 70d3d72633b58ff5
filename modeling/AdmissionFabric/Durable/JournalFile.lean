import AdmissionFabric.Core.Crc32c
import AdmissionFabric.Durable.Journal

/-!
# The journal file

The journal at the level of bytes: how a frame is laid out, how a file is scanned and repaired when
it is opened, and how frames are appended and read back.

The scan reads the length of a frame before it checks the header that the length stands in. A frame
that would reach beyond the end of the file is taken for a torn tail, and so is a frame with a wrong
checksum that reaches exactly to the end; everything else that is wrong is corruption.

A write that fails leaves a first part of its frame in the file, and the sequence number is not
advanced. The other operations on the file are assumed to succeed.

Source: `include/naf/durable/journal.hpp`, `src/durable/journal.cpp`.
-/

namespace AdmissionFabric

open LittleEndian

/-! ### Frames -/

/-- A frame of the file. Any 16-bit number may stand for its kind. -/
structure FileFrame where
  kind : UInt16 := 0
  sequence : UInt64 := 0
  payload : List UInt8 := []
  deriving DecidableEq, Repr

/-- The bytes that a frame begins with. -/
def journalMagic : UInt32 := 0x4A46414E

/-- The bytes of a frame beside its payload. -/
def journalHeaderBytes : Nat := 24

/-- The part of the header that its checksum covers. -/
def headerOf (frame : FileFrame) : List UInt8 :=
  List.flatten [putU32 journalMagic, putU16 formatRevision, putU16 frame.kind,
    putU64 frame.sequence, putCount frame.payload.length]

/-- A frame as bytes, its checksum included. -/
def encodeFrame (frame : FileFrame) : List UInt8 :=
  List.flatten [headerOf frame, putU32 (crc32c (headerOf frame)), frame.payload,
    putU32 (crc32c frame.payload)]

/-- The frame in a buffer of exactly its size. -/
def decodeFrame (buffer : List UInt8) (maxPayload : Nat) : Option FileFrame :=
  let length := getWord 4 buffer 16
  let payload := (buffer.drop journalHeaderBytes).take length
  if buffer.length < journalOverheadBytes then none
  else if getWord 4 buffer 0 ≠ journalMagic.toNat then none
  else if getWord 2 buffer 4 ≠ formatRevision.toNat then none
  else if length > maxPayload then none
  else if buffer.length ≠ journalOverheadBytes + length then none
  else if getWord 4 buffer 20 ≠ (crc32c (buffer.take (journalHeaderBytes - 4))).toNat then none
  else if getWord 4 buffer (journalHeaderBytes + length) ≠ (crc32c payload).toNat then none
  else some {
    kind := UInt16.ofNat (getWord 2 buffer 6)
    sequence := UInt64.ofNat (getWord 8 buffer 8)
    payload }

/-! ### The scan -/

/-- What the scan finds at a frame boundary. -/
inductive ScanHead
  | finished
  | torn
  | corrupt (status : Status)
  | frame (size : Nat) (sequence : UInt64)
  deriving DecidableEq, Repr

/-- The status of a damaged file. -/
def corrupted (message : String) : ScanHead := .corrupt ⟨.corruptJournal, message⟩

/-- One turn of the scan, on the bytes from an offset to the end of the file. -/
def scanHead (maxPayload offset : Nat) (rest : List UInt8) : ScanHead :=
  let length := getWord 4 rest 16
  let frameBytes := journalOverheadBytes + length
  let payload := (rest.drop journalHeaderBytes).take length
  -- a damaged frame at the very end counts as an append that was interrupted
  let damaged (what : String) : ScanHead :=
    if rest.length = frameBytes then .torn
    else corrupted ("journal " ++ what ++ " checksum mismatch at offset " ++ toString offset)
  if rest = [] then .finished
  else if rest.length < journalHeaderBytes then .torn
  else if getWord 4 rest 0 ≠ journalMagic.toNat then
    corrupted ("journal frame magic is invalid at offset " ++ toString offset)
  else if getWord 2 rest 4 ≠ formatRevision.toNat then
    corrupted ("journal frame version " ++ toString (getWord 2 rest 4) ++ " is not supported")
  else if length > maxPayload then corrupted "journal frame payload exceeds the bound"
  else if rest.length < frameBytes then .torn
  else if getWord 4 rest 20 ≠ (crc32c (rest.take (journalHeaderBytes - 4))).toNat then
    damaged "header"
  else if getWord 4 rest (journalHeaderBytes + length) ≠ (crc32c payload).toNat then
    damaged "payload"
  else .frame frameBytes (UInt64.ofNat (getWord 8 rest 8))

/-- What the scan has established. -/
structure ScanState where
  frames : Nat := 0
  lastSequence : UInt64 := 0
  goodBytes : Nat := 0
  deriving DecidableEq, Repr

/-- How the scan ends: at the end of the file, before a torn tail, or at a corrupt frame. -/
inductive ScanEnd
  | clean
  | torn (tailBytes : Nat)
  | corrupt (status : Status)
  deriving DecidableEq, Repr

/-- The scan. A frame is not empty, so there are at most as many turns as bytes. -/
def scanFrom (maxPayload : Nat) : Nat → ScanState → List UInt8 → ScanState × ScanEnd
  | 0, state, _ => (state, .clean)
  | turns + 1, state, rest =>
    match scanHead maxPayload state.goodBytes rest with
    | .finished => (state, .clean)
    | .torn => (state, .torn rest.length)
    | .corrupt status => (state, .corrupt status)
    | .frame size sequence => scanFrom maxPayload turns
        { frames := state.frames + 1
          lastSequence := sequence
          goodBytes := state.goodBytes + size } (rest.drop size)

/-! ### The file -/

/-- What a scan of the bytes of a file found. -/
structure FileScanResult where
  created : Bool := false
  frames : Nat := 0
  bytes : Nat := 0
  truncatedTailBytes : Nat := 0
  repairedBytes : Nat := 0
  corrupt : Bool := false
  lastSequence : UInt64 := 0
  deriving DecidableEq, Repr

/-- The bytes of a file and the bounds of its reader. -/
structure JournalFile where
  options : JournalOptions := {}
  fileExists : Bool := true
  bytes : List UInt8 := []
  isOpen : Bool := false
  nextSequence : UInt64 := 1
  frameCount : Nat := 0
  scan : FileScanResult := {}
  deriving DecidableEq, Repr

namespace JournalFile

/-- Open the file, scan every frame and cut off a torn tail. -/
def openFile (file : JournalFile) : Except Status Unit × JournalFile :=
  let scan : FileScanResult := { created := !file.fileExists }
  let opened := { file with isOpen := true, fileExists := true, scan }
  if file.bytes.length > file.options.maxFileBytes then
    (.error ⟨.oversizedInput, "journal exceeds the configured size bound"⟩, opened)
  else match scanFrom file.options.maxPayload file.bytes.length {} file.bytes with
    | (state, .corrupt status) =>
      (.error status, { opened with scan := { scan with frames := state.frames, corrupt := true } })
    | (state, .clean) =>
      (.ok (), { opened with
        nextSequence := state.lastSequence + 1
        frameCount := state.frames
        scan := { scan with
          frames := state.frames
          bytes := file.bytes.length
          lastSequence := state.lastSequence } })
    | (state, .torn tailBytes) =>
      (.ok (), { opened with
        bytes := file.bytes.take state.goodBytes
        nextSequence := state.lastSequence + 1
        frameCount := state.frames
        scan := { scan with
          frames := state.frames
          bytes := state.goodBytes
          truncatedTailBytes := tailBytes
          repairedBytes := tailBytes
          lastSequence := state.lastSequence } })

/-- Append a frame. A failure of the write or of the sync leaves the first `kept` bytes of the
frame behind. -/
def append (file : JournalFile) (kind : UInt16) (payload : List UInt8) (failure : Option Nat) :
    Except Status Unit × JournalFile :=
  if !file.isOpen then (.error ⟨.invalidArgument, "journal is not open"⟩, file)
  else if payload.length > file.options.maxPayload then
    (.error ⟨.oversizedInput, "journal payload exceeds the configured bound"⟩, file)
  else
    let frame := encodeFrame { kind, sequence := file.nextSequence, payload }
    match failure with
    | some kept => (.error Journal.durableFailure,
        { file with bytes := file.bytes ++ frame.take kept })
    | none =>
      (.ok (), { file with
        bytes := file.bytes ++ frame
        nextSequence := file.nextSequence + 1
        frameCount := file.frameCount + 1 })

/-- Read the frames from an offset to the end of the file, behind those already read. -/
def replayFrom (maxPayload maxFrames maxBytes : Nat) :
    Nat → List FileFrame → Nat → List UInt8 → Except Status (List FileFrame)
  | 0, out, _, _ => .ok out
  | turns + 1, out, accumulated, rest =>
    let frameBytes := journalOverheadBytes + getWord 4 rest 16
    if rest.length < journalHeaderBytes then .ok out
    else if getWord 4 rest 16 > maxPayload then
      .error ⟨.corruptJournal, "journal frame payload exceeds the bound"⟩
    else if rest.length < frameBytes then .ok out
    else match decodeFrame (rest.take frameBytes) maxPayload with
      | none => .error ⟨.corruptJournal, "journal frame failed to decode during replay"⟩
      | some frame =>
        if out.length ≥ maxFrames then
          .error ⟨.oversizedInput, "journal has more frames than the replay bound"⟩
        else if accumulated + frameBytes > maxBytes then
          .error ⟨.oversizedInput, "journal replay exceeds the byte bound"⟩
        else replayFrom maxPayload maxFrames maxBytes turns (out ++ [frame])
          (accumulated + frameBytes) (rest.drop frameBytes)

/-- The frames of the file. -/
def replay (file : JournalFile) (maxFrames maxBytes : Nat) : Except Status (List FileFrame) :=
  if !file.isOpen then .error ⟨.invalidArgument, "journal is not open"⟩
  else if file.bytes.length > file.options.maxFileBytes then
    .error ⟨.oversizedInput, "journal exceeds the configured size bound"⟩
  else replayFrom file.options.maxPayload maxFrames maxBytes file.bytes.length [] 0 file.bytes

end JournalFile

end AdmissionFabric
