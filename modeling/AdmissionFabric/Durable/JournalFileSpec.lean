import AdmissionFabric.Durable.JournalFile

/-!
# Scanning and replaying encoded frames

The scan walks over every frame that was encoded within the bounds, and stops before a frame that is
cut. Replay returns the frames that the scan walked over.
-/

namespace AdmissionFabric

open LittleEndian

variable (frame : FileFrame) (rest : List UInt8)

/-! ### The layout of a frame -/

/-- The bytes of a list of frames. -/
def encodeFrames (frames : List FileFrame) : List UInt8 := frames.flatMap encodeFrame

/-- The bytes that a frame takes. -/
def FileFrame.size (frame : FileFrame) : Nat := journalOverheadBytes + frame.payload.length

@[simp] theorem length_headerOf : (headerOf frame).length = 20 := by
  simp [headerOf, putU32, putU16, putU64, putCount]

theorem length_encodeFrame : (encodeFrame frame).length = frame.size := by
  simp [encodeFrame, putU32, FileFrame.size, journalOverheadBytes]
  omega

theorem size_pos : 0 < frame.size := Nat.add_pos_left (by decide) _

theorem encodeFrame_append :
    encodeFrame frame ++ rest = headerOf frame ++ (putU32 (crc32c (headerOf frame)) ++
      (frame.payload ++ (putU32 (crc32c frame.payload) ++ rest))) := by
  simp [encodeFrame]

theorem getWord_skip (width : Nat) {offset : Nat} {before : List UInt8}
    (h : before.length = offset) (extra : Nat) (rest : List UInt8) :
    getWord width (before ++ rest) (offset + extra) = getWord width rest extra := by
  subst h
  rw [getWord, getWord, ← List.drop_drop, List.drop_left]

theorem getWord_leBytes {width value : Nat} (h : value < 256 ^ width) (rest : List UInt8) :
    getWord width (leBytes width value ++ rest) 0 = value := by
  rw [getWord, List.drop_zero, List.take_left' (length_leBytes width value), ofLeBytes_leBytes,
    Nat.mod_eq_of_lt h]

/-- The fields of an encoded frame, with anything behind it. -/
structure Fields (frame : FileFrame) (bytes : List UInt8) : Prop where
  magic : getWord 4 bytes 0 = journalMagic.toNat
  version : getWord 2 bytes 4 = formatRevision.toNat
  kind : getWord 2 bytes 6 = frame.kind.toNat
  sequence : getWord 8 bytes 8 = frame.sequence.toNat
  length : getWord 4 bytes 16 = frame.payload.length
  header : bytes.take (journalHeaderBytes - 4) = headerOf frame
  headerCrc : getWord 4 bytes 20 = (crc32c (headerOf frame)).toNat

theorem fields_headerOf {frame : FileFrame} (hlength : frame.payload.length < 2 ^ 32)
    (rest : List UInt8) :
    Fields frame (headerOf frame ++ (putU32 (crc32c (headerOf frame)) ++ rest)) := by
  have hword (width value : Nat) (h : value < 256 ^ width) :
      ofLeBytes (leBytes width value) = value := by
    rw [ofLeBytes_leBytes, Nat.mod_eq_of_lt h]
  -- the offsets of the fields are the widths of the fields before them
  exact {
    magic := hword 4 _ journalMagic.toNat_lt
    version := hword 2 _ formatRevision.toNat_lt
    kind := hword 2 _ frame.kind.toNat_lt
    sequence := hword 8 _ frame.sequence.toNat_lt
    length := hword 4 _ hlength
    header := List.take_left' (length_headerOf frame)
    headerCrc := by
      have hskip := getWord_skip 4 (length_headerOf frame) 0
        (putU32 (crc32c (headerOf frame)) ++ rest)
      exact hskip.trans (getWord_leBytes (crc32c (headerOf frame)).toNat_lt rest) }

theorem length_fullHeader :
    (headerOf frame ++ putU32 (crc32c (headerOf frame))).length = journalHeaderBytes := by
  simp [putU32, journalHeaderBytes]

theorem payload_encodeFrame :
    ((encodeFrame frame ++ rest).drop journalHeaderBytes).take frame.payload.length =
      frame.payload := by
  rw [encodeFrame_append, ← List.append_assoc, List.drop_left' (length_fullHeader frame),
    List.take_left]

theorem payloadCrc_encodeFrame :
    getWord 4 (encodeFrame frame ++ rest) (journalHeaderBytes + frame.payload.length) =
      (crc32c frame.payload).toNat := by
  rw [encodeFrame_append, ← List.append_assoc, getWord_skip 4 (length_fullHeader frame),
    ← Nat.add_zero frame.payload.length, getWord_skip 4 rfl]
  exact getWord_leBytes (crc32c frame.payload).toNat_lt rest

section

variable {maxFrames turns maxBytes : Nat} {bytes missing : List UInt8} {frames : List FileFrame}
    {maxPayload : Nat} (hwidth : maxPayload < 2 ^ 32)
include hwidth

theorem fields_encodeFrame {frame : FileFrame} (hfit : frame.payload.length ≤ maxPayload)
    (rest : List UInt8) : Fields frame (encodeFrame frame ++ rest) := by
  exact fields_headerOf (Nat.lt_of_le_of_lt hfit hwidth) _

/-! ### One turn -/

theorem scanHead_encodeFrame {frame : FileFrame} (hfit : frame.payload.length ≤ maxPayload)
    (offset : Nat) (rest : List UInt8) :
    scanHead maxPayload offset (encodeFrame frame ++ rest) = .frame frame.size frame.sequence := by
  have hfields := fields_encodeFrame hwidth hfit rest
  have hlength : (encodeFrame frame ++ rest).length = frame.size + rest.length := by
    rw [List.length_append, length_encodeFrame]
  have hheader : ¬ (encodeFrame frame ++ rest).length < journalHeaderBytes := by
    rw [hlength, FileFrame.size, journalOverheadBytes, journalHeaderBytes]
    omega
  have hne : encodeFrame frame ++ rest ≠ [] := fun hnil => hheader (by rw [hnil]; decide)
  have hwhole : ¬ (encodeFrame frame ++ rest).length <
      journalOverheadBytes + frame.payload.length := by
    rw [hlength, FileFrame.size]
    omega
  simp only [scanHead, hne, hheader, hfields.magic, hfields.version, hfields.length,
    Nat.not_lt.mpr hfit, hwhole, hfields.headerCrc, hfields.header,
    payload_encodeFrame, payloadCrc_encodeFrame, hfields.sequence, ne_eq, not_true_eq_false,
    ↓reduceIte, UInt64.ofNat_toNat, FileFrame.size]

theorem scanHead_of_cut {frame : FileFrame} (hfit : frame.payload.length ≤ maxPayload)
    (offset : Nat) (hcut : encodeFrame frame = bytes ++ missing) (hbytes : bytes ≠ [])
    (hmissing : missing ≠ []) : scanHead maxPayload offset bytes = .torn := by
  by_cases hshort : bytes.length < journalHeaderBytes
  · simp only [scanHead, hbytes, hshort, ↓reduceIte]
  · -- the header is whole, so what it says is what was encoded
    have hsplit : ∃ more, bytes = headerOf frame ++ (putU32 (crc32c (headerOf frame)) ++ more) := by
      refine ⟨bytes.drop journalHeaderBytes, ?_⟩
      have htake := congrArg (List.take journalHeaderBytes) hcut
      rw [← List.append_nil (encodeFrame frame), encodeFrame_append, ← List.append_assoc,
        List.take_left' (length_fullHeader frame),
        List.take_append_of_le_length (Nat.not_lt.mp hshort)] at htake
      rw [← List.append_assoc, htake, List.take_append_drop]
    obtain ⟨more, hmore⟩ := hsplit
    have hfields := fields_headerOf (Nat.lt_of_le_of_lt hfit hwidth) more
    rw [← hmore] at hfields
    have hless : bytes.length < journalOverheadBytes + frame.payload.length := by
      have hlength := congrArg List.length hcut
      have hpos := List.length_pos_iff.mpr hmissing
      rw [length_encodeFrame, FileFrame.size, List.length_append] at hlength
      omega
    simp only [scanHead, hbytes, hshort, hfields.magic, hfields.version, hfields.length, hless,
      Nat.not_lt.mpr hfit, ne_eq, not_true_eq_false, ↓reduceIte]

theorem decodeFrame_encodeFrame {frame : FileFrame} (hfit : frame.payload.length ≤ maxPayload) :
    decodeFrame (encodeFrame frame) maxPayload = some frame := by
  have hfields := fields_encodeFrame hwidth hfit []
  have hpayload := payload_encodeFrame frame []
  have hcrc := payloadCrc_encodeFrame frame []
  rw [List.append_nil] at hfields hpayload hcrc
  have hlong : ¬ journalOverheadBytes + frame.payload.length < journalOverheadBytes :=
    Nat.not_lt.mpr (Nat.le_add_right _ _)
  simp only [decodeFrame, length_encodeFrame, FileFrame.size, hlong, hfields.magic,
    hfields.version, hfields.length, Nat.not_lt.mpr hfit, hfields.header, hfields.headerCrc,
    hfields.kind, hfields.sequence, hpayload, hcrc, ne_eq, not_true_eq_false, ↓reduceIte,
    UInt16.ofNat_toNat, UInt64.ofNat_toNat]

/-! ### The scan -/

/-- What the scan has established after some more frames. -/
def ScanState.past (state : ScanState) (frames : List FileFrame) : ScanState where
  frames := state.frames + frames.length
  lastSequence := (frames.getLast?.map FileFrame.sequence).getD state.lastSequence
  goodBytes := state.goodBytes + (encodeFrames frames).length

omit hwidth in
theorem ScanState.past_cons (state : ScanState) (frame : FileFrame) (frames : List FileFrame) :
    ScanState.past ⟨state.frames + 1, frame.sequence, state.goodBytes + frame.size⟩ frames =
      state.past (frame :: frames) := by
  simp only [past, encodeFrames, List.flatMap_cons, List.length_cons, List.length_append,
    length_encodeFrame, mk.injEq]
  refine ⟨by omega, ?_, by omega⟩
  cases frames <;> simp [List.getLast?_cons]

theorem scanFrom_encodeFrames (hfit : ∀ frame ∈ frames, frame.payload.length ≤ maxPayload)
    {rest : List UInt8} (hturns : (encodeFrames frames ++ rest).length ≤ turns)
    (state : ScanState) :
    ∃ turns' ≥ rest.length, scanFrom maxPayload turns state (encodeFrames frames ++ rest) =
      scanFrom maxPayload turns' (state.past frames) rest := by
  induction frames generalizing turns state with
  | nil => exact ⟨turns, hturns, by simp [encodeFrames, ScanState.past]⟩
  | cons frame frames ih =>
    obtain ⟨hfirst, hothers⟩ := List.forall_mem_cons.mp hfit
    have hsplit : encodeFrames (frame :: frames) ++ rest =
        encodeFrame frame ++ (encodeFrames frames ++ rest) := by
      simp [encodeFrames]
    rw [hsplit, List.length_append, length_encodeFrame] at hturns
    have hpos := size_pos frame
    obtain _ | turns := turns
    · omega
    · have hfewer : (encodeFrames frames ++ rest).length ≤ turns := by omega
      obtain ⟨turns', hle, hrest⟩ := ih hothers hfewer
        ⟨state.frames + 1, frame.sequence, state.goodBytes + frame.size⟩
      refine ⟨turns', hle, ?_⟩
      rw [hsplit, scanFrom, scanHead_encodeFrame hwidth hfirst]
      simp only [List.drop_left' (length_encodeFrame frame)]
      rw [hrest, ScanState.past_cons]

omit hwidth in
theorem scanFrom_nil (turns : Nat) (state : ScanState) :
    scanFrom maxPayload turns state [] = (state, .clean) := by
  cases turns <;> rfl

theorem scanFrom_clean (hfit : ∀ frame ∈ frames, frame.payload.length ≤ maxPayload) :
    scanFrom maxPayload (encodeFrames frames).length {} (encodeFrames frames) =
      (ScanState.past {} frames, .clean) := by
  obtain ⟨turns, -, heq⟩ := scanFrom_encodeFrames hwidth hfit
    (Nat.le_refl (encodeFrames frames ++ []).length) {}
  rw [List.append_nil] at heq
  rw [heq, scanFrom_nil]

theorem scanFrom_torn (hfit : ∀ frame ∈ frames, frame.payload.length ≤ maxPayload)
    {frame : FileFrame} (hlast : frame.payload.length ≤ maxPayload)
    (hcut : encodeFrame frame = bytes ++ missing) (hbytes : bytes ≠ []) (hmissing : missing ≠ []) :
    scanFrom maxPayload (encodeFrames frames ++ bytes).length {} (encodeFrames frames ++ bytes) =
      (ScanState.past {} frames, .torn bytes.length) := by
  obtain ⟨turns, hle, heq⟩ := scanFrom_encodeFrames hwidth hfit
    (Nat.le_refl (encodeFrames frames ++ bytes).length) {}
  have hpos := List.length_pos_iff.mpr hbytes
  obtain _ | turns := turns
  · exact absurd hle (Nat.not_le.mpr hpos)
  · rw [heq, scanFrom, scanHead_of_cut hwidth hlast _ hcut hbytes hmissing]

/-! ### Replay -/

theorem JournalFile.replayFrom_encodeFrames
    (hfit : ∀ frame ∈ frames, frame.payload.length ≤ maxPayload) {out : List FileFrame}
    {accumulated : Nat} (hframes : out.length + frames.length ≤ maxFrames)
    (hbytes : accumulated + (encodeFrames frames).length ≤ maxBytes)
    (hturns : (encodeFrames frames).length ≤ turns) :
    replayFrom maxPayload maxFrames maxBytes turns out accumulated (encodeFrames frames) =
      .ok (out ++ frames) := by
  induction frames generalizing turns out accumulated with
  | nil =>
    cases turns with
    | zero => simp [replayFrom]
    | succ turns => simp [replayFrom, encodeFrames, journalHeaderBytes]
  | cons frame frames ih =>
    obtain ⟨hfirst, hothers⟩ := List.forall_mem_cons.mp hfit
    have hsplit : encodeFrames (frame :: frames) = encodeFrame frame ++ encodeFrames frames := by
      simp [encodeFrames]
    have hfields := fields_encodeFrame hwidth hfirst (encodeFrames frames)
    have hpos := size_pos frame
    have hsize : frame.size = journalOverheadBytes + frame.payload.length := rfl
    have hheader : ¬ frame.size + (encodeFrames frames).length < journalHeaderBytes := by
      rw [hsize, journalOverheadBytes, journalHeaderBytes]
      omega
    rw [hsplit, List.length_append, length_encodeFrame] at hbytes hturns
    rw [List.length_cons] at hframes
    obtain _ | turns := turns
    · omega
    · simp only [hsplit, replayFrom, List.length_append, length_encodeFrame, hheader,
        hfields.length, Nat.not_lt.mpr hfirst, ← hsize,
        List.take_left' (length_encodeFrame frame), List.drop_left' (length_encodeFrame frame),
        decodeFrame_encodeFrame hwidth hfirst, gt_iff_lt, ge_iff_le, ↓reduceIte]
      rw [if_neg (by omega), if_neg (by omega), if_neg (by omega), ih hothers]
      · simp
      · simpa using by omega
      · omega
      · omega

theorem JournalFile.replay_encodeFrames {file : JournalFile} (hopen : file.isOpen = true)
    (hpayload : file.options.maxPayload = maxPayload) (hdata : file.bytes = encodeFrames frames)
    (hfile : (encodeFrames frames).length ≤ file.options.maxFileBytes)
    (hfit : ∀ frame ∈ frames, frame.payload.length ≤ maxPayload)
    (hframes : frames.length ≤ maxFrames) (hbytes : (encodeFrames frames).length ≤ maxBytes) :
    file.replay maxFrames maxBytes = .ok frames := by
  rw [replay, hopen, hdata, hpayload]
  simp only [Bool.not_true, Bool.false_eq_true, ↓reduceIte]
  rw [if_neg (Nat.not_lt.mpr hfile), replayFrom_encodeFrames hwidth hfit (by simpa using hframes)
    (by simpa using hbytes) (Nat.le_refl _), List.nil_append]

end

end AdmissionFabric
