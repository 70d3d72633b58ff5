import AdmissionFabric.Durable.JournalFileSpec

/-!
# The scan and the replay of a file agree

Opening a journal and reading it back are two loops over the same bytes, with checks in different
orders. Whatever the bytes are, a turn of the scan that accepts a frame has found the encoding of
one: the fields that it reads determine every byte of the frame. So a file that opens is a list of
encoded frames, with a torn tail behind them that the repair cuts off, and the replay of such a
file returns the frames.
-/

namespace AdmissionFabric

open LittleEndian

variable {offset : Nat} {scanEnd : ScanEnd} {state : ScanState} {maxPayload : Nat}

/-! ### One frame -/

theorem leBytes_getWord {width : Nat} {data : List UInt8} (h : offset + width ≤ data.length) :
    leBytes width (getWord width data offset) = (data.drop offset).take width := by
  have hlength : ((data.drop offset).take width).length = width := by
    rw [List.length_take, List.length_drop]
    omega
  have hbytes := leBytes_ofLeBytes ((data.drop offset).take width)
  rwa [hlength] at hbytes

theorem getWord_lt (width : Nat) (data : List UInt8) (offset : Nat) :
    getWord width data offset < 256 ^ width := by
  refine (ofLeBytes_lt _).trans_le (Nat.pow_le_pow_right (by decide) ?_)
  rw [List.length_take]
  exact Nat.min_le_left _ _

/-- The frame that the fields at the front of some bytes describe. -/
def frontFrame (rest : List UInt8) : FileFrame where
  kind := UInt16.ofNat (getWord 2 rest 6)
  sequence := UInt64.ofNat (getWord 8 rest 8)
  payload := (rest.drop journalHeaderBytes).take (getWord 4 rest 16)

section

variable {rest : List UInt8} (hlong : journalOverheadBytes + getWord 4 rest 16 ≤ rest.length)
include hlong

theorem length_payload_frontFrame : (frontFrame rest).payload.length = getWord 4 rest 16 := by
  have hsizes : journalOverheadBytes = 28 ∧ journalHeaderBytes = 24 := ⟨rfl, rfl⟩
  rw [frontFrame, List.length_take, List.length_drop]
  omega

theorem headerOf_frontFrame (hmagic : getWord 4 rest 0 = journalMagic.toNat)
    (hversion : getWord 2 rest 4 = formatRevision.toNat) :
    headerOf (frontFrame rest) = rest.take 20 := by
  have hsize : journalOverheadBytes = 28 := rfl
  have hkind : (frontFrame rest).kind.toNat = getWord 2 rest 6 := by
    exact Nat.mod_eq_of_lt (getWord_lt 2 rest 6)
  have hsequence : (frontFrame rest).sequence.toNat = getWord 8 rest 8 := by
    rw [frontFrame, UInt64.toNat_ofNat']
    exact Nat.mod_eq_of_lt (getWord_lt 8 rest 8)
  have hsplit : rest.take 20 = List.flatten [(rest.drop 0).take 4, (rest.drop 4).take 2,
      (rest.drop 6).take 2, (rest.drop 8).take 8, (rest.drop 16).take 4] := by
    rw [show 20 = 4 + (2 + (2 + (8 + 4))) from rfl, List.take_add, List.take_add, List.take_add,
      List.take_add]
    simp only [List.drop_drop, List.flatten_cons, List.flatten_nil, List.append_nil,
      List.drop_zero]
  rw [hsplit, headerOf, putU32, putU16, putU16, putU64, putCount, ← hmagic, ← hversion, hkind,
    hsequence, length_payload_frontFrame hlong, leBytes_getWord (by omega),
    leBytes_getWord (by omega), leBytes_getWord (by omega), leBytes_getWord (by omega),
    leBytes_getWord (by omega)]

theorem encodeFrame_frontFrame (hmagic : getWord 4 rest 0 = journalMagic.toNat)
    (hversion : getWord 2 rest 4 = formatRevision.toNat)
    (hheader : getWord 4 rest 20 = (crc32c (rest.take 20)).toNat)
    (hpayload : getWord 4 rest (journalHeaderBytes + getWord 4 rest 16) =
      (crc32c ((rest.drop journalHeaderBytes).take (getWord 4 rest 16))).toNat) :
    encodeFrame (frontFrame rest) =
      rest.take (journalOverheadBytes + getWord 4 rest 16) := by
  have hsizes : journalOverheadBytes = 28 ∧ journalHeaderBytes = 24 := ⟨rfl, rfl⟩
  have hsplit : rest.take (28 + getWord 4 rest 16) = List.flatten [rest.take 20,
      (rest.drop 20).take 4, (rest.drop 24).take (getWord 4 rest 16),
      (rest.drop (24 + getWord 4 rest 16)).take 4] := by
    rw [show 28 + getWord 4 rest 16 = 20 + (4 + (getWord 4 rest 16 + 4)) by omega,
      List.take_add, List.take_add, List.take_add]
    simp only [List.drop_drop, List.flatten_cons, List.flatten_nil, List.append_nil]
  rw [hsizes.1, hsplit, encodeFrame, headerOf_frontFrame hlong hmagic hversion, putU32, putU32,
    ← hheader, leBytes_getWord (by omega)]
  change List.flatten [rest.take 20, _, (rest.drop 24).take _, leBytes 4 (crc32c
    ((rest.drop journalHeaderBytes).take (getWord 4 rest 16))).toNat] = _
  rw [← hpayload, leBytes_getWord (by omega)]
  rfl

end

theorem exists_frame_of_scanHead {size : Nat} {sequence : UInt64} {rest : List UInt8}
    (h : scanHead maxPayload offset rest = .frame size sequence) :
    ∃ frame more, rest = encodeFrame frame ++ more ∧ frame.size = size ∧
      frame.sequence = sequence ∧ frame.payload.length ≤ maxPayload := by
  simp only [scanHead, corrupted] at h
  -- every other branch reports the end of the file, a torn tail or corruption
  repeat' split at h
  all_goals try cases h; done
  rename_i hmagic hversion hbound hshort hheader hpayload
  have hlong := Nat.not_lt.mp hshort
  have hlength := length_payload_frontFrame hlong
  have hencode := encodeFrame_frontFrame hlong (not_not.mp hmagic) (not_not.mp hversion)
    (not_not.mp hheader) (not_not.mp hpayload)
  injection h with hsize hsequence
  refine ⟨frontFrame rest, rest.drop (journalOverheadBytes + getWord 4 rest 16), ?_, ?_,
    hsequence, ?_⟩
  · rw [hencode, List.take_append_drop]
  · rw [FileFrame.size, hlength, hsize]
  · rw [hlength]
    exact Nat.not_lt.mp hbound

/-! ### The file -/

/-- What the scan passes: encoded frames within the bound, and perhaps more bytes. -/
structure Passed (maxPayload : Nat) (rest : List UInt8) (state state' : ScanState)
    (scanEnd : ScanEnd) (frames : List FileFrame) (more : List UInt8) : Prop where
  bytes : rest = encodeFrames frames ++ more
  state : state' = state.past frames
  fits : ∀ frame ∈ frames, frame.payload.length ≤ maxPayload
  whole : scanEnd = .clean → more = []

theorem Passed.stopped {rest : List UInt8} (hwhole : scanEnd = .clean → rest = []) :
    Passed maxPayload rest state state scanEnd [] rest where
  bytes := rfl
  state := by simp [ScanState.past, encodeFrames]
  fits := by simp
  whole := hwhole

theorem exists_frames_of_scanFrom {turns : Nat} {state' : ScanState} {rest : List UInt8}
    (hturns : rest.length ≤ turns) (h : scanFrom maxPayload turns state rest = (state', scanEnd))
    (hintact : ∀ status, scanEnd ≠ .corrupt status) :
    ∃ frames more, Passed maxPayload rest state state' scanEnd frames more := by
  induction turns generalizing state rest with
  | zero =>
    obtain ⟨rfl, rfl⟩ := Prod.mk.inj h
    have hnil := List.eq_nil_of_length_eq_zero (Nat.le_zero.mp hturns)
    exact ⟨[], rest, .stopped fun _ => hnil⟩
  | succ turns ih =>
    rw [scanFrom] at h
    cases hhead : scanHead maxPayload state.goodBytes rest with
    | finished =>
      rw [hhead] at h
      obtain ⟨rfl, rfl⟩ := Prod.mk.inj h
      refine ⟨[], rest, .stopped fun _ => ?_⟩
      by_contra hne
      simp only [scanHead, corrupted, if_neg hne] at hhead
      repeat' split at hhead
      all_goals cases hhead
    | torn =>
      rw [hhead] at h
      obtain ⟨rfl, rfl⟩ := Prod.mk.inj h
      exact ⟨[], rest, .stopped (by simp)⟩
    | corrupt status =>
      rw [hhead] at h
      obtain ⟨-, rfl⟩ := Prod.mk.inj h
      exact absurd rfl (hintact status)
    | frame size sequence =>
      rw [hhead] at h
      obtain ⟨frame, more, rfl, rfl, rfl, hfit⟩ := exists_frame_of_scanHead hhead
      simp only [List.drop_left' (length_encodeFrame frame)] at h
      have hpos := size_pos frame
      rw [List.length_append, length_encodeFrame] at hturns
      obtain ⟨frames, tail, hpassed⟩ := ih (by omega) h
      refine ⟨frame :: frames, tail, ?_, ?_, ?_, hpassed.whole⟩
      · rw [hpassed.bytes]
        simp [encodeFrames]
      · rw [hpassed.state, ScanState.past_cons]
      · exact List.forall_mem_cons.mpr ⟨hfit, hpassed.fits⟩

namespace JournalFile

theorem exists_frames_of_openFile {file file' : JournalFile}
    (hopen : file.openFile = (.ok (), file')) :
    ∃ frames, file'.bytes = encodeFrames frames ∧ file'.scan.frames = frames.length ∧
      (∀ frame ∈ frames, frame.payload.length ≤ file.options.maxPayload) ∧
      file'.isOpen = true ∧ file'.options = file.options ∧
      file'.bytes.length ≤ file.options.maxFileBytes := by
  rw [openFile] at hopen
  by_cases hsize : file.bytes.length > file.options.maxFileBytes
  · rw [if_pos hsize] at hopen
    cases hopen
  · rw [if_neg hsize] at hopen
    have hbound := Nat.not_lt.mp hsize
    cases hscan : scanFrom file.options.maxPayload file.bytes.length {} file.bytes with
    | mk state scanEnd =>
      rw [hscan] at hopen
      cases scanEnd with
      | corrupt status => cases hopen
      | clean =>
        obtain ⟨frames, more, hpassed⟩ :=
          exists_frames_of_scanFrom le_rfl hscan (by simp)
        obtain ⟨-, rfl⟩ := Prod.mk.inj hopen
        have hbytes := hpassed.bytes
        rw [hpassed.whole rfl, List.append_nil] at hbytes
        refine ⟨frames, hbytes, ?_, hpassed.fits, rfl, rfl, hbound⟩
        simp [hpassed.state, ScanState.past]
      | torn tailBytes =>
        obtain ⟨frames, more, hpassed⟩ :=
          exists_frames_of_scanFrom le_rfl hscan (by simp)
        obtain ⟨-, rfl⟩ := Prod.mk.inj hopen
        have hgood : state.goodBytes = (encodeFrames frames).length := by
          simp [hpassed.state, ScanState.past]
        refine ⟨frames, ?_, ?_, hpassed.fits, rfl, rfl, ?_⟩
        · rw [hgood, hpassed.bytes, List.take_left]
        · simp [hpassed.state, ScanState.past]
        · exact (List.length_take_le' _ _).trans hbound

/-- Whatever bytes a file holds, if it opens then replay within sufficient bounds succeeds,
returns as many frames as the scan counted, and these encode to the repaired file. -/
theorem replay_of_openFile {file file' : JournalFile} {maxFrames maxBytes : Nat}
    (hwidth : file.options.maxPayload < 2 ^ 32) (hopen : file.openFile = (.ok (), file'))
    (hframes : file'.scan.frames ≤ maxFrames) (hbytes : file'.bytes.length ≤ maxBytes) :
    ∃ frames, file'.replay maxFrames maxBytes = .ok frames ∧
      frames.length = file'.scan.frames ∧ frames.flatMap encodeFrame = file'.bytes := by
  obtain ⟨frames, hdata, hcount, hfit, hisOpen, hoptions, hsize⟩ := exists_frames_of_openFile hopen
  have hreplay : file'.replay maxFrames maxBytes = .ok frames := by
    refine replay_encodeFrames hwidth hisOpen (by rw [hoptions]) hdata ?_ hfit ?_ ?_
    · rw [← hdata, hoptions]
      exact hsize
    · rw [← hcount]
      exact hframes
    · rw [← hdata]
      exact hbytes
  exact ⟨frames, hreplay, hcount.symm, hdata.symm⟩

/-- A frame with the first byte of another behind it. -/
def interruptedFile : JournalFile :=
  { bytes := encodeFrame { kind := 2, sequence := 5, payload := [1, 2] } ++ [0x4E] }

theorem replay_interruptedFile :
    interruptedFile.openFile.2.scan.frames = 1 ∧
      ∃ frames, interruptedFile.openFile.2.replay 1 30 = .ok frames ∧
        frames.length = interruptedFile.openFile.2.scan.frames ∧
        frames.flatMap encodeFrame = interruptedFile.openFile.2.bytes := by
  have hopen : interruptedFile.openFile = (.ok (), interruptedFile.openFile.2) := by
    decide +kernel
  exact ⟨by decide +kernel,
    replay_of_openFile (by decide) hopen (by decide +kernel) (by decide +kernel)⟩

end JournalFile

end AdmissionFabric
