import AdmissionFabric.Durable.JournalFileSpec

/-!
# Repair of a torn tail

A journal file whose last bytes are missing is opened without a complaint. The scan counts the
frames that are whole, the file is cut back to the end of the last of them, and the sequence goes on
behind it, so frames that are appended later come back behind the frames that survived.
-/

namespace AdmissionFabric

variable (n : Nat)

/-! ### Cutting a file -/

/-- The frames that lie completely within the first `n` bytes. -/
def wholeFrames : Nat → List FileFrame → List FileFrame
  | _, [] => []
  | n, frame :: frames =>
    if frame.size ≤ n then frame :: wholeFrames (n - frame.size) frames else []

theorem take_encodeFrames (frames : List FileFrame) :
    ∃ bytes, (encodeFrames frames).take n = encodeFrames (wholeFrames n frames) ++ bytes ∧
      (bytes = [] ∨ ∃ frame ∈ frames, ∃ missing, missing ≠ [] ∧
        encodeFrame frame = bytes ++ missing) := by
  induction frames generalizing n with
  | nil => exact ⟨[], by simp [encodeFrames, wholeFrames], Or.inl rfl⟩
  | cons frame frames ih =>
    have hlength := length_encodeFrame frame
    rw [wholeFrames]
    simp only [encodeFrames, List.flatMap_cons, List.take_append, hlength]
    by_cases hwhole : frame.size ≤ n
    · obtain ⟨bytes, hbytes, hcut⟩ := ih (n - frame.size)
      rw [if_pos hwhole, List.take_of_length_le (hlength.trans_le hwhole)]
      refine ⟨bytes, by simpa [encodeFrames] using hbytes, hcut.imp_right ?_⟩
      rintro ⟨other, hother, hmissing⟩
      exact ⟨other, List.mem_cons_of_mem _ hother, hmissing⟩
    · rw [if_neg hwhole, Nat.sub_eq_zero_of_le (by omega)]
      refine ⟨(encodeFrame frame).take n, by simp, Or.inr ⟨frame, List.mem_cons_self,
        (encodeFrame frame).drop n, fun hnil => ?_, (List.take_append_drop n _).symm⟩⟩
      have hrest := congrArg List.length hnil
      rw [List.length_drop, hlength, List.length_nil] at hrest
      omega

theorem wholeFrames_isPrefix (frames : List FileFrame) : wholeFrames n frames <+: frames := by
  induction frames generalizing n with
  | nil => exact List.prefix_rfl
  | cons frame frames ih =>
    rw [wholeFrames]
    split
    · exact (List.prefix_cons_inj frame).mpr (ih _)
    · exact List.nil_prefix

namespace JournalFile

variable {frame : FileFrame}

/-! ### Opening -/

/-- The number that follows the frames of a file. -/
def sequenceAfter (frames : List FileFrame) : UInt64 :=
  (frames.getLast?.map FileFrame.sequence).getD 0 + 1

/-- An open file with these frames and nothing else, and what its scan reported. -/
structure Holds (file : JournalFile) (options : JournalOptions) (frames : List FileFrame)
    (tailBytes : Nat) : Prop where
  isOpen : file.isOpen = true
  options : file.options = options
  bytes : file.bytes = encodeFrames frames
  nextSequence : file.nextSequence = sequenceAfter frames
  frameCount : file.frameCount = frames.length
  frames : file.scan.frames = frames.length
  truncatedTailBytes : file.scan.truncatedTailBytes = tailBytes
  intact : file.scan.corrupt = false

section

variable {file : JournalFile} {frames : List FileFrame}
  (hwidth : file.options.maxPayload < 2 ^ 32)
  (hfit : ∀ frame ∈ frames, frame.payload.length ≤ file.options.maxPayload)
include hwidth hfit

theorem openFile_of_frames (hdata : file.bytes = encodeFrames frames)
    (hsize : file.bytes.length ≤ file.options.maxFileBytes) :
    ∃ file', file.openFile = (.ok (), file') ∧ file'.Holds file.options frames 0 := by
  have hscan := scanFrom_clean hwidth hfit
  rw [← hdata] at hscan
  simp only [openFile, if_neg (Nat.not_lt.mpr hsize), hscan]
  refine ⟨_, rfl, ?_⟩
  constructor <;> simp [ScanState.past, sequenceAfter, hdata]

theorem openFile_of_torn (hlast : frame.payload.length ≤ file.options.maxPayload)
    {bytes missing : List UInt8} (hcut : encodeFrame frame = bytes ++ missing)
    (hbytes : bytes ≠ []) (hmissing : missing ≠ [])
    (hdata : file.bytes = encodeFrames frames ++ bytes)
    (hsize : file.bytes.length ≤ file.options.maxFileBytes) :
    ∃ file', file.openFile = (.ok (), file') ∧ file'.Holds file.options frames bytes.length := by
  have hscan := scanFrom_torn hwidth hfit hlast hcut hbytes hmissing
  rw [← hdata] at hscan
  simp only [openFile, if_neg (Nat.not_lt.mpr hsize), hscan]
  refine ⟨_, rfl, ?_⟩
  constructor <;> simp [ScanState.past, sequenceAfter, hdata]

theorem openFile_of_cut {n : Nat} (hdata : file.bytes = (encodeFrames frames).take n)
    (hsize : file.bytes.length ≤ file.options.maxFileBytes) :
    ∃ file', file.openFile = (.ok (), file') ∧ file'.Holds file.options (wholeFrames n frames)
      (file.bytes.length - (encodeFrames (wholeFrames n frames)).length) := by
  obtain ⟨bytes, htake, hcut⟩ := take_encodeFrames n frames
  have hwhole : ∀ frame ∈ wholeFrames n frames,
      frame.payload.length ≤ file.options.maxPayload :=
    fun frame hmem => hfit frame ((wholeFrames_isPrefix n frames).subset hmem)
  rw [htake] at hdata
  have htail : file.bytes.length - (encodeFrames (wholeFrames n frames)).length =
      bytes.length := by
    rw [hdata, List.length_append, Nat.add_sub_cancel_left]
  rw [htail]
  rcases hcut with rfl | ⟨frame, hmem, missing, hmissing, hcut⟩
  · exact openFile_of_frames hwidth hwhole (by rw [hdata, List.append_nil]) hsize
  · by_cases hbytes : bytes = []
    · subst hbytes
      exact openFile_of_frames hwidth hwhole (by rw [hdata, List.append_nil]) hsize
    · exact openFile_of_torn hwidth hwhole (hfit frame hmem) hcut hbytes hmissing hdata hsize

end

/-! ### Appending -/

/-- Append records whose writes all succeed, up to the first that is refused. -/
def appendAll (file : JournalFile) : List (UInt16 × List UInt8) → Except Status Unit × JournalFile
  | [] => (.ok (), file)
  | (kind, payload) :: more =>
    match file.append kind payload none with
    | (.error status, file) => (.error status, file)
    | (.ok (), file) => file.appendAll more

/-- Records with their sequence numbers. -/
def numberedFrom : UInt64 → List (UInt16 × List UInt8) → List FileFrame
  | _, [] => []
  | sequence, (kind, payload) :: more =>
    { kind, sequence, payload } :: numberedFrom (sequence + 1) more

theorem length_numberedFrom (sequence : UInt64) (more : List (UInt16 × List UInt8)) :
    (numberedFrom sequence more).length = more.length := by
  induction more generalizing sequence with
  | nil => rfl
  | cons record more ih => rw [numberedFrom, List.length_cons, ih, List.length_cons]

theorem payload_of_mem_numberedFrom {sequence : UInt64} {more : List (UInt16 × List UInt8)}
    (h : frame ∈ numberedFrom sequence more) : ∃ record ∈ more, frame.payload = record.2 := by
  induction more generalizing sequence with
  | nil => cases h
  | cons record more ih =>
    rcases List.mem_cons.mp h with rfl | h
    · exact ⟨record, List.mem_cons_self, rfl⟩
    · obtain ⟨other, hmem, hpayload⟩ := ih h
      exact ⟨other, List.mem_cons_of_mem _ hmem, hpayload⟩

/-- The file with one more frame. -/
def extended (file : JournalFile) (kind : UInt16) (payload : List UInt8) : JournalFile :=
  { file with
    bytes := file.bytes ++ encodeFrame { kind, sequence := file.nextSequence, payload }
    nextSequence := file.nextSequence + 1
    frameCount := file.frameCount + 1 }

theorem appendAll_eq (file : JournalFile) {more : List (UInt16 × List UInt8)}
    (hopen : file.isOpen = true)
    (hfit : ∀ record ∈ more, record.2.length ≤ file.options.maxPayload) :
    ∃ file', file.appendAll more = (.ok (), file') ∧ file'.options = file.options ∧
      file'.bytes = file.bytes ++ encodeFrames (numberedFrom file.nextSequence more) := by
  induction more generalizing file with
  | nil => exact ⟨file, rfl, rfl, by simp [numberedFrom, encodeFrames]⟩
  | cons record more ih =>
    obtain ⟨kind, payload⟩ := record
    obtain ⟨hfirst, hothers⟩ := List.forall_mem_cons.mp hfit
    have happend : file.append kind payload none = (.ok (), file.extended kind payload) := by
      simp [append, extended, hopen, Nat.not_lt.mpr hfirst]
    obtain ⟨file', hall, hoptions, hdata⟩ := ih (file.extended kind payload) hopen hothers
    rw [appendAll, happend]
    refine ⟨file', hall, hoptions, ?_⟩
    rw [hdata]
    simp [extended, numberedFrom, encodeFrames]

/-- Whatever part of a list of frames a file has kept, opening it succeeds and keeps exactly the
whole frames; the tail is reported and cut off, and the sequence goes on behind the last whole
frame. Frames that are then appended come back behind them when the file is opened again. -/
theorem torn_tail_repaired {file : JournalFile} {frames : List FileFrame} {n : Nat}
    (hwidth : file.options.maxPayload < 2 ^ 32)
    (hfit : ∀ frame ∈ frames, frame.payload.length ≤ file.options.maxPayload)
    (hsequence : ∀ frame ∈ frames, frame.sequence.toNat < 2 ^ 64 - 1)
    (hsize : (encodeFrames frames).length ≤ file.options.maxFileBytes)
    (hn : n ≤ (encodeFrames frames).length) (hdata : file.bytes = (encodeFrames frames).take n) :
    ∃ file', file.openFile = (.ok (), file') ∧
      file'.scan.corrupt = false ∧
      file'.scan.frames = (wholeFrames n frames).length ∧
      file'.scan.truncatedTailBytes = n - (encodeFrames (wholeFrames n frames)).length ∧
      file'.bytes = encodeFrames (wholeFrames n frames) ∧
      file'.nextSequence.toNat =
        ((wholeFrames n frames).getLast?.map fun frame => frame.sequence.toNat).getD 0 + 1 ∧
      ∀ more : List (UInt16 × List UInt8),
        (∀ record ∈ more, record.2.length ≤ file.options.maxPayload) →
        (encodeFrames (wholeFrames n frames ++ numberedFrom file'.nextSequence more)).length ≤
          file.options.maxFileBytes →
        ∃ file'' reopened, file'.appendAll more = (.ok (), file'') ∧
          file''.openFile = (.ok (), reopened) ∧
          ∀ maxFrames maxBytes, (wholeFrames n frames).length + more.length ≤ maxFrames →
            reopened.bytes.length ≤ maxBytes → reopened.replay maxFrames maxBytes =
              .ok (wholeFrames n frames ++ numberedFrom file'.nextSequence more) := by
  have hlength : file.bytes.length = n := by rw [hdata, List.length_take_of_le hn]
  obtain ⟨file', hopened, hholds⟩ := openFile_of_cut hwidth hfit hdata (by omega)
  rw [hlength] at hholds
  refine ⟨file', hopened, hholds.intact, hholds.frames, hholds.truncatedTailBytes, hholds.bytes,
    ?_, fun more hmore hroom => ?_⟩
  · rw [hholds.nextSequence, sequenceAfter]
    cases hlast : (wholeFrames n frames).getLast? with
    | none => rfl
    | some frame =>
      have hmem := (wholeFrames_isPrefix n frames).subset (List.mem_of_getLast? hlast)
      have hlt := hsequence frame hmem
      rw [Option.map_some, Option.getD_some, Option.map_some, Option.getD_some, UInt64.toNat_add]
      exact Nat.mod_eq_of_lt (by simpa using by omega)
  · have hmore' : ∀ record ∈ more, record.2.length ≤ file'.options.maxPayload := by
      rwa [hholds.options]
    obtain ⟨file'', hall, hoptions, hbytes⟩ := file'.appendAll_eq hholds.isOpen hmore'
    rw [hholds.options] at hoptions
    rw [hholds.bytes, encodeFrames, encodeFrames, ← List.flatMap_append] at hbytes
    have hfit' : ∀ frame ∈ wholeFrames n frames ++ numberedFrom file'.nextSequence more,
        frame.payload.length ≤ file''.options.maxPayload := by
      rw [hoptions]
      intro frame hmem
      rcases List.mem_append.mp hmem with hmem | hmem
      · exact hfit frame ((wholeFrames_isPrefix n frames).subset hmem)
      · obtain ⟨record, hrecord, hpayload⟩ := payload_of_mem_numberedFrom hmem
        exact hpayload ▸ hmore record hrecord
    have hroom' : file''.bytes.length ≤ file''.options.maxFileBytes := by
      rw [hbytes, hoptions]
      exact hroom
    obtain ⟨reopened, hreopened, hheld⟩ :=
      openFile_of_frames (hoptions ▸ hwidth) hfit' hbytes hroom'
    refine ⟨file'', reopened, hall, hreopened, fun maxFrames maxBytes hframes hmaxBytes => ?_⟩
    refine replay_encodeFrames (hoptions ▸ hwidth) hheld.isOpen (by rw [hheld.options])
      hheld.bytes ?_ hfit' ?_ ?_
    · rw [hheld.options, hoptions]
      exact hroom
    · rwa [List.length_append, length_numberedFrom]
    · rwa [← hheld.bytes]

/-- Two frames, of 29 and 30 bytes. -/
def twoFrames : List FileFrame := [⟨1, 1, [7]⟩, ⟨2, 2, [8, 9]⟩]

/-- A file that lost the last 19 of its 59 bytes. -/
theorem torn_tail_two_frames :
    ∃ file', openFile { bytes := (encodeFrames twoFrames).take 40 } = (.ok (), file') ∧
      file'.scan.frames = 1 ∧ file'.scan.truncatedTailBytes = 11 ∧
      ∃ file'' reopened, file'.appendAll [(3, [4])] = (.ok (), file'') ∧
        file''.openFile = (.ok (), reopened) ∧
        reopened.replay 10 (reopened.bytes.length) = .ok [⟨1, 1, [7]⟩, ⟨3, 2, [4]⟩] := by
  have hwhole : wholeFrames 40 twoFrames = [⟨1, 1, [7]⟩] := by decide
  obtain ⟨file', hopened, -, hframes, htail, -, hnext, happend⟩ :=
    @torn_tail_repaired { bytes := (encodeFrames twoFrames).take 40 } twoFrames 40 (by decide)
      (by decide) (by decide) (by decide +kernel) (by decide +kernel) rfl
  rw [hwhole] at hframes htail hnext happend
  have hnumber : file'.nextSequence = 2 := UInt64.toNat_inj.mp hnext
  rw [hnumber] at happend
  obtain ⟨file'', reopened, hall, hreopened, hreplay⟩ :=
    happend [(3, [4])] (by decide) (by decide +kernel)
  exact ⟨file', hopened, hframes, htail.trans (by decide +kernel), file'', reopened, hall,
    hreopened, hreplay 10 _ (by decide) (Nat.le_refl _)⟩

end JournalFile

end AdmissionFabric
