import AdmissionFabric.Durable.Records

/-!
# The append-only journal

The journal is a file of checksummed frames. It is modelled at the level of frames: a frame is a
record with its sequence number and its size in bytes, and a file is the list of its complete
frames together with the number of bytes of an incomplete frame behind them. Checksums are
assumed to tell an incomplete frame from a complete one.

The disk is an environment. Each write consumes one outcome of `disk`: the frame reaches stable
storage (`synced`), nothing usable of it reaches the file (`lost`), or its bytes are in the file
although the call failed (`unsynced`). An empty script means that every write succeeds.

A crash is `cut`: the file keeps its first `n` bytes.

Source: `include/naf/durable/journal.hpp`, `src/durable/journal.cpp`.
-/

namespace AdmissionFabric

/-! ### Frames -/

/-- A record as the journal stores it, with the kind as the constructor. -/
inductive JournalRecord
  | bootEpoch (record : BootRecord)
  | policyConfig (policy : AdmissionPolicy)
  | admissionPrepare (record : PrepareRecord)
  | admissionCommit (record : DecisionRecord)
  | admissionRefused (record : DecisionRecord)
  | ledgerRelease (record : ReleaseRecord)
  | revocation (record : RevocationRecord)
  | auditMark (record : AuditMarkRecord)
  deriving DecidableEq, Repr

/-- The payload of the frame of a record. -/
def JournalRecord.payload : JournalRecord → List UInt8
  | bootEpoch record => record.encode
  | policyConfig policy => policy.encode
  | admissionPrepare record => record.encode
  | admissionCommit record => record.encode
  | admissionRefused record => record.encode
  | ledgerRelease record => record.encode
  | revocation record => record.encode
  | auditMark record => record.encode

/-- A record and its number in the file. -/
structure JournalFrame where
  sequence : Nat
  record : JournalRecord
  deriving DecidableEq, Repr

/-- The header and the trailer of a frame. -/
def journalOverheadBytes : Nat := 28

/-- The bytes that a frame takes. -/
def JournalFrame.size (frame : JournalFrame) : Nat :=
  journalOverheadBytes + frame.record.payload.length

/-- The number of bytes of a list of frames. -/
def totalBytes (frames : List JournalFrame) : Nat := (frames.map JournalFrame.size).sum

/-- The frames that lie completely within the first `n` bytes. -/
def completeFrames : Nat → List JournalFrame → List JournalFrame
  | _, [] => []
  | n, frame :: frames =>
    if frame.size ≤ n then frame :: completeFrames (n - frame.size) frames else []

theorem completeFrames_isPrefix (n : Nat) (frames : List JournalFrame) :
    completeFrames n frames <+: frames := by
  induction frames generalizing n with
  | nil => exact List.prefix_rfl
  | cons frame frames ih =>
    rw [completeFrames]
    split
    · exact (List.prefix_cons_inj frame).mpr (ih _)
    · exact List.nil_prefix

theorem completeFrames_append {n : Nat} {frames frames' : List JournalFrame}
    (h : totalBytes frames ≤ n) :
    completeFrames n (frames ++ frames') =
      frames ++ completeFrames (n - totalBytes frames) frames' := by
  induction frames generalizing n with
  | nil => rfl
  | cons frame frames ih =>
    simp only [totalBytes, List.map_cons, List.sum_cons] at h
    rw [List.cons_append, completeFrames, if_pos (by omega), ih (by rw [totalBytes]; omega)]
    simp only [totalBytes, List.map_cons, List.sum_cons, List.cons_append, Nat.sub_sub]

/-! ### The journal -/

/-- The bounds of a journal and how it is written. -/
structure JournalOptions where
  maxPayload : Nat := Limits.maxJournalPayload
  syncOnAppend : Bool := true
  compactAtRecords : Nat := Limits.journalCompactAtRecords
  maxFileBytes : Nat := 2 ^ 32
  deriving DecidableEq, Repr

/-- What the disk does with one write. For the rewrite of a compaction, `lost` leaves the old
file in use, `severed` leaves the old file but no open handle, and `unsynced` leaves the new file
but no open handle. -/
inductive DiskOutcome
  | synced
  | lost
  | unsynced
  | severed
  deriving DecidableEq, Repr

/-- What a scan of the file found. -/
structure JournalScanResult where
  created : Bool := false
  frames : Nat := 0
  truncatedTailBytes : Nat := 0
  deriving DecidableEq, Repr

/-- A journal: its file, and what its process knows of it. -/
structure Journal where
  options : JournalOptions := {}
  fileExists : Bool := false
  frames : List JournalFrame := []
  tornBytes : Nat := 0
  isOpen : Bool := false
  nextSequence : Nat := 1
  frameCount : Nat := 0
  scan : JournalScanResult := {}
  disk : List DiskOutcome := []

namespace Journal

/-- The status of a write that failed. -/
def durableFailure : Status := ⟨.durableFailure, "journal file operation failed"⟩

/-- The outcome of the next write. -/
def nextOutcome (journal : Journal) : DiskOutcome := journal.disk.headD .synced

/-- The journal with the outcome of one write consumed. -/
def consume (journal : Journal) : Journal := { journal with disk := journal.disk.tail }

/-- Scan the file and repair a torn tail. -/
def scanFile (journal : Journal) : Except Status Unit × Journal :=
  let opened := { journal with isOpen := true, fileExists := true }
  if totalBytes journal.frames + journal.tornBytes > journal.options.maxFileBytes then
    (.error ⟨.oversizedInput, "journal exceeds the configured size bound"⟩, opened)
  else if journal.frames.any fun frame =>
      frame.record.payload.length > journal.options.maxPayload then
    (.error ⟨.corruptJournal, "journal frame payload exceeds the bound"⟩, opened)
  else
    (.ok (), { opened with
      tornBytes := 0
      nextSequence := (journal.frames.getLast?.map JournalFrame.sequence).getD 0 + 1
      frameCount := journal.frames.length
      scan := {
        created := !journal.fileExists
        frames := journal.frames.length
        truncatedTailBytes := journal.tornBytes } })

/-- Open the journal. -/
def openFile (journal : Journal) : Except Status Unit × Journal :=
  match journal.nextOutcome with
  | .synced => journal.consume.scanFile
  | _ => (.error durableFailure, journal.consume)

/-- Append one frame. A failed sync leaves the frame in the file without counting it. -/
def append (journal : Journal) (record : JournalRecord) : Except Status Unit × Journal :=
  if !journal.isOpen then (.error ⟨.invalidArgument, "journal is not open"⟩, journal)
  else if record.payload.length > journal.options.maxPayload then
    (.error ⟨.oversizedInput, "journal payload exceeds the configured bound"⟩, journal)
  else
    let frame : JournalFrame := ⟨journal.nextSequence, record⟩
    let written := { journal.consume with frames := journal.frames ++ [frame] }
    let counted := { written with
      nextSequence := journal.nextSequence + 1
      frameCount := journal.frameCount + 1 }
    match journal.nextOutcome with
    | .synced => (.ok (), counted)
    | .unsynced =>
      if journal.options.syncOnAppend then (.error durableFailure, written) else (.ok (), counted)
    | _ => (.error durableFailure, journal.consume)

/-- Every intact frame in order, bounded by a number of frames and a number of bytes. -/
def replay (journal : Journal) (maxFrames maxBytes : Nat) : Except Status (List JournalFrame) := do
  rejectIf (!journal.isOpen) ⟨.invalidArgument, "journal is not open"⟩
  rejectIf (totalBytes journal.frames + journal.tornBytes > journal.options.maxFileBytes)
    ⟨.oversizedInput, "journal exceeds the configured size bound"⟩
  rejectIf (journal.frames.length > maxFrames)
    ⟨.oversizedInput, "journal has more frames than the replay bound"⟩
  rejectIf (totalBytes journal.frames > maxBytes)
    ⟨.oversizedInput, "journal replay exceeds the byte bound"⟩
  .ok journal.frames

/-- Number records from one on. -/
def numbered (records : List JournalRecord) : List JournalFrame :=
  records.zipIdx.map fun r => ⟨r.2 + 1, r.1⟩

/-- Replace the file by exactly these records, then open it again. -/
def compact (journal : Journal) (live : List JournalRecord) : Except Status Unit × Journal :=
  if !journal.isOpen then (.error ⟨.invalidArgument, "journal is not open"⟩, journal)
  else
    let replaced := { journal.consume with frames := numbered live, tornBytes := 0 }
    match journal.nextOutcome with
    | .synced => replaced.scanFile
    | .lost => (.error durableFailure, journal.consume)
    | .severed => (.error durableFailure, { journal.consume with isOpen := false })
    | .unsynced => (.error durableFailure, { replaced with isOpen := false })

/-- The journal that is found after a crash: the first `n` bytes of the file, not opened yet. -/
def cut (journal : Journal) (n : Nat) : Journal :=
  let frames := completeFrames n journal.frames
  { options := journal.options
    fileExists := true
    frames
    tornBytes := min n (totalBytes journal.frames + journal.tornBytes) - totalBytes frames }

/-! ### Records of a journal -/

/-- The records of the complete frames, in order. -/
def records (journal : Journal) : List JournalRecord := journal.frames.map JournalFrame.record

@[simp] theorem map_record_numbered (records : List JournalRecord) :
    (numbered records).map JournalFrame.record = records := by
  rw [numbered, List.map_map]
  exact List.zipIdx_map_fst 0 records

@[simp] theorem records_scanFile (journal : Journal) :
    journal.scanFile.2.records = journal.records := by
  unfold scanFile records
  split
  · rfl
  · split <;> rfl

/-- Whether the journal takes a record of this size: an open handle and a payload in bounds. -/
def Accepts (journal : Journal) (record : JournalRecord) : Prop :=
  journal.isOpen = true ∧ record.payload.length ≤ journal.options.maxPayload

instance (journal : Journal) (record : JournalRecord) : Decidable (journal.Accepts record) := by
  unfold Accepts
  infer_instance

theorem append_cases (journal : Journal) (record : JournalRecord) :
    ((∃ s, (journal.append record).1 = .error s) ∧
        (journal.append record).2.frames = journal.frames) ∨
      (journal.append record).2.frames = journal.frames ++ [⟨journal.nextSequence, record⟩] := by
  simp only [append]
  split
  · exact Or.inl ⟨⟨_, rfl⟩, rfl⟩
  · split
    · exact Or.inl ⟨⟨_, rfl⟩, rfl⟩
    · split
      · exact Or.inr rfl
      · split <;> exact Or.inr rfl
      · exact Or.inl ⟨⟨_, rfl⟩, rfl⟩

theorem of_append_ok {journal : Journal} {record : JournalRecord}
    (h : (journal.append record).1 = .ok ()) :
    journal.Accepts record ∧ (journal.append record).2.isOpen = true ∧
      (journal.append record).2.options = journal.options ∧
      (journal.append record).2.disk = journal.disk.tail := by
  simp only [append] at h ⊢
  split at h
  · cases h
  · rename_i hopen
    rw [Bool.not_eq_true, Bool.not_eq_false'] at hopen
    split at h
    · cases h
    · rename_i hlength
      have haccepts : journal.Accepts record := ⟨hopen, Nat.not_lt.mp hlength⟩
      rw [if_neg (by simp [hopen]), if_neg hlength]
      split at h
      · exact ⟨haccepts, hopen, rfl, rfl⟩
      · split at h
        · cases h
        · rename_i hsync
          rw [if_neg hsync]
          exact ⟨haccepts, hopen, rfl, rfl⟩
      · cases h

theorem frameCount_of_append_ok {journal : Journal} {record : JournalRecord}
    (h : (journal.append record).1 = .ok ()) :
    (journal.append record).2.frameCount = journal.frameCount + 1 := by
  simp only [append] at h ⊢
  split at h
  · cases h
  · rename_i hopen
    split at h
    · cases h
    · rename_i hlength
      rw [if_neg hopen, if_neg hlength]
      split at h
      · rfl
      · split at h
        · cases h
        · rename_i hsync
          rw [if_neg hsync]
      · cases h

/-- The outcome of the write that comes after `n` others. -/
def outcomeOf (journal : Journal) (n : Nat) : DiskOutcome := journal.disk.getD n .synced

theorem nextOutcome_eq_outcomeOf (journal : Journal) :
    journal.nextOutcome = journal.outcomeOf 0 := by
  rw [nextOutcome, outcomeOf]
  cases journal.disk <;> rfl

theorem outcomeOf_of_tail {journal journal' : Journal} (h : journal'.disk = journal.disk.tail)
    (n : Nat) : journal'.outcomeOf n = journal.outcomeOf (n + 1) := by
  rw [outcomeOf, outcomeOf, h]
  cases journal.disk <;> rfl

/-- Whether a write with this outcome counts as done; syncing may be switched off. -/
def Persists (journal : Journal) (outcome : DiskOutcome) : Prop :=
  outcome = .synced ∨ outcome = .unsynced ∧ journal.options.syncOnAppend = false

instance (journal : Journal) (outcome : DiskOutcome) : Decidable (journal.Persists outcome) := by
  unfold Persists
  infer_instance

theorem append_eq_ok_iff {journal : Journal} {record : JournalRecord} :
    (journal.append record).1 = .ok () ↔
      journal.Accepts record ∧ journal.Persists (journal.outcomeOf 0) := by
  rw [← nextOutcome_eq_outcomeOf]
  simp only [append, Accepts, Persists]
  by_cases hopen : journal.isOpen = true
  · by_cases hlength : record.payload.length ≤ journal.options.maxPayload
    · rw [if_neg (by simp [hopen]), if_neg (Nat.not_lt.mpr hlength)]
      cases journal.nextOutcome <;> cases journal.options.syncOnAppend <;> simp [hopen, hlength]
    · rw [if_neg (by simp [hopen]), if_pos (Nat.not_le.mp hlength)]
      simp [hlength]
  · simp [hopen]

theorem isOpen_append (journal : Journal) (record : JournalRecord) :
    (journal.append record).2.isOpen = journal.isOpen := by
  simp only [append]
  cases journal.nextOutcome <;> split_ifs <;> rfl

theorem options_append (journal : Journal) (record : JournalRecord) :
    (journal.append record).2.options = journal.options := by
  simp only [append]
  cases journal.nextOutcome <;> split_ifs <;> rfl

theorem outcomeOf_append {journal : Journal} (h : ∀ n, journal.outcomeOf n = .synced)
    (record : JournalRecord) (n : Nat) : (journal.append record).2.outcomeOf n = .synced := by
  have hnext : journal.nextOutcome = .synced := (nextOutcome_eq_outcomeOf journal).trans (h 0)
  simp only [append, hnext]
  split_ifs
  · exact h n
  · exact h n
  · exact (outcomeOf_of_tail rfl n).trans (h (n + 1))

/-- A journal and the journal one successful write later. -/
structure Written (journal journal' : Journal) : Prop where
  wasOpen : journal.isOpen = true
  isOpen : journal'.isOpen = true
  options : journal'.options = journal.options
  frameCount : journal'.frameCount = journal.frameCount + 1
  outcomeOf : ∀ n, journal'.outcomeOf n = journal.outcomeOf (n + 1)

theorem written_of_append_ok {journal : Journal} {record : JournalRecord}
    (h : (journal.append record).1 = .ok ()) : journal.Written (journal.append record).2 := by
  obtain ⟨haccepts, hopen, hoptions, hdisk⟩ := of_append_ok h
  exact ⟨haccepts.1, hopen, hoptions, frameCount_of_append_ok h, outcomeOf_of_tail hdisk⟩

namespace Written

variable {journal journal' : Journal}

theorem accepts_iff (h : journal.Written journal') {record : JournalRecord} :
    journal'.Accepts record ↔ journal.Accepts record := by
  rw [Accepts, Accepts, h.isOpen, h.wasOpen, h.options]

theorem persists_iff (h : journal.Written journal') {outcome : DiskOutcome} :
    journal'.Persists outcome ↔ journal.Persists outcome := by
  rw [Persists, Persists, h.options]

end Written

/-- Whether these records can be all of the file: its size and the payloads are in bounds. -/
def FitsFile (journal : Journal) (records : List JournalRecord) : Prop :=
  totalBytes (numbered records) ≤ journal.options.maxFileBytes ∧
    ∀ record ∈ records, record.payload.length ≤ journal.options.maxPayload

theorem any_numbered (records : List JournalRecord) (p : JournalRecord → Bool) :
    (numbered records).any (fun frame => p frame.record) = records.any p := by
  conv_rhs => rw [← map_record_numbered records, List.any_map]
  rfl

theorem Written.fitsFile_iff {journal journal' : Journal} (h : journal.Written journal')
    {records : List JournalRecord} : journal'.FitsFile records ↔ journal.FitsFile records := by
  rw [FitsFile, FitsFile, h.options]

theorem compact_eq_ok_iff {journal : Journal} {live : List JournalRecord} :
    (journal.compact live).1 = .ok () ↔
      journal.isOpen = true ∧ journal.outcomeOf 0 = .synced ∧ journal.FitsFile live := by
  rw [← nextOutcome_eq_outcomeOf, FitsFile, compact]
  by_cases hopen : journal.isOpen = true
  · rw [if_neg (by simp [hopen])]
    cases houtcome : journal.nextOutcome with
    | synced =>
      simp only [hopen, scanFile, Nat.add_zero, consume, true_and]
      by_cases hsize : totalBytes (numbered live) ≤ journal.options.maxFileBytes
      · rw [if_neg (Nat.not_lt.mpr hsize),
          any_numbered live fun record =>
            decide (record.payload.length > journal.options.maxPayload)]
        by_cases hlarge : (live.any fun record =>
            decide (record.payload.length > journal.options.maxPayload)) = true
        · rw [if_pos hlarge]
          obtain ⟨record, hmem, hgt⟩ := List.any_eq_true.mp hlarge
          refine iff_of_false nofun fun hall => ?_
          exact Nat.not_le.mpr (of_decide_eq_true hgt) (hall.2 record hmem)
        · rw [if_neg hlarge]
          refine iff_of_true rfl ⟨hsize, fun record hmem => Nat.not_lt.mp fun hgt => hlarge ?_⟩
          exact List.any_eq_true.mpr ⟨record, hmem, decide_eq_true hgt⟩
      · rw [if_pos (Nat.not_le.mp hsize)]
        exact iff_of_false nofun fun hall => hsize hall.1
    | lost | unsynced | severed => simp
  · simp [hopen]

/-- The journal with one more frame. -/
def appended (journal : Journal) (record : JournalRecord) : Journal :=
  { journal with
    frames := journal.frames ++ [⟨journal.nextSequence, record⟩]
    nextSequence := journal.nextSequence + 1
    frameCount := journal.frameCount + 1 }

theorem append_of_disk_nil {journal : Journal} {record : JournalRecord}
    (hdisk : journal.disk = []) (haccepts : journal.Accepts record) :
    journal.append record = (.ok (), journal.appended record) := by
  simp [append, appended, haccepts.1, Nat.not_lt.mpr haccepts.2, nextOutcome, consume, hdisk]

end Journal

end AdmissionFabric
