import AdmissionFabric.Guarantees.TornTail
import AdmissionFabric.Library.Run

/-!
# Appends that fail

An append whose write or sync fails leaves some of the bytes of its frame at the end of the file.
`append` neither cuts them off nor takes another sequence number, so what is appended next stands
behind them: the file cannot be opened any more, or two frames share a number. As long as nothing is
appended behind such bytes, opening the file gives all acknowledged frames, and at most the frame of
the last attempt besides.
-/

namespace AdmissionFabric

open JournalFile

/-- A call of `append`, with the number of bytes that reached the file if it fails. -/
structure AppendAttempt where
  kind : UInt16
  payload : List UInt8
  failure : Option Nat
  deriving DecidableEq, Repr

/-- A journal file in use: the frames on it when it was opened and those acknowledged since, the
frame of the last attempt if it failed, and the bytes that failed attempts have left. -/
structure AppendRun where
  file : JournalFile
  acknowledged : List FileFrame
  lastFailed : Option FileFrame := none
  leftover : List UInt8 := []
  deriving DecidableEq, Repr

namespace AppendRun

/-- The frame that an attempt writes. -/
def frameOf (run : AppendRun) (attempt : AppendAttempt) : FileFrame :=
  { kind := attempt.kind, sequence := run.file.nextSequence, payload := attempt.payload }

/-- The journal after one more write. -/
def step (run : AppendRun) (attempt : AppendAttempt) : AppendRun :=
  match run.file.append attempt.kind attempt.payload attempt.failure with
  | (.ok (), file) =>
    { run with file, acknowledged := run.acknowledged ++ [run.frameOf attempt], lastFailed := none }
  | (.error _, file) =>
    { run with
      file
      lastFailed := some (run.frameOf attempt)
      leftover := run.leftover ++ file.bytes.drop run.file.bytes.length }

/-- The file has just been opened. -/
structure Started (run : AppendRun) : Prop where
  width : run.file.options.maxPayload < 2 ^ 32
  holds : ∃ tailBytes, run.file.Holds run.file.options run.acknowledged tailBytes
  fit : ∀ frame ∈ run.acknowledged, frame.payload.length ≤ run.file.options.maxPayload
  ordered : run.acknowledged.Pairwise (·.sequence < ·.sequence)
  room : run.file.bytes.length ≤ run.file.options.maxFileBytes
  lastFailed : run.lastFailed = none
  leftover : run.leftover = []

/-- Nothing was left behind, and there are room and a sequence number for the frame. -/
def Undisturbed (run : AppendRun) (attempt : AppendAttempt) : Prop :=
  run.leftover = [] ∧
    run.file.bytes.length + (run.frameOf attempt).size ≤ run.file.options.maxFileBytes ∧
    run.file.nextSequence ≠ 0

instance (run : AppendRun) (attempt : AppendAttempt) : Decidable (run.Undisturbed attempt) :=
  inferInstanceAs (Decidable (_ ∧ _ ∧ _))

/-! ### One append -/

/-- Behind the acknowledged frames are at most the first bytes of the last attempt. -/
structure Intact (run : AppendRun) : Prop where
  isOpen : run.file.isOpen = true
  width : run.file.options.maxPayload < 2 ^ 32
  bytes : run.file.bytes = encodeFrames run.acknowledged ++ run.leftover
  nextSequence : run.file.nextSequence = sequenceAfter run.acknowledged
  fit : ∀ frame ∈ run.acknowledged, frame.payload.length ≤ run.file.options.maxPayload
  ordered : run.acknowledged.Pairwise (·.sequence < ·.sequence)
  room : run.file.bytes.length ≤ run.file.options.maxFileBytes
  tail : run.leftover = [] ∨ ∃ frame missing, run.lastFailed = some frame ∧
    encodeFrame frame = run.leftover ++ missing ∧
    frame.payload.length ≤ run.file.options.maxPayload ∧
    (run.acknowledged ++ [frame]).Pairwise (·.sequence < ·.sequence)

theorem Started.intact {run : AppendRun} (h : run.Started) : run.Intact := by
  obtain ⟨_, hholds⟩ := h.holds
  exact {
    isOpen := hholds.isOpen
    width := h.width
    bytes := by rw [hholds.bytes, h.leftover, List.append_nil]
    nextSequence := hholds.nextSequence
    fit := h.fit
    ordered := h.ordered
    room := h.room
    tail := Or.inl h.leftover }

theorem ordered_snoc {frames : List FileFrame} (h : frames.Pairwise (·.sequence < ·.sequence))
    {frame : FileFrame} (hnext : frame.sequence = sequenceAfter frames)
    (hpos : frame.sequence ≠ 0) : (frames ++ [frame]).Pairwise (·.sequence < ·.sequence) := by
  rcases frames.eq_nil_or_concat with rfl | ⟨init, last, rfl⟩
  · exact List.pairwise_singleton _ _
  rw [List.concat_eq_append] at h hnext ⊢
  have hsucc : frame.sequence = last.sequence + 1 := by simp [hnext, sequenceAfter]
  have hlast : last.sequence < frame.sequence := by
    rw [hsucc] at hpos ⊢
    refine UInt64.lt_add_one fun heq => hpos ?_
    rw [heq]
    rfl
  obtain ⟨-, -, hbelow⟩ := List.pairwise_append.mp h
  refine List.pairwise_append.mpr
    ⟨h, List.pairwise_singleton _ _, fun other hother final hfinal => ?_⟩
  obtain rfl := List.mem_singleton.mp hfinal
  rcases List.mem_append.mp hother with hother | hother
  · exact UInt64.lt_trans (hbelow other hother last (List.mem_singleton_self last)) hlast
  · exact List.mem_singleton.mp hother ▸ hlast

theorem sequenceAfter_snoc (frames : List FileFrame) (frame : FileFrame) :
    sequenceAfter (frames ++ [frame]) = frame.sequence + 1 := by
  simp [sequenceAfter]

theorem Intact.step {run : AppendRun} (h : run.Intact) {attempt : AppendAttempt}
    (hguard : run.Undisturbed attempt) : (run.step attempt).Intact := by
  obtain ⟨hclean, hroom, hnonzero⟩ := hguard
  have hbytes : run.file.bytes = encodeFrames run.acknowledged := by
    rw [h.bytes, hclean, List.append_nil]
  by_cases hfits : attempt.payload.length ≤ run.file.options.maxPayload
  · have hordered : (run.acknowledged ++ [run.frameOf attempt]).Pairwise
        (·.sequence < ·.sequence) := ordered_snoc h.ordered h.nextSequence hnonzero
    cases hfailure : attempt.failure with
    | none =>
      have happend : run.file.append attempt.kind attempt.payload attempt.failure =
          (.ok (), run.file.extended attempt.kind attempt.payload) := by
        simp [append, extended, h.isOpen, Nat.not_lt.mpr hfits, hfailure]
      rw [AppendRun.step, happend]
      refine ⟨h.isOpen, h.width, ?_, ?_, ?_, hordered, ?_, Or.inl hclean⟩
      · simp [extended, hbytes, hclean, encodeFrames, frameOf]
      · rw [sequenceAfter_snoc]
        rfl
      · exact List.forall_mem_append.mpr ⟨h.fit, by simpa [frameOf, extended] using hfits⟩
      · rw [← length_encodeFrame] at hroom
        simpa [extended, frameOf] using hroom
    | some kept =>
      have happend : run.file.append attempt.kind attempt.payload attempt.failure =
          (.error Journal.durableFailure, { run.file with
            bytes := run.file.bytes ++ (encodeFrame (run.frameOf attempt)).take kept }) := by
        simp [append, frameOf, h.isOpen, Nat.not_lt.mpr hfits, hfailure]
      rw [AppendRun.step, happend]
      simp only [List.drop_left, hclean, List.nil_append]
      refine ⟨h.isOpen, h.width, by rw [hbytes], h.nextSequence, h.fit, h.ordered, ?_,
        Or.inr ⟨run.frameOf attempt, (encodeFrame (run.frameOf attempt)).drop kept, rfl,
          (List.take_append_drop kept _).symm, hfits, hordered⟩⟩
      have hkept := List.length_take_le' kept (encodeFrame (run.frameOf attempt))
      rw [length_encodeFrame] at hkept
      simp only [List.length_append]
      omega
  · -- the payload is refused before anything is written
    have happend : run.file.append attempt.kind attempt.payload attempt.failure =
        (.error ⟨.oversizedInput, "journal payload exceeds the configured bound"⟩, run.file) := by
      simp [append, h.isOpen, Nat.not_le.mp hfits]
    rw [AppendRun.step, happend]
    simp only [List.drop_length, List.append_nil]
    exact ⟨h.isOpen, h.width, h.bytes, h.nextSequence, h.fit, h.ordered, h.room, Or.inl hclean⟩

/-! ### Opening the file again -/

theorem length_openFile_le (file : JournalFile) :
    file.openFile.2.bytes.length ≤ file.bytes.length := by
  unfold JournalFile.openFile
  split
  · exact le_rfl
  · split
    · exact le_rfl
    · exact le_rfl
    · exact List.length_take_le' _ _

theorem Intact.openFile {run : AppendRun} (h : run.Intact) :
    ∃ reopened frames tailBytes, run.file.openFile = (.ok (), reopened) ∧
      reopened.Holds run.file.options frames tailBytes ∧
      (∀ frame ∈ frames, frame.payload.length ≤ run.file.options.maxPayload) ∧
      frames.Pairwise (·.sequence < ·.sequence) ∧
      (frames = run.acknowledged ∨
        ∃ frame, run.lastFailed = some frame ∧ frames = run.acknowledged ++ [frame]) := by
  by_cases hclean : run.leftover = []
  · have hbytes : run.file.bytes = encodeFrames run.acknowledged := by
      rw [h.bytes, hclean, List.append_nil]
    obtain ⟨reopened, hopened, hholds⟩ := openFile_of_frames h.width h.fit hbytes h.room
    exact ⟨reopened, _, _, hopened, hholds, h.fit, h.ordered, Or.inl rfl⟩
  obtain ⟨frame, missing, hfailed, hcut, hfits, hordered⟩ := h.tail.resolve_left hclean
  by_cases hwhole : missing = []
  · -- every byte of the failed append is there
    have hfit : ∀ other ∈ run.acknowledged ++ [frame],
        other.payload.length ≤ run.file.options.maxPayload :=
      List.forall_mem_append.mpr ⟨h.fit, List.forall_mem_singleton.mpr hfits⟩
    have hbytes : run.file.bytes = encodeFrames (run.acknowledged ++ [frame]) := by
      rw [hwhole, List.append_nil] at hcut
      rw [h.bytes, ← hcut]
      simp [encodeFrames]
    obtain ⟨reopened, hopened, hholds⟩ := openFile_of_frames h.width hfit hbytes h.room
    exact ⟨reopened, _, _, hopened, hholds, hfit, hordered, Or.inr ⟨frame, hfailed, rfl⟩⟩
  · obtain ⟨reopened, hopened, hholds⟩ :=
      openFile_of_torn h.width h.fit hfits hcut hclean hwhole h.bytes h.room
    exact ⟨reopened, _, _, hopened, hholds, h.fit, h.ordered, Or.inl rfl⟩

/-- After any appends that do not follow left-over bytes, opening the file succeeds. It gives all
acknowledged frames in their order, no other frame than possibly that of the last attempt, and the
sequence numbers increase. -/
theorem openFile_of_reachable {run : AppendRun}
    (h : TransitionSystem.Reachable Started AppendRun.step Undisturbed run) :
    ∃ reopened frames, run.file.openFile = (.ok (), reopened) ∧
      (∀ maxFrames maxBytes, frames.length ≤ maxFrames → reopened.bytes.length ≤ maxBytes →
        reopened.replay maxFrames maxBytes = .ok frames) ∧
      frames.Pairwise (·.sequence < ·.sequence) ∧
      (frames = run.acknowledged ∨
        ∃ frame, run.lastFailed = some frame ∧ frames = run.acknowledged ++ [frame]) := by
  have hintact : run.Intact :=
    h.invariant (fun _ => Started.intact) (fun _ _ hintact hguard => hintact.step hguard)
  obtain ⟨reopened, frames, tailBytes, hopened, hholds, hfit, hordered, hframes⟩ :=
    hintact.openFile
  refine ⟨reopened, frames, hopened, fun maxFrames maxBytes hcount hlimit => ?_, hordered, hframes⟩
  have hroom : reopened.bytes.length ≤ run.file.options.maxFileBytes := by
    have hle := length_openFile_le run.file
    rw [hopened] at hle
    exact Nat.le_trans hle hintact.room
  rw [hholds.bytes] at hlimit hroom
  exact replay_encodeFrames hintact.width hholds.isOpen (by rw [hholds.options]) hholds.bytes
    (by rwa [hholds.options]) hfit hcount hlimit

/-- A new journal file. -/
def fresh : AppendRun := ⟨{ isOpen := true }, [], none, []⟩

theorem started_fresh : fresh.Started where
  width := by decide
  holds := ⟨0, by constructor <;> decide⟩
  fit := by decide
  ordered := .nil
  room := by decide
  lastFailed := rfl
  leftover := rfl

/-- A frame that was acknowledged comes back when the sync of the next one has failed. -/
theorem reopened_failed_sync :
    let run := TransitionSystem.run AppendRun.step fresh [⟨1, [7], none⟩, ⟨2, [8], some 29⟩]
    ∃ reopened frames, run.file.openFile = (.ok (), reopened) ∧
      (∀ maxFrames maxBytes, frames.length ≤ maxFrames → reopened.bytes.length ≤ maxBytes →
        reopened.replay maxFrames maxBytes = .ok frames) ∧
      [⟨1, 1, [7]⟩] <+: frames := by
  intro run
  have hreachable : TransitionSystem.Reachable Started AppendRun.step Undisturbed run :=
    (TransitionSystem.Reachable.init started_fresh).run (by decide +kernel)
  have hacknowledged : run.acknowledged = [⟨1, 1, [7]⟩] := by decide +kernel
  obtain ⟨file, frames, hopened, hreplay, -, hframes⟩ := AppendRun.openFile_of_reachable hreachable
  rw [hacknowledged] at hframes
  refine ⟨file, frames, hopened, hreplay, ?_⟩
  rcases hframes with rfl | ⟨frame, -, rfl⟩
  · exact List.prefix_rfl
  · exact List.prefix_append _ _

/-- An append fails after 5 bytes of its frame were written, the next one succeeds, and the file
cannot be opened any more. If all 29 bytes were written, both frames come back, with the same
number. -/
theorem poisoned_by_failure :
    let torn := TransitionSystem.run AppendRun.step fresh [⟨1, [7], some 5⟩, ⟨2, [8], none⟩]
    let doubled := TransitionSystem.run AppendRun.step fresh [⟨1, [7], some 29⟩, ⟨2, [8], none⟩]
    torn.acknowledged = [⟨2, 1, [8]⟩] ∧
      torn.file.openFile.1 =
        .error ⟨.corruptJournal, "journal frame version 19969 is not supported"⟩ ∧
      doubled.acknowledged = [⟨2, 1, [8]⟩] ∧
      doubled.file.openFile.1 = .ok () ∧
      doubled.file.openFile.2.replay 2 100 = .ok [⟨1, 1, [7]⟩, ⟨2, 1, [8]⟩] := by
  decide +kernel

end AppendRun

end AdmissionFabric
