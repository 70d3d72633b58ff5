import AdmissionFabric.Engine.Course

/-!
# Stamps on records and frames

The decisions in the history and in the journal carry the epoch they were made in, and the state
of their grant. No operation makes a decision for another epoch than the running one, and none
says of a grant that it expired. A replay restores what the frames say.
-/

namespace AdmissionFabric

namespace EngineCore

variable {bound' : FabricEpoch} {frame : JournalRecord} {core core' : EngineCore}
    {record : DecisionRecord} {bound : FabricEpoch}

/-- A frame does not say that a grant expired, nor that a decision was made after an epoch. -/
def StampedFrame (bound : FabricEpoch) : JournalRecord → Prop
  | .admissionCommit record | .admissionRefused record =>
    record.epoch ≤ bound ∧ record.state ≠ .expired
  | .revocation record => record.state ≠ .expired
  | _ => True

/-- No frame is expired or of a later epoch. -/
def StampedJournal (bound : FabricEpoch) (core : EngineCore) : Prop :=
  ∀ frame ∈ core.records, StampedFrame bound frame

/-- No retained record is expired or of a later epoch. -/
def StampedRecords (bound : FabricEpoch) (core : EngineCore) : Prop :=
  ∀ d record, core.history.find d = some record →
    record.epoch ≤ bound ∧ record.state ≠ .expired

theorem StampedFrame.mono (h : StampedFrame bound frame) (hle : bound ≤ bound') :
    StampedFrame bound' frame := by
  cases frame with
  | admissionCommit record | admissionRefused record => exact ⟨UInt64.le_trans h.1 hle, h.2⟩
  | _ => exact h

theorem StampedRecords.mono (h : core.StampedRecords bound) (hle : bound ≤ bound') :
    core.StampedRecords bound' :=
  fun d record hfind => (h d record hfind).imp_left (UInt64.le_trans · hle)

theorem StampedRecords.course (h : core.StampedRecords bound) (hepoch : core.epoch ≤ bound)
    (hcourse : core.Course core') : core'.StampedRecords bound := by
  intro d record' hfind
  rcases hcourse.recorded d record' hfind with ⟨record, hold, hcopy⟩ | hissues
  · obtain ⟨hle, hstate⟩ := h d record hold
    exact ⟨hcopy.epoch_eq ▸ hle, hstate ∘ hcopy.2⟩
  · exact ⟨hissues.epoch_eq ▸ hepoch, hissues.not_expired⟩

namespace StampedJournal

/-! ### Writes -/

theorem write (h : core.StampedJournal bound) {result : Except Status Unit}
    {journal : Option Journal}
    (hwrite : writeJournal core.journal core.journalReady frame = (result, journal))
    (hframe : StampedFrame bound frame) :
    ({ core with journal } : EngineCore).StampedJournal bound := by
  intro frame' hframe'
  rcases core.records_write hwrite with hrecords | hrecords
  · exact h frame' (hrecords ▸ hframe')
  · rw [hrecords] at hframe'
    rcases List.mem_append.mp hframe' with hold | hnew
    · exact h frame' hold
    · exact List.mem_singleton.mp hnew ▸ hframe

theorem of_stores (h : core.StampedJournal bound) (hstores : core'.stores = core.stores) :
    core'.StampedJournal bound := by
  have hjournal : core'.journal = core.journal := congrArg Stores.journal hstores
  simpa only [StampedJournal, EngineCore.records, hjournal] using h

theorem housekeeping (bound : FabricEpoch) :
    Housekeeping (fun _ => True) (StampedJournal bound) where
  release core d reason explanation _ h := by
    generalize hcall : core.releaseDecisionLocked d reason .revoked explanation = outcome
    cases releaseDecisionLocked_effect hcall with
    | unheld _ => exact h
    | unwritten _ hwrite | stuck _ hwrite _ => exact h.write hwrite trivial
    | @unmarked _ journal _ _ ledger _ hwrite _ hmark
    | @released journal _ _ ledger _ hwrite _ hmark =>
      have hreleased : ({ core with journal, ledger } : EngineCore).StampedJournal bound :=
        h.write hwrite trivial
      exact hreleased.write hmark (by simp [StampedFrame, revocationOf])
  mark _ _ _ _ _ h := h
  note core frame hnote h := by
    refine h.write rfl ?_
    cases hnote <;> simp [StampedFrame, revocationOf]
  clearFlags _ h := h
  steady _ _ hstores _ h := h.of_stores hstores

theorem compact (h : core.StampedJournal bound) (hrecords : core.StampedRecords bound) :
    core.compactLocked.2.StampedJournal bound := by
  intro frame hframe
  rcases core.records_compaction with hsame | hcompacted
  · exact h frame (hsame ▸ hframe)
  · rw [hcompacted] at hframe
    rcases mem_compactedRecords hframe with rfl | ⟨_, -, rfl⟩ | ⟨retained, hmem, hkind⟩ | ⟨_, rfl⟩
    · trivial
    · trivial
    · obtain ⟨⟨a, d⟩, -, hfind⟩ := List.mem_filterMap.mp hmem
      rcases mem_compactedFrames hkind with ⟨-, rfl | rfl⟩ | ⟨-, rfl⟩
      · trivial
      · exact hrecords d retained hfind
      · exact hrecords d retained hfind
    · trivial

theorem compactIfNeeded (h : core.StampedJournal bound) (hrecords : core.StampedRecords bound) :
    core.compactIfNeededLocked.2.StampedJournal bound := by
  unfold compactIfNeededLocked
  split
  · exact h
  · split
    · exact h.compact hrecords
    · exact h

/-! ### Admissions -/

theorem refuse (h : core.StampedJournal bound) (hepoch : core.epoch ≤ bound)
    (request : AdmissionRequest) (claim : ClaimContext) (reason : Refusal)
    (evidence : Option Evidence) (recordAttempt : Bool) :
    (core.refuse request claim reason evidence recordAttempt).2.StampedJournal bound := by
  rw [EngineCore.refuse, answer_snd]
  have hstamp : (core.refusal request claim reason evidence).epoch = core.epoch := by
    cases evidence <;> rfl
  generalize core.refusal request claim reason evidence = decision at hstamp ⊢
  generalize hcall : core.consumeIdentity.finishRefusal _ _ _ = outcome
  have hframe : StampedFrame bound
      (.admissionRefused (core.consumeIdentity.toRecord decision)) := by
    refine ⟨?_, by rintro ⟨⟩⟩
    change decision.epoch ≤ bound
    rwa [hstamp]
  have hconsumed : core.consumeIdentity.StampedJournal bound := h
  cases finishRefusal_effect hcall with
  | unwritten hwrite | settled hwrite => exact hconsumed.write hwrite hframe

theorem grant (h : core.StampedJournal bound) (hrecords : core.StampedRecords bound)
    (hepoch : core.epoch ≤ bound) (hpos : 0 < core.nextDecisionSequence)
    {request : AdmissionRequest} {claim : ClaimContext} {grant : Grant}
    (hverdict : core.verdict request claim = .grant grant) :
    (core.consumeIdentity.finishAdmission (core.admission request claim grant) request
      (amountsOf grant)).2.StampedJournal bound := by
  have hcourse := course_grant hpos hverdict
  have hframe : StampedFrame bound
      (.admissionCommit (core.consumeIdentity.liveRecord (core.admission request claim grant))) :=
    ⟨hepoch, by rintro ⟨⟩⟩
  have hconsumed : core.consumeIdentity.StampedJournal bound := h
  generalize hcall : core.consumeIdentity.finishAdmission _ _ _ = outcome at hcourse ⊢
  cases finishAdmission_effect hcall with
  | unprepared hprepare | unreserved hprepare _ => exact hconsumed.write hprepare trivial
  | uncommitted hprepare _ hcommit =>
    exact (hconsumed.write hprepare trivial).write hcommit hframe
  | committed hprepare _ hcommit =>
    have hwritten := (hconsumed.write hprepare trivial).write hcommit hframe
    rw [compactIfNeededLocked_snd] at hcourse
    have hstamped := hrecords.course hepoch hcourse
    exact StampedJournal.compactIfNeeded hwritten hstamped

theorem admitLocked (h : core.StampedJournal bound) (hrecords : core.StampedRecords bound)
    (hepoch : core.epoch ≤ bound) (hpos : 0 < core.nextDecisionSequence)
    (request : AdmissionRequest) (claim : ClaimContext) :
    (core.admitLocked request claim).2.StampedJournal bound := by
  unfold EngineCore.admitLocked
  cases hverdict : core.verdict request claim with
  | refuse reason evidence recordAttempt => exact h.refuse hepoch request claim reason evidence _
  | retired reason =>
    have hcounted : core.countReplay.StampedJournal bound := h
    exact hcounted.refuse hepoch request claim reason none false
  | replay decision => exact h
  | grant grant =>
    rw [answer_snd]
    exact h.grant hrecords hepoch hpos hverdict

theorem perform (h : core.StampedJournal bound) (hrecords : core.StampedRecords bound)
    (hepoch : core.epoch ≤ bound) (hpos : 0 < core.nextDecisionSequence)
    (operation : Operation) : (core.perform operation).2.StampedJournal bound :=
  (housekeeping bound).perform (fun _ _ hstores h => h.of_stores hstores) h (fun _ _ => trivial)
    (fun request claim _ => h.admitLocked hrecords hepoch hpos request claim)
    fun _ => h.compact hrecords

end StampedJournal

/-! ### Recovery -/

theorem stamped_of_replayFrames {config : EngineConfig} {frames : List JournalFrame}
    {state : ReplayState}
    (h : (EngineCore.fresh config).beginReplay.replayFrames frames = (.ok (), state))
    (hframes : ∀ frame ∈ frames.map JournalFrame.record, StampedFrame bound frame)
    {d : AdmissionDecisionId} (hfind : state.history.find d = some record) :
    record.epoch ≤ bound ∧ record.state ≠ .expired := by
  refine ReplayState.replayFrames_induction (I := fun _ state => ∀ d record,
    state.history.find d = some record → record.epoch ≤ bound ∧ record.state ≠ .expired)
    (fun _ _ h => h) (fun done state sequence frame state' hdone heffect ih => ?_) h
    (fun d record hnone => by
      simp [beginReplay, fresh, DecisionHistory.find] at hnone) d record hfind
  have hframe : StampedFrame bound frame := hframes frame (hdone.subset (by simp))
  -- a decision frame adds its record, a revocation frame marks one
  have hinsert : ∀ original restored : DecisionRecord, frame.decision? = some original →
      restored.epoch = original.epoch → restored.state = original.state → ∀ d record,
        (state.history.insert restored).find d = some record →
          record.epoch ≤ bound ∧ record.state ≠ .expired := by
    intro original restored hkind hepoch hstate d record hfind
    rcases DecisionHistory.find_of_find_insert hfind with ⟨rfl, -⟩ | hold
    · rw [hepoch, hstate]
      cases frame <;> cases hkind <;> exact hframe
    · exact ih d record hold
  cases heffect with
  | boot | policy | prepare | release | auditMark => exact ih
  | unprepared original | commit original =>
    exact hinsert original (ReplayState.restoredCommit original) rfl rfl rfl
  | refused original => exact hinsert original _ rfl rfl rfl
  | revocation revocation =>
    intro d record hfind
    simp only [ReplayState.replayRevocation] at hfind
    split at hfind
    · exact ih d record hfind
    · rename_i existing hexisting
      rw [DecisionHistory.find_update] at hfind
      split at hfind
      · rw [hexisting, Option.map_some] at hfind
        obtain rfl := Option.some.inj hfind
        exact ⟨(ih _ existing hexisting).1, hframe⟩
      · exact ih d record hfind

end EngineCore

end AdmissionFabric
