import AdmissionFabric.Engine.Recovery

/-!
# What a replay does

The effect of each kind of frame on the state of a replay, and rules for whole replays. A replay
that succeeds has taken every frame of the file in order.
-/

namespace AdmissionFabric

variable {config : EngineConfig}

/-- The record of a decision frame. -/
def JournalRecord.decision? : JournalRecord → Option DecisionRecord
  | .admissionCommit record | .admissionRefused record => some record
  | _ => none

/-- The records of the decision frames in a list of records. -/
def decisionsIn (records : List JournalRecord) : List DecisionRecord :=
  records.filterMap JournalRecord.decision?

@[simp] theorem decisionsIn_append (records records' : List JournalRecord) :
    decisionsIn (records ++ records') = decisionsIn records ++ decisionsIn records' :=
  List.filterMap_append

namespace ReplayState

variable (record : DecisionRecord) {frame : JournalFrame} {frames : List JournalFrame}
    {original restored : DecisionRecord}

/-- A record of a decision frame as the replay keeps it. -/
def restoredCommit (record : DecisionRecord) : DecisionRecord :=
  { record with
    restoredFromDisk := true
    ledgerLive := record.outcome.isAdmitting ∧ record.state ≠ .revoked }

/-- What one frame does to the state of a replay. -/
inductive Effect (state : ReplayState) (sequence : Nat) : JournalRecord → ReplayState → Prop
  | boot (record : BootRecord) :
      Effect state sequence (.bootEpoch record)
        { state with recoveredEpoch := max state.recoveredEpoch record.epoch }
  | policy (policy : AdmissionPolicy) (hvalid : policy.validate = .ok ()) :
      Effect state sequence (.policyConfig policy)
        { state with policy := some policy, policyValid := valid_some hvalid }
  | prepare (record : PrepareRecord) :
      Effect state sequence (.admissionPrepare record)
        { state with pending := state.pending.insert record.decision ⟨record, sequence⟩ }
  | unprepared (record : DecisionRecord) (hpending : state.pending[record.decision]? = none)
      (hrefuses : record.outcome.isAdmitting = false) :
      Effect state sequence (.admissionCommit record) (state.replayDecision (restoredCommit record))
  | commit (record : DecisionRecord) {prepared : AmbiguousAttempt}
      (hpending : state.pending[record.decision]? = some prepared) :
      Effect state sequence (.admissionCommit record) (replayDecision { state with
        committedPrepares := state.committedPrepares.insert record.decision prepared.prepare
        pending := state.pending.erase record.decision } (restoredCommit record))
  | refused (record : DecisionRecord) :
      Effect state sequence (.admissionRefused record) (state.replayRefused record)
  | release (record : ReleaseRecord) :
      Effect state sequence (.ledgerRelease record)
        { state with released := state.released ++ [record.decision] }
  | revocation (record : RevocationRecord) :
      Effect state sequence (.revocation record) (state.replayRevocation record)
  | auditMark (record : AuditMarkRecord) :
      Effect state sequence (.auditMark record)
        { state with recoveredAudit := max state.recoveredAudit record.sequence }

theorem effect_of_replayRecord {state state' : ReplayState}
    (h : state.replayRecord frame = .ok state') :
    Effect state frame.sequence frame.record state' := by
  obtain ⟨sequence, record⟩ := frame
  cases record <;> simp only [replayRecord, check_bind_eq_ok_iff, pure, Except.pure] at h
  case bootEpoch record =>
    simp only [replayBoot, check_bind_eq_ok_iff, pure, Except.pure, Except.ok.injEq] at h
    exact h.2.2.2 ▸ .boot record
  case policyConfig policy =>
    replace h := h.2
    unfold replayPolicy at h
    split at h
    · cases h
    · rename_i hvalid
      exact Except.ok.inj h ▸ .policy policy hvalid
  case admissionPrepare record => exact Except.ok.inj h.2 ▸ .prepare record
  case admissionCommit record =>
    replace h := h.2
    unfold replayCommit at h
    simp only at h
    split at h
    · rename_i hpending
      simp only [check_bind_eq_ok_iff, rejectIf_eq_ok_iff, pure, Except.pure,
        Except.ok.injEq] at h
      exact h.2 ▸ .unprepared record hpending (by simpa using h.1)
    · rename_i prepared hpending
      exact Except.ok.inj h ▸ .commit record hpending
  case admissionRefused record => exact Except.ok.inj h.2 ▸ .refused record
  case ledgerRelease record => exact Except.ok.inj h.2 ▸ .release record
  case revocation record => exact Except.ok.inj h.2 ▸ .revocation record
  case auditMark record => exact Except.ok.inj h.2 ▸ .auditMark record

theorem replayFrames_induction {I : List JournalRecord → ReplayState → Prop}
    (hcount : ∀ done state, I done state → I done state.countFrame)
    (hstep : ∀ done state sequence record state',
      done ++ [record] <+: frames.map JournalFrame.record →
        Effect state sequence record state' → I done state → I (done ++ [record]) state')
    {state state' : ReplayState} (h : state.replayFrames frames = (.ok (), state'))
    (hI : I [] state) : I (frames.map JournalFrame.record) state' := by
  have hrest : ∀ (rest : List JournalFrame) (done : List JournalRecord) (state : ReplayState),
      done ++ rest.map JournalFrame.record = frames.map JournalFrame.record → I done state →
        state.replayFrames rest = (.ok (), state') → I (frames.map JournalFrame.record) state' := by
    intro rest
    induction rest with
    | nil =>
      intro done state hall hI h
      obtain rfl : state = state' := congrArg Prod.snd h
      rw [List.map_nil, List.append_nil] at hall
      exact hall ▸ hI
    | cons frame rest ih =>
      intro done state hall hI h
      rw [replayFrames] at h
      rw [List.map_cons, List.append_cons] at hall
      cases hrecord : state.replayRecord frame with
      | error refusal => simp [hrecord] at h
      | ok next =>
        rw [hrecord] at h
        refine ih (done ++ [frame.record]) next.countFrame hall (hcount _ _ ?_) h
        exact hstep done state frame.sequence frame.record next ⟨_, hall⟩
          (effect_of_replayRecord hrecord) hI
  exact hrest frames [] state rfl hI h

/-! ### Where a replay has its state from -/

/-- A record as a replay restored it from a decision frame and marked it since. -/
def Restores (original restored : DecisionRecord) : Prop :=
  restored = { original with
    state := restored.state
    reason := restored.reason
    ledgerLive := restored.ledgerLive
    restoredFromDisk := true }

theorem Restores.decision (h : Restores original restored) :
    restored.decision = original.decision := by rw [h]

theorem Restores.audit (h : Restores original restored) :
    restored.audit = original.audit := by rw [h]

theorem restores_restoredCommit : Restores record (restoredCommit record) := rfl

theorem restores_refused :
    Restores record { record with restoredFromDisk := true, ledgerLive := false } := rfl

/-- What a replay keeps comes from the frames it was given. -/
structure Sourced (records : List JournalRecord) (state : ReplayState) : Prop where
  recorded : ∀ id record, state.history.find id = some record →
    record.decision = id ∧ ∃ original ∈ decisionsIn records, Restores original record
  pending : ∀ (id : AdmissionDecisionId) prepared, state.pending[id]? = some prepared →
    prepared.prepare.decision = id ∧ .admissionPrepare prepared.prepare ∈ records
  committed : ∀ (id : AdmissionDecisionId) prepare, state.committedPrepares[id]? = some prepare →
    prepare.decision = id ∧ .admissionPrepare prepare ∈ records ∧
      ∃ record, .admissionCommit record ∈ records ∧ record.decision = id

variable {state state' : ReplayState} {records : List JournalRecord}

theorem Sourced.mono (h : state.Sourced records) {records' : List JournalRecord}
    (hsubset : records ⊆ records') : state.Sourced records' where
  recorded id record hfind := by
    obtain ⟨hid, original, hmem, hrestores⟩ := h.recorded id record hfind
    exact ⟨hid, original, List.filterMap_subset _ hsubset hmem, hrestores⟩
  pending id prepared hget := (h.pending id prepared hget).imp_right fun hmem => hsubset hmem
  committed id prepare hget := by
    obtain ⟨hid, hmem, record, hrecord, hdecision⟩ := h.committed id prepare hget
    exact ⟨hid, hsubset hmem, record, hsubset hrecord, hdecision⟩

theorem Sourced.replayDecision (h : state.Sourced records)
    (hmem : original ∈ decisionsIn records) (hrestores : Restores original restored) :
    (state.replayDecision restored).Sourced records := by
  refine ⟨fun id found hfind => ?_, h.pending, h.committed⟩
  rcases DecisionHistory.find_of_find_insert hfind with ⟨rfl, rfl⟩ | hold
  · exact ⟨rfl, original, hmem, hrestores⟩
  · exact h.recorded id found hold

theorem Sourced.effect (h : state.Sourced records) {sequence : Nat} {record : JournalRecord}
    (heffect : Effect state sequence record state') : state'.Sourced (records ++ [record]) := by
  have hlast : record ∈ records ++ [record] := List.mem_append_right _ List.mem_cons_self
  have hdecision : ∀ original, record.decision? = some original →
      original ∈ decisionsIn (records ++ [record]) :=
    fun original hrecord => List.mem_filterMap.mpr ⟨record, hlast, hrecord⟩
  replace h := h.mono (List.subset_append_left records [record])
  cases heffect with
  | boot | policy | release | auditMark => exact ⟨h.recorded, h.pending, h.committed⟩
  | prepare record =>
    refine ⟨h.recorded, fun id prepared hget => ?_, h.committed⟩
    simp only [Std.ExtTreeMap.getElem?_insert] at hget
    split at hget
    · rename_i heq
      obtain rfl := Option.some.inj hget
      exact ⟨Std.compare_eq_iff_eq.mp heq, hlast⟩
    · exact h.pending id prepared hget
  | unprepared record _ _ =>
    exact h.replayDecision (hdecision record rfl) (restores_restoredCommit record)
  | @commit record prepared hpending =>
    have hcommitted : Sourced (records ++ [.admissionCommit record]) { state with
        committedPrepares := state.committedPrepares.insert record.decision prepared.prepare
        pending := state.pending.erase record.decision } := by
      refine ⟨h.recorded, fun id prepared hget => ?_, fun id prepare hget => ?_⟩
      · simp only [Std.ExtTreeMap.getElem?_erase] at hget
        split at hget
        · cases hget
        · exact h.pending id prepared hget
      · simp only [Std.ExtTreeMap.getElem?_insert] at hget
        split at hget
        · rename_i heq
          obtain rfl := Option.some.inj hget
          obtain ⟨hid, hmem⟩ := h.pending _ _ hpending
          have heq : record.decision = id := Std.compare_eq_iff_eq.mp heq
          exact ⟨hid.trans heq, hmem, record, hlast, heq⟩
        · exact h.committed id prepare hget
    exact hcommitted.replayDecision (hdecision record rfl) (restores_restoredCommit record)
  | refused record => exact h.replayDecision (hdecision record rfl) (restores_refused record)
  | revocation record =>
    refine ⟨fun id found hfind => ?_, h.pending, h.committed⟩
    simp only [replayRevocation] at hfind
    split at hfind
    · exact h.recorded id found hfind
    · rename_i existing hexisting
      rw [DecisionHistory.find_update] at hfind
      split at hfind
      · rename_i heq
        subst heq
        rw [hexisting, Option.map_some] at hfind
        obtain rfl := Option.some.inj hfind
        obtain ⟨hid, original, hmem, hrestores⟩ := h.recorded _ existing hexisting
        exact ⟨hid, original, hmem, by rw [Restores, hrestores]⟩
      · exact h.recorded id found hfind

theorem sourced_beginReplay (config : EngineConfig) :
    (EngineCore.fresh config).beginReplay.Sourced [] where
  recorded id record hfind := by
    simp [EngineCore.beginReplay, EngineCore.fresh, DecisionHistory.find] at hfind
  pending id prepared hget := by simp [EngineCore.beginReplay] at hget
  committed id prepare hget := by simp [EngineCore.beginReplay] at hget

theorem sourced_of_replayFrames
    (h : (EngineCore.fresh config).beginReplay.replayFrames frames = (.ok (), state)) :
    state.Sourced (frames.map JournalFrame.record) :=
  replayFrames_induction (I := Sourced) (fun _ _ h => ⟨h.recorded, h.pending, h.committed⟩)
    (fun _ _ _ _ _ _ heffect h => h.effect heffect) h (sourced_beginReplay config)

theorem le_of_replayFrames (bound : ReplayState → Nat) (value : JournalRecord → Nat)
    (hcount : ∀ state, bound state.countFrame = bound state)
    (hstep : ∀ state sequence record state', Effect state sequence record state' →
      bound state ≤ bound state' ∧ value record ≤ bound state') {state state' : ReplayState}
    (h : state.replayFrames frames = (.ok (), state')) :
    bound state ≤ bound state' ∧ ∀ frame ∈ frames, value frame.record ≤ bound state' := by
  induction frames generalizing state with
  | nil =>
    obtain rfl : state = state' := congrArg Prod.snd h
    simp
  | cons frame frames ih =>
    rw [replayFrames] at h
    cases hrecord : state.replayRecord frame with
    | error refusal => simp [hrecord] at h
    | ok next =>
      rw [hrecord] at h
      obtain ⟨hle, hrest⟩ := ih h
      obtain ⟨hstate, hvalue⟩ := hstep _ _ _ _ (effect_of_replayRecord hrecord)
      rw [hcount] at hle
      exact ⟨hstate.trans hle, List.forall_mem_cons.mpr ⟨hvalue.trans hle, hrest⟩⟩

/-! ### Identities and audit sequences -/

theorem decision_le_of_replayFrames (h : state.replayFrames frames = (.ok (), state'))
    {record : DecisionRecord} (hrecord : record ∈ decisionsIn (frames.map JournalFrame.record)) :
    record.decision ≤ state'.maxDecisionSequence := by
  obtain ⟨_, hmem, hrecord⟩ := List.mem_filterMap.mp hrecord
  obtain ⟨frame, hframe, rfl⟩ := List.mem_map.mp hmem
  have hle := (le_of_replayFrames (·.maxDecisionSequence)
    (fun record => (record.decision?.map (·.decision)).getD 0) (fun _ => rfl)
    (fun state sequence record state' heffect => ?_) h).2 frame hframe
  · rwa [hrecord] at hle
  · cases heffect with
    | unprepared record _ _ | commit record _ | refused record =>
      exact ⟨Nat.le_max_left _ _, Nat.le_max_right _ _⟩
    | _ => exact ⟨Nat.le_refl _, Nat.zero_le _⟩

/-- The audit sequence that a record states as the next one. -/
def nextAudit? : JournalRecord → Option AuditSequence
  | .revocation record => some record.audit
  | .auditMark record => some record.sequence
  | _ => none

theorem nextAudit_le_of_replayFrames (h : state.replayFrames frames = (.ok (), state'))
    {audit : AuditSequence}
    (haudit : audit ∈ (frames.map JournalFrame.record).filterMap nextAudit?) :
    audit ≤ state'.recoveredAudit := by
  obtain ⟨_, hmem, haudit⟩ := List.mem_filterMap.mp haudit
  obtain ⟨frame, hframe, rfl⟩ := List.mem_map.mp hmem
  have hle := (le_of_replayFrames (·.recoveredAudit) (fun record => (nextAudit? record).getD 0)
    (fun _ => rfl) (fun state sequence record state' heffect => ?_) h).2 frame hframe
  · rwa [haudit] at hle
  · cases heffect with
    | unprepared | commit | refused => exact ⟨Nat.le_max_left _ _, Nat.zero_le _⟩
    | revocation | auditMark => exact ⟨Nat.le_max_left _ _, Nat.le_max_right _ _⟩
    | _ => exact ⟨Nat.le_refl _, Nat.zero_le _⟩

/-! ### Epochs -/

/-- The epoch of a boot record. -/
def bootEpochOf : JournalRecord → Nat
  | .bootEpoch record => record.epoch.toNat
  | _ => 0

theorem bootEpoch_le_of_replayFrames {state state' : ReplayState}
    (h : state.replayFrames frames = (.ok (), state')) (hframe : frame ∈ frames) :
    bootEpochOf frame.record ≤ state'.recoveredEpoch.toNat := by
  refine (le_of_replayFrames (·.recoveredEpoch.toNat) bootEpochOf (fun _ => rfl) ?_ h).2 _ hframe
  intro state sequence record state' heffect
  cases heffect with
  | boot record =>
    simp only [toNat_max, bootEpochOf]
    omega
  | _ => exact ⟨Nat.le_refl _, Nat.zero_le _⟩

end ReplayState

theorem EngineCore.lt_nextEpoch {recovered epoch : FabricEpoch}
    (h : EngineCore.nextEpoch config recovered = .ok epoch) : recovered < epoch := by
  simp only [EngineCore.nextEpoch, check_bind_eq_ok_iff] at h
  replace h := h.2
  split at h
  · simp only [check_bind_eq_ok_iff, rejectIf_eq_ok_iff, pure, Except.pure, Except.ok.injEq] at h
    obtain ⟨hne, rfl⟩ := h
    exact lt_add_one_of_ne_zero hne
  · rename_i hzero
    have hrecovered : recovered = 0 := by simpa using hzero
    subst hrecovered
    split at h
    · rename_i hconfig
      obtain rfl := Except.ok.inj h
      exact UInt64.pos_iff_ne_zero.mpr hconfig
    · obtain rfl := Except.ok.inj h
      decide

end AdmissionFabric
