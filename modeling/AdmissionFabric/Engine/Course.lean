import AdmissionFabric.Engine.RestoredState

/-!
# The course of the decisions

What one operation does to the decisions, whatever its writes do: the records that it leaves are
marked copies of records that were there, or belong to decisions that it issued under the current
epoch; what is held was held before and keeps its record, or was issued. Invariants of records and
holdings follow from this alone. None of them needs the audit order.
-/

namespace AdmissionFabric

open AdmittedLoadLedger Authority DecisionHistory

namespace EngineCore

variable (config : EngineConfig) {grant : Grant} {claim : ClaimContext}
    {ledger : AdmittedLoadLedger} {request : AdmissionRequest}

/-- A marked copy of a record that does not newly say that the grant expired. -/
def MarkedCopy (record record' : DecisionRecord) : Prop :=
  SameDecision record record' ∧ (record'.state = .expired → record.state = .expired)

/-- The record of a decision issued between two states. -/
structure Issues (core core' : EngineCore) (d : AdmissionDecisionId) (record : DecisionRecord) :
    Prop where
  fresh : core.nextDecisionSequence ≤ d
  counted : d < core'.nextDecisionSequence
  decision_eq : record.decision = d
  epoch_eq : record.epoch = core.epoch
  not_expired : record.state ≠ .expired
  catalogs : record.outcome.isAdmitting = true →
    core.qos.isSome = true ∧ core.priorities.isSome = true

/-- What happens to decisions between two states. -/
structure Course (core core' : EngineCore) : Prop where
  next_pos : 0 < core.nextDecisionSequence
  next_le : core.nextDecisionSequence ≤ core'.nextDecisionSequence
  epoch_le : core.epoch ≤ core'.epoch
  recorded : ∀ d record', core'.history.find d = some record' →
    (∃ record, core.history.find d = some record ∧ MarkedCopy record record') ∨
      core.Issues core' d record'
  held : ∀ d, core'.ledger.holds d = true →
    (core.ledger.holds d = true ∧ ∀ record, d < core.nextDecisionSequence →
      core.history.find d = some record → record.InForce →
        ∃ record', core'.history.find d = some record' ∧ record'.InForce) ∨
      ∃ record', core'.history.find d = some record' ∧ record'.InForce ∧
        core.Issues core' d record'

variable {core core₁ core' : EngineCore} {record record' : DecisionRecord}

theorem MarkedCopy.refl (record : DecisionRecord) : MarkedCopy record record := ⟨rfl, id⟩

theorem MarkedCopy.trans {record'' : DecisionRecord} (h : MarkedCopy record record')
    (h' : MarkedCopy record' record'') : MarkedCopy record record'' :=
  ⟨by rw [SameDecision, h'.1, h.1], h.2 ∘ h'.2⟩

theorem MarkedCopy.decision_eq (h : MarkedCopy record record') :
    record'.decision = record.decision := by
  rw [h.1]

theorem MarkedCopy.epoch_eq (h : MarkedCopy record record') : record'.epoch = record.epoch := by
  rw [h.1]

theorem MarkedCopy.outcome_eq (h : MarkedCopy record record') :
    record'.outcome = record.outcome := by
  rw [h.1]

theorem Issues.copy {d : AdmissionDecisionId} (h : core.Issues core₁ d record)
    (hcopy : MarkedCopy record record')
    (hnext : core'.nextDecisionSequence = core₁.nextDecisionSequence) :
    core.Issues core' d record' where
  fresh := h.fresh
  counted := hnext ▸ h.counted
  decision_eq := hcopy.decision_eq.trans h.decision_eq
  epoch_eq := hcopy.epoch_eq.trans h.epoch_eq
  not_expired := h.not_expired ∘ hcopy.2
  catalogs := hcopy.outcome_eq ▸ h.catalogs

/-! ### Housekeeping -/

theorem Course.keep (h : core.Course core₁)
    (hnext : core'.nextDecisionSequence = core₁.nextDecisionSequence)
    (hepoch : core₁.epoch ≤ core'.epoch)
    (hrecorded : ∀ d record', core'.history.find d = some record' →
      ∃ record, core₁.history.find d = some record ∧ MarkedCopy record record')
    (hheld : ∀ d, core'.ledger.holds d = true → core₁.ledger.holds d = true ∧
      ∀ record, core₁.history.find d = some record → record.InForce →
        ∃ record', core'.history.find d = some record' ∧ record'.InForce ∧
          MarkedCopy record record') :
    core.Course core' where
  next_pos := h.next_pos
  next_le := hnext ▸ h.next_le
  epoch_le := UInt64.le_trans h.epoch_le hepoch
  recorded d record' hfind := by
    obtain ⟨record₁, hfind₁, hcopy⟩ := hrecorded d record' hfind
    rcases h.recorded d record₁ hfind₁ with ⟨record, hrecord, hold⟩ | hissues
    · exact Or.inl ⟨record, hrecord, hold.trans hcopy⟩
    · exact Or.inr (hissues.copy hcopy hnext)
  held d hholds := by
    obtain ⟨hholds₁, hforce⟩ := hheld d hholds
    rcases h.held d hholds₁ with ⟨hold, hkept⟩ | ⟨record₁, hfind₁, hforce₁, hissues⟩
    · refine Or.inl ⟨hold, fun record hlt hfind hin => ?_⟩
      obtain ⟨record₁, hfind₁, hforce₁⟩ := hkept record hlt hfind hin
      obtain ⟨record', hfind', hforce', -⟩ := hforce record₁ hfind₁ hforce₁
      exact ⟨record', hfind', hforce'⟩
    · obtain ⟨record', hfind', hforce', hcopy⟩ := hforce record₁ hfind₁ hforce₁
      exact Or.inr ⟨record', hfind', hforce', hissues.copy hcopy hnext⟩

theorem Course.shrink (h : core.Course core₁)
    (hnext : core'.nextDecisionSequence = core₁.nextDecisionSequence)
    (hepoch : core₁.epoch ≤ core'.epoch) (hhistory : core'.history = core₁.history)
    (hheld : ∀ d, core'.ledger.holds d = true → core₁.ledger.holds d = true) :
    core.Course core' :=
  h.keep hnext hepoch (fun _ record' hfind => ⟨record', hhistory ▸ hfind, .refl record'⟩)
    fun d hholds => ⟨hheld d hholds, fun record hfind hforce =>
      ⟨record, hhistory ▸ hfind, hforce, .refl record⟩⟩

theorem Course.refl (h : 0 < core.nextDecisionSequence) : core.Course core where
  next_pos := h
  next_le := Nat.le_refl _
  epoch_le := UInt64.le_refl _
  recorded _ record' hfind := Or.inl ⟨record', hfind, .refl record'⟩
  held _ hholds := Or.inl ⟨hholds, fun record _ hfind hforce => ⟨record, hfind, hforce⟩⟩

theorem Course.of_stores (h : core.Course core₁) (hstores : core'.stores = core₁.stores)
    (hepoch : core'.epoch = core₁.epoch) : core.Course core' :=
  h.shrink (congrArg Stores.nextDecisionSequence hstores) (hepoch ▸ UInt64.le_refl _)
    (congrArg Stores.history hstores) fun d hholds =>
      (congrArg (fun stores => stores.ledger.holds d) hstores).symm.trans hholds

theorem Course.release (h : core.Course core₁) (d : AdmissionDecisionId)
    (reason : RevocationReason) (explanation : Explanation) :
    core.Course (core₁.releaseDecisionLocked d reason .revoked explanation).2 := by
  generalize hcall : core₁.releaseDecisionLocked d reason .revoked explanation = outcome
  cases releaseDecisionLocked_effect hcall with
  | unheld _ => exact h
  | unwritten _ _ | stuck _ _ _ =>
    exact h.shrink rfl (UInt64.le_refl _) rfl fun _ hholds => hholds
  | unmarked _ _ hrelease _ =>
    exact h.shrink rfl (UInt64.le_refl _) rfl fun _ hholds =>
      holds_of_release hrelease hholds
  | @released _ _ _ ledger _ _ hrelease _ =>
    have hfind : ∀ d', (core₁.history.modify d fun record =>
        { record with state := .revoked, reason, ledgerLive := false }).find d' =
        if d = d' then (core₁.history.find d).map fun record =>
          { record with state := .revoked, reason, ledgerLive := false }
        else core₁.history.find d' := fun d' => find_modify _ d _ d'
    refine h.keep rfl (UInt64.le_refl _) (fun d' record' hfound => ?_) fun d' hholds =>
      ⟨holds_of_release hrelease hholds, fun record hold hforce => ?_⟩
    · replace hfound := (hfind d').symm.trans hfound
      split at hfound
      · rename_i heq
        obtain ⟨record, hrecord, rfl⟩ := Option.map_eq_some_iff.mp hfound
        exact ⟨record, heq ▸ hrecord, rfl, by rintro ⟨⟩⟩
      · exact ⟨record', hfound, .refl record'⟩
    · -- what is still held is not what was released
      have hne : d ≠ d' := by
        rintro rfl
        obtain ⟨-, -, -, rfl⟩ := release_eq_ok_iff.mp hrelease
        change (core₁.ledger.without d _).holds d = true at hholds
        rw [AdmittedLoadLedger.holds, getElem?_byDecision_without,
          if_pos rfl] at hholds
        cases hholds
      exact ⟨record, (hfind d').trans ((if_neg hne).trans hold), hforce, .refl record⟩

theorem Course.mark (h : core.Course core₁) (d : AdmissionDecisionId)
    {f : DecisionRecord → DecisionRecord} (hf : ∀ record, SameDecision record (f record))
    (htruthful : core₁.Truthful d f) :
    core.Course { core₁ with history := core₁.history.modify d f } := by
  have hcopy : ∀ record, MarkedCopy record { f record with audit := record.audit } :=
    fun record => ⟨by rw [SameDecision, hf record], fun hexpired =>
      absurd hexpired (htruthful.not_expired record)⟩
  refine h.keep rfl (UInt64.le_refl _) (fun d' record' hfind => ?_) fun d' hholds =>
    ⟨hholds, fun record hfind hforce => ?_⟩
  · rw [find_modify] at hfind
    split at hfind
    · rename_i heq
      obtain ⟨record, hrecord, rfl⟩ := Option.map_eq_some_iff.mp hfind
      exact ⟨record, heq ▸ hrecord, hcopy record⟩
    · exact ⟨record', hfind, .refl record'⟩
  · change ∃ record', (core₁.history.modify d f).find d' = some record' ∧ _
    rw [find_modify]
    by_cases hd : d = d'
    · subst hd
      refine ⟨_, (if_pos rfl).trans (congrArg _ hfind), ⟨?_, ?_, ?_⟩, hcopy record⟩
      · exact (hcopy record).outcome_eq ▸ hforce.1
      · exact htruthful.not_revoked hholds record
      · exact htruthful.not_expired record
    · exact ⟨record, (if_neg hd).trans hfind, hforce, .refl record⟩

theorem housekeeping_course (core : EngineCore) :
    Housekeeping (fun _ => True) core.Course where
  release _ d reason explanation _ h := h.release d reason explanation
  mark _ d _ hf htruthful h := h.mark d hf htruthful
  note _ _ _ h := h.shrink rfl (UInt64.le_refl _) rfl fun _ hholds => hholds
  clearFlags core₁ h := h.shrink rfl (UInt64.le_refl _) rfl fun d hholds =>
    (holds_setFlags core₁.ledger false d).symm.trans hholds
  steady _ _ hstores hannounced h := h.of_stores hstores (congrArg Announced.epoch hannounced)

/-! ### Admissions -/

theorem course_settle (hpos : 0 < core.nextDecisionSequence) (journal : Option Journal)
    (decision : AdmissionDecision) (record : DecisionRecord) (attempt : Option AttemptRecord)
    (hid : record.decision = core.nextDecisionSequence) (hepoch : record.epoch = core.epoch)
    (hstate : record.state ≠ .expired) (hcatalogs : record.outcome.isAdmitting = true →
      core.qos.isSome = true ∧ core.priorities.isSome = true)
    (hholds : ∀ d, ledger.holds d = true → core.ledger.holds d = true ∨
      d = core.nextDecisionSequence ∧ record.InForce) :
    core.Course (settle { core.consumeIdentity with journal, ledger } decision record attempt) := by
  have hissues : core.Issues
      (settle { core.consumeIdentity with journal, ledger } decision record attempt)
      core.nextDecisionSequence record :=
    ⟨Nat.le_refl _, Nat.lt_succ_self _, hid, hepoch, hstate, hcatalogs⟩
  have hne : record.decision ≠ 0 := hid ▸ Nat.ne_of_gt hpos
  have hkept : ∀ d, ledger.holds d = true →
      (settle { core.consumeIdentity with journal, ledger } decision record attempt).history.find d
        = if core.nextDecisionSequence = d then some record else core.history.find d :=
    fun d hheld => hid ▸ find_settle_of_holds { core.consumeIdentity with journal, ledger }
      decision record attempt hne hheld
  refine ⟨hpos, Nat.le_succ _, UInt64.le_refl _, fun d record' hfind => ?_, fun d hheld => ?_⟩
  · have hret := trimHistory_retires (core.history.insert record) ledger
    rcases find_of_find_insert (hret.find_of_find d record' hfind)
      with ⟨rfl, rfl⟩ | hold
    · exact Or.inr (hid ▸ hissues)
    · exact Or.inl ⟨record', hold, .refl record'⟩
  · rcases hholds d hheld with hold | ⟨rfl, hforce⟩
    · refine Or.inl ⟨hold, fun old hlt hfind hforce => ⟨old, ?_, hforce⟩⟩
      exact (hkept d hheld).trans ((if_neg (Nat.ne_of_gt hlt)).trans hfind)
    · exact Or.inr ⟨record, (hkept _ hheld).trans (if_pos rfl), hforce, hissues⟩

theorem course_consume (hpos : 0 < core.nextDecisionSequence) (journal : Option Journal)
    (hheld : ∀ d, ledger.holds d = true → core.ledger.holds d = true) :
    core.Course { core.consumeIdentity with journal, ledger } where
  next_pos := hpos
  next_le := Nat.le_succ _
  epoch_le := UInt64.le_refl _
  recorded _ record' hfind := Or.inl ⟨record', hfind, .refl record'⟩
  held d hholds := Or.inl ⟨hheld d hholds, fun record _ hfind hforce => ⟨record, hfind, hforce⟩⟩

theorem course_refuse (hpos : 0 < core.nextDecisionSequence) {reason : Refusal}
    (hrefuses : reason.Refuses) (evidence : Option Evidence) (recordAttempt : Bool) :
    core.Course (core.refuse request claim reason evidence recordAttempt).2 := by
  rw [refuse, answer_snd]
  have hdecision := core.decision_refusal request claim reason evidence
  have houtcome := core.outcome_refusal request claim reason evidence
  have hepoch : (core.refusal request claim reason evidence).epoch = core.epoch := by
    cases evidence <;> rfl
  generalize core.refusal request claim reason evidence = decision at hdecision houtcome hepoch ⊢
  generalize hcall : core.consumeIdentity.finishRefusal _ _ _ = outcome
  cases finishRefusal_effect hcall with
  | unwritten _ => exact course_consume hpos _ fun _ hholds => hholds
  | settled _ =>
    refine course_settle hpos _ _ _ _ hdecision hepoch (by rintro ⟨⟩) (fun hadmitting => ?_)
      fun _ hholds => Or.inl hholds
    change decision.outcome.isAdmitting = true at hadmitting
    rw [houtcome, hrefuses] at hadmitting
    cases hadmitting

theorem catalogs_of_evaluate (h : core.toAuthority.evaluate core.ledger request = .ok grant) :
    core.qos.isSome = true ∧ core.priorities.isSome = true := by
  obtain ⟨_, _, _, hresolve, -⟩ := evaluate_eq_ok h
  have hready := (resolve_eq_ok_iff.mp hresolve).1
  unfold Authority.checkReadiness at hready
  cases hstate : core.readiness <;> simp only [hstate, reduceCtorEq] at hready
  simp only [Option.isSome_iff_ne_none]
  unfold Authority.readiness at hstate
  grind

theorem course_grant (hpos : 0 < core.nextDecisionSequence)
    (hverdict : core.verdict request claim = .grant grant) :
    core.Course (core.consumeIdentity.finishAdmission (core.admission request claim grant) request
      (amountsOf grant)).2 := by
  have heval := (verdict_eq_grant hverdict).2.2.2
  have hnodup := nodup_amountsOf heval
  generalize hcall : core.consumeIdentity.finishAdmission _ _ _ = outcome
  cases finishAdmission_effect hcall with
  | unprepared _ => exact course_consume hpos _ fun _ hholds => hholds
  | unreserved _ hreserve =>
    refine course_consume hpos _ fun d hholds => ?_
    rwa [AdmittedLoadLedger.holds, (reserve_of_error hnodup hreserve).1]
      at hholds
  | uncommitted _ hreserve _ =>
    obtain ⟨es, released, hrelease, hby, -⟩ :=
      release_of_reserve hnodup hreserve
    simp only [hrelease]
    refine course_consume hpos _ fun d hholds => ?_
    rwa [AdmittedLoadLedger.holds, hby] at hholds
  | @committed _ journal' _ _ hreserve _ =>
    rw [compactIfNeededLocked_snd]
    have hsettled := course_settle hpos journal' (core.admission request claim grant)
      (core.consumeIdentity.liveRecord (core.admission request claim grant))
      (some (core.consumeIdentity.attemptOf request (core.admission request claim grant)))
      rfl rfl (by rintro ⟨⟩) (fun _ => catalogs_of_evaluate heval) fun d hholds =>
        (holds_of_reserve hreserve hholds).imp_right fun heq =>
          ⟨heq, isAdmitting_of_evaluate heval, by rintro ⟨⟩, by rintro ⟨⟩⟩
    exact hsettled.shrink rfl (UInt64.le_refl _) rfl fun _ hholds => hholds

theorem course_admitLocked (hpos : 0 < core.nextDecisionSequence) (request : AdmissionRequest)
    (claim : ClaimContext) : core.Course (core.admitLocked request claim).2 := by
  unfold admitLocked
  cases hverdict : core.verdict request claim with
  | refuse reason evidence recordAttempt =>
    exact course_refuse hpos (refuses_of_verdict.1 _ _ _ hverdict) evidence recordAttempt
  | retired reason =>
    have hpos' : 0 < core.countReplay.nextDecisionSequence := hpos
    have hcourse : core.countReplay.Course
        (core.countReplay.refuse request claim reason none false).2 :=
      course_refuse hpos' (refuses_of_verdict.2 _ hverdict) none false
    exact ⟨hpos, hcourse.next_le, hcourse.epoch_le, fun d record' hfind =>
      (hcourse.recorded d record' hfind).imp_right fun h =>
        ⟨h.fresh, h.counted, h.decision_eq, h.epoch_eq, h.not_expired, h.catalogs⟩, fun d hholds =>
      (hcourse.held d hholds).imp_right fun ⟨record', hfind, hforce, h⟩ =>
        ⟨record', hfind, hforce, h.fresh, h.counted, h.decision_eq, h.epoch_eq, h.not_expired,
          h.catalogs⟩⟩
  | replay decision => exact (Course.refl hpos).of_stores rfl rfl
  | grant grant =>
    rw [answer_snd]
    exact course_grant hpos hverdict

/-! ### Operations -/

theorem Course.compact (h : core.Course core₁) : core.Course core₁.compactLocked.2 := by
  rw [compactLocked_snd]
  exact h.shrink rfl (UInt64.le_refl _) rfl fun _ hholds => hholds

theorem course_beginNewIncarnation (hpos : 0 < core.nextDecisionSequence)
    (incarnation : CoordinatorIncarnation) :
    core.Course (core.beginNewIncarnation incarnation).2 := by
  unfold beginNewIncarnation
  split
  · exact Course.refl hpos
  · rename_i hepoch
    exact (Course.refl hpos).shrink rfl (UInt64.le_of_lt (lt_add_one_of_ne_zero hepoch)) rfl
      fun _ hholds => hholds

theorem course_perform (hpos : 0 < core.nextDecisionSequence) (operation : Operation) :
    core.Course (core.perform operation).2 := by
  by_cases hop : ∃ incarnation, operation = .beginNewIncarnation incarnation
  · obtain ⟨incarnation, rfl⟩ := hop
    exact course_beginNewIncarnation hpos incarnation
  · exact (housekeeping_course core).perform_of_incarnation
      (fun _ _ hstores hepoch _ h => h.of_stores hstores hepoch) (Course.refl hpos)
      (fun _ _ => trivial) (fun request claim _ => course_admitLocked hpos request claim)
      (fun _ => (Course.refl hpos).compact) fun incarnation heq => hop ⟨incarnation, heq⟩

/-! ### Files -/

/-- Every retained record is of an issued decision, and every holding has a record in force. -/
structure Filed (core : EngineCore) : Prop where
  next_pos : 0 < core.nextDecisionSequence
  keyed : ∀ d record, core.history.find d = some record → record.decision = d
  below : ∀ d record, core.history.find d = some record → d < core.nextDecisionSequence
  held : ∀ d, core.ledger.holds d = true →
    ∃ record, core.history.find d = some record ∧ record.InForce

theorem Filed.course (h : core.Filed) (hcourse : core.Course core') : core'.Filed where
  next_pos := Nat.lt_of_lt_of_le h.next_pos hcourse.next_le
  keyed d record' hfind := by
    rcases hcourse.recorded d record' hfind with ⟨record, hold, hcopy⟩ | hissues
    · exact hcopy.decision_eq.trans (h.keyed d record hold)
    · exact hissues.decision_eq
  below d record' hfind := by
    rcases hcourse.recorded d record' hfind with ⟨record, hold, -⟩ | hissues
    · exact Nat.lt_of_lt_of_le (h.below d record hold) hcourse.next_le
    · exact hissues.counted
  held d hholds := by
    rcases hcourse.held d hholds with ⟨hold, hkept⟩ | ⟨record', hfind, hforce, -⟩
    · obtain ⟨record, hfind, hforce⟩ := h.held d hold
      exact hkept record (h.below d record hfind) hfind hforce
    · exact ⟨record', hfind, hforce⟩

theorem Filed.of_stores (h : core.Filed) (hstores : core'.stores = core.stores) : core'.Filed := by
  have hnext : core'.nextDecisionSequence = core.nextDecisionSequence :=
    congrArg Stores.nextDecisionSequence hstores
  have hhistory : core'.history = core.history := congrArg Stores.history hstores
  have hledger : core'.ledger = core.ledger := congrArg Stores.ledger hstores
  exact ⟨hnext ▸ h.next_pos, hhistory ▸ h.keyed, hhistory ▸ hnext ▸ h.below,
    hhistory ▸ hledger ▸ h.held⟩

theorem housekeeping_filed : Housekeeping (fun _ => True) Filed where
  release _ d reason explanation _ h :=
    h.course ((Course.refl h.next_pos).release d reason explanation)
  mark _ d _ hf htruthful h := h.course ((Course.refl h.next_pos).mark d hf htruthful)
  note core record hnote h :=
    h.course ((housekeeping_course core).note core record hnote (Course.refl h.next_pos))
  clearFlags core h :=
    h.course ((housekeeping_course core).clearFlags core (Course.refl h.next_pos))
  steady _ _ hstores _ h := h.of_stores hstores

theorem filed_fresh : (EngineCore.fresh config).Filed where
  next_pos := Nat.one_pos
  keyed _ _ hfind := by simp [fresh, DecisionHistory.find] at hfind
  below _ _ hfind := by simp [fresh, DecisionHistory.find] at hfind
  held _ hholds := by simp [fresh, AdmittedLoadLedger.holds] at hholds

theorem filed_boot_new (options : JournalOptions) (disk : List DiskOutcome) :
    (boot config { options, disk }).2.Filed := by
  obtain ⟨hconsistent, -, hnone⟩ := Consistent.boot_new config options disk
  have hfind := find_boot_new config options disk
  exact ⟨hconsistent.next_pos, fun d record h => by simp [hfind] at h,
    fun d record h => by simp [hfind] at h,
    fun d hholds => by simp [AdmittedLoadLedger.holds, hnone] at hholds⟩

theorem filed_boot {config : EngineConfig} {journal : Journal}
    (hstatus : (boot config journal).1.status = none) : (boot config journal).2.Filed := by
  obtain ⟨opened, state, ledger, epoch, journal', -, hreplay, hrestore, -, -, heq⟩ :=
    boot_eq_recoveredCore hstatus
  have hsourced := ReplayState.sourced_of_replayFrames hreplay
  have hret := trimHistory_retires state.history ledger
  rw [heq]
  refine ⟨Nat.succ_pos _, fun d record hfind =>
    (hsourced.recorded d record (hret.find_of_find d record hfind)).1, fun d record hfind => ?_,
    fun d hholds => ?_⟩
  · obtain ⟨rfl, original, hmem, hrestores⟩ :=
      hsourced.recorded d record (hret.find_of_find d record hfind)
    rw [hrestores.decision]
    exact Nat.lt_succ_of_le (ReplayState.decision_le_of_replayFrames hreplay hmem)
  · change (ledger.setFlags true).holds d = true at hholds
    rw [holds_setFlags] at hholds
    change ∃ record, (trimHistory state.history ledger).find d = some record ∧ _
    rw [hret.find_of_holds d hholds]
    rcases holds_of_restoreLedger hrestore hholds with hempty | ⟨prepare, hprepare, rfl⟩
    · simp [AdmittedLoadLedger.holds] at hempty
    · exact ((ReplayState.mem_livePrepares_iff hsourced).mp hprepare).2.2

end EngineCore

end AdmissionFabric
