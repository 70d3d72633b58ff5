import AdmissionFabric.Engine.JournalOrder
import AdmissionFabric.Engine.Stamps
import AdmissionFabric.Guarantees.FailedReleases

/-!
# What the live flag of a record says

A record says whether the ledger holds the load of its decision. Grants set the flag, releases
clear it, and within one process the flag is right as long as no write fails.

A recovery sets the flags from the frames, one by one, and rebuilds the ledger from all of them.
A revocation frame clears the flag even if it only invalidates the grant, whose load is restored;
and the load of a grant with a release frame is not restored even if the crash took away the
revocation frame that would have cleared the flag.
-/

namespace AdmissionFabric

open TransitionSystem AdmittedLoadLedger DecisionHistory

variable {frame : JournalRecord} {config : EngineConfig}

/-- The record of a revocation frame names the decision that is marked. -/
def JournalRecord.revoked? : JournalRecord → Option AdmissionDecisionId
  | .revocation record => some record.decision
  | _ => none

/-- The decisions with a revocation frame. -/
def revokedIn (records : List JournalRecord) : List AdmissionDecisionId :=
  records.filterMap JournalRecord.revoked?

/-- Release frames and revocation frames are of the same decisions, which have decision frames. -/
def Settled (records : List JournalRecord) : Prop :=
  (∀ d ∈ releasedIn records, d ∈ revokedIn records) ∧
    ∀ d ∈ revokedIn records, d ∈ releasedIn records ∧ d ∈ decidedIn records

/-- A commit after a revocation of the same decision, or a refusal after its commit. -/
def Clashes (earlier later : JournalRecord) : Prop :=
  (∃ revocation record, earlier = .revocation revocation ∧ later = .admissionCommit record ∧
      revocation.decision = record.decision) ∨
    ∃ record record', earlier = .admissionCommit record ∧ later = .admissionRefused record' ∧
      record.decision = record'.decision

theorem mem_revokedIn_iff {records : List JournalRecord} {d : AdmissionDecisionId} :
    d ∈ revokedIn records ↔ ∃ revocation, .revocation revocation ∈ records ∧
      revocation.decision = d := by
  rw [revokedIn, List.mem_filterMap]
  constructor
  · rintro ⟨record, hmem, hd⟩
    cases record <;> simp only [JournalRecord.revoked?, reduceCtorEq, Option.some.injEq] at hd
    exact ⟨_, hmem, hd⟩
  · rintro ⟨revocation, hmem, rfl⟩
    exact ⟨_, hmem, rfl⟩

theorem revokedIn_concat (records : List JournalRecord) (record : JournalRecord) :
    revokedIn (records ++ [record]) = revokedIn records ++ record.revoked?.toList := by
  cases record <;> simp [revokedIn, JournalRecord.revoked?]

/-! ### Recovery -/

namespace ReplayState

variable {state state' : ReplayState} {done : List JournalRecord}

/-- A flag is set for an admission in force with a commit and without a revocation frame. -/
structure Flagged (done : List JournalRecord) (state : ReplayState) : Prop where
  set : ∀ d record, state.history.find d = some record → record.ledgerLive = true →
    record.outcome.isAdmitting = true ∧ record.state ≠ .revoked ∧
      (∃ prepare, state.committedPrepares[d]? = some prepare) ∧ d ∉ revokedIn done
  unset : ∀ d record prepare, state.history.find d = some record → record.ledgerLive = false →
    state.committedPrepares[d]? = some prepare → d ∉ revokedIn done → ¬ record.InForce

theorem Flagged.other (h : state.Flagged done) (hrevoked : frame.revoked? = none)
    (hhistory : state'.history = state.history)
    (hcommitted : state'.committedPrepares = state.committedPrepares) :
    state'.Flagged (done ++ [frame]) := by
  have hsame : revokedIn (done ++ [frame]) = revokedIn done := by
    rw [revokedIn_concat, hrevoked]
    exact List.append_nil _
  exact ⟨by rw [hhistory, hcommitted, hsame]; exact h.set,
    by rw [hhistory, hcommitted, hsame]; exact h.unset⟩

theorem Flagged.decision (h : state.Flagged done) (restored : DecisionRecord)
    (hrevoked : frame.revoked? = none) (hne : restored.decision ≠ 0)
    (hhistory : state'.history = state.history.insert restored)
    (hcommitted : ∀ d, restored.decision ≠ d →
      state'.committedPrepares[d]? = state.committedPrepares[d]?)
    (hset : restored.ledgerLive = true → restored.outcome.isAdmitting = true ∧
      restored.state ≠ .revoked ∧
      (∃ prepare, state'.committedPrepares[restored.decision]? = some prepare) ∧
      restored.decision ∉ revokedIn done) (hunset : ∀ prepare, restored.ledgerLive = false →
      state'.committedPrepares[restored.decision]? = some prepare → ¬ restored.InForce) :
    state'.Flagged (done ++ [frame]) := by
  have hsame : revokedIn (done ++ [frame]) = revokedIn done := by
    rw [revokedIn_concat, hrevoked]
    exact List.append_nil _
  have hfind : ∀ d, state'.history.find d =
      if restored.decision = d then some restored else state.history.find d := by
    rw [hhistory]
    exact find_insert hne
  refine ⟨fun d record hrecord hlive => ?_, fun d record prepare hrecord hlive hget hfree => ?_⟩
  · rw [hsame]
    rw [hfind] at hrecord
    split at hrecord
    · rename_i heq
      obtain rfl := Option.some.inj hrecord
      exact heq ▸ hset hlive
    · rename_i hother
      rw [hcommitted d hother]
      exact h.set d record hrecord hlive
  · rw [hsame] at hfree
    rw [hfind] at hrecord
    split at hrecord
    · rename_i heq
      obtain rfl := Option.some.inj hrecord
      exact hunset prepare hlive (heq ▸ hget)
    · rename_i hother
      rw [hcommitted d hother] at hget
      exact h.unset d record prepare hrecord hlive hget hfree

theorem Flagged.effect (h : state.Flagged done) (hsourced : state.Sourced done) {sequence : Nat}
    (heffect : Effect state sequence frame state')
    (hclash : ∀ earlier ∈ done, ¬ Clashes earlier frame)
    (hne : ∀ original, frame.decision? = some original → original.decision ≠ 0) :
    state'.Flagged (done ++ [frame]) := by
  cases heffect with
  | boot | policy | prepare | release | auditMark => exact h.other rfl rfl rfl
  | unprepared record _ hrefuses =>
    have hdead : (restoredCommit record).ledgerLive = false := by
      simp [restoredCommit, hrefuses]
    refine h.decision (restoredCommit record) rfl (hne record rfl) rfl (fun _ _ => rfl)
      (fun hlive => ?_) fun _ _ _ hforce => ?_
    · rw [hdead] at hlive
      cases hlive
    · exact absurd hforce.1 (by simp [restoredCommit, hrefuses])
  | @commit record prepared hpending =>
    refine h.decision (restoredCommit record) rfl (hne record rfl) rfl (fun d hd => ?_)
      (fun hlive => ?_) fun _ hlive _ hforce => ?_
    · have hother : record.decision ≠ d := hd
      exact Std.ExtTreeMap.getElem?_insert.trans (if_neg (by simpa using hother))
    · have hflag := of_decide_eq_true hlive
      refine ⟨hflag.1, hflag.2, ⟨_, Std.ExtTreeMap.getElem?_insert_self⟩, fun hrevoked => ?_⟩
      obtain ⟨revocation, hmem, heq⟩ := mem_revokedIn_iff.mp hrevoked
      exact hclash _ hmem (Or.inl ⟨revocation, record, rfl, rfl, heq⟩)
    · exact of_decide_eq_false hlive ⟨hforce.1, hforce.2.1⟩
  | refused record =>
    refine h.decision { record with restoredFromDisk := true, ledgerLive := false } rfl
      (hne record rfl) rfl (fun _ _ => rfl) (by rintro ⟨⟩) fun prepare _ hget _ => ?_
    obtain ⟨-, -, record', hmem, heq⟩ := hsourced.committed _ prepare hget
    exact hclash _ hmem (Or.inr ⟨record', record, rfl, rfl, heq⟩)
  | revocation record =>
    have hmore : ∀ d, d ∈ revokedIn (done ++ [.revocation record]) ↔
        d ∈ revokedIn done ∨ d = record.decision := by
      intro d
      rw [revokedIn_concat, List.mem_append]
      exact or_congr_right List.mem_singleton
    have hfind : ∀ d, (state.replayRevocation record).history.find d =
        if record.decision = d then (state.history.find d).map fun existing =>
          { existing with state := record.state, reason := record.reason, ledgerLive := false }
        else state.history.find d := by
      intro d
      simp only [replayRevocation]
      cases hexisting : state.history.find record.decision with
      | none =>
        by_cases heq : record.decision = d
        · rw [if_pos heq, ← heq, hexisting]
          rfl
        · rw [if_neg heq]
      | some existing =>
        simp only
        rw [find_update]
        by_cases heq : record.decision = d
        · rw [if_pos heq, if_pos heq, ← heq, hexisting]
          rfl
        · rw [if_neg heq, if_neg heq]
    have hcommitted : (state.replayRevocation record).committedPrepares =
        state.committedPrepares := by
      simp only [replayRevocation]
    refine ⟨fun d found hfound hlive => ?_, fun d found prepare hfound hlive hget hfree => ?_⟩
    · rw [hfind] at hfound
      split at hfound
      · obtain ⟨existing, -, rfl⟩ := Option.map_eq_some_iff.mp hfound
        cases hlive
      · rename_i hother
        obtain ⟨hadmitting, hstate, hprepare, hfree⟩ := h.set d found hfound hlive
        refine ⟨hadmitting, hstate, hcommitted ▸ hprepare, fun hrevoked => ?_⟩
        rcases (hmore d).mp hrevoked with hold | rfl
        · exact hfree hold
        · exact hother rfl
    · rw [hmore, not_or] at hfree
      rw [hfind, if_neg (Ne.symm hfree.2)] at hfound
      exact h.unset d found prepare hfound hlive (hcommitted ▸ hget) hfree.1

theorem flagged_of_replayFrames {frames : List JournalFrame}
    (h : (EngineCore.fresh config).beginReplay.replayFrames frames = (.ok (), state))
    (hordered : (frames.map JournalFrame.record).Pairwise fun earlier later =>
      ¬ Clashes earlier later)
    (hne : ∀ record ∈ decisionsIn (frames.map JournalFrame.record), record.decision ≠ 0) :
    state.Flagged (frames.map JournalFrame.record) := by
  have hboth := replayFrames_induction
    (I := fun done state => state.Sourced done ∧ state.Flagged done)
    (fun _ _ h => ⟨⟨h.1.recorded, h.1.pending, h.1.committed⟩, ⟨h.2.set, h.2.unset⟩⟩)
    (fun done state sequence frame state' hdone heffect h => ?_) h
    ⟨sourced_beginReplay config, ?_⟩
  · exact hboth.2
  · have hpairs := List.pairwise_append.mp (hordered.sublist hdone.sublist)
    refine ⟨h.1.effect heffect, h.2.effect h.1 heffect
      (fun earlier hearlier => hpairs.2.2 earlier hearlier frame (by simp))
      fun original hkind => hne original ?_⟩
    exact List.mem_filterMap.mpr ⟨frame, hdone.subset (by simp), hkind⟩
  · exact ⟨fun d record hfind => by
        simp [EngineCore.beginReplay, EngineCore.fresh, DecisionHistory.find] at hfind,
      fun d record prepare hfind => by
        simp [EngineCore.beginReplay, EngineCore.fresh, DecisionHistory.find] at hfind⟩

end ReplayState

namespace EngineCore

variable {journal : Option Journal} {result : Except Status Unit} {claim : ClaimContext}
    {core core' : EngineCore}

/-- Every retained record says whether its decision is held. -/
def LiveFlags (core : EngineCore) : Prop :=
  ∀ d record, core.history.find d = some record →
    (record.ledgerLive = true ↔ core.ledger.holds d = true)

theorem liveFlags_boot {journal : Journal} {bound : FabricEpoch}
    (hstatus : (boot config journal).1.status = none) (hsettled : Settled journal.records)
    (hordered : journal.records.Pairwise fun earlier later => ¬ Clashes earlier later)
    (hne : ∀ record ∈ decisionsIn journal.records, record.decision ≠ 0)
    (hstamped : ∀ frame ∈ journal.records, StampedFrame bound frame) :
    (boot config journal).2.LiveFlags := by
  obtain ⟨opened, state, ledger, epoch, journal', -, hreplay, hrestore, -, -, heq⟩ :=
    boot_eq_recoveredCore hstatus
  have hsourced := ReplayState.sourced_of_replayFrames hreplay
  have hflagged := ReplayState.flagged_of_replayFrames hreplay hordered hne
  have hreleased : state.released = releasedIn journal.records :=
    ReplayState.released_of_replayFrames hreplay
  have hret := trimHistory_retires state.history ledger
  rw [heq]
  intro d record hfind
  replace hfind := hret.find_of_find d record hfind
  change _ ↔ (ledger.setFlags true).holds d = true
  rw [holds_setFlags, holds_eq_true_iff]
  simp only [getElem?_byDecision_restoreLedger hrestore, Std.ExtTreeMap.getElem?_empty,
    reduceCtorEq, false_or]
  constructor
  · intro hlive
    obtain ⟨hadmitting, hrevoked, ⟨prepare, hget⟩, hfree⟩ := hflagged.set d record hfind hlive
    obtain ⟨rfl, -⟩ := hsourced.committed d prepare hget
    refine ⟨_, prepare, (ReplayState.mem_livePrepares_iff hsourced).mpr ⟨hget, ?_, record, hfind,
      hadmitting, hrevoked, (stamped_of_replayFrames hreplay hstamped hfind).2⟩, rfl, rfl⟩
    rw [hreleased]
    exact fun hmem => hfree (hsettled.1 _ hmem)
  · rintro ⟨_, prepare, hprepare, rfl, -⟩
    obtain ⟨hget, hfree, found, hfound, hforce⟩ :=
      (ReplayState.mem_livePrepares_iff hsourced).mp hprepare
    rw [hfind] at hfound
    obtain rfl := Option.some.inj hfound
    rw [hreleased] at hfree
    by_contra hdead
    exact hflagged.unset _ record prepare hfind (Bool.eq_false_of_not_eq_true hdead) hget
      (fun hrevoked => hfree (hsettled.2 _ hrevoked).1) hforce

/-! ### The journal of a run -/

/-- The decision frames are in order: identities were issued, and commits are not undone. -/
structure Chronicle (core : EngineCore) : Prop where
  known : core.history.find 0 = none
  decided : ∀ record ∈ decisionsIn core.records,
    record.decision ≠ 0 ∧ record.decision < core.nextDecisionSequence
  revoked : ∀ d ∈ revokedIn core.records, d < core.nextDecisionSequence
  ordered : core.records.Pairwise fun earlier later => ¬ Clashes earlier later

namespace Chronicle

variable {record : DecisionRecord}

theorem not_clashes {earlier later : JournalRecord} (h : later.decision? = none) :
    ¬ Clashes earlier later := by
  rintro (⟨_, _, -, rfl, -⟩ | ⟨_, _, -, rfl, -⟩) <;> cases h

theorem mono (h : core.Chronicle) (hknown : core'.history.find 0 = none)
    (hrecords : core'.records = core.records)
    (hnext : core.nextDecisionSequence ≤ core'.nextDecisionSequence) : core'.Chronicle where
  known := hknown
  decided record hrecord := (h.decided record (hrecords ▸ hrecord)).imp_right
    (Nat.lt_of_lt_of_le · hnext)
  revoked d hd := Nat.lt_of_lt_of_le (h.revoked d (hrecords ▸ hd)) hnext
  ordered := hrecords ▸ h.ordered

theorem of_stores (h : core.Chronicle) (hstores : core'.stores = core.stores) :
    core'.Chronicle := by
  have hjournal : core'.journal = core.journal := congrArg Stores.journal hstores
  have hhistory : core'.history = core.history := congrArg Stores.history hstores
  exact h.mono (hhistory ▸ h.known) (by rw [records, records, hjournal])
    (Nat.le_of_eq (congrArg Stores.nextDecisionSequence hstores).symm)

theorem write (h : core.Chronicle)
    (hwrite : writeJournal core.journal core.journalReady frame = (result, journal))
    (hdecided : ∀ record, frame.decision? = some record →
      record.decision ≠ 0 ∧ record.decision < core.nextDecisionSequence)
    (hrevoked : ∀ d, frame.revoked? = some d → d < core.nextDecisionSequence)
    (hclash : ∀ earlier ∈ core.records, ¬ Clashes earlier frame) :
    ({ core with journal } : EngineCore).Chronicle := by
  rcases core.records_write hwrite with hrecords | hrecords
  · exact h.mono h.known hrecords le_rfl
  · refine ⟨h.known, fun record hrecord => ?_, fun d hd => ?_, ?_⟩
    · rw [hrecords, decisionsIn_append] at hrecord
      rcases List.mem_append.mp hrecord with hold | hnew
      · exact h.decided record hold
      · obtain ⟨frame', hmem, hkind⟩ := List.mem_filterMap.mp hnew
        exact hdecided record (List.mem_singleton.mp hmem ▸ hkind)
    · rw [hrecords, revokedIn_concat] at hd
      rcases List.mem_append.mp hd with hold | hnew
      · exact h.revoked d hold
      · exact hrevoked d (Option.mem_toList.mp hnew)
    · rw [hrecords]
      exact List.pairwise_append.mpr ⟨h.ordered, List.pairwise_singleton _ _,
        fun earlier hearlier later hlater => List.mem_singleton.mp hlater ▸ hclash earlier hearlier⟩

theorem writeOther (h : core.Chronicle)
    (hwrite : writeJournal core.journal core.journalReady frame = (result, journal))
    (hdecision : frame.decision? = none)
    (hrevoked : ∀ d, frame.revoked? = some d → d < core.nextDecisionSequence) :
    ({ core with journal } : EngineCore).Chronicle :=
  h.write hwrite (by simp [hdecision]) hrevoked fun _ _ => not_clashes hdecision

theorem writeDecision (h : core.Chronicle) (hpos : 0 < core.nextDecisionSequence)
    (hwrite : writeJournal core.journal core.journalReady frame = (result, journal))
    (hframe : frame.decision? = some record)
    (hdecision : record.decision = core.nextDecisionSequence) :
    ({ core.consumeIdentity with journal } : EngineCore).Chronicle := by
  have hconsumed : core.consumeIdentity.Chronicle := h.mono h.known rfl (Nat.le_succ _)
  refine hconsumed.write hwrite (fun record' hframe' => ?_) (fun d hd => ?_)
    fun earlier hearlier hclash => ?_
  · obtain rfl := Option.some.inj (hframe.symm.trans hframe')
    rw [hdecision]
    exact ⟨Nat.ne_of_gt hpos, Nat.lt_succ_self _⟩
  · cases frame <;> cases hframe <;> cases hd
  · rcases hclash with ⟨revocation, committed, rfl, rfl, heq⟩ | ⟨committed, refused, rfl, rfl, heq⟩
    · obtain rfl := Option.some.inj hframe
      have hlt := h.revoked _ (mem_revokedIn_iff.mpr ⟨revocation, hearlier, rfl⟩)
      exact Nat.ne_of_lt hlt (heq.trans hdecision)
    · obtain rfl := Option.some.inj hframe
      have hlt := (h.decided committed (List.mem_filterMap.mpr ⟨_, hearlier, rfl⟩)).2
      exact Nat.ne_of_lt hlt (heq.trans hdecision)

theorem housekeeping :
    Housekeeping (fun _ => True) fun core => core.Filed ∧ core.Chronicle where
  release core d reason explanation hmay h := by
    refine ⟨housekeeping_filed.release core d reason explanation hmay h.1, ?_⟩
    obtain ⟨hfiled, hchronicle⟩ := h
    have hknown : core.ledger.holds d = true → d < core.nextDecisionSequence := fun hheld => by
      obtain ⟨record, hfind, -⟩ := hfiled.held d hheld
      exact hfiled.below d record hfind
    generalize hcall : core.releaseDecisionLocked d reason .revoked explanation = outcome
    cases releaseDecisionLocked_effect hcall with
    | unheld _ => exact hchronicle
    | unwritten _ hwrite | stuck _ hwrite _ => exact hchronicle.writeOther hwrite rfl nofun
    | @unmarked _ journal _ _ ledger hheld hwrite _ hmark =>
      have hreleased : ({ core with journal, ledger } : EngineCore).Chronicle :=
        (hchronicle.writeOther hwrite rfl nofun).mono hchronicle.known rfl le_rfl
      exact hreleased.writeOther hmark rfl fun d' hd' => Option.some.inj hd' ▸ hknown hheld
    | @released journal _ _ ledger hheld hwrite _ hmark =>
      have hreleased : ({ core with journal, ledger } : EngineCore).Chronicle :=
        (hchronicle.writeOther hwrite rfl nofun).mono hchronicle.known rfl le_rfl
      have hmarked := hreleased.writeOther hmark rfl fun d' hd' =>
        Option.some.inj hd' ▸ hknown hheld
      refine hmarked.mono ?_ rfl le_rfl
      change (core.history.modify d _).find 0 = none
      rw [find_modify]
      split
      · rename_i heq
        rw [heq, hchronicle.known]
        rfl
      · exact hchronicle.known
  mark core d f hf htruthful h := by
    refine ⟨housekeeping_filed.mark core d f hf htruthful h.1, h.2.mono ?_ rfl le_rfl⟩
    rw [find_modify]
    split
    · rename_i heq
      rw [heq, h.2.known]
      rfl
    · exact h.2.known
  note core frame hnote h := by
    refine ⟨housekeeping_filed.note core frame hnote h.1, h.2.writeOther rfl ?_ fun d hd => ?_⟩
    · cases hnote <;> rfl
    · cases hnote with
      | invalidation hfind => exact Option.some.inj hd ▸ h.1.below _ _ hfind
      | _ => cases hd
  clearFlags core h :=
    ⟨housekeeping_filed.clearFlags core h.1, h.2.mono h.2.known rfl le_rfl⟩
  steady _ _ hstores _ h := ⟨h.1.of_stores hstores, h.2.of_stores hstores⟩

theorem commit_of_mem_compactedRecords (h : .admissionCommit record ∈ core.compactedRecords) :
    record ∈ core.history.inAuditOrder ∧
      record.outcome.isAdmitting = true ∧ core.ledger.liveAmounts record.decision ≠ [] := by
  rcases mem_compactedRecords h with h | ⟨_, -, h⟩ | ⟨retained, hretained, hframe⟩ | ⟨_, h⟩
  · cases h
  · cases h
  · rcases mem_compactedFrames hframe with ⟨hlive, hkind | hkind⟩ | ⟨-, hkind⟩
    · cases hkind
    · obtain rfl := JournalRecord.admissionCommit.inj hkind
      exact ⟨hretained, hlive⟩
    · cases hkind
  · cases h

theorem refused_of_mem_compactedRecords (h : .admissionRefused record ∈ core.compactedRecords) :
    record ∈ core.history.inAuditOrder ∧
      ¬ (record.outcome.isAdmitting = true ∧ core.ledger.liveAmounts record.decision ≠ []) := by
  rcases mem_compactedRecords h with h | ⟨_, -, h⟩ | ⟨retained, hretained, hframe⟩ | ⟨_, h⟩
  · cases h
  · cases h
  · rcases mem_compactedFrames hframe with ⟨-, hkind | hkind⟩ | ⟨hdead, hkind⟩
    · cases hkind
    · cases hkind
    · obtain rfl := JournalRecord.admissionRefused.inj hkind
      exact ⟨hretained, hdead⟩
  · cases h

theorem compact (h : core.Chronicle) (hfiled : core.Filed) :
    core.compactLocked.2.Chronicle := by
  have hknown : core.compactLocked.2.history.find 0 = none := by
    rw [compactLocked_snd]
    exact h.known
  have hnext : core.compactLocked.2.nextDecisionSequence = core.nextDecisionSequence := by
    rw [compactLocked_snd]
  rcases core.records_compaction with hsame | hcompacted
  · exact h.mono hknown hsame (Nat.le_of_eq hnext.symm)
  · -- a listed record is found under its own identity
    have hlisted : ∀ record ∈ core.history.inAuditOrder,
        core.history.find record.decision = some record := fun record hrecord => by
      obtain ⟨⟨a, d⟩, -, hfind⟩ := List.mem_filterMap.mp hrecord
      exact hfiled.keyed d record hfind ▸ hfind
    refine ⟨hknown, fun record hrecord => ?_, fun d hd => ?_, ?_⟩
    · rw [hcompacted, decisionsIn_compactedRecords] at hrecord
      have hfind := hlisted record hrecord
      refine ⟨fun hzero => ?_, hnext ▸ hfiled.below _ record hfind⟩
      rw [hzero, h.known] at hfind
      cases hfind
    · obtain ⟨revocation, hmem, -⟩ := mem_revokedIn_iff.mp hd
      exact absurd (hcompacted ▸ hmem) (revocation_notMem_compactedRecords revocation)
    · rw [hcompacted]
      refine List.pairwise_of_forall_mem_list fun earlier hearlier later hlater hclash => ?_
      rcases hclash with ⟨revocation, _, rfl, -⟩ | ⟨record, record', rfl, rfl, heq⟩
      · exact revocation_notMem_compactedRecords revocation hearlier
      · obtain ⟨hrecord, hlive⟩ := commit_of_mem_compactedRecords hearlier
        obtain ⟨hrecord', hdead⟩ := refused_of_mem_compactedRecords hlater
        have hsame := hlisted record hrecord
        rw [heq, hlisted record' hrecord'] at hsame
        exact hdead (Option.some.inj hsame ▸ hlive)

theorem compactIfNeeded (h : core.Chronicle) (hfiled : core.Filed) :
    core.compactIfNeededLocked.2.Chronicle := by
  unfold compactIfNeededLocked
  split
  · exact h
  · split
    · exact h.compact hfiled
    · exact h

theorem known_course (h : core.Chronicle) (hcourse : core.Course core') :
    core'.history.find 0 = none := by
  cases hfind : core'.history.find 0 with
  | none => rfl
  | some record' =>
    rcases hcourse.recorded 0 record' hfind with ⟨record, hold, -⟩ | hissues
    · rw [h.known] at hold
      cases hold
    · exact absurd hissues.fresh (Nat.not_le_of_lt hcourse.next_pos)

theorem refuse (h : core.Chronicle) (hpos : 0 < core.nextDecisionSequence)
    {request : AdmissionRequest} {reason : Refusal} (hrefuses : reason.Refuses)
    (evidence : Option Evidence) (recordAttempt : Bool) :
    (core.refuse request claim reason evidence recordAttempt).2.Chronicle := by
  have hcourse : core.Course (core.refuse request claim reason evidence recordAttempt).2 :=
    course_refuse hpos hrefuses evidence recordAttempt
  have hknown := h.known_course hcourse
  rw [EngineCore.refuse, answer_snd] at hknown ⊢
  have hdecision := core.decision_refusal request claim reason evidence
  generalize core.refusal request claim reason evidence = decision at hdecision hknown ⊢
  generalize hcall : core.consumeIdentity.finishRefusal _ _ _ = outcome at hknown ⊢
  cases finishRefusal_effect hcall with
  | unwritten hwrite => exact h.writeDecision hpos hwrite rfl hdecision
  | settled hwrite =>
    exact (h.writeDecision hpos hwrite rfl hdecision).mono hknown rfl le_rfl

theorem grant (h : core.Chronicle) (hfiled : core.Filed) {request : AdmissionRequest}
    {grant : Grant} (hverdict : core.verdict request claim = .grant grant) :
    (core.consumeIdentity.finishAdmission (core.admission request claim grant) request
      (amountsOf grant)).2.Chronicle := by
  have hpos := hfiled.next_pos
  have hcourse := course_grant hpos hverdict
  have hknown := h.known_course hcourse
  have hsettled := hfiled.course hcourse
  generalize hcall : core.consumeIdentity.finishAdmission _ _ _ = outcome at hknown hsettled ⊢
  have hprepared : ∀ {result : Except Status Unit} {journal : Option Journal},
      writeJournal core.journal core.journalReady (.admissionPrepare
        (core.consumeIdentity.prepareOf (core.admission request claim grant) (amountsOf grant))) =
          (result, journal) → ({ core with journal } : EngineCore).Chronicle :=
    fun hwrite => h.writeOther hwrite rfl nofun
  cases finishAdmission_effect hcall with
  | unprepared hprepare | unreserved hprepare _ =>
    exact (hprepared hprepare).mono h.known rfl (Nat.le_succ _)
  | @uncommitted _ journal _ _ hprepare _ hcommit =>
    have hwritten := (hprepared hprepare).writeDecision hpos hcommit rfl rfl
    exact hwritten.mono h.known rfl le_rfl
  | committed hprepare _ hcommit =>
    have hwritten := (hprepared hprepare).writeDecision hpos hcommit rfl rfl
    rw [compactIfNeededLocked_snd] at hknown hsettled
    refine compactIfNeeded (hwritten.mono hknown rfl le_rfl) ?_
    exact ⟨hsettled.next_pos, hsettled.keyed, hsettled.below, hsettled.held⟩

theorem admitLocked (h : core.Chronicle) (hfiled : core.Filed) (request : AdmissionRequest)
    (claim : ClaimContext) : (core.admitLocked request claim).2.Chronicle := by
  unfold EngineCore.admitLocked
  cases hverdict : core.verdict request claim with
  | refuse reason evidence recordAttempt =>
    exact h.refuse hfiled.next_pos (refuses_of_verdict.1 _ _ _ hverdict) evidence recordAttempt
  | retired reason =>
    have hcounted : core.countReplay.Chronicle := h.of_stores rfl
    exact hcounted.refuse hfiled.next_pos (refuses_of_verdict.2 _ hverdict) none false
  | replay decision => exact h.of_stores rfl
  | grant grant =>
    rw [answer_snd]
    exact h.grant hfiled hverdict

theorem perform (h : core.Chronicle) (hfiled : core.Filed) (operation : Operation) :
    (core.perform operation).2.Chronicle :=
  (housekeeping.perform (fun _ _ hstores h => ⟨h.1.of_stores hstores, h.2.of_stores hstores⟩)
    ⟨hfiled, h⟩ (fun _ _ => trivial)
    (fun request claim _ => ⟨hfiled.course (course_admitLocked hfiled.next_pos request claim),
      h.admitLocked hfiled request claim⟩)
    fun _ => ⟨hfiled.course (Course.compact (.refl hfiled.next_pos)), h.compact hfiled⟩).2

end Chronicle

/-! ### The flags within one process -/

/-- The journal takes a revocation frame, and no write of the call fails on the disk. -/
def Reliable (core : EngineCore) : Prop :=
  ∀ journal, core.journal = some journal →
    26 ≤ journal.options.maxPayload ∧ ∀ n, journal.outcomeOf n = .synced

theorem Reliable.write (h : core.Reliable)
    (hwrite : writeJournal core.journal core.journalReady frame = (result, journal)) :
    ({ core with journal } : EngineCore).Reliable := by
  rintro written rfl
  unfold writeJournal at hwrite
  split at hwrite
  · cases hwrite
  · rename_i attached hjournal
    obtain ⟨hpayload, hsynced⟩ := h attached hjournal
    split at hwrite
    · obtain ⟨-, hwritten⟩ := Prod.mk.inj hwrite
      obtain rfl := Option.some.inj hwritten
      exact ⟨(Journal.options_append attached frame).symm ▸ hpayload,
        Journal.outcomeOf_append hsynced frame⟩
    · obtain ⟨-, hwritten⟩ := Prod.mk.inj hwrite
      exact Option.some.inj hwritten ▸ ⟨hpayload, hsynced⟩

theorem Reliable.not_torn (h : core.Reliable) {d : AdmissionDecisionId}
    {reason : RevocationReason} {state : RevalidationState} {journal' : Option Journal}
    {status : Status} (hwrite : writeJournal core.journal core.journalReady
      (.ledgerRelease (core.releaseOf d reason)) = (.ok (), journal))
    (hmark : writeJournal journal core.journalReady
      (.revocation (core.revocationOf d reason state)) = (.error status, journal')) : False := by
  cases hjournal : core.journal with
  | none =>
    rw [hjournal] at hwrite
    cases hwrite
    cases hmark
  | some attached =>
    obtain ⟨hpayload, hsynced⟩ := h attached hjournal
    rw [hjournal] at hwrite
    obtain ⟨written, rfl, hwritten⟩ := exists_of_writeJournal_ok hwrite
    obtain ⟨hready, hfails⟩ := of_writeJournal_error hmark
    obtain ⟨-, hwritten⟩ := hwritten hready
    refine hfails ⟨accepts_revocationOf_iff.mpr ⟨hwritten.isOpen, ?_⟩, Or.inl ?_⟩
    · rwa [hwritten.options]
    · rw [hwritten.outcomeOf, hsynced]

theorem LiveFlags.sameBooks (h : core.LiveFlags) (hhistory : core'.history = core.history)
    (hholds : ∀ d, core'.ledger.holds d = core.ledger.holds d) : core'.LiveFlags := by
  intro d record hfind
  rw [hholds]
  exact h d record (hhistory ▸ hfind)

theorem LiveFlags.mark (h : core.LiveFlags) (d : AdmissionDecisionId)
    {f : DecisionRecord → DecisionRecord} (htruthful : core.Truthful d f) :
    ({ core with history := core.history.modify d f } : EngineCore).LiveFlags := by
  intro d' record' hfind
  rw [find_modify] at hfind
  split at hfind
  · rename_i heq
    subst heq
    obtain ⟨record, hrecord, rfl⟩ := Option.map_eq_some_iff.mp hfind
    rcases htruthful.live record with hsame | ⟨hunheld, hdead⟩
    · exact hsame ▸ h d record hrecord
    · exact iff_of_false (by simp [hdead]) (by simp [hunheld])
  · exact h d' record' hfind

theorem LiveFlags.release (h : core.LiveFlags) (hreliable : core.Reliable)
    (d : AdmissionDecisionId) (reason : RevocationReason) (explanation : Explanation) :
    (core.releaseDecisionLocked d reason .revoked explanation).2.LiveFlags ∧
      (core.releaseDecisionLocked d reason .revoked explanation).2.Reliable := by
  generalize hcall : core.releaseDecisionLocked d reason .revoked explanation = outcome
  cases releaseDecisionLocked_effect hcall with
  | unheld _ => exact ⟨h, hreliable⟩
  | unwritten _ hwrite | stuck _ hwrite _ =>
    exact ⟨h.sameBooks rfl fun _ => rfl, hreliable.write hwrite⟩
  | unmarked _ hwrite _ hmark => exact (hreliable.not_torn hwrite hmark).elim
  | @released journal _ _ ledger _ hwrite hrelease hmark =>
    have hreleased : ({ core with journal, ledger } : EngineCore).Reliable :=
      hreliable.write hwrite
    refine ⟨fun d' record' hfind => ?_, hreleased.write hmark⟩
    obtain ⟨-, -, -, rfl⟩ := release_eq_ok_iff.mp hrelease
    change (core.history.modify d _).find d' = some record' at hfind
    change _ ↔ (core.ledger.without d _).holds d' = true
    rw [AdmittedLoadLedger.holds, getElem?_byDecision_without]
    rw [find_modify] at hfind
    by_cases hd : d = d'
    · rw [if_pos hd] at hfind ⊢
      obtain ⟨record, -, rfl⟩ := Option.map_eq_some_iff.mp hfind
      exact iff_of_false (by rintro ⟨⟩) (by rintro ⟨⟩)
    · rw [if_neg hd] at hfind ⊢
      exact h d' record' hfind

theorem LiveFlags.of_stores (h : core.LiveFlags) (hstores : core'.stores = core.stores) :
    core'.LiveFlags := by
  have hhistory : core'.history = core.history := congrArg Stores.history hstores
  have hledger : core'.ledger = core.ledger := congrArg Stores.ledger hstores
  exact h.sameBooks hhistory fun d => by rw [hledger]

theorem Reliable.of_stores (h : core.Reliable) (hstores : core'.stores = core.stores) :
    core'.Reliable := by
  have hjournal : core'.journal = core.journal := congrArg Stores.journal hstores
  exact fun journal hattached => h journal (hjournal ▸ hattached)

theorem housekeeping_liveFlags :
    Housekeeping (fun _ => True) fun core => core.LiveFlags ∧ core.Reliable where
  release _ d reason explanation _ h := h.1.release h.2 d reason explanation
  mark _ d _ _ htruthful h := ⟨h.1.mark d htruthful, h.2⟩
  note _ _ _ h := ⟨h.1.sameBooks rfl fun _ => rfl, h.2.write rfl⟩
  clearFlags core h :=
    ⟨h.1.sameBooks rfl fun d => holds_setFlags core.ledger false d, h.2⟩
  steady _ _ hstores _ h := ⟨h.1.of_stores hstores, h.2.of_stores hstores⟩

theorem LiveFlags.settle (h : core.LiveFlags) (hfiled : core.Filed) (journal : Option Journal)
    (ledger : AdmittedLoadLedger) (decision : AdmissionDecision) (record : DecisionRecord)
    (attempt : Option AttemptRecord) (hid : record.decision = core.nextDecisionSequence)
    (hlive : record.ledgerLive = true ↔ ledger.holds core.nextDecisionSequence = true)
    (hholds : ∀ d, d ≠ core.nextDecisionSequence →
      (ledger.holds d = true ↔ core.ledger.holds d = true)) :
    (EngineCore.settle { core.consumeIdentity with journal, ledger } decision record
      attempt).LiveFlags := by
  intro d record' hfind
  have hret := trimHistory_retires (core.history.insert record) ledger
  have hinserted := hret.find_of_find d record' hfind
  change _ ↔ ledger.holds d = true
  rw [find_insert (hid ▸ Nat.ne_of_gt hfiled.next_pos), hid] at hinserted
  split at hinserted
  · rename_i heq
    obtain rfl := Option.some.inj hinserted
    exact heq ▸ hlive
  · rename_i hne
    rw [hholds d (Ne.symm hne)]
    exact h d record' hinserted

theorem Filed.holds_next (h : core.Filed) :
    core.ledger.holds core.nextDecisionSequence = false := by
  by_contra hheld
  obtain ⟨record, hfind, -⟩ := h.held _ (Bool.of_not_eq_false hheld)
  exact Nat.lt_irrefl _ (h.below _ record hfind)

theorem LiveFlags.refuse (h : core.LiveFlags) (hfiled : core.Filed) (request : AdmissionRequest)
    (claim : ClaimContext) (reason : Refusal) (evidence : Option Evidence)
    (recordAttempt : Bool) :
    (core.refuse request claim reason evidence recordAttempt).2.LiveFlags := by
  rw [EngineCore.refuse, answer_snd]
  have hdecision := core.decision_refusal request claim reason evidence
  generalize core.refusal request claim reason evidence = decision at hdecision ⊢
  generalize hcall : core.consumeIdentity.finishRefusal _ _ _ = outcome
  cases finishRefusal_effect hcall with
  | unwritten _ => exact h.sameBooks rfl fun _ => rfl
  | settled _ =>
    exact h.settle hfiled _ core.ledger decision _ _ hdecision
      (iff_of_false (by rintro ⟨⟩) (by simp [hfiled.holds_next])) fun _ _ => Iff.rfl

theorem LiveFlags.grant (h : core.LiveFlags) (hfiled : core.Filed) {request : AdmissionRequest}
    {grant : Grant} (hverdict : core.verdict request claim = .grant grant) :
    (core.consumeIdentity.finishAdmission (core.admission request claim grant) request
      (amountsOf grant)).2.LiveFlags := by
  have hnodup := nodup_amountsOf (verdict_eq_grant hverdict).2.2.2
  generalize hcall : core.consumeIdentity.finishAdmission _ _ _ = outcome
  cases finishAdmission_effect hcall with
  | unprepared _ => exact h.sameBooks rfl fun _ => rfl
  | unreserved _ hreserve =>
    refine h.sameBooks rfl fun d => ?_
    rw [AdmittedLoadLedger.holds, (reserve_of_error hnodup hreserve).1]
    rfl
  | uncommitted _ hreserve _ =>
    obtain ⟨es, released, hrelease, hby, -⟩ :=
      release_of_reserve hnodup hreserve
    simp only [hrelease]
    refine h.sameBooks rfl fun d => ?_
    rw [AdmittedLoadLedger.holds, hby]
    rfl
  | @committed _ journal' ledger _ hreserve _ =>
    rw [compactIfNeededLocked_snd]
    have hsettled := h.settle hfiled journal' ledger (core.admission request claim grant)
      (core.consumeIdentity.liveRecord (core.admission request claim grant))
      (some (core.consumeIdentity.attemptOf request (core.admission request claim grant))) rfl
      (iff_of_true rfl ((holds_of_reserve_ok hreserve).mpr (Or.inl rfl)))
      fun d hne => (holds_of_reserve_ok hreserve).trans (or_iff_right hne)
    exact hsettled.sameBooks rfl fun _ => rfl

theorem LiveFlags.admitLocked (h : core.LiveFlags) (hfiled : core.Filed)
    (request : AdmissionRequest) (claim : ClaimContext) :
    (core.admitLocked request claim).2.LiveFlags := by
  unfold EngineCore.admitLocked
  cases hverdict : core.verdict request claim with
  | refuse reason evidence recordAttempt =>
    exact h.refuse hfiled request claim reason evidence recordAttempt
  | retired reason =>
    have hcounted : core.countReplay.LiveFlags := h
    exact hcounted.refuse (hfiled.of_stores rfl) request claim reason none false
  | replay decision => exact h.sameBooks rfl fun _ => rfl
  | grant grant =>
    rw [answer_snd]
    exact h.grant hfiled hverdict

theorem LiveFlags.perform (h : core.LiveFlags) (hfiled : core.Filed) (hreliable : core.Reliable)
    (operation : Operation) : (core.perform operation).2.LiveFlags := by
  by_cases hrequest : ∃ request claim, operation = .admitRequest request claim
  · obtain ⟨request, claim, rfl⟩ := hrequest
    exact h.admitLocked hfiled request claim
  by_cases hcompact : operation = .compactJournal
  · rw [hcompact, EngineCore.perform, answering_snd, compactLocked_snd]
    exact h.sameBooks rfl fun _ => rfl
  · exact (housekeeping_liveFlags.perform
      (fun _ _ hstores h => ⟨h.1.of_stores hstores, h.2.of_stores hstores⟩) ⟨h, hreliable⟩
      (fun _ _ => trivial) (fun request claim heq => absurd ⟨request, claim, heq⟩ hrequest)
      fun heq => absurd heq hcompact).1

/-! ### Runs -/

/-- No write of a call fails. A restart succeeds, and the journal that it finds is settled. -/
def Settling (core : EngineCore) : Event → Prop
  | .call call => (∀ outcome ∈ call.disk, outcome = .synced) ∧
    ∀ journal ∈ core.journal, 26 ≤ journal.options.maxPayload
  | .restart config surviving disk =>
    (core.restart config surviving disk).1.status = none ∧
      ∀ journal ∈ core.journal, Settled (journal.cut surviving).records

/-- An epoch that no decision is after. -/
def lastEpoch : FabricEpoch := 0 - 1

theorem le_lastEpoch (epoch : FabricEpoch) : epoch ≤ lastEpoch := by
  exact Nat.le_of_lt_succ epoch.toNat_lt

/-- The flags are right, and the books and the journal are in order. -/
structure Candid (core : EngineCore) : Prop where
  filed : core.Filed
  records : core.StampedRecords lastEpoch
  stamped : core.StampedJournal lastEpoch
  chronicle : core.Chronicle
  live : core.LiveFlags

theorem Candid.onDisk (h : core.Candid) (disk : List DiskOutcome) : (core.onDisk disk).Candid where
  filed := ⟨h.filed.next_pos, h.filed.keyed, h.filed.below, h.filed.held⟩
  records := h.records
  stamped frame hframe := h.stamped frame (core.records_onDisk disk ▸ hframe)
  chronicle := h.chronicle.mono h.chronicle.known (core.records_onDisk disk) le_rfl
  live := h.live

theorem Candid.perform (h : core.Candid) (hreliable : core.Reliable) (operation : Operation) :
    (core.perform operation).2.Candid := by
  have hcourse := core.course_perform h.filed.next_pos operation
  exact ⟨h.filed.course hcourse, h.records.course (le_lastEpoch _) hcourse,
    h.stamped.perform h.records (le_lastEpoch _) h.filed.next_pos operation,
    h.chronicle.perform h.filed operation, h.live.perform h.filed hreliable operation⟩

theorem candid_of_empty (hfiled : core.Filed) (hfind : ∀ d, core.history.find d = none)
    (hrecords : ∀ frame ∈ core.records, ∃ boot, frame = .bootEpoch boot) : core.Candid := by
  have hdecided : decisionsIn core.records = [] :=
    List.filterMap_eq_nil_iff.mpr fun frame hframe => by
      obtain ⟨boot, rfl⟩ := hrecords frame hframe
      rfl
  refine ⟨hfiled, fun d record h => by simp [hfind] at h, fun frame hframe => ?_,
    ⟨hfind 0, by simp [hdecided], fun d hd => ?_, ?_⟩, fun d record h => by simp [hfind] at h⟩
  · obtain ⟨boot, rfl⟩ := hrecords frame hframe
    trivial
  · obtain ⟨revocation, hmem, -⟩ := mem_revokedIn_iff.mp hd
    obtain ⟨boot, hboot⟩ := hrecords _ hmem
    cases hboot
  · refine List.pairwise_of_forall_mem_list fun earlier _ later hlater => ?_
    obtain ⟨boot, rfl⟩ := hrecords later hlater
    exact Chronicle.not_clashes rfl

theorem candid_fresh (config : EngineConfig) : (EngineCore.fresh config).Candid :=
  candid_of_empty (filed_fresh config)
    (fun d => by simp [fresh, DecisionHistory.find])
    fun _ hframe => (List.not_mem_nil hframe).elim

theorem Starting.candid (h : core.Starting) : core.Candid := by
  rcases h with ⟨config, rfl⟩ | ⟨config, options, disk, rfl⟩
  · exact candid_fresh config
  · refine candid_of_empty (filed_boot_new config options disk)
      (find_boot_new config options disk) fun frame hframe => ?_
    rcases records_boot_cases config { options, disk } with hrecords | ⟨boot, hrecords⟩
    · rw [hrecords] at hframe
      exact (List.not_mem_nil hframe).elim
    · rw [hrecords] at hframe
      exact ⟨boot, List.mem_singleton.mp hframe⟩

theorem candid_boot {journal : Journal} (hstatus : (boot config journal).1.status = none)
    (hsettled : Settled journal.records)
    (hstamped : ∀ frame ∈ journal.records, StampedFrame lastEpoch frame)
    (hordered : journal.records.Pairwise fun earlier later => ¬ Clashes earlier later)
    (hne : ∀ record ∈ decisionsIn journal.records, record.decision ≠ 0) :
    (boot config journal).2.Candid := by
  obtain ⟨-, hrecords⟩ := records_boot hstatus
  have hfiled := filed_boot hstatus
  have hlive := liveFlags_boot hstatus hsettled hordered hne hstamped
  have hdecisions : decisionsIn (boot config journal).2.records = decisionsIn journal.records := by
    rw [hrecords, decisionsIn_append]
    exact List.append_nil _
  have hrevoked : revokedIn (boot config journal).2.records = revokedIn journal.records := by
    rw [hrecords, revokedIn_concat]
    exact List.append_nil _
  obtain ⟨opened, state, ledger, epoch, journal', -, hreplay, -, -, -, heq⟩ :=
    boot_eq_recoveredCore hstatus
  have hret := trimHistory_retires state.history ledger
  have hfind : ∀ d record, (boot config journal).2.history.find d = some record →
      state.history.find d = some record := by
    rw [heq]
    exact hret.find_of_find
  have hnext : (boot config journal).2.nextDecisionSequence = state.maxDecisionSequence + 1 := by
    rw [heq]
    rfl
  have hcounted : ∀ record ∈ decisionsIn journal.records,
      record.decision < (boot config journal).2.nextDecisionSequence := fun record hrecord => by
    rw [hnext]
    exact Nat.lt_succ_of_le (ReplayState.decision_le_of_replayFrames hreplay hrecord)
  refine ⟨hfiled, fun d record h => stamped_of_replayFrames hreplay hstamped (hfind d record h),
    fun frame hframe => ?_, ⟨?_, fun record hrecord => ?_, fun d hd => ?_, ?_⟩, hlive⟩
  · rw [hrecords] at hframe
    rcases List.mem_append.mp hframe with hframe | hframe
    · exact hstamped frame hframe
    · rw [List.mem_singleton.mp hframe]
      trivial
  · -- nothing is recorded under the identity zero, since no frame is of it
    cases hzero : (boot config journal).2.history.find 0 with
    | none => rfl
    | some record =>
      obtain ⟨hid, original, hmem, hrestores⟩ :=
        (ReplayState.sourced_of_replayFrames hreplay).recorded 0 record (hfind 0 record hzero)
      exact absurd (hrestores.decision.symm.trans hid) (hne original hmem)
  · rw [hdecisions] at hrecord
    exact ⟨hne record hrecord, hcounted record hrecord⟩
  · rw [hrevoked] at hd
    obtain ⟨record, hrecord, rfl⟩ := List.mem_map.mp (hsettled.2 d hd).2
    exact hcounted record hrecord
  · rw [hrecords]
    refine List.pairwise_append.mpr ⟨hordered, List.pairwise_singleton _ _, ?_⟩
    rintro earlier - later hlater
    rw [List.mem_singleton.mp hlater]
    exact Chronicle.not_clashes rfl

theorem Candid.follow (h : core.Candid) {event : Event} (hguard : core.Settling event) :
    (core.follow event).Candid := by
  cases event with
  | call call =>
    obtain ⟨hdisk, hpayload⟩ := hguard
    refine (h.onDisk call.disk).perform (fun journal hjournal => ?_) call.operation
    obtain ⟨attached, hattached, rfl⟩ := Option.map_eq_some_iff.mp hjournal
    refine ⟨hpayload attached hattached, fun n => ?_⟩
    rw [Journal.outcomeOf, List.getD_eq_getElem?_getD]
    cases houtcome : call.disk[n]? with
    | none => rfl
    | some outcome => exact hdisk outcome (List.mem_of_getElem? houtcome)
  | restart config surviving disk =>
    obtain ⟨hstatus, hsettled⟩ := hguard
    rw [EngineCore.follow]
    unfold restart at hstatus ⊢
    cases hjournal : core.journal with
    | none => exact candid_fresh config
    | some journal =>
      rw [hjournal] at hstatus
      have hrecords : core.records = journal.records := by
        rw [EngineCore.records, hjournal]
        rfl
      have hleft := hrecords ▸ journal.records_cut_isPrefix surviving
      refine candid_boot hstatus (hsettled journal hjournal)
        (fun frame hframe => h.stamped frame (hleft.subset hframe))
        (h.chronicle.ordered.sublist hleft.sublist) fun record hrecord => ?_
      exact (h.chronicle.decided record (List.filterMap_subset _ hleft.subset hrecord)).1

/-- In every run whose writes succeed and whose restarts succeed and find a settled journal, every
retained record says whether the ledger holds its decision. -/
theorem liveFlags_of_reachable (h : Reachable Starting follow Settling core) : core.LiveFlags :=
  (h.invariant (fun _ => Starting.candid) fun _ _ hcandid hguard => hcandid.follow hguard).live

section Examples

open SmallFabric

instance (records : List JournalRecord) : Decidable (Settled records) :=
  inferInstanceAs (Decidable (_ ∧ _))

instance (core : EngineCore) (event : Event) : Decidable (core.Settling event) := by
  rcases event with call | ⟨config, surviving, disk⟩ <;>
    exact inferInstanceAs (Decidable (_ ∧ _))

/-- A grant, some further calls, and a restart that finds the whole journal. -/
def restartedRun (further : List Operation) : List Event :=
  Event.calls (announce [known 1 1 100] ++
    .admitRequest (SmallFabric.request 1 ⟨1, 10, 10⟩ [1]) {} :: further) ++ [.restart {} 100000 []]

/-- A second grant is revoked before the restart. -/
theorem liveFlags_restartedRun :
    (run follow (boot {} {}).2 (restartedRun [
      .admitRequest (SmallFabric.request 2 ⟨1, 10, 10⟩ [1]) {},
      .revoke 2 .operatorRequest {}])).LiveFlags := by
  have hallowed : Allowed follow Settling (boot {} {}).2 (restartedRun [
      .admitRequest (SmallFabric.request 2 ⟨1, 10, 10⟩ [1]) {},
      .revoke 2 .operatorRequest {}]) := by
    decide +kernel
  have hstart : Reachable Starting follow Settling (boot {} {}).2 :=
    .init (Or.inr ⟨{}, {}, [], rfl⟩)
  exact liveFlags_of_reachable (hstart.run hallowed)

/-- No write of a call fails, and restarts succeed. -/
def Unfailing (core : EngineCore) : Event → Prop
  | .call call => ∀ outcome ∈ call.disk, outcome = .synced
  | .restart config surviving disk => (core.restart config surviving disk).1.status = none

instance (core : EngineCore) (event : Event) : Decidable (core.Unfailing event) := by
  rcases event with call | ⟨config, surviving, disk⟩
  · exact inferInstanceAs (Decidable (∀ outcome ∈ call.disk, _))
  · exact inferInstanceAs (Decidable (_ = none))

/-- A grant that is invalidated by a new capacity snapshot before the restart. -/
def invalidatedGrant : List Event :=
  restartedRun [.publishCapacity (SmallFabric.capacity 2 [known 1 1 100]), .revalidate 1 {}]

/-- The grant keeps its load over the restart, and its record says that it has none. -/
theorem invalidated_grant_unflagged :
    Reachable Starting follow Unfailing (run follow (boot {} {}).2 invalidatedGrant) ∧
      (run follow (boot {} {}).2 invalidatedGrant).ledger.holds 1 = true ∧
      ((run follow (boot {} {}).2 invalidatedGrant).history.find 1).map
        (fun record => (record.state, record.ledgerLive)) =
          some (RevalidationState.invalidated, false) ∧
      ¬ (run follow (boot {} {}).2 invalidatedGrant).LiveFlags := by
  have hallowed : Allowed follow Unfailing (boot {} {}).2 invalidatedGrant := by decide +kernel
  have hstart : Reachable Starting follow Unfailing (boot {} {}).2 :=
    .init (Or.inr ⟨{}, {}, [], rfl⟩)
  have hheld : (run follow (boot {} {}).2 invalidatedGrant).ledger.holds 1 = true := by
    decide +kernel
  have hfound : ((run follow (boot {} {}).2 invalidatedGrant).history.find 1).map
      (fun record => (record.state, record.ledgerLive)) =
        some (RevalidationState.invalidated, false) := by decide +kernel
  refine ⟨hstart.run hallowed, hheld, hfound, fun hflags => ?_⟩
  obtain ⟨record, hfind, heq⟩ := Option.map_eq_some_iff.mp hfound
  have hlive := (hflags 1 record hfind).mpr hheld
  rw [(Prod.mk.inj heq).2] at hlive
  cases hlive

end Examples

end EngineCore

end AdmissionFabric
