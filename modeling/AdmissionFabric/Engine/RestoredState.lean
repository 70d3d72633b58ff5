import AdmissionFabric.Engine.Holdings
import AdmissionFabric.Engine.Identities

/-!
# What a recovery restores

A replay that takes every frame restores every decision frame, commits every intent that is
directly followed by its commit, and knows every release. The ledger is then rebuilt from the
committed intents whose record is in force and that were not released.

The identities of the decision frames have to be different from each other and from zero: a later
frame of the same decision replaces the earlier one.
-/

namespace AdmissionFabric

open DecisionHistory

variable {record : JournalRecord} {prepare : PrepareRecord} {config : EngineConfig}
    {decision : DecisionRecord}

/-! ### What the records say -/

/-- The record of a release frame names the decision that was released. -/
def JournalRecord.released? : JournalRecord → Option AdmissionDecisionId
  | .ledgerRelease record => some record.decision
  | _ => none

/-- The decisions with a release frame. -/
def releasedIn (records : List JournalRecord) : List AdmissionDecisionId :=
  records.filterMap JournalRecord.released?

/-- The policy in a record. -/
def JournalRecord.policy? : JournalRecord → Option AdmissionPolicy
  | .policyConfig policy => some policy
  | _ => none

/-- The policy of the last policy frame. -/
def policyIn (records : List JournalRecord) : Option AdmissionPolicy :=
  (records.filterMap JournalRecord.policy?).getLast?

/-- An intent that is directly followed by the commit of its decision. -/
def Committed (records : List JournalRecord) (prepare : PrepareRecord)
    (record : DecisionRecord) : Prop :=
  prepare.decision = record.decision ∧
    [.admissionPrepare prepare, .admissionCommit record] <:+: records

theorem releasedIn_concat (records : List JournalRecord) (record : JournalRecord) :
    releasedIn (records ++ [record]) = releasedIn records ++ record.released?.toList := by
  cases record <;> simp [releasedIn, JournalRecord.released?]

theorem policyIn_concat (records : List JournalRecord) (record : JournalRecord) :
    policyIn (records ++ [record]) = record.policy?.or (policyIn records) := by
  cases record <;> simp [policyIn, JournalRecord.policy?]

theorem committed_concat_iff {records : List JournalRecord} :
    Committed (records ++ [record]) prepare decision ↔ Committed records prepare decision ∨
      prepare.decision = decision.decision ∧ record = .admissionCommit decision ∧
        [.admissionPrepare prepare] <:+ records := by
  have hsuffix : [.admissionPrepare prepare, .admissionCommit decision] <:+ records ++ [record] ↔
      record = .admissionCommit decision ∧ [.admissionPrepare prepare] <:+ records := by
    rw [List.suffix_concat_iff]
    constructor
    · rintro (hnil | ⟨t, ht, hsuffix⟩)
      · cases hnil
      · replace ht :
            [.admissionPrepare prepare] ++ [.admissionCommit decision] = t ++ [record] := ht
        obtain ⟨rfl, hlast⟩ := List.append_inj' ht rfl
        exact ⟨(List.singleton_inj.mp hlast).symm, hsuffix⟩
    · rintro ⟨rfl, hsuffix⟩
      exact Or.inr ⟨[.admissionPrepare prepare], rfl, hsuffix⟩
  rw [Committed, List.infix_concat_iff, hsuffix, Committed]
  tauto

theorem singleton_suffix_concat_iff {records : List JournalRecord} {record' : JournalRecord} :
    [record'] <:+ records ++ [record] ↔ record = record' := by
  constructor
  · intro h
    obtain ⟨t, ht⟩ := h
    exact (List.singleton_inj.mp (List.append_inj' ht rfl).2).symm
  · rintro rfl
    exact List.suffix_append records [record]

theorem Committed.mem {records : List JournalRecord} (h : Committed records prepare decision) :
    .admissionPrepare prepare ∈ records ∧ decision ∈ decisionsIn records := by
  have hsubset := h.2.subset
  exact ⟨hsubset (by simp), List.mem_filterMap.mpr ⟨.admissionCommit decision,
    hsubset (by simp), rfl⟩⟩

namespace ReplayState

variable {id : AdmissionDecisionId} {sequence : Nat} {frames : List JournalFrame}

/-- The marks on a restored record are those of its frame or of a later revocation frame. -/
def MarkedBy (records : List JournalRecord) (original restored : DecisionRecord) : Prop :=
  restored.state = original.state ∧ restored.reason = original.reason ∨
    ∃ revocation, .revocation revocation ∈ records ∧ revocation.decision = original.decision ∧
      restored.state = revocation.state ∧ restored.reason = revocation.reason

/-- A replay has kept everything that the records say. -/
structure Complete (records : List JournalRecord) (state : ReplayState) : Prop where
  recorded : ∀ original ∈ decisionsIn records,
    ∃ record, state.history.find original.decision = some record
  marked : ∀ id record, state.history.find id = some record →
    ∃ original ∈ decisionsIn records, original.decision = id ∧ Restores original record ∧
      MarkedBy records original record
  prepared : ∀ prepare, [.admissionPrepare prepare] <:+ records →
    ∃ prepared, state.pending[prepare.decision]? = some prepared ∧ prepared.prepare = prepare
  committed : ∀ prepare record, Committed records prepare record →
    state.committedPrepares[prepare.decision]? = some prepare
  released : state.released = releasedIn records
  policy_eq : state.policy = policyIn records

variable {state state' : ReplayState} {records : List JournalRecord}

theorem MarkedBy.mono {records' : List JournalRecord} {original restored : DecisionRecord}
    (h : MarkedBy records original restored) (hsubset : records ⊆ records') :
    MarkedBy records' original restored :=
  h.imp_right fun ⟨revocation, hmem, hrest⟩ => ⟨revocation, hsubset hmem, hrest⟩

theorem complete_beginReplay (config : EngineConfig) :
    (EngineCore.fresh config).beginReplay.Complete [] where
  recorded original hmem := by simp [decisionsIn] at hmem
  marked id record hfind := by
    simp [EngineCore.beginReplay, EngineCore.fresh, DecisionHistory.find] at hfind
  prepared prepare hsuffix := by simp at hsuffix
  committed prepare record hcommitted := by simp [Committed] at hcommitted
  released := rfl
  policy_eq := rfl

/-! ### One frame -/

theorem isSome_find_effect (heffect : Effect state sequence record state')
    (hne : ∀ original, record.decision? = some original → original.decision ≠ 0)
    (h : (state.history.find id).isSome = true ∨
      ∃ original, record.decision? = some original ∧ original.decision = id) :
    (state'.history.find id).isSome = true := by
  have hinsert : ∀ original restored : DecisionRecord, record.decision? = some original →
      restored.decision = original.decision →
      ((state.history.insert restored).find id).isSome = true := by
    intro original restored hrecord hdecision
    rw [find_insert (hdecision ▸ hne original hrecord)]
    split
    · rfl
    · rename_i hid
      rcases h with h | ⟨original', hrecord', rfl⟩
      · exact h
      · rw [hrecord] at hrecord'
        exact absurd (hdecision.trans (congrArg _ (Option.some.inj hrecord'))) hid
  cases heffect with
  | boot | policy | prepare | release | auditMark =>
    rcases h with h | ⟨_, hrecord, -⟩
    · exact h
    · cases hrecord
  | unprepared record | commit record => exact hinsert record (restoredCommit record) rfl rfl
  | refused record => exact hinsert record _ rfl rfl
  | revocation record =>
    rcases h with h | ⟨_, hrecord, -⟩
    · simp only [replayRevocation]
      split
      · exact h
      · rename_i existing hexisting
        rw [find_update]
        split
        · rw [hexisting]
          rfl
        · exact h
    · cases hrecord

theorem Complete.marked_effect (h : state.Complete records)
    (heffect : Effect state sequence record state') {found : DecisionRecord}
    (hfind : state'.history.find id = some found) :
    ∃ original ∈ decisionsIn (records ++ [record]), original.decision = id ∧
      Restores original found ∧ MarkedBy (records ++ [record]) original found := by
  have hlast : record ∈ records ++ [record] := List.mem_append_right _ List.mem_cons_self
  have hold : state.history.find id = some found →
      ∃ original ∈ decisionsIn (records ++ [record]), original.decision = id ∧
        Restores original found ∧ MarkedBy (records ++ [record]) original found := by
    intro hfind
    obtain ⟨original, hmem, hid, hrestores, hmarked⟩ := h.marked id found hfind
    have hsubset := List.subset_append_left records [record]
    exact ⟨original, List.filterMap_subset _ hsubset hmem, hid, hrestores, hmarked.mono hsubset⟩
  have hinserted : ∀ original restored : DecisionRecord, record.decision? = some original →
      Restores original restored → restored.state = original.state →
      restored.reason = original.reason → (state.history.insert restored).find id = some found →
      ∃ original ∈ decisionsIn (records ++ [record]), original.decision = id ∧
        Restores original found ∧ MarkedBy (records ++ [record]) original found := by
    intro original restored hrecord hrestores hstate hreason hfind
    rcases find_of_find_insert hfind with ⟨rfl, rfl⟩ | hfind
    · exact ⟨original, List.mem_filterMap.mpr ⟨record, hlast, hrecord⟩, hrestores.decision.symm,
        hrestores, Or.inl ⟨hstate, hreason⟩⟩
    · exact hold hfind
  cases heffect with
  | boot | policy | prepare | release | auditMark => exact hold hfind
  | unprepared record | commit record =>
    exact hinserted record _ rfl (restores_restoredCommit record) rfl rfl hfind
  | refused record => exact hinserted record _ rfl (restores_refused record) rfl rfl hfind
  | revocation record =>
    simp only [replayRevocation] at hfind
    split at hfind
    · exact hold hfind
    · rename_i existing hexisting
      rw [find_update] at hfind
      split at hfind
      · rename_i heq
        rw [hexisting, Option.map_some] at hfind
        obtain rfl := Option.some.inj hfind
        obtain ⟨original, hmem, hid, hrestores, -⟩ := h.marked _ existing hexisting
        refine ⟨original, List.filterMap_subset _ (List.subset_append_left _ _) hmem,
          hid.trans heq, ?_, Or.inr ⟨record, hlast, hid.symm, rfl, rfl⟩⟩
        rw [Restores, hrestores]
      · exact hold hfind

theorem Complete.committed_effect (h : state.Complete records)
    (heffect : Effect state sequence record state')
    (hnodup : (decidedIn (records ++ [record])).Nodup)
    (hcommitted : Committed (records ++ [record]) prepare decision) :
    state'.committedPrepares[prepare.decision]? = some prepare := by
  rcases committed_concat_iff.mp hcommitted with hold | ⟨hdecision, rfl, hprepare⟩
  · have hget := h.committed prepare decision hold
    cases heffect with
    | boot | policy | prepare | unprepared | refused | release | revocation | auditMark =>
      exact hget
    | commit record _ =>
      have hne : record.decision ≠ prepare.decision := by
        intro heq
        have hmem : record.decision ∈ decidedIn records := by
          rw [heq, hold.1]
          exact List.mem_map_of_mem hold.mem.2
        have hsplit : decidedIn (records ++ [.admissionCommit record]) =
            decidedIn records ++ [record.decision] := by
          rw [decidedIn, decisionsIn_append, List.map_append]
          rfl
        rw [hsplit] at hnodup
        exact (List.nodup_append.mp hnodup).2.2 _ hmem _ List.mem_cons_self rfl
      change (state.committedPrepares.insert record.decision _)[prepare.decision]? = _
      rw [Std.ExtTreeMap.getElem?_insert, if_neg (by simpa using hne)]
      exact hget
  · obtain ⟨prepared, hpending, rfl⟩ := h.prepared prepare hprepare
    rw [hdecision] at hpending ⊢
    cases heffect with
    | unprepared _ hnone _ =>
      rw [hpending] at hnone
      cases hnone
    | commit _ hsome =>
      rw [hpending] at hsome
      obtain rfl := Option.some.inj hsome
      change (state.committedPrepares.insert decision.decision _)[decision.decision]? = _
      rw [Std.ExtTreeMap.getElem?_insert_self]

theorem released_effect (heffect : Effect state sequence record state')
    (h : state.released = releasedIn records) :
    state'.released = releasedIn (records ++ [record]) := by
  rw [releasedIn_concat, ← h]
  cases heffect <;> first | rfl | exact (List.append_nil _).symm

theorem Complete.effect (h : state.Complete records)
    (heffect : Effect state sequence record state')
    (hnodup : (decidedIn (records ++ [record])).Nodup)
    (hne : 0 ∉ decidedIn (records ++ [record])) : state'.Complete (records ++ [record]) where
  recorded original hmem := by
    refine Option.isSome_iff_exists.mp (isSome_find_effect heffect (fun new hnew hzero => ?_) ?_)
    · refine hne (List.mem_map.mpr ⟨new, List.mem_filterMap.mpr ⟨record, ?_, hnew⟩, hzero⟩)
      exact List.mem_append_right _ List.mem_cons_self
    · rw [decisionsIn_append] at hmem
      rcases List.mem_append.mp hmem with hmem | hmem
      · exact Or.inl (Option.isSome_iff_exists.mpr (h.recorded original hmem))
      · refine Or.inr ⟨original, ?_, rfl⟩
        obtain ⟨_, hrecord, hkind⟩ := List.mem_filterMap.mp hmem
        rwa [List.mem_singleton.mp hrecord] at hkind
  marked _ _ hfind := h.marked_effect heffect hfind
  prepared prepare hsuffix := by
    obtain rfl := singleton_suffix_concat_iff.mp hsuffix
    cases heffect
    exact ⟨_, Std.ExtTreeMap.getElem?_insert_self, rfl⟩
  committed _ _ hcommitted := h.committed_effect heffect hnodup hcommitted
  released := released_effect heffect h.released
  policy_eq := by
    rw [policyIn_concat, ← h.policy_eq]
    cases heffect <;> rfl

/-! ### A whole replay -/

theorem complete_of_replayFrames
    (h : (EngineCore.fresh config).beginReplay.replayFrames frames = (.ok (), state))
    (hnodup : (decidedIn (frames.map JournalFrame.record)).Nodup)
    (hne : 0 ∉ decidedIn (frames.map JournalFrame.record)) :
    state.Complete (frames.map JournalFrame.record) := by
  refine replayFrames_induction (I := Complete) (fun _ _ h => ⟨h.recorded, h.marked, h.prepared,
    h.committed, h.released, h.policy_eq⟩) (fun done _ _ record _ hdone heffect h => ?_) h
    (complete_beginReplay config)
  have hsublist : (decidedIn (done ++ [record])).Sublist
      (decidedIn (frames.map JournalFrame.record)) :=
    (hdone.sublist.filterMap _).map _
  exact h.effect heffect (hnodup.sublist hsublist) fun hzero => hne (hsublist.subset hzero)

theorem released_of_replayFrames
    (h : (EngineCore.fresh config).beginReplay.replayFrames frames = (.ok (), state)) :
    state.released = releasedIn (frames.map JournalFrame.record) :=
  replayFrames_induction (I := fun done state => state.released = releasedIn done)
    (fun _ _ h => h) (fun _ _ _ _ _ _ heffect h => released_effect heffect h) h rfl

theorem size_effect (heffect : Effect state sequence record state') :
    state'.history.capacity = state.history.capacity ∧
      state'.history.records.size ≤
        state.history.records.size + record.decision?.toList.length := by
  cases heffect with
  | boot | policy | prepare | release | auditMark => exact ⟨rfl, le_rfl⟩
  | unprepared | commit | refused =>
    exact ⟨capacity_insert _ _, size_insert_le _ _⟩
  | revocation record =>
    simp only [replayRevocation]
    split
    · exact ⟨rfl, le_rfl⟩
    · exact ⟨capacity_update _ _ _,
        Nat.le_of_eq (size_update _ _ _)⟩

theorem size_of_replayFrames
    (h : (EngineCore.fresh config).beginReplay.replayFrames frames = (.ok (), state)) :
    state.history.capacity = config.historyCapacity ∧
      state.history.records.size ≤ (decisionsIn (frames.map JournalFrame.record)).length := by
  refine replayFrames_induction (I := fun done state =>
    state.history.capacity = config.historyCapacity ∧
      state.history.records.size ≤ (decisionsIn done).length) (fun _ _ h => h)
    (fun done _ _ record _ _ heffect h => ?_) h ⟨rfl, le_rfl⟩
  obtain ⟨hcapacity, hsize⟩ := size_effect heffect
  refine ⟨hcapacity.trans h.1, hsize.trans ?_⟩
  have hlast : decisionsIn [record] = record.decision?.toList := by
    cases record <;> rfl
  rw [decisionsIn_append, List.length_append, hlast]
  exact Nat.add_le_add_right h.2 _

theorem mem_livePrepares_iff (h : state.Sourced records) :
    prepare ∈ state.livePrepares ↔
      state.committedPrepares[prepare.decision]? = some prepare ∧
        prepare.decision ∉ state.released ∧
        ∃ record, state.history.find prepare.decision = some record ∧ record.InForce := by
  have hcommitted : prepare ∈ state.committedPrepares.toList.map Prod.snd ↔
      state.committedPrepares[prepare.decision]? = some prepare := by
    rw [List.mem_map]
    constructor
    · rintro ⟨⟨id, _⟩, hmem, rfl⟩
      have hget := Std.ExtTreeMap.mem_toList_iff_getElem?_eq_some.mp hmem
      rwa [(h.committed id _ hget).1]
    · intro hget
      exact ⟨(_, prepare), Std.ExtTreeMap.mem_toList_iff_getElem?_eq_some.mpr hget, rfl⟩
  rw [livePrepares, List.mem_filter, hcommitted, isLive]
  cases state.history.find prepare.decision with
  | none => simp
  | some record =>
    simp only [DecisionRecord.InForce, Bool.and_eq_true, bne_iff_ne, decide_eq_true_eq,
      Option.some.injEq, exists_eq_left']
    tauto

end ReplayState

/-! ### The ledger -/

/-- The entries that an intent reserves. -/
def PrepareRecord.entries (prepare : PrepareRecord) : List LedgerEntry :=
  AdmittedLoadLedger.newEntries prepare.decision prepare.demand prepare.epoch
    prepare.boundCapacityGeneration prepare.path prepare.amounts

theorem getElem?_byDecision_restoreLedger {prepares : List PrepareRecord}
    {ledger ledger' : AdmittedLoadLedger} (h : restoreLedger ledger prepares = (.ok (), ledger'))
    {d : AdmissionDecisionId} {es : List LedgerEntry} :
    ledger'.byDecision[d]? = some es ↔ ledger.byDecision[d]? = some es ∨
      ∃ prepare ∈ prepares, prepare.decision = d ∧ prepare.entries = es := by
  induction prepares generalizing ledger with
  | nil =>
    obtain rfl : ledger = ledger' := congrArg Prod.snd h
    simp
  | cons prepare rest ih =>
    rw [restoreLedger] at h
    split at h
    · cases h
    · rename_i reserved hreserve
      have hby : ledger.byDecision[prepare.decision]? = none ∧ reserved.byDecision =
          ledger.byDecision.insert prepare.decision prepare.entries := by
        obtain ⟨hcheck, pathTotals, -, rfl⟩ := AdmittedLoadLedger.reserve_eq_ok_iff.mp hreserve
        have hfree := (AdmittedLoadLedger.checkReserve_eq_ok_iff.mp hcheck).2.1
        exact ⟨by simpa [AdmittedLoadLedger.holds] using hfree, rfl⟩
      rw [ih h, hby.2, Std.ExtTreeMap.getElem?_insert]
      simp only [List.mem_cons, exists_eq_or_imp, ← or_assoc]
      refine or_congr_left ?_
      by_cases hd : prepare.decision = d
      · subst hd
        simp [hby.1]
      · simp [hd]

namespace EngineCore

theorem restored_boot {journal : Journal} (hstatus : (boot config journal).1.status = none)
    (hnodup : (decidedIn journal.records).Nodup) (hne : 0 ∉ decidedIn journal.records) :
    ∃ state : ReplayState, ∃ ledger, state.Sourced journal.records ∧
      state.Complete journal.records ∧ state.history.capacity = config.historyCapacity ∧
      state.history.records.size ≤ (decisionsIn journal.records).length ∧
      (boot config journal).2.policy = state.policy ∧
      (boot config journal).2.history = trimHistory state.history ledger ∧
      (boot config journal).2.ledger = ledger.markAllRequiringRevalidation ∧
      ∀ (d : AdmissionDecisionId) es, ledger.byDecision[d]? = some es ↔
        ∃ prepare ∈ state.livePrepares, prepare.decision = d ∧ prepare.entries = es := by
  obtain ⟨opened, state, ledger, epoch, journal', -, hreplay, hrestore, -, -, heq⟩ :=
    boot_eq_recoveredCore hstatus
  obtain ⟨hcapacity, hsize⟩ := ReplayState.size_of_replayFrames hreplay
  refine ⟨state, ledger, ReplayState.sourced_of_replayFrames hreplay,
    ReplayState.complete_of_replayFrames hreplay hnodup hne, hcapacity, hsize, ?_⟩
  rw [heq]
  refine ⟨rfl, rfl, rfl, fun d es => ?_⟩
  rw [getElem?_byDecision_restoreLedger hrestore]
  simp

end EngineCore

end AdmissionFabric
