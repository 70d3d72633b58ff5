import AdmissionFabric.Engine.JournalOrder
import AdmissionFabric.Engine.RestoredState
import AdmissionFabric.Guarantees.PathAccounting

/-!
# Everything written can be recovered

An admission writes an intent and a commit, and its release writes a release record and a
revocation. Each of the four has to fit the journal and to be accepted by the decoder that
recovery runs on it.

The intent and the release list every resource of the decision. Admission bounds the declared
bindings and the traversal of a path separately and grants on their union, while both decoders
accept no more than `Limits.maxResourceBindings` items. A larger union is admitted and written,
and the journal cannot be opened again.
-/

namespace AdmissionFabric

open AdmittedLoadLedger

open Std (ExtTreeMap)

namespace JournalRecord

/-- Whether the decoder that recovery runs on a record accepts its payload. -/
def decodes : JournalRecord → Bool
  | bootEpoch record => (decodeBoot record.encode).isOk
  | policyConfig policy => (decodePolicy policy.encode).isOk
  | admissionPrepare record => (decodePrepare record.encode).isOk
  | admissionCommit record => (decodeDecisionRecord record.encode).isOk
  | admissionRefused record => (decodeDecisionRecord record.encode).isOk
  | ledgerRelease record => (decodeRelease record.encode).isOk
  | revocation record => (decodeRevocation record.encode).isOk
  | auditMark record => (decodeAuditMark record.encode).isOk

/-- A record fits the journal and is read back. -/
def Recoverable (record : JournalRecord) : Prop :=
  record.payload.length ≤ Limits.maxJournalPayload ∧ record.decodes = true

theorem decodes_of_replayFrames {state state' : ReplayState} {frames : List JournalFrame}
    (h : state.replayFrames frames = (.ok (), state')) :
    ∀ record ∈ frames.map JournalFrame.record, record.decodes = true := by
  induction frames generalizing state with
  | nil => exact fun _ hrecord => nomatch hrecord
  | cons frame frames ih =>
    rw [ReplayState.replayFrames] at h
    cases hreplay : state.replayRecord frame with
    | error refusal => simp [hreplay] at h
    | ok next =>
      rw [hreplay] at h
      rw [List.map_cons, List.forall_mem_cons]
      refine ⟨?_, ih h⟩
      have hdecoded : ∀ {α : Type} {result : Except Status α},
          ReplayState.decoded result = .ok () → result.isOk = true := by
        rintro α (status | value) hok
        · cases hok
        · rfl
      unfold ReplayState.replayRecord at hreplay
      unfold decodes
      cases hkind : frame.record <;> simp only [hkind, check_bind_eq_ok_iff] at hreplay <;>
        exact hdecoded hreplay.1

end JournalRecord

/-! ### The entries of a live decision -/

namespace AdmittedLoadLedger

theorem invariant_labelled : LedgerInvariant Labelled where
  empty d es h := by simp at h
  reserve {ledger ledger' d demand epoch generation path amounts result} hlabelled hreserve := by
    intro d' es hd' e he
    rcases byDecision_of_reserve hreserve with hsame | ⟨-, -, hinsert⟩
    · exact hlabelled d' es (hsame ▸ hd') e he
    · rw [hinsert, ExtTreeMap.getElem?_insert] at hd'
      split at hd'
      · rename_i heq
        obtain rfl := Option.some.inj hd'
        obtain ⟨a, -, rfl⟩ := List.mem_map.mp he
        exact Std.LawfulEqCmp.eq_of_compare heq
      · exact hlabelled d' es hd' e he
  setFlags {ledger} flag hlabelled := by
    intro d es hd e he
    rw [getElem?_byDecision_setFlags] at hd
    obtain ⟨es', hd', rfl⟩ := Option.map_eq_some_iff.mp hd
    obtain ⟨e', he', rfl⟩ := List.mem_map.mp he
    exact hlabelled d es' hd' e' he'
  release {ledger ledger' d entries} hlabelled hrelease := by
    obtain ⟨-, -, -, rfl⟩ := release_eq_ok_iff.mp hrelease
    intro d' es hd' e he
    rw [getElem?_byDecision_without] at hd'
    split at hd'
    · cases hd'
    · exact hlabelled d' es hd' e he

theorem growth_bounded : LedgerGrowth fun ledger =>
    ∀ (d : AdmissionDecisionId) es, ledger.byDecision[d]? = some es →
      es.length ≤ Limits.maxLedgerEntries where
  empty d es h := by simp at h
  reserve {ledger ledger' d demand epoch generation path amounts result} hbounded hreserve := by
    intro d' es hd'
    rcases byDecision_of_reserve hreserve with hsame | ⟨rfl, -, hinsert⟩
    · exact hbounded d' es (hsame ▸ hd')
    · rw [hinsert, ExtTreeMap.getElem?_insert] at hd'
      split at hd'
      · obtain rfl := Option.some.inj hd'
        rw [length_newEntries]
        exact (Nat.le_add_left _ _).trans
          (checkReserve_eq_ok_iff.mp (reserve_eq_ok_iff.mp hreserve).1).2.2.2.1
      · exact hbounded d' es hd'
  setFlags {ledger} flag hbounded := by
    intro d es hd
    rw [getElem?_byDecision_setFlags] at hd
    obtain ⟨es', hd', rfl⟩ := Option.map_eq_some_iff.mp hd
    rw [List.length_map]
    exact hbounded d es' hd'

end AdmittedLoadLedger

namespace EngineCore

variable {grant : Grant} {journal : Journal} {core core' : EngineCore} {d : AdmissionDecisionId}
    {n : Nat}

/-- A decision of the past holds no more than a given number of entries. -/
structure Spans (d : AdmissionDecisionId) (n : Nat) (core : EngineCore) : Prop where
  past : d < core.nextDecisionSequence
  labelled : core.ledger.Labelled
  length_le : ∀ es, core.ledger.byDecision[d]? = some es → es.length ≤ n

theorem Spans.mono (h : core.Spans d n) {m : Nat} (hle : n ≤ m) : core.Spans d m :=
  ⟨h.past, h.labelled, fun es hes => (h.length_le es hes).trans hle⟩

theorem Spans.ledger (h : core.Spans d n) (hnext : core.nextDecisionSequence ≤
    core'.nextDecisionSequence) (hlabelled : core'.ledger.Labelled)
    (hheld : ∀ es, core'.ledger.byDecision[d]? = some es →
      ∃ es', core.ledger.byDecision[d]? = some es' ∧ es.length = es'.length) :
    core'.Spans d n where
  past := Nat.lt_of_lt_of_le h.past hnext
  labelled := hlabelled
  length_le es hes := by
    obtain ⟨es', hes', hlength⟩ := hheld es hes
    rw [hlength]
    exact h.length_le es' hes'

theorem Spans.of_stores (h : core.Spans d n) (hstores : core'.stores = core.stores) :
    core'.Spans d n := by
  have hledger : core'.ledger = core.ledger := congrArg Stores.ledger hstores
  have hnext : core'.nextDecisionSequence = core.nextDecisionSequence :=
    congrArg Stores.nextDecisionSequence hstores
  exact h.ledger hnext.ge (hledger ▸ h.labelled) fun es hes => ⟨es, hledger ▸ hes, rfl⟩

theorem Spans.reserve (h : core.Spans d n) {demand : DemandId} {epoch : FabricEpoch}
    {generation : Generation} {path : PathId} {amounts : List (ResourceId × Rate)}
    {result : Except Status Unit} {ledger : AdmittedLoadLedger}
    (hreserve : core.ledger.reserve core.nextDecisionSequence demand epoch generation path amounts =
      (result, ledger)) : ({ core with ledger } : EngineCore).Spans d n := by
  refine h.ledger le_rfl
    (AdmittedLoadLedger.invariant_labelled.reserve h.labelled hreserve)
    fun es hes => ⟨es, ?_, rfl⟩
  rcases byDecision_of_reserve hreserve with hsame | ⟨-, -, hinsert⟩
  · exact hsame ▸ hes
  · have hne : ¬ core.nextDecisionSequence = d := fun heq => Nat.lt_irrefl _ (heq ▸ h.past)
    simpa [hinsert, ExtTreeMap.getElem?_insert, hne] using hes

theorem Spans.release (h : core.Spans d n) {d' : AdmissionDecisionId} {es : List LedgerEntry}
    {ledger : AdmittedLoadLedger} (hrelease : core.ledger.release d' = .ok (es, ledger)) :
    ({ core with ledger } : EngineCore).Spans d n := by
  refine h.ledger le_rfl
    (AdmittedLoadLedger.invariant_labelled.release h.labelled hrelease)
    fun es' hes' => ⟨es', ?_, rfl⟩
  obtain ⟨-, -, -, rfl⟩ := release_eq_ok_iff.mp hrelease
  rw [getElem?_byDecision_without] at hes'
  split at hes'
  · cases hes'
  · exact hes'

theorem preserved_spans (d : AdmissionDecisionId) (n : Nat) : Preserved (Spans d n) where
  refusal core request claim reason evidence recordAttempt h := by
    generalize hcall : core.consumeIdentity.finishRefusal _ _ _ = outcome
    cases finishRefusal_effect hcall <;>
      exact h.ledger (Nat.le_succ _) h.labelled fun es hes => ⟨es, hes, rfl⟩
  grant core request claim grant _ h := by
    generalize hcall : core.consumeIdentity.finishAdmission _ _ _ = outcome
    have hnext : ∀ {core' : EngineCore}, ({ core with ledger := core'.ledger } :
        EngineCore).Spans d n → core'.nextDecisionSequence = core.nextDecisionSequence + 1 →
          core'.Spans d n := fun hspans hnext =>
      hspans.ledger (by rw [hnext]; exact Nat.le_succ _) hspans.labelled
        fun es hes => ⟨es, hes, rfl⟩
    cases finishAdmission_effect hcall with
    | unprepared _ => exact hnext h rfl
    | unreserved _ hreserve => exact hnext (h.reserve hreserve) rfl
    | @uncommitted _ _ _ ledger _ hreserve _ =>
      refine hnext ?_ rfl
      have hreserved := h.reserve hreserve
      exact undone_induction (P := fun ledger => EngineCore.Spans d n { core with ledger })
        hreserved fun _ _ hrelease => hreserved.release hrelease
    | committed _ hreserve _ =>
      rw [compactIfNeededLocked_snd]
      exact hnext (h.reserve hreserve) rfl
  release core d' reason explanation _ h := by
    generalize hcall : core.releaseDecisionLocked d' reason .revoked explanation = outcome
    cases releaseDecisionLocked_effect hcall with
    | unheld _ => exact h
    | unwritten _ _ | stuck _ _ _ => exact ⟨h.past, h.labelled, h.length_le⟩
    | unmarked _ _ hrelease _ | released _ _ hrelease _ =>
      have hspans := h.release hrelease
      exact ⟨hspans.past, hspans.labelled, hspans.length_le⟩
  mark _ _ _ _ _ h := ⟨h.past, h.labelled, h.length_le⟩
  note _ _ _ h := ⟨h.past, h.labelled, h.length_le⟩
  compact core h := by
    rw [compactLocked_snd]
    exact ⟨h.past, h.labelled, h.length_le⟩
  clearFlags core h := by
    refine h.ledger le_rfl
      (AdmittedLoadLedger.invariant_labelled.setFlags false h.labelled) fun es hes => ?_
    change (core.ledger.setFlags false).byDecision[d]? = some es at hes
    rw [getElem?_byDecision_setFlags] at hes
    obtain ⟨es', hes', rfl⟩ := Option.map_eq_some_iff.mp hes
    exact ⟨es', hes', List.length_map _⟩
  tidy core core' hstores _ h := h.of_stores hstores

/-! ### Restarts -/

/-- A restart succeeds and finds the frame of a decision. -/
def Retains (d : AdmissionDecisionId) (core : EngineCore) : Event → Prop
  | .call _ => True
  | .restart config surviving disk => (core.restart config surviving disk).1.status = none ∧
    ∃ journal ∈ core.journal, d ∈ decidedIn (journal.cut surviving).records

theorem spans_boot {config : EngineConfig} (hstatus : (boot config journal).1.status = none)
    (hd : d ∈ decidedIn journal.records) :
    (boot config journal).2.Spans d Limits.maxResourceBindings := by
  obtain ⟨record, hrecord, rfl⟩ := List.mem_map.mp hd
  have hbounded := AdmittedLoadLedger.growth_bounded.boot config journal record.decision
  refine ⟨?_, AdmittedLoadLedger.invariant_labelled.boot config journal, fun es hes => ?_⟩
  all_goals obtain ⟨opened, state, ledger, epoch, journal', -, hreplay, hrestore, -, -, heq⟩ :=
    boot_eq_recoveredCore hstatus
  · rw [heq]
    exact Nat.lt_succ_of_le (ReplayState.decision_le_of_replayFrames hreplay hrecord)
  · have hcount := hbounded es hes
    rw [heq] at hes
    change (ledger.setFlags true).byDecision[record.decision]? = some es at hes
    rw [getElem?_byDecision_setFlags] at hes
    obtain ⟨restored, hrestored, rfl⟩ := Option.map_eq_some_iff.mp hes
    rw [getElem?_byDecision_restoreLedger hrestore] at hrestored
    obtain ⟨prepare, hprepare, -, rfl⟩ := hrestored.resolve_left (by simp)
    rw [List.length_map, PrepareRecord.entries, length_newEntries] at hcount ⊢
    have hmem := ((ReplayState.sourced_of_replayFrames hreplay).of_mem_livePrepares hprepare).1
    have hdecodes := JournalRecord.decodes_of_replayFrames hreplay _ hmem
    refine Nat.not_lt.mp fun hgt => ?_
    rw [JournalRecord.decodes, decodePrepare_encode_of_gt hgt
      (Nat.lt_of_le_of_lt hcount (by decide))] at hdecodes
    cases hdecodes

theorem Spans.follow (h : core.Spans d Limits.maxResourceBindings) {event : Event}
    (hretains : core.Retains d event) :
    (core.follow event).Spans d Limits.maxResourceBindings := by
  cases event with
  | call call =>
    have hdisk : (core.onDisk call.disk).Spans d Limits.maxResourceBindings :=
      ⟨h.past, h.labelled, h.length_le⟩
    exact (preserved_spans d _).perform (fun _ _ hstores h => h.of_stores hstores) hdisk
      call.operation
  | restart config surviving disk =>
    obtain ⟨hstatus, journal, hjournal, hd⟩ := hretains
    rw [EngineCore.follow]
    simp only [restart, Option.mem_def.mp hjournal] at hstatus ⊢
    exact spans_boot hstatus hd

/-- The intent and the commit that an admission writes. -/
def admissionRecords (core : EngineCore) (request : AdmissionRequest) (claim : ClaimContext) :
    List JournalRecord :=
  match core.verdict request claim with
  | .grant grant =>
    let decision := core.admission request claim grant
    [.admissionPrepare (core.consumeIdentity.prepareOf decision (amountsOf grant)),
      .admissionCommit (core.consumeIdentity.liveRecord decision)]
  | _ => []

variable {request : AdmissionRequest} {claim : ClaimContext} {decision : AdmissionDecision}

theorem records_of_admitLocked (hdurable : core.Durable)
    (hverdict : core.verdict request claim = .grant grant)
    (h : core.admitLocked request claim = (.ok decision, core')) :
    ∃ settled : EngineCore, settled.records = core.records ++ core.admissionRecords request claim ∧
      settled.compactIfNeededLocked.2 = core' := by
  have hok : (core.admitLocked request claim).1 = .ok decision := congrArg Prod.fst h
  obtain rfl : (core.admitLocked request claim).2 = core' := congrArg Prod.snd h
  rw [admitLocked_of_grant hverdict] at hok ⊢
  rw [answer_snd]
  obtain ⟨hok, -⟩ := answer_fst_eq_ok_iff.mp hok
  simp only [admissionRecords, hverdict]
  generalize hcall : core.consumeIdentity.finishAdmission _ _ _ = outcome at hok ⊢
  cases finishAdmission_effect hcall with
  | unprepared _ | unreserved _ _ | uncommitted _ _ _ => cases hok
  | committed hprepare _ hcommit =>
    refine ⟨_, ?_, rfl⟩
    have hconsumed : core.consumeIdentity.Durable := hdurable
    obtain ⟨hdurable', hprepared | ⟨⟨_, hfailed⟩, -⟩⟩ := records_of_writeJournal hconsumed hprepare
    · obtain ⟨-, hcommitted | ⟨⟨_, hfailed⟩, -⟩⟩ := records_of_writeJournal hdurable' hcommit
      · exact (hcommitted.trans (congrArg (· ++ _) hprepared)).trans (List.append_assoc _ _ _)
      · cases hfailed
    · cases hfailed

/-- What an admission writes can be recovered, and so can what its release writes in any later
state, after restarts that find the decision as well. -/
structure Survives (core core' : EngineCore) (request : AdmissionRequest) (claim : ClaimContext)
    (decision : AdmissionDecision) : Prop where
  written : ∀ record ∈ core.admissionRecords request claim, record.Recoverable
  released : ∀ later,
    TransitionSystem.Reachable (· = core') EngineCore.follow (Retains decision.decision) later →
    later.ledger.holds decision.decision = true → ∀ reason,
      (JournalRecord.ledgerRelease (later.releaseOf decision.decision reason)).Recoverable ∧
      ∀ state, (JournalRecord.revocation
        (later.revocationOf decision.decision reason state)).Recoverable

section Examples

open SmallFabric
open TransitionSystem (Reachable run Allowed)

variable {r : ResourceId}

/-- A durable engine with one resource. -/
def narrowCore : EngineCore := (boot {} {}).2.performAll (announce [known 1 1 50])

end Examples

end EngineCore

end AdmissionFabric
