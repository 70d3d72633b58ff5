import AdmissionFabric.Engine.Effects
import AdmissionFabric.Engine.SmallFabric
import AdmissionFabric.Library.SelfDelimiting

/-!
# What the fingerprint of a request covers

A retry is told from the reuse of an identity by the fingerprint of its request. The stream that is
hashed determines the whole content of a request, and of its provenance the publisher. What it
leaves out is stamped anew by a claimant that retries, and decides nothing: two requests with the
same stream are answered the same, but for the trace that an answer carries back.

The hash itself is not injective, so equal fingerprints are no more than equal hashes of the
streams.
-/

namespace AdmissionFabric

variable {s' s : List UInt8}

/-! ### Fields of a stream -/

namespace Fingerprint

variable {α : Type}

theorem selfDelimiting_u64 : SelfDelimiting u64 := by
  refine .of_length (fun v => LittleEndian.length_leBytes 8 v.toNat) fun v v' h => ?_
  have hlt : v.toNat < 256 ^ 8 := v.toNat_lt
  have hlt' : v'.toNat < 256 ^ 8 := v'.toNat_lt
  have hvalue := congrArg LittleEndian.ofLeBytes h
  rw [u64, u64, LittleEndian.ofLeBytes_leBytes, LittleEndian.ofLeBytes_leBytes,
    Nat.mod_eq_of_lt hlt, Nat.mod_eq_of_lt hlt'] at hvalue
  exact UInt64.toNat_inj.mp hvalue

theorem selfDelimiting_boolean : SelfDelimiting boolean := by
  refine .of_length (fun _ => rfl) fun v v' h => ?_
  cases v <;> cases v' <;> first | rfl | exact absurd h (by decide)

theorem counted_append_inj_iff {code : α → List UInt8} (h : SelfDelimiting code) {l l' : List α}
    (hl : l.length < 2 ^ 64) (hl' : l'.length < 2 ^ 64) :
    size l.length ++ (l.flatMap code ++ s) = size l'.length ++ (l'.flatMap code ++ s') ↔
      l = l' ∧ s = s' := by
  have hwidth : 2 ^ 64 = 256 ^ 8 := by decide
  exact LittleEndian.counted_append_inj_iff h hl hl'

theorem selfDelimiting_pair {first second : α → UInt64}
    (h : ∀ a a', first a = first a' → second a = second a' → a = a') :
    SelfDelimiting fun a => u64 (first a) ++ u64 (second a) := by
  intro a a' s s' heq
  simp only [List.append_assoc, selfDelimiting_u64.append_inj_iff] at heq
  exact ⟨h a a' heq.1 heq.2.1, heq.2.2⟩

end Fingerprint

theorem contention_append_inj_iff {a a' : ContentionPreference} :
    [a.code] ++ s = [a'.code] ++ s' ↔ a = a' ∧ s = s' := by
  have hcode : SelfDelimiting fun a : ContentionPreference => [a.code] := by
    refine .of_length (fun _ => rfl) fun a a' h => ?_
    cases a <;> cases a' <;> first | rfl | exact absurd h (by decide)
  exact hcode.append_inj_iff

theorem degradation_append_inj_iff {a a' : DegradePreference} :
    [a.code] ++ s = [a'.code] ++ s' ↔ a = a' ∧ s = s' := by
  have hcode : SelfDelimiting fun a : DegradePreference => [a.code] := by
    refine .of_length (fun _ => rfl) fun a a' h => ?_
    cases a <;> cases a' <;> first | rfl | exact absurd h (by decide)
  exact hcode.append_inj_iff

theorem selfDelimiting_binding : SelfDelimiting fun binding : ResourceBinding =>
    Fingerprint.u64 binding.resource ++ Fingerprint.u64 binding.generation :=
  Fingerprint.selfDelimiting_pair fun a a' hresource hgeneration => by
    cases a
    cases a'
    rw [ResourceBinding.mk.injEq]
    exact ⟨hresource, hgeneration⟩

theorem selfDelimiting_candidate : SelfDelimiting fun candidate : PathCandidate =>
    Fingerprint.u64 candidate.path ++ Fingerprint.u64 candidate.pathAuthorityGeneration :=
  Fingerprint.selfDelimiting_pair fun a a' hpath hgeneration => by
    cases a
    cases a'
    rw [PathCandidate.mk.injEq]
    exact ⟨hpath, hgeneration⟩

theorem selfDelimiting_reservation : SelfDelimiting fun ref : ReservationRef =>
    Fingerprint.u64 ref.reservation ++ Fingerprint.u64 ref.generation :=
  Fingerprint.selfDelimiting_pair fun a a' hreservation hgeneration => by
    cases a
    cases a'
    rw [ReservationRef.mk.injEq]
    exact ⟨hreservation, hgeneration⟩

namespace AdmissionRequest

variable {provenance : Provenance}

/-- The request without the parts of its provenance that a retry may change. -/
def content (request : AdmissionRequest) : AdmissionRequest :=
  { request with provenance := { publisher := request.provenance.publisher } }

/-- The lists of a request are no longer than 64-bit sizes can say. -/
structure Addressable (request : AdmissionRequest) : Prop where
  resourceBindings : request.resourceBindings.length < 2 ^ 64
  pathCandidates : request.pathCandidates.length < 2 ^ 64
  reservationRefs : request.reservationRefs.length < 2 ^ 64

variable {request request' : AdmissionRequest}

theorem content_eq_iff : request.content = request'.content ↔
    ∃ provenance, provenance.publisher = request.provenance.publisher ∧
      request' = { request with provenance } := by
  constructor
  · intro h
    refine ⟨request'.provenance, (congrArg (·.provenance.publisher) h).symm, ?_⟩
    cases request'
    simp only [content, mk.injEq] at h ⊢
    simp only [h, and_self]
  · rintro ⟨provenance, hpublisher, rfl⟩
    simp only [content, hpublisher]

theorem fingerprintStream_provenance (h : provenance.publisher = request.provenance.publisher) :
    ({ request with provenance } : AdmissionRequest).fingerprintStream =
      request.fingerprintStream := by
  unfold fingerprintStream
  rw [h]

theorem fingerprintStream_eq_iff (h : request.Addressable) (h' : request'.Addressable) :
    request.fingerprintStream = request'.fingerprintStream ↔
      request.content = request'.content := by
  constructor
  · intro heq
    unfold fingerprintStream at heq
    rw [← List.append_nil (_ ++ Fingerprint.u64 request.provenance.publisher),
      ← List.append_nil (_ ++ Fingerprint.u64 request'.provenance.publisher)] at heq
    simp only [List.append_assoc] at heq
    simp only [List.append_cancel_left_eq, Fingerprint.selfDelimiting_u64.append_inj_iff,
      Fingerprint.selfDelimiting_boolean.append_inj_iff, contention_append_inj_iff,
      degradation_append_inj_iff,
      Fingerprint.counted_append_inj_iff selfDelimiting_binding h.resourceBindings
        h'.resourceBindings,
      Fingerprint.counted_append_inj_iff selfDelimiting_candidate h.pathCandidates
        h'.pathCandidates,
      Fingerprint.counted_append_inj_iff selfDelimiting_reservation h.reservationRefs
        h'.reservationRefs] at heq
    have hrate : request.rate = request'.rate := by
      change RateBounds.mk _ _ _ = RateBounds.mk _ _ _
      simp only [heq]
    have hexpected : request.expected = request'.expected := by
      change AuthorityExpectation.mk _ _ _ _ _ _ _ _ = AuthorityExpectation.mk _ _ _ _ _ _ _ _
      simp only [heq]
    simp only [content, heq, hrate, hexpected]
  · rw [content_eq_iff]
    rintro ⟨provenance, hpublisher, rfl⟩
    exact (fingerprintStream_provenance hpublisher).symm

theorem fingerprint_provenance (h : provenance.publisher = request.provenance.publisher) :
    ({ request with provenance } : AdmissionRequest).fingerprint = request.fingerprint :=
  congrArg Fingerprint.ofStream (fingerprintStream_provenance h)

end AdmissionRequest

/-! ### Evaluation

No stage behind the identity checks reads the provenance. -/

namespace Authority

variable {authority : Authority} {ledger : AdmittedLoadLedger} {request : AdmissionRequest}
  {provenance : Provenance}

theorem searchPaths_provenance (search : PathSearch) (candidates : List PathCandidate) :
    authority.searchPaths ledger { request with provenance } search candidates =
      authority.searchPaths ledger request search candidates := by
  have hjudge : authority.judgeCandidate ledger { request with provenance } =
      authority.judgeCandidate ledger request := rfl
  induction candidates generalizing search with
  | nil => rfl
  | cons candidate rest ih => simp only [searchPaths, hjudge, ih]

theorem scanTargets_provenance (limit : Limit) (views : List ResourceView)
    (targets : List ResourceId) :
    authority.scanTargets ledger { request with provenance } limit views targets =
      authority.scanTargets ledger request limit views targets := by
  have hcheck : authority.checkView { request with provenance } =
      authority.checkView request := rfl
  induction targets generalizing limit views with
  | nil => rfl
  | cons target rest ih => simp only [scanTargets, hcheck, ih]

theorem resolve_provenance : authority.resolve ledger { request with provenance } =
    authority.resolve ledger request := by
  have hexpectations : authority.checkExpectations { request with provenance } =
      authority.checkExpectations request := rfl
  have hpolicy : authority.checkPolicy { request with provenance } =
      authority.checkPolicy request := rfl
  have hselect : authority.selectPath ledger { request with provenance } =
      authority.selectPath ledger request := by
    have hpermitted : authority.permittedCandidates { request with provenance } =
      authority.permittedCandidates request := rfl
    simp only [selectPath, searchPaths_provenance, hpermitted]
  have htargets : targetsOf { request with provenance } = targetsOf request := rfl
  simp only [resolve, hexpectations, hpolicy, hselect, htargets]

theorem evaluate_provenance : authority.evaluate ledger { request with provenance } =
    authority.evaluate ledger request := by
  have hcapacity : authority.evaluateCapacity ledger { request with provenance } =
      authority.evaluateCapacity ledger request := by
    funext targets selected
    have hpath : capByPath ledger { request with provenance } = capByPath ledger request := rfl
    have hbinding : bindingOf { request with provenance } = bindingOf request := rfl
    simp only [evaluateCapacity, scanTargets_provenance, hpath, hbinding]
  have hgrant : authority.decideGrant { request with provenance } =
      authority.decideGrant request := rfl
  simp only [evaluate, resolve_provenance, hcapacity, hgrant]

end Authority
/-! ### Answers -/

namespace AdmissionDecision

/-- The request under another trace. -/
def withTrace (decision : AdmissionDecision) (trace : TraceId) : AdmissionDecision :=
  { decision with trace }

/-- A decision without the trace that it carries back to its caller. -/
def withoutTrace (decision : AdmissionDecision) : AdmissionDecision := decision.withTrace 0

theorem withoutTrace_withTrace (decision : AdmissionDecision) (trace : TraceId) :
    (decision.withTrace trace).withoutTrace = decision.withoutTrace := rfl

end AdmissionDecision

namespace EngineCore

variable (trace : TraceId) {core core' : EngineCore} {request : AdmissionRequest}
    {claim : ClaimContext} {provenance : Provenance} {decision decision' : AdmissionDecision}

theorem verdict_provenance (hpublisher : provenance.publisher = request.provenance.publisher)
    (hvalid : request.validate = .ok ())
    (hvalid' : ({ request with provenance } : AdmissionRequest).validate = .ok ()) :
    core.verdict { request with provenance } claim = core.verdict request claim := by
  have hfingerprint := AdmissionRequest.fingerprint_provenance hpublisher
  have hprobe : probe { request with provenance } = probe request := by
    simp only [probe, hfingerprint]
  have hreplay : ∀ existing, core.replayVerdict { request with provenance } existing =
      core.replayVerdict request existing := fun _ => rfl
  have hconflict : ∀ classification, conflictRefusal { request with provenance } classification =
      conflictRefusal request classification := fun _ => by
    simp only [conflictRefusal, hfingerprint]
  unfold verdict
  simp only [hvalid, hvalid', hprobe, hreplay, hconflict, Authority.evaluate_provenance]

/-- The trace that a decision on a request carries. -/
def traceOf (claim : ClaimContext) (provenance : Provenance) : TraceId :=
  if claim.trace ≠ 0 then claim.trace else provenance.trace

theorem newDecision_provenance (hpublisher : provenance.publisher = request.provenance.publisher)
    (outcome : AdmissionOutcome) :
    core.newDecision { request with provenance } claim outcome =
      (core.newDecision request claim outcome).withTrace (traceOf claim provenance) := by
  simp only [newDecision, AdmissionRequest.fingerprint_provenance hpublisher, traceOf,
    AdmissionDecision.withTrace]

theorem refusal_provenance (hpublisher : provenance.publisher = request.provenance.publisher)
    (reason : Refusal) (evidence : Option Evidence) :
    core.refusal { request with provenance } claim reason evidence =
      (core.refusal request claim reason evidence).withTrace (traceOf claim provenance) := by
  simp only [refusal, newDecision_provenance hpublisher]
  cases evidence <;> rfl

theorem admission_provenance (hpublisher : provenance.publisher = request.provenance.publisher)
    (grant : Grant) :
    core.admission { request with provenance } claim grant =
      (core.admission request claim grant).withTrace (traceOf claim provenance) := by
  simp only [admission, newDecision_provenance hpublisher]
  rfl

theorem fst_finishRefusal_trace (recordAttempt : Bool) :
    (core.finishRefusal (decision.withTrace trace) { request with provenance } recordAttempt).1 =
      (core.finishRefusal decision request recordAttempt).1 := by
  have hrecord : core.toRecord (decision.withTrace trace) = core.toRecord decision := rfl
  rw [finishRefusal, finishRefusal, hrecord]
  rcases core.writeRecord (.admissionRefused (core.toRecord decision)) with ⟨_ | _, _⟩ <;> rfl

theorem fst_compactIfNeededLocked_cache (core : EngineCore)
    (cache : Std.ExtTreeMap AdmissionDecisionId AdmissionDecision) :
    ({ core with decisionCache := cache } : EngineCore).compactIfNeededLocked.1 =
      core.compactIfNeededLocked.1 := by
  have hrecords : ({ core with decisionCache := cache } : EngineCore).compactedRecords =
      core.compactedRecords := rfl
  simp only [compactIfNeededLocked, compactLocked, hrecords]
  cases core.journal with
  | none => rfl
  | some journal =>
    simp only
    split_ifs <;> rfl

theorem fst_finishAdmission_trace (amounts : List (ResourceId × Rate)) :
    (core.finishAdmission (decision.withTrace trace) { request with provenance } amounts).1 =
      (core.finishAdmission decision request amounts).1 := by
  have hprepare : core.prepareOf (decision.withTrace trace) amounts =
    core.prepareOf decision amounts := rfl
  have hrecord : core.liveRecord (decision.withTrace trace) = core.liveRecord decision := rfl
  have hreserve : ∀ core : EngineCore, core.reserveLoad (decision.withTrace trace) amounts =
    core.reserveLoad decision amounts := fun _ => rfl
  simp only [finishAdmission, hprepare, hrecord, hreserve]
  -- the runs agree up to the settled core, where they differ in the cache only
  rcases core.writeRecord (.admissionPrepare (core.prepareOf decision amounts)) with
    ⟨_ | _, prepared⟩
  · rfl
  rcases hloaded : prepared.reserveLoad decision amounts with ⟨_ | _, loaded⟩
  · simp only [Outcome.andThen_ok, hloaded, Outcome.andThen_error]
  rcases hcommitted : loaded.commitLoad (core.liveRecord decision) with ⟨_ | _, committed⟩
  · simp only [Outcome.andThen_ok, hloaded, hcommitted, Outcome.andThen_error]
  simp only [Outcome.andThen_ok, hloaded, hcommitted]
  exact fst_compactIfNeededLocked_cache (committed.settle decision (core.liveRecord decision)
    (some (committed.attemptOf request decision))) _

theorem map_fst_answer {outcome outcome' : Outcome Unit} (h : outcome.1 = outcome'.1)
    (hdecision : decision.withoutTrace = decision'.withoutTrace) :
    (answer decision outcome).1.map AdmissionDecision.withoutTrace =
      (answer decision' outcome').1.map AdmissionDecision.withoutTrace := by
  obtain ⟨result, core⟩ := outcome
  obtain ⟨result', core'⟩ := outcome'
  obtain rfl : result = result' := h
  cases result with
  | error status => rfl
  | ok _ => exact congrArg Except.ok hdecision

theorem map_fst_refuse_provenance
    (hpublisher : provenance.publisher = request.provenance.publisher) (reason : Refusal)
    (evidence : Option Evidence) (recordAttempt : Bool) :
    (core.refuse { request with provenance } claim reason evidence recordAttempt).1.map
        AdmissionDecision.withoutTrace =
      (core.refuse request claim reason evidence recordAttempt).1.map
        AdmissionDecision.withoutTrace := by
  simp only [refuse, refusal_provenance hpublisher]
  exact map_fst_answer (fst_finishRefusal_trace _ _)
    (AdmissionDecision.withoutTrace_withTrace _ _)

theorem map_fst_admitLocked_provenance
    (hpublisher : provenance.publisher = request.provenance.publisher)
    (hvalid : request.validate = .ok ())
    (hvalid' : ({ request with provenance } : AdmissionRequest).validate = .ok ()) :
    (core.admitLocked { request with provenance } claim).1.map AdmissionDecision.withoutTrace =
      (core.admitLocked request claim).1.map AdmissionDecision.withoutTrace := by
  rw [admitLocked, admitLocked, verdict_provenance hpublisher hvalid hvalid']
  cases core.verdict request claim with
  | refuse reason evidence recordAttempt | retired reason =>
    exact map_fst_refuse_provenance hpublisher _ _ _
  | replay decision => rfl
  | grant grant =>
    simp only [admission_provenance hpublisher]
    exact map_fst_answer (fst_finishAdmission_trace _ _)
      (AdmissionDecision.withoutTrace_withTrace _ _)

end EngineCore

/-- The stream of a request stands for what decides: it determines the content, and requests with
one stream that meet the contract are answered the same in every state, up to the trace. -/
theorem AdmissionRequest.fingerprintStream_decides {request request' : AdmissionRequest}
    (h : request.Addressable) (h' : request'.Addressable) :
    (request.fingerprintStream = request'.fingerprintStream ↔
      request.content = request'.content) ∧
    (request.fingerprintStream = request'.fingerprintStream →
      request.validate = .ok () → request'.validate = .ok () →
      ∀ (core : EngineCore) (claim : ClaimContext),
        (core.admitLocked request claim).1.map AdmissionDecision.withoutTrace =
          (core.admitLocked request' claim).1.map AdmissionDecision.withoutTrace) := by
  refine ⟨fingerprintStream_eq_iff h h', fun hstream hvalid hvalid' core claim => ?_⟩
  obtain ⟨provenance, hpublisher, rfl⟩ :=
    content_eq_iff.mp ((fingerprintStream_eq_iff h h').mp hstream)
  exact (EngineCore.map_fst_admitLocked_provenance hpublisher hvalid hvalid').symm

/-- A request for one resource and its retry under a fresh trace and boot. -/
theorem AdmissionRequest.fingerprintStream_retry :
    let request := SmallFabric.request 7 ⟨1, 2, 3⟩ [1]
    let retry := { request with provenance := { trace := 5, boot := 3 } }
    request.fingerprintStream = retry.fingerprintStream ∧
      ∀ (core : EngineCore) (claim : ClaimContext),
        (core.admitLocked request claim).1.map AdmissionDecision.withoutTrace =
          (core.admitLocked retry claim).1.map AdmissionDecision.withoutTrace := by
  refine ⟨rfl, (fingerprintStream_decides ⟨?_, ?_, ?_⟩ ⟨?_, ?_, ?_⟩).2 rfl ?_ ?_⟩ <;>
    decide +kernel

end AdmissionFabric
