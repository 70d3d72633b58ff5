import AdmissionFabric.Guarantees.Framing
import AdmissionFabric.Guarantees.PathAccounting
import AdmissionFabric.Guarantees.SessionLifetime

/-!
# Claims from the wire

An `Admit` message carries the claim under which the request is admitted, and the server passes it
to the engine as it was decoded. The origin of a claim is one of its fields. `check_fence` asks a
claim for its session unless the origin is that of a call within the process and the configuration,
as by default, accepts such calls: a peer that writes this origin into its message needs no session.
-/

namespace AdmissionFabric

namespace EngineCore

variable {core : EngineCore} {request : AdmissionRequest} {claim : ClaimContext}

/-- A claim of this epoch and incarnation names a live session of its publisher and boot. -/
def BoundTo (core : EngineCore) (claim : ClaimContext) : Prop :=
  (∃ record, core.sessions[claim.session]? = some record ∧ record.publisher = claim.publisher ∧
    record.boot = claim.boot) ∧ claim.epoch = core.epoch ∧ claim.incarnation = core.incarnation

/-- Whether `check_fence` takes a claim for one from within the process. -/
def TakenInProcess (core : EngineCore) (claim : ClaimContext) : Prop :=
  claim.origin = .inProcess ∧ core.config.acceptInProcessClaims = true

theorem boundTo_of_checkFence (h : core.checkFence claim = .ok ())
    (hremote : ¬ core.TakenInProcess claim) : core.BoundTo claim := by
  unfold TakenInProcess at hremote
  simp only [checkFence, if_neg hremote, check_bind_eq_ok_iff, rejectIf_eq_ok_iff, not_not,
    UInt64.not_lt] at h
  obtain ⟨-, hnew, hold, hincarnation, -, hsession⟩ := h
  refine ⟨?_, UInt64.le_antisymm hold hnew, hincarnation⟩
  unfold sessionMatches at hsession
  split at hsession
  · cases hsession
  · rename_i record hrecord
    simp only [rejectIf_eq_ok_iff, not_or, not_not] at hsession
    exact ⟨record, hrecord, hsession⟩

/-- What can be said of a message ahead of its evaluation that keeps it from the ledger unless its
claim is bound: a claim that is taken for one from within the process comes with an invalid request,
or the fence refuses it, or it is bound anyway. -/
def Guards (core : EngineCore) (message : AdmitMessage) : Prop :=
  core.TakenInProcess message.claim → message.request.validate ≠ .ok () ∨
    core.checkFence message.claim ≠ .ok () ∨ core.BoundTo message.claim

theorem ledger_finishRefusal (core : EngineCore) (decision : AdmissionDecision)
    (request : AdmissionRequest) (recordAttempt : Bool) :
    (core.finishRefusal decision request recordAttempt).2.ledger = core.ledger := by
  generalize hcall : core.finishRefusal decision request recordAttempt = outcome
  cases finishRefusal_effect hcall <;> rfl

theorem exists_grant_of_ledger_ne (h : (core.admitLocked request claim).2.ledger ≠ core.ledger) :
    ∃ grant, core.verdict request claim = .grant grant := by
  unfold admitLocked at h
  cases hverdict : core.verdict request claim with
  | refuse reason evidence recordAttempt =>
    simp only [hverdict, refuse, answer_snd, ledger_finishRefusal] at h
    exact absurd rfl h
  | retired reason =>
    simp only [hverdict, refuse, answer_snd, ledger_finishRefusal] at h
    exact absurd rfl h
  | replay decision =>
    simp only [hverdict] at h
    exact absurd rfl h
  | grant grant => exact ⟨grant, rfl⟩

theorem boundTo_of_guards {message : AdmitMessage} (hguards : core.Guards message)
    (h : (core.admitLocked message.request message.claim).2.ledger ≠ core.ledger) :
    core.BoundTo message.claim := by
  obtain ⟨grant, hverdict⟩ := exists_grant_of_ledger_ne h
  obtain ⟨hvalid, hfence, -⟩ := verdict_eq_grant hverdict
  by_cases hlocal : core.TakenInProcess message.claim
  · rcases hguards hlocal with hinvalid | hfenced | hbound
    · exact absurd hvalid hinvalid
    · exact absurd hfence hfenced
    · exact hbound
  · exact boundTo_of_checkFence hfence hlocal

end EngineCore

/-! ### Messages -/

open EngineCore

theorem core_handleMessage_of_kind (maxFrame : UInt32) (core : EngineCore) (stream : Stream)
    {frame : WireFrame} (hkind : frame.kind = .admitMessage) :
    (handleMessage maxFrame core stream frame).core = match decodeAdmit frame.payload with
      | .error _ => core
      | .ok message => (core.admitLocked message.request message.claim).2 := by
  simp only [handleMessage, hkind, Connection.core_answerCall]
  cases decodeAdmit frame.payload <;> rfl

/-- An `Admit` message that the loop reads changes the ledger under a bound claim only, if the
message that it decodes to is guarded. -/
theorem admit_bound_of_guards {maxFrame : UInt32} {core : EngineCore} {stream stream' : Stream}
    {frame : WireFrame} {stop : StopSeen} (hstop : stop ≠ .atHead)
    (hread : readMessage stream maxFrame = (.ok frame, stream'))
    (hkind : frame.kind = .admitMessage)
    (hguards : ∀ message, decodeAdmit frame.payload = .ok message → core.Guards message)
    (h : (handleTurn maxFrame stop core stream).core.ledger ≠ core.ledger) :
    ∃ message, decodeAdmit frame.payload = .ok message ∧ core.BoundTo message.claim := by
  simp only [handleTurn, if_neg hstop, hread, core_handleMessage_of_kind _ _ _ hkind] at h
  cases hdecode : decodeAdmit frame.payload with
  | error status =>
    rw [hdecode] at h
    exact absurd rfl h
  | ok message =>
    rw [hdecode] at h
    exact ⟨message, rfl, boundTo_of_guards (hguards message hdecode) h⟩

/-! ### Runs -/

namespace RemoteFencing

open SmallFabric

/-- A ready engine with one session. -/
def readyCore : EngineCore :=
  (EngineCore.fresh {}).performAll (announce [known 1 1 100] ++ [.registerSession 7 7])

/-- A request for 20 units under a claim. -/
def message (claim : ClaimContext) : AdmitMessage := ⟨claim, request 1 ⟨1, 20, 20⟩ [1]⟩

/-- The claim of the peer that the session belongs to. -/
def boundClaim : ClaimContext :=
  { origin := .claimant, publisher := 7, boot := 7, session := 1, epoch := 1 }

/-- The frame of a request. -/
def frameOf (claim : ClaimContext) : WireFrame := ⟨.admitMessage, 0, (message claim).encode⟩

/-- The frame on the wire. -/
def streamOf (claim : ClaimContext) : Stream := { arrivals := [.ok (frameOf claim).encode] }

/-- The turn of the server on it. -/
def turnOf (claim : ClaimContext) : LoopTurn :=
  handleTurn Limits.maxFrameBytes .never readyCore (streamOf claim)

theorem read_streamOf {claim : ClaimContext}
    (h : (frameOf claim).payload.length ≤ Limits.maxFrameBytes.toNat) :
    ∃ stream', readMessage (streamOf claim) Limits.maxFrameBytes =
      (.ok (frameOf claim), stream') := by
  have hdelivers : (streamOf claim).Delivers ((frameOf claim).encode ++ []) := by
    have hne := (frameOf claim).encode_ne_nil
    exact ⟨rfl, [(frameOf claim).encode], rfl, List.forall_mem_singleton.mpr hne, by simp⟩
  exact ⟨_, Prod.fst_eq_iff.mp (readMessage_of_delivers h hdelivers).1⟩

theorem core_turnOf {claim : ClaimContext}
    (h : (frameOf claim).payload.length ≤ Limits.maxFrameBytes.toNat)
    (hdecode : decodeAdmit (message claim).encode = .ok (message claim)) :
    (turnOf claim).core = (readyCore.admitLocked (message claim).request claim).2 := by
  have hdecode' : decodeAdmit (frameOf claim).payload = .ok (message claim) := hdecode
  obtain ⟨stream', hread⟩ := read_streamOf h
  rw [turnOf, handleTurn, if_neg (by decide), hread]
  rw [core_handleMessage_of_kind _ _ _ rfl, hdecode']
  rfl

/-- The peer with the session is admitted, and its claim is bound. -/
theorem admitted_bound :
    (turnOf boundClaim).core.ledger.admitted 1 = 20 ∧
      ∃ message, decodeAdmit (frameOf boundClaim).payload = .ok message ∧
        readyCore.BoundTo message.claim := by
  have hlength : (frameOf boundClaim).payload.length ≤ Limits.maxFrameBytes.toNat := by
    decide +kernel
  have hdecode : decodeAdmit (message boundClaim).encode = .ok (message boundClaim) := by
    decide +kernel
  have hadmitted : (turnOf boundClaim).core.ledger.admitted 1 = 20 := by
    rw [core_turnOf hlength hdecode]
    decide +kernel
  have hchanged : (turnOf boundClaim).core.ledger ≠ readyCore.ledger := by
    intro heq
    rw [heq] at hadmitted
    exact absurd hadmitted (by decide +kernel)
  unfold turnOf at hchanged
  have hremote : ∀ message, decodeAdmit (frameOf boundClaim).payload = .ok message →
      readyCore.Guards message := by
    intro decoded hdecoded hlocal
    obtain rfl := Except.ok.inj (hdecode.symm.trans hdecoded)
    exact absurd hlocal.1 (by decide)
  obtain ⟨stream', hread⟩ := read_streamOf hlength
  exact ⟨hadmitted, admit_bound_of_guards (by decide) hread rfl hremote hchanged⟩

/-- A peer without a session is admitted as well, if it says that it calls from within the
process. -/
theorem admitted_unbound :
    (readMessage (streamOf {}) Limits.maxFrameBytes).1 = .ok (frameOf {}) ∧
      decodeAdmit (frameOf {}).payload = .ok (message {}) ∧
      readyCore.sessions[(message {}).claim.session]? = none ∧
      readyCore.ledger.admitted 1 = 0 ∧ (turnOf {}).core.ledger.admitted 1 = 20 := by
  have hlength : (frameOf {}).payload.length ≤ Limits.maxFrameBytes.toNat := by decide +kernel
  have hdecode : decodeAdmit (message {}).encode = .ok (message {}) := by decide +kernel
  obtain ⟨stream', hread⟩ := read_streamOf hlength
  refine ⟨congrArg Prod.fst hread, hdecode, by decide +kernel, by decide +kernel, ?_⟩
  rw [core_turnOf hlength hdecode]
  decide +kernel

end RemoteFencing

end AdmissionFabric
