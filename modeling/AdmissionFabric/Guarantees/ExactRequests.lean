import AdmissionFabric.Durable.RecordCodec
import AdmissionFabric.Ipc.Protocol

/-!
# The client request codecs are exact

Each of the four decoders that the coordinator runs on what a claimant sends accepts exactly the
encodings of the messages within its bounds: a round trip is the identity, a payload has one
spelling, and a payload that is cut short or continued is refused.
-/

namespace AdmissionFabric

open ByteDecoder LittleEndian

variable (truncated : Status) {α : Type}

/-! ### Messages within the bounds -/

/-- The version is current, and the frame bound permitted. -/
def HelloMessage.Encodable (message : HelloMessage) : Prop :=
  message.protocolVersion = AdmissionFabric.protocolVersion ∧
    message.maxFrame ≤ Limits.maxFrameBytes

/-- The nonce of the session is a 64-bit number. -/
def ClaimContext.Encodable (claim : ClaimContext) : Prop := claim.session < 2 ^ 64

/-- The lists fit their bounds. -/
def AdmissionRequest.Encodable (request : AdmissionRequest) : Prop :=
  request.resourceBindings.length ≤ Limits.maxResourceBindings ∧
    request.pathCandidates.length ≤ Limits.maxPathCandidates ∧
    request.reservationRefs.length ≤ Limits.maxReservationRefs

/-- The parts fit their bounds. -/
def AdmitMessage.Encodable (message : AdmitMessage) : Prop :=
  message.claim.Encodable ∧ message.request.Encodable

/-- The parts fit their fields. -/
def RevalidateMessage.Encodable (message : RevalidateMessage) : Prop :=
  message.claim.Encodable ∧ message.decision < 2 ^ 64

/-- The parts fit their fields. -/
def RevokeMessage.Encodable (message : RevokeMessage) : Prop :=
  message.claim.Encodable ∧ message.decision < 2 ^ 64

/-! ### Parts of messages -/

theorem ofCode_origin (o : OriginKind) : ofCode OriginKind.code OriginKind.all o.code = some o := by
  cases o <;> rfl

theorem ofCode_contention (p : ContentionPreference) :
    ofCode ContentionPreference.code ContentionPreference.all p.code = some p := by
  cases p <;> rfl

theorem ofCode_degradation (p : DegradePreference) :
    ofCode DegradePreference.code DegradePreference.all p.code = some p := by
  cases p <;> rfl

theorem reads_nat64_of_lt {v : Nat} (h : v < 2 ^ 64) (truncated : Status) :
    Reads (nat64 truncated) (putNat v) v := by
  have hreads := reads_nat64 v truncated
  rwa [Nat.mod_eq_of_lt h] at hreads

theorem reads_ofCode {code : α → UInt8} {values : List α} {a : α}
    (h : ofCode code values (code a) = some a) (unrecognised : Status) :
    Reads (orElse (ofCode code values (code a)) unrecognised) [] a :=
  h ▸ Reads.orElse a unrecognised

theorem parses_ofCode (code : α → UInt8) (values : List α) (c : UInt8) (unrecognised : Status) :
    Parses (orElse (ofCode code values c) unrecognised) fun used a =>
      used = [] ∧ code a = c := by
  refine (Parses.orElse _ unrecognised).mono fun used a ⟨hnil, hfind⟩ => ⟨hnil, ?_⟩
  simpa using List.find?_some hfind

theorem reads_claim {claim : ClaimContext} (h : claim.Encodable) :
    Reads claimDecoder (putClaim claim) claim :=
  (reads_enumeration (ofCode_origin _) _ _).bind <| .thenU64 <| .thenU64 <|
    (reads_nat64_of_lt h _).bind <| .thenU64 <| .thenU64 <| .thenU64 <| .thenU64 <| .thenU64 <|
    Reads.pure _

theorem parses_claim : Parses claimDecoder fun used claim =>
    used = putClaim claim ∧ claim.Encodable := by
  refine (parses_enumeration _ _ _ _).andThen fun _ => .thenU64 fun _ => .thenU64 fun _ =>
    (parses_nat64 _).bind fun _ _ ⟨heq, hsession⟩ => ?_
  subst heq
  exact .thenU64 fun _ => .thenU64 fun _ => .thenU64 fun _ => .thenU64 fun _ => .thenU64 fun _ =>
    Parses.pure ⟨rfl, hsession⟩

theorem reads_pairs {make : UInt64 → UInt64 → α} {first second : α → UInt64}
    (write : α → List UInt8) (hwrite : ∀ a, write a = putU64 (first a) ++ putU64 (second a))
    (hmake : ∀ a, make (first a) (second a) = a) (items : List α) (truncated : Status) :
    Reads (repeated (pairDecoder make truncated) items.length) (items.flatMap write) items := by
  have hitem : ∀ a, Reads (pairDecoder make truncated) (write a) a := by
    intro a
    have hreads : Reads (pairDecoder make truncated)
        (putU64 (first a) ++ (putU64 (second a) ++ [])) (make (first a) (second a)) :=
      (Reads.u64 _ _).bind ((Reads.u64 _ _).bind (Reads.pure _))
    rwa [List.append_nil, ← hwrite, hmake] at hreads
  have hitems := Reads.repeated hitem items
  rwa [List.map_id'] at hitems

theorem parses_pairs {make : UInt64 → UInt64 → α} (write : α → List UInt8)
    (hwrite : ∀ x y, write (make x y) = putU64 x ++ putU64 y) (n : Nat) (truncated : Status) :
    Parses (repeated (pairDecoder make truncated) n) fun used items =>
      used = items.flatMap write ∧ items.length = n := by
  have hitem : Parses (pairDecoder make truncated) fun used a => used = write a ∧ True :=
    .thenU64 fun _ => .thenU64 fun _ =>
      Parses.pure ⟨by simp [hwrite, putU64], trivial⟩
  exact (Parses.repeated hitem n).mono fun _ _ h => ⟨h.1, h.2.1⟩

theorem reads_expected (expected : AuthorityExpectation) (truncated : Status) :
    Reads (expectedDecoder truncated) (putExpected expected) expected :=
  .thenU64 <| .thenU64 <| .thenU64 <| .thenU64 <| .thenU64 <| .thenU64 <| .thenU64 <| .thenU64 <|
    Reads.pure _

theorem parses_expected : Parses (expectedDecoder truncated)
    fun used expected => used = putExpected expected :=
  .thenU64 fun _ => .thenU64 fun _ => .thenU64 fun _ => .thenU64 fun _ => .thenU64 fun _ =>
    .thenU64 fun _ => .thenU64 fun _ => .thenU64 fun _ =>
    Parses.pure rfl

theorem reads_provenance (provenance : Provenance) (truncated : Status) :
    Reads (provenanceDecoder truncated) (putProvenance provenance) provenance :=
  (reads_enumeration (ofCode_origin _) _ _).bind <| .thenU64 <| .thenU64 <| .thenU64 <| .thenU64 <|
    .thenU64 <| .thenU64 <| .thenU64 <| Reads.pure _

theorem parses_provenance : Parses (provenanceDecoder truncated)
    fun used provenance => used = putProvenance provenance :=
  (parses_enumeration _ _ _ _).andThen fun _ => .thenU64 fun _ => .thenU64 fun _ =>
    .thenU64 fun _ => .thenU64 fun _ => .thenU64 fun _ => .thenU64 fun _ => .thenU64 fun _ =>
    Parses.pure rfl

theorem reads_preferences (contention : ContentionPreference) (degradation : DegradePreference)
    (truncated : Status) : Reads (preferencesDecoder truncated)
      (putU8 contention.code ++ putU8 degradation.code) (contention, degradation) :=
  (Reads.u8 _ _).bind <| (Reads.u8 _ _).bind <| (reads_ofCode (ofCode_contention _) _).bind <|
    (reads_ofCode (ofCode_degradation _) _).bind <| Reads.pure _

theorem parses_preferences : Parses (preferencesDecoder truncated)
    fun used preferences => used = putU8 preferences.1.code ++ putU8 preferences.2.code := by
  refine (Parses.u8 _).andThen fun _ => (Parses.u8 _).andThen fun _ =>
    (parses_ofCode _ _ _ _).bind fun _ _ ⟨hnil, hcode⟩ =>
    (parses_ofCode _ _ _ _).bind fun _ _ ⟨hnil', hcode'⟩ => Parses.pure ?_
  subst hnil hnil' hcode hcode'
  simp [putU8]

/-! ### Messages -/

theorem reads_hello {message : HelloMessage} (h : message.Encodable) :
    Reads helloDecoder message.encode message :=
  (Reads.u16 _ _).bind <| (Reads.require (decide_eq_true h.1) _).bind <| .thenU64 <| .thenU64 <|
    (Reads.u32 _ _).bind <|
    (Reads.require (decide_eq_true h.2) _).bind <| .thenU64 <| Reads.pure _

theorem parses_hello : Parses helloDecoder fun used message =>
    used = message.encode ∧ message.Encodable := by
  refine (Parses.u16 _).andThen fun _ =>
    (Parses.require _ _).bind fun _ _ ⟨hnil, hversion⟩ => ?_
  subst hnil
  refine .thenU64 fun _ => .thenU64 fun _ =>
    (Parses.u32 _).andThen fun _ => (Parses.require _ _).bind fun _ _ ⟨hnil, hframe⟩ => ?_
  subst hnil
  exact .thenU64 fun _ =>
    Parses.pure ⟨rfl, of_decide_eq_true hversion, of_decide_eq_true hframe⟩

theorem reads_request {request : AdmissionRequest} (h : request.Encodable) :
    Reads requestDecoder request.encode request := by
  obtain ⟨hbindings, hcandidates, hrefs⟩ := h
  exact .thenU64 <| .thenU64 <| .thenU64 <| .thenU64 <| .thenU64 <| .thenU64 <| .thenU64 <|
    .thenU64 <| .thenU64 <| .thenU64 <| .thenU64 <| .thenU64 <|
    (reads_count hbindings (by decide) _ _).bind <|
    (reads_pairs putBinding (fun _ => rfl) (fun _ => rfl) _ _).bind <|
    (reads_count hcandidates (by decide) _ _).bind <|
    (reads_pairs putCandidate (fun _ => rfl) (fun _ => rfl) _ _).bind <| .thenU64 <|
    (reads_count hrefs (by decide) _ _).bind <|
    (reads_pairs putReservationRef (fun _ => rfl) (fun _ => rfl) _ _).bind <| .thenU64 <|
    .thenU64 <| (Reads.boolean _ _).bind <|
    (Reads.boolean _ _).bind <| (Reads.boolean _ _).bind <|
    (reads_preferences _ _ _).bind <| .thenU64 <| .thenU64 <| .thenU64 <|
    (reads_expected _ _).bind <| (reads_provenance _ _).bind <|
    Reads.pure _

theorem parses_request : Parses requestDecoder fun used request =>
    used = request.encode ∧ request.Encodable := by
  refine .thenU64 fun _ => .thenU64 fun _ => .thenU64 fun _ => .thenU64 fun _ => .thenU64 fun _ =>
    .thenU64 fun _ => .thenU64 fun _ => .thenU64 fun _ => .thenU64 fun _ => .thenU64 fun _ =>
    .thenU64 fun _ => .thenU64 fun _ => ?_
  refine (parses_count _ _ _).bind fun _ _ ⟨hcount, hbindings⟩ =>
    (parses_pairs putBinding (fun _ _ => rfl) _ _).bind
      fun _ bindings ⟨hlist, hlen⟩ => ?_
  subst hcount hlist hlen
  refine (parses_count _ _ _).bind fun _ _ ⟨hcount, hcandidates⟩ =>
    (parses_pairs putCandidate (fun _ _ => rfl) _ _).bind
      fun _ candidates ⟨hlist, hlen⟩ => ?_
  subst hcount hlist hlen
  refine .thenU64 fun _ => (parses_count _ _ _).bind fun _ _ ⟨hcount, hrefs⟩ =>
    (parses_pairs putReservationRef (fun _ _ => rfl) _ _).bind
      fun _ refs ⟨hlist, hlen⟩ => ?_
  subst hcount hlist hlen
  exact .thenU64 fun _ => .thenU64 fun _ =>
    (Parses.boolean _).andThen fun _ => (Parses.boolean _).andThen fun _ =>
    (Parses.boolean _).andThen fun _ => (parses_preferences _).andThen fun _ => .thenU64 fun _ =>
    .thenU64 fun _ => .thenU64 fun _ =>
    (parses_expected _).andThen fun _ =>
    (parses_provenance _).andThen fun _ => Parses.pure ⟨rfl, hbindings, hcandidates, hrefs⟩

theorem parses_admit : Parses admitDecoder fun used message =>
    used = message.encode ∧ message.Encodable := by
  refine parses_claim.bind fun _ _ ⟨heq, hclaim⟩ =>
    parses_request.bind fun _ _ ⟨heq', hrequest⟩ => Parses.pure ⟨?_, hclaim, hrequest⟩
  subst heq heq'
  rfl

theorem parses_revalidate : Parses revalidateDecoder fun used message =>
    used = message.encode ∧ message.Encodable := by
  refine parses_claim.bind fun _ _ ⟨heq, hclaim⟩ =>
    (parses_nat64 _).bind fun _ _ ⟨heq', hdecision⟩ => Parses.pure ⟨?_, hclaim, hdecision⟩
  subst heq heq'
  rfl

theorem parses_revoke : Parses revokeDecoder fun used message =>
    used = message.encode ∧ message.Encodable := by
  refine parses_claim.bind fun _ _ ⟨heq, hclaim⟩ =>
    (parses_nat64 _).bind fun _ _ ⟨heq', hdecision⟩ =>
    (parses_enumeration _ _ _ _).andThen fun _ => Parses.pure ⟨?_, hclaim, hdecision⟩
  subst heq heq'
  rfl

/-- Every codec of what a claimant sends is exact on the messages within its bounds. -/
theorem exact_requestCodecs :
    Exact HelloMessage.encode decodeHello HelloMessage.Encodable ∧
    Exact AdmitMessage.encode decodeAdmit AdmitMessage.Encodable ∧
    Exact RevalidateMessage.encode decodeRevalidate RevalidateMessage.Encodable ∧
    Exact RevokeMessage.encode decodeRevoke RevokeMessage.Encodable :=
  ⟨exact_of_reads (fun _ h => reads_hello h) parses_hello,
    exact_of_reads (fun _ h => (reads_claim h.1).bind <| (reads_request h.2).bind <| Reads.pure _)
      parses_admit,
    exact_of_reads (fun _ h => (reads_claim h.1).bind <| (reads_nat64_of_lt h.2 _).bind <|
      Reads.pure _) parses_revalidate,
    exact_of_reads (fun _ h => (reads_claim h.1).bind <| (reads_nat64_of_lt h.2 _).bind <|
      (reads_enumeration (ofCode_reason _) _ _).bind <| Reads.pure _) parses_revoke⟩

end AdmissionFabric
