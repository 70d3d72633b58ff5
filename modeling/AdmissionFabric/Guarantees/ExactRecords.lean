import AdmissionFabric.Durable.RecordCodec

/-!
# The durable record codecs are exact

Recovery trusts every byte of a payload whose checksum is right. Each of the seven decoders accepts
exactly the encodings of the records within its bounds: a round trip is the identity, a payload has
one spelling, and a payload that is cut short or continued is refused.
-/

namespace AdmissionFabric

open ByteDecoder LittleEndian

variable (truncated : Status)

/-! ### Records within the bounds -/

/-- The product name fits its bound. -/
def BootRecord.Encodable (record : BootRecord) : Prop :=
  record.product.length ≤ Limits.maxStringBytes

/-- The lists fit their bounds. -/
def AdmissionPolicy.Encodable (policy : AdmissionPolicy) : Prop :=
  policy.allowedQos.length ≤ Limits.maxAllowedClasses ∧
    policy.allowedPriorities.length ≤ Limits.maxAllowedClasses

/-- The identity of the decision is a 64-bit number. -/
def PrepareRecord.Encodable (record : PrepareRecord) : Prop :=
  record.decision < 2 ^ 64 ∧ record.amounts.length ≤ Limits.maxResourceBindings

/-- The numbers fit their fields. -/
def DecisionRecord.Encodable (record : DecisionRecord) : Prop :=
  record.decision < 2 ^ 64 ∧ record.audit < 2 ^ 64

/-- The list and the identities fit their fields. -/
def ReleaseRecord.Encodable (record : ReleaseRecord) : Prop :=
  record.decision < 2 ^ 64 ∧ record.released.length ≤ Limits.maxResourceBindings ∧
    ∀ entry ∈ record.released, entry.decision < 2 ^ 64

/-- The numbers fit their fields. -/
def RevocationRecord.Encodable (record : RevocationRecord) : Prop :=
  record.decision < 2 ^ 64 ∧ record.audit < 2 ^ 64

/-- The numbers fit their fields. -/
def AuditMarkRecord.Encodable (record : AuditMarkRecord) : Prop :=
  record.sequence < 2 ^ 64 ∧ record.frames < 2 ^ 64

/-! ### What the decoders accept -/

theorem parses_boot : Parses bootDecoder fun used record =>
    used = record.encode ∧ record.Encodable := by
  refine (Parses.u16 _).andThen fun _ => (parses_text _).bind fun _ product ⟨heq, hlen⟩ => ?_
  subst heq
  exact .thenU64 fun _ => .thenU64 fun _ => .thenU64 fun _ =>
    Parses.pure ⟨rfl, hlen⟩

theorem parses_ids (n : Nat) (truncated : Status) : Parses (repeated (u64 truncated) n)
    fun used ids => used = ids.flatMap putU64 ∧ ids.length = n := by
  have hitem : Parses (u64 truncated) fun used id => used = putU64 id ∧ True :=
    (Parses.u64 truncated).mono fun _ _ h => ⟨h, trivial⟩
  exact (Parses.repeated hitem n).mono fun _ _ h => ⟨h.1, h.2.1⟩

theorem parses_policy : Parses policyDecoder fun used policy =>
    used = policy.encode ∧ policy.Encodable := by
  refine .thenU64 fun _ => .thenU64 fun _ => .thenU64 fun _ => .thenU64 fun _ =>
    (Parses.u32 _).andThen fun _ => .thenU64 fun _ =>
    (Parses.boolean _).andThen fun _ => (Parses.boolean _).andThen fun _ =>
    (Parses.boolean _).andThen fun _ => (Parses.boolean _).andThen fun _ =>
    (Parses.boolean _).andThen fun _ => (parses_enumeration _ _ _ _).andThen fun _ => ?_
  refine (parses_count _ _ _).bind fun _ _ ⟨hcount, hqos⟩ =>
    (parses_ids _ _).bind fun _ qos ⟨hlist, hlen⟩ => ?_
  subst hcount hlist hlen
  refine (parses_count _ _ _).bind fun _ _ ⟨hcount, hpriorities⟩ =>
    (parses_ids _ _).bind fun _ priorities ⟨hlist, hlen⟩ => ?_
  subst hcount hlist hlen
  exact (Parses.u32 _).andThen fun _ => (Parses.u32 _).andThen fun _ =>
    (Parses.u32 _).andThen fun _ => .thenU64 fun _ =>
    Parses.pure ⟨rfl, hqos, hpriorities⟩

theorem parses_amount :
    Parses (amountDecoder truncated) fun used amount => used = putAmount amount ∧ True :=
  (Parses.u64 truncated).andThen fun _ => (Parses.u64 truncated).andThen fun _ =>
    Parses.pure ⟨by simp [putAmount, putU64], trivial⟩

theorem parses_prepare : Parses prepareDecoder fun used record =>
    used = record.encode ∧ record.Encodable := by
  refine (parses_nat64 _).bind fun _ _ ⟨heq, hdecision⟩ => ?_
  subst heq
  refine .thenU64 fun _ => .thenU64 fun _ => .thenU64 fun _ => .thenU64 fun _ => .thenU64 fun _ =>
    .thenU64 fun _ => ?_
  refine (parses_count _ _ _).bind fun _ _ ⟨hcount, hle⟩ =>
    (Parses.repeated (parses_amount _) _).bind fun _ amounts ⟨hlist, hlen, _⟩ => ?_
  subst hcount hlist hlen
  exact Parses.pure ⟨rfl, hdecision, hle⟩

theorem parses_decision : Parses decisionDecoder fun used record =>
    used = record.encode ∧ record.Encodable := by
  refine (parses_nat64 _).bind fun _ _ ⟨heq, hdecision⟩ => ?_
  subst heq
  refine (parses_nat64 _).bind fun _ _ ⟨heq, haudit⟩ => ?_
  subst heq
  exact (parses_enumeration _ _ _ _).andThen fun _ => .thenU64 fun _ => .thenU64 fun _ =>
    .thenU64 fun _ => .thenU64 fun _ => .thenU64 fun _ => .thenU64 fun _ => .thenU64 fun _ =>
    .thenU64 fun _ => .thenU64 fun _ => .thenU64 fun _ => .thenU64 fun _ => .thenU64 fun _ =>
    .thenU64 fun _ => .thenU64 fun _ => .thenU64 fun _ => .thenU64 fun _ =>
    (parses_enumeration _ _ _ _).andThen fun _ =>
    (parses_enumeration _ _ _ _).andThen fun _ => (Parses.boolean _).andThen fun _ =>
    (Parses.boolean _).andThen fun _ => Parses.pure ⟨rfl, hdecision, haudit⟩

theorem parses_entry : Parses (entryDecoder truncated) fun used entry =>
    used = putEntry entry ∧ entry.decision < 2 ^ 64 := by
  refine (parses_nat64 _).bind fun _ _ ⟨heq, hdecision⟩ => ?_
  subst heq
  exact .thenU64 fun _ => .thenU64 fun _ => .thenU64 fun _ => .thenU64 fun _ => .thenU64 fun _ =>
    .thenU64 fun _ =>
    (Parses.boolean _).andThen fun _ => Parses.pure ⟨rfl, hdecision⟩

theorem parses_release : Parses releaseDecoder fun used record =>
    used = record.encode ∧ record.Encodable := by
  refine (parses_nat64 _).bind fun _ _ ⟨heq, hdecision⟩ => ?_
  subst heq
  refine .thenU64 fun _ => (parses_enumeration _ _ _ _).andThen fun _ =>
    (parses_count _ _ _).bind fun _ _ ⟨hcount, hle⟩ =>
    (Parses.repeated (parses_entry _) _).bind fun _ entries ⟨hlist, hlen, hentries⟩ => ?_
  subst hcount hlist hlen
  exact Parses.pure ⟨rfl, hdecision, hle, hentries⟩

theorem parses_revocation : Parses revocationDecoder fun used record =>
    used = record.encode ∧ record.Encodable := by
  refine (parses_nat64 _).bind fun _ _ ⟨heq, hdecision⟩ => ?_
  subst heq
  refine .thenU64 fun _ => (parses_nat64 _).bind fun _ _ ⟨heq, haudit⟩ => ?_
  subst heq
  exact (parses_enumeration _ _ _ _).andThen fun _ => (parses_enumeration _ _ _ _).andThen fun _ =>
    Parses.pure ⟨rfl, hdecision, haudit⟩

theorem parses_auditMark : Parses auditMarkDecoder fun used record =>
    used = record.encode ∧ record.Encodable := by
  refine (parses_nat64 _).bind fun _ _ ⟨heq, hsequence⟩ => ?_
  subst heq
  refine .thenU64 fun _ => (parses_nat64 _).bind fun _ _ ⟨heq, hframes⟩ => ?_
  subst heq
  exact Parses.pure ⟨rfl, hsequence, hframes⟩

/-! ### The codecs -/

/-- Every durable record codec is exact on the records within its bounds. -/
theorem exact_recordCodecs :
    Exact BootRecord.encode decodeBoot BootRecord.Encodable ∧
    Exact AdmissionPolicy.encode decodePolicy AdmissionPolicy.Encodable ∧
    Exact PrepareRecord.encode decodePrepare PrepareRecord.Encodable ∧
    Exact DecisionRecord.encode decodeDecisionRecord DecisionRecord.Encodable ∧
    Exact ReleaseRecord.encode decodeRelease ReleaseRecord.Encodable ∧
    Exact RevocationRecord.encode decodeRevocation RevocationRecord.Encodable ∧
    Exact AuditMarkRecord.encode decodeAuditMark AuditMarkRecord.Encodable := by
  -- a counted number below 2 ^ 64 comes back as it is
  refine ⟨exact_of_reads (fun _ h => reads_boot h) parses_boot,
    exact_of_reads (fun _ h => reads_policy h.1 h.2) parses_policy,
    exact_of_reads (fun record h => ?_) parses_prepare,
    exact_of_reads (fun record h => ?_) parses_decision,
    exact_of_reads (fun record h => ?_) parses_release,
    exact_of_reads (fun record h => ?_) parses_revocation,
    exact_of_reads (fun record h => ?_) parses_auditMark⟩
  · have hreads := reads_prepare h.2
    rwa [Nat.mod_eq_of_lt h.1] at hreads
  · have hreads := reads_decision record
    rwa [Nat.mod_eq_of_lt h.1, Nat.mod_eq_of_lt h.2] at hreads
  · have hreads := reads_release h.2.1
    have hentries : record.released.map (fun e => { e with decision := e.decision % 2 ^ 64 }) =
        record.released := by
      refine (List.map_congr_left fun e he => ?_).trans (List.map_id _)
      rw [Nat.mod_eq_of_lt (h.2.2 e he)]
      rfl
    rwa [Nat.mod_eq_of_lt h.1, hentries] at hreads
  · have hreads := reads_revocation record
    rwa [Nat.mod_eq_of_lt h.1, Nat.mod_eq_of_lt h.2] at hreads
  · have hreads := reads_auditMark record
    rwa [Nat.mod_eq_of_lt h.1, Nat.mod_eq_of_lt h.2] at hreads

end AdmissionFabric
