import AdmissionFabric.Durable.Records
import AdmissionFabric.Library.ByteCodec

/-!
# Round trips of durable records

Every decoder reads back what the encoder wrote. Numbers that the coordinator counts come back
modulo `2 ^ 64`; everything else comes back unchanged. The lists of prepare and release records
are accepted up to `Limits.maxResourceBindings` items and refused above, so the two encoders can
produce payloads that their own decoders refuse.

Source: `src/durable/records.cpp`.
-/

namespace AdmissionFabric

open ByteDecoder LittleEndian

variable {bytes : List UInt8} {n bound : Nat} {policy : AdmissionPolicy} (record : RevocationRecord)
    {α : Type}

/-! ### Fields -/

theorem reads_nat64 (v : Nat) (truncated : Status) :
    Reads (nat64 truncated) (putNat v) (v % 2 ^ 64) :=
  Reads.word 8 v truncated

theorem reads_count (h : n ≤ bound) (hbound : bound < 2 ^ 32) (truncated tooLarge : Status) :
    Reads (count bound truncated tooLarge) (putCount n) n := by
  have hn : n % 256 ^ 4 = n := Nat.mod_eq_of_lt (by omega)
  have hword := Reads.word 4 n truncated
  rw [hn] at hword
  have hread : Reads (count bound truncated tooLarge) (leBytes 4 n ++ ([] ++ [])) n :=
    hword.bind ((Reads.require (decide_eq_true h) tooLarge).bind (Reads.pure n))
  rwa [List.append_nil, List.append_nil] at hread

theorem fails_count (h : bound < n) (hn : n < 2 ^ 32) (truncated tooLarge : Status) :
    Fails (count bound truncated tooLarge) (putCount n) tooLarge := by
  have hmod : n % 256 ^ 4 = n := Nat.mod_eq_of_lt (by omega)
  have hword := Reads.word 4 n truncated
  rw [hmod] at hword
  have hfail : Fails (require (decide (n ≤ bound)) tooLarge) [] tooLarge :=
    Fails.require (decide_eq_false (Nat.not_le.mpr h)) tooLarge
  have hread : Fails (count bound truncated tooLarge) (leBytes 4 n ++ ([] ++ [])) tooLarge :=
    Fails.bind hword (hfail.bind_left [])
  rwa [List.append_nil, List.append_nil] at hread

theorem reads_enumeration {code : α → UInt8} {values : List α} {a : α}
    (h : ofCode code values (code a) = some a) (truncated unrecognised : Status) :
    Reads (enumeration code values truncated unrecognised) (putU8 (code a)) a := by
  have hvalue : Reads (orElse (ofCode code values (code a)) unrecognised) [] a :=
    h ▸ Reads.orElse a unrecognised
  have hread : Reads (enumeration code values truncated unrecognised) (putU8 (code a) ++ []) a :=
    (Reads.u8 (code a) truncated).bind hvalue
  rwa [List.append_nil] at hread

theorem reads_text {v : List UInt8} (h : v.length ≤ Limits.maxStringBytes) (invalid : Status) :
    Reads (text invalid) (putText v) v := by
  have hn : v.length % 256 ^ 2 = v.length :=
    Nat.mod_eq_of_lt (Nat.lt_of_le_of_lt h (by decide))
  have hword := Reads.word 2 v.length invalid
  rw [hn] at hword
  have hitems := Reads.repeated (fun b => Reads.u8 b invalid) v
  rw [List.map_id'] at hitems
  have hbytes : v.flatMap (fun b => leBytes 1 b.toNat) = v := by
    simp [leBytes]
  rw [hbytes] at hitems
  rw [putText, if_neg (Nat.not_lt.mpr h)]
  exact hword.bind ((Reads.require (decide_eq_true h) invalid).bind hitems)

theorem parses_nat64 (truncated : Status) :
    Parses (nat64 truncated) fun used v => used = putNat v ∧ v < 2 ^ 64 :=
  Parses.word 8 truncated

theorem parses_count (bound : Nat) (truncated tooLarge : Status) :
    Parses (count bound truncated tooLarge) fun used n => used = putCount n ∧ n ≤ bound := by
  refine (Parses.word 4 truncated).bind fun used n ⟨heq, _⟩ => ?_
  refine (Parses.require _ tooLarge).bind fun used' _ ⟨hnil, hle⟩ => Parses.pure ?_
  subst hnil
  simpa [heq, putCount] using of_decide_eq_true hle

theorem parses_enumeration (code : α → UInt8) (values : List α) (truncated unrecognised : Status) :
    Parses (enumeration code values truncated unrecognised) fun used a =>
      used = putU8 (code a) := by
  refine (Parses.u8 truncated).andThen fun c => (Parses.orElse _ unrecognised).mono ?_
  rintro used a ⟨rfl, hfind⟩
  have hcode : code a = c := by simpa using List.find?_some hfind
  rw [List.append_nil, hcode, putU8]

theorem parses_text (invalid : Status) : Parses (text invalid) fun used v =>
    used = putText v ∧ v.length ≤ Limits.maxStringBytes := by
  refine (Parses.word 2 invalid).bind fun used n ⟨heq, _⟩ => ?_
  refine (Parses.require _ invalid).bind fun used' _ ⟨hnil, hle⟩ => ?_
  have hbyte : Parses (u8 invalid) fun used b => used = [b] ∧ True := by
    refine (Parses.u8 invalid).mono fun used b hb => ⟨?_, trivial⟩
    simp [hb, leBytes]
  refine (Parses.repeated hbyte n).mono ?_
  rintro bytes v ⟨hbytes, hlen, -⟩
  have hle : n ≤ Limits.maxStringBytes := of_decide_eq_true hle
  subst heq hnil hbytes hlen
  exact ⟨by simp [putText, Nat.not_lt.mpr hle], hle⟩

theorem decodeAll_of_fails {d : Decoder Status α} {s : Status} (h : Fails d bytes s) :
    decodeAll d bytes = .error s :=
  decode_of_fails h

/-! ### Records -/

theorem reads_boot {record : BootRecord} (h : record.product.length ≤ Limits.maxStringBytes) :
    Reads bootDecoder record.encode record := by
  exact (Reads.u16 _ _).bind <| (reads_text h _).bind <| .thenU64 <| .thenU64 <| .thenU64 <|
    Reads.pure _

theorem reads_policy (hqos : policy.allowedQos.length ≤ Limits.maxAllowedClasses)
    (hpri : policy.allowedPriorities.length ≤ Limits.maxAllowedClasses) :
    Reads policyDecoder policy.encode policy := by
  have hlist (ids : List UInt64) (t : Status) :
      Reads (repeated (u64 t) ids.length) (ids.flatMap putU64) ids := by
    have := Reads.repeated (fun id => Reads.u64 id t) ids
    rwa [List.map_id'] at this
  exact .thenU64 <| .thenU64 <| .thenU64 <| .thenU64 <|
    (Reads.u32 _ _).bind <| .thenU64 <|
    (Reads.boolean _ _).bind <| (Reads.boolean _ _).bind <| (Reads.boolean _ _).bind <|
    (Reads.boolean _ _).bind <| (Reads.boolean _ _).bind <|
    (reads_enumeration (ofCode_action _) _ _).bind <|
    (reads_count hqos (by decide) _ _).bind <| (hlist _ _).bind <|
    (reads_count hpri (by decide) _ _).bind <| (hlist _ _).bind <| (Reads.u32 _ _).bind <|
    (Reads.u32 _ _).bind <| (Reads.u32 _ _).bind <| .thenU64 <| Reads.pure _

theorem reads_amount (amount : ResourceId × Rate) (truncated : Status) :
    Reads (amountDecoder truncated) (putAmount amount) amount := by
  have h := (Reads.u64 amount.1 truncated).bind
    (f := fun resource => do let a ← u64 truncated; return (resource, a))
    ((Reads.u64 amount.2 truncated).map (amount.1, ·))
  exact h

theorem reads_prepare {record : PrepareRecord}
    (h : record.amounts.length ≤ Limits.maxResourceBindings) :
    Reads prepareDecoder record.encode { record with decision := record.decision % 2 ^ 64 } := by
  have hlist (t : Status) : Reads (repeated (amountDecoder t) record.amounts.length)
      (record.amounts.flatMap putAmount) record.amounts := by
    have := Reads.repeated (fun a => reads_amount a t) record.amounts
    rwa [List.map_id'] at this
  exact (reads_nat64 _ _).bind <| .thenU64 <| .thenU64 <| .thenU64 <| .thenU64 <| .thenU64 <|
    .thenU64 <| (reads_count h (by decide) _ _).bind <| (hlist _).bind <|
    Reads.pure _

theorem decodePrepare_encode_of_gt {record : PrepareRecord}
    (h : Limits.maxResourceBindings < record.amounts.length)
    (hlt : record.amounts.length < 2 ^ 32) :
    decodePrepare record.encode = .error (oversized "prepare record has too many amounts") := by
  refine decodeAll_of_fails ?_
  exact Fails.bind (reads_nat64 _ _) <| Fails.bind (Reads.u64 _ _) <| Fails.bind (Reads.u64 _ _) <|
    Fails.bind (Reads.u64 _ _) <| Fails.bind (Reads.u64 _ _) <| Fails.bind (Reads.u64 _ _) <|
    Fails.bind (Reads.u64 _ _) <| (fails_count h hlt _ _).bind_left _

theorem reads_decision (record : DecisionRecord) :
    Reads decisionDecoder record.encode
      { record with decision := record.decision % 2 ^ 64, audit := record.audit % 2 ^ 64 } := by
  exact (reads_nat64 _ _).bind <| (reads_nat64 _ _).bind <|
    (reads_enumeration (ofCode_outcome _) _ _).bind <| .thenU64 <| .thenU64 <| .thenU64 <|
    .thenU64 <| .thenU64 <| .thenU64 <| .thenU64 <| .thenU64 <| .thenU64 <| .thenU64 <| .thenU64 <|
    .thenU64 <| .thenU64 <| .thenU64 <| .thenU64 <| .thenU64 <|
    (reads_enumeration (ofCode_state _) _ _).bind <|
    (reads_enumeration (ofCode_reason _) _ _).bind <| (Reads.boolean _ _).bind <|
    (Reads.boolean _ _).bind <| Reads.pure _

theorem reads_entry (entry : LedgerEntry) (truncated : Status) :
    Reads (entryDecoder truncated) (putEntry entry)
      { entry with decision := entry.decision % 2 ^ 64 } :=
  (reads_nat64 _ _).bind <| .thenU64 <| .thenU64 <| .thenU64 <| .thenU64 <| .thenU64 <| .thenU64 <|
    (Reads.boolean _ _).bind <| Reads.pure _

theorem reads_release {record : ReleaseRecord}
    (h : record.released.length ≤ Limits.maxResourceBindings) :
    Reads releaseDecoder record.encode { record with
      decision := record.decision % 2 ^ 64
      released := record.released.map fun e => { e with decision := e.decision % 2 ^ 64 } } := by
  exact (reads_nat64 _ _).bind <| .thenU64 <|
    (reads_enumeration (ofCode_reason _) _ _).bind <| (reads_count h (by decide) _ _).bind <|
    (Reads.repeated (fun e => reads_entry e _) _).bind <| Reads.pure _

theorem reads_revocation :
    Reads revocationDecoder record.encode
      { record with decision := record.decision % 2 ^ 64, audit := record.audit % 2 ^ 64 } := by
  exact (reads_nat64 _ _).bind <| .thenU64 <| (reads_nat64 _ _).bind <|
    (reads_enumeration (ofCode_reason _) _ _).bind <|
    (reads_enumeration (ofCode_state _) _ _).bind <| Reads.pure _

theorem reads_auditMark (record : AuditMarkRecord) :
    Reads auditMarkDecoder record.encode
      { record with sequence := record.sequence % 2 ^ 64, frames := record.frames % 2 ^ 64 } := by
  exact (reads_nat64 _ _).bind <| .thenU64 <| (reads_nat64 _ _).bind <| Reads.pure _

/-! ### Sizes -/

theorem length_encode_prepare (record : PrepareRecord) :
    record.encode.length = 60 + 16 * record.amounts.length := by
  have hlist : (record.amounts.flatMap putAmount).length = 16 * record.amounts.length := by
    simp [putAmount, putU64, List.length_flatMap, Nat.mul_comm]
  simp [PrepareRecord.encode, putNat, putU64, putCount, hlist]
  omega

theorem length_encode_decision (record : DecisionRecord) : record.encode.length = 149 := by
  simp [DecisionRecord.encode, putNat, putU64, putU8, putBool]

theorem length_encode_release (record : ReleaseRecord) :
    record.encode.length = 21 + 57 * record.released.length := by
  have hlist : (record.released.flatMap putEntry).length = 57 * record.released.length := by
    simp [putEntry, putU64, putNat, putBool, List.length_flatMap, Nat.mul_comm]
  simp [ReleaseRecord.encode, putNat, putU64, putU8, putCount, hlist]
  omega

theorem length_encode_revocation : record.encode.length = 26 := by
  simp [RevocationRecord.encode, putNat, putU64, putU8]

end AdmissionFabric
