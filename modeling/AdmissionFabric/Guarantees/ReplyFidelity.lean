import AdmissionFabric.Durable.RecordCodec
import AdmissionFabric.Engine.AuthorityVector
import AdmissionFabric.Engine.SmallFabric
import AdmissionFabric.Ipc.Protocol

/-!
# What the reply codecs carry

A reply of the coordinator reaches the claimant as it was sent exactly when every text of its
explanation fits on the wire, its explanation was not truncated (or the truncation is one that the
decoder happens to repeat) and its authority vector was not truncated. The status reply loses the
infeasible resources and truncates sizes to 32 bits.
-/

namespace AdmissionFabric

open ByteDecoder LittleEndian

variable {bytes : List UInt8} {status : FabricStatus} {s : String} {result : RevalidationResult}
    {decision : AdmissionDecision}

/-! ### Texts -/

/-- Every character of the text is a byte. -/
def IsBytes (s : String) : Prop := ∀ c ∈ s.toList, c.toNat < 256

theorem isBytes_of_all (h : s.toList.all (fun c => decide (c.toNat < 256)) = true) : IsBytes s :=
  fun c hc => of_decide_eq_true (List.all_eq_true.mp h c hc)

theorem length_asciiBytes (s : String) : (asciiBytes s).length = s.length := by
  rw [asciiBytes, List.length_map, String.length_toList]

theorem length_textOf (bytes : List UInt8) : (textOf bytes).length = bytes.length := by
  simp [textOf]

theorem textOf_asciiBytes (h : IsBytes s) : textOf (asciiBytes s) = s := by
  have hchars : (asciiBytes s).map (fun b => Char.ofNat b.toNat) = s.toList := by
    rw [asciiBytes, List.map_map]
    refine (List.map_congr_left fun c hc => ?_).trans (List.map_id _)
    have hlt : c.toNat < 2 ^ 8 := h c hc
    rw [Function.comp_apply, UInt8.toNat_ofNat', Nat.mod_eq_of_lt hlt, Char.ofNat_toNat]
    rfl
  rw [textOf, hchars, String.ofList_toList]

theorem isBytes_bounded (h : IsBytes s) (limit : Nat) : IsBytes (bounded s limit) := by
  unfold bounded
  split
  · exact h
  · intro c hc
    rw [String.toList_ofList] at hc
    exact h c (List.mem_of_mem_take hc)

theorem length_bounded_le (s : String) (limit : Nat) : (bounded s limit).length ≤ limit := by
  unfold bounded
  split
  · assumption
  · simp

theorem bounded_of_le {limit : Nat} (h : s.length ≤ limit) : bounded s limit = s :=
  if_pos h

theorem reads_string (hbytes : IsBytes s) (hlen : s.length ≤ Limits.maxStringBytes)
    (invalid : Status) : Reads (stringDecoder invalid) (putString s) s := by
  have hreads := (reads_text (by rwa [length_asciiBytes]) invalid).map textOf
  rwa [textOf_asciiBytes hbytes] at hreads

theorem returns_string (invalid : Status) :
    Returns (stringDecoder invalid) fun s => s.length ≤ Limits.maxStringBytes := by
  refine ((parses_text invalid).returns fun _ _ h => h.2).bind fun bytes hbytes => Returns.pure ?_
  rwa [length_textOf]

/-! ### Explanations -/

namespace Explanation

variable {constraints : List BindingConstraint} {explanation : Explanation}

/-- The explanations that can be built by adding constraints under some bounds. -/
inductive Built : Explanation → Prop
  | configured (maxConstraints maxBytes : Nat) :
      Built (({} : Explanation).configure maxConstraints maxBytes)
  | added {explanation : Explanation} {constraint : BindingConstraint} (h : Built explanation)
      (hsubject : IsBytes constraint.subject) (hdetail : IsBytes constraint.detail)
      (hid : constraint.subjectId < 2 ^ 64) : Built (explanation.add constraint)

/-- What a constraint counts towards the bound on bytes. -/
def cost (constraint : BindingConstraint) : Nat :=
  constraint.subject.length + constraint.detail.length + 96

/-- A constraint as `add` stores it. -/
structure Stored (constraint : BindingConstraint) : Prop where
  subject_bytes : IsBytes constraint.subject
  detail_bytes : IsBytes constraint.detail
  subject_le : constraint.subject.length ≤ Limits.maxStringBytes
  detail_le : constraint.detail.length ≤ Limits.maxDetailBytes
  id_lt : constraint.subjectId < 2 ^ 64

/-- What holds of every explanation that is built by `add`. -/
structure Sized (explanation : Explanation) : Prop where
  maxConstraints_le : explanation.maxConstraints ≤ Limits.maxExplanationConstraints
  maxBytes_le : explanation.maxBytes ≤ Limits.maxExplanationBytes
  length_le : explanation.constraints.length ≤ explanation.maxConstraints
  bytes_le : explanation.bytes ≤ explanation.maxBytes
  bytes_eq : explanation.bytes = (explanation.constraints.map cost).sum
  stored : ∀ constraint ∈ explanation.constraints, Stored constraint
  omitted_eq : explanation.truncated = false → explanation.omitted = 0

theorem Built.sized (h : Built explanation) : explanation.Sized := by
  induction h with
  | configured maxConstraints maxBytes =>
    exact ⟨Nat.min_le_right _ _, Nat.min_le_right _ _, Nat.zero_le _, Nat.zero_le _, rfl, nofun,
      fun _ => rfl⟩
  | @added explanation constraint _ hsubject hdetail hid ih =>
    have hstored : Stored { constraint with
        subject := bounded constraint.subject Limits.maxStringBytes
        detail := bounded constraint.detail Limits.maxDetailBytes } :=
      ⟨isBytes_bounded hsubject _, isBytes_bounded hdetail _, length_bounded_le _ _,
        length_bounded_le _ _, hid⟩
    unfold add
    simp only
    split
    · exact ⟨ih.maxConstraints_le, ih.maxBytes_le, ih.length_le, ih.bytes_le, ih.bytes_eq,
        ih.stored, nofun⟩
    · rename_i hfits
      rw [not_or, Nat.not_le, Nat.not_lt] at hfits
      refine ⟨ih.maxConstraints_le, ih.maxBytes_le, ?_, hfits.2, ?_, ?_, ih.omitted_eq⟩
      · rw [List.length_append]
        exact hfits.1
      · simp [cost, ih.bytes_eq]
      · intro c hc
        rcases List.mem_append.mp hc with hc | hc
        · exact ih.stored c hc
        · exact List.mem_singleton.mp hc ▸ hstored

theorem foldl_add_of_fits (hstored : ∀ constraint ∈ constraints, Stored constraint)
    (hlength : explanation.constraints.length + constraints.length ≤ explanation.maxConstraints)
    (hbytes : explanation.bytes + (constraints.map cost).sum ≤ explanation.maxBytes) :
    constraints.foldl add explanation = { explanation with
      constraints := explanation.constraints ++ constraints
      bytes := explanation.bytes + (constraints.map cost).sum } := by
  induction constraints generalizing explanation with
  | nil => simp
  | cons constraint rest ih =>
    obtain ⟨hfirst, hrest⟩ := List.forall_mem_cons.mp hstored
    simp only [List.length_cons, List.map_cons, List.sum_cons] at hlength hbytes
    have hadd : explanation.add constraint = { explanation with
        constraints := explanation.constraints ++ [constraint]
        bytes := explanation.bytes + cost constraint } := by
      have hroom : ¬ (explanation.maxConstraints ≤ explanation.constraints.length ∨
          explanation.maxBytes < explanation.bytes + cost constraint) := by omega
      simp only [add, bounded_of_le hfirst.subject_le, bounded_of_le hfirst.detail_le]
      exact if_neg hroom
    rw [List.foldl_cons, hadd, ih hrest (by simp; omega) (by simp; omega)]
    simp [Nat.add_assoc]

/-- An explanation with the largest bounds that has some constraints. -/
def ofConstraints (constraints : List BindingConstraint) : Explanation :=
  { constraints, bytes := (constraints.map cost).sum }

/-- What the decoder makes of an explanation whose texts fit. -/
def echo (explanation : Explanation) : Explanation :=
  if explanation.truncated then (ofConstraints explanation.constraints).add {}
  else ofConstraints explanation.constraints

/-- Two explanations with the same content; their bounds may differ. -/
def SameAs (explanation explanation' : Explanation) : Prop :=
  explanation'.constraints = explanation.constraints ∧ explanation'.bytes = explanation.bytes ∧
    explanation'.truncated = explanation.truncated ∧ explanation'.omitted = explanation.omitted

/-- Every text fits on the wire. -/
def Fits (explanation : Explanation) : Prop :=
  ∀ constraint ∈ explanation.constraints, constraint.detail.length ≤ Limits.maxStringBytes

theorem SameAs.fits {explanation' : Explanation} (h : explanation.SameAs explanation')
    (hfits : explanation'.Fits) : explanation.Fits :=
  fun constraint hmem => hfits constraint (h.1 ▸ hmem)

/-- Every text fits on the wire, and a truncation is one that adding an empty constraint repeats. -/
def Survives (explanation : Explanation) : Prop :=
  explanation.Fits ∧ (explanation.truncated = true → explanation.omitted = 1 ∧
    (Limits.maxExplanationConstraints ≤ explanation.constraints.length ∨
      Limits.maxExplanationBytes < explanation.bytes + 96))

theorem sameAs_echo_iff (h : explanation.Sized) :
    explanation.SameAs explanation.echo ↔ (explanation.truncated = true → explanation.omitted = 1 ∧
      (Limits.maxExplanationConstraints ≤ explanation.constraints.length ∨
        Limits.maxExplanationBytes < explanation.bytes + 96)) := by
  unfold echo SameAs
  cases htruncated : explanation.truncated with
  | false => simp [ofConstraints, h.bytes_eq, h.omitted_eq htruncated]
  | true =>
    have hcost : (ofConstraints explanation.constraints).bytes = explanation.bytes :=
      h.bytes_eq.symm
    simp only [↓reduceIte, forall_const, add]
    by_cases hfull : Limits.maxExplanationConstraints ≤ explanation.constraints.length ∨
        Limits.maxExplanationBytes < explanation.bytes + 96
    · have hcond : (ofConstraints explanation.constraints).maxConstraints ≤
          (ofConstraints explanation.constraints).constraints.length ∨
          (ofConstraints explanation.constraints).maxBytes <
            (ofConstraints explanation.constraints).bytes +
              ((bounded "" Limits.maxStringBytes).length +
                (bounded "" Limits.maxDetailBytes).length + 96) := by
        rw [hcost]
        exact hfull
      rw [if_pos hcond]
      simp only [hcost, hfull, and_true]
      simp [ofConstraints, eq_comm]
    · have hcond : ¬ ((ofConstraints explanation.constraints).maxConstraints ≤
          (ofConstraints explanation.constraints).constraints.length ∨
          (ofConstraints explanation.constraints).maxBytes <
            (ofConstraints explanation.constraints).bytes +
              ((bounded "" Limits.maxStringBytes).length +
                (bounded "" Limits.maxDetailBytes).length + 96)) := by
        rw [hcost]
        exact hfull
      rw [if_neg hcond]
      simp [hfull, ofConstraints]

/-! ### Explanations on the wire -/

/-- A constraint whose texts fit, in full. -/
def putWhole (constraint : BindingConstraint) : List UInt8 := List.flatten [
  putU8 constraint.kind.code, putString constraint.subject, putNat constraint.subjectId,
  putU64 constraint.required, putU64 constraint.available, putU64 constraint.observed,
  putU64 constraint.authoritative, putString constraint.detail]

theorem putConstraints_of_fits (hstored : ∀ constraint ∈ constraints, Stored constraint)
    (hfits : ∀ constraint ∈ constraints, constraint.detail.length ≤ Limits.maxStringBytes) :
    putConstraints constraints = (true, constraints.flatMap putWhole) := by
  induction constraints with
  | nil => rfl
  | cons constraint rest ih =>
    obtain ⟨hfirst, hrest⟩ := List.forall_mem_cons.mp hstored
    obtain ⟨hfit, hfits⟩ := List.forall_mem_cons.mp hfits
    have hone : putConstraint constraint = (true, putWhole constraint) := by
      rw [putConstraint, if_neg (Nat.not_lt.mpr hfirst.subject_le)]
      simp only [if_neg (Nat.not_lt.mpr hfit)]
      simp [putWhole]
    simp only [putConstraints, hone, ih hrest hfits, List.flatMap_cons]

theorem ofCode_constraintKind (k : BindingConstraintKind) :
    ofCode BindingConstraintKind.code BindingConstraintKind.all k.code = some k := by
  cases k <;> rfl

theorem reads_constraint {constraint : BindingConstraint} (h : Stored constraint)
    (hfit : constraint.detail.length ≤ Limits.maxStringBytes) :
    Reads constraintDecoder (putWhole constraint) constraint := by
  have hid (t : Status) : Reads (nat64 t) (putNat constraint.subjectId) constraint.subjectId := by
    have hreads := reads_nat64 constraint.subjectId t
    rwa [Nat.mod_eq_of_lt h.id_lt] at hreads
  exact (reads_enumeration (ofCode_constraintKind _) _ _).bind <|
    (reads_string h.subject_bytes h.subject_le _).bind <| (hid _).bind <| .thenU64 <| .thenU64 <|
    .thenU64 <| .thenU64 <|
    (reads_string h.detail_bytes hfit _).bind <| Reads.pure _

theorem reads_explanation (h : explanation.Sized) (hfits : explanation.Fits) :
    Reads explanationDecoder (putExplanation explanation) explanation.echo := by
  have hlength : explanation.constraints.length ≤ Limits.maxExplanationConstraints :=
    Nat.le_trans h.length_le h.maxConstraints_le
  have hitems : Reads (repeated constraintDecoder explanation.constraints.length)
      (explanation.constraints.flatMap putWhole) explanation.constraints :=
    Reads.repeated_of_mem fun constraint hmem =>
      reads_constraint (h.stored constraint hmem) (hfits constraint hmem)
  have hadd : explanation.constraints.foldl add (({} : Explanation).configure
      Limits.maxExplanationConstraints Limits.maxExplanationBytes) =
        ofConstraints explanation.constraints := by
    have hbytes := Nat.le_trans h.bytes_le h.maxBytes_le
    rw [h.bytes_eq] at hbytes
    have hempty : explanation.constraints.foldl add {} = _ := foldl_add_of_fits h.stored
      (by simpa using hlength) (by simpa using hbytes)
    refine hempty.trans ?_
    simp [ofConstraints]
  have hbytes : putExplanation explanation = putCount explanation.constraints.length ++
      (explanation.constraints.flatMap putWhole ++ (putBool explanation.truncated ++
        (putU32 explanation.omitted ++ []))) := by
    simp [putExplanation, putConstraints_of_fits h.stored hfits]
  rw [hbytes, echo, ← hadd]
  exact (reads_count hlength (by decide) _ _).bind <| hitems.bind <| (Reads.boolean _ _).bind <|
    (Reads.u32 _ _).bind <| Reads.pure _

theorem returns_explanation : Returns explanationDecoder Fits := by
  have hadd : ∀ (explanation : Explanation) (constraint : BindingConstraint), explanation.Fits →
      constraint.detail.length ≤ Limits.maxStringBytes → (explanation.add constraint).Fits := by
    intro explanation constraint h hdetail
    unfold add
    simp only
    split
    · exact h
    · intro c hc
      rcases List.mem_append.mp hc with hc | hc
      · exact h c hc
      · rw [List.mem_singleton.mp hc]
        rwa [bounded_of_le (Nat.le_trans hdetail (by decide))]
  have hfold : ∀ (constraints : List BindingConstraint) (explanation : Explanation),
      explanation.Fits → (∀ c ∈ constraints, c.detail.length ≤ Limits.maxStringBytes) →
        (constraints.foldl add explanation).Fits := by
    intro constraints
    induction constraints with
    | nil => exact fun _ h _ => h
    | cons constraint rest ih =>
      intro explanation h hall
      obtain ⟨hfirst, hrest⟩ := List.forall_mem_cons.mp hall
      exact ih _ (hadd explanation constraint h hfirst) hrest
  have hconstraint : Returns constraintDecoder
      fun c => c.detail.length ≤ Limits.maxStringBytes :=
    Returns.andThen fun _ => Returns.andThen fun _ => Returns.andThen fun _ =>
      Returns.andThen fun _ => Returns.andThen fun _ => Returns.andThen fun _ =>
      Returns.andThen fun _ => (returns_string _).bind fun _ hdetail => Returns.pure hdetail
  refine Returns.andThen fun n => (hconstraint.repeated n).bind fun constraints hall =>
    Returns.andThen fun truncated => Returns.andThen fun _ => Returns.pure ?_
  have hbase := hfold constraints (({} : Explanation).configure
    Limits.maxExplanationConstraints Limits.maxExplanationBytes) nofun hall
  split
  · exact hadd _ {} hbase (by decide)
  · exact hbase

end Explanation

/-! ### Authority vectors -/

namespace AuthorityVector

variable {vector : AuthorityVector}

/-- The vectors that can be built by adding references. -/
inductive Built : AuthorityVector → Prop
  | empty : Built {}
  | added {vector : AuthorityVector} {kind : AuthorityKind} {subject : Nat}
      {generation : Generation} {epoch : FabricEpoch} (h : Built vector)
      (hsubject : subject < 2 ^ 64) : Built (vector.add kind subject generation epoch)

/-- What holds of every vector that is built by `add`. -/
structure Sized (vector : AuthorityVector) : Prop where
  nodup : (vector.refs.map key).Nodup
  length_le : vector.refs.length ≤ Limits.maxAuthorityRefs
  subject_lt : ∀ k ∈ vector.refs.map key, k.2 < 2 ^ 64

theorem Built.sized (h : Built vector) : vector.Sized := by
  induction h with
  | empty => exact ⟨List.nodup_nil, Nat.zero_le _, nofun⟩
  | @added vector kind subject generation epoch _ hsubject ih =>
    rcases vector.add_cases kind subject generation epoch with ⟨-, hkeys⟩ | ⟨hnew, hadd⟩
    · have hlength := congrArg List.length hkeys
      rw [List.length_map, List.length_map] at hlength
      exact ⟨hkeys ▸ ih.nodup, hlength ▸ ih.length_le, hkeys ▸ ih.subject_lt⟩
    · rw [hadd]
      split
      · exact ⟨ih.nodup, ih.length_le, ih.subject_lt⟩
      · refine ⟨?_, ?_, ?_⟩
        · rw [List.map_append]
          exact List.nodup_append.mpr ⟨ih.nodup, List.nodup_singleton _, by
            rintro k hk k' hk' rfl
            obtain rfl := List.mem_singleton.mp hk'
            exact hnew hk⟩
        · rw [List.length_append, List.length_singleton]
          omega
        · intro k hk
          rw [List.map_append] at hk
          rcases List.mem_append.mp hk with hk | hk
          · exact ih.subject_lt k hk
          · rw [List.map_singleton, List.mem_singleton] at hk
            exact hk ▸ hsubject

theorem foldl_addRef_of_nodup {refs : List AuthorityRef}
    (hnodup : ((vector.refs ++ refs).map key).Nodup)
    (hlength : (vector.refs ++ refs).length ≤ Limits.maxAuthorityRefs) :
    refs.foldl addRef vector = { vector with refs := vector.refs ++ refs } := by
  induction refs generalizing vector with
  | nil => simp
  | cons ref rest ih =>
    have hnew : (ref.kind, ref.subject) ∉ vector.refs.map key := by
      rw [List.map_append, List.nodup_append] at hnodup
      exact fun hmem => hnodup.2.2 _ hmem _ List.mem_cons_self rfl
    have hadd : vector.addRef ref = { vector with refs := vector.refs ++ [ref] } := by
      rcases vector.add_cases ref.kind ref.subject ref.generation ref.epoch with ⟨hold, -⟩ | ⟨-, h⟩
      · exact absurd hold hnew
      · rw [addRef, h, if_neg]
        rw [List.length_append, List.length_cons] at hlength
        omega
    have happend : vector.refs ++ ref :: rest = (vector.refs ++ [ref]) ++ rest := by simp
    rw [happend] at hnodup hlength ⊢
    rw [List.foldl_cons, hadd, ih hnodup hlength]

theorem refs_eq_iff : { refs := vector.refs } = vector ↔ vector.truncated = false := by
  obtain ⟨refs, truncated⟩ := vector
  simp [eq_comm]

theorem ofCode_authorityKind (k : AuthorityKind) :
    ofCode AuthorityKind.code AuthorityKind.all k.code = some k := by
  cases k <;> rfl

theorem reads_authority (h : vector.Sized) :
    Reads authorityDecoder (putAuthority vector) { refs := vector.refs } := by
  have hitem : ∀ ref ∈ vector.refs, ∀ t : Status,
      Reads (authorityRefDecoder t) (putAuthorityRef ref) ref := by
    intro ref hmem t
    have hlt : ref.subject < 2 ^ 64 := h.subject_lt (key ref) (List.mem_map_of_mem hmem)
    have hsubject := reads_nat64 ref.subject t
    rw [Nat.mod_eq_of_lt hlt] at hsubject
    exact (reads_enumeration (ofCode_authorityKind _) _ _).bind <| hsubject.bind <| .thenU64 <|
      .thenU64 <| Reads.pure _
  have hadd : vector.refs.foldl addRef {} = { refs := vector.refs } := by
    rw [foldl_addRef_of_nodup (by simpa using h.nodup) (by simpa using h.length_le)]
    rfl
  rw [← hadd]
  exact (reads_count h.length_le (by decide) _ _).bind <|
    (Reads.repeated_of_mem fun ref hmem => hitem ref hmem _).bind <|
    (Reads.boolean _ _).bind <| Reads.pure _

end AuthorityVector

/-! ### Decisions -/

/-- A decision as the engine returns it: its explanation and its authority were built by `add`, and
its list of effective resources was bounded. -/
structure AdmissionDecision.Returnable (decision : AdmissionDecision) : Prop where
  explanation : decision.explanation.Built
  authority : decision.authority.Built
  effective : decision.effective.length ≤ Limits.maxEffectiveResources
  decision_lt : decision.decision < 2 ^ 64
  audit_lt : decision.audit < 2 ^ 64

/-- Two decisions that agree in every field, up to the bounds of their explanations. -/
def AdmissionDecision.SameAs (decision decision' : AdmissionDecision) : Prop :=
  { decision' with explanation := decision.explanation } = decision ∧
    decision.explanation.SameAs decision'.explanation

theorem reads_effective (entry : EffectiveResource) (truncated : Status) :
    Reads (effectiveDecoder truncated) (putEffective entry) entry :=
  .thenU64 <| .thenU64 <| .thenU64 <| .thenU64 <| .thenU64 <| .thenU64 <| .thenU64 <|
    Reads.pure _

theorem decodeDecision_encode (h : decision.Returnable) (hfits : decision.explanation.Fits) :
    decodeDecision decision.encode = .ok { decision with
      explanation := decision.explanation.echo
      authority := { refs := decision.authority.refs } } := by
  have hdecision (t : Status) := reads_nat64 decision.decision t
  have haudit (t : Status) := reads_nat64 decision.audit t
  simp only [Nat.mod_eq_of_lt h.decision_lt, Nat.mod_eq_of_lt h.audit_lt] at hdecision haudit
  refine decode_of_reads ?_
  exact (hdecision _).bind <| (haudit _).bind <| (reads_enumeration (ofCode_outcome _) _ _).bind <|
    .thenU64 <| .thenU64 <| .thenU64 <| .thenU64 <| .thenU64 <| .thenU64 <| .thenU64 <| .thenU64 <|
    .thenU64 <| .thenU64 <| .thenU64 <| .thenU64 <| .thenU64 <| .thenU64 <| .thenU64 <| .thenU64 <|
    (Reads.boolean _ _).bind <| (Reads.boolean _ _).bind <| .thenU64 <|
    (reads_count h.effective (by decide) _ _).bind <|
    (Reads.repeated_of_mem fun entry _ => reads_effective entry _).bind <|
    (Reads.boolean _ _).bind <|
    (Explanation.reads_explanation h.explanation.sized hfits).bind <|
    (AuthorityVector.reads_authority h.authority.sized).bind <| Reads.pure _

theorem fits_of_decodeDecision (h : decodeDecision bytes = .ok decision) :
    decision.explanation.Fits := by
  have hreturns : Returns replyDecisionDecoder fun decision => decision.explanation.Fits := by
    iterate 25 refine Returns.andThen fun _ => ?_
    exact Explanation.returns_explanation.bind fun _ hfits =>
      Returns.andThen fun _ => Returns.pure hfits
  exact hreturns bytes decision [] (decode_eq_ok_iff.mp h)

theorem decision_arrives_iff (h : decision.Returnable) :
    (∃ decoded, decodeDecision decision.encode = .ok decoded ∧ decision.SameAs decoded) ↔
      decision.explanation.Survives ∧ decision.authority.truncated = false := by
  by_cases hfits : decision.explanation.Fits
  · rw [decodeDecision_encode h hfits, Explanation.Survives,
      ← Explanation.sameAs_echo_iff h.explanation.sized]
    rw [← AuthorityVector.refs_eq_iff]
    constructor
    · rintro ⟨_, hdecoded, hsame, hexplanation⟩
      obtain rfl := Except.ok.inj hdecoded
      exact ⟨⟨hfits, hexplanation⟩, congrArg AdmissionDecision.authority hsame⟩
    · rintro ⟨⟨-, hexplanation⟩, hsame⟩
      exact ⟨_, rfl, by rw [hsame], hexplanation⟩
  · refine iff_of_false ?_ fun hsurvives => hfits hsurvives.1.1
    rintro ⟨decoded, hdecoded, -, hsame⟩
    exact hfits (hsame.fits (fits_of_decodeDecision hdecoded))

/-! ### Revalidation results -/

/-- The result is one that the engine builds. -/
structure RevalidationResult.Returnable (result : RevalidationResult) : Prop where
  explanation : result.explanation.Built
  authority : result.authority.Built
  decision_lt : result.decision < 2 ^ 64

/-- Equal up to the bounds of the explanations. -/
def RevalidationResult.SameAs (result result' : RevalidationResult) : Prop :=
  { result' with explanation := result.explanation } = result ∧
    result.explanation.SameAs result'.explanation

theorem reads_revalidationCodes (outcome : AdmissionOutcome) (state : RevalidationState)
    (reason : RevocationReason) (truncated : Status) : Reads (revalidationCodesDecoder truncated)
      (putU8 outcome.code ++ (putU8 state.code ++ putU8 reason.code)) (outcome, state, reason) := by
  have hvalue {α : Type} {code : α → UInt8} {values : List α} {a : α}
      (h : ofCode code values (code a) = some a) (unrecognised : Status) :
      Reads (orElse (ofCode code values (code a)) unrecognised) [] a :=
    h ▸ Reads.orElse a unrecognised
  exact (Reads.u8 _ _).bind <| (Reads.u8 _ _).bind <| (Reads.u8 _ _).bind <|
    (hvalue (ofCode_outcome _) _).bind <| (hvalue (ofCode_state _) _).bind <|
    (hvalue (ofCode_reason _) _).bind <| Reads.pure _

theorem decodeRevalidation_encode (h : result.Returnable) (hfits : result.explanation.Fits) :
    decodeRevalidation result.encode = .ok { result with
      explanation := result.explanation.echo
      authority := { refs := result.authority.refs } } := by
  have hdecision (t : Status) := reads_nat64 result.decision t
  simp only [Nat.mod_eq_of_lt h.decision_lt] at hdecision
  refine decode_of_reads ?_
  exact (hdecision _).bind <| (reads_revalidationCodes _ _ _ _).bind <| .thenU64 <| .thenU64 <|
    (Reads.boolean _ _).bind <|
    (Explanation.reads_explanation h.explanation.sized hfits).bind <|
    (AuthorityVector.reads_authority h.authority.sized).bind <| Reads.pure _

theorem fits_of_decodeRevalidation (h : decodeRevalidation bytes = .ok result) :
    result.explanation.Fits := by
  have hreturns : Returns revalidationDecoder fun result => result.explanation.Fits := by
    iterate 5 refine Returns.andThen fun _ => ?_
    exact Explanation.returns_explanation.bind fun _ hfits =>
      Returns.andThen fun _ => Returns.pure hfits
  exact hreturns bytes result [] (decode_eq_ok_iff.mp h)

theorem revalidation_arrives_iff (h : result.Returnable) :
    (∃ decoded, decodeRevalidation result.encode = .ok decoded ∧ result.SameAs decoded) ↔
      result.explanation.Survives ∧ result.authority.truncated = false := by
  by_cases hfits : result.explanation.Fits
  · rw [decodeRevalidation_encode h hfits, Explanation.Survives,
      ← Explanation.sameAs_echo_iff h.explanation.sized]
    rw [← AuthorityVector.refs_eq_iff]
    constructor
    · rintro ⟨_, hdecoded, hsame, hexplanation⟩
      obtain rfl := Except.ok.inj hdecoded
      exact ⟨⟨hfits, hexplanation⟩, congrArg RevalidationResult.authority hsame⟩
    · rintro ⟨⟨-, hexplanation⟩, hsame⟩
      exact ⟨_, rfl, by rw [hsame], hexplanation⟩
  · refine iff_of_false ?_ fun hsurvives => hfits hsurvives.1.1
    rintro ⟨decoded, hdecoded, -, hsame⟩
    exact hfits (hsame.fits (fits_of_decodeRevalidation hdecoded))

/-! ### Statuses -/

/-- The counters and sizes of a status are 64-bit numbers. -/
structure FabricStatus.Counted (status : FabricStatus) : Prop where
  auditSequence : status.auditSequence < 2 ^ 64
  decisions : status.decisions < 2 ^ 64
  admissions : status.admissions < 2 ^ 64
  refusals : status.refusals < 2 ^ 64
  deferrals : status.deferrals < 2 ^ 64
  idempotentReplays : status.idempotentReplays < 2 ^ 64
  conflicts : status.conflicts < 2 ^ 64
  fences : status.fences < 2 ^ 64
  staleRefusals : status.staleRefusals < 2 ^ 64

theorem ofCode_readiness (r : EngineReadiness) :
    ofCode EngineReadiness.code EngineReadiness.all r.code = some r := by
  cases r <;> rfl

theorem decodeStatus_encode (h : status.Counted) :
    decodeStatus status.encode = .ok { status with
      ledgerEntries := status.ledgerEntries % 2 ^ 32
      liveDecisions := status.liveDecisions % 2 ^ 32
      liveSessions := status.liveSessions % 2 ^ 32
      infeasibleResources := 0 } := by
  have hcount {v : Nat} (hv : v < 2 ^ 64) (t : Status) : Reads (nat64 t) (putNat v) v := by
    have hreads := reads_nat64 v t
    rwa [Nat.mod_eq_of_lt hv] at hreads
  have hsize (v : Nat) (t : Status) : Reads (word 4 t) (putCount v) (v % 2 ^ 32) :=
    Reads.word 4 v t
  refine decode_of_reads ?_
  exact (reads_enumeration (ofCode_readiness _) _ _).bind <| .thenU64 <| .thenU64 <| .thenU64 <|
    (Reads.boolean _ _).bind <|
    (Reads.boolean _ _).bind <| (Reads.boolean _ _).bind <| (Reads.boolean _ _).bind <|
    (Reads.boolean _ _).bind <| (Reads.boolean _ _).bind <| .thenU64 <| .thenU64 <| .thenU64 <|
    .thenU64 <| .thenU64 <| .thenU64 <| .thenU64 <| .thenU64 <|
    (hcount h.auditSequence _).bind <| (hcount h.decisions _).bind <|
    (hcount h.admissions _).bind <| (hcount h.refusals _).bind <| (hcount h.deferrals _).bind <|
    (hcount h.idempotentReplays _).bind <| (hcount h.conflicts _).bind <|
    (hcount h.fences _).bind <| (hcount h.staleRefusals _).bind <| (hsize _ _).bind <|
    (hsize _ _).bind <| (hsize _ _).bind <| .thenU64 <| (Reads.boolean _ _).bind <|
    (Reads.boolean _ _).bind <| Reads.pure _

theorem status_arrives_iff (h : status.Counted) :
    decodeStatus status.encode = .ok status ↔ status.infeasibleResources = 0 ∧
      status.ledgerEntries < 2 ^ 32 ∧ status.liveDecisions < 2 ^ 32 ∧
      status.liveSessions < 2 ^ 32 := by
  have hmod : ∀ n : Nat, n % 2 ^ 32 = n ↔ n < 2 ^ 32 := by omega
  rw [decodeStatus_encode h, Except.ok.injEq, ← hmod, ← hmod, ← hmod]
  constructor
  · intro heq
    exact ⟨(congrArg FabricStatus.infeasibleResources heq).symm,
      congrArg FabricStatus.ledgerEntries heq, congrArg FabricStatus.liveDecisions heq,
      congrArg FabricStatus.liveSessions heq⟩
  · rintro ⟨hzero, hentries, hdecisions, hsessions⟩
    rw [hentries, hdecisions, hsessions, ← hzero]

/-! ### Replies -/

/-- When the replies of the coordinator arrive as they were sent. -/
theorem replies_arrive_iff (decision : AdmissionDecision) (result : RevalidationResult)
    (status : FabricStatus) (hdecision : decision.Returnable) (hresult : result.Returnable)
    (hstatus : status.Counted) :
    ((∃ decoded, decodeDecision decision.encode = .ok decoded ∧ decision.SameAs decoded) ↔
        decision.explanation.Survives ∧ decision.authority.truncated = false) ∧
      ((∃ decoded, decodeRevalidation result.encode = .ok decoded ∧ result.SameAs decoded) ↔
        result.explanation.Survives ∧ result.authority.truncated = false) ∧
      (decodeStatus status.encode = .ok status ↔ status.infeasibleResources = 0 ∧
        status.ledgerEntries < 2 ^ 32 ∧ status.liveDecisions < 2 ^ 32 ∧
        status.liveSessions < 2 ^ 32) :=
  ⟨decision_arrives_iff hdecision, revalidation_arrives_iff hresult, status_arrives_iff hstatus⟩

section Examples

open SmallFabric

/-- An explanation with one constraint. -/
def oneConstraint : Explanation :=
  (({} : Explanation).configure 1 128).add (constraintOf .fence "claim" 7 "stale epoch")

theorem built_oneConstraint : oneConstraint.Built :=
  (Explanation.Built.configured 1 128).added (isBytes_of_all rfl) (isBytes_of_all rfl) (by decide)

/-- A grant on one resource. -/
def grantReply : AdmissionDecision where
  decision := 3
  audit := 5
  outcome := .admitDegraded
  request := 1
  demand := 2
  attempt := 1
  epoch := 2
  granted := 20
  desired := 30
  maximum := 40
  authority := ({} : AuthorityVector).add .policy 1 4 2
  effective := [⟨7, 1, 100, 10, 20, 50, 20⟩]
  explanation := oneConstraint

/-- The release of the grant. -/
def releaseReply : RevalidationResult where
  decision := 3
  originalOutcome := .admitDegraded
  state := .revoked
  reason := .operatorRequest
  granted := 20
  ledgerReleased := true
  explanation := oneConstraint

/-- The status of an engine with two grants. -/
def statusReply : FabricStatus where
  readiness := .ready
  epoch := 2
  hasPolicy := true
  policyGeneration := 4
  auditSequence := 6
  decisions := 5
  admissions := 3
  refusals := 2
  ledgerEntries := 3
  liveDecisions := 2
  liveSessions := 1
  totalAdmitted := 70
  durable := true

/-- A grant, its release and a status arrive. -/
theorem replies_arrive :
    (∃ decoded, decodeDecision grantReply.encode = .ok decoded ∧ grantReply.SameAs decoded) ∧
    (∃ decoded, decodeRevalidation releaseReply.encode = .ok decoded ∧
      releaseReply.SameAs decoded) ∧
    decodeStatus statusReply.encode = .ok statusReply := by
  obtain ⟨hdecision, hresult, hstatus⟩ := replies_arrive_iff grantReply releaseReply statusReply
    ⟨built_oneConstraint, .added .empty (by decide), by decide, by decide, by decide⟩
    ⟨built_oneConstraint, .empty, by decide⟩
    ⟨by decide, by decide, by decide, by decide, by decide, by decide, by decide, by decide,
      by decide⟩
  refine ⟨hdecision.mpr ?_, hresult.mpr ?_, hstatus.mpr (by decide)⟩
  · unfold Explanation.Survives Explanation.Fits
    decide
  · unfold Explanation.Survives Explanation.Fits
    decide

/-- An engine whose policy allows one constraint, with one grant of an earlier incarnation. -/
def narrowCore : EngineCore :=
  (EngineCore.fresh {}).performAll
    (.publishPolicy { policy with maxExplanationConstraints := 1 } ::
      (announce [known 1 1 50]).tail ++
        [.admitRequest (request 1 ⟨50, 50, 50⟩ [1]) {}, .beginNewIncarnation 2])

/-- Revalidating the grant releases it. The result has one constraint and omits one; what is decoded
has two and omits none. A status loses its infeasible resources. -/
theorem altered_replies :
    (∃ result decoded, (narrowCore.revalidateLocked 1 {}).1 = .ok result ∧
      decodeRevalidation result.encode = .ok decoded ∧
      result.explanation.constraints.length = 1 ∧ result.explanation.omitted = 1 ∧
      decoded.explanation.constraints.length = 2 ∧ decoded.explanation.omitted = 0) ∧
    decodeStatus ({ infeasibleResources := 1 } : FabricStatus).encode = .ok {} := by
  have hresult : ∃ result ∈ (narrowCore.revalidateLocked 1 {}).1.toOption,
      ∃ decoded ∈ (decodeRevalidation result.encode).toOption,
        result.explanation.constraints.length = 1 ∧ result.explanation.omitted = 1 ∧
        decoded.explanation.constraints.length = 2 ∧ decoded.explanation.omitted = 0 := by
    decide +kernel
  obtain ⟨result, hrevalidate, decoded, hdecode, hcounts⟩ := hresult
  have hok {α : Type} {x : Except Status α} {a : α} (h : a ∈ x.toOption) : x = .ok a := by
    cases x with
    | error status => cases h
    | ok b => exact congrArg Except.ok (Option.some.inj h)
  exact ⟨⟨result, decoded, hok hrevalidate, hok hdecode, hcounts⟩, by decide +kernel⟩

end Examples

end AdmissionFabric
