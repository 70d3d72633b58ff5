import AdmissionFabric.Library.ByteDecoder

/-!
# Exact codecs

A codec is exact if its decoder accepts the encodings of well-formed values and nothing else. Then
a round trip gives back the value, no accepted byte string has another spelling, and a byte string
that is cut short or continued is refused.

`Parses d R` is the converse of `Reads`: whatever `d` accepts, the bytes it consumed and the value
it returned are related by `R`. It is assembled field by field, like `Reads`.
-/

namespace ByteDecoder

open LittleEndian

variable {ε α β : Type}

/-! ### Taking a decoder apart -/

/-- The bytes that the decoder consumes and the value that it returns are always related. -/
def Parses (d : Decoder ε α) (R : List UInt8 → α → Prop) : Prop :=
  ∀ input a rest, d input = .ok (a, rest) → ∃ used, input = used ++ rest ∧ R used a

theorem Parses.mono {d : Decoder ε α} {R S : List UInt8 → α → Prop} (h : Parses d R)
    (hmono : ∀ used a, R used a → S used a) : Parses d S := by
  intro input a rest hd
  obtain ⟨used, rfl, hR⟩ := h input a rest hd
  exact ⟨used, rfl, hmono used a hR⟩

theorem Parses.pure {a : α} {R : List UInt8 → α → Prop} (h : R [] a) :
    Parses (ε := ε) (Pure.pure a) R := by
  intro input b rest hd
  obtain ⟨rfl, rfl⟩ := Prod.mk.inj (Except.ok.inj hd)
  exact ⟨[], rfl, h⟩

/-- What follows is judged together with what was consumed before it. -/
theorem Parses.bind {d : Decoder ε α} {f : α → Decoder ε β} {R : List UInt8 → α → Prop}
    {S : List UInt8 → β → Prop} (h : Parses d R)
    (hf : ∀ used a, R used a → Parses (f a) fun used' b => S (used ++ used') b) :
    Parses (d >>= f) S := by
  intro input b rest hd
  simp only [Bind.bind, StateT.bind] at hd
  cases hfirst : d input with
  | error e =>
    rw [hfirst] at hd
    cases hd
  | ok result =>
    obtain ⟨a, rest'⟩ := result
    rw [hfirst] at hd
    obtain ⟨used, rfl, hR⟩ := h input a rest' hfirst
    obtain ⟨used', rfl, hS⟩ := hf used a hR rest' b rest hd
    exact ⟨used ++ used', (List.append_assoc _ _ _).symm, hS⟩

/-- The same for a first part that has only one spelling. -/
theorem Parses.andThen {d : Decoder ε α} {f : α → Decoder ε β} {write : α → List UInt8}
    {S : List UInt8 → β → Prop} (h : Parses d fun used a => used = write a)
    (hf : ∀ a, Parses (f a) fun used b => S (write a ++ used) b) : Parses (d >>= f) S := by
  refine h.bind fun used a heq => ?_
  subst heq
  exact hf a

theorem Parses.word (width : Nat) (truncated : ε) : Parses (ByteDecoder.word width truncated)
    fun used v => used = leBytes width v ∧ v < 256 ^ width := by
  intro input v rest hd
  unfold ByteDecoder.word at hd
  split at hd
  · cases hd
  · obtain ⟨rfl, rfl⟩ := Prod.mk.inj (Except.ok.inj hd)
    have hwidth : (input.take width).length = width := List.length_take_of_le (by omega)
    refine ⟨input.take width, (List.take_append_drop width input).symm, ?_, ?_⟩
    · have hbytes := leBytes_ofLeBytes (input.take width)
      rw [hwidth] at hbytes
      exact hbytes.symm
    · have hlt := ofLeBytes_lt (input.take width)
      rwa [hwidth] at hlt

theorem Parses.u8 (truncated : ε) :
    Parses (ByteDecoder.u8 truncated) fun used v => used = leBytes 1 v.toNat := by
  refine (Parses.word 1 truncated).bind fun used v ⟨heq, hlt⟩ => Parses.pure ?_
  have hlt : v < 2 ^ 8 := hlt
  rw [List.append_nil, heq, UInt8.toNat_ofNat', Nat.mod_eq_of_lt hlt]

theorem Parses.u16 (truncated : ε) :
    Parses (ByteDecoder.u16 truncated) fun used v => used = leBytes 2 v.toNat := by
  refine (Parses.word 2 truncated).bind fun used v ⟨heq, hlt⟩ => Parses.pure ?_
  have hlt : v < 2 ^ 16 := hlt
  rw [List.append_nil, heq, UInt16.toNat_ofNat', Nat.mod_eq_of_lt hlt]

theorem Parses.u32 (truncated : ε) :
    Parses (ByteDecoder.u32 truncated) fun used v => used = leBytes 4 v.toNat := by
  refine (Parses.word 4 truncated).bind fun used v ⟨heq, hlt⟩ => Parses.pure ?_
  have hlt : v < 2 ^ 32 := hlt
  rw [List.append_nil, heq, UInt32.toNat_ofNat', Nat.mod_eq_of_lt hlt]

theorem Parses.u64 (truncated : ε) :
    Parses (ByteDecoder.u64 truncated) fun used v => used = leBytes 8 v.toNat := by
  refine (Parses.word 8 truncated).bind fun used v ⟨heq, hlt⟩ => Parses.pure ?_
  have hlt : v < 2 ^ 64 := hlt
  rw [List.append_nil, heq, UInt64.toNat_ofNat', Nat.mod_eq_of_lt hlt]

theorem Parses.thenU64 {truncated : ε} {f : UInt64 → Decoder ε β} {S : List UInt8 → β → Prop}
    (h : ∀ v, Parses (f v) fun used b => S (leBytes 8 v.toNat ++ used) b) :
    Parses (ByteDecoder.u64 truncated >>= f) S :=
  (Parses.u64 truncated).andThen h

theorem Parses.require (condition : Bool) (error : ε) :
    Parses (ByteDecoder.require condition error) fun used _ => used = [] ∧ condition = true := by
  intro input a rest hd
  unfold ByteDecoder.require at hd
  split at hd
  · rename_i hcondition
    obtain ⟨-, rfl⟩ := Prod.mk.inj (Except.ok.inj hd)
    exact ⟨[], rfl, rfl, hcondition⟩
  · cases hd

theorem Parses.orElse (value : Option α) (error : ε) :
    Parses (ByteDecoder.orElse value error) fun used a => used = [] ∧ value = some a := by
  intro input a rest hd
  unfold ByteDecoder.orElse at hd
  split at hd
  · obtain ⟨rfl, rfl⟩ := Prod.mk.inj (Except.ok.inj hd)
    exact ⟨[], rfl, rfl, rfl⟩
  · cases hd

theorem Parses.boolean (invalid : ε) :
    Parses (ByteDecoder.boolean invalid) fun used v => used = [if v then 1 else 0] := by
  refine (Parses.u8 invalid).andThen fun v => ?_
  refine (Parses.require _ invalid).bind fun used _ ⟨hnil, hle⟩ => Parses.pure ?_
  subst hnil
  have hcases : v = 0 ∨ v = 1 := by
    have hle := UInt8.le_iff_toNat_le.mp (of_decide_eq_true hle)
    rw [← UInt8.toNat_inj, ← UInt8.toNat_inj]
    change v.toNat = 0 ∨ v.toNat = 1
    change v.toNat ≤ 1 at hle
    omega
  rcases hcases with rfl | rfl <;> rfl

theorem Parses.repeated {d : Decoder ε α} {write : α → List UInt8} {ok : α → Prop}
    (h : Parses d fun used a => used = write a ∧ ok a) (n : Nat) :
    Parses (ByteDecoder.repeated d n) fun used as =>
      used = as.flatMap write ∧ as.length = n ∧ ∀ a ∈ as, ok a := by
  induction n with
  | zero => exact Parses.pure ⟨rfl, rfl, nofun⟩
  | succ n ih =>
    refine h.bind fun used a ⟨heq, ha⟩ => ih.bind fun used' as ⟨heq', hlen, has⟩ => Parses.pure ?_
    subst heq heq'
    refine ⟨?_, congrArg (· + 1) hlen, List.forall_mem_cons.mpr ⟨ha, has⟩⟩
    rw [List.append_nil, List.flatMap_cons]

/-- Every value that the decoder returns has a property. -/
def Returns (d : Decoder ε α) (P : α → Prop) : Prop :=
  ∀ input a rest, d input = .ok (a, rest) → P a

theorem Parses.returns {d : Decoder ε α} {R : List UInt8 → α → Prop} {P : α → Prop}
    (h : Parses d R) (hP : ∀ used a, R used a → P a) : Returns d P := by
  intro input a rest hd
  obtain ⟨used, -, hR⟩ := h input a rest hd
  exact hP used a hR

theorem Returns.pure {a : α} {P : α → Prop} (h : P a) : Returns (ε := ε) (Pure.pure a) P := by
  intro input b rest hd
  obtain ⟨rfl, -⟩ := Prod.mk.inj (Except.ok.inj hd)
  exact h

theorem Returns.bind {d : Decoder ε α} {f : α → Decoder ε β} {P : α → Prop} {Q : β → Prop}
    (h : Returns d P) (hf : ∀ a, P a → Returns (f a) Q) : Returns (d >>= f) Q := by
  intro input b rest hd
  simp only [Bind.bind, StateT.bind] at hd
  cases hfirst : d input with
  | error e =>
    rw [hfirst] at hd
    cases hd
  | ok result =>
    rw [hfirst] at hd
    exact hf result.1 (h input result.1 result.2 hfirst) result.2 b rest hd

theorem Returns.andThen {d : Decoder ε α} {f : α → Decoder ε β} {Q : β → Prop}
    (hf : ∀ a, Returns (f a) Q) : Returns (d >>= f) Q :=
  Returns.bind (P := fun _ => True) (fun _ _ _ _ => trivial) fun a _ => hf a

theorem Returns.repeated {d : Decoder ε α} {P : α → Prop} (h : Returns d P) (n : Nat) :
    Returns (ByteDecoder.repeated d n) fun as => ∀ a ∈ as, P a := by
  induction n with
  | zero => exact Returns.pure nofun
  | succ n ih =>
    exact h.bind fun a ha => ih.bind fun as has => Returns.pure (List.forall_mem_cons.mpr ⟨ha, has⟩)

/-! ### Exact codecs -/

/-- A decoder of whole byte strings that accepts exactly the encodings of well-formed values. -/
structure Exact (encode : α → List UInt8) (decode : List UInt8 → Except ε α) (ok : α → Prop) :
    Prop where
  /-- A round trip gives back the value. -/
  decode_encode : ∀ a, ok a → decode (encode a) = .ok a
  /-- Every strict prefix of an encoding is refused. -/
  refuses_cut : ∀ a, ok a → ∀ bytes more, more ≠ [] → encode a = bytes ++ more →
    ∃ e, decode bytes = .error e
  /-- Every proper extension of an encoding is refused. -/
  refuses_extended : ∀ a, ok a → ∀ more, more ≠ [] → ∃ e, decode (encode a ++ more) = .error e
  /-- An accepted byte string is the encoding of a well-formed value. -/
  encode_decode : ∀ bytes a, decode bytes = .ok a → bytes = encode a ∧ ok a

/-- What a decoder of whole byte strings returns. -/
theorem decode_eq_ok_iff {d : Decoder ε α} {trailing : ε} {bytes : List UInt8} {a : α} :
    decode (do let a ← d; exhausted trailing; return a) bytes = .ok a ↔
      d bytes = .ok (a, []) := by
  simp only [decode, Bind.bind, StateT.bind]
  cases d bytes with
  | error e => simp [Except.bind, Except.map]
  | ok result =>
    obtain ⟨b, _ | ⟨byte, rest⟩⟩ := result
    · change Except.ok b = .ok a ↔ Except.ok (b, []) = .ok (a, [])
      simp
    · simp [Except.bind, Except.map, exhausted]

theorem exact_of_reads {encode : α → List UInt8} {d : Decoder ε α} {ok : α → Prop} {trailing : ε}
    (hreads : ∀ a, ok a → Reads d (encode a) a)
    (hparses : Parses d fun used a => used = encode a ∧ ok a) :
    Exact encode (decode (do let a ← d; exhausted trailing; return a)) ok := by
  have herror : ∀ bytes, (∀ a, d bytes ≠ .ok (a, [])) →
      ∃ e, decode (do let a ← d; exhausted trailing; return a) bytes = .error e := by
    intro bytes hne
    cases h : decode (do let a ← d; exhausted trailing; return a) bytes with
    | error e => exact ⟨e, rfl⟩
    | ok a => exact absurd (decode_eq_ok_iff.mp h) (hne a)
  refine ⟨fun a ha => decode_of_reads (hreads a ha), ?_, ?_, ?_⟩
  · -- an accepted strict prefix would be read in front of the missing bytes as well
    intro a ha bytes more hmore hcut
    refine herror bytes fun b hb => hmore ?_
    obtain ⟨used, heq, rfl, hb⟩ := hparses bytes b [] hb
    rw [List.append_nil] at heq
    have hwhole := hreads a ha []
    rw [List.append_nil, hcut, heq, hreads b hb more] at hwhole
    exact (Prod.mk.inj (Except.ok.inj hwhole)).2
  · intro a ha more hmore
    refine herror _ fun b hb => hmore ?_
    rw [hreads a ha more] at hb
    exact (Prod.mk.inj (Except.ok.inj hb)).2
  · intro bytes a h
    obtain ⟨used, heq, hR⟩ := hparses bytes a [] (decode_eq_ok_iff.mp h)
    rw [List.append_nil] at heq
    exact heq ▸ hR

end ByteDecoder
