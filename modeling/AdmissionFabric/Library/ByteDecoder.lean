import AdmissionFabric.Library.LittleEndian

/-!
# Decoders of byte strings

A decoder consumes a byte string from the front and fails with a value of its error type. It is
a state transformer over the bytes that remain, so decoders compose with `do`.

`Reads d bytes a` says that `d` consumes exactly `bytes`, whatever follows them, and returns
`a`. It is the relation by which a round trip is assembled field by field, in the order in which
the fields are written.
-/

namespace ByteDecoder

open LittleEndian

/-- A decoder with error type `ε`. -/
abbrev Decoder (ε α : Type) := StateT (List UInt8) (Except ε) α

variable {ε α β : Type}

/-- Read an unsigned little-endian number of the given width. -/
def word (width : Nat) (truncated : ε) : Decoder ε Nat := fun bytes =>
  if bytes.length < width then .error truncated
  else .ok (ofLeBytes (bytes.take width), bytes.drop width)

/-- Read one byte. -/
def u8 (truncated : ε) : Decoder ε UInt8 := return UInt8.ofNat (← word 1 truncated)

/-- Read two bytes. -/
def u16 (truncated : ε) : Decoder ε UInt16 := return UInt16.ofNat (← word 2 truncated)

/-- Read four bytes. -/
def u32 (truncated : ε) : Decoder ε UInt32 := return UInt32.ofNat (← word 4 truncated)

/-- Read eight bytes. -/
def u64 (truncated : ε) : Decoder ε UInt64 := return UInt64.ofNat (← word 8 truncated)

/-- Refuse with `error` unless the condition holds. -/
def require (condition : Bool) (error : ε) : Decoder ε Unit := fun bytes =>
  if condition then .ok ((), bytes) else .error error

/-- A byte that is one or zero. -/
def boolean (invalid : ε) : Decoder ε Bool := do
  let v ← u8 invalid
  require (v ≤ 1) invalid
  return v = 1

/-- A value carried by an optional result, or a refusal. -/
def orElse (value : Option α) (error : ε) : Decoder ε α := fun bytes =>
  match value with
  | some a => .ok (a, bytes)
  | none => .error error

/-- The same decoder a number of times. -/
def repeated (d : Decoder ε α) : Nat → Decoder ε (List α)
  | 0 => return []
  | n + 1 => do
    let a ← d
    return a :: (← repeated d n)

/-- The bytes must be exhausted. -/
def exhausted (trailing : ε) : Decoder ε Unit := fun bytes =>
  if bytes.isEmpty then .ok ((), bytes) else .error trailing

/-- Decode a whole byte string. -/
def decode (d : Decoder ε α) (bytes : List UInt8) : Except ε α := (d bytes).map Prod.fst

/-! ### Reading what was written -/

/-- The decoder consumes exactly these bytes and returns the value. -/
def Reads (d : Decoder ε α) (bytes : List UInt8) (a : α) : Prop :=
  ∀ rest, d (bytes ++ rest) = .ok (a, rest)

/-- The decoder refuses every byte string that starts with these bytes. -/
def Fails (d : Decoder ε α) (bytes : List UInt8) (error : ε) : Prop :=
  ∀ rest, d (bytes ++ rest) = .error error

theorem Reads.pure (a : α) : Reads (ε := ε) (Pure.pure a) [] a := fun _ => rfl

theorem Reads.bind {d : Decoder ε α} {f : α → Decoder ε β} {bytes bytes' : List UInt8} {a : α}
    {b : β} (h : Reads d bytes a) (h' : Reads (f a) bytes' b) :
    Reads (d >>= f) (bytes ++ bytes') b := by
  intro rest
  have hd := h (bytes' ++ rest)
  rw [← List.append_assoc] at hd
  simp only [Bind.bind, StateT.bind, hd]
  exact h' rest

theorem Fails.bind {d : Decoder ε α} {f : α → Decoder ε β} {bytes bytes' : List UInt8} {a : α}
    {error : ε} (h : Reads d bytes a) (h' : Fails (f a) bytes' error) :
    Fails (d >>= f) (bytes ++ bytes') error := by
  intro rest
  have hd := h (bytes' ++ rest)
  rw [← List.append_assoc] at hd
  simp only [Bind.bind, StateT.bind, hd]
  exact h' rest

/-- A refusal of the first part refuses the whole, whatever comes after. -/
theorem Fails.bind_left {d : Decoder ε α} {f : α → Decoder ε β} {bytes : List UInt8} {error : ε}
    (h : Fails d bytes error) (bytes' : List UInt8) : Fails (d >>= f) (bytes ++ bytes') error := by
  intro rest
  have hd := h (bytes' ++ rest)
  rw [← List.append_assoc] at hd
  simp only [Bind.bind, StateT.bind, hd]
  rfl

theorem Reads.word (width value : Nat) (truncated : ε) :
    Reads (ByteDecoder.word width truncated) (leBytes width value) (value % 256 ^ width) := by
  intro rest
  have hlen : ¬ (leBytes width value ++ rest).length < width := by simp
  have htake : (leBytes width value ++ rest).take width = leBytes width value := by
    rw [List.take_append_of_le_length (by simp), List.take_of_length_le (by simp)]
  have hdrop : (leBytes width value ++ rest).drop width = rest := by
    rw [List.drop_append_of_le_length (by simp), List.drop_of_length_le (by simp), List.nil_append]
  rw [ByteDecoder.word, if_neg hlen, htake, hdrop, ofLeBytes_leBytes]

theorem Reads.map {d : Decoder ε α} {bytes : List UInt8} {a : α} (h : Reads d bytes a)
    (f : α → β) : Reads (do return f (← d)) bytes (f a) := by
  have := Reads.bind (f := fun a => (Pure.pure (f a) : Decoder ε β)) h (Reads.pure (f a))
  rwa [List.append_nil] at this

theorem Reads.u8 (v : UInt8) (truncated : ε) :
    Reads (ByteDecoder.u8 truncated) (leBytes 1 v.toNat) v := by
  have h := (Reads.word 1 v.toNat truncated).map UInt8.ofNat
  have hlt : v.toNat < 256 ^ 1 := v.toNat_lt
  rwa [Nat.mod_eq_of_lt hlt, UInt8.ofNat_toNat] at h

theorem Reads.u16 (v : UInt16) (truncated : ε) :
    Reads (ByteDecoder.u16 truncated) (leBytes 2 v.toNat) v := by
  have h := (Reads.word 2 v.toNat truncated).map UInt16.ofNat
  have hlt : v.toNat < 256 ^ 2 := v.toNat_lt
  rwa [Nat.mod_eq_of_lt hlt, UInt16.ofNat_toNat] at h

theorem Reads.u32 (v : UInt32) (truncated : ε) :
    Reads (ByteDecoder.u32 truncated) (leBytes 4 v.toNat) v := by
  have h := (Reads.word 4 v.toNat truncated).map UInt32.ofNat
  have hlt : v.toNat < 256 ^ 4 := v.toNat_lt
  rwa [Nat.mod_eq_of_lt hlt, UInt32.ofNat_toNat] at h

theorem Reads.u64 (v : UInt64) (truncated : ε) :
    Reads (ByteDecoder.u64 truncated) (leBytes 8 v.toNat) v := by
  have h := (Reads.word 8 v.toNat truncated).map UInt64.ofNat
  have hlt : v.toNat < 256 ^ 8 := v.toNat_lt
  rwa [Nat.mod_eq_of_lt hlt, UInt64.ofNat_toNat] at h

theorem Reads.thenU64 {f : UInt64 → Decoder ε β} {v : UInt64} {truncated : ε} {bytes : List UInt8}
    {b : β} (h : Reads (f v) bytes b) :
    Reads (ByteDecoder.u64 truncated >>= f) (leBytes 8 v.toNat ++ bytes) b :=
  (Reads.u64 v truncated).bind h

theorem Reads.require {condition : Bool} (h : condition = true) (error : ε) :
    Reads (ByteDecoder.require condition error) [] () := by
  intro rest
  rw [ByteDecoder.require, if_pos h]
  rfl

theorem Fails.require {condition : Bool} (h : condition = false) (error : ε) :
    Fails (ByteDecoder.require condition error) [] error := by
  intro rest
  rw [ByteDecoder.require, h]
  rfl

theorem Reads.orElse (a : α) (error : ε) : Reads (ByteDecoder.orElse (some a) error) [] a :=
  fun _ => rfl

theorem Reads.boolean (v : Bool) (invalid : ε) :
    Reads (ByteDecoder.boolean invalid) [if v then 1 else 0] v := by
  intro rest
  cases v <;> rfl

theorem Reads.repeated {d : Decoder ε α} {write : β → List UInt8} {read : β → α}
    (h : ∀ b, Reads d (write b) (read b)) (bs : List β) :
    Reads (ByteDecoder.repeated d bs.length) (bs.flatMap write) (bs.map read) := by
  induction bs with
  | nil => exact Reads.pure []
  | cons b bs ih =>
    exact Reads.bind (h b) (ih.map (read b :: ·))

/-- The same for items that are read back only if they are in the list. -/
theorem Reads.repeated_of_mem {d : Decoder ε α} {write : α → List UInt8} {as : List α}
    (h : ∀ a ∈ as, Reads d (write a) a) :
    Reads (ByteDecoder.repeated d as.length) (as.flatMap write) as := by
  induction as with
  | nil => exact Reads.pure []
  | cons a as ih =>
    obtain ⟨hfirst, hrest⟩ := List.forall_mem_cons.mp h
    exact Reads.bind hfirst ((ih hrest).map (a :: ·))

/-- A whole byte string decodes to the value it was written from. -/
theorem decode_of_reads {d : Decoder ε α} {bytes : List UInt8} {a : α} {trailing : ε}
    (h : Reads d bytes a) :
    decode (do let a ← d; exhausted trailing; return a) bytes = .ok a := by
  have hd := h []
  rw [List.append_nil] at hd
  simp only [decode, Bind.bind, StateT.bind, hd]
  rfl

theorem decode_of_fails {d : Decoder ε α} {bytes : List UInt8} {error trailing : ε}
    (h : Fails d bytes error) :
    decode (do let a ← d; exhausted trailing; return a) bytes = .error error := by
  have hd := h []
  rw [List.append_nil] at hd
  simp only [decode, Bind.bind, StateT.bind, hd]
  rfl

end ByteDecoder
