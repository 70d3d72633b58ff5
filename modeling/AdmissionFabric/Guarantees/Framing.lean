import AdmissionFabric.Durable.RecordCodec
import AdmissionFabric.Ipc.Frame

/-!
# Framing is independent of chunking

However the bytes of a list of frames are split into reads, the frames come back in order, followed
by the status of an orderly disconnect. If the bytes end inside a frame, all earlier frames come
back and the cut frame is reported as truncated.
-/

namespace AdmissionFabric

open ByteDecoder LittleEndian

variable {frame : WireFrame} {rest : List UInt8} (kind : MessageKind) {stream : Stream}
    {maxFrame : UInt32} {bytes : List UInt8}

namespace Stream

/-- The stream is open and will deliver these bytes in nonempty chunks. -/
def Delivers (stream : Stream) (bytes : List UInt8) : Prop :=
  stream.isOpen = true ∧ ∃ chunks : List (List UInt8), stream.arrivals = chunks.map .ok ∧
    (∀ chunk ∈ chunks, chunk ≠ []) ∧ chunks.flatten = bytes

theorem delivers_readSome (h : stream.Delivers bytes) {size : Nat} (hsize : size ≠ 0) :
    ∃ got rest, bytes = got ++ rest ∧ got.length ≤ size ∧ (got = [] → bytes = []) ∧
      (stream.readSome size).1 = .ok got ∧ (stream.readSome size).2.Delivers rest := by
  obtain ⟨hopen, chunks, harrivals, hne, rfl⟩ := h
  unfold readSome
  rw [harrivals]
  cases chunks with
  | nil => exact ⟨[], [], rfl, Nat.zero_le _, fun _ => rfl, rfl, hopen, [], harrivals, nofun, rfl⟩
  | cons chunk rest =>
    obtain ⟨hchunk, hrest⟩ := List.forall_mem_cons.mp hne
    simp only [List.map_cons]
    by_cases hle : chunk.length ≤ size
    · rw [if_pos hle]
      exact ⟨chunk, rest.flatten, rfl, hle, fun hnil => absurd hnil hchunk, rfl, hopen, rest, rfl,
        hrest, rfl⟩
    · rw [if_neg hle]
      refine ⟨chunk.take size, chunk.drop size ++ rest.flatten, ?_, List.length_take_le _ _, ?_,
        rfl, hopen, chunk.drop size :: rest, rfl, ?_, rfl⟩
      · rw [List.flatten_cons, ← List.append_assoc, List.take_append_drop]
      · intro hnil
        have hlength := congrArg List.length hnil
        rw [List.length_take, List.length_nil] at hlength
        omega
      · refine List.forall_mem_cons.mpr ⟨fun hnil => ?_, hrest⟩
        have hlength := congrArg List.length hnil
        rw [List.length_drop, List.length_nil] at hlength
        omega

theorem delivers_readLoop {turns : Nat} : ∀ {stream : Stream} {bytes : List UInt8} {size : Nat},
    stream.Delivers bytes → size ≤ turns →
      (readLoop turns stream size).1 = .ok (bytes.take size) ∧
        (readLoop turns stream size).2.Delivers (bytes.drop size) := by
  induction turns with
  | zero =>
    intro stream bytes size h hsize
    obtain rfl := Nat.le_zero.mp hsize
    exact ⟨rfl, h⟩
  | succ turns ih =>
    intro stream bytes size h hsize
    unfold readLoop
    by_cases hzero : size = 0
    · subst hzero
      exact ⟨rfl, h⟩
    · rw [if_neg hzero]
      obtain ⟨got, rest, rfl, hle, hnil, hread, hdelivers⟩ := delivers_readSome h hzero
      generalize stream.readSome size = outcome at hread hdelivers ⊢
      obtain ⟨result, stream'⟩ := outcome
      obtain rfl : result = .ok got := hread
      cases got with
      | nil =>
        obtain rfl : rest = [] := hnil rfl
        have hopen : stream'.isOpen = true := hdelivers.1
        simp only [hopen, Bool.not_true, Bool.false_eq_true, ↓reduceIte]
        exact ⟨by simp, by simpa using hdelivers⟩
      | cons byte got =>
        have hmore := ih hdelivers (by simp; omega : size - (byte :: got).length ≤ turns)
        simp only
        generalize readLoop turns stream' (size - (byte :: got).length) = outcome at hmore ⊢
        obtain ⟨result, stream''⟩ := outcome
        obtain ⟨rfl, hdelivers'⟩ := hmore
        rw [List.take_append, List.drop_append, List.take_of_length_le hle,
          List.drop_of_length_le hle, List.nil_append]
        exact ⟨rfl, hdelivers'⟩

theorem delivers_readFull (h : stream.Delivers bytes) (size : Nat) :
    (stream.readFull size).1 = .ok (bytes.take size) ∧
      (stream.readFull size).2.Delivers (bytes.drop size) :=
  delivers_readLoop h (Nat.le_refl size)

end Stream

/-! ### One frame -/

theorem length_encodeWireHeader (flags : UInt16) (payload : List UInt8) :
    (encodeWireHeader kind flags payload).length = wireHeaderBytes := by
  simp [encodeWireHeader, putU32, putU16, putCount, wireHeaderBytes]

theorem WireFrame.encode_ne_nil (frame : WireFrame) : frame.encode ≠ [] := by
  intro hnil
  have hlength := congrArg List.length hnil
  rw [encode, encodeWireFrame, List.length_append, length_encodeWireHeader] at hlength
  simp [wireHeaderBytes] at hlength

theorem MessageKind.ofCode_code : MessageKind.ofCode kind.code.toNat = some kind := by
  cases kind <;> rfl

theorem decodeWireHeader_encode (flags : UInt16) {payload : List UInt8}
    (h : payload.length ≤ maxFrame.toNat) :
    decodeWireHeader (encodeWireHeader kind flags payload) maxFrame =
      some ⟨kind, flags, payload.length, crc32c payload⟩ := by
  have hbound : maxFrame.toNat < 2 ^ 32 := maxFrame.toNat_lt
  have hword (width v : Nat) (hv : v < 256 ^ width) : ofLeBytes (leBytes width v) = v := by
    rw [ofLeBytes_leBytes, Nat.mod_eq_of_lt hv]
  -- the offsets of the fields are the widths of the fields before them
  have hkind : getWord 2 (encodeWireHeader kind flags payload) 6 = kind.code.toNat :=
    hword 2 _ kind.code.toNat_lt
  have hflags : getWord 2 (encodeWireHeader kind flags payload) 8 = flags.toNat :=
    hword 2 _ flags.toNat_lt
  have hlength : getWord 4 (encodeWireHeader kind flags payload) 12 = payload.length :=
    hword 4 _ (Nat.lt_of_le_of_lt h hbound)
  have hcrc : getWord 4 (encodeWireHeader kind flags payload) 16 = (crc32c payload).toNat :=
    hword 4 _ (crc32c payload).toNat_lt
  have hmagic : getWord 4 (encodeWireHeader kind flags payload) 0 = wireMagic.toNat :=
    hword 4 _ wireMagic.toNat_lt
  have hversion : getWord 2 (encodeWireHeader kind flags payload) 4 = formatRevision.toNat :=
    hword 2 _ formatRevision.toNat_lt
  have hreserved : getWord 2 (encodeWireHeader kind flags payload) 10 = 0 := hword 2 0 (by decide)
  rw [decodeWireHeader, if_neg (by rw [length_encodeWireHeader]; exact Nat.lt_irrefl _)]
  simp only [hmagic, hversion, hkind, hflags, hlength, hcrc, hreserved, MessageKind.ofCode_code,
    ne_eq, not_true_eq_false, ↓reduceIte, gt_iff_lt, Nat.not_lt.mpr h, UInt16.ofNat_toNat,
    UInt32.ofNat_toNat]

theorem readMessage_of_delivers (hlength : frame.payload.length ≤ maxFrame.toNat)
    (h : stream.Delivers (frame.encode ++ rest)) :
    (readMessage stream maxFrame).1 = .ok frame ∧
      (readMessage stream maxFrame).2.Delivers rest := by
  obtain ⟨kind, flags, payload⟩ := frame
  have hwidth := length_encodeWireHeader kind flags payload
  have hheader := Stream.delivers_readFull h wireHeaderBytes
  rw [WireFrame.encode, encodeWireFrame, List.append_assoc, List.take_left' hwidth,
    List.drop_left' hwidth] at hheader
  unfold readMessage
  generalize stream.readFull wireHeaderBytes = outcome at hheader ⊢
  obtain ⟨result, stream'⟩ := outcome
  obtain ⟨rfl, hdelivers⟩ := hheader
  simp only [hwidth, ne_eq, not_true_eq_false, ↓reduceIte,
    decodeWireHeader_encode kind flags hlength, readPayload]
  rw [if_neg (by decide)]
  by_cases hempty : payload = []
  · subst hempty
    exact ⟨rfl, hdelivers⟩
  · rw [if_neg (by simpa using hempty)]
    have hbody := Stream.delivers_readFull hdelivers payload.length
    rw [List.take_left, List.drop_left] at hbody
    generalize stream'.readFull payload.length = outcome at hbody ⊢
    obtain ⟨result, stream''⟩ := outcome
    obtain ⟨rfl, hdelivers'⟩ := hbody
    simp only [not_true_eq_false, ↓reduceIte]
    exact ⟨trivial, hdelivers'⟩

theorem readMessage_of_delivers_nil (h : stream.Delivers []) (maxFrame : UInt32) :
    (readMessage stream maxFrame).1 = .error ⟨.transportFailure, ""⟩ ∧
      (readMessage stream maxFrame).2.Delivers [] := by
  have hheader := Stream.delivers_readFull h wireHeaderBytes
  unfold readMessage
  generalize stream.readFull wireHeaderBytes = outcome at hheader ⊢
  obtain ⟨result, stream'⟩ := outcome
  obtain ⟨rfl, hdelivers⟩ := hheader
  exact ⟨rfl, hdelivers⟩

theorem readMessage_of_cut {missing : List UInt8}
    (hlength : frame.payload.length ≤ maxFrame.toNat) (hcut : frame.encode = bytes ++ missing)
    (hbytes : bytes ≠ []) (hmissing : missing ≠ []) (h : stream.Delivers bytes) :
    ∃ text, (readMessage stream maxFrame).1 = .error ⟨.truncatedFrame, text⟩ := by
  obtain ⟨kind, flags, payload⟩ := frame
  have hwidth := length_encodeWireHeader kind flags payload
  have hheader := Stream.delivers_readFull h wireHeaderBytes
  unfold readMessage
  generalize stream.readFull wireHeaderBytes = outcome at hheader ⊢
  obtain ⟨result, stream'⟩ := outcome
  obtain ⟨rfl, hdelivers⟩ := hheader
  have hsome : (bytes.take wireHeaderBytes).length ≠ 0 := by
    have hpos := List.length_pos_iff.mpr hbytes
    rw [List.length_take, wireHeaderBytes]
    omega
  simp only [hsome, ↓reduceIte]
  by_cases hshort : bytes.length < wireHeaderBytes
  · rw [if_pos (by rw [List.length_take]; omega)]
    exact ⟨_, rfl⟩
  · -- the header is whole, so the cut is inside the payload
    have htake : bytes.take wireHeaderBytes = encodeWireHeader kind flags payload := by
      have hhead := congrArg (List.take wireHeaderBytes) hcut
      rwa [WireFrame.encode, encodeWireFrame, List.take_left' hwidth,
        List.take_append_of_le_length (Nat.not_lt.mp hshort), eq_comm] at hhead
    have hdrop : payload = bytes.drop wireHeaderBytes ++ missing := by
      have hsuffix := congrArg (List.drop wireHeaderBytes) hcut
      rwa [WireFrame.encode, encodeWireFrame, List.drop_left' hwidth,
        List.drop_append_of_le_length (Nat.not_lt.mp hshort)] at hsuffix
    have hless : (bytes.drop wireHeaderBytes).length < payload.length := by
      have hpos := List.length_pos_iff.mpr hmissing
      rw [hdrop, List.length_append]
      omega
    simp only [htake, hwidth, ne_eq, not_true_eq_false, ↓reduceIte,
      decodeWireHeader_encode kind flags hlength, readPayload]
    rw [if_neg (by omega)]
    have hbody := Stream.delivers_readFull hdelivers payload.length
    rw [List.take_of_length_le (Nat.le_of_lt hless)] at hbody
    generalize stream'.readFull payload.length = outcome at hbody ⊢
    obtain ⟨result, stream''⟩ := outcome
    obtain ⟨rfl, -⟩ := hbody
    simp only [Nat.ne_of_lt hless, not_false_eq_true, ↓reduceIte]
    exact ⟨_, rfl⟩

/-! ### Successive reads -/

/-- The results of a number of successive reads. -/
def readMessages (maxFrame : UInt32) : Nat → Stream → List (Except Status WireFrame)
  | 0, _ => []
  | n + 1, stream =>
    (readMessage stream maxFrame).1 :: readMessages maxFrame n (readMessage stream maxFrame).2

theorem readMessages_nil (h : stream.Delivers []) (maxFrame : UInt32) (n : Nat) :
    readMessages maxFrame n stream = List.replicate n (.error ⟨.transportFailure, ""⟩) := by
  induction n generalizing stream with
  | zero => rfl
  | succ n ih =>
    obtain ⟨hread, hdelivers⟩ := readMessage_of_delivers_nil h maxFrame
    rw [readMessages, hread, ih hdelivers, List.replicate_succ]

theorem readMessages_append {frames : List WireFrame}
    (hlength : ∀ frame ∈ frames, frame.payload.length ≤ maxFrame.toNat)
    (h : stream.Delivers (frames.flatMap WireFrame.encode ++ rest)) :
    ∃ stream' : Stream, stream'.Delivers rest ∧ ∀ n,
      readMessages maxFrame (frames.length + n) stream =
        frames.map .ok ++ readMessages maxFrame n stream' := by
  induction frames generalizing stream with
  | nil => exact ⟨stream, h, fun n => by simp⟩
  | cons frame frames ih =>
    obtain ⟨hfirst, hrest⟩ := List.forall_mem_cons.mp hlength
    rw [List.flatMap_cons, List.append_assoc] at h
    obtain ⟨hread, hdelivers⟩ := readMessage_of_delivers hfirst h
    obtain ⟨stream', hdelivers', hmore⟩ := ih hrest hdelivers
    refine ⟨stream', hdelivers', fun n => ?_⟩
    rw [List.length_cons, Nat.add_right_comm, readMessages, hread, hmore, List.map_cons,
      List.cons_append]

/-- However the bytes are split into reads, the frames come back in order. Then follows an orderly
disconnect, or the report of a truncated frame if the bytes end inside one. -/
theorem readMessages_of_delivers {frames : List WireFrame} {stream : Stream} {maxFrame : UInt32}
    (hlength : ∀ frame ∈ frames, frame.payload.length ≤ maxFrame.toNat) :
    (stream.Delivers (frames.flatMap WireFrame.encode) → ∀ n,
      readMessages maxFrame (frames.length + n) stream =
        frames.map .ok ++ List.replicate n (.error ⟨.transportFailure, ""⟩)) ∧
    (∀ (frame : WireFrame) (bytes missing : List UInt8),
      frame.payload.length ≤ maxFrame.toNat → frame.encode = bytes ++ missing → bytes ≠ [] →
      missing ≠ [] → stream.Delivers (frames.flatMap WireFrame.encode ++ bytes) →
      ∃ text, readMessages maxFrame (frames.length + 1) stream =
        frames.map .ok ++ [.error ⟨.truncatedFrame, text⟩]) := by
  constructor
  · intro h n
    rw [← List.append_nil (frames.flatMap WireFrame.encode)] at h
    obtain ⟨stream', hdelivers, hmore⟩ := readMessages_append hlength h
    rw [hmore, readMessages_nil hdelivers]
  · intro frame bytes missing hframe hcut hbytes hmissing h
    obtain ⟨stream', hdelivers, hmore⟩ := readMessages_append hlength h
    obtain ⟨text, hread⟩ := readMessage_of_cut hframe hcut hbytes hmissing hdelivers
    exact ⟨text, by rw [hmore, readMessages, hread, readMessages]⟩

/-- Two frames that arrive in three reads, and the same frames with the second one cut. -/
theorem readMessages_three_reads :
    (∀ n, readMessages 8 (2 + n) ⟨[(encodeWireFrame .ping 0 []).take 7,
        (encodeWireFrame .ping 0 []).drop 7 ++ (encodeWireFrame .bye 1 [5, 6]).take 3,
        (encodeWireFrame .bye 1 [5, 6]).drop 3].map .ok, true, [], []⟩ =
      [.ok ⟨.ping, 0, []⟩, .ok ⟨.bye, 1, [5, 6]⟩] ++
        List.replicate n (.error ⟨.transportFailure, ""⟩)) ∧
    ∃ text, readMessages 8 2 ⟨[encodeWireFrame .ping 0 [],
        (encodeWireFrame .bye 1 [5, 6]).take 21].map .ok, true, [], []⟩ =
      [.ok ⟨.ping, 0, []⟩, .error ⟨.truncatedFrame, text⟩] := by
  have hlength : ∀ frame ∈ [(⟨.ping, 0, []⟩ : WireFrame), ⟨.bye, 1, [5, 6]⟩],
      frame.payload.length ≤ (8 : UInt32).toNat := by decide
  have hfirst : ∀ frame ∈ [(⟨.ping, 0, []⟩ : WireFrame)],
      frame.payload.length ≤ (8 : UInt32).toNat := by decide
  constructor
  · exact (readMessages_of_delivers hlength).1
      ⟨rfl, _, rfl, by decide +kernel, by decide +kernel⟩
  · exact (readMessages_of_delivers hfirst).2 ⟨.bye, 1, [5, 6]⟩ _
      ((encodeWireFrame .bye 1 [5, 6]).drop 21) (by decide) (List.take_append_drop 21 _).symm
      (by decide +kernel) (by decide +kernel) ⟨rfl, _, rfl, by decide +kernel, by decide +kernel⟩

end AdmissionFabric
