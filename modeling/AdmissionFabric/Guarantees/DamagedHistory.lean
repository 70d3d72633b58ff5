import AdmissionFabric.Guarantees.TornTail
import AdmissionFabric.Library.ByteCodec

/-!
# A flipped bit in the history

A frame that is damaged and is not at the tail should make the open fail. The checksums detect
every flipped bit, but the scan believes the length of a frame before it checks the header: a bit of
the length that makes the frame reach to the end of the file, or beyond it, turns this frame and all
frames behind it into a torn tail, which is cut off.
-/

namespace AdmissionFabric

open LittleEndian

/-! ### One changed byte -/

/-- The bytes with one bit flipped. -/
def flipBit (bytes : List UInt8) (position : Nat) (bit : Fin 8) : List UInt8 :=
  bytes.modify position (· ^^^ (1 <<< UInt8.ofNat bit))

theorem flipped_ne (byte : UInt8) (bit : Fin 8) : byte ^^^ (1 <<< UInt8.ofNat bit) ≠ byte := by
  have hmask : ∀ bit : Fin 8, (1 : UInt8) <<< UInt8.ofNat bit ≠ 0 := by decide
  intro heq
  exact hmask bit (UInt8.xor_right_inj byte |>.mp (by rw [heq, UInt8.xor_zero]))

theorem length_flipBit (bytes : List UInt8) (position : Nat) (bit : Fin 8) :
    (flipBit bytes position bit).length = bytes.length := List.length_modify _ _ _

theorem flipBit_eq {bytes : List UInt8} {position : Nat} (h : position < bytes.length)
    (bit : Fin 8) : ∃ before byte after, bytes = before ++ byte :: after ∧
      before.length = position ∧
      flipBit bytes position bit = before ++ (byte ^^^ (1 <<< UInt8.ofNat bit)) :: after := by
  refine ⟨bytes.take position, bytes[position], bytes.drop (position + 1), ?_,
    List.length_take_of_le (Nat.le_of_lt h), List.modify_eq_take_cons_drop h⟩
  rw [List.getElem_cons_drop, List.take_append_drop]

theorem segment_flipBit_out {bytes : List UInt8} {position offset width : Nat} (bit : Fin 8)
    (h : position < offset ∨ offset + width ≤ position) :
    ((flipBit bytes position bit).drop offset).take width = (bytes.drop offset).take width := by
  refine List.ext_getElem? fun j => ?_
  simp only [flipBit, List.getElem?_take, List.getElem?_drop, List.getElem?_modify]
  split
  · have hne : position ≠ offset + j := by omega
    simp [hne]
  · rfl

theorem segment_flipBit_in {bytes : List UInt8} {position offset width : Nat} (bit : Fin 8)
    (hge : offset ≤ position) :
    ((flipBit bytes position bit).drop offset).take width =
      flipBit ((bytes.drop offset).take width) (position - offset) bit := by
  refine List.ext_getElem? fun j => ?_
  simp only [flipBit, List.getElem?_take, List.getElem?_drop, List.getElem?_modify]
  split
  · have hiff : position = offset + j ↔ position - offset = j := by omega
    simp only [hiff]
  · simp

theorem flipBit_ne {bytes : List UInt8} {position : Nat} (h : position < bytes.length)
    (bit : Fin 8) : flipBit bytes position bit ≠ bytes := by
  obtain ⟨before, byte, after, hbytes, -, hflip⟩ := flipBit_eq h bit
  intro heq
  rw [hflip, hbytes, List.append_cancel_left_eq, List.cons.injEq] at heq
  exact flipped_ne byte bit heq.1

theorem crc32c_flipBit_ne {bytes : List UInt8} {position : Nat} (h : position < bytes.length)
    (bit : Fin 8) : crc32c (flipBit bytes position bit) ≠ crc32c bytes := by
  obtain ⟨before, byte, after, hbytes, -, hflip⟩ := flipBit_eq h bit
  rw [hflip, hbytes]
  exact crc32c_ne_of_byte before after (flipped_ne byte bit)

section

variable {bytes : List UInt8} {position offset width : Nat} (bit : Fin 8)

theorem getWord_flipBit_out (h : position < offset ∨ offset + width ≤ position) :
    getWord width (flipBit bytes position bit) offset = getWord width bytes offset := by
  rw [getWord, segment_flipBit_out bit h, getWord]

theorem getWord_flipBit_ne (hge : offset ≤ position) (hlt : position < offset + width)
    (hlen : offset + width ≤ bytes.length) :
    getWord width (flipBit bytes position bit) offset ≠ getWord width bytes offset := by
  have hwidth : ((bytes.drop offset).take width).length = width := by
    rw [List.length_take, List.length_drop]
    omega
  rw [getWord, segment_flipBit_in bit hge, getWord]
  intro heq
  have hbytes := congrArg (leBytes width) heq
  nth_rewrite 1 [← hwidth, ← length_flipBit _ (position - offset) bit] at hbytes
  rw [leBytes_ofLeBytes] at hbytes
  nth_rewrite 2 [← hwidth] at hbytes
  rw [leBytes_ofLeBytes] at hbytes
  exact flipBit_ne (by omega) bit hbytes

end

/-! ### A damaged frame -/

/-- The flipped bit is one of the length, and the frame with the new length, if the bound on
payloads allows it, reaches to the end of the file or beyond it. -/
def HidesTail (maxPayload : Nat) (rest : List UInt8) (position : Nat) (bit : Fin 8) : Prop :=
  (16 ≤ position ∧ position < 20) ∧ getWord 4 (flipBit rest position bit) 16 ≤ maxPayload ∧
    rest.length ≤ journalOverheadBytes + getWord 4 (flipBit rest position bit) 16

instance (maxPayload : Nat) (rest : List UInt8) (position : Nat) (bit : Fin 8) :
    Decidable (HidesTail maxPayload rest position bit) :=
  inferInstanceAs (Decidable (_ ∧ _ ∧ _))

theorem flipBit_append_right (bytes tail : List UInt8) (position : Nat) (bit : Fin 8) :
    flipBit (bytes ++ tail) (bytes.length + position) bit =
      bytes ++ flipBit tail position bit := by
  refine List.ext_getElem? fun j => ?_
  simp only [flipBit, List.getElem?_modify, List.getElem?_append]
  by_cases hj : j < bytes.length
  · have hne : bytes.length + position ≠ j := by omega
    simp [hj, hne]
  · have hiff : bytes.length + position = j ↔ position = j - bytes.length := by omega
    simp only [hj, hiff, ↓reduceIte]

section

variable {maxPayload offset : Nat} {bytes : List UInt8}
  (hlong : journalHeaderBytes ≤ bytes.length)
include hlong

theorem ne_nil_of_header : bytes ≠ [] := by
  rintro rfl
  exact absurd hlong (by decide)

theorem scanHead_of_magic (h : getWord 4 bytes 0 ≠ journalMagic.toNat) :
    ∃ message, scanHead maxPayload offset bytes = corrupted message := by
  simp only [scanHead, ne_nil_of_header hlong, Nat.not_lt.mpr hlong, h, ne_eq, not_false_eq_true,
    ↓reduceIte]
  exact ⟨_, rfl⟩

variable (hmagic : getWord 4 bytes 0 = journalMagic.toNat)
include hmagic

theorem scanHead_of_version (h : getWord 2 bytes 4 ≠ formatRevision.toNat) :
    ∃ message, scanHead maxPayload offset bytes = corrupted message := by
  simp only [scanHead, ne_nil_of_header hlong, Nat.not_lt.mpr hlong, hmagic, h, ne_eq,
    not_true_eq_false, not_false_eq_true, ↓reduceIte]
  exact ⟨_, rfl⟩

variable (hversion : getWord 2 bytes 4 = formatRevision.toNat)
include hversion

/-- A damaged header is a torn tail if the length in it reaches to the end of the file. -/
theorem scanHead_of_headerCrc
    (h : getWord 4 bytes 20 ≠ (crc32c (bytes.take (journalHeaderBytes - 4))).toNat) :
    if getWord 4 bytes 16 ≤ maxPayload ∧ bytes.length ≤ journalOverheadBytes + getWord 4 bytes 16
    then scanHead maxPayload offset bytes = .torn
    else ∃ message, scanHead maxPayload offset bytes = corrupted message := by
  simp only [scanHead, ne_nil_of_header hlong, Nat.not_lt.mpr hlong, hmagic, hversion, h, ne_eq,
    not_true_eq_false, not_false_eq_true, ↓reduceIte]
  by_cases hbound : getWord 4 bytes 16 > maxPayload
  · rw [if_neg (by omega), if_pos hbound]
    exact ⟨_, rfl⟩
  · rw [if_neg hbound]
    by_cases hend : bytes.length ≤ journalOverheadBytes + getWord 4 bytes 16
    · rw [if_pos ⟨Nat.not_lt.mp hbound, hend⟩]
      split
      · rfl
      · rw [if_pos (by omega)]
    · rw [if_neg (by omega), if_neg (by omega), if_neg (by omega)]
      exact ⟨_, rfl⟩

theorem scanHead_of_payloadCrc
    (hheader : getWord 4 bytes 20 = (crc32c (bytes.take (journalHeaderBytes - 4))).toNat)
    (hbound : getWord 4 bytes 16 ≤ maxPayload)
    (hinner : journalOverheadBytes + getWord 4 bytes 16 < bytes.length)
    (h : getWord 4 bytes (journalHeaderBytes + getWord 4 bytes 16) ≠
      (crc32c ((bytes.drop journalHeaderBytes).take (getWord 4 bytes 16))).toNat) :
    ∃ message, scanHead maxPayload offset bytes = corrupted message := by
  simp only [scanHead, ne_nil_of_header hlong, Nat.not_lt.mpr hlong, hmagic, hversion, hheader, h,
    Nat.not_lt.mpr hbound, Nat.lt_asymm hinner, Nat.ne_of_gt hinner, ne_eq, not_true_eq_false,
    not_false_eq_true, ↓reduceIte]
  exact ⟨_, rfl⟩

end

/-! ### A flipped bit, field by field -/

section

variable (maxPayload offset : Nat) {position : Nat} {frame : FileFrame} {bytes : List UInt8}
  (bit : Fin 8) (hinner : journalOverheadBytes + frame.payload.length < bytes.length)
include hinner

theorem long_flipBit (position : Nat) :
    journalHeaderBytes ≤ (flipBit bytes position bit).length := by
  rw [length_flipBit]
  rw [journalOverheadBytes] at hinner
  rw [journalHeaderBytes]
  omega

variable (hfields : Fields frame bytes)
include hfields

theorem scanHead_flipBit_front (h : position < 6) :
    ∃ message, scanHead maxPayload offset (flipBit bytes position bit) = corrupted message := by
  have hlong := long_flipBit bit hinner position
  rw [journalOverheadBytes] at hinner
  by_cases hmagic : position < 4
  · refine scanHead_of_magic hlong ?_
    rw [← hfields.magic]
    exact getWord_flipBit_ne bit (Nat.zero_le _) (by omega) (by omega)
  · refine scanHead_of_version hlong ?_ ?_
    · rw [getWord_flipBit_out bit (by omega), hfields.magic]
    · rw [← hfields.version]
      exact getWord_flipBit_ne bit (by omega) (by omega) (by omega)

theorem headerCrc_flipBit (hge : 6 ≤ position) (hlt : position < 24) :
    getWord 4 (flipBit bytes position bit) 20 ≠
      (crc32c ((flipBit bytes position bit).take (journalHeaderBytes - 4))).toNat := by
  rw [journalOverheadBytes] at hinner
  have hheader : ∀ bytes : List UInt8, bytes.take (journalHeaderBytes - 4) =
      (bytes.drop 0).take 20 := fun _ => rfl
  by_cases hchecked : position < 20
  · rw [getWord_flipBit_out bit (by omega), hfields.headerCrc, ← hfields.header, hheader, hheader,
      segment_flipBit_in bit (Nat.zero_le _)]
    intro heq
    refine crc32c_flipBit_ne ?_ bit (UInt32.toNat_inj.mp heq).symm
    rw [List.length_take, List.length_drop]
    omega
  · rw [hheader, segment_flipBit_out bit (by omega), ← hheader, hfields.header,
      ← hfields.headerCrc]
    exact getWord_flipBit_ne bit (by omega) (by omega) (by omega)

theorem scanHead_flipBit_header (hge : 6 ≤ position) (hlt : position < 24) :
    if getWord 4 (flipBit bytes position bit) 16 ≤ maxPayload ∧
      bytes.length ≤ journalOverheadBytes + getWord 4 (flipBit bytes position bit) 16
    then scanHead maxPayload offset (flipBit bytes position bit) = .torn
    else ∃ message, scanHead maxPayload offset (flipBit bytes position bit) =
      corrupted message := by
  have hlong := long_flipBit bit hinner position
  rw [← length_flipBit bytes position bit]
  refine scanHead_of_headerCrc hlong ?_ ?_ (headerCrc_flipBit bit hinner hfields hge hlt)
  · rw [getWord_flipBit_out bit (by omega), hfields.magic]
  · rw [getWord_flipBit_out bit (by omega), hfields.version]

theorem scanHead_flipBit_body (hfit : frame.payload.length ≤ maxPayload)
    (hpayload : (bytes.drop journalHeaderBytes).take frame.payload.length = frame.payload)
    (hcrc : getWord 4 bytes (journalHeaderBytes + frame.payload.length) =
      (crc32c frame.payload).toNat)
    (hge : 24 ≤ position) (hlt : position < 28 + frame.payload.length) :
    ∃ message, scanHead maxPayload offset (flipBit bytes position bit) = corrupted message := by
  have hlong := long_flipBit bit hinner position
  have hword : getWord 4 (flipBit bytes position bit) 16 = frame.payload.length := by
    rw [getWord_flipBit_out bit (by omega), hfields.length]
  have hheader : (flipBit bytes position bit).take (journalHeaderBytes - 4) = headerOf frame := by
    have hsegment : ((flipBit bytes position bit).drop 0).take 20 = (bytes.drop 0).take 20 :=
      segment_flipBit_out bit (by omega)
    exact hsegment.trans hfields.header
  refine scanHead_of_payloadCrc hlong ?_ ?_ ?_ ?_ ?_ ?_
  · rw [getWord_flipBit_out bit (by omega), hfields.magic]
  · rw [getWord_flipBit_out bit (by omega), hfields.version]
  · rw [getWord_flipBit_out bit (by omega), hheader, hfields.headerCrc]
  · rwa [hword]
  · rwa [hword, length_flipBit]
  · rw [hword]
    rw [journalOverheadBytes] at hinner
    rw [journalHeaderBytes] at hpayload hcrc ⊢
    by_cases hinside : position < 24 + frame.payload.length
    · rw [getWord_flipBit_out bit (by omega), segment_flipBit_in bit hge, hcrc, hpayload]
      intro heq
      exact crc32c_flipBit_ne (by omega) bit (UInt32.toNat_inj.mp heq).symm
    · rw [segment_flipBit_out bit (by omega), hpayload, ← hcrc]
      exact getWord_flipBit_ne bit (by omega) (by omega) (by omega)

end

theorem scanHead_flipBit {maxPayload : Nat} (hwidth : maxPayload < 2 ^ 32) {frame : FileFrame}
    (hfit : frame.payload.length ≤ maxPayload) (offset : Nat) {tail : List UInt8}
    (htail : tail ≠ []) {position : Nat} (hposition : position < frame.size) (bit : Fin 8) :
    (HidesTail maxPayload (encodeFrame frame ++ tail) position bit ∧
      scanHead maxPayload offset (flipBit (encodeFrame frame ++ tail) position bit) = .torn) ∨
    (¬ HidesTail maxPayload (encodeFrame frame ++ tail) position bit ∧
      ∃ message, scanHead maxPayload offset (flipBit (encodeFrame frame ++ tail) position bit) =
        corrupted message) := by
  have hfields := fields_encodeFrame hwidth hfit tail
  have hinner : journalOverheadBytes + frame.payload.length <
      (encodeFrame frame ++ tail).length := by
    have hpos := List.length_pos_iff.mpr htail
    rw [List.length_append, length_encodeFrame, FileFrame.size]
    omega
  have hlength := hfields.length
  unfold HidesTail
  by_cases hfront : position < 6
  · exact Or.inr ⟨fun h => by omega, scanHead_flipBit_front _ _ bit hinner hfields hfront⟩
  by_cases hheader : position < 24
  · have hscan := scanHead_flipBit_header maxPayload offset bit hinner hfields
      (Nat.not_lt.mp hfront) hheader
    by_cases hword : 16 ≤ position ∧ position < 20
    · split at hscan
      · exact Or.inl ⟨⟨hword, ‹_›⟩, hscan⟩
      · exact Or.inr ⟨fun h => absurd h.2 ‹_›, hscan⟩
    · -- the length is as it was, and the frame is not the last
      rw [getWord_flipBit_out bit (by omega), hlength, if_neg (by omega)] at hscan
      exact Or.inr ⟨fun h => hword h.1, hscan⟩
  · exact Or.inr ⟨fun h => by omega, scanHead_flipBit_body _ _ bit hinner hfields hfit
      (payload_encodeFrame frame tail) (payloadCrc_encodeFrame frame tail)
      (Nat.not_lt.mp hheader) hposition⟩

/-! ### Opening a damaged file -/

namespace JournalFile

/-- A flipped bit in a frame that is not the last is refused, with the file left as it is, unless
the bit hides the tail. -/
theorem openFile_flipBit_iff (file : JournalFile) (hwidth : file.options.maxPayload < 2 ^ 32)
    (before : List FileFrame) (frame : FileFrame) (after : List FileFrame) (hafter : after ≠ [])
    (hfit : ∀ other ∈ before ++ frame :: after,
      other.payload.length ≤ file.options.maxPayload)
    (position : Nat) (hposition : position < (encodeFrame frame).length) (bit : Fin 8)
    (hbytes : file.bytes = flipBit (encodeFrames (before ++ frame :: after))
      ((encodeFrames before).length + position) bit)
    (hsize : file.bytes.length ≤ file.options.maxFileBytes) :
    ((∃ message, file.openFile.1 = .error ⟨.corruptJournal, message⟩) ∧
        file.openFile.2.bytes = file.bytes) ↔
      ¬ HidesTail file.options.maxPayload (encodeFrame frame ++ encodeFrames after) position
        bit := by
  have hframes : encodeFrames (before ++ frame :: after) =
      encodeFrames before ++ (encodeFrame frame ++ encodeFrames after) := by
    simp [encodeFrames]
  have hbefore : ∀ other ∈ before, other.payload.length ≤ file.options.maxPayload :=
    fun other hmem => hfit other (List.mem_append_left _ hmem)
  have hframe := hfit frame (by simp)
  have htail : encodeFrames after ≠ [] := by
    obtain ⟨other, others, rfl⟩ := List.exists_cons_of_ne_nil hafter
    have hpos := size_pos other
    rw [← length_encodeFrame] at hpos
    rw [encodeFrames, List.flatMap_cons]
    exact List.append_ne_nil_of_left_ne_nil (List.length_pos_iff.mp hpos) _
  rw [hframes, flipBit_append_right] at hbytes
  -- the scan passes the frames before the damaged one
  obtain ⟨turns, hturns, hpast⟩ := scanFrom_encodeFrames hwidth hbefore
    (Nat.le_of_eq (congrArg List.length hbytes.symm)) {}
  rw [← hbytes] at hpast
  obtain ⟨turns, rfl⟩ : ∃ more, turns = more + 1 := by
    rw [length_flipBit, List.length_append] at hturns
    exact ⟨turns - 1, by omega⟩
  rw [length_encodeFrame] at hposition
  simp only [openFile, if_neg (Nat.not_lt.mpr hsize), hpast, scanFrom]
  rcases scanHead_flipBit hwidth hframe (ScanState.past {} before).goodBytes htail hposition bit
    with ⟨hhides, hscan⟩ | ⟨hhides, message, hscan⟩
  · rw [hscan]
    simp [hhides]
  · rw [hscan]
    simp only [corrupted, hhides, not_false_eq_true, iff_true]
    exact ⟨⟨_, rfl⟩, trivial⟩

/-- A flipped bit in the payload of the first of two frames is refused. -/
theorem openFile_flipped_payload :
    (∃ message, (openFile { bytes := flipBit (encodeFrames twoFrames) 24 0 }).1 =
        .error ⟨.corruptJournal, message⟩) ∧
      (openFile { bytes := flipBit (encodeFrames twoFrames) 24 0 }).2.bytes =
        flipBit (encodeFrames twoFrames) 24 0 :=
  (openFile_flipBit_iff { bytes := flipBit (encodeFrames twoFrames) 24 0 } (by decide) []
    ⟨1, 1, [7]⟩ [⟨2, 2, [8, 9]⟩] (by decide) (by decide) 24 (by decide +kernel) 0 rfl
    (by decide +kernel)).mpr (by decide +kernel)

/-- Bit 15 of the length of the first of two frames: the frame seems to have 32769 bytes of payload,
the open succeeds, and both frames are gone. -/
theorem openFile_flipped_length :
    (openFile { bytes := flipBit (encodeFrames twoFrames) 17 7 }).1 = .ok () ∧
      (openFile { bytes := flipBit (encodeFrames twoFrames) 17 7 }).2.bytes = [] ∧
      (openFile { bytes := flipBit (encodeFrames twoFrames) 17 7 }).2.scan.frames = 0 := by
  decide +kernel

end JournalFile

end AdmissionFabric
