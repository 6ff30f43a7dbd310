import Rakro.Packet.FrameSet
import Rakro.Roundtrip.Integer

/-!
# The frame header

The writer keeps the reliability in the low bits of the flag byte and marks a fragment with `0x4`.
The reader looks for the reliability in the top three bits and for a fragment at `0x10`, and never
assigns `rely`. Both lay the optional fields out in the same order.
-/

namespace Rakro

open Infra BinaryBuffer

variable {α : Type}

/-! ## Optional fields -/

/-- The encoding of an optional field: nothing when it is empty. -/
def optBytes (f : α → Bytes) : Option α → Bytes
  | some v => f v
  | none => []

theorem emits_writeIfSome {w : α → BufM PUnit} {f : α → Bytes} (h : ∀ v, Emits (w v) (f v)) :
    ∀ o, Emits (writeIfSome w o) (optBytes f o)
  | some v => h v
  | none => Emits.nil

theorem consumes_readIf {m : BufM α} {enc : Bytes} {v : α} (h : Consumes m enc v) (c : Bool) :
    Consumes (readIf c m) (if c then enc else []) (if c then some v else none) := by
  cases c with
  | true => exact h.map some
  | false => exact Consumes.pure none

theorem scans_readIf {m : BufM α} {k : Nat} (h : Scans k m) (c : Bool) : Scans 0 (readIf c m) := by
  cases c with
  | true => exact (h.bind fun v => Scans.pure (some v)).mono (Nat.zero_le _)
  | false => exact Scans.pure none

/-! ## Writing -/

/-- The order of a frame as it is written. -/
def orderBytes (info : OrderInformation) : Bytes :=
  highBytes info.orderFrameIndex ++ [info.orderChannel]

/-- The fields of a fragment as they are written. -/
def fragmentBytes (info : FragmentInformation) : Bytes :=
  beBytes 4 info.fragmentSize.toNat
    ++ (beBytes 2 info.fragmentCompoundId.toNat ++ beBytes 4 info.fragmentIndex.toNat)

theorem emits_order (info : OrderInformation) :
    Emits (writeOrderInformation info) (orderBytes info) :=
  (emits_uint24 _).bind (emits_uint8 _)

theorem emits_fragment (info : FragmentInformation) :
    Emits (writeFragmentInformation info) (fragmentBytes info) :=
  (emits_uint32 _).bind ((emits_uint16 _).bind (emits_uint32 _))

/-- The flag byte of the writer. -/
def writtenFlags (info : FrameInfo) : UInt8 :=
  info.rely.toUnderlying ||| if info.fragmentInfo.isSome then 0x4 else 0

/-- The encoding of the optional fields. -/
def fieldBytes (info : FrameInfo) : Bytes :=
  optBytes highBytes info.reliabilityIndex ++ (optBytes highBytes info.sequenceFrameIndex
    ++ (optBytes orderBytes info.orderInfo ++ optBytes fragmentBytes info.fragmentInfo))

/-- The encoding of a frame header. -/
def infoBytes (info : FrameInfo) : Bytes :=
  writtenFlags info :: beBytes 2 (info.bodyLeng <<< 3).toNat ++ fieldBytes info

/-- The size stated by hand is the length of what is written. -/
theorem length_infoBytes (info : FrameInfo) :
    (infoBytes info).length = BinaryData.size (some info) := by
  show _ = 3 + info.reliabilityIndex.isSome.toNat * 3 + info.sequenceFrameIndex.isSome.toNat * 3
        + info.orderInfo.isSome.toNat * 4 + info.fragmentInfo.isSome.toNat * 10
  rcases info with ⟨leng, rely, _ | ri, _ | si, _ | oi, _ | fi⟩ <;>
    simp [infoBytes, fieldBytes, optBytes, orderBytes, fragmentBytes]

theorem emits_frameInfo (info : FrameInfo) : Emits (write info) (infoBytes info) := by
  refine Emits.write ?_ (Nat.le_of_eq (length_infoBytes info).symm) ?_
  · show 1 ≤ 3 + _ + _ + _ + _
    omega
  · exact (emits_uint8 _).bind ((emits_uint16 _).bind
      ((emits_writeIfSome emits_uint24 _).bind ((emits_writeIfSome emits_uint24 _).bind
        ((emits_writeIfSome emits_order _).bind (emits_writeIfSome emits_fragment _)))))

/-! ## Reading -/

theorem consumes_order {bs : Bytes} (h : bs.length = 3) (channel : UInt8) :
    Consumes readOrderInformation (bs ++ [channel])
      { orderFrameIndex := UInt24.ofNat (ofLeBytes bs), orderChannel := channel } :=
  (consumes_uint24 h).bind ((consumes_nextByte channel).map fun c =>
    ({ orderFrameIndex := UInt24.ofNat (ofLeBytes bs), orderChannel := c } : OrderInformation))

theorem scans_order : Scans 4 readOrderInformation :=
  scans_uint24.bind fun _ => scans_nextByte.bind fun _ => Scans.pure _

theorem scans_fragment : Scans 10 readFragmentInformation :=
  scans_uint32.bind fun _ => scans_uint16.bind fun _ => scans_uint32.bind fun _ => Scans.pure _

/-- A frame header is read field by field, each in its own place. -/
theorem consumes_frameInfo {flags : UInt8} {leng e₁ e₂ e₃ e₄ : Bytes} {ri si : Option UInt24}
    {oi : Option OrderInformation} {fi : Option FragmentInformation} (hleng : leng.length = 2)
    (h₁ : Consumes (readIf (isReliable (.ofBits (flags >>> 5))) (readNext UInt24)) e₁ ri)
    (h₂ : Consumes (readIf (isSeq (.ofBits (flags >>> 5))) (readNext UInt24)) e₂ si)
    (h₃ : Consumes (readIf (isOrdered (.ofBits (flags >>> 5))) readOrderInformation) e₃ oi)
    (h₄ : Consumes (readIf (flags &&& isOrderd ≠ 0) readFragmentInformation) e₄ fi) :
    Consumes (readNext FrameInfo) (flags :: leng ++ (e₁ ++ (e₂ ++ (e₃ ++ e₄))))
      { bodyLeng := UInt16.ofNat (ofBeBytes leng) >>> 3, reliabilityIndex := ri
        sequenceFrameIndex := si, orderInfo := oi, fragmentInfo := fi } := by
  refine Consumes.readNext (show 1 ≤ 3 by decide) ?_ ?_
  · show 3 ≤ _
    simp only [List.cons_append, List.length_cons, List.length_append]
    omega
  · exact (consumes_nextByte flags).bind ((consumes_uint16 hleng).bind (h₁.bind (h₂.bind
      (h₃.bind (h₄.map _)))))

theorem scans_frameInfo : Scans 3 (readNext FrameInfo) := by
  refine Scans.checked (show 1 ≤ 3 by decide) (Nat.le_refl 3) ?_
  have h : Scans (1 + (2 + (0 + (0 + (0 + (0 + 0)))))) (BinaryData.read : BufM FrameInfo) :=
    scans_nextByte.bind fun _ => scans_uint16.bind fun _ =>
      (scans_readIf scans_uint24 _).bind fun _ => (scans_readIf scans_uint24 _).bind fun _ =>
        (scans_readIf scans_order _).bind fun _ => (scans_readIf scans_fragment _).bind fun _ =>
          Scans.pure _
  exact h

/-! ## The round trip -/

namespace FrameInfo

/-- The optional fields are those of the reliability, and every number fits its field. -/
structure Encodable (info : FrameInfo) : Prop where
  reliability : info.reliabilityIndex.isSome = isReliable info.rely
  sequence : info.sequenceFrameIndex.isSome = isSeq info.rely
  order : info.orderInfo.isSome = isOrdered info.rely
  reliabilityCanonical : ∀ v ∈ info.reliabilityIndex, v.Canonical
  sequenceCanonical : ∀ v ∈ info.sequenceFrameIndex, v.Canonical
  orderCanonical : ∀ v ∈ info.orderInfo, v.orderFrameIndex.Canonical
  leng : info.bodyLeng.toNat < 8192

end FrameInfo

/-- The reader finds neither a reliability nor a fragment in a flag byte of the writer. -/
theorem writtenFlags_reads_plain (info : FrameInfo) :
    FrameReliability.ofBits (writtenFlags info >>> 5) = .unreliable
      ∧ writtenFlags info &&& isOrderd = 0 := by
  unfold writtenFlags
  cases info.rely <;> cases info.fragmentInfo.isSome <;> decide

/-- A length of thirteen bits survives the shift. -/
theorem shiftRight_shiftLeft_three {leng : UInt16} (h : leng.toNat < 8192) :
    UInt16.ofNat (ofBeBytes (beBytes 2 (leng <<< 3).toNat)) >>> 3 = leng := by
  have hlt : (leng <<< 3).toNat < 256 ^ 2 := UInt16.toNat_lt _
  rw [ofBeBytes_beBytes hlt, UInt16.ofNat_toNat]
  apply UInt16.toNat_inj.mp
  rw [UInt16.toNat_shiftRight, UInt16.toNat_shiftLeft]
  show (leng.toNat <<< 3 % 2 ^ 16) >>> 3 = leng.toNat
  rw [Nat.shiftLeft_eq, Nat.shiftRight_eq_div_pow]
  omega

/-- Whatever was written, the reader takes its first three bytes for a whole header. -/
theorem consumes_written {info : FrameInfo} (h : info.bodyLeng.toNat < 8192) :
    Consumes (readNext FrameInfo)
      (writtenFlags info :: beBytes 2 (info.bodyLeng <<< 3).toNat) { bodyLeng := info.bodyLeng } := by
  obtain ⟨hrely, hfrag⟩ := writtenFlags_reads_plain info
  have h₁ : Consumes (readIf (isReliable (.ofBits (writtenFlags info >>> 5))) (readNext UInt24)) []
      none := by rw [hrely]; exact Consumes.pure none
  have h₂ : Consumes (readIf (isSeq (.ofBits (writtenFlags info >>> 5))) (readNext UInt24)) []
      none := by rw [hrely]; exact Consumes.pure none
  have h₃ : Consumes (readIf (isOrdered (.ofBits (writtenFlags info >>> 5))) readOrderInformation)
      [] none := by rw [hrely]; exact Consumes.pure none
  have h₄ : Consumes (readIf (writtenFlags info &&& isOrderd ≠ 0) readFragmentInformation) []
      none := by rw [hfrag]; exact Consumes.pure none
  have hc := consumes_frameInfo (length_beBytes 2 (info.bodyLeng <<< 3).toNat) h₁ h₂ h₃ h₄
  rw [shiftRight_shiftLeft_three h] at hc
  simpa using hc

/-- Only three bytes come back, so the rest of the value has to be the default one. -/
theorem frameInfo_roundTrips_eq {info : FrameInfo} (h : info.bodyLeng.toNat < 8192)
    {b : BinaryBuffer} (room : b.index + BinaryData.size (some info) ≤ b.size) :
    RoundTrips info b ↔ { bodyLeng := info.bodyLeng } = info ∧ fieldBytes info = [] := by
  rw [← length_infoBytes] at room
  exact roundTrips_iff_of_consumes (emits_frameInfo info) rfl (consumes_written h) room

/--
**A frame header comes back exactly when it is unreliable and no fragment.**

Every other reliability is read back as `Unreliable`, and a fragment is not seen.
-/
theorem frameInfo_roundTrips_iff {info : FrameInfo} (h : info.Encodable) {b : BinaryBuffer}
    (room : b.index + BinaryData.size (some info) ≤ b.size) :
    RoundTrips info b ↔ info.rely = .unreliable ∧ info.fragmentInfo = none := by
  rw [frameInfo_roundTrips_eq h.leng room]
  constructor
  · rintro ⟨hinfo, -⟩
    rw [← hinfo]
    exact ⟨rfl, rfl⟩
  · rintro ⟨hrely, hfrag⟩
    have h1 := h.reliability
    have h2 := h.sequence
    have h3 := h.order
    obtain ⟨leng, rely, ri, si, oi, fi⟩ := info
    dsimp only at hrely hfrag h1 h2 h3
    subst hrely hfrag
    -- no index belongs to an unreliable frame
    obtain rfl : ri = none := by simpa [isReliable] using h1
    obtain rfl : si = none := by simpa [isSeq] using h2
    obtain rfl : oi = none := by simpa [isOrdered] using h3
    exact ⟨rfl, rfl⟩

/-- A header without optional fields. -/
theorem frameInfo_roundTrips_plain :
    RoundTrips ({ bodyLeng := 5 } : FrameInfo) { bytes := [0, 0, 0] } :=
  (frameInfo_roundTrips_iff ⟨rfl, rfl, rfl, by simp, by simp, by simp, by decide⟩
    (by decide)).mpr ⟨rfl, rfl⟩

/-- A reliable frame: five bytes of body and the index 1. -/
def reliableInfo : FrameInfo :=
  { bodyLeng := 5, rely := .reliable, reliabilityIndex := some ⟨1⟩ }

theorem reliableInfo_encodable : reliableInfo.Encodable :=
  ⟨rfl, rfl, rfl, by simp [reliableInfo, UInt24.Canonical, UInt24.toNat], by simp [reliableInfo],
    by simp [reliableInfo], by decide⟩

/-- A reliable frame is read back as an unreliable one. -/
theorem reliableInfo_not_roundTrips :
    reliableInfo.Encodable ∧ BinaryData.size (some reliableInfo) ≤ 8 ∧
      ¬ RoundTrips reliableInfo { bytes := List.replicate 8 0 } := by
  refine ⟨reliableInfo_encodable, by decide, ?_⟩
  rw [frameInfo_roundTrips_eq (by decide) (by decide)]
  rintro ⟨h, -⟩
  cases congrArg FrameInfo.rely h

end Rakro
