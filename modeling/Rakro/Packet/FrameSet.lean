import Rakro.Internal.BinaryBuffer

/-!
# Frame sets

A datagram of a connected peer is a header with a sequence number and then frames. Each frame has a
header of its own, whose optional fields depend on its reliability, and a body.
-/

namespace Rakro

/-- `VALID_FRAME_MASK`: the bit that every datagram of a connected peer has in its first byte. -/
def validFrameMask : UInt8 := 0x80

/-- `VALID_MAX_FRAME_ID`: the largest first byte of a frame set. -/
def validMaxFrameId : UInt8 := 0x8D

/-- `IS_ORDERD`: the flag that the reader takes for a fragment's. -/
def isOrderd : UInt8 := 0x10

/-- The header of a frame set: an id that is always the same, and the sequence number. -/
structure FrameHeader where
  sequenceNumber : UInt24 := {}
  deriving DecidableEq, Repr

/-- What a frame promises about its delivery. The three bits of it go into the frame's flags. -/
inductive FrameReliability
  | unreliable
  | unreliableSequenced
  | reliable
  | reliableOrdered
  | reliableSequenced
  | unreliableWithAckReceipt
  | reliableWithAckReceipt
  | reliableOrderedWithAckReceipt
  deriving DecidableEq, Repr

namespace FrameReliability

/-- `std::to_underlying`. -/
def toUnderlying : FrameReliability → UInt8
  | unreliable => 0
  | unreliableSequenced => 1
  | reliable => 2
  | reliableOrdered => 3
  | reliableSequenced => 4
  | unreliableWithAckReceipt => 5
  | reliableWithAckReceipt => 6
  | reliableOrderedWithAckReceipt => 7

/-- The cast of a number of three bits. -/
def ofBits (bits : UInt8) : FrameReliability :=
  match bits.toNat with
  | 0 => unreliable
  | 1 => unreliableSequenced
  | 2 => reliable
  | 3 => reliableOrdered
  | 4 => reliableSequenced
  | 5 => unreliableWithAckReceipt
  | 6 => reliableWithAckReceipt
  | _ => reliableOrderedWithAckReceipt

end FrameReliability

/--
`is_reliable`: the frame carries a reliability index. The two kinds with a receipt that are reliable
by name are left out.
-/
def isReliable (rely : FrameReliability) : Bool :=
  rely = .reliable || rely = .reliableOrdered || rely = .reliableSequenced

/-- `is_seq`: the frame carries a sequence index. -/
def isSeq (rely : FrameReliability) : Bool :=
  rely = .unreliableSequenced || rely = .reliableSequenced

/-- `is_ordered`: the frame carries an index and a channel of its order. -/
def isOrdered (rely : FrameReliability) : Bool :=
  rely = .unreliableSequenced || rely = .reliableOrdered || rely = .reliableSequenced
    || rely = .reliableOrderedWithAckReceipt

/-- The place of a frame in the order of its channel. -/
structure OrderInformation where
  orderFrameIndex : UInt24 := {}
  orderChannel : UInt8 := 0
  deriving DecidableEq, Repr

/-- The part of a larger packet that a frame holds. -/
structure FragmentInformation where
  fragmentSize : UInt32 := 0
  fragmentCompoundId : UInt16 := 0
  fragmentIndex : UInt32 := 0
  deriving DecidableEq, Repr

/-- The header of a frame: the length of its body, its reliability and what that brings along. -/
structure FrameInfo where
  bodyLeng : UInt16 := 0
  rely : FrameReliability := .unreliable
  reliabilityIndex : Option UInt24 := none
  sequenceFrameIndex : Option UInt24 := none
  orderInfo : Option OrderInformation := none
  fragmentInfo : Option FragmentInformation := none
  deriving DecidableEq, Repr

/-- `FrameInfo::packet_id`. -/
def FrameInfo.packetId : UInt8 := 0x80

/-! ## The codecs -/

instance : BinaryData FrameHeader where
  write self := do
    write FrameInfo.packetId
    write self.sequenceNumber
  read := do
    let _ ← readNext UInt8
    return { sequenceNumber := ← readNext UInt24 }
  size val := 4 - val.isSome.toNat

/-- `if (has_value()) write(value)`. -/
def writeIfSome {α : Type} (f : α → BufM PUnit) : Option α → BufM PUnit
  | some val => f val
  | none => pure ⟨⟩

/-- `if (condition) field = read()`, where the field is empty so far. -/
def readIf {α : Type} (condition : Bool) (m : BufM α) : BufM (Option α) :=
  if condition then do return some (← m) else pure none

/-- The order index and the channel. -/
def writeOrderInformation (info : OrderInformation) : BufM PUnit := do
  write info.orderFrameIndex
  write info.orderChannel

/-- The order index and the channel. -/
def readOrderInformation : BufM OrderInformation := do
  let orderFrameIndex ← readNext UInt24
  let orderChannel ← nextByte
  return { orderFrameIndex, orderChannel }

/-- The three fields of a fragment. -/
def writeFragmentInformation (info : FragmentInformation) : BufM PUnit := do
  write info.fragmentSize
  write info.fragmentCompoundId
  write info.fragmentIndex

/-- The three fields of a fragment. -/
def readFragmentInformation : BufM FragmentInformation := do
  let fragmentSize ← readNext UInt32
  let fragmentCompoundId ← readNext UInt16
  let fragmentIndex ← readNext UInt32
  return { fragmentSize, fragmentCompoundId, fragmentIndex }

instance : BinaryData FrameInfo where
  write self := do
    write (self.rely.toUnderlying ||| if self.fragmentInfo.isSome then 0x4 else 0)
    write (self.bodyLeng <<< 3)
    writeIfSome write self.reliabilityIndex
    writeIfSome write self.sequenceFrameIndex
    writeIfSome writeOrderInformation self.orderInfo
    writeIfSome writeFragmentInformation self.fragmentInfo
  read := do
    let flags ← nextByte
    let rely := FrameReliability.ofBits (flags >>> 5)
    let bodyLeng ← readNext UInt16
    let reliabilityIndex ← readIf (isReliable rely) (readNext UInt24)
    let sequenceFrameIndex ← readIf (isSeq rely) (readNext UInt24)
    let orderInfo ← readIf (isOrdered rely) readOrderInformation
    let fragmentInfo ← readIf (flags &&& isOrderd ≠ 0) readFragmentInformation
    -- `info.rely` is not assigned and keeps its default
    return {
      bodyLeng := bodyLeng >>> 3
      reliabilityIndex, sequenceFrameIndex, orderInfo, fragmentInfo }
  size
    | some value =>
      3 + value.reliabilityIndex.isSome.toNat * 3 + value.sequenceFrameIndex.isSome.toNat * 3
        + value.orderInfo.isSome.toNat * 4 + value.fragmentInfo.isSome.toNat * 10
    | none => 3

/-- `make_info`: the header of a frame around what has been written into `data`. -/
def makeInfo (rely : FrameReliability) (data : BinaryBuffer)
    (reliabilityIndex sequenceFrameIndex : Option UInt24 := none)
    (orderInfo : Option OrderInformation := none)
    (fragmentInfo : Option FragmentInformation := none) : FrameInfo where
  bodyLeng := UInt16.ofNat data.consumed
  rely := rely
  reliabilityIndex := reliabilityIndex
  sequenceFrameIndex := sequenceFrameIndex
  orderInfo := orderInfo
  fragmentInfo := fragmentInfo

end Rakro
