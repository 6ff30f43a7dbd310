import Mathlib.Data.UInt

/-!
# Message ids
-/

namespace Rakro

/-- `PacketId`. The ids that a `switch` of the source names. -/
inductive PacketId
  | connectedPingPong
  | unconnectedPing1
  | unconnectedPing2
  | unconnectedPong
  | openConnectionRequest1
  | openConnectionReply1
  | openConnectionRequest2
  | openConnectionReply2
  | connectionRequest
  | connectionRequestAccepted
  | newIncommingConnection
  | incompatibleProtocol
  | ack
  | nack
  deriving DecidableEq, Repr

namespace PacketId

/-- `std::to_underlying`. -/
def toUnderlying : PacketId → UInt8
  | connectedPingPong => 0x0
  | unconnectedPing1 => 0x1
  | unconnectedPing2 => 0x2
  | unconnectedPong => 0x1C
  | openConnectionRequest1 => 0x5
  | openConnectionReply1 => 0x6
  | openConnectionRequest2 => 0x7
  | openConnectionReply2 => 0x8
  | connectionRequest => 0x9
  | connectionRequestAccepted => 0x10
  | newIncommingConnection => 0x13
  | incompatibleProtocol => 0x19
  | ack => 0xC0
  | nack => 0xA0

/-- The id of a byte, if it is one. The cast of any other byte matches no `case`. -/
def ofByte (byte : UInt8) : Option PacketId :=
  match byte.toNat with
  | 0x0 => some connectedPingPong
  | 0x1 => some unconnectedPing1
  | 0x2 => some unconnectedPing2
  | 0x1C => some unconnectedPong
  | 0x5 => some openConnectionRequest1
  | 0x6 => some openConnectionReply1
  | 0x7 => some openConnectionRequest2
  | 0x8 => some openConnectionReply2
  | 0x9 => some connectionRequest
  | 0x10 => some connectionRequestAccepted
  | 0x13 => some newIncommingConnection
  | 0x19 => some incompatibleProtocol
  | 0xC0 => some ack
  | 0xA0 => some nack
  | _ => none

/-- The byte of an id is read as that id. -/
theorem ofByte_toUnderlying (id : PacketId) : ofByte id.toUnderlying = some id := by
  cases id <;> rfl

/-- No other byte is. -/
theorem ofByte_eq_some {byte : UInt8} {id : PacketId} :
    ofByte byte = some id ↔ byte = id.toUnderlying := by
  constructor
  · intro h
    apply UInt8.toNat_inj.mp
    unfold ofByte at h
    split at h <;> cases h <;> assumption
  · rintro rfl
    exact ofByte_toUnderlying id

end PacketId

end Rakro
