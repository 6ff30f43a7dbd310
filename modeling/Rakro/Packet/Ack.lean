import Rakro.Internal.BinaryBuffer
import Rakro.Packet.PacketId

/-!
# Acknowledgements
-/

namespace Rakro

namespace Ack

/-- A range of sequence numbers, both ends included. -/
structure MultiAck where
  start : UInt24
  stop : UInt24
  deriving DecidableEq, Repr

/-- `std::variant<uint24_t, MultiAck>`. -/
inductive Record
  | single (value : UInt24)
  | multi (range : MultiAck)
  deriving DecidableEq, Repr

end Ack

/-- The acknowledgement of some sequence numbers, single ones and ranges. -/
structure Ack where
  records : List Ack.Record := []
  deriving DecidableEq, Repr

namespace Ack

/-- `count`: how many records there are, not how many numbers. -/
def count (self : Ack) : Nat := self.records.length

/--
`for (x = start; x <= end; x++) co_yield x`. The counter wraps at 24 bits, so the loop takes at most
`2 ^ 24` steps or does not end.
-/
def yieldRange : Nat → UInt24 → UInt24 → Option (List UInt24)
  | 0, _, _ => none
  | fuel + 1, x, stop =>
    if x ≤ stop then (yieldRange fuel x.incr stop).map (x :: ·) else some []

/-- The numbers of a record. -/
def Record.packets : Record → Option (List UInt24)
  | .multi range => yieldRange (2 ^ 24 + 1) range.start range.stop
  | .single value => some [value]

/-- `all_packets`, or nothing when the generator never ends. -/
def allPackets (self : Ack) : Option (List UInt24) :=
  (self.records.mapM Record.packets).map List.flatten

/--
A record as the writer puts it: the flag stands in front of a range and is left out for a single
number.
-/
def writeRecord : Record → BufM PUnit
  | .multi range => do
    write true
    write range.start
    write range.stop
  | .single value => write value

/-- The ranges behind a count. -/
def readRanges : Nat → BufM (List Record)
  | 0 => pure []
  | length + 1 => do
    let start ← readNext UInt24
    let stop ← readNext UInt24
    let records ← readRanges length
    return .multi { start, stop } :: records

end Ack

instance : BinaryData Ack where
  write self := do
    write PacketId.ack.toUnderlying
    write (UInt16.ofNat self.count)
    self.records.forM Ack.writeRecord
  read := do
    let _ ← readNextPeak UInt8
    let multi ← readNext UInt8
    if multi ≠ 0 then do
      let length ← readNext UInt16
      return { records := ← Ack.readRanges (byteswap (n := 2) length.toBitVec).toNat }
    else do
      return { records := [.single (← readNext UInt24)] }
  size _ := 3

end Rakro
