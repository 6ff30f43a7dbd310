import Rakro.Packet.Ack

/-!
# Negative acknowledgements

A `Nack` has the records of an `Ack`, the same generator over them and the same writer but for the
id. Its reader looks for a flag in front of every record.
-/

namespace Rakro

/-- The records are those of an `Ack`: a number, or a range of numbers. -/
structure Nack where
  records : List Ack.Record := []
  deriving DecidableEq, Repr

namespace Nack

/-- `count`: how many records there are, not how many numbers. -/
def count (self : Nack) : Nat := self.records.length

/-- `all_packets`, or nothing when the generator never ends. -/
def allPackets (self : Nack) : Option (List UInt24) :=
  (self.records.mapM Ack.Record.packets).map List.flatten

/-- A record behind its flag. -/
def readRecord : BufM Ack.Record := do
  if ← readNext Bool then do
    let start ← readNext UInt24
    let stop ← readNext UInt24
    return .multi { start, stop }
  else do
    return .single (← readNext UInt24)

/-- The records behind a count. -/
def readRecords : Nat → BufM (List Ack.Record)
  | 0 => pure []
  | length + 1 => do
    let record ← readRecord
    let records ← readRecords length
    return record :: records

end Nack

instance : BinaryData Nack where
  write self := do
    write PacketId.nack.toUnderlying
    write (UInt16.ofNat self.count)
    self.records.forM Ack.writeRecord
  read := do
    let length ← readNext UInt16
    return { records := ← Nack.readRecords length.toNat }
  size _ := 3

end Rakro
