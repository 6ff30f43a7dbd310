import Rakro.Properties.Codec

/-!
# Typed access stays inside the buffer

A codec reaches the bytes through `next_byte` and `write_byte` only, and each of them checks its own
access. So whatever the size that a codec states up front, a read or a write of it stays inside the
view: an access past the end would be an undefined exception, and none is thrown.
-/

namespace Rakro

open Infra

/-! ## What an access may do -/

/-- The cursor is inside the view, and the view is not larger than an object can be. -/
structure BinaryBuffer.InView (b : BinaryBuffer) : Prop where
  index_le : b.index ≤ b.size
  size_lt : b.size < 2 ^ 63

/-- Started inside the view, `m` reads inside of it. -/
abbrev ReadsSafely {α : Type} (m : BufM α) : Prop :=
  Maintains BinaryBuffer.InView ReadFrame Defined m

/-- Started inside the view, `m` writes inside of it. -/
abbrev WritesSafely {α : Type} (m : BufM α) : Prop :=
  Maintains BinaryBuffer.InView WriteFrame Defined m

/-! ## The byte primitives -/

section Primitives

theorem reads_boundsCheck (extra : Nat) : ReadsSafely (boundsCheck extra) :=
  Maintains.get_bind fun _ _ =>
    Maintains.ite (Maintains.throw fun _ h => by cases h) (Maintains.pure _)

theorem writes_boundsCheck (extra : Nat) : WritesSafely (boundsCheck extra) :=
  (reads_boundsCheck extra).mono fun _ _ => ReadFrame.writeFrame

/-- For a byte, the check is the comparison of the cursor with the size. -/
theorem run_boundsCheck_one {b : BinaryBuffer} (hb : b.InView) :
    (boundsCheck 1).run b
      = if b.index < b.size then .ok ⟨⟩ b
        else .error (.outOfRange "Not enough space in type") b := by
  have hle := hb.index_le
  have hlt := hb.size_lt
  have hmod : (b.index + 1 - 1) % 2 ^ 64 = b.index := by omega
  unfold boundsCheck
  rw [run_get_bind]
  rw [hmod]
  by_cases h : b.index < b.size
  · rw [if_neg (by omega), if_pos h]
    rfl
  · rw [if_pos (by omega), if_neg h]
    rfl

/-- A step behind the check of a byte only counts where there is one. -/
theorem maintains_byte {α : Type} {R : BinaryBuffer → BinaryBuffer → Prop}
    [IsPreorder BinaryBuffer R] {m : PUnit → BufM α}
    (hm : ∀ b : BinaryBuffer, b.InView → b.index < b.size → ∃ a b', (m ⟨⟩).run b = .ok a b' ∧
      b'.InView ∧ R b b') : Maintains BinaryBuffer.InView R Defined (boundsCheck 1 >>= m) := by
  intro b hb
  have hcheck := run_boundsCheck_one hb
  by_cases hlt : b.index < b.size
  · rw [if_pos hlt] at hcheck
    obtain ⟨a, b', hrun, hview, hrel⟩ := hm b hb hlt
    rw [after_bind_ok hcheck, run_bind_of_ok hcheck, after_of_ok hrun, hrun]
    refine ⟨hview, hrel, fun e s' h => ?_⟩
    cases h
  · rw [if_neg hlt] at hcheck
    rw [after_bind_error hcheck, run_bind_of_error hcheck]
    refine ⟨hb, refl b, fun e s' h => ?_⟩
    cases h
    intro what hwhat
    cases hwhat

theorem reads_nextByte : ReadsSafely nextByte := by
  refine maintains_byte fun b hb hlt => ?_
  have hsize : b.index < b.bytes.length := hlt
  refine ⟨b.bytes[b.index], b.skipn 1, ?_, ⟨Nat.succ_le_of_lt hlt, hb.size_lt⟩,
    ⟨Nat.le_succ _, rfl⟩⟩
  rw [run_get_bind]
  rw [EStateM.run_bind, EStateM.run_set]
  dsimp only
  rw [List.getElem?_eq_getElem hsize]
  rfl

theorem writes_writeByte (val : UInt8) : WritesSafely (writeByte val) := by
  refine maintains_byte fun b hb hlt => ?_
  have hlength : (b.bytes.set b.index val).length = b.bytes.length := List.length_set
  refine ⟨⟨⟩, { b with bytes := b.bytes.set b.index val, index := b.index + 1 }, ?_, ?_, ?_⟩
  · rw [run_get_bind]
    rw [if_pos hlt]
    rfl
  · exact ⟨(Nat.succ_le_of_lt hlt).trans_eq hlength.symm, hlength.trans_lt hb.size_lt⟩
  · refine ⟨Nat.le_succ _, hlength, fun n hn => ?_, rfl, rfl, rfl⟩
    dsimp only at hn
    exact List.getElem?_set_ne (by omega)

/-- Looking ahead puts the cursor back. -/
theorem reads_lookAhead {α : Type} {m : BufM α} (hm : ReadsSafely m) :
    ReadsSafely (lookAhead m) := by
  intro b hb
  obtain ⟨hview, hframe, herror⟩ := hm b hb
  cases h : m.run b with
  | ok a b' =>
    rw [after_of_ok h] at hframe
    have hrun := run_lookAhead_ok h hframe
    rw [after_of_ok hrun, hrun]
    exact Maintains.pure a b hb
  | error e b' =>
    have hrun := run_lookAhead_error h
    rw [after_of_error hrun, hrun, ← h, ← after_of_error h]
    exact ⟨hview, hframe, herror⟩

end Primitives

/-! ## Methods made of the primitives -/

theorem Reading.safely {α : Type} {m : BufM α} (h : Reading m) : ReadsSafely m := by
  induction h with
  | pure a => exact Maintains.pure a
  | throw hdefined => exact Maintains.throw hdefined
  | bind _ _ ihm ihf => exact Maintains.bind ihm ihf
  | check extra => exact reads_boundsCheck extra
  | nextByte => exact reads_nextByte
  | ahead _ ih => exact reads_lookAhead ih
  | view _ _ ih => exact Maintains.get_bind fun b _ => ih b

theorem Filling.safely {m : BufM PUnit} (h : Filling m) : WritesSafely m := by
  induction h with
  | pure => exact Maintains.pure _
  | throw hdefined => exact Maintains.throw hdefined
  | bind _ _ ihm ihn => exact Maintains.bind ihm fun _ => ihn
  | check extra => exact writes_boundsCheck extra
  | writeByte val => exact writes_writeByte val

/-! ## Sequences of accesses -/

/-- The types that have a codec. -/
inductive WireType
  | uint8 | uint16 | uint32 | uint64 | int8 | int16 | int32 | int64 | char | bool
  | uint24 | string | magic | rakAddress | frameHeader | frameInfo | ack | nack
  | unconnectedPing | unconnectedPong
  | openConnectionRequest1 | openConnectionReply1 | openConnectionRequest2 | openConnectionReply2
  | incompatibleProtocol
  | connectionRequest | connectionRequestAccepted | connectedPing | connectedPong

namespace WireType

/-- The values of the type. -/
abbrev Carrier : WireType → Type
  | uint8 => UInt8
  | uint16 => UInt16
  | uint32 => UInt32
  | uint64 => UInt64
  | int8 => Int8
  | int16 => Int16
  | int32 => Int32
  | int64 => Int64
  | char => CChar
  | bool => Bool
  | uint24 => UInt24
  | string => StdString
  | magic => MagicType
  | rakAddress => RakAddress
  | frameHeader => FrameHeader
  | frameInfo => FrameInfo
  | ack => Ack
  | nack => Nack
  | unconnectedPing => UnconnectedPing
  | unconnectedPong => UnconnectedPong
  | openConnectionRequest1 => OpenConnectionRequest1
  | openConnectionReply1 => OpenConnectionReply1
  | openConnectionRequest2 => OpenConnectionRequest2
  | openConnectionReply2 => OpenConnectionReply2
  | incompatibleProtocol => IncompatibleProtocol
  | connectionRequest => ConnectionRequest
  | connectionRequestAccepted => ConnectionRequestAccepted
  | connectedPing => ConnectedPing
  | connectedPong => ConnectedPong

instance : (type : WireType) → BinaryData type.Carrier
  | uint8 | uint16 | uint32 | uint64 | int8 | int16 | int32 | int64 | char | bool
  | uint24 | string | magic | rakAddress | frameHeader | frameInfo | ack | nack
  | unconnectedPing | unconnectedPong
  | openConnectionRequest1 | openConnectionReply1 | openConnectionRequest2 | openConnectionReply2
  | incompatibleProtocol
  | connectionRequest | connectionRequestAccepted | connectedPing | connectedPong =>
    inferInstance

instance (type : WireType) : Codec type.Carrier := by
  cases type <;> infer_instance

end WireType

/-- A call of `read_next` or of `write`. -/
inductive TypedAccess
  | read (type : WireType)
  | write (type : WireType) (val : type.Carrier)

namespace TypedAccess

/-- The call that an access is. -/
def run : TypedAccess → BufM PUnit
  | read type => do
    let _ ← readNext type.Carrier
  | write _ val => Rakro.write val

/-- The access keeps to the buffer `b`, whether it returns or throws. -/
structure Safe (access : TypedAccess) (b : BinaryBuffer) : Prop where
  defined : ∀ e b', access.run.run b = .error e b' → Defined e
  index_le_size : (after access.run b).index ≤ (after access.run b).size
  index_le : b.index ≤ (after access.run b).index
  read_bytes : ∀ type, access = read type → (after access.run b).bytes = b.bytes
  outside : ∀ n, n < b.index ∨ (after access.run b).index ≤ n →
    (after access.run b).bytes[n]? = b.bytes[n]?
  beyond : (after access.run b).beyond = b.beyond

theorem writes_run : ∀ access : TypedAccess, WritesSafely access.run
  | read type => ((reading_readNext type.Carrier).map _).safely.mono fun _ _ => ReadFrame.writeFrame
  | write _ val => (filling_write val).safely

/-- An access to a buffer that can be read is safe. -/
theorem safe_of_inView (access : TypedAccess) {b : BinaryBuffer} (hb : b.InView) :
    access.Safe b := by
  obtain ⟨hview, hframe, hdefined⟩ := writes_run access b hb
  refine ⟨hdefined, hview.index_le, hframe.index_le, fun type htype => ?_, hframe.bytes_eq,
    hframe.beyond_eq⟩
  subst htype
  have hread : ReadsSafely (read type).run := ((reading_readNext type.Carrier).map _).safely
  rw [(hread b hb).2.1.unchanged]

/--
**However a sequence of typed reads and writes goes, each access of it keeps to the view, and the
bytes outside of what the cursor has passed over are those of before.**
-/
theorem safe_of_sequence {b : BinaryBuffer} (hindex : b.index ≤ b.size) (hsize : b.size < 2 ^ 63)
    (accesses : List TypedAccess) :
    (afterAll run b accesses).InView ∧ WriteFrame b (afterAll run b accesses) ∧
      ∀ l access, l ++ [access] <+: accesses → access.Safe (afterAll run b l) := by
  have hb : b.InView := ⟨hindex, hsize⟩
  refine ⟨Maintains.holds_afterAll writes_run hb accesses,
    Maintains.rel_afterAll writes_run hb accesses, fun l access _ => ?_⟩
  exact safe_of_inView access (Maintains.holds_afterAll writes_run hb l)

/-- A number that fits, one that does not, and a byte behind it. -/
theorem safe_of_sequence_threeBytes :
    (afterAll run { bytes := [1, 2, 3] } [.read .uint16, .write .uint32 7, .write .uint8 9]).bytes
        = [1, 2, 9] ∧
      WriteFrame { bytes := [1, 2, 3] }
        (afterAll run { bytes := [1, 2, 3] } [.read .uint16, .write .uint32 7, .write .uint8 9]) :=
  ⟨by decide +kernel, (safe_of_sequence (by decide) (by decide) _).2.1⟩

end TypedAccess

end Rakro
