import Rakro.Properties.TypedAccess
import Rakro.Roundtrip.Ack
import Rakro.Roundtrip.Nack
import Rakro.Roundtrip.ReadyBuffer
import Rakro.Roundtrip.Sequence

/-!
# When a write is all or nothing

`write` checks the size that the codec states, and the codec then writes field by field. A write is
all or nothing as far as the two agree.

* A size that is too small lets a value begin that does not fit, and `size` is not what the cursor
  moves by: the header of a frame set, acknowledgements.
* A size that is too large refuses a value that would fit: an unconnected pong, the first reply.
-/

namespace Rakro

open Infra BinaryBuffer

/-! ## What is asked for -/

/-- The bytes between the cursor and the end of the view. -/
def BinaryBuffer.room (b : BinaryBuffer) : Nat := b.size - b.index

@[simp] theorem BinaryBuffer.room_between (b : BinaryBuffer) (p r : Bytes) :
    (b.between p r).room = r.length := by
  unfold room
  rw [between_size, between_index, Nat.add_sub_cancel_left]

/--
Written to `b`, the value `v` with the encoding `enc` is written whole, as soon as there is room for
it, or not at all.
-/
structure AllOrNothing {T : Type} [BinaryData T] (v : T) (enc : Bytes) (b : BinaryBuffer) :
    Prop where
  succeeds_iff : Succeeds (write v) b ↔ enc.length ≤ b.room
  advances : ∀ b', (write v).run b = .ok ⟨⟩ b' → b'.index = b.index + BinaryData.size (some v)
  unchanged : ∀ e b', (write v).run b = .error e b' → b'.bytes = b.bytes ∧ b'.index = b.index

/-! ## Behind the end of the view -/

/-- At the end of the view or behind it, `m` throws and changes nothing. -/
def Refuses (m : BufM PUnit) : Prop :=
  ∀ b : BinaryBuffer, b.index < 2 ^ 64 → b.size ≤ b.index → ∃ e, m.run b = .error e b

section Refuses

variable {m : BufM PUnit}

theorem Refuses.bind {f : PUnit → BufM PUnit} (hm : Refuses m) : Refuses (m >>= f) := by
  intro b hindex hend
  obtain ⟨e, hrun⟩ := hm b hindex hend
  exact ⟨e, run_bind_of_error hrun⟩

theorem Refuses.checked {extra : Nat} (hm : Refuses m) :
    Refuses (boundsCheck extra >>= fun _ => m) := by
  intro b hindex hend
  cases hcheck : (boundsCheck extra).run b with
  | ok u b' =>
    obtain rfl := boundsCheck_eq_ok hcheck
    rw [run_bind_of_ok hcheck]
    exact hm b' hindex hend
  | error e b' =>
    obtain rfl := boundsCheck_eq_error hcheck
    exact ⟨e, run_bind_of_error hcheck⟩

theorem refuses_writeByte (val : UInt8) : Refuses (writeByte val) :=
  fun _ hindex hend => ⟨_, run_bind_of_error (run_boundsCheck_end hindex hend)⟩

theorem refuses_writeBytes {bs : Bytes} (h : bs ≠ []) : Refuses (bs.forM writeByte) := by
  cases bs with
  | nil => exact absurd rfl h
  | cons x bs => exact (refuses_writeByte x).bind

theorem refuses_writeIntegral {n : Nat} (hn : 1 ≤ n) (val : BitVec (8 * n)) :
    Refuses (writeIntegral n val) := by
  refine refuses_writeBytes fun h => ?_
  have hlength := length_leBytes n (byteswap val).toNat
  rw [h, List.length_nil] at hlength
  omega

/-- A typed write refuses when its codec does. -/
theorem Refuses.write {T : Type} [BinaryData T] {v : T} (h : Refuses (BinaryData.write v)) :
    Refuses (write v) := h.checked

theorem IntegralValue.IsIntegral.refuses {T : Type} [BinaryData T] {n : Nat}
    {toBits : T → BitVec (8 * n)} {ofBits : BitVec (8 * n) → T}
    (h : IsIntegral T n toBits ofBits) (val : T) : Refuses (Rakro.write val) := by
  refine Refuses.write ?_
  rw [h.write]
  exact refuses_writeIntegral h.pos _

theorem refuses_uint8 (val : UInt8) : Refuses (write val) :=
  IntegralValue.isIntegral_uint8.refuses val

theorem refuses_uint16 (val : UInt16) : Refuses (write val) :=
  IntegralValue.isIntegral_uint16.refuses val

theorem refuses_uint64 (val : UInt64) : Refuses (write val) :=
  IntegralValue.isIntegral_uint64.refuses val

end Refuses

/-! ## What the stated size decides -/

section Size

variable {T : Type} [BinaryData T] {v : T} {enc : Bytes} {b : BinaryBuffer}

/-- A write that throws at once is all or nothing where there is no room for the encoding. -/
theorem AllOrNothing.of_error {e : Exn} (hrun : (write v).run b = .error e b)
    (henc : b.room < enc.length) : AllOrNothing v enc b := by
  refine ⟨iff_of_false (not_succeeds_of_error hrun) (by omega), fun b' h => ?_, fun e' b' h => ?_⟩
  · rw [hrun] at h
    cases h
  · rw [hrun] at h
    cases h
    exact ⟨rfl, rfl⟩

/-- Behind the end of the view, every write throws at once. -/
theorem AllOrNothing.of_refuses (hrefuses : Refuses (write v)) (henc : 1 ≤ enc.length)
    (hindex : b.index < 2 ^ 64) (hend : b.size ≤ b.index) : AllOrNothing v enc b := by
  obtain ⟨e, hrun⟩ := hrefuses b hindex hend
  have hroom : b.room = 0 := Nat.sub_eq_zero_of_le hend
  exact .of_error hrun (by omega)

/-- With too little room for the stated size, the write throws at once. -/
theorem run_write_short (hview : b.index ≤ b.size) (hroom : b.room < BinaryData.size (some v))
    (haddress : b.size + BinaryData.size (some v) ≤ 2 ^ 64) :
    (write v).run b = .error (.outOfRange "Not enough space in type") b := by
  rw [eq_between hview, room_between] at hroom
  have hlen := length_consumedSlice hview
  have hcheck := run_boundsCheck_short (b := b) (p := b.consumedSlice) hroom
    (by rw [hlen, BinaryBuffer.consumed]; omega)
  rw [← eq_between hview] at hcheck
  exact run_bind_of_error hcheck

/-- A check passes where there is room for what it asks for. -/
theorem run_boundsCheck_room {extra : Nat} (hview : b.index ≤ b.size) (hpos : 1 ≤ extra)
    (hroom : extra ≤ b.room) : (boundsCheck extra).run b = .ok ⟨⟩ b := by
  rw [eq_between hview, room_between] at hroom
  have hcheck := run_boundsCheck (b := b) (p := b.consumedSlice) hpos hroom
  rwa [← eq_between hview] at hcheck

/-- A writer succeeds where there is room for all it writes, and the cursor ends behind it. -/
theorem Emits.exists_run {m : BufM PUnit} (hm : Emits m enc) (hview : b.index ≤ b.size)
    (hroom : enc.length ≤ b.room) :
    ∃ b', m.run b = .ok ⟨⟩ b' ∧ b'.index = b.index + enc.length := by
  obtain ⟨r, hrun, -⟩ := hm.run_room (b := b) (by unfold room at hroom; omega)
  refine ⟨_, hrun, ?_⟩
  rw [between_index, List.length_append, length_consumedSlice hview]
  rfl

/-- Once the id of a message is written, the cursor has moved. -/
theorem index_lt_of_begun {n : BufM PUnit} {id : UInt8} {e : Exn} {b' : BinaryBuffer}
    (hfields : BinaryData.write v = write id >>= fun _ => n) (hn : Filling n)
    (hpos : 1 ≤ BinaryData.size (some v)) (hview : b.index ≤ b.size)
    (hroom : BinaryData.size (some v) ≤ b.room) (h : (write v).run b = .error e b') :
    b.index < b'.index := by
  obtain ⟨b₁, hrun, hindex⟩ := (emits_uint8 id).exists_run hview (Nat.le_trans hpos hroom)
  unfold Rakro.write at h
  rw [run_bind_of_ok (run_boundsCheck_room hview hpos hroom), hfields, run_bind_of_ok hrun] at h
  have hframe := hn.within b₁
  rw [after_of_error h] at hframe
  rw [List.length_singleton] at hindex
  exact Nat.lt_of_lt_of_le (by omega) hframe.index_le

/-- A size that is the length of the encoding is as it should be. -/
theorem AllOrNothing.of_size_eq (hw : Emits (write v) enc)
    (hsize : BinaryData.size (some v) = enc.length) (hview : b.index ≤ b.size)
    (haddress : b.size + BinaryData.size (some v) ≤ 2 ^ 64) : AllOrNothing v enc b := by
  by_cases hroom : enc.length ≤ b.room
  · obtain ⟨b₁, hrun, hindex⟩ := hw.exists_run hview hroom
    refine ⟨iff_of_true ⟨_, _, hrun⟩ hroom, fun b' h => ?_, fun e b' h => ?_⟩
    · rw [hrun] at h
      cases h
      rw [hindex, hsize]
    · rw [hrun] at h
      cases h
  · exact .of_error (run_write_short hview (by omega) haddress) (by omega)

/-- A size that is too small passes what then does not fit. -/
theorem allOrNothing_iff_of_lt {n : BufM PUnit} {id : UInt8} (hw : Emits (write v) enc)
    (hfields : BinaryData.write v = write id >>= fun _ => n) (hn : Filling n)
    (hpos : 1 ≤ BinaryData.size (some v)) (hsize : BinaryData.size (some v) < enc.length)
    (hview : b.index ≤ b.size) (haddress : b.size + BinaryData.size (some v) ≤ 2 ^ 64) :
    AllOrNothing v enc b ↔ b.room < BinaryData.size (some v) := by
  constructor
  · intro h
    by_contra hroom
    by_cases henc : enc.length ≤ b.room
    · obtain ⟨b', hrun, hindex⟩ := hw.exists_run hview henc
      have hadvance := h.advances _ hrun
      omega
    · obtain ⟨e, hrun⟩ := run_of_not_succeeds (fun hok => henc (h.succeeds_iff.mp hok))
      have hmoved := index_lt_of_begun hfields hn hpos hview (Nat.le_of_not_lt hroom) hrun
      have hsame := (h.unchanged _ _ hrun).2
      omega
  · intro hroom
    exact .of_error (run_write_short hview hroom haddress) (by omega)

/-- A size that is too large refuses what would fit. -/
theorem allOrNothing_iff_of_gt (hw : Emits (BinaryData.write v) enc)
    (hsize : enc.length < BinaryData.size (some v)) (hview : b.index ≤ b.size)
    (haddress : b.size + BinaryData.size (some v) ≤ 2 ^ 64) :
    AllOrNothing v enc b ↔ b.room < enc.length := by
  constructor
  · intro h
    by_contra hroom
    have henc : enc.length ≤ b.room := Nat.le_of_not_lt hroom
    by_cases hstated : BinaryData.size (some v) ≤ b.room
    · obtain ⟨b', hrun, hindex⟩ := hw.exists_run hview henc
      have hcheck := run_boundsCheck_room hview (by omega) hstated
      have hadvance := h.advances _ ((run_bind_of_ok hcheck).trans hrun)
      omega
    · have hrun := run_write_short hview (Nat.lt_of_not_le hstated) haddress
      exact not_succeeds_of_error hrun (h.succeeds_iff.mpr henc)
  · intro hroom
    exact .of_error (run_write_short hview (by omega) haddress) hroom

end Size

/-! ## The codecs -/

/-- The size that is stated of `v` is the length of its encoding. -/
structure StatesSize {T : Type} [BinaryData T] (v : T) (enc : Bytes) : Prop where
  emits : Emits (write v) enc
  refuses : Refuses (write v)
  size_eq : BinaryData.size (some v) = enc.length
  pos : 1 ≤ enc.length

/-- A codec that states its size rightly writes everything or nothing. -/
theorem StatesSize.allOrNothing {T : Type} [BinaryData T] {v : T} {enc : Bytes}
    (h : StatesSize v enc) {b : BinaryBuffer} (hindex : b.index < 2 ^ 64)
    (haddress : b.size + BinaryData.size (some v) ≤ 2 ^ 64) : AllOrNothing v enc b := by
  by_cases hview : b.index ≤ b.size
  · exact .of_size_eq h.emits h.size_eq hview haddress
  · exact .of_refuses h.refuses h.pos hindex (by omega)

/-- An integer is as long as its codec says. -/
theorem IntegralValue.IsIntegral.statesSize {T : Type} [BinaryData T] {n : Nat}
    {toBits : T → BitVec (8 * n)} {ofBits : BitVec (8 * n) → T}
    (h : IsIntegral T n toBits ofBits) (val : T) :
    StatesSize val (beBytes n (toBits val).toNat) := by
  refine ⟨h.emits val, h.refuses val, ?_, ?_⟩
  · rw [h.size, length_beBytes]
  · rw [length_beBytes]
    exact h.pos

/-- A message of `n` bytes. -/
theorem StatesSize.of_length {T : Type} [BinaryData T] {v : T} {enc : Bytes} {n : Nat}
    (hlength : enc.length = n) (hn : 1 ≤ n) (hsize : BinaryData.size (some v) = n)
    (hemits : Emits (BinaryData.write v) enc) (hrefuses : Refuses (BinaryData.write v)) :
    StatesSize v enc :=
  ⟨hemits.write (hsize ▸ hn) (by rw [hsize, hlength]), hrefuses.write, hsize.trans hlength.symm,
    hlength ▸ hn⟩

theorem statesSize_bool (val : Bool) : StatesSize val [if val then 1 else 0] :=
  ⟨emits_bool val, (refuses_writeByte _).checked, rfl, Nat.le_refl 1⟩

theorem statesSize_uint24 (val : UInt24) : StatesSize val (highBytes val) := by
  refine ⟨emits_uint24 val, Refuses.write (refuses_writeBytes fun h => ?_), ?_, ?_⟩
  · have hlength := length_highBytes val
    rw [show highBytes val = [] from h] at hlength
    cases hlength
  · rw [length_highBytes, size_uint24]
  · rw [length_highBytes]
    decide

theorem statesSize_stdString (val : StdString) : StatesSize val val.bytes := by
  refine ⟨emits_stdString val, Refuses.write (refuses_uint16 _).bind, ?_, ?_⟩
  · show val.chars.length + 2 = _
    rw [StdString.length_bytes, Nat.add_comm]
  · rw [StdString.length_bytes]
    omega

theorem statesSize_magic (val : MagicType) : StatesSize val magic.toList :=
  ⟨emits_magic, Refuses.write (refuses_writeBytes (List.cons_ne_nil _ _)), rfl, by decide⟩

namespace WireType

/-- The types whose `write` is implemented. -/
def writes : WireType → Bool
  | openConnectionRequest1 | openConnectionRequest2 | connectionRequest | connectedPing => false
  | _ => true

/-- What a value is on the wire. -/
def bytes : (type : WireType) → type.Carrier → Bytes
  | uint8, val => beBytes 1 val.toNat
  | uint16, val => beBytes 2 val.toNat
  | uint32, val => beBytes 4 val.toNat
  | uint64, val => beBytes 8 val.toNat
  | int8, val => beBytes 1 val.toBitVec.toNat
  | int16, val => beBytes 2 val.toBitVec.toNat
  | int32, val => beBytes 4 val.toBitVec.toNat
  | int64, val => beBytes 8 val.toBitVec.toNat
  | char, val => beBytes 1 val.toBitVec.toNat
  | bool, val => [if val then 1 else 0]
  | uint24, val => highBytes val
  | string, val => StdString.bytes val
  | magic, _ => Rakro.magic.toList
  | rakAddress, val => RakAddress.bytes val
  | frameHeader, val => FrameInfo.packetId :: highBytes val.sequenceNumber
  | frameInfo, val => infoBytes val
  | ack, val => Ack.bytes val
  | nack, val => Nack.bytes val
  | unconnectedPing, val => UnconnectedPing.bytes val
  | unconnectedPong, val => UnconnectedPong.bytes val
  | openConnectionReply1, val => OpenConnectionReply1.bytes val
  | openConnectionReply2, val => OpenConnectionReply2.bytes val
  | incompatibleProtocol, val => IncompatibleProtocol.bytes val
  | connectionRequestAccepted, val => ConnectionRequestAccepted.bytes val
  | connectedPong, val => ConnectedPong.bytes val
  | _, _ => []

/--
The room from which on it shows that the stated size of a value is not that of its encoding, the
smaller one of the two, if they differ.
-/
def misstated : (type : WireType) → type.Carrier → Option Nat
  | frameHeader, _ => some 3
  | ack, val => if val.records = [] then none else some 3
  | nack, val => if val.records = [] then none else some 3
  | unconnectedPong, val => some (35 + val.serverId.chars.length)
  | openConnectionReply1, _ => some 28
  | _, _ => none

/-- A value whose size is not misstated is as long as its codec says. -/
theorem statesSize_of_misstated_eq_none : ∀ (type : WireType) (val : type.Carrier),
    type.writes → type.misstated val = none → StatesSize val (type.bytes val)
  | uint8, val, _, _ => IntegralValue.isIntegral_uint8.statesSize val
  | uint16, val, _, _ => IntegralValue.isIntegral_uint16.statesSize val
  | uint32, val, _, _ => IntegralValue.isIntegral_uint32.statesSize val
  | uint64, val, _, _ => IntegralValue.isIntegral_uint64.statesSize val
  | int8, val, _, _ => IntegralValue.isIntegral_int8.statesSize val
  | int16, val, _, _ => IntegralValue.isIntegral_int16.statesSize val
  | int32, val, _, _ => IntegralValue.isIntegral_int32.statesSize val
  | int64, val, _, _ => IntegralValue.isIntegral_int64.statesSize val
  | char, val, _, _ => IntegralValue.isIntegral_char.statesSize val
  | bool, val, _, _ => statesSize_bool val
  | uint24, val, _, _ => statesSize_uint24 val
  | string, val, _, _ => statesSize_stdString val
  | magic, val, _, _ => statesSize_magic val
  | rakAddress, val, _, _ => .of_length (RakAddress.length_bytes val) (by decide) rfl
      ((emits_uint8 4).bind ((emits_uint32 _).bind (emits_uint16 _))) (refuses_uint8 4).bind
  | frameInfo, val, _, _ => by
    have hlength := length_infoBytes val
    exact ⟨emits_frameInfo val, Refuses.write (refuses_uint8 _).bind, hlength.symm, by
      rw [bytes, hlength]
      show 1 ≤ 3 + _ + _ + _ + _
      omega⟩
  | ack, val, _, h => by
    have hnil : val.records = [] := by
      by_contra hne
      rw [misstated, if_neg hne] at h
      cases h
    refine ⟨Ack.emits_ack val, Refuses.write (refuses_uint8 _).bind, ?_, ?_⟩
    all_goals rw [bytes, Ack.bytes, hnil]
    · rfl
    · exact Nat.le_add_left 1 _
  | nack, val, _, h => by
    have hnil : val.records = [] := by
      by_contra hne
      rw [misstated, if_neg hne] at h
      cases h
    refine ⟨Nack.emits_nack val, Refuses.write (refuses_uint8 _).bind, ?_, ?_⟩
    all_goals rw [bytes, Nack.bytes, hnil]
    · rfl
    · exact Nat.le_add_left 1 _
  | unconnectedPing, val, _, _ =>
    .of_length (UnconnectedPing.length_bytes val) (by decide) rfl
      (emits_pingFields val) (refuses_uint64 _).bind
  | openConnectionReply2, val, _, _ =>
    .of_length (OpenConnectionReply2.length_bytes val) (by decide) rfl
      (emits_reply2Fields val) (refuses_uint8 _).bind
  | incompatibleProtocol, val, _, _ =>
    .of_length (IncompatibleProtocol.length_bytes val) (by decide) rfl
      (emits_incompatibleFields val) (refuses_uint8 _).bind
  | connectionRequestAccepted, val, _, _ =>
    ⟨emits_connectionRequestAccepted val, Refuses.write (refuses_uint8 _).bind,
      (ConnectionRequestAccepted.length_bytes val).symm,
      by rw [bytes, ConnectionRequestAccepted.length_bytes]; decide⟩
  | connectedPong, val, _, _ =>
    .of_length (ConnectedPong.length_bytes val) (by decide) rfl
      ((emits_uint64 _).bind (emits_uint64 _)) (refuses_uint64 _).bind
  | frameHeader, _, _, h | unconnectedPong, _, _, h | openConnectionReply1, _, _, h => by cases h
  | openConnectionRequest1, _, h, _ | openConnectionRequest2, _, h, _ | connectionRequest, _, h, _
  | connectedPing, _, h, _ => by cases h

/-- A value whose size is misstated is refused all the same at the end of the view. -/
theorem refuses_of_misstated (type : WireType) (val : type.Carrier)
    (h : type.misstated val ≠ none) : Refuses (write val) := by
  cases type with
  | frameHeader | ack | nack | unconnectedPong | openConnectionReply1 =>
    exact Refuses.write (refuses_uint8 _).bind
  | _ => exact absurd rfl h

theorem eq_three_of_records {records : List Ack.Record} {limit : Nat}
    (h : (if records = [] then none else some 3) = some limit) : records ≠ [] ∧ limit = 3 := by
  split at h
  · cases h
  · cases h
    exact ⟨by assumption, rfl⟩

theorem length_records_pos {records : List Ack.Record} (h : records ≠ []) :
    1 ≤ (records.flatMap Ack.recordBytes).length := by
  obtain ⟨record, rest, rfl⟩ := List.exists_cons_of_ne_nil h
  rw [List.flatMap_cons, List.length_append]
  cases record with
  | single value => rw [Ack.recordBytes, length_highBytes]; omega
  | multi range => rw [Ack.recordBytes, List.cons_append, List.length_cons]; omega

/-- Neither of the two sizes is zero. -/
theorem pos_of_misstated {type : WireType} {val : type.Carrier} {limit : Nat}
    (h : type.misstated val = some limit) : 0 < limit ∧ 1 ≤ (type.bytes val).length := by
  cases type with
  | frameHeader | openConnectionReply1 =>
    cases h
    exact ⟨by decide, Nat.le_add_left 1 _⟩
  | ack | nack =>
    obtain ⟨-, rfl⟩ := eq_three_of_records h
    exact ⟨by decide, Nat.le_add_left 1 _⟩
  | unconnectedPong =>
    cases h
    exact ⟨Nat.lt_of_lt_of_le (by decide) (Nat.le_add_right 35 _), Nat.le_add_left 1 _⟩
  | _ => cases h

/-- Of the other values, the room decides. -/
theorem allOrNothing_iff_of_misstated {type : WireType} {val : type.Carrier} {limit : Nat}
    (h : type.misstated val = some limit) {b : BinaryBuffer} (hview : b.index ≤ b.size)
    (haddress : b.size + BinaryData.size (some val) ≤ 2 ^ 64) :
    AllOrNothing val (type.bytes val) b ↔ b.room < limit := by
  cases type with
  | frameHeader =>
    cases h
    have hsize : 3 < (FrameInfo.packetId :: highBytes (FrameHeader.sequenceNumber val)).length := by
      rw [List.length_cons, length_highBytes]
      decide
    exact allOrNothing_iff_of_lt (emits_frameHeader val) rfl (filling_write _)
      (show 1 ≤ 3 by decide) hsize hview haddress
  | ack =>
    obtain ⟨hne, rfl⟩ := eq_three_of_records h
    have hsize : 3 < (Ack.bytes val).length := by
      have hpos := length_records_pos hne
      rw [Ack.bytes, List.cons_append, List.length_cons, List.length_append, length_beBytes]
      omega
    exact allOrNothing_iff_of_lt (Ack.emits_ack val) rfl
      (.bind (filling_write _) (.forM filling_writeRecord _)) (show 1 ≤ 3 by decide) hsize hview
      haddress
  | nack =>
    obtain ⟨hne, rfl⟩ := eq_three_of_records h
    have hsize : 3 < (Nack.bytes val).length := by
      have hpos := length_records_pos hne
      rw [Nack.bytes, List.length_cons, List.length_append, length_beBytes]
      omega
    exact allOrNothing_iff_of_lt (Nack.emits_nack val) rfl
      (.bind (filling_write _) (.forM filling_writeRecord _)) (show 1 ≤ 3 by decide) hsize hview
      haddress
  | unconnectedPong =>
    cases h
    have hsize : (UnconnectedPong.bytes val).length < BinaryData.size (some val) := by
      have hstated := size_pong val
      exact (Nat.lt_add_of_pos_right Nat.two_pos).trans_eq hstated.symm
    rw [← UnconnectedPong.length_bytes]
    exact allOrNothing_iff_of_gt (emits_pongFields val) hsize hview haddress
  | openConnectionReply1 =>
    cases h
    have hlength := OpenConnectionReply1.length_bytes val
    have hsize : (OpenConnectionReply1.bytes val).length < BinaryData.size (some val) := by
      rw [hlength]
      exact (show 28 < 34 by decide)
    rw [← hlength]
    exact allOrNothing_iff_of_gt (emits_reply1Fields val) hsize hview haddress
  | _ => cases h

/--
**A write is all or nothing exactly when the size that is stated is that of the encoding, or when
there is less room than either of them.**

`FrameHeader`, `Ack` and `Nack` state too little and `UnconnectedPong` and `OpenConnectionReply1` too
much. The buffer and the value are in one address space.
-/
theorem allOrNothing_iff {type : WireType} (hwrites : type.writes) (val : type.Carrier)
    {b : BinaryBuffer} (hindex : b.index < 2 ^ 64)
    (haddress : b.size + BinaryData.size (some val) ≤ 2 ^ 64) :
    AllOrNothing val (type.bytes val) b ↔ ∀ limit ∈ type.misstated val, b.room < limit := by
  cases h : type.misstated val with
  | none =>
    refine iff_of_true ?_ fun limit hlimit => by cases hlimit
    exact (statesSize_of_misstated_eq_none type val hwrites h).allOrNothing hindex haddress
  | some limit =>
    simp only [Option.mem_some_iff, forall_eq']
    by_cases hview : b.index ≤ b.size
    · exact allOrNothing_iff_of_misstated h hview haddress
    · obtain ⟨hlimit, hpos⟩ := pos_of_misstated h
      have hroom : b.room = 0 := Nat.sub_eq_zero_of_le (by omega)
      have hrefuses := refuses_of_misstated type val (by rw [h]; exact Option.some_ne_none limit)
      exact iff_of_true (.of_refuses hrefuses hpos hindex (by omega)) (by omega)

/-- A pong has just room, and it is written whole. -/
theorem allOrNothing_pong :
    AllOrNothing (T := ConnectedPong) {} (bytes connectedPong {}) { bytes := List.replicate 16 0 } ∧
      Succeeds (write ({} : ConnectedPong)) { bytes := List.replicate 16 0 } := by
  have h : AllOrNothing (T := ConnectedPong) {} (bytes connectedPong {})
      { bytes := List.replicate 16 0 } :=
    (allOrNothing_iff (show connectedPong.writes from rfl) {} (by decide) (by decide)).mpr nofun
  exact ⟨h, h.succeeds_iff.mpr (by decide)⟩

/-- In three bytes, it begins and does not end. -/
theorem not_allOrNothing_threeBytes :
    ¬ AllOrNothing (T := FrameHeader) {} (bytes frameHeader {}) { bytes := [0, 0, 0] } := by
  intro h
  have hsame := h.unchanged (.outOfRange "Not enough space in type")
    { bytes := [0x80, 0, 0], index := 1 } rfl
  exact absurd hsame.2 (by decide)

end WireType

end Rakro
