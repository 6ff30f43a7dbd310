import Rakro.Roundtrip.Integer

/-!
# Values one after the other

Integers of the ten types of the codec, and 24-bit numbers, written consecutively and read back from
the start.

The reader of an integer shifts each byte to its place. The byte is an `int` of 32 bits by then, so
the shifts of the 64-bit types are too long from the fifth byte on.
-/

namespace Rakro

open Infra BinaryBuffer

/-! ## The ten types -/

/-- The types of `INTEGRAL_BINARY`. -/
inductive IntegralType
  | uint16
  | int16
  | uint32
  | int32
  | uint64
  | int64
  | uint8
  | int8
  | char
  | bool
  deriving DecidableEq, Repr

namespace IntegralType

/-- `sizeof(T)`. -/
def sizeof : IntegralType → Nat
  | uint16 | int16 => 2
  | uint32 | int32 => 4
  | uint64 | int64 => 8
  | uint8 | int8 | char | bool => 1

/-- The type that holds the value. -/
abbrev Carrier : IntegralType → Type
  | uint16 => UInt16
  | int16 => Int16
  | uint32 => UInt32
  | int32 => Int32
  | uint64 => UInt64
  | int64 => Int64
  | uint8 => UInt8
  | int8 => Int8
  | char => CChar
  | bool => Bool

/-- The object representation of a value, as one word. -/
def toBits : (type : IntegralType) → type.Carrier → BitVec (8 * type.sizeof)
  | uint16, val => val.toBitVec
  | int16, val => val.toBitVec
  | uint32, val => val.toBitVec
  | int32, val => val.toBitVec
  | uint64, val => val.toBitVec
  | int64, val => val.toBitVec
  | uint8, val => val.toBitVec
  | int8, val => val.toBitVec
  | char, val => val.toBitVec
  | bool, val => if val then 1 else 0

instance : (type : IntegralType) → BinaryData type.Carrier
  | uint16 => inferInstanceAs (BinaryData UInt16)
  | int16 => inferInstanceAs (BinaryData Int16)
  | uint32 => inferInstanceAs (BinaryData UInt32)
  | int32 => inferInstanceAs (BinaryData Int32)
  | uint64 => inferInstanceAs (BinaryData UInt64)
  | int64 => inferInstanceAs (BinaryData Int64)
  | uint8 => inferInstanceAs (BinaryData UInt8)
  | int8 => inferInstanceAs (BinaryData Int8)
  | char => inferInstanceAs (BinaryData CChar)
  | bool => inferInstanceAs (BinaryData Bool)

end IntegralType

/-- A value of one of the types. -/
structure IntegralValue where
  type : IntegralType
  val : type.Carrier

namespace IntegralValue

/-- The bytes of a value, most significant first. -/
def bigEndian (v : IntegralValue) : Bytes := beBytes v.type.sizeof (v.type.toBits v.val).toNat

@[simp] theorem length_bigEndian (v : IntegralValue) : v.bigEndian.length = v.type.sizeof :=
  length_beBytes _ _

/-- `read_next` of a type. -/
def readNext (type : IntegralType) : BufM IntegralValue := do
  return { type, val := ← Rakro.readNext type.Carrier }

/-! ## One value -/

/-- The codec of `T` is that of `INTEGRAL_BINARY`, for a type of `n` bytes. -/
structure IsIntegral (T : Type) [BinaryData T] (n : Nat) (toBits : T → BitVec (8 * n))
    (ofBits : BitVec (8 * n) → T) : Prop where
  write : ∀ val : T, BinaryData.write val = writeIntegral n (toBits val)
  read : (BinaryData.read : BufM T) = ofBits <$> readIntegral n
  size : ∀ val : Option T, BinaryData.size val = n
  ofBits_toBits : ∀ val : T, ofBits (toBits val) = val
  pos : 1 ≤ n

section IsIntegral

variable {T : Type} [BinaryData T] {n : Nat} {toBits : T → BitVec (8 * n)}
  {ofBits : BitVec (8 * n) → T}

/-- An integer is written with its high byte first. -/
theorem IsIntegral.emits (h : IsIntegral T n toBits ofBits) (val : T) :
    Emits (Rakro.write val) (beBytes n (toBits val).toNat) := by
  have hsize := h.size (some val)
  refine Emits.write (by rw [hsize]; exact h.pos) (by rw [hsize, length_beBytes]) ?_
  rw [h.write]
  exact emits_writeIntegral n _

/-- One of at most four bytes is read back. -/
theorem IsIntegral.consumes (h : IsIntegral T n toBits ofBits) (hn : n ≤ 4) (val : T) :
    Consumes (Rakro.readNext T) (beBytes n (toBits val).toNat) val := by
  have hsize := h.size none
  refine Consumes.readNext (by rw [hsize]; exact h.pos) (by rw [hsize, length_beBytes]) ?_
  have hread := (consumes_beBytes hn (toBits val)).map ofBits
  rw [h.ofBits_toBits] at hread
  rw [h.read]
  exact hread

end IsIntegral

theorem isIntegral_uint8 : IsIntegral UInt8 1 UInt8.toBitVec UInt8.ofBitVec :=
  ⟨fun _ => rfl, rfl, fun _ => rfl, fun _ => rfl, by decide⟩

theorem isIntegral_int8 : IsIntegral Int8 1 Int8.toBitVec Int8.ofBitVec :=
  ⟨fun _ => rfl, rfl, fun _ => rfl, fun _ => rfl, by decide⟩

theorem isIntegral_char : IsIntegral CChar 1 CChar.toBitVec CChar.ofBitVec :=
  ⟨fun _ => rfl, rfl, fun _ => rfl, fun _ => rfl, by decide⟩

theorem isIntegral_uint16 : IsIntegral UInt16 2 UInt16.toBitVec UInt16.ofBitVec :=
  ⟨fun _ => rfl, rfl, fun _ => rfl, fun _ => rfl, by decide⟩

theorem isIntegral_int16 : IsIntegral Int16 2 Int16.toBitVec Int16.ofBitVec :=
  ⟨fun _ => rfl, rfl, fun _ => rfl, fun _ => rfl, by decide⟩

theorem isIntegral_uint32 : IsIntegral UInt32 4 UInt32.toBitVec UInt32.ofBitVec :=
  ⟨fun _ => rfl, rfl, fun _ => rfl, fun _ => rfl, by decide⟩

theorem isIntegral_int32 : IsIntegral Int32 4 Int32.toBitVec Int32.ofBitVec :=
  ⟨fun _ => rfl, rfl, fun _ => rfl, fun _ => rfl, by decide⟩

theorem isIntegral_uint64 : IsIntegral UInt64 8 UInt64.toBitVec UInt64.ofBitVec :=
  ⟨fun _ => rfl, rfl, fun _ => rfl, fun _ => rfl, by decide⟩

theorem isIntegral_int64 : IsIntegral Int64 8 Int64.toBitVec Int64.ofBitVec :=
  ⟨fun _ => rfl, rfl, fun _ => rfl, fun _ => rfl, by decide⟩

theorem emits_value : ∀ v : IntegralValue, Emits (write v.val) v.bigEndian
  | ⟨.uint8, val⟩ => isIntegral_uint8.emits val
  | ⟨.int8, val⟩ => isIntegral_int8.emits val
  | ⟨.char, val⟩ => isIntegral_char.emits val
  | ⟨.uint16, val⟩ => isIntegral_uint16.emits val
  | ⟨.int16, val⟩ => isIntegral_int16.emits val
  | ⟨.uint32, val⟩ => isIntegral_uint32.emits val
  | ⟨.int32, val⟩ => isIntegral_int32.emits val
  | ⟨.uint64, val⟩ => isIntegral_uint64.emits val
  | ⟨.int64, val⟩ => isIntegral_int64.emits val
  | ⟨.bool, true⟩ => emits_bool true
  | ⟨.bool, false⟩ => emits_bool false

/-- What is wrapped up with its type. -/
theorem consumes_wrapped {t : IntegralType} {enc : Bytes} {val : t.Carrier}
    (h : Consumes (Rakro.readNext t.Carrier) enc val) : Consumes (readNext t) enc ⟨t, val⟩ :=
  h.map (IntegralValue.mk t)

theorem consumes_value : ∀ v : IntegralValue, v.type.sizeof ≤ 4 →
    Consumes (readNext v.type) v.bigEndian v
  | ⟨.uint8, val⟩, h => consumes_wrapped (isIntegral_uint8.consumes (by decide) val)
  | ⟨.int8, val⟩, h => consumes_wrapped (isIntegral_int8.consumes (by decide) val)
  | ⟨.char, val⟩, h => consumes_wrapped (isIntegral_char.consumes (by decide) val)
  | ⟨.uint16, val⟩, h => consumes_wrapped (isIntegral_uint16.consumes (by decide) val)
  | ⟨.int16, val⟩, h => consumes_wrapped (isIntegral_int16.consumes (by decide) val)
  | ⟨.uint32, val⟩, h => consumes_wrapped (isIntegral_uint32.consumes (by decide) val)
  | ⟨.int32, val⟩, h => consumes_wrapped (isIntegral_int32.consumes (by decide) val)
  | ⟨.bool, true⟩, h => consumes_wrapped (t := .bool) (consumes_bool 1)
  | ⟨.bool, false⟩, h => consumes_wrapped (t := .bool) (consumes_bool 0)

/-! ## The shifts of the reader -/

/-- `orBytes`, which also returns the counts of the shifts it has executed. -/
def orBytesCounted {w : Nat} : Nat → Nat → BitVec w → BufM (BitVec w × List Nat)
  | 0, _, value => pure (value, [])
  | left + 1, x, value => do
    let byte ← nextByte
    let (value, counts) ←
      orBytesCounted left (x + 1) (value ||| (shiftByte byte (8 * x)).signExtend w)
    pure (value, 8 * x :: counts)

/-- The counts of the shifts of bytes `x`, `x + 1` and so on, `left` of them. -/
def shiftCounts (left x : Nat) : List Nat := (List.range' x left).map (8 * ·)

/-- The counts do not depend on the bytes. -/
theorem orBytesCounted_eq {w : Nat} : ∀ (left x : Nat) (value : BitVec w),
    orBytesCounted left x value = (·, shiftCounts left x) <$> orBytes left x value
  | 0, _, _ => rfl
  | left + 1, x, value => by
    rw [orBytesCounted, orBytes, map_bind]
    congr 1
    funext byte
    rw [orBytesCounted_eq left, bind_map_left, ← bind_pure_comp]
    rfl

/-- The counts of the shifts that reading a value of the type takes. -/
def shifts (v : IntegralValue) : List Nat := shiftCounts v.type.sizeof 0

theorem mem_shifts {v : IntegralValue} {count : Nat} :
    count ∈ v.shifts ↔ ∃ x < v.type.sizeof, count = 8 * x := by
  simp only [shifts, shiftCounts, List.mem_map, List.mem_range']
  constructor
  · rintro ⟨x, ⟨i, hi, rfl⟩, rfl⟩
    exact ⟨_, by omega, rfl⟩
  · rintro ⟨x, hx, rfl⟩
    exact ⟨x, ⟨x, hx, by omega⟩, rfl⟩

/-- The shifts stay inside the promoted byte in the types of up to four bytes. -/
theorem shifts_lt_iff {v : IntegralValue} : (∀ count ∈ v.shifts, count < 32) ↔ v.type.sizeof ≤ 4 := by
  constructor
  · intro h
    by_contra hlong
    have := h 32 (mem_shifts.mpr ⟨4, by omega, rfl⟩)
    omega
  · intro h count hcount
    obtain ⟨x, hx, rfl⟩ := mem_shifts.mp hcount
    omega

/-! ## Consecutive values -/

/--
Written from the cursor of `b` on, the values lie there most significant byte first, reading their
types from the same place gives them back, and no shift is as long as its operand is wide.
-/
def RoundTripInOrder (values : List IntegralValue) (b : BinaryBuffer) : Prop :=
  ∃ b' b'' : BinaryBuffer, (values.forM fun v => write v.val).run b = .ok ⟨⟩ b' ∧
    b'.consumedSlice = b.consumedSlice ++ values.flatMap bigEndian ∧
    ((values.map IntegralValue.type).mapM readNext).run (b'.goTo b.index) = .ok values b'' ∧
    ∀ v ∈ values, ∀ count ∈ v.shifts, count < 32

theorem emits_values (values : List IntegralValue) :
    Emits (values.forM fun v => write v.val) (values.flatMap bigEndian) :=
  Emits.forM emits_value values

theorem length_flatMap_bigEndian (values : List IntegralValue) :
    (values.flatMap bigEndian).length = (values.map fun v => v.type.sizeof).sum := by
  simp [List.length_flatMap]

/-- Types of up to four bytes are read back one after the other. -/
theorem consumes_values {values : List IntegralValue} (h : ∀ v ∈ values, v.type.sizeof ≤ 4) :
    Consumes ((values.map IntegralValue.type).mapM readNext) (values.flatMap bigEndian) values := by
  have hread : Consumes (values.mapM fun v => readNext v.type) (values.flatMap bigEndian)
      (values.map id) :=
    Consumes.mapM values fun v hv => consumes_value v (h v hv)
  rw [List.map_id] at hread
  rw [List.mapM_map]
  exact hread

/-- Only the 64-bit types have more than four bytes. -/
theorem sizeof_le_iff (type : IntegralType) :
    type.sizeof ≤ 4 ↔ type ≠ .uint64 ∧ type ≠ .int64 := by
  cases type <;> simp [IntegralType.sizeof]

/-- **Integers come back in order exactly when none of them has 64 bits.** -/
theorem roundTripInOrder_iff {values : List IntegralValue} {b : BinaryBuffer}
    (room : b.index + (values.map fun v => v.type.sizeof).sum ≤ b.size) :
    RoundTripInOrder values b ↔ ∀ v ∈ values, v.type ≠ .uint64 ∧ v.type ≠ .int64 := by
  constructor
  · rintro ⟨b', b'', -, -, -, hshifts⟩ v hv
    exact (sizeof_le_iff v.type).mp (shifts_lt_iff.mp (hshifts v hv))
  · intro h
    have hsmall : ∀ v ∈ values, v.type.sizeof ≤ 4 := fun v hv => (sizeof_le_iff v.type).mpr (h v hv)
    obtain ⟨r, hrun, hgo⟩ := (emits_values values).run_room (b := b)
      (by rw [length_flatMap_bigEndian]; exact room)
    refine ⟨_, b.between (b.consumedSlice ++ values.flatMap bigEndian) r, hrun, ?_, ?_, ?_⟩
    · rw [between_consumedSlice]
    · rw [hgo]
      exact consumes_values hsmall b _ r
    · exact fun v hv => shifts_lt_iff.mpr (hsmall v hv)

/-- Three values of three types. -/
theorem roundTripInOrder_three :
    RoundTripInOrder [⟨.uint16, 0xABCD⟩, ⟨.int32, -2⟩, ⟨.bool, true⟩]
      { bytes := List.replicate 8 0 } :=
  (roundTripInOrder_iff (by decide)).mpr (by simp)

/-- Even a small number of 64 bits is shifted too far, in a buffer with room for it. -/
theorem not_roundTripInOrder_uint64 :
    (bigEndian ⟨.uint64, 1⟩).length ≤ 8 ∧
      ¬ RoundTripInOrder [⟨.uint64, 1⟩] { bytes := List.replicate 8 0 } := by
  refine ⟨by decide, ?_⟩
  rintro ⟨b', b'', -, -, -, hshifts⟩
  have hfar := hshifts _ List.mem_cons_self 32 (mem_shifts.mpr ⟨4, by decide, rfl⟩)
  exact absurd hfar (by decide)

end IntegralValue

/-! ## 24-bit numbers -/

/--
Written from the cursor of `b` on, each of the numbers takes three bytes, and reading as many from
the same place gives them back.
-/
def RoundTripUInt24s (values : List UInt24) (b : BinaryBuffer) : Prop :=
  ∃ b' b'' : BinaryBuffer, (values.forM write).run b = .ok ⟨⟩ b' ∧
    b'.index = b.index + 3 * values.length ∧
    (values.mapM fun _ => readNext UInt24).run (b'.goTo b.index) = .ok values b''

theorem length_flatMap_highBytes : ∀ values : List UInt24,
    (values.flatMap highBytes).length = 3 * values.length
  | [] => rfl
  | v :: values => by
    rw [List.flatMap_cons, List.length_append, length_highBytes, length_flatMap_highBytes values,
      List.length_cons]
    omega

/-- What has been written is read back without the low bytes. -/
theorem consumes_uint24s (values : List UInt24) :
    Consumes (values.mapM fun _ => readNext UInt24) (values.flatMap highBytes)
      (values.map fun v => UInt24.ofNat (v.toNat / 256)) := by
  refine Consumes.mapM values fun v _ => ?_
  rw [← ofLeBytes_highBytes]
  exact consumes_uint24 (length_highBytes v)

/-- **24-bit numbers come back in order exactly when all of them are zero.** -/
theorem roundTripUInt24s_iff {values : List UInt24} {b : BinaryBuffer}
    (room : b.index + 3 * values.length ≤ b.size) :
    RoundTripUInt24s values b ↔ ∀ v ∈ values, v.toNat = 0 := by
  have hlen := length_flatMap_highBytes values
  have hidx : b.consumedSlice.length = b.index := length_consumedSlice (by omega)
  obtain ⟨r, hrun, hgo⟩ := (Emits.forM emits_uint24 values).run_room (b := b)
    (by rw [hlen]; exact room)
  have hread := consumes_uint24s values b b.consumedSlice r
  rw [← hgo] at hread
  have hsame : (values.map fun v => UInt24.ofNat (v.toNat / 256)) = values ↔
      ∀ v ∈ values, v.toNat = 0 := by
    have hmap := List.map_inj_left (l := values) (f := fun v => UInt24.ofNat (v.toNat / 256))
      (g := id)
    rw [List.map_id] at hmap
    rw [hmap]
    exact forall₂_congr fun v _ => ofNat_div_eq_iff v
  rw [← hsame]
  constructor
  · rintro ⟨b', b'', hb', -, hback⟩
    rw [hrun] at hb'
    cases hb'
    rw [hread] at hback
    injection hback
  · intro hvalues
    refine ⟨_, b.between (b.consumedSlice ++ values.flatMap highBytes) r, hrun, ?_, ?_⟩
    · rw [between_index, List.length_append, hidx, hlen]
    · rw [hread, hvalues]

/-- Two zeros. -/
theorem roundTripUInt24s_zeros :
    RoundTripUInt24s [{}, {}] { bytes := List.replicate 6 7 } :=
  (roundTripUInt24s_iff (by decide)).mpr (by decide)

/-- The number one, in a buffer with room for it, is read back as zero. -/
theorem not_roundTripUInt24s_one :
    ¬ RoundTripUInt24s [⟨1⟩] { bytes := List.replicate 3 0 } := by
  rintro ⟨b', b'', hwrite, -, hread⟩
  cases hwrite
  cases hread

end Rakro
