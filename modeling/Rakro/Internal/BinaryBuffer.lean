import Rakro.Internal.BufferCompany
import Rakro.Internal.Int24
import Rakro.Infra.Program

/-!
# `BinaryBuffer` and the primitive codecs

A view of some bytes with a cursor. Every typed access first checks a size that the codec states by
hand, then runs the codec, whose byte accesses are checked again one by one.

`bytes` is the view and `beyond` the memory of the rented buffer past the end of the view, so that
`bytes ++ beyond` is what `real_buffer` holds.
-/

namespace Rakro

open Infra

/--
A `BinaryBuffer` over a rented one: the view, the cursor, and the rented buffer's place and owner.
`beyond` is what its memory has behind the view.
-/
structure BinaryBuffer where
  bytes : Bytes := []
  index : Nat := 0
  beyond : Bytes := []
  home : Option Place := none
  owner : Option Nat := none
  deriving DecidableEq, Repr

/-- What a method of the buffer does. The cursor and the bytes survive an exception. -/
abbrev BufM := EStateM Exn BinaryBuffer

namespace BinaryBuffer

/-- `real_buffer`: the rented buffer below the view. -/
def realBuffer (b : BinaryBuffer) : RentedBuffer where
  memory := b.bytes ++ b.beyond
  home := b.home
  owner := b.owner

/-- `BinaryBuffer(RentedBuffer&&)`. -/
def ofRented (buffer : RentedBuffer) : BinaryBuffer where
  bytes := buffer.memory
  home := buffer.home
  owner := buffer.owner

/-- `BinaryBuffer(RentedBuffer&&, artificial_limit)`. `subspan` must stay inside the memory. -/
def ofRentedLimit (buffer : RentedBuffer) (artificialLimit : Nat) : Except Exn BinaryBuffer :=
  if artificialLimit ≤ buffer.memory.length then
    .ok
      { bytes := buffer.memory.take artificialLimit
        beyond := buffer.memory.drop artificialLimit
        home := buffer.home
        owner := buffer.owner }
  else .error (.undefined "subspan past the end")

/-- What the view shows once the pool has changed. -/
def reload (b : BinaryBuffer) (company : BufferCompany) : BinaryBuffer :=
  match b.home with
  | some place =>
    { b with
      bytes := company.load place b.bytes.length
      beyond := company.load (place.shift b.bytes.length) b.beyond.length }
  | none => b

/-- What the defaulted move leaves behind: the span and the index, without the ownership. -/
def movedFrom (b : BinaryBuffer) : BinaryBuffer :=
  { b with beyond := [], home := none, owner := none }

/-- The length of the view. -/
def size (b : BinaryBuffer) : Nat := b.bytes.length

/-- How far the cursor has come. -/
def consumed (b : BinaryBuffer) : Nat := b.index

/-- `size() - index` on `size_t`, which wraps once the cursor is past the end. -/
def remaining (b : BinaryBuffer) : Nat :=
  if b.index ≤ b.size then b.size - b.index else 2 ^ 64 + b.size - b.index

/-- The view from the cursor on. -/
def remainingSlice (b : BinaryBuffer) : Bytes := b.bytes.drop b.index

/-- The view up to the cursor. -/
def consumedSlice (b : BinaryBuffer) : Bytes := b.bytes.take b.index

/-- Where in the pool the cursor is. -/
def cursorHome (b : BinaryBuffer) : Option Place := b.home.map (Place.shift · b.index)

/-- The view is the whole memory again, and the cursor at its start. -/
def clear (b : BinaryBuffer) : BinaryBuffer :=
  { b with bytes := b.bytes ++ b.beyond, beyond := [], index := 0 }

/-- `go_to`, which sets the cursor. -/
def goTo (b : BinaryBuffer) (newIndex : Nat) : BinaryBuffer := { b with index := newIndex }

/-- `skipn`, which moves the cursor on unchecked. -/
def skipn (b : BinaryBuffer) (count : Nat) : BinaryBuffer := { b with index := b.index + count }

end BinaryBuffer

/-! ## Byte access -/

/-- `index + extra - 1 >= bytes.size()`, in `size_t`. -/
def boundsCheck (extra : Nat) : BufM PUnit := do
  let b ← get
  if b.size ≤ (b.index + extra - 1) % 2 ^ 64 then throw (.outOfRange "Not enough space in type")
  else pure ⟨⟩

/-- `next_byte`: the byte under the cursor, which moves on. -/
def nextByte : BufM UInt8 := do
  boundsCheck 1
  let b ← get
  set (b.skipn 1)
  match b.bytes[b.index]? with
  | some byte => pure byte
  | none => throw (.undefined "index past the end")

/-- `write_byte`: a byte over the one under the cursor, which moves on. -/
def writeByte (val : UInt8) : BufM PUnit := do
  boundsCheck 1
  let b ← get
  if b.index < b.size then set { b with bytes := b.bytes.set b.index val, index := b.index + 1 }
  else throw (.undefined "index past the end")

/-! ## Typed access -/

/-- `BinaryDataInterface<T>`. -/
class BinaryData (T : Type) where
  write : T → BufM PUnit
  read : BufM T
  size : Option T → Nat

section Typed

variable (T : Type) [BinaryData T]

/-- `read_next<T>`, behind the check that the size of `T` is there. -/
def readNext : BufM T := do
  boundsCheck (BinaryData.size (none : Option T))
  BinaryData.read

/-- `read_next_peak<T>`, which puts the cursor back behind the reader. -/
def readNextPeak : BufM T := do
  boundsCheck (BinaryData.size (none : Option T))
  let currentIdx := (← get).index
  let returnVal ← BinaryData.read
  modify fun b => b.goTo currentIdx
  pure returnVal

variable {T}

/-- `write(val)`, behind the check that the size of `val` is free. -/
def write (val : T) : BufM PUnit := do
  boundsCheck (BinaryData.size (some val))
  BinaryData.write val

end Typed

/-! ## The integer codecs -/

/--
What `byte << count` is on the target once `count` reaches the 32 bits of the promoted byte. The
language leaves it undefined; the instruction takes the count modulo 32.
-/
def oversizedShift (byte : UInt8) (count : Nat) : BitVec 32 :=
  BitVec.ofNat 32 byte.toNat <<< (count % 32)

/-- `byte << count`. The byte is promoted to a 32-bit `int` first. -/
def shiftByte (byte : UInt8) (count : Nat) : BitVec 32 :=
  if count < 32 then BitVec.ofNat 32 byte.toNat <<< count else oversizedShift byte count

/-- `for (; x < n; x++) value |= static_cast<type>(buffer.next_byte() << x * 8)`, `n - x` left. -/
def orBytes {w : Nat} : Nat → Nat → BitVec w → BufM (BitVec w)
  | 0, _, value => pure value
  | left + 1, x, value => do
    let byte ← nextByte
    orBytes left (x + 1) (value ||| (shiftByte byte (8 * x)).signExtend w)

/-- `std::byteswap`. -/
def byteswap {n : Nat} (value : BitVec (8 * n)) : BitVec (8 * n) :=
  BitVec.ofNat _ (ofLeBytes (leBytes n value.toNat).reverse)

/-- `INTEGRAL_BINARY(type)`, `write`: the object representation of the swapped value. -/
def writeIntegral (n : Nat) (val : BitVec (8 * n)) : BufM PUnit :=
  (leBytes n (byteswap val).toNat).forM writeByte

/-- `INTEGRAL_BINARY(type)`, `read`. -/
def readIntegral (n : Nat) : BufM (BitVec (8 * n)) := do
  let value ← orBytes n 0 0
  pure (byteswap value)

instance : BinaryData UInt8 where
  write val := writeIntegral 1 val.toBitVec
  read := do return .ofBitVec (← readIntegral 1)
  size _ := 1

instance : BinaryData UInt16 where
  write val := writeIntegral 2 val.toBitVec
  read := do return .ofBitVec (← readIntegral 2)
  size _ := 2

instance : BinaryData UInt32 where
  write val := writeIntegral 4 val.toBitVec
  read := do return .ofBitVec (← readIntegral 4)
  size _ := 4

instance : BinaryData UInt64 where
  write val := writeIntegral 8 val.toBitVec
  read := do return .ofBitVec (← readIntegral 8)
  size _ := 8

instance : BinaryData Int8 where
  write val := writeIntegral 1 val.toBitVec
  read := do return .ofBitVec (← readIntegral 1)
  size _ := 1

instance : BinaryData Int16 where
  write val := writeIntegral 2 val.toBitVec
  read := do return .ofBitVec (← readIntegral 2)
  size _ := 2

instance : BinaryData Int32 where
  write val := writeIntegral 4 val.toBitVec
  read := do return .ofBitVec (← readIntegral 4)
  size _ := 4

instance : BinaryData Int64 where
  write val := writeIntegral 8 val.toBitVec
  read := do return .ofBitVec (← readIntegral 8)
  size _ := 8

/-- `char`. Only its bits matter here. -/
structure CChar where ofBitVec ::
  toBitVec : BitVec 8
  deriving DecidableEq, Repr

instance : BinaryData CChar where
  write val := writeIntegral 1 val.toBitVec
  read := do return .ofBitVec (← readIntegral 1)
  size _ := 1

/-- `static_cast<bool>` is true of every byte but zero. -/
instance : BinaryData Bool where
  write val := writeByte (if val then 1 else 0)
  read := do return (← nextByte) ≠ 0
  size _ := 1

/-! ## The 24-bit codec -/

/-- The writer takes bytes 1 to 3 of the four, the reader puts its three bytes at the bottom. -/
instance : BinaryData UInt24 where
  write val := ((leBytes 4 val.toNat).drop 1).forM writeByte
  read := do
    let bytes ← orBytes 3 0 (0 : BitVec 32)
    return ⟨.ofBitVec bytes⟩
  size _ := 3

/-! ## The string codec -/

/-- `std::string`, which is never longer than `max_size()`. -/
structure StdString where
  chars : Bytes
  length_lt : chars.length < 2 ^ 63
  deriving DecidableEq, Repr

/-- `for (; x < cap; x++) out.push_back(buffer.read_next<char>())`. -/
def readChars : (cap : Nat) → BufM { chars : Bytes // chars.length = cap }
  | 0 => pure ⟨[], rfl⟩
  | cap + 1 => do
    let oneChar ← readNext CChar
    let chars ← readChars cap
    return ⟨.ofBitVec oneChar.toBitVec :: chars.1, congrArg Nat.succ chars.2⟩

instance : BinaryData StdString where
  write val := do
    write (UInt16.ofNat val.chars.length)
    val.chars.forM writeByte
  read := do
    let cap ← readNext UInt16
    let chars ← readChars cap.toNat
    return ⟨chars.1, by
      have hcap : cap.toNat < 2 ^ 16 := cap.toNat_lt
      rw [chars.2]
      omega⟩
  size
    | some string => string.chars.length + 2
    | none => 2

section Size

@[simp] theorem size_uint8 (v : Option UInt8) : BinaryData.size v = 1 := rfl

@[simp] theorem size_uint16 (v : Option UInt16) : BinaryData.size v = 2 := rfl

@[simp] theorem size_uint32 (v : Option UInt32) : BinaryData.size v = 4 := rfl

@[simp] theorem size_uint64 (v : Option UInt64) : BinaryData.size v = 8 := rfl

@[simp] theorem size_bool (v : Option Bool) : BinaryData.size v = 1 := rfl

@[simp] theorem size_uint24 (v : Option UInt24) : BinaryData.size v = 3 := rfl

end Size

end Rakro
