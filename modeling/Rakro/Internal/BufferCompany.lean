import Rakro.Infra.Bytes

/-!
# The buffer pool

A `BufferCompany` owns a list of `BufferBlock`s, each with a stack of free buffers. A buffer that is
rented out carries the block it goes back to. A buffer is identified by its block and its slot in
the memory of that block, so two identities never share memory. What a buffer was filled with stays
in its memory until it is written over, whoever holds it by then. The products of sizes and counts
that the source forms in a `size_t` are taken not to wrap: a block fits the address space.

The methods below are what one thread sees. `rent` on an exhausted pool then waits for a buffer that
nobody returns.
-/

namespace Rakro

open Infra

/-- How a method ends when it does not return. -/
inductive Exn
  /-- `std::out_of_range` -/
  | outOfRange (what : String)
  /-- `std::logic_error` -/
  | logicError (what : String)
  /-- `std::runtime_error` -/
  | runtimeError (what : String)
  /-- `std::bad_optional_access` -/
  | badOptionalAccess
  /-- A precondition of the standard library or of the language is broken. -/
  | undefined (what : String)
  /-- `__debugbreak()` or a failing `assert` -/
  | assertion
  /-- The thread waits for a buffer of the pool. -/
  | blocked
  /-- A loop of the source that does not end. -/
  | diverges
  deriving DecidableEq, Repr

/--
A buffer of the pool: the block it was cut from and its place there, which begins at `slot` times the
size of a buffer.
-/
structure BufferId where
  block : Nat
  slot : Nat
  deriving DecidableEq, Repr

/-- An address in the pool. -/
structure Place where
  buffer : BufferId
  offset : Nat := 0
  deriving DecidableEq, Repr

/-- The address `count` bytes on. -/
def Place.shift (place : Place) (count : Nat) : Place :=
  { place with offset := place.offset + count }

/--
`RentedBuffer`. `home` is where in the pool `memory` lies, `owner` the block it is returned to. A
view that does not own its memory has a home and no owner.
-/
structure RentedBuffer where
  memory : Bytes := []
  home : Option Place := none
  owner : Option Nat := none
  deriving DecidableEq, Repr

/-- `BufferBlock`. Its memory is `buffer_count * buffer_size` bytes, which fit the address space. -/
structure BufferBlock where
  id : Nat
  /-- The stack of free buffers, its top first. -/
  freeBuffers : List BufferId
  freeBufferCount : Nat
  deriving DecidableEq, Repr

namespace BufferBlock

/-- The constructor pushes slot after slot, so the last one is on top. -/
def new (id bufferCount : Nat) : BufferBlock where
  id := id
  freeBuffers := (List.range bufferCount).reverse.map fun start => ⟨id, start⟩
  freeBufferCount := bufferCount

/-- `add_free`: the buffer is on top of the stack again. -/
def addFree (block : BufferBlock) (buffer : BufferId) : BufferBlock :=
  { block with
    freeBuffers := buffer :: block.freeBuffers
    freeBufferCount := block.freeBufferCount + 1 }

/-- `try_rent`: the buffer on top, as long as the count says that there is one. -/
def tryRent (block : BufferBlock) : Option (BufferId × BufferBlock) :=
  if block.freeBufferCount = 0 then none
  else
    match block.freeBuffers with
    | [] => none
    | buffer :: rest =>
      some (buffer,
        { block with freeBuffers := rest, freeBufferCount := block.freeBufferCount - 1 })

end BufferBlock

/--
`BufferCompany`: blocks of `bufferCount` buffers each, `blockMaxCount` of them at most. That a block
fits the address space is taken for granted.
-/
structure BufferCompany where
  bufferCount : Nat
  bufferSize : Nat
  blockMaxCount : Nat
  blocks : List BufferBlock
  isMakingBlock : Bool
  /-- The block memories, byte by byte. -/
  memory : BufferId → Nat → UInt8 := fun _ _ => 0

namespace BufferCompany

/-- `init_block`. When the pool is full already, the flag stays set. -/
def initBlock (company : BufferCompany) : BufferCompany :=
  if company.isMakingBlock then company
  else if company.blockMaxCount ≤ company.blocks.length then { company with isMakingBlock := true }
  else
    { company with
      blocks := BufferBlock.new company.blocks.length company.bufferCount :: company.blocks }

/-- The constructor makes the first block. -/
def new (bufferCount bufferSize blockMaxCount : Nat) : BufferCompany :=
  initBlock
    { bufferCount := bufferCount, bufferSize := bufferSize, blockMaxCount := blockMaxCount
      blocks := [], isMakingBlock := false }

/-- The scan over the blocks: the first one that has a buffer gives it away. -/
def tryAll : List BufferBlock → Option (BufferId × List BufferBlock)
  | [] => none
  | block :: blocks =>
    match block.tryRent with
    | some (buffer, block') => some (buffer, block' :: blocks)
    | none =>
      match tryAll blocks with
      | some (buffer, blocks') => some (buffer, block :: blocks')
      | none => none

/-- The `leng` bytes at `place`. -/
def load (company : BufferCompany) (place : Place) (leng : Nat) : Bytes :=
  (List.range leng).map fun n => company.memory place.buffer (place.offset + n)

/-- The pool with `bytes` written at `place`. -/
def store (company : BufferCompany) (place : Place) (bytes : Bytes) : BufferCompany :=
  { company with
    memory := fun buffer n =>
      if buffer = place.buffer ∧ place.offset ≤ n then
        bytes[n - place.offset]?.getD (company.memory buffer n)
      else company.memory buffer n }

/-- The rented view of a pool buffer. Its bytes are what the memory still holds. -/
def lend (company : BufferCompany) (buffer : BufferId) : RentedBuffer where
  memory := company.load { buffer } company.bufferSize
  home := some { buffer }
  owner := some buffer.block

/--
`BufferCompany::rent`. With as many blocks as allowed, `blocks.back().rent()` waits on the last
block; otherwise a block is made and `try_all().value()` unwraps what the second scan finds.
-/
def rent (company : BufferCompany) : Except Exn (RentedBuffer × BufferCompany) :=
  match tryAll company.blocks with
  | some (buffer, blocks) => .ok (company.lend buffer, { company with blocks := blocks })
  | none =>
    if company.blocks.length = company.blockMaxCount then
      if company.blocks.isEmpty then .error (.undefined "back() of an empty list")
      else .error .blocked
    else
      match tryAll company.initBlock.blocks with
      | some (buffer, blocks) =>
        .ok (company.lend buffer, { company.initBlock with blocks := blocks })
      | none => .error .badOptionalAccess

/-- `add_free` on the block that owns the buffer. -/
def addFree (company : BufferCompany) (owner : Nat) (buffer : BufferId) : BufferCompany :=
  { company with
    blocks := company.blocks.map fun block =>
      if block.id = owner then block.addFree buffer else block }

/-- `RentedBuffer::owner_free`. -/
def ownerFree (company : BufferCompany) (buffer : RentedBuffer) : BufferCompany :=
  match buffer.owner, buffer.home with
  | some owner, some home => company.addFree owner home.buffer
  | _, _ => company

/-- The pool holds what has been written through the view. -/
def keep (company : BufferCompany) (buffer : RentedBuffer) : BufferCompany :=
  match buffer.home with
  | some place => company.store place buffer.memory
  | none => company

/-- `~RentedBuffer`. -/
def destroy (company : BufferCompany) (buffer : RentedBuffer) : BufferCompany :=
  if buffer.memory.length ≠ 0 then company.ownerFree buffer else company

/-! ## What is stored is what is loaded -/

/-- What has been written into the middle of a store is there. -/
theorem load_store (company : BufferCompany) (place : Place) (pre mid post : Bytes) :
    (company.store place (pre ++ mid ++ post)).load (place.shift pre.length) mid.length = mid := by
  refine List.ext_getElem (by simp [load]) fun n hn hmid => ?_
  have hoff : place.offset + pre.length + n - place.offset = pre.length + n := by omega
  have hbyte : (pre ++ mid ++ post)[pre.length + n]? = some mid[n] := by
    rw [List.append_assoc, List.getElem?_append_right (Nat.le_add_right _ _),
      Nat.add_sub_cancel_left, List.getElem?_append_left hmid, List.getElem?_eq_getElem]
  have hle : place.offset ≤ place.offset + pre.length + n := by omega
  simp only [load, store, Place.shift, List.getElem_map, List.getElem_range, hle, and_self,
    if_true, hoff, hbyte, Option.getD_some]

/-- A store leaves the other buffers alone. -/
theorem load_store_of_ne {place other : Place} (h : other.buffer ≠ place.buffer)
    (company : BufferCompany) (bytes : Bytes) (leng : Nat) :
    (company.store place bytes).load other leng = company.load other leng := by
  refine List.map_congr_left fun n _ => ?_
  exact if_neg fun hin => h hin.1

/-! ## The size of the buffers -/

/-- Another block has buffers of the same size. -/
theorem initBlock_bufferSize (company : BufferCompany) :
    company.initBlock.bufferSize = company.bufferSize := by
  unfold initBlock
  split
  · rfl
  · split <;> rfl

/-- As many bytes are loaded as are asked for. -/
theorem length_load (company : BufferCompany) (place : Place) (leng : Nat) :
    (company.load place leng).length = leng := by
  unfold load
  rw [List.length_map, List.length_range]

/-- A rented buffer has the size of the pool, and renting does not change it. -/
theorem rent_eq_ok {company company' : BufferCompany} {rented : RentedBuffer}
    (h : company.rent = .ok (rented, company')) :
    rented.memory.length = company.bufferSize ∧ company'.bufferSize = company.bufferSize := by
  unfold rent at h
  split at h
  · cases h
    exact ⟨company.length_load _ _, rfl⟩
  · split at h
    · split at h <;> cases h
    · split at h
      · cases h
        exact ⟨(company.length_load _ _), company.initBlock_bufferSize⟩
      · cases h

/-- Nor does what is written. -/
@[simp] theorem keep_bufferSize (company : BufferCompany) (buffer : RentedBuffer) :
    (company.keep buffer).bufferSize = company.bufferSize := by
  unfold keep
  split <;> rfl

/-- Neither does a buffer that comes back. -/
theorem destroy_bufferSize (company : BufferCompany) (buffer : RentedBuffer) :
    (company.destroy buffer).bufferSize = company.bufferSize := by
  unfold destroy ownerFree addFree
  split
  · split <;> rfl
  · rfl

end BufferCompany

end Rakro
