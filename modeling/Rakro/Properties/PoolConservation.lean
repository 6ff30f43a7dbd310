import Rakro.Internal.RentedObjects
import Rakro.Infra.Holdings
import Mathlib.Data.List.Nodup
import Mathlib.Data.Set.Basic

/-!
# The pool loses no buffer and doubles none

`company.Conserves held` says that the free lists and `held` together are the buffers of the blocks,
each of them once. Renting moves a buffer from the one to the other, and `add_free` moves it back.
-/

namespace Rakro

open Infra

namespace BufferBlock

/-- The counter of the block is the length of its stack. -/
def Counts (block : BufferBlock) : Prop := block.freeBufferCount = block.freeBuffers.length

theorem counts_new (id bufferCount : Nat) : (new id bufferCount).Counts := by
  unfold Counts new
  rw [List.length_map, List.length_reverse, List.length_range]

theorem Counts.addFree {block : BufferBlock} (h : block.Counts) (buffer : BufferId) :
    (block.addFree buffer).Counts := congrArg Nat.succ h

/-- A block that has a buffer gives away the one on top. -/
theorem tryRent_eq_some {block block' : BufferBlock} {buffer : BufferId} (h : block.Counts)
    (hrent : block.tryRent = some (buffer, block')) :
    block.freeBuffers = buffer :: block'.freeBuffers ∧ block'.Counts ∧ block'.id = block.id := by
  unfold Counts at h
  unfold tryRent at hrent
  split at hrent
  · cases hrent
  · split at hrent
    · cases hrent
    · rename_i htop
      cases hrent
      refine ⟨htop, ?_, rfl⟩
      rw [Counts, h, htop, List.length_cons, Nat.add_sub_cancel]

/-- A block that counts rightly has nothing to rent when its list is empty. -/
theorem tryRent_eq_none {block : BufferBlock} (h : block.Counts) :
    block.tryRent = none ↔ block.freeBuffers = [] := by
  unfold Counts at h
  unfold tryRent
  rw [h]
  cases block.freeBuffers with
  | nil => simp
  | cons buffer rest => simp

end BufferBlock

namespace BufferCompany

/-! ## The scan -/

/-- `blocks'` is what is left of `blocks` once the buffer on top of one of them is taken. -/
def Takes (blocks : List BufferBlock) (buffer : BufferId) (blocks' : List BufferBlock) : Prop :=
  ∃ pre block block' post, blocks = pre ++ block :: post ∧
    block.tryRent = some (buffer, block') ∧ blocks' = pre ++ block' :: post

/-- What is taken behind a block is taken with it in front. -/
theorem Takes.cons {blocks blocks' : List BufferBlock} {buffer : BufferId}
    (h : Takes blocks buffer blocks') (block : BufferBlock) :
    Takes (block :: blocks) buffer (block :: blocks') := by
  obtain ⟨pre, found, found', post, rfl, hfound, rfl⟩ := h
  exact ⟨block :: pre, found, found', post, rfl, hfound, rfl⟩

/-- The scan takes a buffer from one of the blocks. -/
theorem takes_of_tryAll : ∀ {blocks blocks' : List BufferBlock} {buffer : BufferId},
    tryAll blocks = some (buffer, blocks') → Takes blocks buffer blocks'
  | block :: blocks, blocks', buffer, h => by
    unfold tryAll at h
    cases hrent : block.tryRent with
    | some result =>
      rw [hrent] at h
      cases h
      exact ⟨[], block, result.2, blocks, rfl, hrent, rfl⟩
    | none =>
      rw [hrent] at h
      cases hrest : tryAll blocks with
      | some result =>
        rw [hrest] at h
        cases h
        exact (takes_of_tryAll hrest).cons block
      | none =>
        rw [hrest] at h
        cases h

/-- The scan finds nothing when no block has anything. -/
theorem tryAll_eq_none : ∀ {blocks : List BufferBlock},
    tryAll blocks = none ↔ ∀ block ∈ blocks, block.tryRent = none
  | [] => by simp [tryAll]
  | block :: blocks => by
    have ih := @tryAll_eq_none blocks
    unfold tryAll
    cases hrent : block.tryRent with
    | some result => simp [hrent]
    | none => cases hrest : tryAll blocks <;> simp [hrent, hrest, ← ih]

/-! ## What is conserved -/

/-- The buffers that the block `id` has been cut into. -/
def buffersOf (company : BufferCompany) (id : Nat) : List BufferId :=
  (List.range company.bufferCount).map fun slot => ⟨id, slot⟩

/-- Every buffer of every block. -/
def allBuffers (company : BufferCompany) : List BufferId :=
  company.blocks.flatMap fun block => company.buffersOf block.id

/-- The buffers on the free lists. -/
def freeBuffers (company : BufferCompany) : List BufferId :=
  company.blocks.flatMap (·.freeBuffers)

/-- The free lists and `held` are the buffers of the blocks, each of them once. -/
structure Conserves (company : BufferCompany) (held : List BufferId) : Prop where
  ids : company.blocks.map (·.id) = (List.range company.blocks.length).reverse
  length_le : company.blocks.length ≤ company.blockMaxCount
  counts : ∀ block ∈ company.blocks, block.Counts
  own : ∀ block ∈ company.blocks, ∀ buffer ∈ block.freeBuffers, buffer.block = block.id
  perm : (company.freeBuffers ++ held).Perm company.allBuffers

section Conserves

variable {company : BufferCompany} {held : List BufferId}

/-- The blocks have different ids. -/
theorem Conserves.ids_nodup (h : company.Conserves held) : (company.blocks.map (·.id)).Nodup := by
  rw [h.ids, List.nodup_reverse]
  exact List.nodup_range

theorem mem_buffersOf {id : Nat} {buffer : BufferId} :
    buffer ∈ company.buffersOf id ↔ buffer.block = id ∧ buffer.slot < company.bufferCount := by
  unfold buffersOf
  rw [List.mem_map]
  constructor
  · rintro ⟨slot, hslot, rfl⟩
    exact ⟨rfl, List.mem_range.mp hslot⟩
  · rintro ⟨rfl, hslot⟩
    exact ⟨buffer.slot, List.mem_range.mpr hslot, rfl⟩

theorem mem_allBuffers {buffer : BufferId} :
    buffer ∈ company.allBuffers ↔
      buffer.block ∈ company.blocks.map (·.id) ∧ buffer.slot < company.bufferCount := by
  unfold allBuffers
  rw [List.mem_flatMap, List.mem_map]
  constructor
  · rintro ⟨block, hblock, hbuffer⟩
    obtain ⟨hid, hslot⟩ := mem_buffersOf.mp hbuffer
    exact ⟨⟨block, hblock, hid.symm⟩, hslot⟩
  · rintro ⟨⟨block, hblock, hid⟩, hslot⟩
    exact ⟨block, hblock, mem_buffersOf.mpr ⟨hid.symm, hslot⟩⟩

theorem length_allBuffers (company : BufferCompany) :
    company.allBuffers.length = company.blocks.length * company.bufferCount := by
  unfold allBuffers
  rw [List.length_flatMap]
  simp [buffersOf]

/-- No buffer is counted twice. -/
theorem Conserves.allBuffers_nodup (h : company.Conserves held) : company.allBuffers.Nodup := by
  unfold allBuffers
  rw [List.nodup_flatMap]
  constructor
  · intro block _
    refine List.Nodup.map (fun a b hab => ?_) List.nodup_range
    exact (BufferId.mk.inj hab).2
  · have hpairwise := List.pairwise_map.mp h.ids_nodup
    refine hpairwise.imp fun hne buffer hbuffer hbuffer' => hne ?_
    rw [← (mem_buffersOf.mp hbuffer).1, ← (mem_buffersOf.mp hbuffer').1]

/-- No buffer is free and held, or free twice, or held twice. -/
theorem Conserves.nodup (h : company.Conserves held) : (company.freeBuffers ++ held).Nodup :=
  h.perm.nodup_iff.mpr h.allBuffers_nodup

/-- What is held is in no free list. -/
theorem Conserves.not_free (h : company.Conserves held) {buffer : BufferId} (hheld : buffer ∈ held)
    {block : BufferBlock} (hblock : block ∈ company.blocks) : buffer ∉ block.freeBuffers := by
  intro hfree
  have hmem : buffer ∈ company.freeBuffers := List.mem_flatMap.mpr ⟨block, hblock, hfree⟩
  exact (List.nodup_append.mp h.nodup).2.2 buffer hmem buffer hheld rfl

/-- What is held is a buffer of the company. -/
theorem Conserves.mem_all (h : company.Conserves held) {buffer : BufferId} (hheld : buffer ∈ held) :
    buffer ∈ company.allBuffers := h.perm.subset (List.mem_append_right _ hheld)

/-- Who holds what does not matter. -/
theorem Conserves.of_perm {held' : List BufferId} (h : company.Conserves held)
    (hperm : held.Perm held') : company.Conserves held' :=
  { h with perm := (hperm.symm.append_left _).trans h.perm }

/-! ## Making a block -/

/-- Another block, all of whose buffers are free. -/
theorem Conserves.makeBlock (h : company.Conserves held)
    (hlt : company.blocks.length < company.blockMaxCount) :
    Conserves
      { company with
        blocks := .new company.blocks.length company.bufferCount :: company.blocks } held where
  ids := by
    rw [List.map_cons, List.length_cons, List.range_succ, List.reverse_concat, h.ids]
    rfl
  length_le := Nat.succ_le_of_lt hlt
  counts := by
    intro block hblock
    rcases List.mem_cons.mp hblock with rfl | hblock
    · exact BufferBlock.counts_new _ _
    · exact h.counts block hblock
  own := by
    intro block hblock buffer hbuffer
    rcases List.mem_cons.mp hblock with rfl | hblock
    · obtain ⟨slot, -, rfl⟩ := List.mem_map.mp hbuffer
      rfl
    · exact h.own block hblock buffer hbuffer
  perm := by
    have hnew : (BufferBlock.new company.blocks.length company.bufferCount).freeBuffers.Perm
        (company.buffersOf company.blocks.length) := (List.reverse_perm _).map _
    have hperm := hnew.append h.perm
    rw [← List.append_assoc] at hperm
    exact hperm

/-- While there is room, `init_block` makes a block, and the scan finds a buffer in it. -/
theorem initBlock_of_lt (hmaking : company.isMakingBlock = false)
    (hlt : company.blocks.length < company.blockMaxCount) :
    company.initBlock =
      { company with
        blocks := .new company.blocks.length company.bufferCount :: company.blocks } := by
  unfold BufferCompany.initBlock
  rw [if_neg (by rw [hmaking]; exact Bool.false_ne_true), if_neg (by omega)]

/-- The constructor makes the first block. -/
theorem new_eq {bufferCount bufferSize blockMaxCount : Nat} (hmax : 1 ≤ blockMaxCount) :
    new bufferCount bufferSize blockMaxCount =
      { bufferCount := bufferCount, bufferSize := bufferSize, blockMaxCount := blockMaxCount
        blocks := [.new 0 bufferCount], isMakingBlock := false } := by
  unfold new BufferCompany.initBlock
  rw [if_neg Bool.false_ne_true, if_neg (by dsimp only [List.length_nil]; omega)]
  rfl

/-- A new company conserves its buffers, all of them free. -/
theorem conserves_new {bufferCount bufferSize blockMaxCount : Nat} (hmax : 1 ≤ blockMaxCount) :
    (new bufferCount bufferSize blockMaxCount).Conserves [] := by
  have hempty : Conserves
      { bufferCount := bufferCount, bufferSize := bufferSize, blockMaxCount := blockMaxCount
        blocks := [], isMakingBlock := false } [] :=
    { ids := rfl, length_le := Nat.zero_le _, counts := by simp, own := by simp
      perm := List.Perm.nil }
  rw [new_eq hmax]
  exact hempty.makeBlock hmax

/-! ## Renting and returning -/

/-- One block passes buffers to the holders or gets them back. -/
theorem Conserves.replace {held' : List BufferId} {pre post : List BufferBlock}
    {block block' : BufferBlock} (h : company.Conserves held)
    (hblocks : company.blocks = pre ++ block :: post) (hid : block'.id = block.id)
    (hcounts : block'.Counts) (hown : ∀ buffer ∈ block'.freeBuffers, buffer.block = block.id)
    (hperm : (block'.freeBuffers ++ held').Perm (block.freeBuffers ++ held)) :
    Conserves { company with blocks := pre ++ block' :: post } held' := by
  have hids : (pre ++ block' :: post).map (·.id) = company.blocks.map (·.id) := by
    rw [hblocks]
    simp [hid]
  have hlength : (pre ++ block' :: post).length = company.blocks.length := by
    rw [hblocks]
    simp
  have hmem : ∀ b ∈ pre ++ block' :: post, b = block' ∨ b ∈ company.blocks := by
    intro b hb
    rw [hblocks]
    simp only [List.mem_append, List.mem_cons] at hb ⊢
    tauto
  refine { ids := ?_, length_le := ?_, counts := ?_, own := ?_, perm := ?_ }
  · dsimp only
    rw [hids, h.ids, hlength]
  · exact hlength.trans_le h.length_le
  · intro b hb
    rcases hmem b hb with rfl | hb
    · exact hcounts
    · exact h.counts b hb
  · intro b hb buffer hbuffer
    rcases hmem b hb with rfl | hb
    · rw [hid]
      exact hown buffer hbuffer
    · exact h.own b hb buffer hbuffer
  · have hall : allBuffers { company with blocks := pre ++ block' :: post } = company.allBuffers := by
      unfold allBuffers buffersOf
      rw [hblocks]
      simp [hid]
    rw [hall]
    refine List.Perm.trans (List.perm_iff_count.mpr fun buffer => ?_) h.perm
    have hcount := hperm.count_eq buffer
    unfold freeBuffers
    rw [hblocks]
    simp only [List.flatMap_append, List.flatMap_cons, List.count_append] at hcount ⊢
    omega

/-- A buffer that is taken has been free, and from then on it is held. -/
theorem Conserves.take (h : company.Conserves held) {buffer : BufferId} {blocks : List BufferBlock}
    (htakes : Takes company.blocks buffer blocks) :
    Conserves { company with blocks := blocks } (buffer :: held) := by
  obtain ⟨pre, block, block', post, hblocks, hrent, rfl⟩ := htakes
  have hblock : block ∈ company.blocks := by
    rw [hblocks]
    exact List.mem_append_cons_self
  obtain ⟨hfree, hcounts, hid⟩ := BufferBlock.tryRent_eq_some (h.counts block hblock) hrent
  refine h.replace hblocks hid hcounts (fun x hx => ?_) ?_
  · exact h.own block hblock x (by rw [hfree]; exact List.mem_cons_of_mem _ hx)
  · rw [hfree]
    exact List.perm_middle

/-- `add_free` on the block of a buffer that is held. -/
theorem Conserves.addFree {buffer : BufferId} (h : company.Conserves (buffer :: held)) :
    (company.addFree buffer.block buffer).Conserves held := by
  obtain ⟨block, hblock, hid⟩ :=
    List.mem_map.mp (mem_allBuffers.mp (h.mem_all List.mem_cons_self)).1
  obtain ⟨pre, post, hblocks⟩ := List.append_of_mem hblock
  have hother : ∀ b ∈ pre ++ post, ¬ b.id = buffer.block := by
    intro b hb hb'
    have hnodup := h.ids_nodup
    rw [hblocks, List.map_append, List.map_cons, List.nodup_middle, List.nodup_cons,
      ← List.map_append, hid, ← hb'] at hnodup
    exact hnodup.1 (List.mem_map_of_mem hb)
  have hmap : ∀ l : List BufferBlock, (∀ b ∈ l, ¬ b.id = buffer.block) →
      (l.map fun b => if b.id = buffer.block then b.addFree buffer else b) = l := by
    intro l hl
    exact (List.map_congr_left fun b hb => if_neg (hl b hb)).trans (List.map_id l)
  have hreturned : company.addFree buffer.block buffer
      = { company with blocks := pre ++ block.addFree buffer :: post } := by
    unfold BufferCompany.addFree
    rw [hblocks, List.map_append, List.map_cons, if_pos hid,
      hmap pre fun b hb => hother b (List.mem_append_left _ hb),
      hmap post fun b hb => hother b (List.mem_append_right _ hb)]
  rw [hreturned]
  refine h.replace hblocks rfl ((h.counts block hblock).addFree buffer) ?_ ?_
  · intro x hx
    rcases List.mem_cons.mp hx with rfl | hx
    · exact hid.symm
    · exact h.own block hblock x hx
  · exact List.perm_middle.symm

end Conserves

end BufferCompany

/-! ## A rented buffer -/

/-- The buffer of the pool that the object has to return. -/
def RentedBuffer.held (rented : RentedBuffer) : List BufferId :=
  match rented.owner, rented.home with
  | some _, some home => [home.buffer]
  | _, _ => []

/-- The object has the whole memory of `buffer`, and has it to return. -/
structure RentedBuffer.Owns (rented : RentedBuffer) (size : Nat) (buffer : BufferId) : Prop where
  home : rented.home = some { buffer }
  owner : rented.owner = some buffer.block
  length : rented.memory.length = size

/-- An owned buffer is the one held. -/
theorem RentedBuffer.Owns.held {rented : RentedBuffer} {size : Nat} {buffer : BufferId}
    (h : rented.Owns size buffer) : rented.held = [buffer] := by
  unfold RentedBuffer.held
  rw [h.owner, h.home]

namespace BufferCompany

/-- The settings of the company stay, and no block is lost. -/
structure Grows (company company' : BufferCompany) : Prop where
  bufferCount : company'.bufferCount = company.bufferCount
  bufferSize : company'.bufferSize = company.bufferSize
  blockMaxCount : company'.blockMaxCount = company.blockMaxCount
  isMakingBlock : company'.isMakingBlock = company.isMakingBlock
  length_le : company.blocks.length ≤ company'.blocks.length

section Rent

variable {company company' : BufferCompany} {held : List BufferId} {rented : RentedBuffer}
  {buffer : BufferId}

theorem owns_lend (company : BufferCompany) (buffer : BufferId) :
    (company.lend buffer).Owns company.bufferSize buffer := ⟨rfl, rfl, company.length_load _ _⟩

/-- The scan of the two in `rent`. -/
theorem Conserves.scan (h : company.Conserves held) {blocks : List BufferBlock}
    (hscan : BufferCompany.tryAll company.blocks = some (buffer, blocks)) :
    Conserves { company with blocks := blocks } (buffer :: held) ∧
      company.Grows { company with blocks := blocks } := by
  have htakes := takes_of_tryAll hscan
  refine ⟨h.take htakes, rfl, rfl, rfl, rfl, ?_⟩
  obtain ⟨pre, block, block', post, hblocks, -, rfl⟩ := htakes
  rw [hblocks]
  simp

/-- **A buffer that is rented has been free, and is held from then on.** -/
theorem Conserves.rent_eq_ok (h : company.Conserves held)
    (hmaking : company.isMakingBlock = false)
    (hrent : company.rent = .ok (rented, company')) : ∃ buffer,
      rented.Owns company.bufferSize buffer ∧ company'.Conserves (buffer :: held) ∧
        company.Grows company' := by
  unfold rent at hrent
  split at hrent
  · rename_i buffer blocks hscan
    cases hrent
    exact ⟨buffer, company.owns_lend buffer, h.scan hscan⟩
  · split at hrent
    · split at hrent <;> cases hrent
    · rename_i hfull
      have hlt : company.blocks.length < company.blockMaxCount := by
        have hle := h.length_le
        omega
      split at hrent
      · rename_i buffer blocks hscan
        cases hrent
        rw [initBlock_of_lt hmaking hlt] at hscan ⊢
        obtain ⟨hconserves, hgrows⟩ := (h.makeBlock hlt).scan hscan
        refine ⟨buffer, company.owns_lend buffer, hconserves, rfl, rfl, rfl, rfl, ?_⟩
        exact Nat.le_trans (Nat.le_succ _) hgrows.length_le
      · cases hrent

/-- The scan finds nothing when no buffer is free. -/
theorem Conserves.tryAll_eq_none (h : company.Conserves held) :
    BufferCompany.tryAll company.blocks = none ↔ company.freeBuffers = [] := by
  rw [BufferCompany.tryAll_eq_none]
  unfold freeBuffers
  rw [List.flatMap_eq_nil_iff]
  constructor
  · intro hnone block hblock
    exact (BufferBlock.tryRent_eq_none (h.counts block hblock)).mp (hnone block hblock)
  · intro hfree block hblock
    exact (BufferBlock.tryRent_eq_none (h.counts block hblock)).mpr (hfree block hblock)

/-- **What cannot be rented at once is a buffer of a full pool none of whose buffers is free.** -/
theorem Conserves.rent_eq_error (h : company.Conserves held)
    (hmaking : company.isMakingBlock = false) (hcount : 1 ≤ company.bufferCount)
    (hmax : 1 ≤ company.blockMaxCount) {e : Exn} (hrent : company.rent = .error e) :
    e = .blocked ∧ company.freeBuffers = [] ∧ company.blocks.length = company.blockMaxCount := by
  unfold rent at hrent
  split at hrent
  · cases hrent
  · rename_i hscan
    split at hrent
    · rename_i hfull
      have hne : ¬ company.blocks.isEmpty := by
        rw [List.isEmpty_iff_length_eq_zero]
        omega
      rw [if_neg hne] at hrent
      cases hrent
      exact ⟨rfl, h.tryAll_eq_none.mp hscan, hfull⟩
    · rename_i hfull
      have hlt : company.blocks.length < company.blockMaxCount := by
        have hle := h.length_le
        omega
      split at hrent
      · cases hrent
      · rename_i hsecond
        rw [initBlock_of_lt hmaking hlt] at hsecond
        have hnew := List.flatMap_eq_nil_iff.mp ((h.makeBlock hlt).tryAll_eq_none.mp hsecond) _
          List.mem_cons_self
        have hlength : (BufferBlock.new company.blocks.length company.bufferCount).freeBuffers.length
            = company.bufferCount := (BufferBlock.counts_new _ _).symm
        rw [hnew, List.length_nil] at hlength
        omega

/-! ## Returning -/

theorem grows_ownerFree (company : BufferCompany) (rented : RentedBuffer) :
    company.Grows (company.ownerFree rented) := by
  unfold ownerFree
  split
  · exact ⟨rfl, rfl, rfl, rfl, (List.length_map _).ge⟩
  · exact ⟨rfl, rfl, rfl, rfl, Nat.le_refl _⟩

theorem grows_destroy (company : BufferCompany) (rented : RentedBuffer) :
    company.Grows (company.destroy rented) := by
  unfold destroy
  split
  · exact company.grows_ownerFree rented
  · exact ⟨rfl, rfl, rfl, rfl, Nat.le_refl _⟩

/-- A held buffer that is given back is free. -/
theorem Conserves.ownerFree {size : Nat} (h : company.Conserves (buffer :: held))
    (howns : rented.Owns size buffer) : (company.ownerFree rented).Conserves held := by
  unfold BufferCompany.ownerFree
  rw [howns.owner, howns.home]
  exact h.addFree

/-- The destructor returns what `owner_free` does, since a rented buffer is never empty. -/
theorem destroy_of_owns {size : Nat} (hsize : 1 ≤ size) (howns : rented.Owns size buffer) :
    company.destroy rented = company.ownerFree rented := by
  have hlength := howns.length
  unfold destroy
  rw [if_pos (by omega)]

end Rent

end BufferCompany

/-! ## The objects of a thread -/

/-- A rented buffer has a buffer of the pool, or has been moved from. -/
def RentedBuffer.Proper (rented : RentedBuffer) (size : Nat) : Prop :=
  rented = {} ∨ ∃ buffer, rented.Owns size buffer

/-- An object gives back what it holds, if it holds anything. -/
theorem RentedBuffer.Proper.ownerFree {company : BufferCompany} {held : List BufferId}
    {rented : RentedBuffer} {size : Nat} (hproper : rented.Proper size)
    (h : company.Conserves (rented.held ++ held)) : (company.ownerFree rented).Conserves held := by
  rcases hproper with rfl | ⟨buffer, howns⟩
  · exact h
  · rw [howns.held] at h
    exact h.ownerFree howns

/-- The end of a lifetime gives back what the object holds. -/
theorem RentedBuffer.Proper.destroy {company : BufferCompany} {rented : RentedBuffer} {size : Nat}
    (hsize : 1 ≤ size) (hproper : rented.Proper size) :
    company.destroy rented = company.ownerFree rented := by
  rcases hproper with rfl | ⟨buffer, howns⟩
  · rfl
  · exact BufferCompany.destroy_of_owns hsize howns

/-- All the objects of a thread are. -/
def AllProper (size : Nat) (objects : AList fun _ : Nat => RentedBuffer) : Prop :=
  ∀ x rented, objects.lookup x = some rented → rented.Proper size

theorem AllProper.insert {size : Nat} {objects : AList fun _ : Nat => RentedBuffer}
    (h : AllProper size objects) (x : Nat) {rented : RentedBuffer} (hproper : rented.Proper size) :
    AllProper size (objects.insert x rented) := AllEntries.insert h hproper

theorem AllProper.erase {size : Nat} {objects : AList fun _ : Nat => RentedBuffer}
    (h : AllProper size objects) (x : Nat) : AllProper size (objects.erase x) :=
  AllEntries.erase h x

/-- What holds of a company and the objects of a thread after every operation. -/
structure Pool.Holds (bufferCount bufferSize blockMaxCount : Nat) (pool : Pool) : Prop where
  conserves : pool.company.Conserves (holdings RentedBuffer.held pool.objects)
  proper : AllProper bufferSize pool.objects
  bufferCount_eq : pool.company.bufferCount = bufferCount
  bufferSize_eq : pool.company.bufferSize = bufferSize
  blockMaxCount_eq : pool.company.blockMaxCount = blockMaxCount
  notMaking : pool.company.isMakingBlock = false
  length_pos : 1 ≤ pool.company.blocks.length

namespace Pool.Holds

variable {bufferCount bufferSize blockMaxCount : Nat} {pool pool' : Pool}

theorem new (hmax : 1 ≤ blockMaxCount) :
    (Pool.new bufferCount bufferSize blockMaxCount).Holds bufferCount bufferSize blockMaxCount where
  conserves := BufferCompany.conserves_new hmax
  proper := by
    intro x rented hlookup
    cases hlookup
  bufferCount_eq := by rw [Pool.new, BufferCompany.new_eq hmax]
  bufferSize_eq := by rw [Pool.new, BufferCompany.new_eq hmax]
  blockMaxCount_eq := by rw [Pool.new, BufferCompany.new_eq hmax]
  notMaking := by rw [Pool.new, BufferCompany.new_eq hmax]
  length_pos := by
    rw [Pool.new, BufferCompany.new_eq hmax]
    exact Nat.le_refl 1

/-- Another company, that has the settings of the old one, and other objects. -/
theorem of_grows (h : pool.Holds bufferCount bufferSize blockMaxCount)
    (hgrows : pool.company.Grows pool'.company)
    (hconserves : pool'.company.Conserves (holdings RentedBuffer.held pool'.objects))
    (hproper : AllProper bufferSize pool'.objects) :
    pool'.Holds bufferCount bufferSize blockMaxCount where
  conserves := hconserves
  proper := hproper
  bufferCount_eq := hgrows.bufferCount.trans h.bufferCount_eq
  bufferSize_eq := hgrows.bufferSize.trans h.bufferSize_eq
  blockMaxCount_eq := hgrows.blockMaxCount.trans h.blockMaxCount_eq
  notMaking := hgrows.isMakingBlock.trans h.notMaking
  length_pos := Nat.le_trans h.length_pos hgrows.length_le

/-- The object at `x`, if there is one, returns its buffer, and that of `y` moves over. -/
theorem takeOver (h : pool.Holds bufferCount bufferSize blockMaxCount) {x y : Nat}
    {this other : RentedBuffer}
    (hthis : pool.objects.lookup x = some this ∨ x ∉ pool.objects ∧ this = {})
    (hother : pool.objects.lookup y = some other) (hxy : x ≠ y)
    (hrun : (BufferOp.takeOver x y this other).run pool = .ok ⟨⟩ pool') :
    pool'.Holds bufferCount bufferSize blockMaxCount := by
  cases hrun
  have hproper : this.Proper bufferSize := by
    rcases hthis with hthis | ⟨-, rfl⟩
    · exact h.proper x this hthis
    · exact Or.inl rfl
  refine h.of_grows (pool.company.grows_ownerFree this) (hproper.ownerFree ?_) ?_
  · refine h.conserves.of_perm ?_
    have hy := holdings_perm (f := RentedBuffer.held) hother
    have hx : (holdings RentedBuffer.held (pool.objects.insert y {})).Perm (this.held ++
        holdings RentedBuffer.held ((pool.objects.insert y {}).erase x)) := by
      refine holdings_perm_of_nil ?_
      rcases hthis with hthis | ⟨hnot, rfl⟩
      · exact Or.inl (by rw [AList.lookup_insert_ne hxy, hthis])
      · exact Or.inr ⟨by simp [AList.mem_insert, hxy, hnot], rfl⟩
    rw [holdings_insert] at hx
    show (holdings RentedBuffer.held pool.objects).Perm
      (this.held ++ holdings RentedBuffer.held ((pool.objects.insert y {}).insert x other))
    rw [holdings_insert]
    refine hy.trans ((hx.append_left other.held).trans ?_)
    rw [← List.append_assoc, ← List.append_assoc]
    exact List.perm_append_comm.append_right _
  · exact (h.proper.insert y (Or.inl rfl)).insert x (h.proper y other hother)

/-- **An operation loses no buffer and doubles none.** -/
theorem step (hsize : 1 ≤ bufferSize) (h : pool.Holds bufferCount bufferSize blockMaxCount)
    (op : BufferOp) (hrun : op.run.run pool = .ok ⟨⟩ pool') :
    pool'.Holds bufferCount bufferSize blockMaxCount := by
  cases op with
  | rent x =>
    unfold BufferOp.run at hrun
    rw [run_get_bind] at hrun
    split at hrun
    · cases hrun
    · rename_i hnot
      split at hrun
      · rename_i rented company hrent
        cases hrun
        obtain ⟨buffer, howns, hconserves, hgrows⟩ := h.conserves.rent_eq_ok h.notMaking hrent
        rw [h.bufferSize_eq] at howns
        refine h.of_grows hgrows ?_ (h.proper.insert x (Or.inr ⟨buffer, howns⟩))
        show company.Conserves (holdings RentedBuffer.held (pool.objects.insert x rented))
        rw [holdings_insert_of_notMem hnot, howns.held]
        exact hconserves
      · cases hrun
  | moveConstruct x y =>
    unfold BufferOp.run at hrun
    rw [run_get_bind] at hrun
    split at hrun
    · cases hrun
    · rename_i hnot
      split at hrun
      · rename_i other hother
        refine h.takeOver (Or.inr ⟨hnot, rfl⟩) hother (fun hxy => hnot ?_) hrun
        rw [hxy]
        exact AList.lookup_isSome.mp (by rw [hother]; rfl)
      · cases hrun
  | moveAssign x y =>
    unfold BufferOp.run at hrun
    rw [run_get_bind] at hrun
    split at hrun
    · rename_i this other hthis hother
      split at hrun
      · cases hrun
        exact h
      · rename_i hxy
        exact h.takeOver (Or.inl hthis) hother hxy hrun
    · cases hrun
  | destroy x =>
    unfold BufferOp.run at hrun
    rw [run_get_bind] at hrun
    split at hrun
    · rename_i this hthis
      cases hrun
      have hproper := h.proper x this hthis
      refine h.of_grows (pool.company.grows_destroy this) ?_ (h.proper.erase x)
      show (pool.company.destroy this).Conserves (holdings RentedBuffer.held (pool.objects.erase x))
      rw [hproper.destroy hsize]
      exact hproper.ownerFree (h.conserves.of_perm (holdings_perm hthis))
    · cases hrun

/-- The pool is conserved in every run of operations. -/
theorem of_reaches (hsize : 1 ≤ bufferSize) (hmax : 1 ≤ blockMaxCount) {ops : List BufferOp}
    (hreach : Reaches BufferOp.run (.new bufferCount bufferSize blockMaxCount) ops pool) :
    pool.Holds bufferCount bufferSize blockMaxCount := by
  induction hreach with
  | nil => exact new hmax
  | snoc _ hrun ih => exact ih.step hsize _ hrun

end Pool.Holds

/-! ## The places of the buffers -/

/--
The addresses of a buffer, as offsets into the memory of its block. A block fits the address space,
so that the source's `size_t` products do not wrap.
-/
def BufferId.addresses (size : Nat) (buffer : BufferId) : Set (Nat × Nat) :=
  { place | place.1 = buffer.block ∧ buffer.slot * size ≤ place.2 ∧
    place.2 < (buffer.slot + 1) * size }

/-- Two buffers share no address. -/
theorem BufferId.addresses_disjoint (size : Nat) {buffer other : BufferId} (hne : buffer ≠ other) :
    buffer.addresses size ∩ other.addresses size = ∅ := by
  refine Set.eq_empty_of_forall_notMem ?_
  rintro place ⟨⟨hblock, hge, hlt⟩, ⟨hblock', hge', hlt'⟩⟩
  refine hne ?_
  have hle : buffer.slot ≤ other.slot :=
    Nat.le_of_lt_succ (Nat.lt_of_mul_lt_mul_right (Nat.lt_of_le_of_lt hge hlt'))
  have hle' : other.slot ≤ buffer.slot :=
    Nat.le_of_lt_succ (Nat.lt_of_mul_lt_mul_right (Nat.lt_of_le_of_lt hge' hlt))
  have hsame : buffer.block = other.block := hblock.symm.trans hblock'
  cases buffer
  cases other
  rw [BufferId.mk.injEq]
  exact ⟨hsame, Nat.le_antisymm hle hle'⟩

/-- The buffer is in the free list of its block once, or one object has it, and not both. -/
def Pool.InOnePlace (pool : Pool) (block : BufferBlock) (buffer : BufferId) : Prop :=
  block.freeBuffers.count buffer = 1 ∧
      (∀ x rented, pool.objects.lookup x = some rented → buffer ∉ rented.held) ∨
    buffer ∉ block.freeBuffers ∧
      ∃! x, ∃ rented, pool.objects.lookup x = some rented ∧ buffer ∈ rented.held

/-- Every buffer of every block has its place, and every object its memory. -/
structure Pool.Conserved (bufferCount bufferSize blockMaxCount : Nat) (pool : Pool) : Prop where
  length_pos : 1 ≤ pool.company.blocks.length
  length_le : pool.company.blocks.length ≤ blockMaxCount
  free_count : ∀ block ∈ pool.company.blocks,
    block.freeBufferCount = block.freeBuffers.length
  ids_nodup : (pool.company.blocks.map (·.id)).Nodup
  own : ∀ block ∈ pool.company.blocks, ∀ buffer ∈ block.freeBuffers,
    buffer.block = block.id ∧ buffer.slot < bufferCount
  one_place : ∀ block ∈ pool.company.blocks, ∀ slot < bufferCount,
    pool.InOnePlace block ⟨block.id, slot⟩
  live : ∀ x rented, pool.objects.lookup x = some rented → rented = {} ∨
    ∃ buffer, rented.Owns bufferSize buffer ∧ buffer.slot < bufferCount ∧
      buffer.block ∈ pool.company.blocks.map (·.id)
  disjoint : ∀ x y rented rented' buffer buffer', x ≠ y →
    pool.objects.lookup x = some rented → rented.Owns bufferSize buffer →
    pool.objects.lookup y = some rented' → rented'.Owns bufferSize buffer' →
    buffer.addresses bufferSize ∩ buffer'.addresses bufferSize = ∅
  rent : ∀ e, pool.company.rent = .error e → e = .blocked ∧
    (∀ block ∈ pool.company.blocks, block.freeBuffers = []) ∧
      pool.company.blocks.length = blockMaxCount

section Conserved

variable {bufferCount bufferSize blockMaxCount : Nat} {pool : Pool}

/-- A buffer of the company is a slot of one of its blocks. -/
theorem Pool.Holds.mem_buffers (h : pool.Holds bufferCount bufferSize blockMaxCount)
    {buffer : BufferId} (hmem : buffer ∈ pool.company.allBuffers) :
    buffer.block ∈ pool.company.blocks.map (·.id) ∧ buffer.slot < bufferCount := by
  rw [← h.bufferCount_eq]
  exact BufferCompany.mem_allBuffers.mp hmem

/-- A slot of a block is free or held by one object, and not both. -/
theorem Pool.Holds.inOnePlace (h : pool.Holds bufferCount bufferSize blockMaxCount)
    {block : BufferBlock} (hblock : block ∈ pool.company.blocks) {slot : Nat}
    (hslot : slot < bufferCount) : pool.InOnePlace block ⟨block.id, slot⟩ := by
  have hnodup := List.nodup_append.mp h.conserves.nodup
  by_cases hfree : (⟨block.id, slot⟩ : BufferId) ∈ block.freeBuffers
  · left
    have honce : block.freeBuffers.Nodup := (List.nodup_flatMap.mp hnodup.1).1 block hblock
    refine ⟨List.count_eq_one_of_mem honce hfree, fun x rented hlookup hheld => ?_⟩
    exact h.conserves.not_free (mem_holdings.mpr ⟨x, rented, hlookup, hheld⟩) hblock hfree
  · right
    have hall : (⟨block.id, slot⟩ : BufferId) ∈ pool.company.allBuffers :=
      BufferCompany.mem_allBuffers.mpr ⟨List.mem_map_of_mem hblock, h.bufferCount_eq.symm ▸ hslot⟩
    rcases List.mem_append.mp (h.conserves.perm.symm.subset hall) with hother | hheld
    · -- the free lists of two blocks have nothing in common
      obtain ⟨other, hmem, hin⟩ := List.mem_flatMap.mp hother
      have hid : block.id = other.id := h.conserves.own other hmem _ hin
      have hsame : block = other :=
        List.inj_on_of_nodup_map h.conserves.ids_nodup hblock hmem hid
      exact absurd (hsame ▸ hin) hfree
    · obtain ⟨x, rented, hlookup, hin⟩ := mem_holdings.mp hheld
      refine ⟨hfree, x, ⟨rented, hlookup, hin⟩, ?_⟩
      rintro y ⟨rented', hlookup', hin'⟩
      exact holder_unique hnodup.2.1 hlookup' hlookup hin' hin

/--
**Whatever a thread does with its rented buffers, every buffer of every block is in its free list
or in one of the objects, and not in two places.** Only a full pool without a free buffer makes the
thread wait, and no renting unwraps an empty optional.
-/
theorem pool_conserved (hcount : 1 ≤ bufferCount) (hsize : 1 ≤ bufferSize)
    (hmax : 1 ≤ blockMaxCount) {ops : List BufferOp}
    (hreach : Reaches BufferOp.run (.new bufferCount bufferSize blockMaxCount) ops pool) :
    pool.Conserved bufferCount bufferSize blockMaxCount := by
  have h := Pool.Holds.of_reaches hsize hmax hreach
  have hheld : ∀ {rented : RentedBuffer} {buffer}, rented.Owns bufferSize buffer →
      buffer ∈ rented.held := by
    intro rented buffer howns
    rw [howns.held]
    exact List.mem_singleton_self buffer
  have hall : ∀ x rented buffer, pool.objects.lookup x = some rented →
      rented.Owns bufferSize buffer → buffer ∈ pool.company.allBuffers := by
    intro x rented buffer hlookup howns
    exact h.conserves.mem_all (mem_holdings.mpr ⟨x, rented, hlookup, hheld howns⟩)
  refine
    { length_pos := h.length_pos, length_le := h.blockMaxCount_eq ▸ h.conserves.length_le
      free_count := h.conserves.counts, ids_nodup := h.conserves.ids_nodup, own := ?_
      one_place := fun block hblock slot hslot => h.inOnePlace hblock hslot
      live := ?_, disjoint := ?_, rent := ?_ }
  · intro block hblock buffer hbuffer
    have hmem : buffer ∈ pool.company.allBuffers :=
      h.conserves.perm.subset
        (List.mem_append_left _ (List.mem_flatMap.mpr ⟨block, hblock, hbuffer⟩))
    exact ⟨h.conserves.own block hblock buffer hbuffer, (h.mem_buffers hmem).2⟩
  · intro x rented hlookup
    rcases h.proper x rented hlookup with rfl | ⟨buffer, howns⟩
    · exact Or.inl rfl
    · obtain ⟨hblock, hslot⟩ := h.mem_buffers (hall x rented buffer hlookup howns)
      exact Or.inr ⟨buffer, howns, hslot, hblock⟩
  · intro x y rented rented' buffer buffer' hne hlookup howns hlookup' howns'
    refine BufferId.addresses_disjoint bufferSize fun hsame => hne ?_
    exact holder_unique (List.nodup_append.mp h.conserves.nodup).2.1 hlookup hlookup' (hheld howns)
      (hsame ▸ hheld howns')
  · intro e hrent
    have hcount' : 1 ≤ pool.company.bufferCount := h.bufferCount_eq.symm ▸ hcount
    have hmax' : 1 ≤ pool.company.blockMaxCount := h.blockMaxCount_eq.symm ▸ hmax
    obtain ⟨he, hfree, hfull⟩ := h.conserves.rent_eq_error h.notMaking hcount' hmax' hrent
    exact ⟨he, List.flatMap_eq_nil_iff.mp hfree, hfull.trans h.blockMaxCount_eq⟩

/-- Three rents, the last of them from a second block, and two objects that change hands. -/
def threeRents : List BufferOp :=
  [.rent 0, .rent 1, .rent 2, .moveAssign 0 2, .destroy 1, .moveConstruct 3 0]

/-- The pool behind them. -/
theorem pool_conserved_threeRents :
    ∃ pool, Reaches BufferOp.run (.new 2 1 2) threeRents pool ∧ pool.Conserved 2 1 2 := by
  have hreach : Reaches BufferOp.run (.new 2 1 2) threeRents _ :=
    reaches_of_succeeds (by decide +kernel)
  exact ⟨_, hreach, pool_conserved (by decide) (by decide) (by decide) hreach⟩

end Conserved

end Rakro
