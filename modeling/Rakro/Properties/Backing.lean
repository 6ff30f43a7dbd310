import Rakro.Server.Server
import Rakro.Properties.PoolConservation
import Rakro.Properties.Codec

/-!
# Rented buffers that are kept

`company.Backs config stored scope` is about a pool of a server: the buffers of the views in
`stored`, and those in `scope` beside them, are rented, each of them once, and the memory behind a
stored view is still what the view shows. Whoever has a buffer in his scope may write to it, return
it or store it.
-/

namespace Rakro

open Infra

/-- The pool that the server has made of its configuration. -/
structure BufferCompany.Configured (company : BufferCompany) (config : ServerConfig) : Prop where
  bufferCount : company.bufferCount = config.rentedBufferCount
  bufferSize : company.bufferSize = config.rentedBufferSize
  blockMaxCount : company.blockMaxCount = config.rentedBlockBufferCount
  notMaking : company.isMakingBlock = false

/-- A company that has only grown is still the one that was configured. -/
theorem BufferCompany.Configured.of_grows {company company' : BufferCompany} {config : ServerConfig}
    (h : company.Configured config) (hgrows : company.Grows company') :
    company'.Configured config where
  bufferCount := hgrows.bufferCount.trans h.bufferCount
  bufferSize := hgrows.bufferSize.trans h.bufferSize
  blockMaxCount := hgrows.blockMaxCount.trans h.blockMaxCount
  notMaking := hgrows.isMakingBlock.trans h.notMaking

/-- How many buffers the pool has when it has as many blocks as it may have. -/
def ServerConfig.capacity (config : ServerConfig) : Nat :=
  config.rentedBlockBufferCount * config.rentedBufferCount

/-- The view owns a buffer of the pool, whose memory is what the view shows. -/
def RentedBuffer.Whole (rented : RentedBuffer) (size : Nat) (company : BufferCompany) : Prop :=
  ∃ buffer, rented.Owns size buffer ∧ company.load { buffer } size = rented.memory

namespace BufferCompany

/--
The company has been made for `config`, accounts for the blocks of the stored buffers and of those
in scope, and has room for every stored buffer in its block.
-/
structure Backs (company : BufferCompany) (config : ServerConfig) (stored : List RentedBuffer)
    (scope : List BufferId) : Prop where
  conserves : company.Conserves (stored.flatMap RentedBuffer.held ++ scope)
  configured : company.Configured config
  whole : ∀ rented ∈ stored, rented.Whole config.rentedBufferSize company

/-! ## The memory -/

theorem load_congr {company company' : BufferCompany} (h : company'.memory = company.memory)
    (place : Place) (leng : Nat) : company'.load place leng = company.load place leng := by
  unfold load
  rw [h]

theorem memory_rent {company company' : BufferCompany} {rented : RentedBuffer}
    (h : company.rent = .ok (rented, company')) : company'.memory = company.memory := by
  have hinit : company.initBlock.memory = company.memory := by
    unfold initBlock
    split
    · rfl
    · split <;> rfl
  unfold rent at h
  split at h
  · cases h
    rfl
  · split at h
    · split at h <;> cases h
    · split at h
      · cases h
        exact hinit
      · cases h

theorem memory_destroy (company : BufferCompany) (rented : RentedBuffer) :
    (company.destroy rented).memory = company.memory := by
  unfold destroy ownerFree addFree
  split
  · split <;> rfl
  · rfl

/-- A view that owns nothing is destroyed without a trace. -/
theorem destroy_of_owner_none {rented : RentedBuffer} (h : rented.owner = none)
    (company : BufferCompany) : company.destroy rented = company := by
  unfold destroy ownerFree
  rw [h]
  split <;> rfl

/-- What is written through a view of a whole buffer is what the pool holds. -/
theorem load_keep {rented : RentedBuffer} {size : Nat} {buffer : BufferId}
    (h : rented.Owns size buffer) (company : BufferCompany) :
    (company.keep rented).load { buffer } size = rented.memory := by
  unfold keep
  rw [h.home, ← h.length]
  have hload := company.load_store { buffer } [] rented.memory []
  rwa [List.nil_append, List.append_nil] at hload

theorem conserves_keep {company : BufferCompany} {held : List BufferId} (h : company.Conserves held)
    (rented : RentedBuffer) : (company.keep rented).Conserves held := by
  unfold keep
  split
  · exact ⟨h.ids, h.length_le, h.counts, h.own, h.perm⟩
  · exact h

theorem grows_keep (company : BufferCompany) (rented : RentedBuffer) :
    company.Grows (company.keep rented) := by
  unfold keep
  split <;> exact ⟨rfl, rfl, rfl, rfl, Nat.le_refl _⟩

/-! ## What the holders may do -/

section Backs

variable {company company' : BufferCompany} {config : ServerConfig} {rented : RentedBuffer}
  {stored stored' : List RentedBuffer} {scope : List BufferId} {buffer : BufferId}

theorem Backs.of_perm (h : company.Backs config stored scope) (hperm : stored.Perm stored') :
    company.Backs config stored' scope where
  conserves := h.conserves.of_perm ((hperm.flatMap_right _).append_right _)
  configured := h.configured
  whole rented hmem := h.whole rented (hperm.symm.subset hmem)

/-- A stored buffer stays whole as long as the memory does. -/
theorem Backs.whole_of_memory (h : company.Backs config stored scope)
    (hmemory : company'.memory = company.memory) :
    ∀ rented ∈ stored, rented.Whole config.rentedBufferSize company' := by
  intro rented hmem
  obtain ⟨buffer, howns, hload⟩ := h.whole rented hmem
  exact ⟨buffer, howns, (load_congr hmemory _ _).trans hload⟩

/-- A buffer that is rented comes into the scope. -/
theorem Backs.rent (h : company.Backs config stored scope)
    (hrent : company.rent = .ok (rented, company')) : ∃ buffer,
      rented.Owns config.rentedBufferSize buffer ∧
        company'.Backs config stored (buffer :: scope) := by
  obtain ⟨buffer, howns, hconserves, hgrows⟩ :=
    h.conserves.rent_eq_ok h.configured.notMaking hrent
  rw [h.configured.bufferSize] at howns
  exact ⟨buffer, howns, hconserves.of_perm List.perm_middle.symm, h.configured.of_grows hgrows,
    h.whole_of_memory (memory_rent hrent)⟩

/-- A buffer of the scope is returned. -/
theorem Backs.release (hsize : 1 ≤ config.rentedBufferSize)
    (h : company.Backs config stored (buffer :: scope))
    (howns : rented.Owns config.rentedBufferSize buffer) :
    (company.destroy rented).Backs config stored scope := by
  refine ⟨?_, h.configured.of_grows (company.grows_destroy rented),
    h.whole_of_memory (company.memory_destroy rented)⟩
  rw [destroy_of_owns hsize howns]
  exact (h.conserves.of_perm List.perm_middle).ownerFree howns

/-- A buffer of the scope is stored. -/
theorem Backs.store (h : company.Backs config stored (buffer :: scope))
    (howns : rented.Owns config.rentedBufferSize buffer)
    (hload : company.load { buffer } config.rentedBufferSize = rented.memory) :
    company.Backs config (rented :: stored) scope := by
  refine ⟨h.conserves.of_perm ?_, h.configured, fun other hmem => ?_⟩
  · rw [List.flatMap_cons, howns.held]
    exact List.perm_middle
  · rcases List.mem_cons.mp hmem with rfl | hmem
    · exact ⟨buffer, howns, hload⟩
    · exact h.whole other hmem

/-- What is stored is returned. -/
theorem Backs.discard (hsize : 1 ≤ config.rentedBufferSize)
    (h : company.Backs config (rented :: stored) scope) :
    (company.destroy rented).Backs config stored scope := by
  obtain ⟨buffer, howns, -⟩ := h.whole rented List.mem_cons_self
  refine ⟨?_, h.configured.of_grows (company.grows_destroy rented), ?_⟩
  · have hconserves := h.conserves
    rw [List.flatMap_cons, howns.held] at hconserves
    rw [destroy_of_owns hsize howns]
    exact hconserves.ownerFree howns
  · intro other hmem
    exact h.whole_of_memory (company.memory_destroy rented) other (List.mem_cons_of_mem _ hmem)

/-- A buffer of the scope is written to. -/
theorem Backs.keep (h : company.Backs config stored scope)
    (howns : rented.Owns config.rentedBufferSize buffer) (hmem : buffer ∈ scope) :
    (company.keep rented).Backs config stored scope := by
  refine ⟨conserves_keep h.conserves rented, h.configured.of_grows (company.grows_keep rented), ?_⟩
  intro other hstored
  obtain ⟨buffer', howns', hload⟩ := h.whole other hstored
  refine ⟨buffer', howns', ?_⟩
  -- the stored buffers are others than those of the scope
  have hne : buffer' ≠ buffer := by
    have hheld : buffer' ∈ stored.flatMap RentedBuffer.held :=
      List.mem_flatMap.mpr ⟨other, hstored, by rw [howns'.held]; exact List.mem_singleton_self _⟩
    have hnodup := (List.nodup_append.mp h.conserves.nodup).2.1
    exact (List.nodup_append.mp hnodup).2.2 buffer' hheld buffer hmem
  unfold BufferCompany.keep
  rw [howns.home]
  exact (company.load_store_of_ne hne _ _).trans hload

/-- Every stored view has a buffer of its own. -/
theorem Backs.length_held (h : company.Backs config stored scope) :
    (stored.flatMap RentedBuffer.held).length = stored.length := by
  have hone : ∀ rented ∈ stored, rented.held.length = 1 := by
    intro rented hmem
    obtain ⟨buffer, howns, -⟩ := h.whole rented hmem
    rw [howns.held]
    rfl
  rw [List.length_flatMap, List.map_congr_left hone]
  simp

/-- The free buffers, the stored ones and those of the scope are all there are. -/
theorem Backs.length_eq (h : company.Backs config stored scope) :
    company.freeBuffers.length + (stored.length + scope.length) =
      company.blocks.length * config.rentedBufferCount := by
  have hlength := h.conserves.perm.length_eq
  rw [List.length_append, List.length_append, h.length_held, length_allBuffers,
    h.configured.bufferCount] at hlength
  exact hlength

/-- There are never more buffers in use than the configuration allows. -/
theorem Backs.length_le (h : company.Backs config stored scope) :
    stored.length + scope.length ≤ config.capacity := by
  have hlength := h.length_eq
  have hblocks := h.conserves.length_le
  rw [h.configured.blockMaxCount] at hblocks
  have hle := Nat.mul_le_mul_right config.rentedBufferCount hblocks
  unfold ServerConfig.capacity
  omega

/-- With a buffer in the scope, what is stored is not all that there may be. -/
theorem Backs.length_lt (h : company.Backs config stored (buffer :: scope)) :
    stored.length < config.capacity := by
  have hle := h.length_le
  rw [List.length_cons] at hle
  omega

/-- When not all is out and there may be no further block, a block has a free buffer. -/
theorem Backs.freeBuffers_ne_nil (h : company.Backs config stored scope)
    (hroom : stored.length + scope.length < config.capacity)
    (hfull : company.blocks.length = company.blockMaxCount) : company.freeBuffers ≠ [] := by
  intro hnone
  have hlength := h.length_eq
  rw [hnone, hfull, h.configured.blockMaxCount] at hlength
  unfold ServerConfig.capacity at hroom
  simp only [List.length_nil] at hlength
  omega

/-- When not all is out, the next buffer can be rented. -/
theorem Backs.rent_returns (h : company.Backs config stored scope)
    (hroom : stored.length + scope.length < config.capacity) :
    ∃ rented company', company.rent = .ok (rented, company') := by
  have hcapacity : 0 < config.capacity := Nat.lt_of_le_of_lt (Nat.zero_le _) hroom
  cases hrent : company.rent with
  | ok r => exact ⟨r.1, r.2, rfl⟩
  | error e =>
    have hcount : 1 ≤ company.bufferCount :=
      h.configured.bufferCount ▸ Nat.pos_of_mul_pos_left hcapacity
    have hmax : 1 ≤ company.blockMaxCount :=
      h.configured.blockMaxCount ▸ Nat.pos_of_mul_pos_right hcapacity
    obtain ⟨-, hnone, hfull⟩ := h.conserves.rent_eq_error h.configured.notMaking hcount hmax hrent
    exact absurd hnone (h.freeBuffers_ne_nil hroom hfull)

end Backs

end BufferCompany

end Rakro
