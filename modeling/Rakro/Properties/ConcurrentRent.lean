import Rakro.Internal.BufferThreads
import Rakro.Properties.PoolConservation
import Mathlib.Data.Fintype.Prod

/-!
# Threads that rent at once

What one thread finds between its own steps is up to the others. The pool is conserved whatever the
order, and never has more blocks than it may. That `rent` finds a buffer behind its `init_block`, and
that the flag of `init_block` is put back, holds as long as no other thread comes in between.
-/

namespace Rakro

open Infra

namespace BufferCompany

variable {company : BufferCompany} {held : List BufferId} {buffer : BufferId}

/-! ## Free buffers -/

/-- The buffer comes from the top of a block of that number. -/
theorem exists_of_tryRentAt {id : Nat} : ∀ {blocks blocks' : List BufferBlock} {buffer : BufferId},
    tryRentAt id blocks = some (buffer, blocks') → ∃ pre block block' post,
      blocks = pre ++ block :: post ∧ block.id = id ∧ block.tryRent = some (buffer, block') ∧
        blocks' = pre ++ block' :: post
  | block :: blocks, blocks', buffer, h => by
    unfold tryRentAt at h
    by_cases hid : block.id = id
    · rw [if_pos hid] at h
      cases hrent : block.tryRent with
      | some result =>
        rw [hrent] at h
        cases h
        exact ⟨[], block, result.2, blocks, rfl, hid, hrent, rfl⟩
      | none =>
        rw [hrent] at h
        cases h
    · rw [if_neg hid] at h
      cases hrest : tryRentAt id blocks with
      | some result =>
        rw [hrest] at h
        cases h
        obtain ⟨pre, found, found', post, rfl, hfound, hrent, hblocks⟩ := exists_of_tryRentAt hrest
        exact ⟨block :: pre, found, found', post, rfl, hfound, hrent, congrArg (block :: ·) hblocks⟩
      | none =>
        rw [hrest] at h
        cases h

/-- A scan of one block takes a buffer from its list. -/
theorem takes_of_tryRentAt {id : Nat} {blocks blocks' : List BufferBlock}
    (h : tryRentAt id blocks = some (buffer, blocks')) : Takes blocks buffer blocks' := by
  obtain ⟨pre, block, block', post, hblocks, -, hrent, hblocks'⟩ := exists_of_tryRentAt h
  exact ⟨pre, block, block', post, hblocks, hrent, hblocks'⟩

/-- A buffer that is taken leaves the free lists, and no other one does. -/
theorem Conserves.freeBuffers_take (h : company.Conserves held) {blocks : List BufferBlock}
    (htakes : Takes company.blocks buffer blocks) :
    company.freeBuffers.Perm (buffer :: freeBuffers { company with blocks := blocks }) := by
  obtain ⟨pre, block, block', post, hblocks, hrent, rfl⟩ := htakes
  have hblock : block ∈ company.blocks := by
    rw [hblocks]
    exact List.mem_append_cons_self
  obtain ⟨hfree, -, -⟩ := BufferBlock.tryRent_eq_some (h.counts block hblock) hrent
  unfold freeBuffers
  rw [hblocks, List.flatMap_append, List.flatMap_append, List.flatMap_cons, List.flatMap_cons, hfree]
  exact List.perm_middle

/-- Giving a buffer back leaves the ids of the blocks. -/
theorem ids_addFree (company : BufferCompany) (owner : Nat) (buffer : BufferId) :
    (company.addFree owner buffer).blocks.map (·.id) = company.blocks.map (·.id) := by
  unfold addFree
  rw [List.map_map]
  refine List.map_congr_left fun block _ => ?_
  show (if block.id = owner then block.addFree buffer else block).id = block.id
  split <;> rfl

theorem length_addFree (company : BufferCompany) (owner : Nat) (buffer : BufferId) :
    (company.addFree owner buffer).blocks.length = company.blocks.length := List.length_map _

/-- The buffers of the blocks are a matter of their ids. -/
theorem allBuffers_eq (company : BufferCompany) :
    company.allBuffers = (company.blocks.map (·.id)).flatMap company.buffersOf := by
  unfold allBuffers
  rw [List.flatMap_map]

/-- A buffer that is returned joins the free lists. -/
theorem Conserves.freeBuffers_addFree (h : company.Conserves (buffer :: held)) :
    (company.addFree buffer.block buffer).freeBuffers.Perm (buffer :: company.freeBuffers) := by
  have hall : (company.addFree buffer.block buffer).allBuffers = company.allBuffers := by
    have hids := company.ids_addFree buffer.block buffer
    rw [allBuffers_eq, allBuffers_eq, hids]
    rfl
  have hperm := h.addFree.perm.trans (hall ▸ h.perm.symm)
  refine (List.perm_append_right_iff held).mp (hperm.trans ?_)
  exact List.perm_middle

/-! ## The free buffers of one block -/

/-- How many buffers of the block `id` are free. -/
def freeOf (company : BufferCompany) (id : Nat) : Nat :=
  company.freeBuffers.countP (·.block = id)

/-- They are those in its free list. -/
theorem Conserves.freeOf_eq (h : company.Conserves held) {block : BufferBlock}
    (hblock : block ∈ company.blocks) : company.freeOf block.id = block.freeBuffers.length := by
  obtain ⟨pre, post, hblocks⟩ := List.append_of_mem hblock
  have hother : ∀ l : List BufferBlock, (∀ b ∈ l, b ∈ company.blocks ∧ b.id ≠ block.id) →
      (l.flatMap (·.freeBuffers)).countP (·.block = block.id) = 0 := by
    intro l hl
    rw [List.countP_eq_zero]
    intro x hx hid
    obtain ⟨b, hb, hxb⟩ := List.mem_flatMap.mp hx
    refine (hl b hb).2 ?_
    rw [← h.own b (hl b hb).1 x hxb]
    exact of_decide_eq_true hid
  have hnodup := h.ids_nodup
  rw [hblocks, List.map_append, List.map_cons, List.nodup_middle, List.nodup_cons,
    ← List.map_append] at hnodup
  have hne : ∀ b ∈ pre ++ post, b ∈ company.blocks ∧ b.id ≠ block.id := by
    intro b hb
    refine ⟨?_, fun hid => hnodup.1 (hid ▸ List.mem_map_of_mem hb)⟩
    rw [hblocks]
    simp only [List.mem_append, List.mem_cons] at hb ⊢
    tauto
  have hself : block.freeBuffers.countP (·.block = block.id) = block.freeBuffers.length := by
    rw [List.countP_eq_length]
    intro x hx
    exact decide_eq_true (h.own block hblock x hx)
  unfold freeOf freeBuffers
  rw [hblocks, List.flatMap_append, List.flatMap_cons, List.countP_append, List.countP_append,
    hother pre fun b hb => hne b (List.mem_append_left _ hb),
    hother post fun b hb => hne b (List.mem_append_right _ hb), hself]
  omega

/-- A block has one free buffer less when one is taken from it. -/
theorem Conserves.freeOf_take (h : company.Conserves held) {blocks : List BufferBlock}
    (htakes : Takes company.blocks buffer blocks) (id : Nat) :
    company.freeOf id
      = freeOf { company with blocks := blocks } id + if buffer.block = id then 1 else 0 := by
  unfold freeOf
  rw [(h.freeBuffers_take htakes).countP_eq, List.countP_cons]
  simp only [decide_eq_true_eq]

/-- A block has one free buffer more when one is given back to it. -/
theorem Conserves.freeOf_addFree (h : company.Conserves (buffer :: held)) (id : Nat) :
    (company.addFree buffer.block buffer).freeOf id
      = company.freeOf id + if buffer.block = id then 1 else 0 := by
  unfold freeOf
  rw [h.freeBuffers_addFree.countP_eq, List.countP_cons]
  simp only [decide_eq_true_eq]

/-- A block has free buffers when some block lists one of its own. -/
theorem freeOf_pos {id : Nat} :
    company.freeOf id ≠ 0 ↔
      ∃ block ∈ company.blocks, ∃ x ∈ block.freeBuffers, x.block = id := by
  unfold freeOf freeBuffers
  rw [← Nat.pos_iff_ne_zero, List.countP_pos_iff]
  constructor
  · rintro ⟨x, hx, hid⟩
    obtain ⟨block, hblock, hxb⟩ := List.mem_flatMap.mp hx
    exact ⟨block, hblock, x, hxb, of_decide_eq_true hid⟩
  · rintro ⟨block, hblock, x, hx, hid⟩
    exact ⟨x, List.mem_flatMap.mpr ⟨block, hblock, hx⟩, decide_eq_true hid⟩

/-- The waiters' predicate looks at the free buffers of the block. -/
theorem Conserves.hasFree_iff (h : company.Conserves held) {id : Nat} :
    company.hasFree id ↔ company.freeOf id ≠ 0 := by
  rw [freeOf_pos]
  simp only [hasFree, List.any_eq_true, Bool.and_eq_true, decide_eq_true_eq, Bool.not_eq_true',
    List.isEmpty_eq_false_iff]
  constructor
  · rintro ⟨block, hblock, rfl, hfree⟩
    obtain ⟨x, hx⟩ := List.exists_mem_of_ne_nil _ hfree
    exact ⟨block, hblock, x, hx, h.own block hblock x hx⟩
  · rintro ⟨block, hblock, x, hx, rfl⟩
    exact ⟨block, hblock, (h.own block hblock x hx).symm, List.ne_nil_of_mem hx⟩

/-- A scan that finds nothing means that the block has nothing. -/
theorem tryRent_of_tryRentAt {id : Nat} : ∀ {blocks : List BufferBlock},
    tryRentAt id blocks = none → (blocks.map (·.id)).Nodup →
      ∀ block ∈ blocks, block.id = id → block.tryRent = none
  | first :: blocks, h, hnodup, block, hblock, hid => by
    unfold tryRentAt at h
    rw [List.map_cons, List.nodup_cons] at hnodup
    rcases List.mem_cons.mp hblock with rfl | hblock
    · rw [if_pos hid] at h
      cases hrent : block.tryRent with
      | some result =>
        rw [hrent] at h
        cases h
      | none => rfl
    · have hne : first.id ≠ id := fun hfirst =>
        hnodup.1 (hfirst.trans hid.symm ▸ List.mem_map_of_mem hblock)
      rw [if_neg hne] at h
      cases hrest : tryRentAt id blocks with
      | some result =>
        rw [hrest] at h
        cases h
      | none => exact tryRent_of_tryRentAt hrest hnodup.2 block hblock hid

/-- A scan that finds nothing leaves nothing to be found. -/
theorem Conserves.tryRentAt_eq_none (h : company.Conserves held) {id : Nat}
    (hrent : tryRentAt id company.blocks = none) : company.freeOf id = 0 := by
  by_contra hne
  obtain ⟨block, hblock, x, hx, rfl⟩ := freeOf_pos.mp hne
  have hnone := tryRent_of_tryRentAt hrent h.ids_nodup block hblock (h.own block hblock x hx).symm
  rw [(BufferBlock.tryRent_eq_none (h.counts block hblock)).mp hnone] at hx
  cases hx

/-- A scan finds buffers of its own block. -/
theorem Conserves.tryRentAt_eq_some (h : company.Conserves held) {id : Nat}
    {blocks : List BufferBlock} (hrent : tryRentAt id company.blocks = some (buffer, blocks)) :
    buffer.block = id := by
  obtain ⟨pre, block, block', post, hblocks, rfl, htop, -⟩ := exists_of_tryRentAt hrent
  have hblock : block ∈ company.blocks := by
    rw [hblocks]
    exact List.mem_append_cons_self
  obtain ⟨hfree, -, -⟩ := BufferBlock.tryRent_eq_some (h.counts block hblock) htop
  exact h.own block hblock buffer (hfree ▸ List.mem_cons_self)

/-- The last block is the one that has been made first. -/
theorem Conserves.getLast?_eq (h : company.Conserves held) (hpos : 1 ≤ company.blocks.length) :
    ∃ block, company.blocks.getLast? = some block ∧ block.id = 0 := by
  have hlast : company.blocks.getLast?.map (·.id) = some 0 := by
    rw [← List.getLast?_map, h.ids, List.getLast?_reverse, List.head?_range, if_neg (by omega)]
  exact Option.map_eq_some_iff.mp hlast

end BufferCompany

namespace Threads

variable {T : Type} {bufferCount blockMaxCount : Nat} {s : Threads T}

/-! ## What holds in every order -/

/-- The pool is conserved, and has at least one block. -/
structure Holds (bufferCount blockMaxCount : Nat) (s : Threads T) : Prop where
  conserves : s.company.Conserves s.rented
  bufferCount_eq : s.company.bufferCount = bufferCount
  blockMaxCount_eq : s.company.blockMaxCount = blockMaxCount
  length_pos : 1 ≤ s.company.blocks.length

theorem Holds.new {bufferSize : Nat} (hmax : 1 ≤ blockMaxCount) :
    (Threads.new T bufferCount bufferSize blockMaxCount).Holds bufferCount blockMaxCount where
  conserves := BufferCompany.conserves_new hmax
  bufferCount_eq := by rw [Threads.new, BufferCompany.new_eq hmax]
  blockMaxCount_eq := by rw [Threads.new, BufferCompany.new_eq hmax]
  length_pos := by
    rw [Threads.new, BufferCompany.new_eq hmax]
    exact Nat.le_refl 1

variable [DecidableEq T]

/-- How a step can go. -/
inductive Outcome (s : Threads T) : ThreadStep T → Threads T → Prop
  | scanTakes {t : T} {buffer : BufferId} {blocks : List BufferBlock} :
      s.phase t = .outside → BufferCompany.Takes s.company.blocks buffer blocks →
      Outcome s (.scan t) (s.take t buffer blocks)
  | scanFails {t : T} : s.phase t = .outside → s.company.freeBuffers = [] →
      Outcome s (.scan t) (s.moveTo t .scanned)
  | testFull {t : T} : s.phase t = .scanned →
      s.company.blocks.length = s.company.blockMaxCount →
      Outcome s (.test t) (s.moveTo t (.trying 0))
  | testRoom {t : T} : s.phase t = .scanned →
      s.company.blocks.length < s.company.blockMaxCount →
      Outcome s (.test t) (s.moveTo t .making)
  | initMakes {t : T} : s.phase t = .making → s.company.isMakingBlock = false →
      s.company.blocks.length < s.company.blockMaxCount →
      Outcome s (.initBlock t) ({ s with company := { s.company with
        blocks := .new s.company.blocks.length s.company.bufferCount :: s.company.blocks } }.moveTo t
          .rescanning)
  | initLeaves {t : T} {isMakingBlock : Bool} : s.phase t = .making →
      s.company.isMakingBlock = true ∨ s.company.blockMaxCount ≤ s.company.blocks.length →
      Outcome s (.initBlock t) ({ s with company := { s.company with
        isMakingBlock := isMakingBlock } }.moveTo t .rescanning)
  | rescanTakes {t : T} {buffer : BufferId} {blocks : List BufferBlock} :
      s.phase t = .rescanning → BufferCompany.Takes s.company.blocks buffer blocks →
      Outcome s (.rescan t) (s.take t buffer blocks)
  | rescanFails {t : T} : s.phase t = .rescanning → s.company.freeBuffers = [] →
      Outcome s (.rescan t) { s with terminated := true }
  | tryTakes {t : T} {buffer : BufferId} {blocks : List BufferBlock} :
      s.phase t = .trying buffer.block → BufferCompany.Takes s.company.blocks buffer blocks →
      Outcome s (.tryRent t buffer.block) (s.take t buffer blocks)
  | tryFails {t : T} {block : Nat} : s.phase t = .trying block → s.company.freeOf block = 0 →
      Outcome s (.tryRent t block) (s.moveTo t (.checking block))
  | checkFinds {t : T} {block : Nat} : s.phase t = .checking block →
      s.company.freeOf block ≠ 0 → Outcome s (.check t block) (s.moveTo t (.trying block))
  | checkFails {t : T} {block : Nat} : s.phase t = .checking block →
      s.company.freeOf block = 0 → Outcome s (.check t block) (s.moveTo t (.asleep block))
  | giveBack {t : T} {buffer : BufferId} {woken : Option T} : s.phase t = .outside →
      buffer ∈ s.rented → (∀ u, woken = some u → s.phase u = .asleep buffer.block) →
      (woken = none → ∀ u, s.phase u ≠ .asleep buffer.block) →
      Outcome s (.giveBack t buffer woken) ({ s with
        company := s.company.addFree buffer.block buffer
        rented := s.rented.erase buffer }.wake buffer.block woken)

/-- What a step does, case by case, where the pool is conserved. -/
theorem Holds.outcome (h : s.Holds bufferCount blockMaxCount) {step : ThreadStep T}
    (henabled : s.Enabled step) : Outcome s step (s.next step) := by
  have hc := h.conserves
  cases step with
  | scan t =>
    unfold Threads.next
    cases hscan : BufferCompany.tryAll s.company.blocks with
    | some result => exact .scanTakes henabled.2 (BufferCompany.takes_of_tryAll hscan)
    | none => exact .scanFails henabled.2 (hc.tryAll_eq_none.mp hscan)
  | test t =>
    unfold Threads.next
    dsimp only
    split
    · rename_i hfull
      obtain ⟨block, hlast, hid⟩ := hc.getLast?_eq h.length_pos
      rw [hlast]
      dsimp only
      rw [hid]
      exact .testFull henabled.2 hfull
    · rename_i hroom
      exact .testRoom henabled.2 (Nat.lt_of_le_of_ne hc.length_le hroom)
  | initBlock t =>
    unfold Threads.next
    dsimp only
    unfold BufferCompany.initBlock
    split
    · rename_i hmaking
      exact .initLeaves henabled.2 (Or.inl hmaking)
    · rename_i hmaking
      split
      · rename_i hfull
        exact .initLeaves henabled.2 (Or.inr hfull)
      · rename_i hroom
        exact .initMakes henabled.2 (Bool.eq_false_iff.mpr hmaking) (Nat.lt_of_not_le hroom)
  | rescan t =>
    unfold Threads.next
    cases hscan : BufferCompany.tryAll s.company.blocks with
    | some result => exact .rescanTakes henabled.2 (BufferCompany.takes_of_tryAll hscan)
    | none => exact .rescanFails henabled.2 (hc.tryAll_eq_none.mp hscan)
  | tryRent t block =>
    unfold Threads.next
    dsimp only
    cases hrent : BufferCompany.tryRentAt block s.company.blocks with
    | some result =>
      have hid := hc.tryRentAt_eq_some hrent
      subst hid
      exact .tryTakes henabled.2 (BufferCompany.takes_of_tryRentAt hrent)
    | none => exact .tryFails henabled.2 (hc.tryRentAt_eq_none hrent)
  | check t block =>
    unfold Threads.next
    dsimp only
    split
    · rename_i hfree
      exact .checkFinds henabled.2 (hc.hasFree_iff.mp hfree)
    · rename_i hfree
      exact .checkFails henabled.2 (Decidable.of_not_not fun hne => hfree (hc.hasFree_iff.mpr hne))
  | giveBack t buffer woken =>
    cases woken with
    | some u =>
      refine .giveBack henabled.2.1 henabled.2.2.1 (fun v hv => ?_) (fun hnone => ?_)
      · cases hv
        exact henabled.2.2.2
      · cases hnone
    | none =>
      refine .giveBack henabled.2.1 henabled.2.2.1 (fun v hv => ?_) fun _ => henabled.2.2.2
      cases hv

/-- **In every order of the steps the pool is conserved.** -/
theorem Holds.next (h : s.Holds bufferCount blockMaxCount) {step : ThreadStep T}
    (henabled : s.Enabled step) : (s.next step).Holds bufferCount blockMaxCount := by
  have hc := h.conserves
  have hsame : ∀ {s' : Threads T}, s'.company = s.company → s'.rented = s.rented →
      s'.Holds bufferCount blockMaxCount := by
    intro s' hcompany hrented
    exact ⟨hcompany ▸ hrented ▸ hc, hcompany ▸ h.bufferCount_eq, hcompany ▸ h.blockMaxCount_eq,
      hcompany ▸ h.length_pos⟩
  have htake : ∀ {t : T} {buffer : BufferId} {blocks : List BufferBlock},
      BufferCompany.Takes s.company.blocks buffer blocks →
      (s.take t buffer blocks).Holds bufferCount blockMaxCount := by
    intro t buffer blocks htakes
    refine ⟨hc.take htakes, h.bufferCount_eq, h.blockMaxCount_eq, ?_⟩
    have hpos := h.length_pos
    obtain ⟨pre, block, block', post, hblocks, -, rfl⟩ := htakes
    rw [hblocks] at hpos
    simpa [Threads.take] using hpos
  have houtcome := h.outcome henabled
  generalize s.next step = s' at houtcome ⊢
  cases houtcome with
  | scanTakes _ htakes | rescanTakes _ htakes | tryTakes _ htakes => exact htake htakes
  | scanFails | testFull | testRoom | rescanFails | tryFails | checkFinds | checkFails =>
    exact hsame rfl rfl
  | initMakes _ _ hlt =>
    exact ⟨hc.makeBlock hlt, h.bufferCount_eq, h.blockMaxCount_eq, Nat.le_add_left 1 _⟩
  | initLeaves =>
    exact ⟨⟨hc.ids, hc.length_le, hc.counts, hc.own, hc.perm⟩, h.bufferCount_eq,
      h.blockMaxCount_eq, h.length_pos⟩
  | @giveBack t buffer woken _ hrented =>
    have hreturned := (hc.of_perm (List.perm_cons_erase hrented)).addFree
    have hpos := h.length_pos
    rw [← s.company.length_addFree buffer.block buffer] at hpos
    cases woken with
    | some u => exact ⟨hreturned, h.bufferCount_eq, h.blockMaxCount_eq, hpos⟩
    | none => exact ⟨hreturned, h.bufferCount_eq, h.blockMaxCount_eq, hpos⟩

/-- The pool is conserved in every order of steps. -/
theorem Holds.of_runs {bufferSize : Nat} (hmax : 1 ≤ blockMaxCount) {steps : List (ThreadStep T)}
    (hruns : (rentSystem T).Runs (.new T bufferCount bufferSize blockMaxCount) steps s) :
    s.Holds bufferCount blockMaxCount :=
  hruns.invariant (Holds.new hmax) fun _ _ h henabled => h.next henabled

/-- Every buffer of the pool is in one place, and the flag is left up by a full pool only. -/
structure Conserved (bufferCount blockMaxCount : Nat) (s : Threads T) : Prop where
  blocks : 1 ≤ s.company.blocks.length ∧ s.company.blocks.length ≤ blockMaxCount
  counters : ∀ block ∈ s.company.blocks, block.freeBufferCount = block.freeBuffers.length
  once : (s.company.freeBuffers ++ s.rented).Nodup
  every : ∀ buffer, buffer ∈ s.company.freeBuffers ++ s.rented ↔
    buffer.block < s.company.blocks.length ∧ buffer.slot < bufferCount
  total : s.company.freeBuffers.length + s.rented.length = s.company.blocks.length * bufferCount
  flag : s.company.isMakingBlock = true → s.company.blocks.length = blockMaxCount

omit [DecidableEq T] in
theorem Holds.conserved (h : s.Holds bufferCount blockMaxCount)
    (hflag : s.company.isMakingBlock = true → s.company.blocks.length = s.company.blockMaxCount) :
    s.Conserved bufferCount blockMaxCount where
  blocks := ⟨h.length_pos, h.blockMaxCount_eq ▸ h.conserves.length_le⟩
  counters := h.conserves.counts
  once := h.conserves.nodup
  every buffer := by
    rw [h.conserves.perm.mem_iff, BufferCompany.mem_allBuffers, h.conserves.ids, List.mem_reverse,
      List.mem_range, h.bufferCount_eq]
  total := by
    rw [← List.length_append, h.conserves.perm.length_eq, BufferCompany.length_allBuffers,
      h.bufferCount_eq]
  flag hmaking := (hflag hmaking).trans h.blockMaxCount_eq

/-- A step leaves the flag up when the pool is full, and then it stays full. -/
theorem Holds.flag_next (h : s.Holds bufferCount blockMaxCount) {step : ThreadStep T}
    (henabled : s.Enabled step)
    (hflag : s.company.isMakingBlock = true → s.company.blocks.length = s.company.blockMaxCount) :
    (s.next step).company.isMakingBlock = true →
      (s.next step).company.blocks.length = (s.next step).company.blockMaxCount := by
  have houtcome := h.outcome henabled
  generalize s.next step = s' at houtcome ⊢
  cases houtcome with
  | scanTakes _ htakes | rescanTakes _ htakes | tryTakes _ htakes =>
    obtain ⟨pre, block, block', post, hblocks, -, rfl⟩ := htakes
    intro hmaking
    have hfull := hflag hmaking
    rw [hblocks, List.length_append] at hfull
    show (pre ++ block' :: post).length = _
    rw [List.length_append]
    exact hfull
  | scanFails | testFull | testRoom | rescanFails | tryFails | checkFinds | checkFails =>
    exact hflag
  | initMakes _ hnot _ =>
    intro hmaking
    cases hnot.symm.trans hmaking
  | initLeaves _ hstuck =>
    intro _
    rcases hstuck with hmaking | hfull
    · exact hflag hmaking
    · exact Nat.le_antisymm h.conserves.length_le hfull
  | @giveBack t buffer woken _ _ =>
    have hlength := s.company.length_addFree buffer.block buffer
    intro hmaking
    cases woken with
    | some u => exact hlength.trans (hflag hmaking)
    | none => exact hlength.trans (hflag hmaking)

/--
**However many threads rent and return, in every order of their steps, no buffer is handed out twice
or lost**: each one of each block is free or rented, and not both.
-/
theorem conserved_of_runs {bufferSize : Nat} (hmax : 1 ≤ blockMaxCount)
    {steps : List (ThreadStep T)}
    (hruns : (rentSystem T).Runs (.new T bufferCount bufferSize blockMaxCount) steps s) :
    s.Conserved bufferCount blockMaxCount := by
  have hnew : (Threads.new T bufferCount bufferSize blockMaxCount).company.isMakingBlock = false := by
    rw [Threads.new, BufferCompany.new_eq hmax]
  obtain ⟨hholds, hflag⟩ := hruns.invariant
    (P := fun s => s.Holds bufferCount blockMaxCount ∧ (s.company.isMakingBlock = true →
      s.company.blocks.length = s.company.blockMaxCount))
    ⟨Holds.new hmax, fun hmaking => by cases hnew.symm.trans hmaking⟩
    fun s step h henabled => ⟨h.1.next henabled, h.1.flag_next henabled h.2⟩
  exact hholds.conserved hflag

/-! ## That no thread comes in between -/

/-- The step makes the last block that the pool may have. -/
def Fills (s : Threads T) : ThreadStep T → Prop
  | .initBlock _ =>
    s.company.isMakingBlock = false ∧ s.company.blocks.length + 1 = s.company.blockMaxCount
  | _ => False

/-- The step takes the only buffer that is free. -/
def TakesLast (s : Threads T) : ThreadStep T → Prop
  | .scan _ | .rescan _ => s.company.freeBuffers.length = 1
  | .tryRent _ block => s.company.freeBuffers.length = 1 ∧ s.company.hasFree block
  | _ => False

/--
The pool is not filled under a thread that has found room and has not made its block, and the last
free buffer is not taken under a thread that has called `init_block` and has not rented.
-/
def Undisturbed (s : Threads T) (step : ThreadStep T) : Prop :=
  (s.Fills step → ∀ u, u ≠ step.actor → s.phase u ≠ .making) ∧
    (s.TakesLast step → ∀ u, u ≠ step.actor → s.phase u ≠ .rescanning)

instance (s : Threads T) : (step : ThreadStep T) → Decidable (s.Fills step)
  | .initBlock _ => instDecidableAnd
  | .scan _ | .test _ | .rescan _ | .tryRent _ _ | .check _ _ | .giveBack _ _ _ => instDecidableFalse

instance (s : Threads T) : (step : ThreadStep T) → Decidable (s.TakesLast step)
  | .scan _ | .rescan _ => Nat.decEq _ _
  | .tryRent _ _ => instDecidableAnd
  | .initBlock _ | .test _ | .check _ _ | .giveBack _ _ _ => instDecidableFalse

instance [Fintype T] (s : Threads T) (step : ThreadStep T) : Decidable (s.Undisturbed step) :=
  instDecidableAnd

/-- No thread has unwrapped an empty optional, the pool has no more blocks than it may, and the flag
of `init_block` is put back. -/
structure Sound (s : Threads T) : Prop where
  terminated : s.terminated = false
  length_le : s.company.blocks.length ≤ s.company.blockMaxCount
  notMaking : s.company.isMakingBlock = false

omit [DecidableEq T] in
/-- A new block brings free buffers. -/
theorem Holds.free_makeBlock (hcount : 1 ≤ bufferCount) (h : s.Holds bufferCount blockMaxCount) :
    BufferCompany.freeBuffers { s.company with
      blocks := .new s.company.blocks.length s.company.bufferCount :: s.company.blocks } ≠ [] := by
  intro hnil
  have hnew := List.flatMap_eq_nil_iff.mp hnil _ List.mem_cons_self
  have hlength : _ = _ := BufferBlock.counts_new s.company.blocks.length s.company.bufferCount
  rw [hnew, List.length_nil] at hlength
  have hzero : s.company.bufferCount = 0 := hlength
  have heq := h.bufferCount_eq
  omega

/-- What the threads between their size test and their second scan rely on. -/
structure Relies (s : Threads T) : Prop where
  terminated : s.terminated = false
  notMaking : s.company.isMakingBlock = false
  room : ∀ t, s.phase t = .making → s.company.blocks.length < s.company.blockMaxCount
  free : ∀ t, s.phase t = .rescanning → s.company.freeBuffers ≠ []

/-- A thread that is at `q` now, where the acting thread is not, has been there before. -/
theorem phase_of_update {t u : T} {p q : Phase} (hne : p ≠ q)
    (hu : Function.update s.phase t p u = q) : u ≠ t ∧ s.phase u = q := by
  by_cases hut : u = t
  · rw [hut, Function.update_self] at hu
    exact absurd hu hne
  · rw [Function.update_of_ne hut] at hu
    exact ⟨hut, hu⟩

/-- A thread that gets somewhere else than in front of `init_block` or the second scan. -/
theorem Relies.moveTo (h : s.Relies) (t : T) {phase : Phase} (hmaking : phase ≠ .making)
    (hrescanning : phase ≠ .rescanning) : (s.moveTo t phase).Relies :=
  ⟨h.terminated, h.notMaking, fun u hu => h.room u (phase_of_update hmaking hu).2,
    fun u hu => h.free u (phase_of_update hrescanning hu).2⟩

/-- A thread that takes a buffer, and not the last one under another thread. -/
theorem Relies.take (h : s.Relies) (hc : s.company.Conserves s.rented) {t : T} {buffer : BufferId}
    {blocks : List BufferBlock} (htakes : BufferCompany.Takes s.company.blocks buffer blocks)
    (hlast : s.company.freeBuffers.length = 1 → ∀ u, u ≠ t → s.phase u ≠ .rescanning) :
    (s.take t buffer blocks).Relies := by
  refine ⟨h.terminated, h.notMaking, fun u hu => ?_, fun u hu hnil => ?_⟩
  · have hroom := h.room u (phase_of_update (by decide) hu).2
    obtain ⟨pre, block, block', post, hblocks, -, rfl⟩ := htakes
    rw [hblocks] at hroom
    simpa [Threads.take] using hroom
  · obtain ⟨hut, hphase⟩ := phase_of_update (by decide) hu
    have hlength := (hc.freeBuffers_take htakes).length_eq
    have hrest : BufferCompany.freeBuffers { s.company with blocks := blocks } = [] := hnil
    rw [List.length_cons, hrest, List.length_nil] at hlength
    exact hlast hlength u hut hphase

/-- A step that disturbs nobody keeps what the other threads rely on. -/
theorem Relies.next (hcount : 1 ≤ bufferCount) (h : s.Holds bufferCount blockMaxCount)
    (hrelies : s.Relies) {step : ThreadStep T} (henabled : s.Enabled step)
    (hquiet : s.Undisturbed step) : (s.next step).Relies := by
  have hc := h.conserves
  have houtcome := h.outcome henabled
  generalize s.next step = s' at houtcome ⊢
  cases houtcome with
  | scanTakes _ htakes | rescanTakes _ htakes =>
    exact hrelies.take hc htakes hquiet.2
  | @tryTakes t buffer blocks _ htakes =>
    refine hrelies.take hc htakes fun hone => hquiet.2 ⟨hone, hc.hasFree_iff.mpr ?_⟩
    have hmem : buffer ∈ s.company.freeBuffers :=
      (hc.freeBuffers_take htakes).symm.subset List.mem_cons_self
    exact (List.countP_pos_iff.mpr ⟨buffer, hmem, decide_eq_true rfl⟩).ne'
  | scanFails | testFull | tryFails | checkFinds | checkFails =>
    exact hrelies.moveTo _ Phase.noConfusion Phase.noConfusion
  | @testRoom t _ hlt =>
    refine ⟨hrelies.terminated, hrelies.notMaking, fun _ _ => hlt, fun u hu => ?_⟩
    exact hrelies.free u (phase_of_update (by decide) hu).2
  | @initMakes t hphase hflag hlt =>
    refine ⟨hrelies.terminated, hrelies.notMaking, fun u hu => ?_, fun _ _ => h.free_makeBlock hcount⟩
    obtain ⟨hut, hmaking⟩ := phase_of_update (by decide) hu
    have hnot : ¬ s.company.blocks.length + 1 = s.company.blockMaxCount := fun hfills =>
      hquiet.1 ⟨hflag, hfills⟩ u hut hmaking
    show s.company.blocks.length + 1 < s.company.blockMaxCount
    omega
  | initLeaves hphase hstuck =>
    rcases hstuck with hflag | hfull
    · rw [hrelies.notMaking] at hflag
      cases hflag
    · exact absurd (hrelies.room _ hphase) (Nat.not_lt.mpr hfull)
  | rescanFails hphase hnone => exact absurd hnone (hrelies.free _ hphase)
  | @giveBack t buffer woken _ hrented =>
    have hreturned : { s with
        company := s.company.addFree buffer.block buffer
        rented := s.rented.erase buffer }.Relies := by
      refine ⟨hrelies.terminated, hrelies.notMaking, fun u hu => ?_, fun u hu hnil => ?_⟩
      · have hroom := hrelies.room u hu
        rwa [← s.company.length_addFree buffer.block buffer] at hroom
      · have hperm := (hc.of_perm (List.perm_cons_erase hrented)).freeBuffers_addFree
        have hrest : (s.company.addFree buffer.block buffer).freeBuffers = [] := hnil
        rw [hrest] at hperm
        cases hperm.nil_eq
    cases woken with
    | some u => exact hreturned.moveTo u Phase.noConfusion Phase.noConfusion
    | none => exact hreturned

/--
**While no other thread fills the pool between the size test and `init_block` of a thread, nor takes
the last free buffer behind its `init_block`, renting finds a buffer, the pool has no more blocks
than it may and the flag is put back**, however many threads there are and in whatever order.
-/
theorem sound_of_undisturbed {bufferSize : Nat} (hcount : 1 ≤ bufferCount)
    (hmax : 1 ≤ blockMaxCount) {steps : List (ThreadStep T)}
    (hruns : ((rentSystem T).restrict Undisturbed).Runs
      (.new T bufferCount bufferSize blockMaxCount) steps s) : s.Sound := by
  have hstart : (Threads.new T bufferCount bufferSize blockMaxCount).Relies := by
    refine ⟨rfl, ?_, fun t ht => ?_, fun t ht => ?_⟩
    · rw [Threads.new, BufferCompany.new_eq hmax]
    · cases ht
    · cases ht
  obtain ⟨hholds, hrelies⟩ := hruns.invariant
    (P := fun s => s.Holds bufferCount blockMaxCount ∧ s.Relies) ⟨Holds.new hmax, hstart⟩
    fun s step h henabled => ⟨h.1.next henabled.1, h.2.next hcount h.1 henabled.1 henabled.2⟩
  exact ⟨hrelies.terminated, hholds.conserves.length_le, hrelies.notMaking⟩

/-- Two threads rent one after the other, and a third one between them and the second block. -/
def inTurn : List (ThreadStep (Fin 3)) :=
  [.scan 0, .scan 1, .test 1, .initBlock 1, .giveBack 0 ⟨0, 0⟩ none, .scan 2, .rescan 1]

theorem sound_of_undisturbed_inTurn :
    ∃ s, ((rentSystem (Fin 3)).restrict Undisturbed).Runs (.new (Fin 3) 1 1 2) inTurn s ∧
      s.Sound := by
  have hpossible : ((rentSystem (Fin 3)).restrict Undisturbed).Possible (.new (Fin 3) 1 1 2)
      inTurn := by decide +kernel
  have hruns := TransitionSystem.Runs.nil.append_of_possible hpossible
  exact ⟨_, hruns, sound_of_undisturbed (by decide) (by decide) hruns⟩

/-- A thread that has made a block finds another thread to have taken the buffer of it. -/
def overtaken : List (ThreadStep (Fin 3)) :=
  [.scan 0, .scan 1, .test 1, .initBlock 1, .scan 2, .rescan 1]

/-- In the run that ends the process, too. -/
theorem conserved_of_runs_overtaken :
    ∃ s, (rentSystem (Fin 3)).Runs (.new (Fin 3) 1 1 2) overtaken s ∧ s.Conserved 1 2 := by
  have hpossible : (rentSystem (Fin 3)).Possible (.new (Fin 3) 1 1 2) overtaken := by
    decide +kernel
  have hruns := TransitionSystem.Runs.nil.append_of_possible hpossible
  exact ⟨_, hruns, conserved_of_runs (by decide) hruns⟩

theorem not_sound_overtaken : ¬ ∀ (threads bufferCount bufferSize blockMaxCount : Nat),
    1 ≤ bufferCount → 1 ≤ bufferSize → 1 ≤ blockMaxCount →
      ∀ (steps : List (ThreadStep (Fin threads))) (s : Threads (Fin threads)),
        (rentSystem (Fin threads)).Runs (.new _ bufferCount bufferSize blockMaxCount) steps s →
          s.Sound := by
  intro h
  have hpossible : (rentSystem (Fin 3)).Possible (.new (Fin 3) 1 1 2) overtaken := by
    decide +kernel
  have hsound := h 3 1 1 2 (by decide) (by decide) (by decide) _ _
    (TransitionSystem.Runs.nil.append_of_possible hpossible)
  exact absurd hsound.terminated (by decide +kernel)

end Threads

end Rakro
