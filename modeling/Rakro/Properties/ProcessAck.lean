import Rakro.Properties.Acknowledged
import Rakro.Properties.AllPackets
import Rakro.Properties.PoolLevel
import Rakro.Properties.RouteReturns

/-!
# What an acknowledgement removes

`process_ack` runs through the numbers of the records and erases each of them, one after the other.
However the records overlap, what goes is what one of them covers, and the buffer of an entry that
goes is returned once.
-/

namespace Rakro

open Infra BinaryBuffer

/-! ## The numbers that are covered -/

namespace Ack

/-- The number is that of the record, or in its range, as the operators of `uint24_t` say. -/
def Record.Covers : Record → UInt24 → Prop
  | .multi range, key => range.start ≤ key ∧ key ≤ range.stop
  | .single value, key => value.eqv key

instance : ∀ (record : Record) (key : UInt24), Decidable (record.Covers key)
  | .multi range, key => inferInstanceAs (Decidable (range.start ≤ key ∧ key ≤ range.stop))
  | .single value, key => inferInstanceAs (Decidable (value.eqv key))

/-- Some record covers the number. -/
def Covers (ack : Ack) (key : UInt24) : Prop := ∃ record ∈ ack.records, record.Covers key

instance (ack : Ack) (key : UInt24) : Decidable (ack.Covers key) :=
  inferInstanceAs (Decidable (∃ record ∈ ack.records, record.Covers key))

/-- The numbers between two are those that are not below the one or above the other. -/
theorem mem_numbersTo {start stop : Nat} {key : UInt24} (hstop : stop < 2 ^ 24) :
    key ∈ numbersTo start stop ↔ start ≤ key.toNat ∧ key.toNat ≤ stop := by
  unfold numbersTo
  rw [List.mem_map]
  constructor
  · rintro ⟨n, hn, rfl⟩
    rw [List.mem_range'_1] at hn
    rw [UInt24.toNat_ofNat (by omega)]
    omega
  · rintro ⟨hstart, hle⟩
    refine ⟨key.toNat, List.mem_range'_1.mpr ⟨hstart, by omega⟩, ?_⟩
    exact UInt24.toNat_inj.mp (UInt24.toNat_ofNat (by omega))

theorem mem_numbers_iff {key : UInt24} (hkey : key.Canonical) : ∀ {record : Record},
    record.Canonical → (key ∈ record.numbers ↔ record.Covers key)
  | .single value, h => by
    have hvalue : value.Canonical := h
    show key ∈ [value] ↔ value.eqv key
    rw [List.mem_singleton, UInt24.eqv_iff, Nat.mod_eq_of_lt hvalue, Nat.mod_eq_of_lt hkey,
      UInt24.toNat_inj]
    exact eq_comm
  | .multi ⟨start, stop⟩, h => by
    obtain ⟨hstart, hstop⟩ := h
    show key ∈ numbersTo start.toNat stop.toNat ↔ start ≤ key ∧ key ≤ stop
    rw [mem_numbersTo hstop, UInt24.le_iff, UInt24.le_iff, Nat.mod_eq_of_lt hstart,
      Nat.mod_eq_of_lt hstop, Nat.mod_eq_of_lt hkey]

/-- A number comes out of the generator exactly when a record covers it. -/
theorem mem_flatMap_numbers_iff {ack : Ack} (h : ∀ record ∈ ack.records, record.Canonical)
    {key : UInt24} (hkey : key.Canonical) :
    key ∈ ack.records.flatMap Record.numbers ↔ ack.Covers key := by
  rw [List.mem_flatMap]
  refine exists_congr fun record => and_congr_right fun hrecord => ?_
  exact mem_numbers_iff hkey (h record hrecord)

/-! ## What is read -/

theorem yields_readRanges : ∀ n, Yields (fun _ => True) (readRanges n) fun records _ =>
    ∀ record ∈ records, record.Canonical
  | 0 => Yields.pure fun _ _ => by simp
  | n + 1 => by
    intro b records b' _ hrun
    obtain ⟨start, b₁, hstart, hrun⟩ := bind_eq_ok hrun
    obtain ⟨stop, b₂, hstop, hrun⟩ := bind_eq_ok hrun
    obtain ⟨rest, b₃, hrest, hrun⟩ := bind_eq_ok hrun
    cases hrun
    intro record hrecord
    rcases List.mem_cons.mp hrecord with rfl | hrecord
    · exact ⟨yields_uint24 _ _ _ trivial hstart, yields_uint24 _ _ _ trivial hstop⟩
    · exact yields_readRanges n _ _ _ trivial hrest record hrecord

/-- The numbers of an acknowledgement that is read have 24 bits. -/
theorem canonical_of_readAck {ack : Ack} {b b' : BinaryBuffer}
    (h : (readNext Ack).run b = .ok ack b') : ∀ record ∈ ack.records, record.Canonical := by
  obtain ⟨_, b₁, -, h⟩ := bind_eq_ok h
  obtain ⟨_, b₂, -, h⟩ := bind_eq_ok h
  obtain ⟨multi, b₃, -, h⟩ := bind_eq_ok h
  split at h
  · obtain ⟨length, b₄, -, h⟩ := bind_eq_ok h
    obtain ⟨records, b₅, hranges, h⟩ := bind_eq_ok h
    cases h
    exact yields_readRanges _ _ _ _ trivial hranges
  · obtain ⟨value, b₄, hvalue, h⟩ := bind_eq_ok h
    cases h
    intro record hrecord
    rw [List.mem_singleton.mp hrecord]
    exact yields_uint24 _ _ _ trivial hvalue

end Ack

/-! ## A buffer that is back -/

/-- The buffer is in the free list of its block once, and in no other. -/
def BufferCompany.FreeOnce (company : BufferCompany) (buffer : BufferId) : Prop :=
  ∃ block ∈ company.blocks, block.id = buffer.block ∧ block.freeBuffers.count buffer = 1 ∧
    ∀ other ∈ company.blocks, other ≠ block → buffer ∉ other.freeBuffers

/-- A buffer of the blocks that nobody holds is back. -/
theorem BufferCompany.Conserves.freeOnce {company : BufferCompany} {held : List BufferId}
    {buffer : BufferId} (h : company.Conserves held) (hall : buffer ∈ company.allBuffers)
    (hheld : buffer ∉ held) : company.FreeOnce buffer := by
  have hnodup := (List.nodup_append.mp h.nodup).1
  rcases List.mem_append.mp (h.perm.symm.subset hall) with hfree | hmem
  · obtain ⟨block, hblock, hin⟩ := List.mem_flatMap.mp hfree
    have hid : buffer.block = block.id := h.own block hblock buffer hin
    refine ⟨block, hblock, hid.symm, ?_, fun other hother hne hin' => hne ?_⟩
    · exact List.count_eq_one_of_mem ((List.nodup_flatMap.mp hnodup).1 block hblock) hin
    · have hid' : buffer.block = other.id := h.own other hother buffer hin'
      exact List.inj_on_of_nodup_map h.ids_nodup hother hblock (hid'.symm.trans hid)
  · exact absurd hmem hheld

/-- The buffers of a pool stay its buffers. -/
theorem BufferCompany.Conserves.mem_allBuffers_of_grows {company company' : BufferCompany}
    {held held' : List BufferId} {buffer : BufferId} (h : company.Conserves held)
    (h' : company'.Conserves held') (hgrows : company.Grows company')
    (hall : buffer ∈ company.allBuffers) : buffer ∈ company'.allBuffers := by
  have hlength := hgrows.length_le
  rw [mem_allBuffers, h.ids, List.mem_reverse, List.mem_range] at hall
  rw [mem_allBuffers, h'.ids, List.mem_reverse, List.mem_range, hgrows.bufferCount]
  exact ⟨Nat.lt_of_lt_of_le hall.1 hlength, hall.2⟩

/-- The pool has the same settings and the same memory, and no fewer blocks. -/
structure ReturnsOnly (w w' : World) : Prop where
  grows : w.host.company.Grows w'.host.company
  memory : w'.host.company.memory = w.host.company.memory

instance : IsPreorder World ReturnsOnly where
  refl _ := ⟨⟨rfl, rfl, rfl, rfl, Nat.le_refl _⟩, rfl⟩
  trans _ _ _ h h' :=
    ⟨⟨h'.1.1.trans h.1.1, h'.1.2.trans h.1.2, h'.1.3.trans h.1.3, h'.1.4.trans h.1.4,
      Nat.le_trans h.1.5 h'.1.5⟩, h'.2.trans h.2⟩

theorem returnsOnly_release (b : BinaryBuffer) : Within ReturnsOnly (release b) :=
  fun w => ⟨w.host.company.grows_destroy _, w.host.company.memory_destroy _⟩

/-! ## Erasing -/

section Erasing

variable {config : ServerConfig} {elsewhere : List RentedBuffer} {scope rest : List BufferId}
  {w : World} {b b' : BinaryBuffer}

theorem returnsOnly_eraseAckBuffer (id : UInt24) : Within ReturnsOnly (eraseAckBuffer id) := by
  refine Within.bind Within.get fun w => ?_
  split
  · exact Within.pure _
  · exact Within.bind (fun _ => ⟨⟨rfl, rfl, rfl, rfl, Nat.le_refl _⟩, rfl⟩) fun _ =>
      returnsOnly_release _

/-- Erasing an entry leaves the rest of the client. -/
theorem this_eraseAckBuffer (id : UInt24) (w : World) :
    (after (eraseAckBuffer id) w).this =
      { w.this with ackBuffer := (after (eraseAckBuffer id) w).this.ackBuffer } := by
  cases hlookup : w.this.ackBuffer.lookup id with
  | none => rw [after_of_ok (run_eraseAckBuffer_none hlookup)]
  | some buffer =>
    rw [after_of_ok (run_eraseAckBuffer_some hlookup)]
    rfl

/-- The loop erases the numbers and leaves the rest of the client alone. -/
theorem this_forM_eraseAckBuffer (ids : List UInt24) (w : World) :
    (after (ids.forM eraseAckBuffer) w).this =
      { w.this with ackBuffer := eraseAll w.this.ackBuffer ids } := by
  induction ids generalizing w with
  | nil => rfl
  | cons id ids ih =>
    obtain ⟨u, hrun⟩ := (succeeds_eraseAckBuffer id w).run
    show (after (eraseAckBuffer id >>= fun _ => ids.forM eraseAckBuffer) w).this = _
    rw [after_bind_ok hrun, ih, this_eraseAckBuffer, ackBuffer_eraseAckBuffer]
    rfl

/-- The buffer is a view, or it has the first of the buffers in the scope to return. -/
inductive InHand (config : ServerConfig) (b : BinaryBuffer) : List BufferId → List BufferId → Prop
  | view {scope : List BufferId} : b.owner = none → InHand config b scope scope
  | rented {buffer : BufferId} {rest : List BufferId} :
      b.realBuffer.Owns config.rentedBufferSize buffer → InHand config b (buffer :: rest) rest

/-- What is left behind a release was in scope before it. -/
theorem InHand.subset (h : InHand config b scope rest) : rest ⊆ scope := by
  cases h with
  | view _ => exact List.Subset.refl _
  | rented _ => exact List.subset_cons_self _ _

/-- A buffer in hand is released out of the scope. -/
theorem InHand.release (hsize : 1 ≤ config.rentedBufferSize) (h : InHand config b scope rest) :
    Yields (World.Pooled config elsewhere scope) (release b) fun _ =>
      World.Pooled config elsewhere rest := by
  cases h with
  | view hview => exact KeepsPooled.of_same (same_release hview)
  | rented howns => exact yields_release hsize howns

/-- What `process_ack` does with what it has read. -/
theorem run_processAck {ack : Ack} {ids : List UInt24} (hread : (readNext Ack).run b = .ok ack b')
    (hids : ack.allPackets = some ids) (w : World) :
    (processAck b).run w = .ok ⟨⟩ (after (release b) (after (ids.forM eraseAckBuffer) w)) := by
  obtain ⟨u, hrun⟩ := (succeeds_forM succeeds_eraseAckBuffer ids w).run
  rw [processAck_eq]
  refine run_owning_ok ((run_bind_of_ok (run_onBuffer_ok hread)).trans ?_)
  show (processRecords ack).run w = _
  unfold processRecords
  rw [hids]
  exact hrun

end Erasing

/-! ## A buffer that `ready_buffer` has filled -/

/--
`ready_buffer` has filled the `ack_buffer`: it was empty once, every entry since then has come with a
call of `ready_buffer`, and whatever else has happened has only taken entries away.
-/
inductive World.Filled (config : ServerConfig) : List RentedBuffer → List BufferId → World → Prop
  | empty {elsewhere : List RentedBuffer} {scope : List BufferId} {w : World} :
      w.this.ackBuffer = ∅ → w.this.sendingRelyFrameIndex.Canonical → Filled config elsewhere scope w
  | ready {elsewhere : List RentedBuffer} {scope : List BufferId} {w w' : World}
      {buffer : BinaryBuffer} {rely : FrameReliability} {out : Bytes} :
      Filled config elsewhere scope w → w.Pooled config elsewhere scope →
      (readyBuffer buffer rely).run w = .ok out w' → Filled config elsewhere scope w'
  | other {elsewhere elsewhere' : List RentedBuffer} {scope scope' : List BufferId} {w w' : World} :
      Filled config elsewhere scope w →
      (∀ key buffer, w'.this.ackBuffer.lookup key = some buffer →
        w.this.ackBuffer.lookup key = some buffer) →
      w'.this.sendingRelyFrameIndex = w.this.sendingRelyFrameIndex →
      w'.Pooled config elsewhere' scope' → Filled config elsewhere' scope' w'

/-- The indexes of datagrams that leave are counted up in 24 bits. -/
theorem Indexes.canonical : ∀ {k k' : UInt24} {new : List Outgoing}, Indexes k new k' →
    k.Canonical → k'.Canonical ∧ ∀ sent ∈ new, sent.index.Canonical
  | _, _, [], rfl, hk => ⟨hk, by simp⟩
  | k, k', sent :: rest, ⟨hindex, hrest⟩, hk => by
    have hnext : (if isReliable sent.rely then k.incr else k).Canonical := by
      split
      · exact k.incr_canonical
      · exact hk
    obtain ⟨hk', hall⟩ := hrest.canonical hnext
    refine ⟨hk', fun other hother => ?_⟩
    rcases List.mem_cons.mp hother with rfl | hmem
    · rw [hindex]
      exact hk
    · exact hall other hmem

/-- No check passes on a view without bytes. -/
theorem size_pos_of_boundsCheck {extra : Nat} {b b' : BinaryBuffer} {u : PUnit}
    (h : (boundsCheck extra).run b = .ok u b') : 1 ≤ b.size := by
  unfold boundsCheck at h
  rw [run_get_bind] at h
  split at h
  · cases h
  · omega

/-- A buffer without bytes takes no header. -/
theorem size_pos_of_readyBuffer {config : ServerConfig} {elsewhere : List RentedBuffer}
    {scope : List BufferId} {w w' : World} {buffer : BinaryBuffer} {rely : FrameReliability}
    {out : Bytes} (hpooled : w.Pooled config elsewhere scope)
    (hrun : (readyBuffer buffer rely).run w = .ok out w') : 1 ≤ config.rentedBufferSize := by
  by_contra hzero
  obtain ⟨sent, w₁, hrent, hrun⟩ := bind_eq_ok hrun
  obtain ⟨buffer', howns, -⟩ := yields_rent _ _ _ hpooled hrent
  have hmemory : (sent.bytes ++ sent.beyond).length = config.rentedBufferSize := howns.length
  have hbytes : sent.bytes.length = 0 := by
    rw [List.length_append] at hmemory
    omega
  obtain ⟨r, w₂, hguarded, -⟩ := bind_eq_ok hrun
  obtain ⟨header, w₃, -, hbody⟩ := bind_eq_ok (guarded_eq_ok hguarded)
  obtain ⟨framed, w₄, hwrite, -⟩ := bind_eq_ok hbody
  cases hframed : (writeFramed header (makeInfo rely buffer) buffer.consumedSlice).run sent with
  | error e sent' =>
    rw [run_onSendBuffer_error hframed] at hwrite
    cases hwrite
  | ok u sent' =>
    obtain ⟨_, sent₁, hheader, -⟩ := bind_eq_ok hframed
    obtain ⟨_, sent₂, hcheck, -⟩ := bind_eq_ok hheader
    exact absurd (size_pos_of_boundsCheck hcheck) (by unfold size; omega)

namespace World.Filled

variable {config : ServerConfig} {elsewhere : List RentedBuffer} {scope rest : List BufferId}
  {w : World}

/-- The client's own index and the keys of what it has sent fit 24 bits. -/
theorem canonical (h : w.Filled config elsewhere scope) :
    w.this.sendingRelyFrameIndex.Canonical ∧ ∀ key ∈ w.this.ackBuffer, key.Canonical := by
  induction h with
  | empty hempty hindex =>
    refine ⟨hindex, fun key hkey => ?_⟩
    rw [hempty] at hkey
    exact absurd hkey (AList.notMem_empty key)
  | @ready _ _ w w' buffer rely out _ _ hrun ih =>
    obtain ⟨new, hsending⟩ := ((within_readyBuffer buffer rely).of_run hrun).sends
    obtain ⟨hindex, hnew⟩ := hsending.indexes.canonical ih.1
    refine ⟨hindex, fun key hkey => ?_⟩
    rcases hsending.filed key hkey with hold | ⟨sent, hsent, -, rfl⟩
    · exact ih.2 key hold
    · exact hnew sent hsent
  | other _ hentries hindex _ ih =>
    refine ⟨hindex ▸ ih.1, fun key hkey => ?_⟩
    obtain ⟨buffer, hlookup⟩ := Option.isSome_iff_exists.mp (AList.lookup_isSome.mpr hkey)
    exact ih.2 key (AList.lookup_isSome.mp (Option.isSome_of_eq_some (hentries key buffer hlookup)))

/-- With an entry in it, the pool has bytes, and the entry is one of its buffers. -/
theorem pooled (h : w.Filled config elsewhere scope) {key : UInt24} {buffer : BinaryBuffer}
    (hkey : w.this.ackBuffer.lookup key = some buffer) :
    1 ≤ config.rentedBufferSize ∧ w.Pooled config elsewhere scope := by
  induction h generalizing key buffer with
  | empty hempty _ =>
    rw [hempty] at hkey
    cases hkey
  | ready _ hpooled hrun _ =>
    have hsize := size_pos_of_readyBuffer hpooled hrun
    exact ⟨hsize, keepsPooled_readyBuffer hsize _ _ _ _ _ hpooled hrun⟩
  | other _ hentries _ hpooled ih => exact ⟨(ih (hentries key buffer hkey)).1, hpooled⟩

end World.Filled

/-! ## What goes and what stays -/

/-- From `w` to `w'`, exactly the entries go that the acknowledgement covers, and are returned. -/
structure Removes (config : ServerConfig) (ack : Ack) (w w' : World) : Prop where
  gone : ∀ key, ack.Covers key → w'.this.ackBuffer.lookup key = none
  kept : ∀ key, ¬ ack.Covers key → w'.this.ackBuffer.lookup key = w.this.ackBuffer.lookup key
  contents : w'.host.company.memory = w.host.company.memory
  rest : w'.this = { w.this with ackBuffer := w'.this.ackBuffer }
  returned : ∀ key buffer, ack.Covers key → w.this.ackBuffer.lookup key = some buffer →
    ∃ id, buffer.realBuffer.Owns config.rentedBufferSize id ∧
      (∀ block ∈ w.host.company.blocks, id ∉ block.freeBuffers) ∧ w'.host.company.FreeOnce id

section Removes

variable {config : ServerConfig} {elsewhere : List RentedBuffer} {scope rest : List BufferId}
  {w w' : World} {b b' : BinaryBuffer} {ids : List UInt24}

/-- The buffer of an entry that is erased was out, and is back once. -/
theorem freeOnce_of_erased (hpooled : w.Pooled config elsewhere scope)
    (hpooled' : w'.Pooled config elsewhere rest) (hrest : rest ⊆ scope) (hreturns : ReturnsOnly w w')
    (hacks : w'.this.ackBuffer = eraseAll w.this.ackBuffer ids) {key : UInt24} (hmem : key ∈ ids)
    {buffer : BinaryBuffer} (hkey : w.this.ackBuffer.lookup key = some buffer) :
    ∃ id, buffer.realBuffer.Owns config.rentedBufferSize id ∧
      (∀ block ∈ w.host.company.blocks, id ∉ block.freeBuffers) ∧ w'.host.company.FreeOnce id := by
  have hbacks := hpooled.backs.of_perm ((parked_perm hkey).append_right elsewhere)
  obtain ⟨id, howns, -⟩ := hbacks.whole buffer.realBuffer List.mem_cons_self
  have hconserves := hbacks.conserves
  rw [List.cons_append, List.flatMap_cons, howns.held, List.append_assoc, List.singleton_append]
    at hconserves
  refine ⟨id, howns, fun block => hconserves.not_free List.mem_cons_self, ?_⟩
  refine hpooled'.backs.conserves.freeOnce (hconserves.mem_allBuffers_of_grows
    hpooled'.backs.conserves hreturns.grows (hconserves.mem_all List.mem_cons_self)) fun hheld => ?_
  -- what is held behind is held before, beside the entry
  have hothers : w'.this.parked ⊆
      holdings (fun buffer : BinaryBuffer => [buffer.realBuffer]) (w.this.ackBuffer.erase key) := by
    intro rented hrented
    obtain ⟨other, stored, hlookup, hstored⟩ := mem_holdings.mp hrented
    rw [hacks] at hlookup
    obtain ⟨hother, hlookup⟩ := lookup_of_lookup_eraseAll hlookup
    have hne : other ≠ key := fun heq => hother (heq ▸ hmem)
    exact mem_holdings.mpr ⟨other, stored, by rw [AList.lookup_erase_ne hne, hlookup], hstored⟩
  have hnot := (List.nodup_cons.mp (List.nodup_append.mp hconserves.nodup).2.1).1
  refine hnot ?_
  rcases List.mem_append.mp hheld with hstored | hscope
  · obtain ⟨rented, hrented, hin⟩ := List.mem_flatMap.mp hstored
    refine List.mem_append_left _ (List.mem_flatMap.mpr ⟨rented, ?_, hin⟩)
    rcases List.mem_append.mp hrented with hparked | helse
    · exact List.mem_append_left _ (hothers hparked)
    · exact List.mem_append_right _ helse
  · exact List.mem_append_right _ (hrest hscope)

/-- With room for the entries, the pool is in order behind `process_ack` as it was before. -/
theorem pooled_processAck (hsize : 1 ≤ config.rentedBufferSize)
    (hpooled : w.Pooled config elsewhere scope) (hb : InHand config b scope rest)
    (ids : List UInt24) :
    (after (release b) (after (ids.forM eraseAckBuffer) w)).Pooled config elsewhere rest := by
  obtain ⟨u, hrun⟩ := (succeeds_forM succeeds_eraseAckBuffer ids w).run
  have herased := Yields.forM (keepsPooled_eraseAckBuffer hsize) ids _ _ _ hpooled hrun
  exact hb.release hsize _ _ _ herased (run_release b)

/--
**`process_ack` removes exactly what is acknowledged.** Whatever the ranges are, the entries that
some record covers are gone, their buffers are back once, and all else is as it was.
-/
theorem removes_acknowledged (hfilled : w.Filled config elsewhere scope)
    (hb : InHand config b scope rest) {ack : Ack} (hread : (readNext Ack).run b = .ok ack b')
    (hbelow : ∀ record ∈ ack.records, record.EndsBelowTop) :
    ∃ w', (processAck b).run w = .ok ⟨⟩ w' ∧ Removes config ack w w' := by
  have hpackets : ack.allPackets = some (ack.records.flatMap Ack.Record.numbers) :=
    (Ack.flatten_packets_iff (Ack.canonical_of_readAck hread)).mpr hbelow
  refine ⟨_, run_processAck hread hpackets w, ?_⟩
  generalize hids : ack.records.flatMap Ack.Record.numbers = ids
  have hthis : (after (release b) (after (ids.forM eraseAckBuffer) w)).this =
      { w.this with ackBuffer := eraseAll w.this.ackBuffer ids } := this_forM_eraseAckBuffer ids w
  have hreturns : ReturnsOnly w (after (release b) (after (ids.forM eraseAckBuffer) w)) :=
    IsTrans.trans _ _ _ (Within.forM returnsOnly_eraseAckBuffer ids w) (returnsOnly_release b _)
  have hcovers : ∀ key buffer, w.this.ackBuffer.lookup key = some buffer →
      (key ∈ ids ↔ ack.Covers key) := by
    intro key buffer hkey
    have hcanonical := hfilled.canonical.2 key (AList.lookup_isSome.mp (Option.isSome_of_eq_some hkey))
    rw [← hids]
    exact Ack.mem_flatMap_numbers_iff (Ack.canonical_of_readAck hread) hcanonical
  refine ⟨fun key hkey => ?_, fun key hkey => ?_, hreturns.memory, by rw [hthis],
    fun key buffer hcovered hkey => ?_⟩
  · rw [hthis]
    refine Option.eq_none_iff_forall_ne_some.mpr fun buffer hlookup => ?_
    obtain ⟨hnot, hold⟩ := lookup_of_lookup_eraseAll hlookup
    exact hnot ((hcovers key buffer hold).mpr hkey)
  · rw [hthis]
    cases hold : w.this.ackBuffer.lookup key with
    | some buffer =>
      rw [lookup_eraseAll_of_notMem fun hmem => hkey ((hcovers key buffer hold).mp hmem), hold]
    | none =>
      refine Option.eq_none_iff_forall_ne_some.mpr fun buffer hlookup => ?_
      rw [(lookup_of_lookup_eraseAll hlookup).2] at hold
      cases hold
  · obtain ⟨hsize, hpooled⟩ := hfilled.pooled hkey
    exact freeOnce_of_erased hpooled (pooled_processAck hsize hpooled hb ids) hb.subset hreturns
      (congrArg RakroServerClient.ackBuffer hthis) ((hcovers key buffer hkey).mpr hcovered) hkey

/-- What is left has been filled by `ready_buffer` too. -/
theorem yields_filled_processAck (hsize : 1 ≤ config.rentedBufferSize)
    (hb : InHand config b scope rest) :
    Yields (fun w => w.Filled config elsewhere scope ∧ w.Pooled config elsewhere scope)
      (processAck b) fun _ w => w.Filled config elsewhere rest ∧ w.Pooled config elsewhere rest := by
  rintro w u w' ⟨hfilled, hpooled⟩ hrun
  obtain ⟨ack, b', hread, hsome⟩ := (succeeds_processAck_iff_read b w).mp ⟨_, _, hrun⟩
  obtain ⟨ids, hids⟩ := Option.isSome_iff_exists.mp hsome
  have hpooled' := pooled_processAck hsize hpooled hb ids
  cases hrun.symm.trans (run_processAck hread hids w)
  have hthis : (after (release b) (after (ids.forM eraseAckBuffer) w)).this =
      { w.this with ackBuffer := eraseAll w.this.ackBuffer ids } := this_forM_eraseAckBuffer ids w
  refine ⟨.other hfilled (fun key buffer hlookup => ?_) (by rw [hthis]) hpooled', hpooled'⟩
  rw [hthis] at hlookup
  exact (lookup_of_lookup_eraseAll hlookup).2

end Removes

/-- The pool of `twoBuffers`. -/
def twoSmall : ServerConfig where
  rentedBufferCount := 2
  rentedBufferSize := 16
  rentedBlockBufferCount := 1

/-- Two reliable datagrams are kept. -/
def keepsTwo : World :=
  after (readyBuffer oneByte .reliable) (after (readyBuffer oneByte .reliable) twoBuffers)

/-- The first of them is acknowledged, twice. -/
def acksFirst : BinaryBuffer := { bytes := [0xC0, 2, 0] ++ List.replicate 12 0 }

/-- The state is one that sending leads to. -/
theorem filled_keepsTwo : keepsTwo.Filled twoSmall [] [] := by
  have hpooled : twoBuffers.Pooled twoSmall [] [] :=
    ⟨backs_new (show 1 ≤ twoSmall.rentedBlockBufferCount by decide), allEntries_empty _⟩
  have hindex : twoBuffers.this.sendingRelyFrameIndex.Canonical := show 0 < 2 ^ 24 by decide
  obtain ⟨out, hrun⟩ : ∃ out, (readyBuffer oneByte .reliable).run twoBuffers = .ok out _ :=
    Succeeds.run (by decide +kernel)
  obtain ⟨out', hrun'⟩ : ∃ out, (readyBuffer oneByte .reliable).run
      (after (readyBuffer oneByte .reliable) twoBuffers) = .ok out _ :=
    Succeeds.run (by decide +kernel)
  have hpooled' := keepsPooled_readyBuffer (by decide) _ _ _ _ _ hpooled hrun
  exact .ready (.ready (.empty rfl hindex) hpooled hrun) hpooled' hrun'

/-- One of two datagrams is acknowledged, twice. -/
theorem removes_acknowledged_first :
    ∃ w', (processAck acksFirst).run keepsTwo = .ok ⟨⟩ w' ∧
      Removes twoSmall ⟨[.multi ⟨{}, {}⟩, .multi ⟨{}, {}⟩]⟩ keepsTwo w' := by
  have hread : (readNext Ack).run acksFirst =
      .ok ⟨[.multi ⟨{}, {}⟩, .multi ⟨{}, {}⟩]⟩ (acksFirst.goTo 15) := rfl
  exact removes_acknowledged filled_keepsTwo (.view rfl) hread
    (by simp [Ack.Record.EndsBelowTop, UInt24.toNat])

end Rakro
