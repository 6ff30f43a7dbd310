import Rakro.Properties.PoolLevel
import Rakro.Properties.Outgoing
import Rakro.Properties.Reconnect
import Rakro.Properties.CounterWrap

/-!
# Who owns what is stored

A datagram in `ack_buffer` owns the buffer it lies in. A packet in `out_of_order_packet_buffer` is a
view of the buffer that its datagram came in, and that one is back in the pool when the datagram has
been processed. So what is stored is owned as long as nothing is stored out of order, and nothing is
as long as no frame comes ahead of its turn.
-/

namespace Rakro

open Infra BinaryBuffer

/-! ## Views that keep their buffer -/

/-- The pool can come to hand out the buffer, if it is rented from often enough. -/
inductive BufferCompany.HandsOut (buffer : BufferId) : BufferCompany → Prop
  | now {company company' : BufferCompany} {rented : RentedBuffer} {place : Place} :
      company.rent = .ok (rented, company') → rented.home = some place → place.buffer = buffer →
      HandsOut buffer company
  | later {company company' : BufferCompany} {rented : RentedBuffer} :
      company.rent = .ok (rented, company') → HandsOut buffer company' → HandsOut buffer company

/-- The buffer is rented: it is in no free list, and no `rent` to come hands it out. -/
structure BufferCompany.Rented (company : BufferCompany) (buffer : BufferId) : Prop where
  notFree : ∀ block ∈ company.blocks, buffer ∉ block.freeBuffers
  notHandedOut : ¬ company.HandsOut buffer

/-- The view owns the buffer it lies in, so that one is rented, and it shows what is stored. -/
structure BinaryBuffer.KeptAlive (b : BinaryBuffer) (company : BufferCompany) : Prop where
  owned : ∃ place, b.home = some place ∧ b.owner = some place.buffer.block ∧
    company.Rented place.buffer
  shows : b.reload company = b

/-- Every view that a client stores is one of these. -/
def ServerWorld.StoredOwned (w : ServerWorld) : Prop :=
  AllEntries (fun _ client => ∀ b ∈ client.heldBuffers, b.KeptAlive w.host.company)
    w.this.router.connectedClients

/-- No client stores anything out of order. -/
def ServerWorld.NothingStored (w : ServerWorld) : Prop :=
  AllEntries (fun _ client => client.outOfOrderPacketBuffer = ∅) w.this.router.connectedClients

section Kept

variable {company : BufferCompany} {held : List BufferId} {buffer : BufferId} {b : BinaryBuffer}

/-- What is held is not handed out, however many others are. -/
theorem BufferCompany.Conserves.not_handsOut (h : company.Conserves held)
    (hmaking : company.isMakingBlock = false) (hheld : buffer ∈ held) :
    ¬ company.HandsOut buffer := by
  intro hout
  induction hout generalizing held with
  | now hrent hhome hbuffer =>
    obtain ⟨other, howns, hconserves, -⟩ := h.rent_eq_ok hmaking hrent
    have hother : other = buffer := by
      cases Option.some.inj (howns.home.symm.trans hhome)
      exact hbuffer
    have hnodup := (List.nodup_append.mp hconserves.nodup).2.1
    exact (List.nodup_cons.mp hnodup).1 (hother ▸ hheld)
  | later hrent _ ih =>
    obtain ⟨other, howns, hconserves, hgrows⟩ := h.rent_eq_ok hmaking hrent
    exact ih hconserves (hgrows.isMakingBlock.trans hmaking) (List.mem_cons_of_mem _ hheld)

theorem load_append (company : BufferCompany) (place : Place) (m n : Nat) :
    company.load place (m + n) = company.load place m ++ company.load (place.shift m) n := by
  unfold BufferCompany.load
  rw [List.range_add, List.map_append, List.map_map]
  simp only [Place.shift, Function.comp_def, Nat.add_assoc]

/-- A view of a whole buffer shows what it did when the pool still holds that. -/
theorem reload_of_load {place : Place} (hhome : b.home = some place)
    (hload : company.load place (b.bytes ++ b.beyond).length = b.bytes ++ b.beyond) :
    b.reload company = b := by
  rw [List.length_append, load_append] at hload
  obtain ⟨hbytes, hbeyond⟩ := List.append_inj hload (company.length_load _ _)
  unfold reload
  rw [hhome]
  dsimp only
  rw [hbytes, hbeyond, ← hhome]

/-- A datagram that is kept until it is acknowledged owns its buffer. -/
theorem BufferCompany.Backs.keptAlive {config : ServerConfig} {stored : List RentedBuffer}
    {scope : List BufferId} (h : company.Backs config stored scope)
    (hmem : b.realBuffer ∈ stored) : b.KeptAlive company := by
  obtain ⟨buffer, howns, hload⟩ := h.whole _ hmem
  have hheld : buffer ∈ stored.flatMap RentedBuffer.held ++ scope := by
    refine List.mem_append_left _ (List.mem_flatMap.mpr ⟨_, hmem, ?_⟩)
    rw [howns.held]
    exact List.mem_singleton_self _
  refine ⟨⟨_, howns.home, howns.owner, ?_, ?_⟩, reload_of_load howns.home ?_⟩
  · exact fun block hblock => h.conserves.not_free hheld hblock
  · exact h.conserves.not_handsOut h.configured.notMaking hheld
  · rw [show (b.bytes ++ b.beyond).length = config.rentedBufferSize from howns.length]
    exact hload

/-- A view keeps nothing alive. -/
theorem not_keptAlive_of_view (hview : b.owner = none) : ¬ b.KeptAlive company := by
  rintro ⟨⟨place, -, howner, -⟩, -⟩
  cases hview.symm.trans howner

end Kept

/-- **What is stored is owned exactly when nothing is stored out of order.** -/
theorem storedOwned_iff {config : ServerConfig} {scope : List BufferId} {w : ServerWorld}
    (h : w.Pooled config scope) : w.StoredOwned ↔ w.NothingStored := by
  constructor
  · intro howned address client hclient
    -- an entry of the store is a view, which owns nothing
    refine AList.ext (List.eq_nil_iff_forall_not_mem.mpr fun entry hentry => ?_)
    have hview : entry.2.rawData.owner = none :=
      h.views address client hclient entry.1 entry.2 (AList.mem_lookup_iff.mpr hentry)
    refine not_keptAlive_of_view hview (howned address client hclient _ ?_)
    exact List.mem_append_left _ (List.mem_map_of_mem hentry)
  · intro hnothing address client hclient b hb
    unfold RakroServerClient.heldBuffers at hb
    rw [hnothing address client hclient] at hb
    refine h.backs.keptAlive (mem_holdings.mpr ⟨address, client, hclient, ?_⟩)
    rw [← map_heldBuffers]
    exact List.mem_map_of_mem (by simpa using hb)

/-! ## Frames ahead of their turn -/

/-- The next expected order number of each channel. -/
abbrev NextPackets := Vector UInt32 maxOrderChannels

/-- The place that a frame wants in its channel. Sequenced frames and fragments want none. -/
def FrameInfo.turn? (info : FrameInfo) : Option OrderInformation :=
  if info.fragmentInfo.isSome ∨ info.sequenceFrameIndex.isSome then none else info.orderInfo

/-- The frame comes ahead of its turn. -/
def FrameInfo.Early (info : FrameInfo) (next : NextPackets) : Prop :=
  ∃ order ∈ info.turn?, ∃ expected ∈ next[order.orderChannel.toNat]?,
    expected < order.orderFrameIndex.getValue

instance (info : FrameInfo) (next : NextPackets) : Decidable (info.Early next) :=
  inferInstanceAs (Decidable (∃ order ∈ info.turn?,
    ∃ expected ∈ next[order.orderChannel.toNat]?, expected < order.orderFrameIndex.getValue))

/-- The turns behind a frame, which moves that of its channel on when it is its own. -/
def FrameInfo.moveOn (info : FrameInfo) (next : NextPackets) : NextPackets :=
  match info.turn? with
  | none => next
  | some order =>
    if next[order.orderChannel.toNat]? = some order.orderFrameIndex.getValue then
      next.setIfInBounds order.orderChannel.toNat (order.orderFrameIndex.getValue + 1)
    else next

/-- None of the frames comes ahead of its turn. -/
def NoneEarly : NextPackets → List FrameInfo → Prop
  | _, [] => True
  | next, info :: infos => ¬ info.Early next ∧ NoneEarly (info.moveOn next) infos

instance decidableNoneEarly : (next : NextPackets) → (infos : List FrameInfo) →
    Decidable (NoneEarly next infos)
  | _, [] => isTrue trivial
  | next, info :: infos =>
    @instDecidableAnd _ _ _ (decidableNoneEarly (info.moveOn next) infos)

/-- The headers of the frames that a buffer has to offer, as many of them as can be read. -/
def frameInfos : Nat → BinaryBuffer → List FrameInfo
  | 0, _ => []
  | fuel + 1, b =>
    if 4 < b.remaining then
      match (readNext FrameInfo).run b with
      | .ok info b' => info :: frameInfos fuel (b'.skipn info.bodyLeng.toNat)
      | .error _ _ => []
    else []

/-- The datagram is behind the window, or has no frame that comes ahead of its turn. -/
def RakroServerClient.TakesInTurn (client : RakroServerClient) (bytes : Bytes) : Prop :=
  ∀ number ∈ ({ bytes } : BinaryBuffer).frameSetNumber?, ¬ number < client.nextExpectedSeq →
    NoneEarly client.orderedBufferNextPackets (frameInfos (bytes.length + 1) { bytes, index := 4 })

/-- Nothing is stored, and the turns are these. -/
structure World.AtTurn (next : NextPackets) (w : World) : Prop where
  stored : w.this.outOfOrderPacketBuffer = ∅
  ordered : w.this.orderedBufferNextPackets = next

section Turns

variable {α : Type} {next : NextPackets} {b c : BinaryBuffer} {info : FrameInfo}
  {order : OrderInformation}

/-- A whole frame that is ordered and not sequenced has a turn. -/
theorem FrameInfo.turn?_eq_some (hfragment : info.fragmentInfo = none)
    (hseq : info.sequenceFrameIndex = none) (horder : info.orderInfo = some order) :
    info.turn? = some order := by
  unfold FrameInfo.turn?
  rw [hfragment, hseq, horder]
  rfl

/-- A frame without a turn moves no counter. -/
theorem FrameInfo.moveOn_of_none (h : info.turn? = none) : info.moveOn next = next := by
  unfold FrameInfo.moveOn
  rw [h]

/-- A frame at its turn moves the counter of its channel. -/
theorem FrameInfo.moveOn_of_some (h : info.turn? = some order) :
    info.moveOn next =
      if next[order.orderChannel.toNat]? = some order.orderFrameIndex.getValue then
        next.setIfInBounds order.orderChannel.toNat (order.orderFrameIndex.getValue + 1)
      else next := by
  unfold FrameInfo.moveOn
  rw [h]

variable (next) in
/-- The method neither stores anything nor moves a turn on. -/
abbrev KeepsTurns (m : ClientM α) : Prop :=
  Yields (World.AtTurn next) m fun _ => World.AtTurn next

theorem KeepsTurns.of_answers {m : ClientM α} (h : Within Answers m) : KeepsTurns next m := by
  intro w a w' hw hrun
  have hans := h.of_run hrun
  exact ⟨hans.stored.trans hw.stored, hans.ordered.trans hw.ordered⟩

theorem keepsTurns_processData (b : BinaryBuffer) : KeepsTurns next (processData b) := by
  intro w a w' hw hrun
  have hans := processData_answers b w
  rw [after_of_ok hrun] at hans
  exact ⟨hans.stored.trans hw.stored, hans.ordered.trans hw.ordered⟩

theorem keepsTurns_emit (event : Event) : KeepsTurns next (emit event) := by
  intro w a w' hw hrun
  cases hrun
  exact ⟨hw.stored, hw.ordered⟩

theorem keepsTurns_setSequenced (channel : UInt8) (value : UInt32) :
    KeepsTurns next (setSequenced channel value) := by
  intro w a w' hw hrun
  cases hrun
  exact ⟨hw.stored, hw.ordered⟩

/-- With nothing stored, the loop over stored packets does nothing. -/
theorem keepsTurns_drain (channel : UInt8) (fuel : Nat) (key : OrderKey) :
    KeepsTurns next (drain channel (fuel + 1) key) := by
  intro w a w' hw hrun
  have hnone : w.this.outOfOrderPacketBuffer.lookup key = none := by
    rw [hw.stored]
    rfl
  cases (run_drain_none hnone).symm.trans hrun
  exact hw

theorem yields_orderedNext (channel : UInt8) :
    Yields (World.AtTurn next) (orderedNext channel) fun value w =>
      next[channel.toNat]? = some value ∧ w.AtTurn next := by
  refine Yields.get_bind fun w hw => ?_
  rw [hw.ordered]
  cases hnext : next[channel.toNat]? with
  | some value => exact Yields.pure fun _ h => ⟨rfl, h⟩
  | none => exact Yields.throw _

/-- The counter of a channel moves on, and the others stay. -/
theorem yields_bumpOrdered {channel : UInt8} {value : UInt32}
    (hvalue : next[channel.toNat]? = some value) :
    Yields (World.AtTurn next) (bumpOrdered channel) fun _ =>
      World.AtTurn (next.setIfInBounds channel.toNat (value + 1)) := by
  refine Yields.bind (yields_orderedNext channel) fun value' => Yields.of_and fun hvalue' => ?_
  cases hvalue.symm.trans hvalue'
  intro w u w' hw hrun
  cases hrun
  refine ⟨hw.stored, ?_⟩
  rw [← hw.ordered]

theorem keepsTurns_processSequenced (b : BinaryBuffer) (info : FrameInfo) (index : UInt24) :
    KeepsTurns next (processSequenced b info index) := by
  refine Yields.bind (KeepsTurns.of_answers (within_debug _)) fun _ => ?_
  refine Yields.bind (KeepsTurns.of_answers (within_rakroAssert _)) fun _ => ?_
  split
  · exact Yields.throw _
  · refine Yields.bind (KeepsTurns.of_answers (within_sequencedNext _)) fun _ => ?_
    refine Yields.bind (KeepsTurns.of_answers (within_orderedNext _)) fun _ =>
      Yields.ite (fun _ => ?_) fun _ => ?_
    · exact Yields.bind (keepsTurns_setSequenced _ _) fun _ => keepsTurns_processData b
    · exact Yields.bind (KeepsTurns.of_answers (within_debug _)) fun _ =>
        KeepsTurns.of_answers (within_release b)

/-- A frame that is not ahead of its turn is processed or dropped. -/
theorem yields_processOrdered_inTurn (hturn : info.turn? = some order)
    (hearly : ¬ info.Early next) :
    Yields (World.AtTurn next) (processOrdered b info order) fun _ =>
      World.AtTurn (info.moveOn next) := by
  refine Yields.bind (yields_orderedNext _) fun value => Yields.of_and fun hvalue => ?_
  rw [FrameInfo.moveOn_of_some hturn, hvalue]
  refine Yields.ite (fun heq => ?_) fun hne => Yields.ite (fun _ => ?_) fun hge => ?_
  · rw [if_pos (congrArg some heq), ← heq]
    refine Yields.bind (yields_bumpOrdered hvalue) fun _ => ?_
    refine Yields.bind (keepsTurns_processData b) fun _ => Yields.get_bind fun _ _ => ?_
    exact Yields.bind (keepsTurns_drain _ _ _) fun _ => Yields.pure fun _ h => h
  · rw [if_neg fun h => hne (Option.some.inj h)]
    exact Yields.bind (KeepsTurns.of_answers (within_release b)) fun _ => Yields.pure fun _ h => h
  · -- the turn is neither over nor there
    refine absurd ⟨order, hturn, value, hvalue, ?_⟩ hearly
    rw [UInt32.lt_iff_toNat_lt] at hge ⊢
    have hvalues := mt UInt32.toNat_inj.mp hne
    omega

/-- A frame that is not early moves the counter that its turn says. -/
theorem yields_handFrame (hearly : ¬ info.Early next) :
    Yields (World.AtTurn next) (handFrame b info) fun _ => World.AtTurn (info.moveOn next) := by
  unfold handFrame
  refine Yields.ite (fun hfragment => ?_) fun hfragment => ?_
  · rw [FrameInfo.moveOn_of_none (if_pos (Or.inl hfragment))]
    exact keepsTurns_emit _
  · refine Yields.bind (keepsTurns_emit _) fun _ => ?_
    cases hseq : info.sequenceFrameIndex with
    | some index =>
      rw [FrameInfo.moveOn_of_none (if_pos (Or.inr (by rw [hseq]; rfl)))]
      exact keepsTurns_processSequenced b info index
    | none =>
      have hunfragmented : info.fragmentInfo = none := by simpa using hfragment
      refine Yields.bind (Q := fun _ => World.AtTurn (info.moveOn next)) ?_ fun r => ?_
      · unfold orderFrame
        cases horder : info.orderInfo with
        | some order =>
          exact yields_processOrdered_inTurn
            (FrameInfo.turn?_eq_some hunfragmented hseq horder) hearly
        | none =>
          have hturn : info.turn? = none := by
            unfold FrameInfo.turn?
            rw [horder, ite_self]
          rw [FrameInfo.moveOn_of_none hturn]
          exact Yields.pure fun _ h => h
      · cases r with
        | some packetData => exact keepsTurns_processData packetData
        | none => exact Yields.pure fun _ h => h

theorem yields_onBuffer {P : World → Prop} (m : BufM α) :
    Yields P (onBuffer b m) fun r w => m.run b = .ok r.1 r.2 ∧ P w := by
  intro w r w' hw hrun
  obtain ⟨hm, rfl⟩ := onBuffer_eq_ok hrun
  exact ⟨hm, hw⟩

/-- The loop goes through the frames that any buffer of the same bytes has to offer. -/
theorem yields_frameLoop : ∀ (fuel : Nat) {next : NextPackets} {b c : BinaryBuffer},
    SameView b c → NoneEarly next (frameInfos fuel c) →
    Yields (World.AtTurn next) (frameLoop fuel b) fun _ w => w.this.outOfOrderPacketBuffer = ∅
  | 0, _, _, _, _, _ => Yields.throw _
  | fuel + 1, next, b, c, hview, hturns => by
    unfold frameLoop
    refine Yields.ite (fun hlong => ?_) fun _ => Yields.pure fun _ h => h.stored
    refine Yields.bind (yields_onBuffer _) fun r => Yields.of_and fun hread => ?_
    obtain ⟨info, c', hread', rfl, hview'⟩ :=
      (reading_readNext FrameInfo).simulates b c r.1 r.2 hview hread
    unfold frameInfos at hturns
    rw [hview.remaining_eq, if_pos hlong, hread'] at hturns
    refine Yields.bind (keepsTurns_emit _) fun _ => ?_
    split
    · exact Yields.throw _
    · exact Yields.bind (yields_handFrame hturns.1) fun _ =>
        yields_frameLoop fuel (hview'.skipn _) hturns.2

theorem keepsTurns_advanceWindow (seq expected : UInt24) :
    KeepsTurns next (advanceWindow seq expected) := by
  refine Yields.bind (Q := fun _ => World.AtTurn next) (Yields.get_bind fun _ _ =>
    Yields.ite (fun _ => ?_) fun _ => Yields.pure fun _ h => h) fun _ w u w' hw hrun => ?_
  · split
    · intro w u w' hw hrun
      cases hrun
      exact ⟨hw.stored, hw.ordered⟩
    · exact Yields.throw _
  · cases hrun
    exact ⟨hw.stored, hw.ordered⟩

/-- Behind its header, a datagram is the bytes from the fifth one on. -/
theorem sameView_between {id : UInt8} {seq rest : Bytes} (hset : IsFrameSet b id seq rest) :
    SameView (b.between (id :: seq) rest) { bytes := b.bytes, index := 4 } := by
  refine ⟨hset.bytes, ?_⟩
  show 4 = (id :: seq).length
  rw [List.length_cons, hset.length_seq]

/-- A frame set that comes in turn leaves the store empty. -/
theorem yields_processFrames {id : UInt8} {seq rest : Bytes} (hset : IsFrameSet b id seq rest)
    {w : World} (hstored : w.this.outOfOrderPacketBuffer = ∅)
    (hturn : w.this.TakesInTurn b.bytes) :
    Yields (fun w₀ => w₀ = w)
      (processFrames (IsFrameSet.number seq) (b.between (id :: seq) rest)) fun _ w' =>
        w'.this.outOfOrderPacketBuffer = ∅ := by
  refine Yields.get_bind ?_
  rintro w₀ rfl
  refine Yields.ite (fun _ => Yields.pure fun _ h => h ▸ hstored) fun hnew => ?_
  have hnumber := (frameSetNumber?_eq_some (b := { bytes := b.bytes }) rfl).mpr
    ⟨id, seq, rest, ⟨hset.bytes, rfl, hset.id, hset.length_seq⟩, rfl⟩
  have hturns := hturn _ hnumber hnew
  rw [show b.bytes.length = (b.between (id :: seq) rest).size from
    congrArg List.length hset.bytes] at hturns
  refine Yields.bind (Q := fun _ => World.AtTurn w₀.this.orderedBufferNextPackets) ?_ fun _ =>
    yields_frameLoop _ (sameView_between hset) hturns
  rintro w u w' rfl hadvance
  exact keepsTurns_advanceWindow _ _ w u w' ⟨hstored, rfl⟩ hadvance

/-- **A datagram whose frames are in their turns stores nothing.** -/
theorem stores_nothing {w w' : World} (hstart : b.index = 0)
    (hstored : w.this.outOfOrderPacketBuffer = ∅) (hturn : w.this.TakesInTurn b.bytes)
    (hrun : (processPacket b).run w = .ok ⟨⟩ w') : w'.this.outOfOrderPacketBuffer = ∅ := by
  by_cases hset : ∃ id seq rest, IsFrameSet b id seq rest
  · obtain ⟨id, seq, rest, hset⟩ := hset
    rw [hset.processPacket_eq] at hrun
    obtain ⟨u, w₁, hframes, hrest⟩ := bind_eq_ok hrun
    have hstored₁ := yields_processFrames hset hstored hturn w u w₁ rfl (guarded_eq_ok hframes)
    cases hrest
    exact hstored₁
  · have hsettles := processPacket_settles hstart fun id seq rest hb => hset ⟨id, seq, rest, hb⟩
    exact (hsettles.of_run hrun).stored.trans hstored

end Turns

/-! ## Runs -/

/-- What a step brings to a client, if anything, the client takes in turn. -/
def ServerWorld.TakesInTurn (w : ServerWorld) : ServerStep → Prop
  | .receive (.datagram bytes address) =>
    ∀ client ∈ w.this.router.connectedClients.lookup address,
      bytes.length ≤ w.host.company.bufferSize →
        ¬ w.this.router.timeout < w.host.clock 0 - client.lastPacket → client.TakesInTurn bytes
  | _ => True

instance (client : RakroServerClient) (bytes : Bytes) : Decidable (client.TakesInTurn bytes) :=
  inferInstanceAs (Decidable (∀ number ∈ ({ bytes } : BinaryBuffer).frameSetNumber?,
    ¬ number < client.nextExpectedSeq → NoneEarly client.orderedBufferNextPackets
      (frameInfos (bytes.length + 1) { bytes, index := 4 })))

instance (w : ServerWorld) : (step : ServerStep) → Decidable (w.TakesInTurn step)
  | .receive (.datagram bytes address) => inferInstanceAs (Decidable
      (∀ client ∈ w.this.router.connectedClients.lookup address,
        bytes.length ≤ w.host.company.bufferSize →
          ¬ w.this.router.timeout < w.host.clock 0 - client.lastPacket →
            client.TakesInTurn bytes))
  | .receive (.failed _) => isTrue trivial
  | .updateServerId _ => isTrue trivial

/-- Every step of a run, in the state it starts in. -/
def AlwaysInTurn (start : ServerWorld) (steps : List ServerStep) : Prop :=
  Along ServerStep.run ServerWorld.TakesInTurn start steps

instance (start : ServerWorld) (steps : List ServerStep) :
    Decidable (AlwaysInTurn start steps) :=
  inferInstanceAs (Decidable (Along ServerStep.run ServerWorld.TakesInTurn start steps))

section Runs

variable {step : ServerStep} {w w' : ServerWorld}

/-- **A step that brings no frame ahead of its turn leaves nothing stored.** -/
theorem nothingStored_step (hnothing : w.NothingStored) (hturn : w.TakesInTurn step)
    (hrun : step.run.run w = .ok ⟨⟩ w') : w'.NothingStored := by
  unfold ServerWorld.NothingStored at hnothing ⊢
  cases stepFront hrun with
  | quiet _ _ _ hthis _ =>
    rw [hthis]
    exact hnothing
  | first _ _ _ _ hthis _ =>
    rw [hthis]
    exact hnothing
  | @second bytes address request mid w₁ rw _ _ _ _ htime hconnect hthis _ =>
    have hsame : w₁.routing.router = w.this.router := congrArg RakServer.router htime.this
    rw [hthis]
    by_cases hmem : address ∈ w₁.routing.router.connectedClients
    · cases (run_connectClient_known hmem).symm.trans hconnect
      dsimp only
      rw [hsame]
      exact hnothing
    · cases hconnect.symm.trans (run_connectClient_new hmem)
      unfold RouterWorld.joined
      dsimp only
      rw [hsame]
      exact hnothing.insert rfl
  | @routed bytes address b w₁ rw hbrings _ hstart hbytes htime hroute hthis _ =>
    obtain ⟨rfl, hlen⟩ := hbrings
    have hsame : w₁.routing.router = w.this.router := congrArg RakServer.router htime.this
    rw [hthis]
    dsimp only
    cases routeFront address b w₁.routing with
    | unknown _ hroute' hrouter _ =>
      cases hroute'.symm.trans hroute
      rw [hrouter, hsame]
      exact hnothing
    | timeout _ _ hroute' herase _ =>
      cases hroute'.symm.trans hroute
      rw [herase, hsame]
      exact hnothing.erase address
    | @returned client w₂ hclient htimeout hpacket hroute' =>
      cases hroute'.symm.trans hroute
      have hclock : w₁.routing.host.clock = w.host.clock := htime.clock
      rw [hsame] at hclient htimeout
      rw [hclock] at htimeout
      have hstored := stores_nothing hstart (hnothing address client hclient)
        (by rw [hbytes]; exact hturn client hclient hlen htimeout) hpacket
      show AllEntries _ (w₁.routing.router.connectedClients.insert address w₂.this)
      rw [hsame]
      exact hnothing.insert hstored
    | threw _ _ _ hroute' => cases hroute'.symm.trans hroute

/--
**In every state of a run in which no client takes a frame ahead of its turn, every view that a
client stores owns its buffer**, which is rented as long, and shows what has been stored.
-/
theorem storedOwned_of_reaches {config : ServerConfig} {start : ServerWorld}
    (hstart : start.StartedWith config) {steps : List ServerStep}
    (hturns : AlwaysInTurn start steps) (hreach : Reaches ServerStep.run start steps w) :
    w.StoredOwned := by
  by_cases hpositive : config.Positive
  case neg =>
    unfold ServerWorld.StoredOwned
    rw [unconnected_of_reaches hpositive hstart hreach]
    exact allEntries_empty _
  refine (storedOwned_iff (settled_of_reaches hpositive hstart hreach).pooled).mpr ?_
  obtain ⟨w₀, hfresh, -, hrun⟩ := hstart
  have hstarted : start.Started := ⟨w₀, hfresh, hrun⟩
  have hnothing : start.NothingStored := by
    unfold ServerWorld.NothingStored
    rw [hstarted.connected]
    exact allEntries_empty _
  exact hreach.holds_along hnothing hturns fun _ _ _ => nothingStored_step

end Runs

/-- An ordered frame in a datagram of its own, of a client that has just connected. -/
def bringsFrame (k : ℕ) : ServerStep :=
  .receive (.datagram (0x80 :: leBytes 3 0 ++ (streamFrame k).bytes) {})

/-- A frame in its turn is followed by a request, and the answer to that is kept. -/
theorem storedOwned_inTurn : ∃ w,
    Reaches ServerStep.run threeServer (handshake 6 ++ [bringsFrame 0, asks 1]) w ∧
      (∃ client ∈ w.this.router.connectedClients.lookup {}, client.ackBuffer.keys ≠ []) ∧
        w.StoredOwned := by
  have hreach : Reaches ServerStep.run threeServer (handshake 6 ++ [bringsFrame 0, asks 1]) _ :=
    reaches_of_succeeds (by decide +kernel)
  exact ⟨_, hreach, by decide +kernel,
    storedOwned_of_reaches threeServer_started (by decide +kernel) hreach⟩

/-- The second frame of the channel is stored, and its buffer is back in the pool. -/
theorem not_storedOwned_early : ∃ w,
    Reaches ServerStep.run threeServer (handshake 6 ++ [bringsFrame 1]) w ∧ ¬ w.StoredOwned := by
  have hreach : Reaches ServerStep.run threeServer (handshake 6 ++ [bringsFrame 1]) _ :=
    reaches_of_succeeds (by decide +kernel)
  have hstores : ∃ client ∈ (afterAll ServerStep.run threeServer
      (handshake 6 ++ [bringsFrame 1])).this.router.connectedClients.lookup {},
      client.outOfOrderPacketBuffer.keys ≠ [] := by
    decide +kernel
  generalize afterAll ServerStep.run threeServer (handshake 6 ++ [bringsFrame 1]) = w
    at hreach hstores
  refine ⟨w, hreach, fun howned => ?_⟩
  have hsettled := settled_of_reaches ⟨by decide, by decide, by decide⟩ threeServer_started hreach
  obtain ⟨client, hclient, hkeys⟩ := hstores
  rw [(storedOwned_iff hsettled.pooled).mp howned {} client hclient] at hkeys
  exact hkeys rfl

end Rakro
