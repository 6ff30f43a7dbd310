import Rakro.Properties.OrderedDelivery
import Rakro.Properties.FrameSet
import Rakro.Infra.Holdings

/-!
# When `process_frame` returns

A frame is got through when its channel exists and each payload that it makes `process_data` see is
handled: its own, once or twice, and in between the one stored under its key. A sequenced frame asks
for a build without assertions, and one that is stored already for a debug instrument that lets it
go.
-/

namespace Rakro

open Infra BinaryBuffer

/-! ## Stored packets -/

/-- The position of a frame that an order key names. -/
structure OrderInformation.IsPosition (order : OrderInformation) : Prop where
  channel_lt : order.orderChannel.toNat < maxOrderChannels
  canonical : order.orderFrameIndex.Canonical

/-- The key that a packet with this order is stored under. -/
def OrderInformation.key (order : OrderInformation) : OrderKey :=
  constructOrderKey order.orderChannel order.orderFrameIndex

/-- The channel is in the upper five bits of the key, the index in the lower ones. -/
theorem OrderInformation.IsPosition.toNat_key {order : OrderInformation} (h : order.IsPosition) :
    order.key.val.toNat = order.orderChannel.toNat * 2 ^ 27 + order.orderFrameIndex.toNat := by
  have hchannel : order.orderChannel.toNat < 32 := h.channel_lt
  have hindex : order.orderFrameIndex.toNat < 2 ^ 24 := h.canonical
  show (order.orderChannel.toUInt32 <<< 27 ||| order.orderFrameIndex.value).toNat = _
  rw [UInt32.toNat_or, UInt32.toNat_shiftLeft, UInt8.toNat_toUInt32]
  show order.orderChannel.toNat <<< 27 % 2 ^ 32 ||| order.orderFrameIndex.toNat = _
  rw [Nat.shiftLeft_eq, Nat.mod_eq_of_lt (by omega), ← Nat.shiftLeft_eq,
    ← Nat.shiftLeft_add_eq_or_of_lt (by omega), Nat.shiftLeft_eq]

/-- Two positions have two keys. -/
theorem OrderInformation.IsPosition.eq_of_key {order order' : OrderInformation}
    (h : order.IsPosition) (h' : order'.IsPosition) (heq : order.key = order'.key) :
    order = order' := by
  have hkey : order.key.val.toNat = order'.key.val.toNat := congrArg (·.val.toNat) heq
  have hindex : order.orderFrameIndex.toNat < 2 ^ 24 := h.canonical
  have hindex' : order'.orderFrameIndex.toNat < 2 ^ 24 := h'.canonical
  rw [h.toNat_key, h'.toNat_key] at hkey
  obtain ⟨index, channel⟩ := order
  obtain ⟨index', channel'⟩ := order'
  have hi : index = index' := UInt24.toNat_inj.mp (by dsimp only at hkey hindex hindex' ⊢; omega)
  have hc : channel = channel' := UInt8.toNat_inj.mp (by dsimp only at hkey hindex hindex' ⊢; omega)
  rw [hi, hc]

/-- A stored packet: an ordered frame under its own key, nothing of it read. -/
structure StoredUnder (key : OrderKey) (val : PacketInformation) : Prop where
  order : ∃ order, val.packetInfo.orderInfo = some order ∧ order.IsPosition ∧ order.key = key
  start : val.rawData.index = 0

/-- Every packet that a client stores is stored so. -/
def RakroServerClient.StoresByKey (client : RakroServerClient) : Prop :=
  ∀ key val, client.outOfOrderPacketBuffer.lookup key = some val → StoredUnder key val

/-- The client's packets are stored under their own keys. -/
def World.StoresByKey (w : World) : Prop := w.this.StoresByKey

/-- Only what is stored matters. -/
theorem storesByKey_of_eq {w w' : World} (h : w.StoresByKey)
    (heq : w'.this.outOfOrderPacketBuffer = w.this.outOfOrderPacketBuffer) : w'.StoresByKey := by
  unfold World.StoresByKey RakroServerClient.StoresByKey
  rw [heq]
  exact h

/-- An answer leaves what is stored under its keys. -/
theorem Answers.storesByKey {w w' : World} (h : Answers w w') (hw : w.StoresByKey) :
    w'.StoresByKey := storesByKey_of_eq hw h.stored

theorem World.StoresByKey.taken {w : World} (h : w.StoresByKey) (key : OrderKey) :
    (w.taken key).StoresByKey := AllEntries.erase h key

/-- The states between which stored packets stay stored so. -/
def KeepsStore (w w' : World) : Prop := w.StoresByKey → w'.StoresByKey

instance : IsPreorder World KeepsStore where
  refl _ := id
  trans _ _ _ h h' := h' ∘ h

/-- What a frame does, but for storing it, leaves the packets under their keys. -/
theorem keepsStore_frameBound : FrameBound KeepsStore where
  answers _ _ := Answers.storesByKey
  data _ _ hw := storesByKey_of_eq hw rfl
  counters _ _ _ hw := storesByKey_of_eq hw rfl
  taken _ key hw := hw.taken key

/-! ## The loop over stored packets -/

/-- The packet under the key is processed, and behind it the loop ends. -/
theorem drain_some_eq {order : OrderInformation} (hposition : order.IsPosition) {n : Nat}
    {w : World} {val : PacketInformation} (hstored : StoredUnder order.key val)
    (hval : w.this.outOfOrderPacketBuffer.lookup order.key = some val) :
    (drain order.orderChannel (n + 2) order.key).run w =
      (processData (val.rawData.reload w.host.company) >>= fun _ =>
        bumpOrdered order.orderChannel).run (w.taken order.key) := by
  obtain ⟨order', horder, hposition', hkey⟩ := hstored.order
  obtain rfl := hposition'.eq_of_key hposition hkey
  conv_lhs => unfold drain
  rw [run_get_bind]
  rw [hval]
  dsimp only
  refine (run_bind_of_ok (run_modifyThis _)).trans ((run_get_bind _ _).trans ?_)
  rw [horder]
  dsimp only
  generalize hshown : val.rawData.reload w.host.company = shown
  show (processData shown >>= fun _ => bumpOrdered order'.orderChannel >>= fun _ =>
    drain order'.orderChannel (n + 1) order'.key).run (w.taken order'.key) = _
  cases hdata : (processData shown).run (w.taken order'.key) with
  | error e w' => rw [run_bind_of_error hdata, run_bind_of_error hdata]
  | ok u w' =>
    -- the loop goes on with the key of the packet it has just taken out
    have hnone : (w'.bumped order'.orderChannel
        hposition'.channel_lt).this.outOfOrderPacketBuffer.lookup order'.key = none := by
      have hans := (processData_answers shown (w.taken order'.key)).stored
      rw [after_of_ok hdata] at hans
      show w'.this.outOfOrderPacketBuffer.lookup order'.key = none
      rw [hans]
      exact AList.lookup_erase _ _
    rw [run_bind_of_ok hdata, run_bind_of_ok hdata,
      run_bind_of_ok (run_bumpOrdered hposition'.channel_lt w'), run_drain_none hnone,
      run_bumpOrdered hposition'.channel_lt w']

/-- One packet at least is stored then, so the fuel is enough for it. -/
theorem run_drain_stored {order : OrderInformation} (hposition : order.IsPosition) {w : World}
    (hw : w.StoresByKey) {val : PacketInformation}
    (hval : w.this.outOfOrderPacketBuffer.lookup order.key = some val) :
    (drain order.orderChannel (w.this.outOfOrderPacketBuffer.keys.length + 1) order.key).run w =
      (processData (val.rawData.reload w.host.company) >>= fun _ =>
        bumpOrdered order.orderChannel).run (w.taken order.key) := by
  have hmem : order.key ∈ w.this.outOfOrderPacketBuffer.keys :=
    AList.lookup_isSome.mp (by rw [hval]; rfl)
  obtain ⟨n, hn⟩ : ∃ n, w.this.outOfOrderPacketBuffer.keys.length = n + 1 :=
    ⟨_, (Nat.succ_pred_eq_of_pos (List.length_pos_of_mem hmem)).symm⟩
  rw [hn]
  exact drain_some_eq hposition (hw _ _ hval) hval

/-! ## Ordered frames -/

/--
A payload that has been processed in its turn is processed again, behind the packet that is stored
under its key. Of that packet only the place is kept, so it counts what its memory holds by then.
-/
def TurnReturns (payload : Bytes) (key : OrderKey) (w : World) : Prop :=
  match w.this.outOfOrderPacketBuffer.lookup key with
  | none => Handled w.host.company payload
  | some val =>
    Handled w.host.company (val.rawData.reload w.host.company).bytes ∧
      Handled (after (processData (val.rawData.reload w.host.company)) (w.taken key)).host.company
        payload

/-- A frame that is stored already is let go. -/
def LetsGo (b : BinaryBuffer) (info : FrameInfo) (w : World) : Prop :=
  ∃ debugger, w.this.debugger = some debugger ∧
    debugger.unexpectedExistOfDataInOofBuffer b.bytes info = false

/-- An ordered frame that is got through in the state `w`. -/
structure OrderedReturns (b : BinaryBuffer) (info : FrameInfo) (order : OrderInformation)
    (w : World) : Prop where
  channel_lt : order.orderChannel.toNat < maxOrderChannels
  turn : w.this.orderedBufferNextPackets[order.orderChannel.toNat]
      = order.orderFrameIndex.getValue →
    Handled w.host.company b.bytes ∧
      TurnReturns b.bytes order.key (after (processData b) (w.bumped order.orderChannel channel_lt))
  early : w.this.orderedBufferNextPackets[order.orderChannel.toNat]
      < order.orderFrameIndex.getValue →
    if order.key ∈ w.this.outOfOrderPacketBuffer then LetsGo b info w
    else Handled w.host.company b.bytes

/-- At its start, the payload of a buffer is all of it. -/
theorem succeeds_processData_start {b : BinaryBuffer} (hstart : b.index = 0) (w : World) :
    Succeeds (processData b) w ↔ Handled w.host.company b.bytes := by
  have hslice : b.remainingSlice = b.bytes := by
    unfold remainingSlice
    rw [hstart, List.drop_zero]
  rw [succeeds_processData (by rw [hstart]; exact Nat.zero_le _), hslice]

/-- The check of a stored frame passes when the instrument lets it go. -/
theorem succeeds_alreadyStored (b : BinaryBuffer) (info : FrameInfo) (order : OrderInformation)
    (w : World) : Succeeds (alreadyStored b info order) w ↔ LetsGo b info w := by
  have hdebugger := (within_debug (.unexpectedExistOfDataInOofBuffer b.bytes info) w).debugger
  unfold alreadyStored
  rw [succeeds_bind_of_ok (run_debug _ w), succeeds_bind_of_ok (run_release b), succeeds_get_bind]
  dsimp only
  rw [hdebugger]
  unfold LetsGo
  cases w.this.debugger with
  | none => exact iff_of_false (not_succeeds_throw _ _) (by rintro ⟨_, h, -⟩; cases h)
  | some debugger =>
    dsimp only
    cases hthrow : debugger.unexpectedExistOfDataInOofBuffer b.bytes info with
    | true =>
      refine iff_of_false (not_succeeds_throw _ _) ?_
      rintro ⟨_, h, hfalse⟩
      cases h
      rw [hthrow] at hfalse
      cases hfalse
    | false => exact iff_of_true (succeeds_pure _ _) ⟨debugger, rfl, hthrow⟩

/-- Loading a view again leaves the cursor. -/
theorem index_reload (b : BinaryBuffer) (company : BufferCompany) :
    (b.reload company).index = b.index := by
  unfold reload
  split <;> rfl

/-- What follows a payload in its turn: the loop over stored packets, and the payload once more. -/
theorem succeeds_behind_turn {b : BinaryBuffer} (hstart : b.index = 0) {order : OrderInformation}
    (hposition : order.IsPosition) {w : World} (hw : w.StoresByKey) :
    Succeeds (drain order.orderChannel (w.this.outOfOrderPacketBuffer.keys.length + 1) order.key >>=
      fun _ => processData b.movedFrom) w ↔ TurnReturns b.bytes order.key w := by
  have hmoved : b.movedFrom.index = 0 := hstart
  unfold TurnReturns
  cases hval : w.this.outOfOrderPacketBuffer.lookup order.key with
  | none =>
    rw [succeeds_bind_of_ok (run_drain_none hval), succeeds_processData_start hmoved]
    rfl
  | some val =>
    have hstored := hw _ _ hval
    have hdrain := run_drain_stored hposition hw hval
    have hhandled : Succeeds (processData (val.rawData.reload w.host.company)) (w.taken order.key) ↔
        Handled w.host.company (val.rawData.reload w.host.company).bytes :=
      succeeds_processData_start ((index_reload _ _).trans hstored.start) _
    dsimp only
    rw [← hhandled]
    by_cases hdata : Succeeds (processData (val.rawData.reload w.host.company)) (w.taken order.key)
    · obtain ⟨u, hrun⟩ := hdata.run
      rw [run_bind_of_ok hrun, run_bumpOrdered hposition.channel_lt] at hdrain
      rw [succeeds_bind_of_ok hdrain, succeeds_processData_start hmoved, and_iff_right hdata]
      rfl
    · obtain ⟨e, hrun⟩ := run_of_not_succeeds hdata
      rw [run_bind_of_error hrun] at hdrain
      exact iff_of_false (not_succeeds_of_error (run_bind_of_error hdrain)) fun h => hdata h.1

/-- The rest of `process_frame`, behind the branch of ordered frames. -/
def processAfterwards : Option BinaryBuffer → ClientM PUnit
  | some packetData => processData packetData
  | none => pure ⟨⟩

/-- A frame in turn is got through when its payload is handled and its turn returns. -/
theorem succeeds_ordered_turn {b : BinaryBuffer} {info : FrameInfo} (hstart : b.index = 0)
    {order : OrderInformation} (hcanonical : order.orderFrameIndex.Canonical)
    (hchannel : order.orderChannel.toNat < maxOrderChannels) {w : World} (hw : w.StoresByKey)
    (heq : w.this.orderedBufferNextPackets[order.orderChannel.toNat]
      = order.orderFrameIndex.getValue) :
    Succeeds (processOrdered b info order >>= processAfterwards) w ↔
      Handled w.host.company b.bytes ∧ TurnReturns b.bytes order.key
        (after (processData b) (w.bumped order.orderChannel hchannel)) := by
  have hstores : (after (processData b) (w.bumped order.orderChannel hchannel)).StoresByKey :=
    (processData_answers b _).storesByKey (storesByKey_of_eq hw rfl)
  have hhandled : Succeeds (processData b) (w.bumped order.orderChannel hchannel) ↔
      Handled w.host.company b.bytes := succeeds_processData_start hstart _
  unfold processOrdered
  rw [bind_assoc, succeeds_bind_of_ok (run_orderedNext hchannel w), if_pos heq, bind_assoc,
    succeeds_bind_of_ok (run_bumpOrdered hchannel w), bind_assoc, ← hhandled]
  by_cases hdata : Succeeds (processData b) (w.bumped order.orderChannel hchannel)
  · obtain ⟨u, hrun⟩ := hdata.run
    rw [and_iff_right hdata, ← succeeds_behind_turn hstart ⟨hchannel, hcanonical⟩ hstores,
      succeeds_bind_of_ok hrun, bind_assoc, succeeds_get_bind, bind_assoc]
    rfl
  · obtain ⟨e, hrun⟩ := run_of_not_succeeds hdata
    exact iff_of_false (not_succeeds_of_error (run_bind_of_error hrun)) fun h => hdata h.1

/-- An early frame is got through when it is let go, or, not stored yet, handled. -/
theorem succeeds_ordered_early {b : BinaryBuffer} {info : FrameInfo} (hstart : b.index = 0)
    {order : OrderInformation} (hchannel : order.orderChannel.toNat < maxOrderChannels) {w : World}
    (hlt : w.this.orderedBufferNextPackets[order.orderChannel.toNat]
      < order.orderFrameIndex.getValue) :
    Succeeds (processOrdered b info order >>= processAfterwards) w ↔
      if order.key ∈ w.this.outOfOrderPacketBuffer then LetsGo b info w
      else Handled w.host.company b.bytes := by
  by_cases hkey : order.key ∈ w.this.outOfOrderPacketBuffer
  · rw [if_pos hkey]
    unfold processOrdered
    rw [bind_assoc, succeeds_bind_of_ok (run_orderedNext hchannel w),
      if_neg (fun h => by simp [h] at hlt), if_neg (fun h => UInt32.lt_asymm h hlt), bind_assoc]
    refine (succeeds_bind_of_ok (run_modifyThis _)).trans ?_
    rw [bind_assoc]
    refine (succeeds_get_bind _ _).trans ?_
    dsimp only
    rw [if_pos (show constructOrderKey _ _ ∈ _ from hkey), bind_assoc]
    exact (succeeds_bind_iff fun _ _ => ⟨_, _, rfl⟩).trans (succeeds_alreadyStored b info order _)
  · rw [if_neg hkey, succeeds_bind_of_ok (run_processOrdered_early hchannel hlt hkey)]
    exact succeeds_processData_start (b := b.movedFrom) hstart _

/-- **An ordered frame is got through on these conditions.** -/
theorem succeeds_ordered {b : BinaryBuffer} {info : FrameInfo} (hstart : b.index = 0)
    {order : OrderInformation} (hcanonical : order.orderFrameIndex.Canonical) {w : World}
    (hw : w.StoresByKey) : Succeeds (processOrdered b info order >>= processAfterwards) w ↔
      OrderedReturns b info order w := by
  by_cases hchannel : order.orderChannel.toNat < maxOrderChannels
  · by_cases heq : w.this.orderedBufferNextPackets[order.orderChannel.toNat]
      = order.orderFrameIndex.getValue
    · rw [succeeds_ordered_turn hstart hcanonical hchannel hw heq]
      refine ⟨fun h => ⟨hchannel, fun _ => h, fun h => ?_⟩, fun h => h.turn heq⟩
      rw [heq] at h
      exact absurd h (UInt32.lt_irrefl _)
    -- out of turn, the frame is late or early
    rcases UInt32.lt_or_lt_of_ne (Ne.symm heq) with hlt | hgt
    · refine iff_of_true ?_
        ⟨hchannel, fun h => absurd h heq, fun h => absurd hlt (UInt32.lt_asymm h)⟩
      rw [succeeds_bind_of_ok (run_processOrdered_late hchannel hlt)]
      exact succeeds_pure _ _
    · rw [succeeds_ordered_early hstart hchannel hgt]
      exact ⟨fun h => ⟨hchannel, fun h => absurd h heq, fun _ => h⟩, fun h => h.early hgt⟩
  · refine iff_of_false (fun h => ?_) fun h => hchannel h.channel_lt
    unfold processOrdered at h
    exact not_succeeds_orderedNext hchannel w h.of_bind.of_bind

/-! ## Sequenced frames -/

/-- A sequenced frame that is got through in the state `w`. -/
def SequencedReturns (b : BinaryBuffer) (info : FrameInfo) (index : UInt24) (w : World) : Prop :=
  ∃ order, info.orderInfo = some order ∧ w.host.ndebug = true ∧
    ∃ _ : order.orderChannel.toNat < maxOrderChannels,
      (w.this.sequencedPacketsNextPacket[order.orderChannel.toNat] ≤ index.getValue ∧
          w.this.orderedBufferNextPackets[order.orderChannel.toNat]
            ≤ order.orderFrameIndex.getValue →
        Handled w.host.company b.bytes)

theorem run_sequencedNext {channel : UInt8} (h : channel.toNat < maxOrderChannels) (w : World) :
    (sequencedNext channel).run w = .ok w.this.sequencedPacketsNextPacket[channel.toNat] w := by
  unfold sequencedNext
  rw [run_get_bind]
  rw [Vector.getElem?_eq_getElem h]
  rfl

theorem not_succeeds_sequencedNext {channel : UInt8} (h : ¬ channel.toNat < maxOrderChannels)
    (w : World) : ¬ Succeeds (sequencedNext channel) w := by
  unfold sequencedNext
  rw [succeeds_get_bind, Vector.getElem?_eq_none (Nat.le_of_not_lt h)]
  exact not_succeeds_throw _ _

/-- An assertion passes when its condition holds and assertions are off. -/
theorem run_rakroAssert {condition : Bool} {w : World} (h : condition && w.host.ndebug) :
    (rakroAssert condition).run w = .ok ⟨⟩ w := by
  unfold rakroAssert
  rw [run_get_bind]
  rw [if_pos h]
  rfl

theorem not_succeeds_rakroAssert {condition : Bool} {w : World}
    (h : ¬ (condition && w.host.ndebug)) : ¬ Succeeds (rakroAssert condition) w := by
  unfold rakroAssert
  rw [succeeds_get_bind, if_neg h]
  exact not_succeeds_throw _ _

theorem succeeds_sequenced {b : BinaryBuffer} {info : FrameInfo} (hstart : b.index = 0)
    (index : UInt24) (w : World) :
    Succeeds (processSequenced b info index) w ↔ SequencedReturns b info index w := by
  unfold processSequenced SequencedReturns
  rw [succeeds_bind_of_ok (run_debug _ w)]
  have hans := within_debug (.warningLog
    "Recived a sequenced packet, this implementation is not sound and may break") w
  have hcompany := debug_company (.warningLog
    "Recived a sequenced packet, this implementation is not sound and may break") w
  generalize after (debug _) w = w' at hans hcompany ⊢
  by_cases hassert : info.orderInfo.isSome && w'.host.ndebug
  · rw [succeeds_bind_of_ok (run_rakroAssert hassert)]
    rw [hans.ndebug, Bool.and_eq_true] at hassert
    obtain ⟨horder, hndebug⟩ := hassert
    obtain ⟨order, horder⟩ := Option.isSome_iff_exists.mp horder
    rw [horder]
    dsimp only
    by_cases hchannel : order.orderChannel.toNat < maxOrderChannels
    · rw [succeeds_bind_of_ok (run_sequencedNext hchannel w'),
        succeeds_bind_of_ok (run_orderedNext hchannel w'), hans.ordered, hans.sequenced]
      split
      · next hnext =>
        refine (succeeds_bind_of_ok (run_modifyThis _)).trans ?_
        rw [succeeds_processData_start hstart]
        constructor
        · intro h
          exact ⟨order, rfl, hndebug, hchannel, fun _ => hcompany ▸ h⟩
        · rintro ⟨_, ⟨⟩, -, _, h⟩
          show Handled w'.host.company b.bytes
          rw [hcompany]
          exact h hnext
      · next hnext =>
        rw [succeeds_bind_of_ok (run_debug _ w')]
        exact iff_of_true ⟨_, _, run_release b⟩
          ⟨order, rfl, hndebug, hchannel, fun h => absurd h hnext⟩
    · refine iff_of_false (fun h => not_succeeds_sequencedNext hchannel w' h.of_bind) ?_
      rintro ⟨_, ⟨⟩, -, h, -⟩
      exact hchannel h
  · refine iff_of_false (fun h => not_succeeds_rakroAssert hassert h.of_bind) ?_
    rintro ⟨order, horder, hndebug, -⟩
    rw [hans.ndebug, horder, hndebug] at hassert
    exact hassert rfl

/-! ## `process_frame` -/

/-- A frame that `process_frame` gets through in the state `w`. -/
def FrameReturns (b : BinaryBuffer) (info : FrameInfo) (w : World) : Prop :=
  match info.sequenceFrameIndex, info.orderInfo with
  | some index, _ => SequencedReturns b info index w
  | none, some order => OrderedReturns b info order w
  | none, none => Handled w.host.company b.bytes

/-- The position of a frame, if it has one, fits into the order key. -/
def FrameInfo.OrderCanonical (info : FrameInfo) : Prop :=
  ∀ order ∈ info.orderInfo, order.orderFrameIndex.Canonical

/-- **`process_frame` returns exactly on the frames it gets through.** -/
theorem succeeds_processFrame {b : BinaryBuffer} {info : FrameInfo} (hstart : b.index = 0)
    (hinfo : info.OrderCanonical) {w : World} (hw : w.StoresByKey) :
    Succeeds (processFrame b info) w ↔ FrameReturns b info (w.log (.frame info b.bytes)) := by
  unfold processFrame FrameReturns
  rw [succeeds_bind_of_ok (run_emit _)]
  cases info.sequenceFrameIndex with
  | some index => exact succeeds_sequenced hstart index _
  | none =>
    dsimp only
    unfold orderFrame
    cases horder : info.orderInfo with
    | some order => exact succeeds_ordered hstart (hinfo order horder) (storesByKey_of_eq hw rfl)
    | none => exact succeeds_processData_start hstart _

/-! ## Stored packets stay stored by key -/

/-- A frame that is stored has a position, and its key is that of the position. -/
theorem World.StoresByKey.inserted {w : World} (hw : w.StoresByKey) {b : BinaryBuffer}
    {info : FrameInfo} {order : OrderInformation} (hstart : b.index = 0)
    (horder : info.orderInfo = some order) (hposition : order.IsPosition) :
    (w.inserted b info order).StoresByKey :=
  AllEntries.insert hw ⟨⟨order, horder, hposition, rfl⟩, hstart⟩

/-! ## The frames of a datagram -/

/-- The index of a position has been read from three bytes. -/
theorem canonical_of_readOrder {b b' : BinaryBuffer} {order : OrderInformation}
    (h : readOrderInformation.run b = .ok order b') :
    order.orderFrameIndex.Canonical := by
  obtain ⟨index, b₁, h₁, h⟩ := bind_eq_ok h
  obtain ⟨channel, b₂, -, h⟩ := bind_eq_ok h
  cases h
  exact yields_uint24 _ _ _ trivial h₁

/-- A field that is there has been read. -/
theorem readIf_eq_ok {α : Type} {c : Bool} {m : BufM α} {b b' : BinaryBuffer} {v : Option α}
    (h : (readIf c m).run b = .ok v b') : ∀ x ∈ v, ∃ b'', m.run b = .ok x b'' := by
  intro x hx
  cases c with
  | false =>
    cases h
    cases hx
  | true =>
    obtain ⟨y, b'', hrun, h⟩ := bind_eq_ok h
    cases h
    cases hx
    exact ⟨_, hrun⟩

/-- The position of a frame has been read from its header, behind the flags and the length. -/
theorem ParsedFrame.reads_order {f : ParsedFrame} {order : OrderInformation}
    (horder : f.info.orderInfo = some order) : ∃ (b b' : BinaryBuffer) (p r : Bytes),
      readOrderInformation.run (b.between p r) = .ok order b' ∧ 3 + r.length ≤ f.header.length := by
  have h := f.reads {} [] []
  obtain ⟨_, b₀, hcheck, h⟩ := bind_eq_ok h
  obtain rfl := boundsCheck_eq_ok hcheck
  obtain ⟨flags, b₁, h₁, h⟩ := bind_eq_ok h
  obtain ⟨e₁, r₁, hr₁, rfl, -, hl₁⟩ := scans_nextByte _ _ _ _ _ h₁
  obtain ⟨leng, b₂, h₂, h⟩ := bind_eq_ok h
  obtain ⟨e₂, r₂, rfl, rfl, -, hl₂⟩ := scans_uint16 _ _ _ _ _ h₂
  obtain ⟨ri, b₃, h₃, h⟩ := bind_eq_ok h
  obtain ⟨e₃, r₃, rfl, rfl, -, -⟩ := scans_readIf scans_uint24 _ _ _ _ _ _ h₃
  obtain ⟨si, b₄, h₄, h⟩ := bind_eq_ok h
  obtain ⟨e₄, r₄, rfl, rfl, -, -⟩ := scans_readIf scans_uint24 _ _ _ _ _ _ h₄
  obtain ⟨oi, b₅, h₅, h⟩ := bind_eq_ok h
  obtain ⟨fi, b₆, -, h⟩ := bind_eq_ok h
  injection h with hinfo
  rw [← hinfo] at horder
  obtain ⟨b', hrun⟩ := readIf_eq_ok h₅ order horder
  refine ⟨_, b', _, r₄, hrun, ?_⟩
  have hlen := congrArg List.length hr₁
  simp only [List.length_append, List.length_nil] at hlen
  omega

/-- The order index of a frame that was read fits 24 bits. -/
theorem ParsedFrame.orderCanonical (f : ParsedFrame) : f.info.OrderCanonical := by
  intro order horder
  obtain ⟨b, b', p, r, hrun, -⟩ := ParsedFrame.reads_order horder
  exact canonical_of_readOrder hrun

/-- A frame with a position is longer than four bytes. -/
theorem ParsedFrame.four_lt_length {f : ParsedFrame} {order : OrderInformation}
    (horder : f.info.orderInfo = some order) : 4 < f.bytes.length := by
  obtain ⟨b, b', p, r, hrun, hlen⟩ := ParsedFrame.reads_order horder
  obtain ⟨enc, r', rfl, -, -, henc⟩ := scans_order _ _ _ _ _ hrun
  rw [List.length_append] at hlen
  rw [f.length_bytes]
  omega

/-- A datagram leaves what is stored under its keys. -/
theorem keepsStore_packetBound : PacketBound KeepsStore where
  toFrameBound := keepsStore_frameBound
  stored _ _ _ f _ order horder hchannel hw :=
    hw.inserted rfl horder ⟨hchannel, f.orderCanonical order horder⟩
  called _ _ hw := storesByKey_of_eq hw rfl
  sliced _ _ _ _ hw := storesByKey_of_eq hw rfl
  advanced _ _ hw := storesByKey_of_eq hw rfl
  settled _ _ h hw := storesByKey_of_eq hw h.stored

/-- A round that is got through in the state `w`: a fragment, or a frame to hand on. -/
def RoundReturns (home : Option Place) (size cursor : Nat) (f : ParsedFrame) (rest : Bytes)
    (w : World) : Prop :=
  f.info.fragmentInfo.isSome ∨ FrameReturns (f.view home cursor rest) f.info
    ((w.log (.slice (cursor + f.header.length) f.body.length size)).log (.frame f.info f.body))

/-- Each round is got through in the state that those before it leave. -/
def RoundsReturn (home : Option Place) (size : Nat) :
    Nat → List ParsedFrame → Bytes → World → Prop
  | _, [], _, _ => True
  | cursor, f :: fs, tail, w =>
    RoundReturns home size cursor f (fs.flatMap ParsedFrame.bytes ++ tail) w ∧
      RoundsReturn home size (cursor + f.bytes.length) fs tail
        (after (round home size cursor f (fs.flatMap ParsedFrame.bytes ++ tail)) w)

section Rounds

variable (home : Option Place) (size : Nat)

theorem succeeds_round (cursor : Nat) (f : ParsedFrame) (rest : Bytes) {w : World}
    (hw : w.StoresByKey) :
    Succeeds (round home size cursor f rest) w ↔ RoundReturns home size cursor f rest w := by
  unfold round handFrame RoundReturns
  rw [succeeds_bind_of_ok (run_emit _)]
  by_cases hfrag : f.info.fragmentInfo.isSome
  · rw [if_pos hfrag]
    exact iff_of_true (succeeds_emit _ _) (.inl hfrag)
  · rw [if_neg hfrag, or_iff_right hfrag]
    exact succeeds_processFrame rfl f.orderCanonical (storesByKey_of_eq hw rfl)

/-- **Rounds return exactly when each of them is got through.** -/
theorem succeeds_rounds (tail : Bytes) : ∀ (fs : List ParsedFrame) (cursor : Nat) {w : World},
    w.StoresByKey →
    (Succeeds (rounds home size cursor fs tail) w ↔ RoundsReturn home size cursor fs tail w)
  | [], _, _, _ => iff_of_true (succeeds_pure _ _) trivial
  | f :: fs, cursor, w, hw => by
    rw [rounds, RoundsReturn, ← succeeds_round home size cursor f _ hw]
    have hkeeps := keepsStore_packetBound.within_round home size cursor f
      (fs.flatMap ParsedFrame.bytes ++ tail) w hw
    by_cases hround : Succeeds (round home size cursor f (fs.flatMap ParsedFrame.bytes ++ tail)) w
    · obtain ⟨u, hrun⟩ := hround.run
      rw [and_iff_right hround, succeeds_bind_of_ok hrun, succeeds_rounds tail fs _ hkeeps]
    · exact iff_of_false (mt Succeeds.of_bind hround) fun h => hround h.1

end Rounds

theorem keepsStore_processPacket {b : BinaryBuffer} (hstart : b.index = 0) :
    Within KeepsStore (processPacket b) := keepsStore_packetBound.within_processPacket hstart

end Rakro
