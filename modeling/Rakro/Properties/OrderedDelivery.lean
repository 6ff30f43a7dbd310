import Rakro.Properties.ProcessData
import Rakro.Spec.SequenceWindow

/-!
# Ordered delivery

An ordered frame is meant to reach `process_data` in its turn, once. In its turn it reaches it
twice: the branch hands it on and then falls through to the call at the end. Ahead of its turn it
reaches it at once, because the branch that stores it falls through as well.

So the deliveries are those of a receiver in turn only as long as no frame comes early and
`process_data` throws on each frame that comes in its turn.
-/

namespace Rakro

open Infra BinaryBuffer

/-! ## What has been delivered -/

/-- The payload that `process_data` is called with, if the event is that call. -/
def Event.payload? : Event → Option Bytes
  | .data payload => some payload
  | _ => none

/-- The payloads that have been passed to `process_data`, oldest first. -/
def World.delivered (w : World) : List Bytes := w.host.trace.filterMap Event.payload?

@[simp] theorem delivered_log (w : World) (event : Event) :
    (w.log event).delivered = w.delivered ++ event.payload?.toList := by
  unfold World.delivered World.log
  rw [List.filterMap_append]
  cases event <;> rfl

/-- An answer delivers nothing. -/
theorem Answers.delivered {w w' : World} (h : Answers w w') : w'.delivered = w.delivered :=
  h.trace.filterMap_eq fun event hevent => by cases event <;> first | rfl | cases hevent

theorem delivered_processData (buffer : BinaryBuffer) (w : World) :
    (after (processData buffer) w).delivered = w.delivered ++ [buffer.remainingSlice] := by
  rw [(processData_answers buffer w).delivered, delivered_log]
  rfl

/-! ## The channels -/

theorem run_orderedNext {channel : UInt8} (h : channel.toNat < maxOrderChannels) (w : World) :
    (orderedNext channel).run w = .ok w.this.orderedBufferNextPackets[channel.toNat] w := by
  unfold orderedNext
  rw [run_get_bind]
  rw [Vector.getElem?_eq_getElem h]
  rfl

/-- The state with the turn of a channel moved on. -/
def World.bumped (w : World) (channel : UInt8) (h : channel.toNat < maxOrderChannels) : World :=
  { w with this :=
      { w.this with
        orderedBufferNextPackets := w.this.orderedBufferNextPackets.setIfInBounds channel.toNat
          (w.this.orderedBufferNextPackets[channel.toNat] + 1) } }

theorem run_bumpOrdered {channel : UInt8} (h : channel.toNat < maxOrderChannels) (w : World) :
    (bumpOrdered channel).run w = .ok ⟨⟩ (w.bumped channel h) := by
  unfold bumpOrdered
  rw [run_bind_of_ok (run_orderedNext h w)]
  rfl

@[simp] theorem bumped_next (w : World) {channel : UInt8} (h : channel.toNat < maxOrderChannels) :
    (w.bumped channel h).this.orderedBufferNextPackets[channel.toNat]
      = w.this.orderedBufferNextPackets[channel.toNat] + 1 := by
  simp [World.bumped]

/-- With nothing stored under the key, the loop over stored packets ends at once. -/
theorem run_drain_none {channel : UInt8} {fuel : Nat} {key : OrderKey} {w : World}
    (h : w.this.outOfOrderPacketBuffer.lookup key = none) :
    (drain channel (fuel + 1) key).run w = .ok ⟨⟩ w := by
  unfold drain
  rw [run_get_bind]
  rw [h]
  rfl

/-! ## One frame -/

section Step

variable {w : World} {b : BinaryBuffer} {info : FrameInfo} {order : OrderInformation}

/-- An ordered frame goes through its order, and what comes out is handled. -/
theorem after_processFrame_ordered (hseq : info.sequenceFrameIndex = none)
    (horder : info.orderInfo = some order) :
    after (processFrame b info) w =
      after (processOrdered b info order >>= fun r =>
        match r with
        | some packetData => processData packetData
        | none => pure ⟨⟩) (w.log (.frame info b.bytes)) := by
  unfold processFrame orderFrame
  rw [after_bind_ok (run_emit _), hseq, horder]
  rfl

variable (hc : order.orderChannel.toNat < maxOrderChannels)

/-- A frame whose turn is over is dropped. -/
theorem run_processOrdered_late (hlt : order.orderFrameIndex.getValue <
    w.this.orderedBufferNextPackets[order.orderChannel.toNat]) :
    (processOrdered b info order).run w = .ok none (after (release b) w) := by
  unfold processOrdered
  rw [run_bind_of_ok (run_orderedNext hc w), if_neg (by rintro h; simp [h] at hlt), if_pos hlt]
  rfl

/-- A frame in its turn whose payload is refused. -/
theorem run_processOrdered_refused {e : Exn} {w' : World}
    (heq : w.this.orderedBufferNextPackets[order.orderChannel.toNat]
      = order.orderFrameIndex.getValue)
    (hdata : (processData b).run (w.bumped order.orderChannel hc) = .error e w') :
    (processOrdered b info order).run w = .error e w' := by
  unfold processOrdered
  rw [run_bind_of_ok (run_orderedNext hc w), if_pos heq, run_bind_of_ok (run_bumpOrdered hc w),
    run_bind_of_error hdata]

/-- A frame in its turn whose payload is handled goes on to the end of `process_frame`. -/
theorem run_processOrdered_handled {u : PUnit} {w' : World}
    (heq : w.this.orderedBufferNextPackets[order.orderChannel.toNat]
      = order.orderFrameIndex.getValue)
    (hdata : (processData b).run (w.bumped order.orderChannel hc) = .ok u w')
    (hempty : w'.this.outOfOrderPacketBuffer = ∅) :
    (processOrdered b info order).run w = .ok (some b.movedFrom) w' := by
  have hnone : w'.this.outOfOrderPacketBuffer.lookup
      (constructOrderKey order.orderChannel order.orderFrameIndex) = none := by
    rw [hempty]
    exact AList.lookup_empty _
  unfold processOrdered
  rw [run_bind_of_ok (run_orderedNext hc w), if_pos heq, run_bind_of_ok (run_bumpOrdered hc w),
    run_bind_of_ok hdata, run_get_bind, run_bind_of_ok (run_drain_none hnone)]
  rfl

/-- The state with a frame stored for later. -/
def World.stored (w : World) (b : BinaryBuffer) (info : FrameInfo) (order : OrderInformation) :
    World :=
  { w with this :=
      { w.this with
        sequencedPacketsNextPacket :=
          w.this.sequencedPacketsNextPacket.setIfInBounds order.orderChannel.toNat 0
        outOfOrderPacketBuffer := w.this.outOfOrderPacketBuffer.insert
          (constructOrderKey order.orderChannel order.orderFrameIndex)
          { rawData := b, packetInfo := info } } }

/-- A frame ahead of its turn is stored, and goes on to the end of `process_frame` as well. -/
theorem run_processOrdered_early
    (hlt : w.this.orderedBufferNextPackets[order.orderChannel.toNat]
      < order.orderFrameIndex.getValue)
    (hkey : constructOrderKey order.orderChannel order.orderFrameIndex
      ∉ w.this.outOfOrderPacketBuffer) :
    (processOrdered b info order).run w = .ok (some b.movedFrom) (w.stored b info order) := by
  unfold processOrdered
  rw [run_bind_of_ok (run_orderedNext hc w), if_neg (fun h => by simp [h] at hlt),
    if_neg (fun h => UInt32.lt_asymm h hlt)]
  refine (run_bind_of_ok (run_modifyThis _)).trans ((run_get_bind _ _).trans ?_)
  dsimp only
  rw [if_neg hkey]
  rfl

end Step

/-! ## Arrivals -/

/-- Place `index` of channel `c`. -/
def position (c : UInt8) (index : ℕ) : OrderInformation where
  orderFrameIndex := .ofNat index
  orderChannel := c

/-- An ordered, unsequenced frame on the channel `c`, with the payload of its index. -/
structure OrderedFrame (c : UInt8) (payload : ℕ → Bytes) where
  index : ℕ
  info : FrameInfo
  buffer : BinaryBuffer
  index_lt : index < 2 ^ 24
  unsequenced : info.sequenceFrameIndex = none
  order : info.orderInfo = some (position c index)
  bytes : buffer.bytes = payload index
  start : buffer.index = 0

section Arrivals

variable {c : UInt8} {payload : ℕ → Bytes}

namespace OrderedFrame

/-- The frame is handed to `process_frame`. -/
def arrive (a : OrderedFrame c payload) : ClientM PUnit := processFrame a.buffer a.info

/-- The payload is what is left to be read. -/
theorem remainingSlice_eq (a : OrderedFrame c payload) :
    a.buffer.remainingSlice = payload a.index := by
  unfold remainingSlice
  rw [a.start, List.drop_zero, a.bytes]

theorem index_le_size (a : OrderedFrame c payload) : a.buffer.index ≤ a.buffer.size := by
  rw [a.start]
  exact Nat.zero_le _

/-- The state in which the branch of ordered frames begins. -/
def entered (a : OrderedFrame c payload) (w : World) : World :=
  w.log (.frame a.info a.buffer.bytes)

/-- An ordered frame goes through its order. -/
theorem after_arrive (a : OrderedFrame c payload) (w : World) :
    after a.arrive w = after (processOrdered a.buffer a.info (position c a.index) >>= fun r =>
      match r with
      | some packetData => processData packetData
      | none => pure ⟨⟩) (a.entered w) :=
  after_processFrame_ordered a.unsequenced a.order

@[simp] theorem delivered_entered (a : OrderedFrame c payload) (w : World) :
    (a.entered w).delivered = w.delivered := by
  unfold entered
  rw [delivered_log]
  exact List.append_nil _

end OrderedFrame

/-- The indices that have arrived. -/
def indices (l : List (OrderedFrame c payload)) : List ℕ := l.map OrderedFrame.index

/-- There are no more turns than indices of 24 bits. -/
theorem turns_indices_le (l : List (OrderedFrame c payload)) : turns (indices l) ≤ 2 ^ 24 := by
  refine turns_le_of_forall_lt fun i hi => ?_
  obtain ⟨a, -, rfl⟩ := List.mem_map.mp hi
  exact a.index_lt

@[simp] theorem indices_concat (l : List (OrderedFrame c payload)) (a : OrderedFrame c payload) :
    indices (l ++ [a]) = indices l ++ [a.index] := by
  simp [indices]

/-- What holds as long as every frame has come in its turn or after it. -/
structure InTurn (hc : c.toNat < maxOrderChannels) (l : List (OrderedFrame c payload)) (w : World) :
    Prop where
  next : w.this.orderedBufferNextPackets[c.toNat] = UInt32.ofNat (turns (indices l))
  stored : w.this.outOfOrderPacketBuffer = ∅
  below : ∀ i ∈ indices l, i < turns (indices l)
  delivered : w.delivered = (List.range (turns (indices l))).map payload

variable {hc : c.toNat < maxOrderChannels} {l : List (OrderedFrame c payload)} {w : World}

/-- In 32 bits, the index compares with the turn as it does in numbers. -/
theorem ofNat_lt_turns_iff (l : List (OrderedFrame c payload)) (a : OrderedFrame c payload) :
    UInt32.ofNat a.index < UInt32.ofNat (turns (indices l)) ↔ a.index < turns (indices l) := by
  have h := turns_indices_le l
  have ha := a.index_lt
  rw [UInt32.lt_iff_toNat_lt, UInt32.toNat_ofNat', UInt32.toNat_ofNat']
  omega

/-- A late frame changes nothing that counts. -/
theorem InTurn.late (h : InTurn hc l w) {a : OrderedFrame c payload}
    (ha : a.index < turns (indices l)) : InTurn hc (l ++ [a]) (after a.arrive w) := by
  have hlt : (position c a.index).orderFrameIndex.getValue
      < (a.entered w).this.orderedBufferNextPackets[(position c a.index).orderChannel.toNat] := by
    show UInt32.ofNat a.index < w.this.orderedBufferNextPackets[c.toNat]
    rw [h.next]
    exact (ofNat_lt_turns_iff l a).mpr ha
  have hturns : turns (indices (l ++ [a])) = turns (indices l) := by
    rw [indices_concat, turns_concat_of_ne (Nat.ne_of_lt ha)]
  rw [a.after_arrive, after_bind_ok (run_processOrdered_late hc hlt), after_pure]
  refine ⟨by rw [hturns]; exact h.next, h.stored, ?_, ?_⟩
  · rw [hturns, indices_concat]
    intro i hi
    rcases List.mem_append.mp hi with hm | hm
    · exact h.below i hm
    · rw [List.mem_singleton.mp hm]; exact ha
  · rw [hturns, (within_release a.buffer _).delivered, a.delivered_entered, h.delivered]

/-- In its turn, the payload is handled exactly when the pool of the state before lets it. -/
theorem OrderedFrame.succeeds_turn (a : OrderedFrame c payload) (w : World) :
    Succeeds (processData a.buffer) ((a.entered w).bumped (position c a.index).orderChannel hc) ↔
      Handled w.host.company (payload a.index) := by
  rw [succeeds_processData a.index_le_size, a.remainingSlice_eq]
  exact Iff.rfl

/-- The counter of the channel is at a frame that comes in turn. -/
theorem InTurn.next_eq (h : InTurn hc l w) {a : OrderedFrame c payload}
    (ha : a.index = turns (indices l)) :
    (a.entered w).this.orderedBufferNextPackets[(position c a.index).orderChannel.toNat]
      = (position c a.index).orderFrameIndex.getValue := by
  show w.this.orderedBufferNextPackets[c.toNat] = UInt32.ofNat a.index
  rw [h.next, ha]

/-- A frame in its turn that is refused has been delivered once. -/
theorem InTurn.refused (h : InTurn hc l w) {a : OrderedFrame c payload}
    (ha : a.index = turns (indices l)) (hrefused : ¬ Handled w.host.company (payload a.index)) :
    InTurn hc (l ++ [a]) (after a.arrive w) := by
  obtain ⟨e, hdata⟩ := run_of_not_succeeds (mt (a.succeeds_turn w).mp hrefused)
  have hans := processData_answers a.buffer ((a.entered w).bumped (position c a.index).orderChannel hc)
  have hturns : turns (indices (l ++ [a])) = turns (indices l) + 1 := by
    rw [indices_concat, ha, turns_concat_of_eq h.below]
  rw [a.after_arrive, after_bind_error (run_processOrdered_refused hc (h.next_eq ha) hdata)]
  refine ⟨?_, hans.stored.trans h.stored, ?_, ?_⟩
  · rw [hans.ordered, hturns]
    refine (bumped_next (a.entered w) hc).trans ?_
    show w.this.orderedBufferNextPackets[c.toNat] + 1 = _
    rw [h.next, UInt32.ofNat_add]
    rfl
  · rw [hturns, indices_concat]
    intro i hi
    rcases List.mem_append.mp hi with hm | hm
    · exact Nat.lt_succ_of_lt (h.below i hm)
    · rw [List.mem_singleton.mp hm, ha]; exact Nat.lt_succ_self _
  · rw [delivered_processData, a.remainingSlice_eq, hturns, List.range_succ, List.map_append, ha]
    exact congrArg (· ++ [payload (turns (indices l))]) ((a.delivered_entered w).trans h.delivered)

/-- A frame in its turn that is handled is delivered a second time. -/
theorem InTurn.delivered_handled (h : InTurn hc l w) {a : OrderedFrame c payload}
    (ha : a.index = turns (indices l)) (hhandled : Handled w.host.company (payload a.index)) :
    (after a.arrive w).delivered = w.delivered ++ [payload a.index] ++ [payload a.index] := by
  obtain ⟨u, hdata⟩ := ((a.succeeds_turn w).mpr hhandled).run
  have hans := processData_answers a.buffer ((a.entered w).bumped (position c a.index).orderChannel hc)
  -- once in the branch and once behind it
  rw [a.after_arrive, after_bind_ok (run_processOrdered_handled hc (h.next_eq ha) hdata
    (hans.stored.trans h.stored)), delivered_processData, delivered_processData,
    a.remainingSlice_eq]
  show (a.entered w).delivered ++ _ ++ [a.buffer.remainingSlice] = _
  rw [a.delivered_entered, a.remainingSlice_eq]

/-- A frame ahead of its turn is delivered at once. -/
theorem InTurn.delivered_early (h : InTurn hc l w) {a : OrderedFrame c payload}
    (ha : turns (indices l) < a.index) :
    (after a.arrive w).delivered = w.delivered ++ [payload a.index] := by
  have hlt : (a.entered w).this.orderedBufferNextPackets[(position c a.index).orderChannel.toNat]
      < (position c a.index).orderFrameIndex.getValue := by
    show w.this.orderedBufferNextPackets[c.toNat] < UInt32.ofNat a.index
    rw [h.next, UInt32.lt_iff_toNat_lt, UInt32.toNat_ofNat', UInt32.toNat_ofNat']
    have := a.index_lt
    omega
  have hkey : constructOrderKey (position c a.index).orderChannel (position c a.index).orderFrameIndex
      ∉ (a.entered w).this.outOfOrderPacketBuffer := by
    show _ ∉ w.this.outOfOrderPacketBuffer
    rw [h.stored]
    exact AList.notMem_empty _
  rw [a.after_arrive, after_bind_ok (run_processOrdered_early hc hlt hkey), delivered_processData]
  show (a.entered w).delivered ++ [a.buffer.remainingSlice] = _
  rw [a.delivered_entered, a.remainingSlice_eq]

/-- The frames after which the deliveries still are those of a receiver in turn. -/
def StaysInTurn (l : List (OrderedFrame c payload)) (a : OrderedFrame c payload) (w : World) : Prop :=
  a.index < turns (indices l) ∨
    a.index = turns (indices l) ∧ ¬ Handled w.host.company (payload a.index)

/-- One more frame that comes in turn keeps the channel in turn. -/
theorem InTurn.step (h : InTurn hc l w) {a : OrderedFrame c payload} (ha : StaysInTurn l a w) :
    InTurn hc (l ++ [a]) (after a.arrive w) := by
  rcases ha with hlt | ⟨heq, hrefused⟩
  · exact h.late hlt
  · exact h.refused heq hrefused

/-- No other frame leaves as many deliveries as there should be. -/
theorem InTurn.staysInTurn (h : InTurn hc l w) {a : OrderedFrame c payload}
    (hdel : (after a.arrive w).delivered.length = turns (indices (l ++ [a]))) :
    StaysInTurn l a w := by
  have hlen : w.delivered.length = turns (indices l) := by
    rw [h.delivered, List.length_map, List.length_range]
  rw [indices_concat] at hdel
  -- late, in turn or early: the last two make one delivery too many
  rcases Nat.lt_trichotomy a.index (turns (indices l)) with hlt | heq | hgt
  · exact .inl hlt
  · refine .inr ⟨heq, fun hhandled => ?_⟩
    rw [h.delivered_handled heq hhandled, heq, turns_concat_of_eq h.below] at hdel
    simp only [List.length_append, List.length_singleton] at hdel
    omega
  · rw [h.delivered_early hgt, turns_concat_of_ne (Nat.ne_of_gt hgt)] at hdel
    simp only [List.length_append, List.length_singleton] at hdel
    omega

/-! ## The whole sequence -/

/--
After each arrival the deliveries are the payloads `0, …, k - 1`, once and in order, where `k` is
the largest number such that all of them have arrived.
-/
def DeliversInTurn (w : World) (arrivals : List (OrderedFrame c payload)) : Prop :=
  ∀ l, l <+: arrivals → ∀ k, IsGreatest {k | ∀ i < k, i ∈ indices l} k →
    (afterAll OrderedFrame.arrive w l).delivered = (List.range k).map payload

/-- A fresh client is in turn. -/
theorem inTurn_fresh (hc : c.toNat < maxOrderChannels) (payload : ℕ → Bytes)
    (hfresh : w.this.IsFresh) (htrace : w.host.trace = []) :
    InTurn hc ([] : List (OrderedFrame c payload)) w := by
  refine ⟨?_, ?_, by simp [indices], ?_⟩
  · rw [hfresh]; simp [indices]
  · rw [hfresh]
  · simp [World.delivered, htrace, indices]

/--
**Ordered delivery holds exactly as long as every frame is late, or in its turn and refused.**

A frame that comes early is delivered at once, and one that is handled in its turn is delivered
twice.
-/
theorem deliversInTurn_iff (hc : c.toNat < maxOrderChannels) (hfresh : w.this.IsFresh)
    (htrace : w.host.trace = []) (arrivals : List (OrderedFrame c payload)) :
    DeliversInTurn w arrivals ↔ ∀ l a, l ++ [a] <+: arrivals →
      StaysInTurn l a (afterAll OrderedFrame.arrive w l) := by
  have hnil := inTurn_fresh hc payload hfresh htrace
  constructor
  · intro hdel
    -- the lengths of the deliveries alone rule out every other frame
    have hstays : ∀ l a, l ++ [a] <+: arrivals → InTurn hc l (afterAll OrderedFrame.arrive w l) →
        StaysInTurn l a (afterAll OrderedFrame.arrive w l) := by
      intro l a hl hin
      refine hin.staysInTurn ?_
      have h := hdel _ hl _ (turns_isGreatest _)
      rw [afterAll_concat] at h
      rw [h, List.length_map, List.length_range]
    intro l a hl
    refine hstays l a hl (afterAll_induction hnil (fun l a hl hin => ?_) l
      ((List.prefix_append l [a]).trans hl))
    exact hin.step (hstays l a hl hin)
  · intro hstays l hl k hk
    have hin := afterAll_induction hnil (fun l a hl hin => hin.step (hstays l a hl)) l hl
    rw [hin.delivered, hk.unique (turns_isGreatest _)]

end Arrivals

/-- The first ordered frame of channel 0. -/
def firstFrame (payload : Bytes) : OrderedFrame 0 fun _ => payload where
  index := 0
  info :=
    { bodyLeng := UInt16.ofNat payload.length, rely := .reliableOrdered
      orderInfo := some (position 0 0) }
  buffer := { bytes := payload }
  index_lt := by decide
  unsequenced := rfl
  order := rfl
  bytes := rfl
  start := rfl

/-- The second one. -/
def secondFrame (payload : Bytes) : OrderedFrame 0 fun _ => payload :=
  { firstFrame payload with
    index := 1
    info := { (firstFrame payload).info with orderInfo := some (position 0 1) }
    index_lt := by decide
    unsequenced := rfl
    order := rfl }

/-- The two in turn with nothing in them, and in between the first one again. -/
theorem deliversInTurn_refused :
    DeliversInTurn smallPool [firstFrame [], firstFrame [], secondFrame []] := by
  have hone : turns ([] ++ [0] ++ [0]) = 1 := turns_eq (by simp) (by simp)
  have hturns : SequenceWindow.InTurns ([] ++ [0] ++ [0] ++ [1]) := by
    simp only [SequenceWindow.inTurns_concat, SequenceWindow.inTurns_nil, hone, Nat.zero_le,
      Nat.le_refl, and_self]
  refine (deliversInTurn_iff (by decide) smallPool_isFresh rfl _).mpr fun l a hl => ?_
  have hindices : indices (l ++ [a]) <+: [] ++ [0] ++ [0] ++ [1] := hl.map OrderedFrame.index
  rw [indices_concat] at hindices
  -- a frame that is not late is refused
  rcases Nat.lt_or_eq_of_le (hturns _ _ hindices) with hlt | heq
  · exact .inl hlt
  · exact .inr ⟨heq, id⟩

/-- A message without fields, the first frame of its channel, is delivered twice. -/
theorem firstFrame_not_deliversInTurn : ¬ DeliversInTurn smallPool [firstFrame [0x13]] := by
  intro hdel
  have hin := inTurn_fresh (w := smallPool) (c := 0) (by decide) (fun _ => [0x13])
    smallPool_isFresh rfl
  have htwice := hin.delivered_handled (a := firstFrame [0x13]) (by simp [firstFrame, indices])
    trivial
  have honce := hdel _ (List.prefix_refl _) _ (turns_isGreatest _)
  have hturns : turns (indices [firstFrame [0x13]]) = 1 :=
    turns_eq (by simp [firstFrame, indices]) (by simp [firstFrame, indices])
  rw [hturns] at honce
  rw [show afterAll OrderedFrame.arrive smallPool [firstFrame [0x13]]
    = after (firstFrame [0x13]).arrive smallPool from rfl, htwice] at honce
  exact absurd honce (by decide)

end Rakro
