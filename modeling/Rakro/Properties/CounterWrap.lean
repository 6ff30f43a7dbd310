import Rakro.Properties.AtMostOnce
import Rakro.Properties.FrameReturns

/-!
# Past the wrap of the counters

A datagram number and a position are numbers of 24 bits, and a long stream starts them over. The
counter of datagrams starts over as well. The turn of a channel is counted in 32 bits, so from the
first position that starts over every frame of the channel is behind its turn.
-/

namespace Rakro

open Infra BinaryBuffer

/-! ## A frame in its turn -/

section Turn

variable {b : BinaryBuffer} {info : FrameInfo} {order : OrderInformation} {w : World}

/-- The payload has been passed to `process_data` between the two states. -/
def Passes (payload : Bytes) (w w' : World) : Prop := w.delivered ++ [payload] <+: w'.delivered

/-- What a frame in its turn leaves of an empty store. -/
structure TakesTurn (channel : UInt8) (hc : channel.toNat < maxOrderChannels) (payload : Bytes)
    (w w' : World) : Prop where
  next : w'.this.orderedBufferNextPackets[channel.toNat]
    = w.this.orderedBufferNextPackets[channel.toNat] + 1
  stored : w'.this.outOfOrderPacketBuffer = ∅
  passes : Passes payload w w'

/-- Replies change nothing about it. -/
theorem TakesTurn.answers {channel : UInt8} {hc : channel.toNat < maxOrderChannels}
    {payload : Bytes} {w' w'' : World} (h : TakesTurn channel hc payload w w')
    (hans : Answers w' w'') : TakesTurn channel hc payload w w'' := by
  refine ⟨?_, hans.stored.trans h.stored, ?_⟩
  · simp only [hans.ordered]
    exact h.next
  · unfold Passes
    rw [hans.delivered]
    exact h.passes

/-- Nor does one more delivery. -/
theorem TakesTurn.processData {channel : UInt8} {hc : channel.toNat < maxOrderChannels}
    {payload : Bytes} {w' : World} (h : TakesTurn channel hc payload w w') (b : BinaryBuffer) :
    TakesTurn channel hc payload w (after (processData b) w') := by
  have hans := processData_answers b w'
  refine ⟨?_, hans.stored.trans h.stored, ?_⟩
  · simp only [hans.ordered]
    exact h.next
  · unfold Passes
    rw [delivered_processData]
    exact h.passes.trans (List.prefix_append _ _)

/-- A payload that is handled behind the counter's step takes its turn. -/
theorem takesTurn_bumped {channel : UInt8} (hc : channel.toNat < maxOrderChannels)
    (hempty : w.this.outOfOrderPacketBuffer = ∅) (b : BinaryBuffer) :
    TakesTurn channel hc b.remainingSlice w (after (processData b) (w.bumped channel hc)) := by
  have hans := processData_answers b (w.bumped channel hc)
  refine ⟨?_, hans.stored.trans hempty, ?_⟩
  · simp only [hans.ordered]
    exact bumped_next w hc
  · unfold Passes
    rw [delivered_processData]
    exact List.prefix_refl _

/-- With nothing stored, a frame in its turn is passed on and the turn moves on by one. -/
theorem takesTurn_processFrame (hc : order.orderChannel.toNat < maxOrderChannels)
    (hseq : info.sequenceFrameIndex = none) (horder : info.orderInfo = some order)
    (hnext : w.this.orderedBufferNextPackets[order.orderChannel.toNat]
      = order.orderFrameIndex.getValue) (hempty : w.this.outOfOrderPacketBuffer = ∅) :
    TakesTurn order.orderChannel hc b.remainingSlice w (after (processFrame b info) w) := by
  have hturn := takesTurn_bumped (w := w.log (.frame info b.bytes)) hc hempty b
  have hlog : (w.log (.frame info b.bytes)).delivered = w.delivered := by
    rw [delivered_log]
    exact List.append_nil _
  have hentered : TakesTurn order.orderChannel hc b.remainingSlice (w.log (.frame info b.bytes))
      (after (processFrame b info) w) := by
    rw [after_processFrame_ordered hseq horder]
    by_cases hdata : Succeeds (processData b)
        ((w.log (.frame info b.bytes)).bumped order.orderChannel hc)
    · obtain ⟨u, hrun⟩ := hdata.run
      rw [after_of_ok hrun] at hturn
      rw [after_bind_ok (run_processOrdered_handled (w := w.log _) hc hnext hrun hturn.stored)]
      exact hturn.processData _
    · obtain ⟨e, hrun⟩ := run_of_not_succeeds hdata
      rw [after_bind_error (run_processOrdered_refused (w := w.log _) hc hnext hrun)]
      exact hturn
  refine ⟨hentered.next, hentered.stored, ?_⟩
  have hpasses := hentered.passes
  unfold Passes at hpasses ⊢
  rwa [hlog] at hpasses

end Turn

/-! ## Streams -/

/-- The datagram `k` of a stream: both of its numbers are `k`, as far as 24 bits go. -/
structure StreamDatagram (c : UInt8) (k : ℕ) extends Datagram where
  frame : ParsedFrame
  rest_eq : rest = frame.bytes
  seq_eq : toDatagram.seq = k % 2 ^ 24
  unfragmented : frame.info.fragmentInfo = none
  unsequenced : frame.info.sequenceFrameIndex = none
  order : frame.info.orderInfo = some (position c (k % 2 ^ 24))

section Stream

variable {c : UInt8} {k n : ℕ} {w : World}

namespace StreamDatagram

theorem isFrameSet_frame (d : StreamDatagram c k) :
    IsFrameSet d.buffer d.id d.number ([d.frame].flatMap ParsedFrame.bytes ++ []) := by
  rw [List.append_nil, List.flatMap_singleton, ← d.rest_eq]
  exact d.isFrameSet

/-- A datagram in the window is one call of `process_frame`. -/
theorem after_arrive_frame (d : StreamDatagram c k)
    (hseq : ¬ IsFrameSet.number d.number < w.this.nextExpectedSeq) :
    ∃ w₁ b, b.remainingSlice = d.frame.body ∧
      w₁.this.orderedBufferNextPackets = w.this.orderedBufferNextPackets ∧
      w₁.this.outOfOrderPacketBuffer = w.this.outOfOrderPacketBuffer ∧
      w₁.delivered = w.delivered ∧
      Answers (after (processFrame b d.frame.info) w₁) (after d.arrive w) := by
  have hlong : ∀ f ∈ [d.frame].getLast?, 4 < f.bytes.length + ([] : Bytes).length := by
    rintro f ⟨⟩
    exact ParsedFrame.four_lt_length d.order
  refine ⟨((w.flushed d.buffer).advanced (IsFrameSet.number d.number)).log
    (.slice (4 + d.frame.header.length) d.frame.body.length d.buffer.size),
    d.frame.view d.buffer.home 4 [], rfl, rfl, rfl, ?_, ?_⟩
  · rw [delivered_log]
    exact List.append_nil _
  · have hrounds := d.isFrameSet_frame.after_eq_rounds (w := w.flushed d.buffer) hseq hlong
      (Nat.zero_le _)
    rw [d.after_arrive, hrounds]
    rw [rounds, rounds, bind_pure_unit, after_round]
    unfold handFrame
    rw [d.unfragmented]
    exact within_release d.buffer _

end StreamDatagram

variable {hc : c.toNat < maxOrderChannels}

/-- The counters in front of the datagram `k`. -/
structure InStep (hc : c.toNat < maxOrderChannels) (k : ℕ) (w : World) : Prop where
  next : w.this.orderedBufferNextPackets[c.toNat] = UInt32.ofNat k
  stored : w.this.outOfOrderPacketBuffer = ∅
  expected : w.this.nextExpectedSeq.toNat = k % 2 ^ 24

/-- A client in step does not take the next datagram for an old one. -/
theorem InStep.not_stale (h : InStep hc k w) (d : StreamDatagram c k) :
    ¬ IsFrameSet.number d.number < w.this.nextExpectedSeq := by
  rw [UInt24.lt_iff, h.expected, d.toNat_number, d.seq_eq]
  omega

/-- The counter of datagrams starts over with the numbers. -/
theorem InStep.expected_succ (h : InStep hc k w) (d : StreamDatagram c k) :
    (after d.arrive w).this.nextExpectedSeq.toNat = (k + 1) % 2 ^ 24 := by
  rw [(d.arrive_sameWindow (h.not_stale d)).nextExpectedSeq]
  show w.this.nextExpectedSeq.incr.toNat = _
  rw [UInt24.toNat_incr, h.expected]
  omega

/-- Up to the wrap, each datagram comes in its turn. -/
theorem InStep.step (h : InStep hc k w) (hk : k < 2 ^ 24) (d : StreamDatagram c k) :
    InStep hc (k + 1) (after d.arrive w) ∧ Passes d.frame.body w (after d.arrive w) := by
  obtain ⟨w₁, b, hbody, hordered, hstored, hdelivered, hans⟩ :=
    d.after_arrive_frame (h.not_stale d)
  have hnext : w₁.this.orderedBufferNextPackets[c.toNat] = UInt32.ofNat (k % 2 ^ 24) := by
    rw [Nat.mod_eq_of_lt hk]
    simp only [hordered]
    exact h.next
  have hturn := (takesTurn_processFrame (b := b) hc d.unsequenced d.order hnext
    (hstored.trans h.stored)).answers hans
  refine ⟨⟨?_, hturn.stored, h.expected_succ d⟩, ?_⟩
  · refine hturn.next.trans ?_
    simp only [position, hordered]
    rw [h.next, UInt32.ofNat_add]
    rfl
  · have hpasses := hturn.passes
    unfold Passes at hpasses ⊢
    rwa [hbody, hdelivered] at hpasses

/-- The first position that starts over is behind the turn. -/
theorem InStep.late (h : InStep hc (2 ^ 24) w) (d : StreamDatagram c (2 ^ 24)) :
    ¬ Passes d.frame.body w (after d.arrive w) := by
  obtain ⟨w₁, b, -, hordered, -, hdelivered, hans⟩ := d.after_arrive_frame (h.not_stale d)
  have hlt : (position c (2 ^ 24 % 2 ^ 24)).orderFrameIndex.getValue
      < (w₁.log (.frame d.frame.info b.bytes)).this.orderedBufferNextPackets[c.toNat] := by
    show UInt32.ofNat 0 < w₁.this.orderedBufferNextPackets[c.toNat]
    simp only [hordered]
    rw [h.next]
    decide
  rw [after_processFrame_ordered d.unsequenced d.order,
    after_bind_ok (run_processOrdered_late (w := w₁.log _) hc hlt), after_pure] at hans
  have hsame : (after d.arrive w).delivered = w.delivered := by
    rw [hans.delivered, (within_release b _).delivered, delivered_log, hdelivered]
    exact List.append_nil _
  intro hpasses
  have hlen := hpasses.length_le
  rw [hsame, List.length_append, List.length_singleton] at hlen
  omega

/-! ## Runs -/

/-- The state after the datagrams `0, …, n - 1` of a stream. -/
def afterStream (w : World) (stream : ∀ k, StreamDatagram c k) (n : ℕ) : World :=
  afterAll Datagram.arrive w ((List.range n).map fun k => (stream k).toDatagram)

variable {stream : ∀ k, StreamDatagram c k}

/-- The last datagram arrives behind the ones before it. -/
theorem afterStream_succ (w : World) (stream : ∀ k, StreamDatagram c k) (n : ℕ) :
    afterStream w stream (n + 1) = after (stream n).arrive (afterStream w stream n) := by
  unfold afterStream
  rw [List.range_succ, List.map_append, List.map_singleton, afterAll_concat]

/-- The frame of each of the datagrams `0, …, n - 1` is passed to `process_data`. -/
def Survives (w : World) (stream : ∀ k, StreamDatagram c k) (n : ℕ) : Prop :=
  ∀ k < n, Passes (stream k).frame.body (afterStream w stream k) (afterStream w stream (k + 1))

/-- A fresh client is in step with the start of a stream. -/
theorem inStep_fresh (hc : c.toNat < maxOrderChannels) (hfresh : w.this.IsFresh) :
    InStep hc 0 w := by
  refine ⟨?_, ?_, ?_⟩
  · rw [hfresh]; simp
  · rw [hfresh]
  · rw [hfresh]; rfl

/-- Up to the wrap, the counters are those of the stream. -/
theorem inStep_afterStream (hc : c.toNat < maxOrderChannels) (hfresh : w.this.IsFresh)
    (stream : ∀ k, StreamDatagram c k) : ∀ k ≤ 2 ^ 24, InStep hc k (afterStream w stream k)
  | 0, _ => inStep_fresh hc hfresh
  | k + 1, hk => by
    rw [afterStream_succ]
    exact ((inStep_afterStream hc hfresh stream k (by omega)).step (by omega) (stream k)).1

/-- Past the wrap, the first frame of all that starts over is lost. -/
theorem le_of_survives (hc : c.toNat < maxOrderChannels) (hfresh : w.this.IsFresh)
    (stream : ∀ k, StreamDatagram c k) (h : Survives w stream n) : n ≤ 2 ^ 24 := by
  refine Nat.le_of_not_lt fun hlt => ?_
  have hpasses := h (2 ^ 24) hlt
  rw [afterStream_succ] at hpasses
  exact (inStep_afterStream hc hfresh stream _ (Nat.le_refl _)).late (stream _) hpasses

/--
**Every frame of a stream is passed on exactly as long as the stream has no more than `2 ^ 24`
datagrams.**
-/
theorem survives_iff (hc : c.toNat < maxOrderChannels) (hfresh : w.this.IsFresh)
    (stream : ∀ k, StreamDatagram c k) (n : ℕ) : Survives w stream n ↔ n ≤ 2 ^ 24 := by
  constructor
  · exact le_of_survives hc hfresh stream
  · intro hn k hk
    have hstep := (inStep_afterStream hc hfresh stream k (by omega)).step (by omega) (stream k)
    rw [afterStream_succ]
    exact hstep.2

end Stream

/-- The frame `k` of channel 0, around a message that needs no answer. -/
def streamFrame (k : ℕ) : WireFrame :=
  { plainFrame [0x13] (by decide) with
    flags := 0x60
    orderIndex := ⟨k % 2 ^ 24, Nat.mod_lt k (by decide)⟩
    unfragmented := rfl }

theorem rely_streamFrame (k : ℕ) : (streamFrame k).rely = .reliableOrdered := by
  show FrameReliability.ofBits ((0x60 : UInt8) >>> 5) = _
  decide

/-- The stream of these frames. -/
def endlessStream (k : ℕ) : StreamDatagram 0 k where
  buffer := { bytes := 0x80 :: leBytes 3 (k % 2 ^ 24) ++ (streamFrame k).bytes }
  id := 0x80
  number := leBytes 3 (k % 2 ^ 24)
  rest := (streamFrame k).bytes
  isFrameSet := ⟨rfl, rfl, ⟨by decide, by decide⟩, length_leBytes 3 _⟩
  frame := (streamFrame k).parsed
  rest_eq := rfl
  seq_eq := by
    show ofLeBytes (leBytes 3 (k % 2 ^ 24)) = _
    rw [ofLeBytes_leBytes]
    omega
  unfragmented := rfl
  unsequenced := by
    show (if isSeq (streamFrame k).rely then _ else _) = _
    rw [rely_streamFrame]
    rfl
  order := by
    show (if isOrdered (streamFrame k).rely then _ else _) = _
    rw [rely_streamFrame]
    rfl

/-- The stream up to the last index of 24 bits. -/
theorem survives_all : Survives smallPool endlessStream (2 ^ 24) :=
  (survives_iff (by decide) smallPool_isFresh endlessStream _).mpr (Nat.le_refl _)

/-- One datagram more is one too many. -/
theorem not_survives_wrapped : ¬ Survives smallPool endlessStream (2 ^ 24 + 1) := fun h =>
  absurd (le_of_survives (by decide) smallPool_isFresh endlessStream h) (by decide)

end Rakro
