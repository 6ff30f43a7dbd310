import Rakro.Infra.Fuel
import Rakro.Properties.FrameLoop
import Rakro.Roundtrip.ReadyBuffer

/-!
# Frame sets

A datagram with an id between `0x80` and `0x8D` is a frame set. Behind its four bytes of header the
counters move on, and then the frame loop runs over the rest.
-/

namespace Rakro

open Infra BinaryBuffer

/-! ## The branch -/

/-- The ids of the frame set branch. -/
def IsFrameSetId (id : UInt8) : Prop := 0x80 ≤ id ∧ id ≤ 0x8D

/-- The id of a frame set has the bit of the mask. -/
theorem IsFrameSetId.masked {id : UInt8} (h : IsFrameSetId id) :
    id &&& validFrameMask = validFrameMask := by
  have hle : 2 ^ 7 ≤ id.toNat := UInt8.le_iff_toNat_le.mp h.1
  have hlt : id.toNat < 2 ^ 8 := UInt8.toNat_lt id
  apply UInt8.toNat_inj.mp
  rw [UInt8.toNat_and, show validFrameMask.toNat = 2 ^ 7 from rfl, Nat.and_two_pow,
    Nat.testBit_eq_decide_div_mod_eq, show id.toNat / 2 ^ 7 = 1 by omega]
  rfl

/-- An id with that bit, up to the largest one, is a frame set's. -/
theorem isFrameSetId_of_masked {id : UInt8} (h : id &&& validFrameMask = validFrameMask)
    (hmax : ¬ validMaxFrameId < id) : IsFrameSetId id := by
  refine ⟨UInt8.le_iff_toNat_le.mpr ?_, UInt8.not_lt.mp hmax⟩
  have hle : id.toNat &&& validFrameMask.toNat ≤ id.toNat := Nat.and_le_left
  rwa [← UInt8.toNat_and, h] at hle

theorem IsFrameSetId.not_above {id : UInt8} (h : IsFrameSetId id) : ¬ validMaxFrameId < id :=
  UInt8.not_lt.mpr h.2

/-- A datagram that begins with the header of a frame set. -/
structure IsFrameSet (b : BinaryBuffer) (id : UInt8) (seq rest : Bytes) : Prop where
  bytes : b.bytes = id :: seq ++ rest
  start : b.index = 0
  id : IsFrameSetId id
  length_seq : seq.length = 3

/-- A buffer nobody has read from yet. -/
theorem eq_between_start {b : BinaryBuffer} {r : Bytes} (hstart : b.index = 0)
    (hbytes : b.bytes = r) : b = b.between [] r := by
  unfold between
  rw [List.nil_append, ← hbytes, List.length_nil, ← hstart]

/-- The id byte is looked at and left in place. -/
theorem run_peekId {b : BinaryBuffer} {id : UInt8} {r : Bytes} (hstart : b.index = 0)
    (hbytes : b.bytes = id :: r) : (readNextPeak UInt8).run b = .ok id b := by
  have h := run_readNextPeak (T := UInt8) (by simp) (by simp) (consumes_read_uint8 id) b [] r
  rwa [List.singleton_append, ← eq_between_start hstart hbytes] at h

/-- An empty datagram has no id byte. -/
theorem run_peekId_nil {b : BinaryBuffer} (hstart : b.index = 0) (hbytes : b.bytes = []) :
    (readNextPeak UInt8).run b = .error (.outOfRange "Not enough space in type") b := by
  have h := run_boundsCheck_short (b := b) (p := []) (r := []) Nat.zero_lt_one (by decide)
  rw [← eq_between_start hstart hbytes] at h
  exact run_bind_of_error h

/-- The id byte picks the branch. -/
theorem processPacket_branch {b : BinaryBuffer} {id : UInt8} {r : Bytes} (hstart : b.index = 0)
    (hbytes : b.bytes = id :: r) :
    processPacket b =
      if id &&& validFrameMask ≠ validFrameMask then release b
      else if validMaxFrameId < id then
        match PacketId.ofByte id with
        | some .nack => do
          emit (.printed "Unhandled NACK")
          release b
        | some .ack => processAck b
        | _ => release b
      else owning b (processFrameSet b) := by
  funext w
  exact run_bind_of_ok (run_guarded_ok (run_onBuffer_ok (run_peekId hstart hbytes)))

namespace IsFrameSet

variable {b : BinaryBuffer} {id : UInt8} {seq rest : Bytes}

/-- A frame set is its header and the rest. -/
theorem eq_between (h : IsFrameSet b id seq rest) : b = b.between [] (id :: seq ++ rest) :=
  eq_between_start h.start h.bytes

/-- The sequence number in the header. -/
def number (seq : Bytes) : UInt24 := UInt24.ofNat (ofLeBytes seq)

/-- A number that was read fits 24 bits. -/
theorem number_canonical (h : IsFrameSet b id seq rest) : (number seq).Canonical :=
  UInt24.ofNat_canonical (ofLeBytes_lt_three h.length_seq)

/-- Behind the header, the frames are processed. -/
theorem processFrameSet_eq (h : IsFrameSet b id seq rest) :
    processFrameSet b = processFrames (number seq) (b.between (id :: seq) rest) := by
  have hread := consumes_frameHeader id h.length_seq b [] rest
  rw [← h.eq_between, List.nil_append] at hread
  funext w
  show (processFrameSet b).run w = (processFrames (number seq) (b.between (id :: seq) rest)).run w
  unfold processFrameSet
  rw [run_bind_of_ok (run_onBuffer_ok hread)]
  rfl

/-- The datagram is processed behind its header. -/
theorem processPacket_eq (h : IsFrameSet b id seq rest) :
    processPacket b = owning b (processFrames (number seq) (b.between (id :: seq) rest)) := by
  rw [← h.processFrameSet_eq, processPacket_branch h.start h.bytes]
  rw [if_neg (not_not.mpr h.id.masked), if_neg h.id.not_above]

end IsFrameSet

/-- What `process_packet` does with a datagram nobody has read from yet. -/
inductive PacketFront (b : BinaryBuffer) : Prop
  | short : b.bytes.length < 4 → (∀ id ∈ b.bytes.head?, IsFrameSetId id) →
      (∀ w, (processPacket b).run w =
        .error (.outOfRange "Not enough space in type") (after (release b) w)) → PacketFront b
  | ignored {id : UInt8} {r : Bytes} : b.bytes = id :: r → ¬ IsFrameSetId id →
      id ≠ PacketId.ack.toUnderlying → processPacket b = release b → PacketFront b
  | nack {r : Bytes} : b.bytes = PacketId.nack.toUnderlying :: r →
      processPacket b = (do emit (.printed "Unhandled NACK"); release b) → PacketFront b
  | ack {r : Bytes} : b.bytes = PacketId.ack.toUnderlying :: r →
      processPacket b = processAck b → PacketFront b
  | frameSet {id : UInt8} {seq rest : Bytes} : IsFrameSet b id seq rest → PacketFront b

/-- Every datagram has one of the fronts. -/
theorem packetFront {b : BinaryBuffer} (hstart : b.index = 0) : PacketFront b := by
  cases hbytes : b.bytes with
  | nil =>
    refine .short (by rw [hbytes]; decide) (by simp [hbytes]) fun w => ?_
    exact run_bind_of_error (run_guarded_error (run_onBuffer_error (run_peekId_nil hstart hbytes)))
  | cons id r =>
    have hbranch := processPacket_branch hstart hbytes
    by_cases hmask : id &&& validFrameMask = validFrameMask
    · rw [if_neg (not_not.mpr hmask)] at hbranch
      by_cases hmax : validMaxFrameId < id
      · rw [if_pos hmax] at hbranch
        split at hbranch
        · next hid =>
          rw [PacketId.ofByte_eq_some.mp hid] at hbytes
          exact .nack hbytes hbranch
        · next hid =>
          rw [PacketId.ofByte_eq_some.mp hid] at hbytes
          exact .ack hbytes hbranch
        · next hack =>
          exact .ignored hbytes (fun h => h.not_above hmax)
            (fun h => hack (PacketId.ofByte_eq_some.mpr h)) hbranch
      · rw [if_neg hmax] at hbranch
        have hid := isFrameSetId_of_masked hmask hmax
        by_cases hlong : 3 ≤ r.length
        · have hset : IsFrameSet b id (r.take 3) (r.drop 3) :=
            ⟨by rw [hbytes, List.cons_append, List.take_append_drop], hstart, hid,
              by rw [List.length_take]; omega⟩
          exact .frameSet hset
        · -- the header is not all there
          have hlen : b.bytes.length < 4 := by
            rw [hbytes, List.length_cons]
            omega
          refine .short hlen (by simp [hbytes, hid]) fun w => ?_
          have hcheck := run_boundsCheck_short (b := b) (p := []) (hbytes ▸ hlen) (by decide)
          rw [← eq_between_start hstart hbytes] at hcheck
          rw [hbranch]
          exact run_owning_error (run_bind_of_error (run_onBuffer_error (run_bind_of_error hcheck)))
    · rw [if_pos hmask] at hbranch
      refine .ignored hbytes (fun h => hmask h.masked) ?_ hbranch
      rintro rfl
      exact hmask (by decide)

/-! ## Other datagrams -/

/-- The destructor of a buffer only reaches the pool. -/
theorem settles_release (b : BinaryBuffer) : Within Settles (release b) := fun w =>
  ⟨rfl, fun _ _ h => h, rfl, w.host.company.destroy_bufferSize _, rfl, .refl _ w⟩

/-- A text leaves the client as it is. -/
theorem settles_printed (line : String) : Within Settles (emit (.printed line)) := fun _ =>
  ⟨rfl, fun _ _ h => h, rfl, rfl, rfl, [.printed line], rfl, by simp [Event.isPrint]⟩

/-- Erasing a number takes at most an entry away. -/
theorem settles_eraseAckBuffer (id : UInt24) : Within Settles (eraseAckBuffer id) := by
  refine Within.bind Within.get fun w => ?_
  split
  · exact Within.pure _
  · refine Within.bind (fun w => ?_) fun _ => settles_release _
    refine ⟨rfl, fun index b h => ?_, rfl, rfl, rfl, .refl _ w⟩
    -- what is left has been there
    have hne : index ≠ id := by
      rintro rfl
      exact absurd ((AList.lookup_erase _ _).symm.trans h) nofun
    exact (AList.lookup_erase_ne hne).symm.trans h

/-- An acknowledgement takes entries away and does nothing else. -/
theorem settles_processAck (b : BinaryBuffer) : Within Settles (processAck b) := by
  refine within_owning (settles_release b) (Within.bind (within_onBuffer _ _) ?_)
  rintro ⟨ack, b'⟩
  dsimp only
  split
  · exact Within.forM settles_eraseAckBuffer _
  · exact Within.throw _

/-- A datagram that is no frame set is not answered, and at most it acknowledges something. -/
theorem processPacket_settles {b : BinaryBuffer} (hstart : b.index = 0)
    (h : ∀ id seq rest, ¬ IsFrameSet b id seq rest) : Within Settles (processPacket b) := by
  cases packetFront hstart with
  | short _ _ hrun =>
    intro w
    rw [after_of_error (hrun w)]
    exact settles_release b w
  | ignored _ _ _ hrun =>
    rw [hrun]
    exact settles_release b
  | nack _ hrun =>
    rw [hrun]
    exact Within.bind (settles_printed _) fun _ => settles_release b
  | ack _ hrun =>
    rw [hrun]
    exact settles_processAck b
  | frameSet hset => exact absurd hset (h _ _ _)

/-! ## The window -/

/-- The loop over the numbers of a gap counts from one number up to another. -/
theorem recordMissing_endsWithin (seq : UInt24) : ∀ (k : Nat) (current : UInt24)
    (missing : Finset UInt24), seq.toNat % 2 ^ 24 ≤ current.toNat % 2 ^ 24 + k →
    EndsWithin (· = none) (fun fuel => recordMissing seq fuel current missing) k
  | k, current, missing, h => by
    by_cases hlt : current < seq
    · have hnumbers := UInt24.lt_iff.mp hlt
      obtain ⟨m, rfl⟩ : ∃ m, k = m + 1 := Nat.exists_eq_succ_of_ne_zero (by omega)
      refine .round (fun fuel => if_pos hlt) (recordMissing_endsWithin seq m _ _ ?_)
      rw [UInt24.toNat_incr]
      omega
    · exact .stop (fun fuel => if_neg hlt) nofun k

/-- The loop that records the missing numbers ends. -/
theorem recordMissing_isSome (seq : UInt24) (fuel : Nat) (current : UInt24)
    (missing : Finset UInt24) (h : seq.toNat % 2 ^ 24 ≤ current.toNat % 2 ^ 24 + fuel) :
    (recordMissing seq (fuel + 1) current missing).isSome :=
  Option.isSome_iff_ne_none.mpr (recordMissing_endsWithin seq fuel current missing h).ends

/-- The record of missing numbers after a datagram that is not stale. -/
def missingAfter (seq expected : UInt24) (missing : Finset UInt24) : Finset UInt24 :=
  if expected < seq then (recordMissing seq (2 ^ 24) (expected.add ⟨1⟩) missing).getD missing
  else missing

/-- The state in which the frames of the datagram `seq` are handed on. -/
def World.advanced (w : World) (seq : UInt24) : World :=
  { w with this :=
      { w.this with
        nextExpectedSeq := w.this.nextExpectedSeq.incr
        missingPackets := missingAfter seq w.this.nextExpectedSeq w.this.missingPackets } }

/-- Moving the window on hands no frame on. -/
theorem calls_advanced (w : World) (seq : UInt24) : (w.advanced seq).calls = w.calls := rfl

/-- Moving the window on never throws. -/
theorem run_advanceWindow (seq : UInt24) (w : World) :
    (advanceWindow seq w.this.nextExpectedSeq).run w = .ok ⟨⟩ (w.advanced seq) := by
  unfold advanceWindow recordGap World.advanced missingAfter
  by_cases hlt : w.this.nextExpectedSeq < seq
  -- a gap has fewer than `2 ^ 24` numbers
  · have hsome : (recordMissing seq (2 ^ 24) (w.this.nextExpectedSeq.add ⟨1⟩)
        w.this.missingPackets).isSome :=
      recordMissing_isSome seq (2 ^ 24 - 1) _ _ (by omega)
    obtain ⟨missing, hmissing⟩ := Option.isSome_iff_exists.mp hsome
    simp only [EStateM.run_bind, EStateM.run_get, if_pos hlt, hmissing, run_modifyThis,
      Option.getD_some]
  · simp only [EStateM.run_bind, EStateM.run_get, if_neg hlt, EStateM.run_pure, run_modifyThis]

/-- A number that is not stale moves the window on and lets the loop run. -/
theorem processFrames_bind {seq : UInt24} {w : World} (h : ¬ seq < w.this.nextExpectedSeq)
    (b : BinaryBuffer) :
    (processFrames seq b).run w = (frameLoop (b.size + 1) b).run (w.advanced seq) := by
  unfold processFrames
  rw [run_get_bind]
  dsimp only
  rw [if_neg h]
  exact run_bind_of_ok (run_advanceWindow seq w)

/-- A stale datagram is dropped. -/
theorem processFrames_stale {seq : UInt24} {w : World} (h : seq < w.this.nextExpectedSeq)
    (b : BinaryBuffer) : (processFrames seq b).run w = .ok ⟨⟩ w := by
  unfold processFrames
  rw [run_get_bind]
  dsimp only
  rw [if_pos h]
  rfl

/-- A frame set that is not old moves the window on before its frames. -/
theorem after_processFrames {seq : UInt24} {w : World} (h : ¬ seq < w.this.nextExpectedSeq)
    (b : BinaryBuffer) :
    after (processFrames seq b) w = after (frameLoop (b.size + 1) b) (w.advanced seq) :=
  after_congr (processFrames_bind h b)

/-- An old one changes nothing. -/
theorem after_processFrames_stale {seq : UInt24} {w : World} (h : seq < w.this.nextExpectedSeq)
    (b : BinaryBuffer) : after (processFrames seq b) w = w :=
  after_of_ok (processFrames_stale h b)

/-! ## What a datagram leaves behind -/

/-- What `process_packet` does to the state, one step at a time. -/
structure PacketBound (R : World → World → Prop) : Prop extends LoopBound R where
  advanced : ∀ (w : World) (seq : UInt24), R w (w.advanced seq)
  settled : ∀ w w', Settles w w' → R w w'

/-- A frame set is the window that moves on and the loop, for whatever bounds both. -/
theorem LoopBound.within_frameSet {R : World → World → Prop} [IsPreorder World R]
    (h : LoopBound R) (hadvanced : ∀ (w : World) (seq : UInt24), R w (w.advanced seq))
    {b : BinaryBuffer} {id : UInt8} {seq rest : Bytes} (hset : IsFrameSet b id seq rest) :
    Within R (processPacket b) := by
  intro w
  rw [hset.processPacket_eq, after_owning]
  refine IsTrans.trans _ _ _ ?_ (h.answers _ _ (within_release b _))
  by_cases hstale : IsFrameSet.number seq < w.this.nextExpectedSeq
  · rw [after_processFrames_stale hstale]
    exact refl w
  · rw [after_processFrames hstale]
    exact IsTrans.trans _ _ _ (hadvanced w _) (h.frameLoop _ b (id :: seq) rest _)

/-- `process_packet` stays within such a bound, whatever the datagram is. -/
theorem PacketBound.within_processPacket {R : World → World → Prop} [IsPreorder World R]
    (h : PacketBound R) {b : BinaryBuffer} (hstart : b.index = 0) :
    Within R (processPacket b) := by
  by_cases hset : ∃ id seq rest, IsFrameSet b id seq rest
  · obtain ⟨id, seq, rest, hset⟩ := hset
    exact h.within_frameSet h.advanced hset
  · exact (processPacket_settles hstart fun id seq rest hb => hset ⟨id, seq, rest, hb⟩).mono
      h.settled

/-! ## In front of frames -/

namespace IsFrameSet

variable {b : BinaryBuffer} {id : UInt8} {seq tail : Bytes} {fs : List ParsedFrame} {w : World}

theorem length_header {rest : Bytes} (h : IsFrameSet b id seq rest) : (id :: seq).length = 4 := by
  rw [List.length_cons, h.length_seq]

theorem size_eq {rest : Bytes} (h : IsFrameSet b id seq rest) : b.size = 4 + rest.length := by
  rw [h.eq_between, between_size, List.length_append, h.length_header, List.length_nil,
    Nat.zero_add]

/-- The datagram's own buffer is given back behind its frames. -/
theorem after_processPacket {rest : Bytes} (h : IsFrameSet b id seq rest) (w : World) :
    after (processPacket b) w =
      after (release b) (after (processFrames (number seq) (b.between (id :: seq) rest)) w) := by
  rw [h.processPacket_eq, after_owning]

/-- A datagram in the window is the rounds of its frames and then the loop in front of the rest. -/
theorem run_rounds (h : IsFrameSet b id seq (fs.flatMap ParsedFrame.bytes ++ tail))
    (hstale : ¬ number seq < w.this.nextExpectedSeq)
    (hlast : ∀ f ∈ fs.getLast?, 4 < f.bytes.length + tail.length) :
    ∃ fuel, (processFrames (number seq)
        (b.between (id :: seq) (fs.flatMap ParsedFrame.bytes ++ tail))).run w =
      (rounds b.home b.size 4 fs tail >>= fun _ => frameLoop (fuel + 1)
        (b.between (id :: seq ++ fs.flatMap ParsedFrame.bytes) tail)).run (w.advanced (number seq)) := by
  have hlen := h.length_header
  have hsize := h.size_eq
  have hfs := ParsedFrame.length_le_length_flatMap fs
  refine ⟨b.size - fs.length, ?_⟩
  rw [processFrames_bind hstale, between_size, hlen, ← hsize,
    show b.size + 1 = b.size - fs.length + 1 + fs.length by
      rw [List.length_append] at hsize; omega,
    frameLoop_rounds _ b tail fs (id :: seq) hlast, hlen, ← hsize]

/-- With four bytes or fewer behind the frames, that is all. -/
theorem run_rounds_end (h : IsFrameSet b id seq (fs.flatMap ParsedFrame.bytes ++ tail))
    (hstale : ¬ number seq < w.this.nextExpectedSeq)
    (hlast : ∀ f ∈ fs.getLast?, 4 < f.bytes.length + tail.length) (htail : tail.length ≤ 4) :
    (processFrames (number seq)
        (b.between (id :: seq) (fs.flatMap ParsedFrame.bytes ++ tail))).run w =
      (rounds b.home b.size 4 fs tail).run (w.advanced (number seq)) := by
  obtain ⟨fuel, hrun⟩ := h.run_rounds hstale hlast
  rw [hrun, frameLoop_end htail, bind_pure_unit]

/-- A datagram of whole frames returns when the rounds over them do. -/
theorem succeeds_iff_rounds (h : IsFrameSet b id seq (fs.flatMap ParsedFrame.bytes ++ tail))
    (hstale : ¬ number seq < w.this.nextExpectedSeq)
    (hlast : ∀ f ∈ fs.getLast?, 4 < f.bytes.length + tail.length) (htail : tail.length ≤ 4) :
    Succeeds (processPacket b) w ↔
      Succeeds (rounds b.home b.size 4 fs tail) (w.advanced (number seq)) := by
  rw [h.processPacket_eq, succeeds_owning]
  exact succeeds_congr (h.run_rounds_end hstale hlast htail)

/-- What a datagram of whole frames leaves is what the rounds over them leave. -/
theorem after_eq_rounds (h : IsFrameSet b id seq (fs.flatMap ParsedFrame.bytes ++ tail))
    (hstale : ¬ number seq < w.this.nextExpectedSeq)
    (hlast : ∀ f ∈ fs.getLast?, 4 < f.bytes.length + tail.length) (htail : tail.length ≤ 4) :
    after (processPacket b) w = after (release b)
      (after (rounds b.home b.size 4 fs tail) (w.advanced (number seq))) := by
  rw [h.after_processPacket]
  exact congrArg (after (release b)) (after_congr (h.run_rounds_end hstale hlast htail))

end IsFrameSet

end Rakro
