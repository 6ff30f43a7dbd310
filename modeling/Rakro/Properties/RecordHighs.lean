import Rakro.Infra.Records
import Rakro.Properties.Lanes

/-!
# Streams of sequenced frames

As long as only sequenced frames come, the count of a channel is one more than the largest sequence
index so far, and the turn of the channel stays at zero. So a frame is passed on exactly when its
sequence index is a record of its channel.
-/

namespace Rakro

open Infra

/-- A sequenced frame, on whichever channel. -/
structure SequencedFrame where
  channel : Channel
  frame : LaneFrame channel
  number : UInt24
  sequenced : frame.info.sequenceFrameIndex = some number

namespace SequencedFrame

/-- The sequence number as a number. -/
def value (f : SequencedFrame) : ℕ := f.number.toNat

/-- The frame is handed to `process_frame`. -/
def arrive (f : SequencedFrame) : ClientM PUnit := f.frame.arrive

/-- The bytes of the frame's body. -/
def payload (f : SequencedFrame) : Bytes := f.frame.buffer.remainingSlice

/-- A sequence number fits 24 bits. -/
theorem canonical (f : SequencedFrame) : f.number.Canonical :=
  f.frame.canonical f.number f.sequenced

end SequencedFrame

/-! ## The counts -/

/-- The counts behind the frames `l`. -/
structure Counts (l : List SequencedFrame) (w : World) : Prop where
  ndebug : w.host.ndebug = true
  stores : w.StoresByKey
  next : ∀ c, (w.lane c).next = 0
  count : ∀ c, (w.lane c).sequenced.toNat = bar SequencedFrame.channel SequencedFrame.value l c

section Counts

variable {l : List SequencedFrame} {f : SequencedFrame} {w : World}

/-- With the counts as they are, a frame is current when it is a record. -/
theorem Counts.isCurrent_iff (h : Counts l w) : f.frame.IsCurrent f.number (w.lane f.channel) ↔
    IsRecord SequencedFrame.channel SequencedFrame.value l f := by
  unfold LaneFrame.IsCurrent
  rw [isRecord_iff, h.next, UInt32.le_iff_toNat_le, h.count]
  exact and_iff_left UInt32.zero_le

/-- A record is passed on, and nothing else. -/
theorem Counts.delivered (h : Counts l w) : (after f.arrive w).delivered = w.delivered ++
    if IsRecord SequencedFrame.channel SequencedFrame.value l f then [f.payload] else [] := by
  by_cases hrecord : IsRecord SequencedFrame.channel SequencedFrame.value l f
  · obtain ⟨w', hdelivered, -, hrun⟩ :=
      f.frame.run_arrive_current h.ndebug f.sequenced (h.isCurrent_iff.mpr hrecord)
    rw [if_pos hrecord, SequencedFrame.arrive, after_congr hrun, delivered_processData, hdelivered]
    rfl
  · obtain ⟨w', hans, hrun⟩ :=
      f.frame.run_arrive_superseded h.ndebug f.sequenced (mt h.isCurrent_iff.mp hrecord)
    rw [if_neg hrecord, SequencedFrame.arrive, after_of_ok hrun,
      LaneFrame.delivered_of_answers hans, List.append_nil]

/-- The lane of a frame: the count follows a record. -/
theorem Counts.lane (h : Counts l w) : ((after f.arrive w).lane f.channel).next = 0 ∧
    ((after f.arrive w).lane f.channel).sequenced.toNat =
      bar SequencedFrame.channel SequencedFrame.value (l ++ [f]) f.channel := by
  by_cases hrecord : IsRecord SequencedFrame.channel SequencedFrame.value l f
  · obtain ⟨w', -, hlane, hrun⟩ :=
      f.frame.run_arrive_current h.ndebug f.sequenced (h.isCurrent_iff.mpr hrecord)
    rw [SequencedFrame.arrive, after_congr hrun, lane_processData, hlane, bar_record hrecord]
    refine ⟨h.next f.channel, ?_⟩
    have hlt : f.number.value.toNat < 2 ^ 24 := f.canonical
    show (f.number.value + 1).toNat = f.number.value.toNat + 1
    rw [UInt32.toNat_add]
    show (f.number.value.toNat + 1) % 2 ^ 32 = _
    omega
  · obtain ⟨w', hans, hrun⟩ :=
      f.frame.run_arrive_superseded h.ndebug f.sequenced (mt h.isCurrent_iff.mp hrecord)
    rw [SequencedFrame.arrive, after_of_ok hrun, LaneFrame.lane_of_answers hans,
      bar_not_record hrecord]
    exact ⟨h.next f.channel, h.count f.channel⟩

/-- One step. -/
theorem Counts.step (h : Counts l w) : Counts (l ++ [f]) (after f.arrive w) := by
  obtain ⟨hstores, haround, -⟩ := staysOn_processFrame f.frame.start f.frame.order f.frame.position
    w h.stores
  refine ⟨haround.ndebug.trans h.ndebug, hstores, fun c => ?_, fun c => ?_⟩
  · by_cases hc : c = f.channel
    · rw [hc]
      exact h.lane.1
    · exact (congrArg Lane.next (haround.lanes c hc)).trans (h.next c)
  · by_cases hc : c = f.channel
    · rw [hc]
      exact h.lane.2
    · rw [bar_other (Ne.symm hc), ← h.count c]
      exact congrArg (UInt32.toNat ∘ Lane.sequenced) (haround.lanes c hc)

end Counts

theorem counts_fresh {w : World} (hfresh : w.this.IsFresh) (hdebug : w.host.ndebug = true) :
    Counts [] w := by
  refine ⟨hdebug, ?_, fun c => ?_, fun c => ?_⟩
  · unfold World.StoresByKey
    rw [hfresh]
    exact allEntries_empty _
  · obtain ⟨c, hc⟩ := c
    show w.this.orderedBufferNextPackets[c.toNat] = 0
    rw [hfresh]
    exact Vector.getElem_replicate _
  · obtain ⟨c, hc⟩ := c
    show w.this.sequencedPacketsNextPacket[c.toNat].toNat = 0
    rw [hfresh]
    exact congrArg UInt32.toNat (Vector.getElem_replicate _)

/-! ## The stream -/

/-- The frames that are records of their channels. -/
def recordHighs (frames : List SequencedFrame) : List SequencedFrame :=
  records SequencedFrame.channel SequencedFrame.value frames

/-- The last frame is a record or leaves the records as they are. -/
theorem recordHighs_concat (l : List SequencedFrame) (f : SequencedFrame) :
    recordHighs (l ++ [f]) = recordHighs l ++
      if IsRecord SequencedFrame.channel SequencedFrame.value l f then [f] else [] :=
  records_concat l f

/--
Each frame is passed on when it comes, once and nothing else, if it is a record of its channel, and
never if it is not. So of each channel, its records are passed on.
-/
structure DeliversRecords (w : World) (frames : List SequencedFrame) : Prop where
  atOnce : ∀ l f, l ++ [f] <+: frames →
    (afterAll SequencedFrame.arrive w (l ++ [f])).delivered =
      (afterAll SequencedFrame.arrive w l).delivered ++
        if ∀ g ∈ l, g.channel = f.channel → g.number.toNat < f.number.toNat then [f.payload] else []
  total : (afterAll SequencedFrame.arrive w frames).delivered =
    w.delivered ++ (recordHighs frames).map SequencedFrame.payload
  ofChannel : ∀ c, (recordHighs frames).filter (fun f => f.channel = c) =
    recordHighs (frames.filter fun f => f.channel = c)

/-- **Of a stream of sequenced frames, exactly the record highs of each channel are delivered.** -/
theorem deliversRecords {w : World} (hfresh : w.this.IsFresh) (hdebug : w.host.ndebug = true)
    (frames : List SequencedFrame) : DeliversRecords w frames := by
  have hcounts (l : List SequencedFrame) (hl : l <+: frames) :
      Counts l (afterAll SequencedFrame.arrive w l) :=
    afterAll_induction (counts_fresh hfresh hdebug) (fun _ _ _ h => h.step) l hl
  refine ⟨fun l f hl => ?_, ?_, fun c => filter_records c frames⟩
  · rw [afterAll_concat]
    exact (hcounts l ((List.prefix_append l [f]).trans hl)).delivered
  · refine afterAll_induction (P := fun l (w' : World) => w'.delivered =
      w.delivered ++ (recordHighs l).map SequencedFrame.payload) (List.append_nil _).symm
      (fun l f hl ih => ?_) frames (List.prefix_refl frames)
    rw [(hcounts l ((List.prefix_append l [f]).trans hl)).delivered, ih, recordHighs_concat,
      List.map_append, List.append_assoc]
    split <;> rfl

/-- A sequenced frame of a channel with a message that needs no answer. -/
def sequencedOn (c : Channel) (number : UInt8) : SequencedFrame where
  channel := c
  frame :=
    { info :=
        { bodyLeng := 1, rely := .unreliableSequenced
          sequenceFrameIndex := some (.ofNat number.toNat), orderInfo := some (orderOn c {}) }
      buffer := { bytes := [0x13] }
      index := {}
      order := rfl
      canonical := by
        rintro _ ⟨⟩
        exact UInt24.ofNat_canonical (Nat.lt_trans number.toNat_lt (by decide))
      position := by
        unfold UInt24.Canonical
        decide
      start := rfl }
  number := .ofNat number.toNat
  sequenced := rfl

/-- On channel 0 the index 3 comes a second time, and 5 behind it. -/
def twoChannels : List SequencedFrame :=
  [sequencedOn ⟨0, by decide⟩ 3, sequencedOn ⟨1, by decide⟩ 2, sequencedOn ⟨0, by decide⟩ 3,
    sequencedOn ⟨0, by decide⟩ 5]

/-- Frames on two channels, one of them superseded. -/
theorem deliversRecords_twoChannels :
    (recordHighs twoChannels).length = 3 ∧ DeliversRecords looseBuild twoChannels :=
  ⟨by decide, deliversRecords (show looseBuild.this.IsFresh from rfl) rfl twoChannels⟩

end Rakro
