import Rakro.Properties.AtMostOnce
import Rakro.Properties.FrameReturns

/-!
# Reordering

The counter moves on by one for each datagram that is accepted. So a datagram is lost as soon as
more of them have been accepted than its number says, and the only order that loses none is that of
the numbers.
-/

namespace Rakro

open Infra BinaryBuffer SequenceWindow

/--
A datagram of whole frames: headers that the reader accepts, each with as many bytes of body as it
announces.
-/
structure WholeDatagram extends Datagram where
  frames : List ParsedFrame
  rest_eq : rest = frames.flatMap ParsedFrame.bytes

namespace WholeDatagram

variable {w : World}

theorem isFrameSet_frames (d : WholeDatagram) :
    IsFrameSet d.buffer d.id d.number (d.frames.flatMap ParsedFrame.bytes) :=
  d.rest_eq ▸ d.isFrameSet

/-- When it is received in the state `w`, all its frames are handed on, and nothing else is. -/
def HandedOn (d : WholeDatagram) (w : World) : Prop :=
  HandsOn d.buffer d.frames (w.flushed d.buffer)

/--
None of its frames is a fragment, the last one is longer than four bytes, and those before it are
got through.
-/
def GetsThrough (d : WholeDatagram) (w : World) : Prop :=
  (∀ f ∈ d.frames, f.info.fragmentInfo = none) ∧ ∀ init last, d.frames = init ++ [last] →
    4 < last.bytes.length ∧
      RoundsReturn d.buffer.home d.buffer.size 4 init last.bytes
        ((w.flushed d.buffer).advanced (IsFrameSet.number d.number))

/-- A datagram that is not old is handed on when it is got through. -/
theorem handedOn_iff_getsThrough (d : WholeDatagram) (hw : w.StoresByKey)
    (hstale : ¬ IsFrameSet.number d.number < w.this.nextExpectedSeq) :
    d.HandedOn w ↔ d.GetsThrough w := by
  have hstores : ((w.flushed d.buffer).advanced (IsFrameSet.number d.number)).StoresByKey :=
    storesByKey_of_eq hw rfl
  rw [HandedOn, handsOn_iff (w := w.flushed d.buffer) d.isFrameSet_frames hstale, GetsThrough]
  simp only [succeeds_rounds _ _ _ _ _ hstores]

end WholeDatagram

/-- The datagrams, without their frames. -/
def datagrams (ds : List WholeDatagram) : List Datagram := ds.map WholeDatagram.toDatagram

/-- The state after some datagrams. -/
def afterDatagrams (w : World) (ds : List WholeDatagram) : World :=
  afterAll Datagram.arrive w (datagrams ds)

/-- No datagram is discarded as stale, and the frames of each are handed on. -/
def NoLoss (w : World) (ds : List WholeDatagram) : Prop :=
  ∀ l d, l ++ [d] <+: ds →
    ¬ IsFrameSet.number d.number < (afterDatagrams w l).this.nextExpectedSeq ∧
      d.HandedOn (afterDatagrams w l)

section NoLoss

variable {w : World} {ds : List WholeDatagram} {n : ℕ}

/-- Fewer than `2 ^ 24` numbers, each of them once, do not wrap. -/
theorem noWrap_of_perm (hn : n < 2 ^ 24) (hperm : (seqs (datagrams ds)).Perm (List.range n)) :
    NoWrap (datagrams ds) := by
  intro d hd
  have hlt := List.mem_range.mp (hperm.mem_iff.mp (List.mem_map_of_mem (f := Datagram.seq) hd))
  omega

/-- In a run from a fresh client, packets stay stored by key. -/
theorem storesByKey_afterDatagrams (hfresh : w.this.IsFresh) (ds : List WholeDatagram) :
    (afterDatagrams w ds).StoresByKey := by
  refine afterAll_induction (P := fun _ w => World.StoresByKey w) ?_ (fun l d _ ih => ?_) _
    (List.prefix_refl _)
  · intro key val h
    rw [hfresh] at h
    exact absurd h (by simp [AList.lookup_empty])
  · exact keepsStore_processPacket d.isFrameSet.start _ (storesByKey_of_eq ih rfl)

/-- A datagram is stale when its number is below the count of those accepted. -/
theorem stale_afterDatagrams (hfresh : w.this.IsFresh) (hds : NoWrap (datagrams ds))
    {l : List WholeDatagram} {d : WholeDatagram} (hl : l ++ [d] <+: ds) :
    IsFrameSet.number d.number < (afterDatagrams w l).this.nextExpectedSeq ↔
      d.seq < (run (seqs (datagrams l))).next := by
  obtain ⟨hwindow, hcanon⟩ := window_arriveAll hfresh hds (datagrams l)
    (((List.prefix_append l [d]).trans hl).map _)
  rw [← hwindow]
  exact d.stale_iff hcanon

/-- A prefix of the numbers belongs to a prefix of the datagrams. -/
theorem exists_prefix {l' : List ℕ} {s : ℕ} (h : l' ++ [s] <+: seqs (datagrams ds)) :
    ∃ l d, l ++ [d] <+: ds ∧ l' = seqs (datagrams l) ∧ s = d.seq := by
  unfold seqs datagrams at h
  rw [List.map_map] at h
  obtain ⟨l, hl, heq⟩ := List.prefix_map_iff.mp h
  cases l using List.reverseRecOn with
  | nil => simp at heq
  | append_singleton l d =>
    rw [List.map_append] at heq
    obtain ⟨hseqs, hs⟩ := List.append_inj' heq rfl
    exact ⟨l, d, hl, by rw [hseqs, seqs, datagrams, List.map_map], List.singleton_inj.mp hs⟩

/--
**Of the orders in which `n` datagrams can come, only that of their numbers loses none, and there
just when each of them gets through.**
-/
theorem noLoss_iff (hfresh : w.this.IsFresh) (hn : n < 2 ^ 24)
    (hperm : (seqs (datagrams ds)).Perm (List.range n)) :
    NoLoss w ds ↔ seqs (datagrams ds) = List.range n ∧
      ∀ l d, l ++ [d] <+: ds → d.GetsThrough (afterDatagrams w l) := by
  have hds := noWrap_of_perm hn hperm
  have hstores := storesByKey_afterDatagrams hfresh
  -- that nothing is stale is a matter of the numbers alone
  rw [← none_stale_iff hperm]
  constructor
  · intro hloss
    refine ⟨fun l' s hl' => ?_, fun l d hl => ?_⟩
    · obtain ⟨l, d, hl, rfl, rfl⟩ := exists_prefix hl'
      exact Nat.le_of_not_lt (mt (stale_afterDatagrams hfresh hds hl).mpr (hloss l d hl).1)
    · exact (d.handedOn_iff_getsThrough (hstores l) (hloss l d hl).1).mp (hloss l d hl).2
  · rintro ⟨hfreshNumbers, hthrough⟩ l d hl
    have hprefix : seqs (datagrams l) ++ [d.seq] <+: seqs (datagrams ds) := by
      have h := (hl.map WholeDatagram.toDatagram).map Datagram.seq
      rwa [List.map_append, List.map_append] at h
    have hstale : ¬ IsFrameSet.number d.number < (afterDatagrams w l).this.nextExpectedSeq :=
      mt (stale_afterDatagrams hfresh hds hl).mp (Nat.not_lt.mpr (hfreshNumbers _ _ hprefix))
    exact ⟨hstale, (d.handedOn_iff_getsThrough (hstores l) hstale).mpr (hthrough l d hl)⟩

end NoLoss

/-- A datagram with one short frame, as whole frames. -/
def wholeDatagram (n : UInt8) : WholeDatagram where
  toDatagram := singleDatagram n
  frames := [pairFrame.parsed]
  rest_eq := by rw [List.flatMap_singleton]; rfl

/-- The datagrams below are got through in every state. -/
theorem getsThrough_wholeDatagram (n : UInt8) (w : World) : (wholeDatagram n).GetsThrough w := by
  refine ⟨by simp [wholeDatagram, WireFrame.unfragmented_parsed], fun init last heq => ?_⟩
  have heq' : [] ++ [pairFrame.parsed] = init ++ [last] := heq
  obtain ⟨rfl, hlast⟩ := List.append_inj' heq' rfl
  obtain rfl := List.singleton_inj.mp hlast
  exact ⟨by decide, trivial⟩

/-- Two datagrams in their order. -/
theorem noLoss_inOrder : NoLoss smallPool [wholeDatagram 0, wholeDatagram 1] := by
  refine (noLoss_iff (n := 2) smallPool_isFresh (by decide) (List.Perm.refl _)).mpr
    ⟨rfl, fun l d hl => ?_⟩
  have hmem : d ∈ [wholeDatagram 0, wholeDatagram 1] :=
    hl.subset (List.mem_append_right l (List.mem_singleton.mpr rfl))
  rcases List.mem_pair.mp hmem with rfl | rfl
  · exact getsThrough_wholeDatagram 0 _
  · exact getsThrough_wholeDatagram 1 _

/-- Two datagrams in reverse: the number 0 is discarded, though it has not come before. -/
theorem not_noLoss_reversed :
    (seqs (datagrams [wholeDatagram 1, wholeDatagram 0])).Perm (List.range 2) ∧
      ¬ NoLoss smallPool [wholeDatagram 1, wholeDatagram 0] := by
  have hperm : (seqs (datagrams [wholeDatagram 1, wholeDatagram 0])).Perm (List.range 2) :=
    List.Perm.swap _ _ _
  refine ⟨hperm, fun hloss => ?_⟩
  refine (hloss [wholeDatagram 1] (wholeDatagram 0) (List.prefix_refl _)).1 ?_
  refine (stale_afterDatagrams smallPool_isFresh (noWrap_of_perm (by decide) hperm)
    (List.prefix_refl [wholeDatagram 1, wholeDatagram 0])).mpr ?_
  decide

end Rakro
