import Rakro.Properties.FrameSet
import Rakro.Spec.SequenceWindow
import Mathlib.Algebra.Order.Interval.Finset.SuccPred
import Mathlib.Data.Nat.SuccPred

/-!
# The receive window of a client

A frame set changes the counter and the record of missing numbers exactly as the window on numbers
does, whatever its frames are and however their processing ends. So what holds of the window on
numbers holds of the client after every sequence of datagrams.
-/

namespace Rakro

open Infra BinaryBuffer SequenceWindow

/-! ## The refinement -/

/-- The window of a client, as numbers. -/
def World.window (w : World) : SequenceWindow where
  next := w.this.nextExpectedSeq.toNat
  missing := w.this.missingPackets.image UInt24.toNat

/-- The same window shows the same numbers. -/
theorem SameWindow.window {w w' : World} (h : SameWindow w w') : w'.window = w.window := by
  unfold World.window
  rw [h.nextExpectedSeq, h.missingPackets]

/-- The loop over a gap adds its numbers to the record. -/
theorem recordMissing_image {seq : UInt24} (hseq : seq.Canonical) : ∀ (fuel : Nat)
    (current : UInt24) (missing result : Finset UInt24), current.Canonical →
    recordMissing seq fuel current missing = some result →
    result.image UInt24.toNat =
      missing.image UInt24.toNat ∪ Finset.Ico current.toNat seq.toNat
  | 0, _, _, _, _, h => by cases h
  | fuel + 1, current, missing, result, hcur, h => by
    rw [recordMissing] at h
    split at h
    · next hlt =>
      rw [UInt24.lt_iff_of_canonical hcur hseq] at hlt
      have hincr : current.incr.toNat = current.toNat + 1 :=
        UInt24.toNat_incr_of_lt (by unfold UInt24.Canonical at hseq; omega)
      have hval : (UInt24.mk current.getValue).toNat = current.toNat := rfl
      rw [recordMissing_image hseq fuel _ _ _ current.incr_canonical h, hincr, Finset.image_insert,
        hval, Finset.insert_union, ← Finset.union_insert, Finset.insert_Ico_add_one_left_eq_Ico hlt]
    · next hlt =>
      rw [UInt24.lt_iff_of_canonical hcur hseq] at hlt
      cases h
      rw [Finset.Ico_eq_empty hlt, Finset.union_empty]

/-- As numbers, those between are added to the missing ones. -/
theorem missingAfter_image {seq expected : UInt24} (hseq : seq.Canonical)
    (hexpected : expected.Canonical) (missing : Finset UInt24) :
    (missingAfter seq expected missing).image UInt24.toNat =
      missing.image UInt24.toNat ∪ Finset.Ioo expected.toNat seq.toNat := by
  unfold missingAfter
  split
  · next hlt =>
    rw [UInt24.lt_iff_of_canonical hexpected hseq] at hlt
    have hadd : (expected.add ⟨1⟩).toNat = expected.toNat + 1 := by
      unfold UInt24.Canonical at hseq
      show (expected.value + 1).toNat = _
      rw [UInt32.toNat_add]
      show (expected.toNat + 1) % 2 ^ 32 = _
      omega
    have hcanon : (expected.add ⟨1⟩).Canonical := by
      unfold UInt24.Canonical at hseq ⊢
      omega
    have hsome : (recordMissing seq (2 ^ 24) (expected.add ⟨1⟩) missing).isSome :=
      recordMissing_isSome seq (2 ^ 24 - 1) _ _ (by omega)
    obtain ⟨result, hresult⟩ := Option.isSome_iff_exists.mp hsome
    rw [hresult, Option.getD_some, recordMissing_image hseq _ _ _ _ hcanon hresult, hadd]
    rfl
  · next hlt =>
    rw [UInt24.lt_iff_of_canonical hexpected hseq] at hlt
    rw [Finset.Ioo_eq_empty (by omega), Finset.union_empty]

/-! ## Datagrams -/

/-- A datagram of the frame set branch that arrives. -/
structure Datagram where
  buffer : BinaryBuffer
  id : UInt8
  number : Bytes
  rest : Bytes
  isFrameSet : IsFrameSet buffer id number rest

namespace Datagram

/-- The sequence number in the header. -/
def seq (d : Datagram) : ℕ := ofLeBytes d.number

/-- The datagram is received into its buffer, and `process_packet` is called with it. -/
def arrive (d : Datagram) : ClientM PUnit := do
  modify (World.flushed · d.buffer)
  processPacket d.buffer

theorem after_arrive (d : Datagram) (w : World) :
    after d.arrive w = after (processPacket d.buffer) (w.flushed d.buffer) := rfl

theorem toNat_number (d : Datagram) : (IsFrameSet.number d.number).toNat = d.seq :=
  UInt24.toNat_ofNat (ofLeBytes_lt_three d.isFrameSet.length_seq)

variable {w : World}

/-- A datagram is old to the client when it is old to the window. -/
theorem stale_iff (d : Datagram) (hw : w.this.nextExpectedSeq.Canonical) :
    IsFrameSet.number d.number < w.this.nextExpectedSeq ↔ d.seq < w.window.next := by
  rw [UInt24.lt_iff_of_canonical d.isFrameSet.number_canonical hw, d.toNat_number]
  rfl

/-- The frames of a datagram leave the window as its header has set it. -/
theorem arrive_sameWindow (d : Datagram) (h : ¬ IsFrameSet.number d.number < w.this.nextExpectedSeq) :
    SameWindow (w.advanced (IsFrameSet.number d.number)) (after d.arrive w) := by
  rw [after_arrive, d.isFrameSet.after_processPacket,
    after_processFrames (w := w.flushed d.buffer) h]
  have hloop := sameWindow_loopBound.frameLoop
    ((d.buffer.between (d.id :: d.number) d.rest).size + 1) d.buffer (d.id :: d.number) d.rest
    ((w.flushed d.buffer).advanced (IsFrameSet.number d.number))
  exact ⟨hloop.1, hloop.2⟩

/-- An old datagram is given back unread. -/
theorem arrive_stale (d : Datagram) (h : IsFrameSet.number d.number < w.this.nextExpectedSeq) :
    after d.arrive w = after (release d.buffer) (w.flushed d.buffer) := by
  rw [after_arrive, d.isFrameSet.after_processPacket,
    after_processFrames_stale (w := w.flushed d.buffer) h]

/-- **A datagram that arrives does to the window what its number does.** -/
theorem window_arrive (d : Datagram) (hw : w.this.nextExpectedSeq.Canonical)
    (hd : d.seq < 2 ^ 24 - 1) : (after d.arrive w).window = w.window.receive d.seq := by
  by_cases hstale : IsFrameSet.number d.number < w.this.nextExpectedSeq
  · rw [d.arrive_stale hstale, SequenceWindow.receive_stale ((d.stale_iff hw).mp hstale)]
    rfl
  · have hle : w.window.next ≤ d.seq := Nat.le_of_not_lt fun h => hstale ((d.stale_iff hw).mpr h)
    -- far below the wrap, the counter is a number
    have hincr : w.this.nextExpectedSeq.incr.toNat = w.window.next + 1 :=
      UInt24.toNat_incr_of_lt (show w.window.next + 1 < 2 ^ 24 by omega)
    have hmissing := missingAfter_image d.isFrameSet.number_canonical hw w.this.missingPackets
    rw [d.toNat_number] at hmissing
    rw [(d.arrive_sameWindow hstale).window, SequenceWindow.receive, if_neg (Nat.not_lt.mpr hle)]
    unfold World.window World.advanced
    rw [hincr, hmissing]
    rfl

/-- The next number still fits 24 bits behind a datagram. -/
theorem arrive_canonical (d : Datagram) (hw : w.this.nextExpectedSeq.Canonical) :
    (after d.arrive w).this.nextExpectedSeq.Canonical := by
  by_cases hstale : IsFrameSet.number d.number < w.this.nextExpectedSeq
  · rw [d.arrive_stale hstale]; exact hw
  · rw [(d.arrive_sameWindow hstale).nextExpectedSeq]
    exact w.this.nextExpectedSeq.incr_canonical

end Datagram

/-! ## Runs -/

/-- The sequence numbers of some datagrams, in the order of their arrival. -/
def seqs (ds : List Datagram) : List ℕ := ds.map Datagram.seq

theorem seqs_concat (l : List Datagram) (d : Datagram) : seqs (l ++ [d]) = seqs l ++ [d.seq] :=
  List.map_append

/-- No number is so large that the counter could wrap. -/
def NoWrap (ds : List Datagram) : Prop := ∀ d ∈ ds, d.seq < 2 ^ 24 - 1

instance (ds : List Datagram) : Decidable (NoWrap ds) :=
  inferInstanceAs (Decidable (∀ d ∈ ds, d.seq < 2 ^ 24 - 1))

section Runs

variable {w : World} {ds : List Datagram}

/-- **After each datagram the window of a client is the window on the numbers.** -/
theorem window_arriveAll (hfresh : w.this.IsFresh) (hds : NoWrap ds) (l : List Datagram)
    (hl : l <+: ds) : (afterAll Datagram.arrive w l).window = SequenceWindow.run (seqs l) ∧
      (afterAll Datagram.arrive w l).this.nextExpectedSeq.Canonical := by
  refine afterAll_induction (P := fun l (w : World) => w.window = SequenceWindow.run (seqs l) ∧
    w.this.nextExpectedSeq.Canonical) ⟨?_, ?_⟩ (fun l d hl ih => ?_) l hl
  · unfold World.window
    rw [hfresh]
    rfl
  · rw [hfresh]
    exact UInt24.ofNat_canonical (n := 0) (by decide)
  · obtain ⟨hwindow, hcanon⟩ := ih
    have hd := hds d (hl.mem (List.mem_append_right l (List.mem_singleton_self d)))
    rw [seqs_concat, SequenceWindow.run_concat, ← hwindow]
    exact ⟨d.window_arrive hcanon hd, d.arrive_canonical hcanon⟩

/--
After each datagram the numbers recorded as missing are those below the largest one received that
have not been received themselves.
-/
def GapsExact (w : World) (ds : List Datagram) : Prop :=
  ∀ l, l <+: ds →
    (afterAll Datagram.arrive w l).this.missingPackets.image UInt24.toNat = gaps (seqs l)

/--
**The record of missing numbers is exact just when no datagram comes while a smaller number is
missing.**
-/
theorem gapsExact_iff (hfresh : w.this.IsFresh) (hds : NoWrap ds) :
    GapsExact w ds ↔ InTurns (seqs ds) := by
  have hwindow : ∀ l, l <+: ds →
      (afterAll Datagram.arrive w l).this.missingPackets.image UInt24.toNat = (run (seqs l)).missing :=
    fun l hl => congrArg SequenceWindow.missing (window_arriveAll hfresh hds l hl).1
  rw [← missing_eq_gaps_iff]
  constructor
  · intro hexact l hl
    obtain ⟨l', hl', rfl⟩ := List.prefix_map_iff.mp hl
    exact (hwindow l' hl').symm.trans (hexact l' hl')
  · intro hexact l hl
    rw [hwindow l hl]
    exact hexact _ (hl.map _)

end Runs

/-- A datagram with a header only. -/
def bareDatagram (n : UInt8) : Datagram where
  buffer := { bytes := [0x80, n, 0, 0] }
  id := 0x80
  number := [n, 0, 0]
  rest := []
  isFrameSet := ⟨rfl, rfl, ⟨by decide, by decide⟩, rfl⟩

/-- Two numbers in their order, and the first of them again. -/
theorem gapsExact_inOrder :
    GapsExact smallPool [bareDatagram 0, bareDatagram 1, bareDatagram 0] := by
  have hone : turns ([] ++ [0]) = 1 := turns_eq (by simp) (by simp)
  have hturns : InTurns ([] ++ [0] ++ [1] ++ [0]) :=
    inTurns_concat.mpr ⟨inTurns_concat.mpr ⟨inTurns_concat.mpr ⟨inTurns_nil, Nat.zero_le _⟩,
      hone.ge⟩, Nat.zero_le _⟩
  exact (gapsExact_iff smallPool_isFresh (by decide)).mpr hturns

/-- In front of the number 1, the first missing number is left out. -/
theorem not_gapsExact_one : ¬ GapsExact smallPool [bareDatagram 1] := by
  intro hexact
  have hds : NoWrap [bareDatagram 1] := by decide
  have h := (window_arriveAll smallPool_isFresh hds _ (List.prefix_refl _)).1
  exact gaps_ne_of_gt (s := 1) inTurns_nil (by simp)
    ((congrArg SequenceWindow.missing h).symm.trans (hexact [bareDatagram 1] (List.prefix_refl _)))

end Rakro
