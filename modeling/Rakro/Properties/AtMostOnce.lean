import Rakro.Properties.CompleteParsing
import Rakro.Properties.Window

/-!
# Duplicates

A datagram is discarded when its number is below the counter, and the counter only says how many
datagrams have been accepted. So a datagram ahead of the counter is handed on as often as it comes,
until enough others have been accepted.
-/

namespace Rakro

open Infra BinaryBuffer SequenceWindow

/-! ## Frames to hand on -/

/-- The loop over these bytes comes to an unfragmented frame. -/
inductive Carries : Bytes → Prop
  | here (f : ParsedFrame) (rest : Bytes) : f.info.fragmentInfo = none →
      4 < f.bytes.length + rest.length → Carries (f.bytes ++ rest)
  | behind (f : ParsedFrame) (rest : Bytes) : f.info.fragmentInfo.isSome →
      4 < f.bytes.length + rest.length → Carries rest → Carries (f.bytes ++ rest)

/-- Calls are never taken back. -/
def CallsGrow (w w' : World) : Prop := w.calls <+: w'.calls

instance : IsPreorder World CallsGrow where
  refl _ := List.prefix_refl _
  trans _ _ _ h h' := List.IsPrefix.trans h h'

/-- An event in the trace only adds to the calls. -/
theorem callsGrow_log (w : World) (event : Event) : CallsGrow w (w.log event) := by
  unfold CallsGrow
  rw [World.calls_log]
  exact List.prefix_append _ _

/-- The frame loop only adds to the calls. -/
theorem callsGrow_loopBound : LoopBound CallsGrow where
  answers w w' h := by
    unfold CallsGrow
    rw [h.keepsWindow.calls]
  data w _ := callsGrow_log w _
  counters w _ _ := List.prefix_refl _
  taken w _ := List.prefix_refl _
  stored w _ _ _ _ _ _ _ := List.prefix_refl _
  called w _ := callsGrow_log w _
  sliced w _ _ _ := callsGrow_log w _

/-- A fragment is printed and left. -/
theorem run_round_fragment (home : Option Place) (size cursor : Nat) {f : ParsedFrame}
    (rest : Bytes) (h : f.info.fragmentInfo.isSome) (w : World) :
    ∃ w', (round home size cursor f rest).run w = .ok ⟨⟩ w' ∧ w'.calls = w.calls := by
  have hcalls := calls_round home size cursor f rest w
  rw [ParsedFrame.calls, if_pos h, List.append_nil] at hcalls
  have hrun : Succeeds (round home size cursor f rest) w := by
    unfold round handFrame
    rw [if_pos h]
    exact ⟨_, _, rfl⟩
  obtain ⟨u, hrun⟩ := hrun.run
  exact ⟨_, hrun, hcalls⟩

/-- The first unfragmented frame is handed on in every state. -/
theorem Carries.calls_ne {r : Bytes} (h : Carries r) : ∀ (fuel : Nat) (b : BinaryBuffer) (p : Bytes)
    (w : World), r.length ≤ fuel →
      (after (frameLoop (fuel + 1) (b.between p r)) w).calls ≠ w.calls := by
  induction h with
  | here f rest hfrag hlen =>
    intro fuel b p w _ heq
    have hcalls := calls_round b.home (p.length + (f.bytes.length + rest.length)) p.length f rest w
    have hone : f.calls = [(f.info, f.body)] := by
      unfold ParsedFrame.calls
      rw [hfrag]
      rfl
    -- what follows the round only adds to its call
    have hgrow : CallsGrow (after (round b.home (p.length + (f.bytes.length + rest.length)) p.length
        f rest) w) (after (frameLoop (fuel + 1) (b.between p (f.bytes ++ rest))) w) := by
      rw [frameLoop_round fuel b p hlen]
      exact Within.after_bind (fun _ w => callsGrow_loopBound.frameLoop fuel b _ rest w) _ w
    have hlt := List.IsPrefix.length_le hgrow
    rw [heq, hcalls, hone, List.length_append, List.length_singleton] at hlt
    omega
  | behind f rest hfrag hlen _ ih =>
    intro fuel b p w hfuel
    obtain ⟨w', hrun, hcalls⟩ := run_round_fragment b.home
      (p.length + (f.bytes.length + rest.length)) p.length rest hfrag w
    have hheader := f.three_le_length_header
    rw [List.length_append, f.length_bytes] at hfuel
    rw [frameLoop_round fuel b p hlen, after_bind_ok hrun, ← hcalls]
    obtain ⟨fuel, rfl⟩ : ∃ n, fuel = n + 1 := ⟨fuel - 1, by omega⟩
    exact ih fuel b (p ++ f.bytes) w' (by omega)

/-- Nothing else is handed on. -/
theorem carries_of_calls_ne : ∀ (fuel : Nat) (b : BinaryBuffer) (p r : Bytes) (w : World),
    (after (frameLoop fuel (b.between p r)) w).calls ≠ w.calls → Carries r
  | 0, _, _, _, _, h => absurd rfl h
  | fuel + 1, b, p, r, w, h => by
    cases loopFront b p r with
    | finished hshort =>
      rw [frameLoop_end hshort] at h
      exact absurd rfl h
    | unread hlong hread =>
      rw [after_of_error (run_frameLoop_unread fuel w hlong hread)] at h
      exact absurd rfl h
    | overrun hreads hlong hover =>
      rw [after_of_error (run_frameLoop_overrun fuel b p hreads hlong hover w), World.calls_log] at h
      exact absurd (List.append_nil _) h
    | frame f rest hlen =>
      by_cases hfrag : f.info.fragmentInfo.isSome
      · obtain ⟨w', hrun, hcalls⟩ := run_round_fragment b.home
          (p.length + (f.bytes.length + rest.length)) p.length rest hfrag w
        rw [frameLoop_round fuel b p hlen, after_bind_ok hrun, ← hcalls] at h
        exact .behind f rest hfrag hlen (carries_of_calls_ne fuel b _ rest w' h)
      · exact .here f rest (Option.not_isSome_iff_eq_none.mp hfrag) hlen

/-! ## Datagrams -/

/-- Arriving in the state `w`, the datagram makes `process_frame` be called. -/
def Datagram.Hands (d : Datagram) (w : World) : Prop := (after d.arrive w).calls ≠ w.calls

/-- That takes a frame, and a number that is not below the counter. -/
theorem Datagram.hands_iff (d : Datagram) {w : World} (hw : w.this.nextExpectedSeq.Canonical) :
    d.Hands w ↔ w.window.next ≤ d.seq ∧ Carries d.rest := by
  unfold Hands
  by_cases hstale : IsFrameSet.number d.number < w.this.nextExpectedSeq
  · rw [d.arrive_stale hstale]
    refine iff_of_false (fun h => h rfl) ?_
    rintro ⟨hle, -⟩
    exact Nat.not_le.mpr ((d.stale_iff hw).mp hstale) hle
  · have hle : w.window.next ≤ d.seq := Nat.le_of_not_lt (mt (d.stale_iff hw).mpr hstale)
    rw [and_iff_right hle]
    rw [d.after_arrive, d.isFrameSet.after_processPacket, calls_release,
      after_processFrames (w := w.flushed d.buffer) hstale]
    show _ ≠ ((w.flushed d.buffer).advanced (IsFrameSet.number d.number)).calls ↔ _
    constructor
    · exact carries_of_calls_ne _ _ _ _ _
    · intro h
      exact h.calls_ne _ _ _ _ (by rw [between_size]; omega)

/-- Of two datagrams with the same number, only one makes `process_frame` be called. -/
def AtMostOnce (w : World) (ds : List Datagram) : Prop :=
  ∀ l₁ d l₂ d', l₁ ++ d :: l₂ ++ [d'] <+: ds → d.seq = d'.seq →
    d.Hands (afterAll Datagram.arrive w l₁) →
    ¬ d'.Hands (afterAll Datagram.arrive w (l₁ ++ d :: l₂))

/--
When a number that has been accepted comes again, more datagrams than it says have been accepted.
-/
def DuplicatesLate (ds : List Datagram) : Prop :=
  ∀ l₁ d l₂ d', l₁ ++ d :: l₂ ++ [d'] <+: ds → d.seq = d'.seq → Carries d.rest → Carries d'.rest →
    (run (seqs l₁)).next ≤ d.seq → d.seq < (run (seqs (l₁ ++ d :: l₂))).next

/-- In turn, a number is below the counter as soon as it has come. -/
theorem duplicatesLate_of_inTurns {ds : List Datagram} (h : InTurns (seqs ds)) :
    DuplicatesLate ds := by
  intro l₁ d l₂ d' hl _ _ _ _
  have hprefix : seqs (l₁ ++ d :: l₂) <+: seqs ds := ((List.prefix_append _ _).trans hl).map _
  obtain ⟨hrun, hlt⟩ := run_inTurns (h.of_prefix hprefix)
  rw [hrun]
  exact hlt _ (List.mem_map_of_mem (List.mem_append_right _ List.mem_cons_self))

/--
**The frames of a number are handed on at most once exactly when each number that comes again after
it has been accepted is by then below the count of datagrams accepted.**
-/
theorem atMostOnce_iff {w : World} (hfresh : w.this.IsFresh) {ds : List Datagram}
    (hds : NoWrap ds) : AtMostOnce w ds ↔ DuplicatesLate ds := by
  -- whether a datagram is handed on is a matter of the numbers before it
  have hands : ∀ l (d : Datagram), l <+: ds → (d.Hands (afterAll Datagram.arrive w l) ↔
      (run (seqs l)).next ≤ d.seq ∧ Carries d.rest) := by
    intro l d hl
    obtain ⟨hwindow, hcanon⟩ := window_arriveAll hfresh hds l hl
    rw [d.hands_iff hcanon, hwindow]
  constructor
  · intro honce l₁ d l₂ d' hl hseq hd hd' hle
    have hl₂ : l₁ ++ d :: l₂ <+: ds := (List.prefix_append _ _).trans hl
    have hl₁ : l₁ <+: ds := (List.prefix_append _ _).trans hl₂
    have hnot := honce l₁ d l₂ d' hl hseq ((hands l₁ d hl₁).mpr ⟨hle, hd⟩)
    rw [hands _ d' hl₂, ← hseq] at hnot
    exact Nat.lt_of_not_le fun hle' => hnot ⟨hle', hd'⟩
  · intro hlate l₁ d l₂ d' hl hseq hd hd'
    have hl₂ : l₁ ++ d :: l₂ <+: ds := (List.prefix_append _ _).trans hl
    have hl₁ : l₁ <+: ds := (List.prefix_append _ _).trans hl₂
    obtain ⟨hle, hcarries⟩ := (hands l₁ d hl₁).mp hd
    obtain ⟨hle', hcarries'⟩ := (hands _ d' hl₂).mp hd'
    have hlt := hlate l₁ d l₂ d' hl hseq hcarries hcarries' hle
    omega

/-- A datagram with one short frame. -/
def singleDatagram (n : UInt8) : Datagram where
  buffer := { bytes := 0x80 :: [n, 0, 0] ++ pairFrame.bytes }
  id := 0x80
  number := [n, 0, 0]
  rest := pairFrame.bytes
  isFrameSet := ⟨rfl, rfl, ⟨by decide, by decide⟩, rfl⟩

/-- The rest of the datagram is a frame. -/
theorem carries_singleDatagram (n : UInt8) : Carries (singleDatagram n).rest := by
  have h := Carries.here pairFrame.parsed [] rfl (by decide)
  rwa [List.append_nil] at h

theorem atMostOnce_zero : AtMostOnce smallPool [singleDatagram 0, singleDatagram 0] := by
  have hturns : InTurns ([] ++ [0] ++ [0]) :=
    inTurns_concat.mpr ⟨inTurns_concat.mpr ⟨inTurns_nil, Nat.zero_le _⟩, Nat.zero_le _⟩
  exact (atMostOnce_iff smallPool_isFresh (by decide)).mpr (duplicatesLate_of_inTurns hturns)

/-- The datagram with the number 1, first and second of all, is handed on twice. -/
theorem not_atMostOnce_one : ¬ AtMostOnce smallPool [singleDatagram 1, singleDatagram 1] := by
  intro honce
  have hds : NoWrap [singleDatagram 1, singleDatagram 1] := by decide
  have hwindow := window_arriveAll smallPool_isFresh hds
  obtain ⟨h₀, hcanon₀⟩ := hwindow [] List.nil_prefix
  obtain ⟨h₁, hcanon₁⟩ := hwindow [singleDatagram 1] (List.prefix_append _ _)
  refine honce [] (singleDatagram 1) [] (singleDatagram 1) (List.prefix_refl _) rfl ?_ ?_
  · rw [Datagram.hands_iff _ hcanon₀, h₀]
    exact ⟨by decide, carries_singleDatagram 1⟩
  · rw [List.nil_append, Datagram.hands_iff _ hcanon₁, h₁]
    exact ⟨by decide, carries_singleDatagram 1⟩

end Rakro
