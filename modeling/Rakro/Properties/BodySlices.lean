import Rakro.Properties.FrameSet

/-!
# Body views

The length of a body comes from the wire and is compared with nothing. So a body view leaves the
datagram as soon as the loop reaches a header that announces more than there is.
-/

namespace Rakro

open Infra BinaryBuffer

/-- The view lies in what is left of the datagram, so the cursor does not pass its end. -/
def BodySlice.Inside (s : BodySlice) : Prop := s.cursor ≤ s.size ∧ s.leng ≤ s.size - s.cursor

instance (s : BodySlice) : Decidable s.Inside :=
  inferInstanceAs (Decidable (s.cursor ≤ s.size ∧ s.leng ≤ s.size - s.cursor))

/-- The body views that `m` adds to the trace. -/
def newSlices {α : Type} (m : ClientM α) (w : World) : List BodySlice :=
  (after m w).slices.drop w.slices.length

/-- Between the two states, only such views have been taken. -/
def AddsInside (w w' : World) : Prop :=
  ∃ new, w'.slices = w.slices ++ new ∧ ∀ s ∈ new, s.Inside

theorem AddsInside.refl (w : World) : AddsInside w w := ⟨[], (List.append_nil _).symm, by simp⟩

theorem AddsInside.trans {w w' w'' : World} (h : AddsInside w w') (h' : AddsInside w' w'') :
    AddsInside w w'' := by
  obtain ⟨new, hnew, hall⟩ := h
  obtain ⟨new', hnew', hall'⟩ := h'
  refine ⟨new ++ new', by rw [hnew', hnew, List.append_assoc], fun s hs => ?_⟩
  rcases List.mem_append.mp hs with hs | hs
  · exact hall s hs
  · exact hall' s hs

/-- What is behind the old views is what is new. -/
theorem newSlices_eq {α : Type} {m : ClientM α} {w : World} {new : List BodySlice}
    (h : (after m w).slices = w.slices ++ new) : newSlices m w = new := by
  unfold newSlices
  rw [h, List.drop_left]

/-! ## The loop -/

/--
Behind `frames`, which are handed on without an exception, comes a header that announces more than
`tail`, and there are more than four bytes to go.
-/
structure OverrunAt (home : Option Place) (size cursor : Nat) (frames : List ParsedFrame)
    (header tail : Bytes) (info : FrameInfo) (w : World) : Prop where
  reads : Consumes (readNext FrameInfo) header info
  four_lt : 4 < header.length + tail.length
  returns : Succeeds (rounds home size cursor frames (header ++ tail)) w
  overrun : tail.length < info.bodyLeng.toNat

/-- In front of `r`, the loop comes to such a header. -/
def Overruns (home : Option Place) (size cursor : Nat) (r : Bytes) (w : World) : Prop :=
  ∃ frames header tail info, r = frames.flatMap ParsedFrame.bytes ++ (header ++ tail) ∧
    OverrunAt home size cursor frames header tail info w

/-- A round in front of an overrun is in front of it as well. -/
theorem Overruns.cons {home : Option Place} {size cursor : Nat} {f : ParsedFrame} {rest : Bytes}
    {w : World} (hround : Succeeds (round home size cursor f rest) w)
    (h : Overruns home size (cursor + f.bytes.length) rest
      (after (round home size cursor f rest) w)) :
    Overruns home size cursor (f.bytes ++ rest) w := by
  obtain ⟨frames, header, tail, info, rfl, hat⟩ := h
  obtain ⟨u, hrun⟩ := hround.run
  refine ⟨f :: frames, header, tail, info, by rw [List.flatMap_cons, List.append_assoc], hat.reads,
    hat.four_lt, ?_, hat.overrun⟩
  exact (succeeds_bind_of_ok hrun).mpr hat.returns

/-- The body view of a whole frame is inside. -/
theorem inside_round (cursor : Nat) (f : ParsedFrame) (rest : Bytes) :
    BodySlice.Inside ⟨cursor + f.header.length, f.body.length,
      cursor + (f.bytes.length + rest.length)⟩ := by
  unfold BodySlice.Inside
  rw [f.length_bytes]
  dsimp only
  omega

/-- One round of the loop over a whole frame takes its view inside. -/
theorem addsInside_round (home : Option Place) (cursor : Nat) (f : ParsedFrame) (rest : Bytes)
    (w : World) : AddsInside w
      (after (round home (cursor + (f.bytes.length + rest.length)) cursor f rest) w) :=
  ⟨_, slices_round _ _ _ _ _ _, by simpa using inside_round cursor f rest⟩

/-- As long as nothing is overrun, every body view is inside. -/
theorem addsInside_frameLoop : ∀ (fuel : Nat) (b : BinaryBuffer) (p r : Bytes) (w : World),
    ¬ Overruns b.home (p.length + r.length) p.length r w →
    AddsInside w (after (frameLoop fuel (b.between p r)) w)
  | 0, _, _, _, w, _ => AddsInside.refl w
  | fuel + 1, b, p, r, w, h => by
    cases loopFront b p r with
    | finished hshort =>
      rw [frameLoop_end hshort]
      exact AddsInside.refl w
    | unread hlong hread =>
      rw [after_of_error (run_frameLoop_unread fuel w hlong hread)]
      exact AddsInside.refl w
    | @overrun header tail info hreads hlong hover =>
      exact absurd ⟨[], header, tail, info, rfl, hreads, hlong, succeeds_pure _ _, hover⟩ h
    | frame f rest hlt =>
      rw [List.length_append] at h
      rw [frameLoop_round fuel b p hlt]
      -- this view is inside; what follows is the induction hypothesis, if the round returns
      have hstep := addsInside_round b.home p.length f rest w
      by_cases hround : Succeeds
          (round b.home (p.length + (f.bytes.length + rest.length)) p.length f rest) w
      · obtain ⟨u, hrun⟩ := hround.run
        have hcursor : (p ++ f.bytes).length = p.length + f.bytes.length := List.length_append
        have hsize : (p ++ f.bytes).length + rest.length
            = p.length + (f.bytes.length + rest.length) := by rw [hcursor, Nat.add_assoc]
        rw [after_bind_ok hrun]
        exact hstep.trans (addsInside_frameLoop fuel b (p ++ f.bytes) rest _
          (by rw [hsize, hcursor]; exact mt (Overruns.cons hround) h))
      · obtain ⟨e, hrun⟩ := run_of_not_succeeds hround
        rw [after_bind_error hrun]
        exact hstep

/-- Rounds only add body views. -/
theorem slices_rounds (home : Option Place) (size : Nat) (rest : Bytes) :
    ∀ (fs : List ParsedFrame) (cursor : Nat) (w : World),
      ∃ new, (after (rounds home size cursor fs rest) w).slices = w.slices ++ new
  | [], _, w => ⟨[], (List.append_nil _).symm⟩
  | f :: fs, cursor, w => by
    have hslices := slices_round home size cursor f (fs.flatMap ParsedFrame.bytes ++ rest) w
    rw [rounds]
    by_cases hround : Succeeds (round home size cursor f (fs.flatMap ParsedFrame.bytes ++ rest)) w
    · obtain ⟨u, hrun⟩ := hround.run
      obtain ⟨new, hnew⟩ := slices_rounds home size rest fs (cursor + f.bytes.length)
        (after (round home size cursor f (fs.flatMap ParsedFrame.bytes ++ rest)) w)
      exact ⟨_, by rw [after_bind_ok hrun, hnew, hslices, List.append_assoc]⟩
    · obtain ⟨e, hrun⟩ := run_of_not_succeeds hround
      exact ⟨_, by rw [after_bind_error hrun, hslices]⟩

/-- The body view of an overrun is taken, and it is outside. -/
theorem slices_overrun (fuel : Nat) (b : BinaryBuffer) (p : Bytes) {header tail : Bytes}
    {info : FrameInfo} (hreads : Consumes (readNext FrameInfo) header info)
    (h : 4 < header.length + tail.length) (hover : tail.length < info.bodyLeng.toNat) (w : World) :
    ∃ s, (after (frameLoop (fuel + 1) (b.between p (header ++ tail))) w).slices = w.slices ++ [s] ∧
      ¬ s.Inside := by
  have hrun := run_frameLoop_overrun fuel b p hreads h hover w
  refine ⟨_, by rw [after_of_error hrun, World.slices_log]; rfl, fun hin => ?_⟩
  have hleng : info.bodyLeng.toNat
      ≤ p.length + (header.length + tail.length) - (p.length + header.length) := hin.2
  omega

/-! ## The datagram -/

/-- The datagram is a frame set in the window, and the loop overruns it. -/
def DatagramOverruns (b : BinaryBuffer) (w : World) : Prop :=
  ∃ id seq rest, IsFrameSet b id seq rest ∧ ¬ IsFrameSet.number seq < w.this.nextExpectedSeq ∧
    Overruns b.home b.size 4 rest (w.advanced (IsFrameSet.number seq))

/-- Each new view is inside. -/
theorem inside_of_addsInside {α : Type} {m : ClientM α} {w : World} (h : AddsInside w (after m w)) :
    ∀ s ∈ newSlices m w, s.Inside := by
  obtain ⟨new, hnew, hall⟩ := h
  rw [newSlices_eq hnew]
  exact hall

theorem addsInside_of_slices_eq {w w' : World} (h : w'.slices = w.slices) : AddsInside w w' :=
  ⟨[], by rw [h, List.append_nil], by simp⟩

/-- Without an overrun, every body view of the datagram is inside. -/
theorem addsInside_processPacket {b : BinaryBuffer} (hstart : b.index = 0) {w : World}
    (h : ¬ DatagramOverruns b w) : AddsInside w (after (processPacket b) w) := by
  by_cases hset : ∃ id seq rest, IsFrameSet b id seq rest
  · obtain ⟨id, seq, rest, hset⟩ := hset
    rw [hset.after_processPacket]
    by_cases hstale : IsFrameSet.number seq < w.this.nextExpectedSeq
    · rw [after_processFrames_stale hstale]
      exact addsInside_of_slices_eq rfl
    · rw [after_processFrames hstale]
      refine addsInside_frameLoop _ b (id :: seq) rest (w.advanced (IsFrameSet.number seq)) ?_
      rw [hset.length_header, ← hset.size_eq]
      exact fun hover => h ⟨id, seq, rest, hset, hstale, hover⟩
  · refine addsInside_of_slices_eq ?_
    have hsettles := processPacket_settles hstart (fun id seq rest hs => hset ⟨id, seq, rest, hs⟩) w
    exact hsettles.keepsWindow.slices

/-- The body view of an overrun is among the new ones. -/
theorem exists_outside {b : BinaryBuffer} {w : World} (h : DatagramOverruns b w) :
    ∃ s ∈ newSlices (processPacket b) w, ¬ s.Inside := by
  obtain ⟨id, seq, rest, hset, hstale, frames, header, tail, info, rfl, hat⟩ := h
  have hlast : ∀ f ∈ frames.getLast?, 4 < f.bytes.length + (header ++ tail).length := by
    intro f _
    have := hat.four_lt
    rw [List.length_append]
    omega
  -- the rounds in front return, so the loop comes to the header that overruns
  obtain ⟨fuel, hrun⟩ := hset.run_rounds hstale hlast
  obtain ⟨u, hrounds⟩ := hat.returns.run
  obtain ⟨new, hnew⟩ := slices_rounds b.home b.size (header ++ tail) frames 4
    (w.advanced (IsFrameSet.number seq))
  obtain ⟨s, hs, hout⟩ := slices_overrun fuel b (id :: seq ++ frames.flatMap ParsedFrame.bytes)
    hat.reads hat.four_lt hat.overrun
    (after (rounds b.home b.size 4 frames (header ++ tail)) (w.advanced (IsFrameSet.number seq)))
  have hslices : (after (processPacket b) w).slices = w.slices ++ (new ++ [s]) := by
    rw [hset.after_processPacket, slices_release, after_congr hrun, after_bind_ok hrounds, hs, hnew,
      List.append_assoc]
    rfl
  rw [newSlices_eq hslices]
  exact ⟨s, List.mem_append_right _ (List.mem_singleton_self _), hout⟩

/--
**The body views stay inside the datagram exactly when no header that the loop comes to announces
more bytes than are left.**
-/
theorem bodySlices_inside_iff {b : BinaryBuffer} (hstart : b.index = 0) (w : World) :
    (∀ s ∈ newSlices (processPacket b) w, s.Inside) ↔ ¬ DatagramOverruns b w := by
  constructor
  · intro hinside hover
    obtain ⟨s, hs, hout⟩ := exists_outside hover
    exact hout (hinside s hs)
  · intro h
    exact inside_of_addsInside (addsInside_processPacket hstart h)

/-- The first datagram: its frame announces as many bytes as `leng` says, two follow. -/
def announcing (leng : UInt8) : BinaryBuffer where
  bytes := [0x80, 0, 0, 0, 0, 0, leng <<< 3, 0x13, 0]

theorem not_datagramOverruns_two : ¬ DatagramOverruns (announcing 2) smallPool :=
  (bodySlices_inside_iff rfl smallPool).mp (by decide)

/-- Three bytes are announced, and the view of two is left by one. -/
theorem announcing_three_outside :
    ¬ ∀ s ∈ newSlices (processPacket (announcing 3)) smallPool, s.Inside := by
  decide

end Rakro
