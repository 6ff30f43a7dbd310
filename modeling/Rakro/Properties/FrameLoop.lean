import Rakro.Properties.Effect
import Rakro.Roundtrip.FrameInfo

/-!
# The frame loop

In front of whole frames, a round of the loop takes one of them and hands it on. So the loop is the
sequence of the frames, one handed on after the other, up to the point where four bytes or fewer
are left or where the bytes no longer are a frame.
-/

namespace Rakro

open Infra BinaryBuffer

/-! ## Frames on the wire -/

/-- A frame header that the reader accepts, and a body of the length it announces. -/
structure ParsedFrame where
  info : FrameInfo
  header : Bytes
  body : Bytes
  reads : Consumes (readNext FrameInfo) header info
  length_body : body.length = info.bodyLeng.toNat

namespace ParsedFrame

/-- The frame as it lies in the datagram. -/
def bytes (f : ParsedFrame) : Bytes := f.header ++ f.body

/-- The view of the body, in front of `rest`, that the loop makes of a frame at `cursor`. -/
def view (f : ParsedFrame) (home : Option Place) (cursor : Nat) (rest : Bytes) : BinaryBuffer where
  bytes := f.body
  beyond := rest
  home := home.map (Place.shift · (cursor + f.header.length))

/-- A header has at least its flags and its length. -/
theorem three_le_length_header (f : ParsedFrame) : 3 ≤ f.header.length := by
  have hread := f.reads {} [] []
  obtain ⟨enc, r', henc, -, -, hk⟩ := scans_frameInfo _ _ _ _ _ hread
  rw [List.append_nil] at henc
  rw [henc, List.length_append]
  omega

theorem length_bytes (f : ParsedFrame) : f.bytes.length = f.header.length + f.body.length :=
  List.length_append

/-- A frame is one byte at least. -/
theorem length_le_length_flatMap : ∀ fs : List ParsedFrame,
    fs.length ≤ (fs.flatMap bytes).length
  | [] => Nat.le_refl _
  | f :: fs => by
    have h := f.three_le_length_header
    have ih := length_le_length_flatMap fs
    rw [List.flatMap_cons, List.length_append, f.length_bytes, List.length_cons]
    omega

end ParsedFrame

/-- One round: the body view is entered in the trace and the frame is handed on. -/
def round (home : Option Place) (size cursor : Nat) (f : ParsedFrame) (rest : Bytes) :
    ClientM PUnit := do
  emit (.slice (cursor + f.header.length) f.body.length size)
  handFrame (f.view home cursor rest) f.info

/-- The rounds of some frames in front of `tail`, the first of them at `cursor`. -/
def rounds (home : Option Place) (size : Nat) : Nat → List ParsedFrame → Bytes → ClientM PUnit
  | _, [], _ => pure ⟨⟩
  | cursor, f :: fs, tail => do
    round home size cursor f (fs.flatMap ParsedFrame.bytes ++ tail)
    rounds home size (cursor + f.bytes.length) fs tail

/-! ## The loop in front of frames -/

/-- The loop ends in front of four bytes or fewer. -/
theorem frameLoop_end {fuel : Nat} {b : BinaryBuffer} {p r : Bytes} (h : r.length ≤ 4) :
    frameLoop (fuel + 1) (b.between p r) = pure ⟨⟩ := by
  unfold frameLoop
  rw [between_remaining, if_neg (by omega)]

/-- In front of a header, the loop goes for the body. -/
theorem run_frameLoop_header (fuel : Nat) (b : BinaryBuffer) (p : Bytes) {header : Bytes}
    (tail : Bytes) {info : FrameInfo} (hread : Consumes (readNext FrameInfo) header info)
    (h : 4 < header.length + tail.length) (w : World) :
    (frameLoop (fuel + 1) (b.between p (header ++ tail))).run w =
      (match ofRentedLimit { memory := tail, home := b.home.map (Place.shift · (p ++ header).length) }
          info.bodyLeng.toNat with
        | .error e => throw e
        | .ok buffer => do
          handFrame buffer info
          frameLoop fuel ((b.between (p ++ header) tail).skipn info.bodyLeng.toNat) :
        ClientM PUnit).run
      (w.log (.slice (p.length + header.length) info.bodyLeng.toNat
        (p.length + (header.length + tail.length)))) := by
  conv_lhs => unfold frameLoop
  rw [between_remaining, if_pos (by rw [List.length_append]; exact h),
    run_bind_of_ok (run_onBuffer_ok (hread b p tail))]
  dsimp only
  rw [run_bind_of_ok (run_emit _), between_remainingSlice, between_index, between_size,
    between_cursorHome, List.length_append, Nat.add_assoc]
  rfl

/-- With the whole body there, a step of the loop is a round. -/
theorem frameLoop_round (fuel : Nat) (b : BinaryBuffer) (p : Bytes) {f : ParsedFrame} {rest : Bytes}
    (h : 4 < f.bytes.length + rest.length) :
    frameLoop (fuel + 1) (b.between p (f.bytes ++ rest)) =
      (do
        round b.home (p.length + (f.bytes.length + rest.length)) p.length f rest
        frameLoop fuel (b.between (p ++ f.bytes) rest)) := by
  rw [f.length_bytes] at h ⊢
  have hlimit : ofRentedLimit
      { memory := f.body ++ rest, home := b.home.map (Place.shift · (p ++ f.header).length) }
      f.info.bodyLeng.toNat = .ok (f.view b.home p.length rest) := by
    unfold ofRentedLimit
    rw [← f.length_body, if_pos (by simp)]
    simp [ParsedFrame.view]
  funext w
  have hrun := run_frameLoop_header fuel b p (f.body ++ rest) f.reads
    (by rw [List.length_append]; omega) w
  -- the header and the body are consumed one after the other
  rw [hlimit, ← f.length_body, between_skipn _ _ _ rfl, List.append_assoc,
    ← List.append_assoc f.header] at hrun
  rw [List.length_append, ← Nat.add_assoc f.header.length] at hrun
  exact hrun

/-- A header that is not accepted ends the loop. -/
theorem run_frameLoop_unread (fuel : Nat) {b b' : BinaryBuffer} {p r : Bytes} {e : Exn} (w : World)
    (h : 4 < r.length) (hread : (readNext FrameInfo).run (b.between p r) = .error e b') :
    (frameLoop (fuel + 1) (b.between p r)).run w = .error e w := by
  unfold frameLoop
  rw [between_remaining, if_pos h, run_bind_of_error (run_onBuffer_error hread)]

/-- So does a header that announces more than there is, behind a body view of that length. -/
theorem run_frameLoop_overrun (fuel : Nat) (b : BinaryBuffer) (p : Bytes) {header tail : Bytes}
    {info : FrameInfo} (hread : Consumes (readNext FrameInfo) header info)
    (h : 4 < header.length + tail.length) (hover : tail.length < info.bodyLeng.toNat) (w : World) :
    (frameLoop (fuel + 1) (b.between p (header ++ tail))).run w =
      .error (.undefined "subspan past the end")
        (w.log (.slice (p.length + header.length) info.bodyLeng.toNat
          (p.length + (header.length + tail.length)))) := by
  have hlimit : ofRentedLimit
      { memory := tail, home := b.home.map (Place.shift · (p ++ header).length) }
      info.bodyLeng.toNat = .error (.undefined "subspan past the end") :=
    if_neg (Nat.not_le.mpr hover)
  rw [run_frameLoop_header fuel b p tail hread h, hlimit]
  rfl

/-- What the loop finds in front of it: `r`, behind `p`. -/
inductive LoopFront (b : BinaryBuffer) (p : Bytes) : Bytes → Prop
  | finished {r : Bytes} : r.length ≤ 4 → LoopFront b p r
  | unread {r : Bytes} {e : Exn} {b' : BinaryBuffer} : 4 < r.length →
      (readNext FrameInfo).run (b.between p r) = .error e b' → LoopFront b p r
  | overrun {header tail : Bytes} {info : FrameInfo} : Consumes (readNext FrameInfo) header info →
      4 < header.length + tail.length → tail.length < info.bodyLeng.toNat →
      LoopFront b p (header ++ tail)
  | frame (f : ParsedFrame) (rest : Bytes) : 4 < f.bytes.length + rest.length →
      LoopFront b p (f.bytes ++ rest)

/-- Every datagram has a front that the loop gets through. -/
theorem loopFront (b : BinaryBuffer) (p r : Bytes) : LoopFront b p r := by
  by_cases hshort : r.length ≤ 4
  · exact .finished hshort
  cases hread : (readNext FrameInfo).run (b.between p r) with
  | error e b' => exact .unread (by omega) hread
  | ok info b' =>
    obtain ⟨header, tail, rfl, -, hreads, -⟩ := scans_frameInfo _ _ _ _ _ hread
    rw [List.length_append, Nat.not_le] at hshort
    -- the announced length decides whether the body is all there
    by_cases hleng : info.bodyLeng.toNat ≤ tail.length
    · let f : ParsedFrame :=
        ⟨info, header, tail.take info.bodyLeng.toNat, hreads, by
          rw [List.length_take]; exact Nat.min_eq_left hleng⟩
      have hbytes : f.bytes ++ tail.drop info.bodyLeng.toNat = header ++ tail := by
        rw [ParsedFrame.bytes, List.append_assoc, List.take_append_drop]
      rw [← hbytes]
      refine .frame f _ ?_
      rw [← List.length_append, hbytes, List.length_append]
      exact hshort
    · exact .overrun hreads hshort (by omega)

/-- As long as the last frame is in front, more than four bytes are. -/
theorem four_lt_length {tail : Bytes} : ∀ {fs : List ParsedFrame}, fs ≠ [] →
    (∀ f ∈ fs.getLast?, 4 < f.bytes.length + tail.length) →
    4 < (fs.flatMap ParsedFrame.bytes ++ tail).length
  | [], hne, _ => absurd rfl hne
  | [f], _, h => by
    rw [List.flatMap_singleton, List.length_append]
    exact h f rfl
  | f :: g :: fs, _, h => by
    have ih := four_lt_length (List.cons_ne_nil g fs) fun l hl =>
      h l (by rw [List.getLast?_cons_cons]; exact hl)
    rw [List.flatMap_cons, List.append_assoc, List.length_append]
    omega

/-- In front of frames, the loop is their rounds. -/
theorem frameLoop_rounds (fuel : Nat) (b : BinaryBuffer) (tail : Bytes) :
    ∀ (fs : List ParsedFrame) (p : Bytes),
      (∀ f ∈ fs.getLast?, 4 < f.bytes.length + tail.length) →
      frameLoop (fuel + fs.length) (b.between p (fs.flatMap ParsedFrame.bytes ++ tail)) =
        (do
          rounds b.home (p.length + (fs.flatMap ParsedFrame.bytes ++ tail).length) p.length fs tail
          frameLoop fuel (b.between (p ++ fs.flatMap ParsedFrame.bytes) tail))
  | [], p, _ => by
    rw [List.flatMap_nil, List.append_nil]
    rfl
  | f :: fs, p, h => by
    have hlen := four_lt_length (List.cons_ne_nil f fs) h
    -- the frame moves behind the cursor, and the size of the datagram stays
    have ih := frameLoop_rounds fuel b tail fs (p ++ f.bytes) fun l hl =>
      h l (by rw [List.getLast?_cons, hl]; rfl)
    rw [List.flatMap_cons, List.append_assoc, List.length_append] at hlen ⊢
    rw [List.length_cons, ← Nat.add_assoc, frameLoop_round _ b p hlen, ih]
    rw [rounds, bind_assoc, show (p ++ f.bytes).length = p.length + f.bytes.length from
      List.length_append, Nat.add_assoc, List.append_assoc]

/-! ## What the loop leaves behind -/

/-- What the frame loop does to the state, one step at a time. -/
structure LoopBound (R : World → World → Prop) : Prop extends FrameBound R where
  stored : ∀ (w : World) (home : Option Place) (cursor : Nat) (f : ParsedFrame) (rest : Bytes),
    ∀ order ∈ f.info.orderInfo, order.orderChannel.toNat < maxOrderChannels →
      R w (w.inserted (f.view home cursor rest) f.info order)
  called : ∀ (w : World) (f : ParsedFrame), R w (w.log (.frame f.info f.body))
  sliced : ∀ (w : World) (cursor leng size : Nat), R w (w.log (.slice cursor leng size))

section LoopBound

variable {R : World → World → Prop} [IsPreorder World R]

/-- A round keeps to the loop's bound. -/
theorem LoopBound.within_round (h : LoopBound R) (home : Option Place) (size cursor : Nat)
    (f : ParsedFrame) (rest : Bytes) : Within R (round home size cursor f rest) := by
  refine Within.bind (fun w => h.sliced w _ _ _) fun _ => Within.ite ?_ fun w => ?_
  · exact h.within_answers (within_emit rfl rfl)
  · exact IsTrans.trans _ _ _ (h.called w f) (h.processFrame (fun order horder hchannel w =>
      h.stored w home cursor f rest order horder hchannel) w)

/-- So do all rounds, by induction on the frames. -/
theorem LoopBound.within_rounds (h : LoopBound R) (home : Option Place) (size : Nat) (tail : Bytes) :
    ∀ (fs : List ParsedFrame) (cursor : Nat), Within R (rounds home size cursor fs tail)
  | [], _ => Within.pure _
  | f :: fs, cursor => Within.bind (h.within_round home size cursor f _) fun _ =>
      h.within_rounds home size tail fs _

/-- The loop stays within such a bound, however it ends. -/
theorem LoopBound.frameLoop (h : LoopBound R) : ∀ (fuel : Nat) (b : BinaryBuffer) (p r : Bytes)
    (w : World), R w (after (frameLoop fuel (b.between p r)) w)
  | 0, _, _, _, w => refl w
  | fuel + 1, b, p, r, w => by
    cases loopFront b p r with
    | finished hshort =>
      rw [frameLoop_end hshort]
      exact refl w
    | unread hlong hread =>
      rw [after_of_error (run_frameLoop_unread fuel w hlong hread)]
      exact refl w
    | overrun hreads hlong hover =>
      rw [after_of_error (run_frameLoop_overrun fuel b p hreads hlong hover w)]
      exact h.sliced w _ _ _
    | frame f rest hlen =>
      rw [frameLoop_round fuel b p hlen]
      exact Within.bind (h.within_round _ _ _ f rest) (fun _ w => h.frameLoop fuel b _ rest w) w

end LoopBound

/-- The frame loop leaves the window of sequence numbers alone. -/
theorem sameWindow_loopBound : LoopBound SameWindow where
  answers _ _ h := ⟨h.nextExpectedSeq, h.missingPackets⟩
  data _ _ := ⟨rfl, rfl⟩
  counters _ _ _ := ⟨rfl, rfl⟩
  taken _ _ := ⟨rfl, rfl⟩
  stored _ _ _ _ _ _ _ _ := ⟨rfl, rfl⟩
  called _ _ := ⟨rfl, rfl⟩
  sliced _ _ _ _ := ⟨rfl, rfl⟩

/-- The call of `process_frame` for a frame. -/
def ParsedFrame.call (f : ParsedFrame) : FrameInfo × Bytes := (f.info, f.body)

/-- The call that a round makes of a frame. -/
def ParsedFrame.calls (f : ParsedFrame) : List (FrameInfo × Bytes) :=
  if f.info.fragmentInfo.isSome then [] else [f.call]

variable (home : Option Place) (size cursor : Nat) (f : ParsedFrame) (rest : Bytes) (w : World)

/-- A round takes the body's view and hands the frame on. -/
theorem after_round :
    after (round home size cursor f rest) w =
      after (handFrame (f.view home cursor rest) f.info)
        (w.log (.slice (cursor + f.header.length) f.body.length size)) :=
  after_bind_ok (run_emit _)

/-- A round is one call, however it ends. -/
theorem calls_round :
    (after (round home size cursor f rest) w).calls = w.calls ++ f.calls := by
  rw [after_round]
  unfold handFrame ParsedFrame.calls
  split
  · rw [after_emit, World.calls_log, World.calls_log, List.append_assoc]
    rfl
  · rw [calls_processFrame, World.calls_log, List.append_assoc]
    rfl

/-- A round is one body view, however it ends. -/
theorem slices_round :
    (after (round home size cursor f rest) w).slices =
      w.slices ++ [⟨cursor + f.header.length, f.body.length, size⟩] := by
  rw [after_round]
  unfold handFrame
  split
  · rw [after_emit, World.slices_log, World.slices_log, List.append_assoc]
    rfl
  · rw [slices_processFrame, World.slices_log]
    rfl

/-- Rounds that return are one call for each frame. -/
theorem calls_rounds : ∀ (fs : List ParsedFrame) (cursor : Nat) (w : World),
    Succeeds (rounds home size cursor fs rest) w →
    (after (rounds home size cursor fs rest) w).calls = w.calls ++ fs.flatMap ParsedFrame.calls
  | [], _, w, _ => (List.append_nil w.calls).symm
  | f :: fs, cursor, w, h => by
    obtain ⟨u, hround⟩ := h.of_bind.run
    have hrest := (succeeds_bind_of_ok hround).mp h
    rw [rounds, after_bind_ok hround, calls_rounds fs _ _ hrest, calls_round, List.flatMap_cons,
      List.append_assoc]

/-- Rounds are never more calls than their frames ask for. -/
theorem length_calls_rounds : ∀ (fs : List ParsedFrame) (cursor : Nat) (w : World),
    (after (rounds home size cursor fs rest) w).calls.length ≤
      w.calls.length + (fs.flatMap ParsedFrame.calls).length
  | [], _, _ => Nat.le_refl _
  | f :: fs, cursor, w => by
    have hone := congrArg List.length
      (calls_round home size cursor f (fs.flatMap ParsedFrame.bytes ++ rest) w)
    rw [List.length_append] at hone
    rw [rounds, List.flatMap_cons, List.length_append]
    by_cases h : Succeeds (round home size cursor f (fs.flatMap ParsedFrame.bytes ++ rest)) w
    · obtain ⟨u, hround⟩ := h.run
      have ih := length_calls_rounds fs (cursor + f.bytes.length)
        (after (round home size cursor f (fs.flatMap ParsedFrame.bytes ++ rest)) w)
      rw [after_bind_ok hround]
      omega
    · obtain ⟨e, hround⟩ := run_of_not_succeeds h
      rw [after_bind_error hround]
      omega

/-- The last round comes after the others. -/
theorem rounds_concat : ∀ (fs : List ParsedFrame) (cursor : Nat),
    rounds home size cursor (fs ++ [f]) rest =
      (do
        rounds home size cursor fs (f.bytes ++ rest)
        round home size (cursor + (fs.flatMap ParsedFrame.bytes).length) f rest)
  | [], cursor => by
    exact bind_pure_unit
  | g :: fs, cursor => by
    rw [List.cons_append, rounds, rounds_concat fs, rounds, bind_assoc, List.flatMap_append,
      List.flatMap_singleton, List.append_assoc, List.flatMap_cons, List.length_append,
      Nat.add_assoc]

end Rakro
