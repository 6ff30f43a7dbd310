import Rakro.Properties.FrameSet

/-!
# Every frame of a datagram

The loop goes on while more than four bytes are left, so it never looks at a last frame of four
bytes: a header of three bytes and a body of one. Every other frame of a well-formed datagram is
handed to `process_frame` with its fields and its body.
-/

namespace Rakro

open Infra BinaryBuffer

/-! ## Whole datagrams -/

/-- All the frames are handed to `process_frame`, in order, and nothing else is. -/
def HandsOn (b : BinaryBuffer) (fs : List ParsedFrame) (w : World) : Prop :=
  (after (processPacket b) w).calls = w.calls ++ fs.map ParsedFrame.call

/-- A frame makes at most one call. -/
theorem length_calls_le : ∀ fs : List ParsedFrame,
    (fs.flatMap ParsedFrame.calls).length ≤ fs.length
  | [] => Nat.le_refl _
  | f :: fs => by
    have ih := length_calls_le fs
    have hone : f.calls.length ≤ 1 := by unfold ParsedFrame.calls; split <;> simp
    rw [List.flatMap_cons, List.length_append, List.length_cons]
    omega

/-- Without fragments, there is a call for each frame. -/
theorem flatMap_calls {fs : List ParsedFrame} (h : ∀ f ∈ fs, f.info.fragmentInfo = none) :
    fs.flatMap ParsedFrame.calls = fs.map ParsedFrame.call := by
  rw [List.map_eq_flatMap]
  refine List.flatMap_congr fun f hf => ?_
  rw [ParsedFrame.calls, h f hf]
  rfl

/-- A fragment is one call less. -/
theorem length_calls_lt : ∀ {fs : List ParsedFrame}, ¬ (∀ f ∈ fs, f.info.fragmentInfo = none) →
    (fs.flatMap ParsedFrame.calls).length < fs.length
  | [], h => absurd (by simp) h
  | f :: fs, h => by
    rw [List.flatMap_cons, List.length_append, List.length_cons]
    have hle := length_calls_le fs
    cases hfrag : f.info.fragmentInfo with
    | none =>
      have ih : (fs.flatMap ParsedFrame.calls).length < fs.length :=
        length_calls_lt fun hfs => h (List.forall_mem_cons.mpr ⟨hfrag, hfs⟩)
      have hone : f.calls.length = 1 := by rw [ParsedFrame.calls, hfrag]; rfl
      omega
    | some fragment =>
      have hnone : f.calls.length = 0 := by rw [ParsedFrame.calls, hfrag]; rfl
      omega

section HandsOn

variable {b : BinaryBuffer} {id : UInt8} {seq : Bytes} {fs init : List ParsedFrame}
  {last : ParsedFrame} {w : World}

/-- Fewer rounds than frames are fewer calls. -/
theorem calls_rounds_ne (home : Option Place) (size : Nat) (rest : Bytes)
    (init : List ParsedFrame) (last : ParsedFrame) (w : World) (seq : UInt24) :
    (after (rounds home size 4 init rest) (w.advanced seq)).calls ≠
      w.calls ++ (init ++ [last]).map ParsedFrame.call := by
  intro hcalls
  have hle := length_calls_rounds home size rest init 4 (w.advanced seq)
  have hinit := length_calls_le init
  rw [hcalls, calls_advanced, List.length_append, List.length_map, List.length_append,
    List.length_singleton] at hle
  omega

/-- A last frame of four bytes stays behind. -/
theorem not_handsOn_of_short (init : List ParsedFrame)
    (h : IsFrameSet b id seq ((init ++ [last]).flatMap ParsedFrame.bytes))
    (hstale : ¬ IsFrameSet.number seq < w.this.nextExpectedSeq) (hshort : last.bytes.length ≤ 4) :
    ¬ HandsOn b (init ++ [last]) w := by
  rw [List.flatMap_append, List.flatMap_singleton] at h
  -- every round before the last has the last frame still in front of it
  have hlast : ∀ f ∈ init.getLast?, 4 < f.bytes.length + last.bytes.length := by
    intro f _
    have := f.three_le_length_header
    have := last.three_le_length_header
    rw [f.length_bytes, last.length_bytes]
    omega
  unfold HandsOn
  rw [h.after_eq_rounds hstale hlast hshort, calls_release]
  exact calls_rounds_ne _ _ _ _ _ _ _

/-- In front of a longer last frame, the datagram is the rounds of all its frames. -/
theorem long_getLast? (init : List ParsedFrame) (hlong : 4 < last.bytes.length) :
    ∀ f ∈ (init ++ [last]).getLast?, 4 < f.bytes.length + ([] : Bytes).length := by
  intro f hf
  rw [List.getLast?_concat, Option.mem_some_iff] at hf
  rw [← hf]
  exact hlong

/-- A longer last frame is handed on if nothing before it throws. -/
theorem handsOn_iff_of_long
    (h : IsFrameSet b id seq ((init ++ [last]).flatMap ParsedFrame.bytes))
    (hstale : ¬ IsFrameSet.number seq < w.this.nextExpectedSeq) (hlong : 4 < last.bytes.length)
    (hfrag : ∀ f ∈ init ++ [last], f.info.fragmentInfo = none) :
    HandsOn b (init ++ [last]) w ↔ Succeeds (rounds b.home b.size 4 init last.bytes)
      (w.advanced (IsFrameSet.number seq)) := by
  rw [← List.append_nil (List.flatMap _ _)] at h
  unfold HandsOn
  rw [h.after_eq_rounds hstale (long_getLast? init hlong) (by simp), calls_release, rounds_concat,
    List.append_nil]
  by_cases hs : Succeeds (rounds b.home b.size 4 init last.bytes)
      (w.advanced (IsFrameSet.number seq))
  · obtain ⟨u, hrun⟩ := hs.run
    refine iff_of_true ?_ hs
    rw [after_bind_ok hrun, calls_round, calls_rounds _ _ _ _ _ _ hs, calls_advanced,
      List.append_assoc, ← flatMap_calls hfrag, List.flatMap_append, List.flatMap_singleton]
  · obtain ⟨e, hrun⟩ := run_of_not_succeeds hs
    refine iff_of_false ?_ hs
    rw [after_bind_error hrun]
    exact calls_rounds_ne _ _ _ _ _ _ _

/-- A fragment is not handed on. -/
theorem not_handsOn_of_fragment (h : IsFrameSet b id seq (fs.flatMap ParsedFrame.bytes))
    (hstale : ¬ IsFrameSet.number seq < w.this.nextExpectedSeq)
    (hlast : ∀ f ∈ fs.getLast?, 4 < f.bytes.length)
    (hfrag : ¬ ∀ f ∈ fs, f.info.fragmentInfo = none) : ¬ HandsOn b fs w := by
  intro hcalls
  rw [← List.append_nil (List.flatMap _ _)] at h
  have hle := length_calls_rounds b.home b.size [] fs 4 (w.advanced (IsFrameSet.number seq))
  have hlt := length_calls_lt hfrag
  rw [HandsOn, h.after_eq_rounds hstale (by simpa using hlast) (by simp), calls_release] at hcalls
  rw [hcalls, calls_advanced, List.length_append, List.length_map] at hle
  omega

/-- **When a whole datagram in the window is handed on.** -/
theorem handsOn_iff (h : IsFrameSet b id seq (fs.flatMap ParsedFrame.bytes))
    (hstale : ¬ IsFrameSet.number seq < w.this.nextExpectedSeq) :
    HandsOn b fs w ↔ (∀ f ∈ fs, f.info.fragmentInfo = none) ∧ ∀ init last, fs = init ++ [last] →
      4 < last.bytes.length ∧
        Succeeds (rounds b.home b.size 4 init last.bytes) (w.advanced (IsFrameSet.number seq)) := by
  -- the last frame decides, so the list is taken apart from its end
  cases fs using List.reverseRecOn with
  | nil =>
    refine iff_of_true ?_ ⟨by simp, fun init last h => by simp at h⟩
    rw [← List.append_nil (List.flatMap _ _)] at h
    unfold HandsOn
    rw [h.after_eq_rounds hstale (by simp) (by simp)]
    exact (List.append_nil _).symm
  | append_singleton init last =>
    by_cases hlong : 4 < last.bytes.length
    · by_cases hfrag : ∀ f ∈ init ++ [last], f.info.fragmentInfo = none
      · rw [handsOn_iff_of_long h hstale hlong hfrag, and_iff_right hfrag]
        constructor
        · intro hs init' last' heq
          obtain ⟨rfl, hlast⟩ := List.append_inj' heq rfl
          rw [← List.singleton_inj.mp hlast]
          exact ⟨hlong, hs⟩
        · exact fun hall => (hall init last rfl).2
      · refine iff_of_false (not_handsOn_of_fragment h hstale ?_ hfrag) fun hall => hfrag hall.1
        simpa using hlong
    · refine iff_of_false (not_handsOn_of_short init h hstale (by omega)) fun hall => hlong ?_
      exact (hall.2 init last rfl).1

end HandsOn

/-! ## Well-formed frames -/

/-- An unfragmented frame in the layout of the reader, by its fields. -/
structure WireFrame where
  flags : UInt8
  reliabilityIndex : Fin (2 ^ 24) := 0
  sequenceIndex : Fin (2 ^ 24) := 0
  orderIndex : Fin (2 ^ 24) := 0
  orderChannel : UInt8 := 0
  body : Bytes
  unfragmented : flags &&& isOrderd = 0
  one_le_body : 1 ≤ body.length
  body_le : body.length ≤ 8191

namespace WireFrame

/-- The reliability in the top three bits of the flag byte. -/
def rely (f : WireFrame) : FrameReliability := .ofBits (f.flags >>> 5)

/-- The flag byte, the length in bits, and the index fields that the reliability calls for. -/
def header (f : WireFrame) : Bytes :=
  f.flags :: beBytes 2 (8 * f.body.length)
    ++ ((if isReliable f.rely then leBytes 3 f.reliabilityIndex else [])
      ++ ((if isSeq f.rely then leBytes 3 f.sequenceIndex else [])
        ++ (if isOrdered f.rely then leBytes 3 f.orderIndex ++ [f.orderChannel] else [])))

/-- The frame as it lies in the datagram. -/
def bytes (f : WireFrame) : Bytes := f.header ++ f.body

/-- The fields that the reader is to find. -/
def info (f : WireFrame) : FrameInfo where
  bodyLeng := UInt16.ofNat f.body.length
  reliabilityIndex := if isReliable f.rely then some (.ofNat f.reliabilityIndex) else none
  sequenceFrameIndex := if isSeq f.rely then some (.ofNat f.sequenceIndex) else none
  orderInfo :=
    if isOrdered f.rely then
      some { orderFrameIndex := .ofNat f.orderIndex, orderChannel := f.orderChannel }
    else none

end WireFrame

theorem consumes_index (n : Fin (2 ^ 24)) :
    Consumes (readNext UInt24) (leBytes 3 n) (UInt24.ofNat n) := by
  have h := consumes_uint24 (length_leBytes 3 n)
  rwa [ofLeBytes_leBytes, Nat.mod_eq_of_lt (show n.val < 256 ^ 3 from n.isLt)] at h

/-- An index and a channel are read from their four bytes. -/
theorem consumes_orderIndex (n : Fin (2 ^ 24)) (channel : UInt8) :
    Consumes readOrderInformation (leBytes 3 n ++ [channel])
      { orderFrameIndex := .ofNat n, orderChannel := channel } := by
  have h := consumes_order (length_leBytes 3 n) channel
  rwa [ofLeBytes_leBytes, Nat.mod_eq_of_lt (show n.val < 256 ^ 3 from n.isLt)] at h

/-- The length in bits, shifted back. -/
theorem bodyLeng_of_bits {n : Nat} (h : n ≤ 8191) :
    UInt16.ofNat (ofBeBytes (beBytes 2 (8 * n))) >>> 3 = UInt16.ofNat n := by
  rw [ofBeBytes_beBytes (show 8 * n < 256 ^ 2 by omega)]
  apply UInt16.toNat_inj.mp
  rw [UInt16.toNat_shiftRight, UInt16.toNat_ofNat', UInt16.toNat_ofNat']
  show (8 * n % 2 ^ 16) >>> 3 = n % 2 ^ 16
  rw [Nat.shiftRight_eq_div_pow]
  omega

/-- The header of a frame is read as what the frame says. -/
theorem WireFrame.reads (f : WireFrame) : Consumes (readNext FrameInfo) f.header f.info := by
  have h₄ : Consumes (readIf (f.flags &&& isOrderd ≠ 0) readFragmentInformation) [] none := by
    rw [f.unfragmented]
    exact Consumes.pure none
  have h := consumes_frameInfo (length_beBytes 2 (8 * f.body.length))
    (consumes_readIf (consumes_index f.reliabilityIndex) (isReliable f.rely))
    (consumes_readIf (consumes_index f.sequenceIndex) (isSeq f.rely))
    (consumes_readIf (consumes_orderIndex f.orderIndex f.orderChannel) (isOrdered f.rely)) h₄
  rw [bodyLeng_of_bits f.body_le, List.append_nil] at h
  exact h

/-- A well-formed frame is one that the loop can parse. -/
def WireFrame.parsed (f : WireFrame) : ParsedFrame where
  info := f.info
  header := f.header
  body := f.body
  reads := f.reads
  length_body := by
    show _ = (UInt16.ofNat f.body.length).toNat
    rw [UInt16.toNat_ofNat', Nat.mod_eq_of_lt (by have := f.body_le; omega)]

theorem WireFrame.unfragmented_parsed (f : WireFrame) : f.parsed.info.fragmentInfo = none := rfl

/-! ## The datagram -/

/-- The frames as the loop parses them. -/
abbrev parsed (frames : List WireFrame) : List ParsedFrame := frames.map WireFrame.parsed

@[simp] theorem flatMap_parsed (frames : List WireFrame) :
    (parsed frames).flatMap ParsedFrame.bytes = frames.flatMap WireFrame.bytes := by
  rw [List.flatMap_map]
  rfl

/-- The datagram in terms of what the loop parses. -/
theorem IsFrameSet.parsed {b : BinaryBuffer} {id : UInt8} {seq : Bytes} {frames : List WireFrame}
    (h : IsFrameSet b id seq (frames.flatMap WireFrame.bytes)) :
    IsFrameSet b id seq ((parsed frames).flatMap ParsedFrame.bytes) := by
  rwa [flatMap_parsed]

/-! ## Completeness -/

/--
**A datagram of well-formed frames is parsed completely exactly when its last frame is longer than
four bytes.**

The frames are those of the layout the reader expects, and `process_frame` is taken to return on
each of them.
-/
theorem handsOn_all_iff {b : BinaryBuffer} {id : UInt8} {seq : Bytes} {frames : List WireFrame}
    {w : World} (h : IsFrameSet b id seq (frames.flatMap WireFrame.bytes))
    (hseq : w.this.nextExpectedSeq.eqv (IsFrameSet.number seq))
    (hreturns : Succeeds (rounds b.home b.size 4 (parsed frames) [])
      (w.advanced (IsFrameSet.number seq))) :
    (Succeeds (processPacket b) w ∧ HandsOn b (parsed frames) w) ↔
      ∀ f ∈ frames.getLast?, 4 < f.bytes.length := by
  have hstale : ¬ IsFrameSet.number seq < w.this.nextExpectedSeq := by
    rw [UInt24.eqv_iff] at hseq
    rw [UInt24.lt_iff]
    omega
  have hset := h.parsed
  have hset' := h.parsed
  rw [← List.append_nil (List.flatMap _ _)] at hset'
  have hfrag : ∀ f ∈ parsed frames, f.info.fragmentInfo = none := by
    intro f hf
    obtain ⟨g, -, rfl⟩ := List.mem_map.mp hf
    exact g.unfragmented_parsed
  rw [handsOn_iff hset hstale, and_iff_right hfrag]
  constructor
  · rintro ⟨-, hlast⟩ f hf
    obtain ⟨init, rfl⟩ := List.getLast?_eq_some_iff.mp hf
    exact (hlast (parsed init) f.parsed List.map_append).1
  · intro hlast
    have hlong : ∀ f ∈ (parsed frames).getLast?, 4 < f.bytes.length + ([] : Bytes).length := by
      intro f hf
      rw [List.getLast?_map] at hf
      obtain ⟨g, hg, rfl⟩ := Option.mem_map.mp hf
      exact hlast g hg
    refine ⟨(hset'.succeeds_iff_rounds hstale hlong (by simp)).mpr hreturns, ?_⟩
    intro init last heq
    rw [heq] at hlong hreturns
    rw [rounds_concat, List.append_nil] at hreturns
    exact ⟨hlong last List.getLast?_concat, hreturns.of_bind⟩

/-- An unreliable frame around a short body. -/
def plainFrame (body : Bytes) (h : 1 ≤ body.length ∧ body.length ≤ 8191) : WireFrame where
  flags := 0
  body := body
  unfragmented := rfl
  one_le_body := h.1
  body_le := h.2

/-- The frame of a `NewIncommingConnection` that is cut after its second byte. -/
def pairFrame : WireFrame := plainFrame [0x13, 0] (by decide)

/-- The first datagram, with one such frame. -/
def plainDatagram (body : Bytes) (h : 1 ≤ body.length ∧ body.length ≤ 8191) : BinaryBuffer where
  bytes := 0x80 :: [0, 0, 0] ++ [plainFrame body h].flatMap WireFrame.bytes

/-- A datagram of one plain frame is a frame set. -/
theorem plainDatagram_isFrameSet (body : Bytes) (h : 1 ≤ body.length ∧ body.length ≤ 8191) :
    IsFrameSet (plainDatagram body h) 0x80 [0, 0, 0]
      ([plainFrame body h].flatMap WireFrame.bytes) :=
  ⟨rfl, rfl, ⟨by decide, by decide⟩, rfl⟩

/-- The first datagram, with two such frames. -/
def pairsDatagram : BinaryBuffer where
  bytes := 0x80 :: [0, 0, 0] ++ [pairFrame, pairFrame].flatMap WireFrame.bytes

/-- Two frames of one datagram are both handed on. -/
theorem handsOn_all_pairs :
    Succeeds (processPacket pairsDatagram) smallPool ∧
      HandsOn pairsDatagram (parsed [pairFrame, pairFrame]) smallPool := by
  have hset : IsFrameSet pairsDatagram 0x80 [0, 0, 0]
      ([pairFrame, pairFrame].flatMap WireFrame.bytes) := ⟨rfl, rfl, ⟨by decide, by decide⟩, rfl⟩
  exact (handsOn_all_iff hset (by decide) ⟨_, _, rfl⟩).mpr (by decide)

/-- A body of one byte in the last frame is not handed on, though `process_frame` would return. -/
theorem not_handsOn_one :
    Succeeds (rounds none 8 4 (parsed [plainFrame [0x13] (by decide)]) [])
        (smallPool.advanced (IsFrameSet.number [0, 0, 0])) ∧
      ¬ HandsOn (plainDatagram [0x13] (by decide)) (parsed [plainFrame [0x13] (by decide)])
        smallPool :=
  ⟨⟨_, _, rfl⟩, not_handsOn_of_short [] (plainDatagram_isFrameSet _ _) (by decide)
    (by decide)⟩

end Rakro
