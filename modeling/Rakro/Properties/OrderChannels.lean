import Rakro.Properties.Raises

/-!
# Order channels

The channel of a frame is a raw byte of its header, and nothing compares it with the number of
channels. Below that number, the key of a position and the counters are about the same channel, and
no two positions share a key. From there on, the first access to a counter is past its end.
-/

namespace Rakro

open Infra BinaryBuffer

/-! ## What a frame does with its channel -/

/-- An access past the end of the counters of the channels. -/
def Exn.IsChannelFault (e : Exn) : Prop :=
  e = .undefined "index past the end of ordered_buffer_next_packets" ∨
    e = .undefined "index past the end of sequenced_packets_next_packet"

instance (e : Exn) : Decidable e.IsChannelFault := inferInstanceAs (Decidable (_ ∨ _))

/-- None of the exceptions of the frame loop itself is a fault of a channel. -/
theorem noChannelFault : FrameFaults fun e => ¬ e.IsChannelFault where
  outOfRange _ := by simp [Exn.IsChannelFault]
  logicError _ := by simp [Exn.IsChannelFault]
  badOptionalAccess := by decide
  blocked := by decide
  byte := by decide
  block := by decide
  assertion := by decide
  diverges := by decide
  optional := by decide
  view := by decide

/--
The frame names a channel that does not exist, and `process_frame` goes by it. With assertions in
the build, a sequenced frame does not get that far.
-/
structure FrameInfo.Strays (info : FrameInfo) (ndebug : Bool) : Prop where
  used : info.sequenceFrameIndex = none ∨ ndebug = true
  channel : ∃ order ∈ info.orderInfo, maxOrderChannels ≤ order.orderChannel.toNat

/-- The position that `process_frame` makes a key of. -/
def FrameInfo.keyed (info : FrameInfo) : Option OrderInformation :=
  if info.sequenceFrameIndex.isSome then none else info.orderInfo

section Frame

variable {b : BinaryBuffer} {info : FrameInfo} {w : World}

/-- A channel out of range is past the end of the ordered counters. -/
theorem run_orderedNext_fault {channel : UInt8} (h : maxOrderChannels ≤ channel.toNat) (w : World) :
    (orderedNext channel).run w =
      .error (.undefined "index past the end of ordered_buffer_next_packets") w := by
  unfold orderedNext
  rw [run_get_bind, Vector.getElem?_eq_none h]
  rfl

theorem run_sequencedNext_fault {channel : UInt8} (h : maxOrderChannels ≤ channel.toNat)
    (w : World) : (sequencedNext channel).run w =
      .error (.undefined "index past the end of sequenced_packets_next_packet") w := by
  unfold sequencedNext
  rw [run_get_bind, Vector.getElem?_eq_none h]
  rfl

/-- With assertions on, an assertion fails whatever its condition. -/
theorem run_rakroAssert_fails {condition : Bool} (h : w.host.ndebug = false) :
    (rakroAssert condition).run w = .error .assertion w := by
  unfold rakroAssert
  rw [run_get_bind, h, Bool.and_false]
  rfl

/-- With assertions in the build, a sequenced frame ends at the first. -/
theorem run_processSequenced_asserts (h : w.host.ndebug = false) (index : UInt24) :
    ∃ w', (processSequenced b info index).run w = .error .assertion w' := by
  unfold processSequenced
  rw [run_bind_of_ok (run_debug _ w)]
  exact ⟨_, run_bind_of_error (run_rakroAssert_fails ((within_debug _ w).ndebug.trans h))⟩

/-- A sequenced frame on a channel out of range reaches the fault. -/
theorem run_processSequenced_fault (h : w.host.ndebug = true) {order : OrderInformation}
    (horder : info.orderInfo = some order) (hchannel : maxOrderChannels ≤ order.orderChannel.toNat)
    (index : UInt24) : ∃ w', (processSequenced b info index).run w =
      .error (.undefined "index past the end of sequenced_packets_next_packet") w' := by
  unfold processSequenced
  rw [run_bind_of_ok (run_debug _ w), horder]
  refine ⟨_, (run_bind_of_ok (run_rakroAssert ?_)).trans
    (run_bind_of_error (run_sequencedNext_fault hchannel _))⟩
  rw [(within_debug _ w).ndebug, h]
  rfl

/-- A frame that strays accesses a counter past the end. -/
theorem run_processFrame_strays (h : info.Strays w.host.ndebug) (b : BinaryBuffer) :
    ∃ e w', (processFrame b info).run w = .error e w' ∧ e.IsChannelFault := by
  obtain ⟨hused, order, horder, hchannel⟩ := h
  rw [Option.mem_def] at horder
  unfold processFrame
  rw [run_bind_of_ok (run_emit _)]
  cases hseq : info.sequenceFrameIndex with
  | none =>
    dsimp only
    unfold orderFrame
    rw [horder]
    exact ⟨_, _, run_bind_of_error (run_bind_of_error (run_orderedNext_fault hchannel _)), .inl rfl⟩
  | some index =>
    have hndebug : w.host.ndebug = true := hused.resolve_left (by simp [hseq])
    obtain ⟨w', hrun⟩ := run_processSequenced_fault (w := w.log (.frame info b.bytes)) hndebug horder
      hchannel index
    exact ⟨_, w', hrun, .inr rfl⟩

/-- Any other frame does not. -/
theorem not_fault_of_not_strays (h : ¬ info.Strays w.host.ndebug) {e : Exn} {w' : World}
    (herror : (processFrame b info).run w = .error e w') : ¬ e.IsChannelFault := by
  by_cases hused : info.sequenceFrameIndex = none ∨ w.host.ndebug = true
  · refine (noChannelFault.processFrame b fun order horder => ?_).of_run herror
    exact Nat.lt_of_not_le fun hchannel => h ⟨hused, order, horder, hchannel⟩
  · -- a build with assertions stops in front of the counters
    rw [not_or] at hused
    obtain ⟨index, hseq⟩ := Option.ne_none_iff_exists'.mp hused.1
    unfold processFrame at herror
    rw [run_bind_of_ok (run_emit _), hseq] at herror
    obtain ⟨w₁, hrun⟩ := run_processSequenced_asserts (w := w.log (.frame info b.bytes))
      (Bool.eq_false_iff.mpr hused.2) index
    cases hrun.symm.trans herror
    decide

end Frame

/-! ## What stays in range -/

/-- Between the two states, the frames that `process_frame` makes a key for have a position. -/
def AddsPositions (w w' : World) : Prop :=
  ∃ new, w'.calls = w.calls ++ new ∧ ∀ call ∈ new, ∀ order ∈ call.1.keyed, order.IsPosition

theorem AddsPositions.of_calls_eq {w w' : World} (h : w'.calls = w.calls) : AddsPositions w w' :=
  ⟨[], by rw [h, List.append_nil], by simp⟩

theorem AddsPositions.trans {w w' w'' : World} (h : AddsPositions w w')
    (h' : AddsPositions w' w'') : AddsPositions w w'' := by
  obtain ⟨new, hnew, hall⟩ := h
  obtain ⟨new', hnew', hall'⟩ := h'
  refine ⟨new ++ new', by rw [hnew', hnew, List.append_assoc], fun call hcall => ?_⟩
  rcases List.mem_append.mp hcall with hcall | hcall
  · exact hall call hcall
  · exact hall' call hcall

/-- Started in `w`, `m` accesses no counter past the end, and keys are made for positions only. -/
structure InRange {α : Type} (m : ClientM α) (w : World) : Prop where
  fault : ∀ e w', m.run w = .error e w' → ¬ e.IsChannelFault
  positions : AddsPositions w (after m w)

theorem InRange.pure {α : Type} (a : α) (w : World) : InRange (pure a : ClientM α) w where
  fault _ _ h := by cases h
  positions := .of_calls_eq rfl

theorem InRange.bind {α β : Type} {m : ClientM α} {f : α → ClientM β} {w : World}
    (hm : InRange m w) (hf : ∀ a w', m.run w = .ok a w' → InRange (f a) w') :
    InRange (m >>= f) w := by
  cases hrun : m.run w with
  | ok a w' =>
    have hrest := hf a w' hrun
    have hpositions := hm.positions
    rw [after_of_ok hrun] at hpositions
    refine ⟨fun e w'' h => ?_, ?_⟩
    · rw [run_bind_of_ok hrun] at h
      exact hrest.fault e w'' h
    · rw [after_bind_ok hrun]
      exact hpositions.trans hrest.positions
  | error e w' =>
    refine ⟨fun e' w'' h => ?_, ?_⟩
    · rw [run_bind_of_error hrun] at h
      cases h
      exact hm.fault e _ hrun
    · rw [after_bind_error hrun, ← after_of_error hrun]
      exact hm.positions

/-- A part that owns its buffer is in range when its body is. -/
theorem inRange_owning {b : BinaryBuffer} {body : ClientM PUnit} {w : World}
    (h : InRange body w) : InRange (owning b body) w := by
  refine ⟨fun e w' herror => ?_, ?_⟩
  · cases hrun : body.run w with
    | ok u w₁ => cases (run_owning_ok hrun).symm.trans herror
    | error e' w₁ =>
      cases (run_owning_error hrun).symm.trans herror
      exact h.fault _ w₁ hrun
  · rw [after_owning]
    exact h.positions

/-! ## The loop -/

/-- Behind `frames`, which are handed on without an exception, comes a whole frame that strays. -/
structure StraysAt (home : Option Place) (size cursor : Nat) (frames : List ParsedFrame)
    (f : ParsedFrame) (rest : Bytes) (w : World) : Prop where
  four_lt : 4 < f.bytes.length + rest.length
  returns : Succeeds (rounds home size cursor frames (f.bytes ++ rest)) w
  whole : f.info.fragmentInfo = none
  strays : f.info.Strays w.host.ndebug

/-- In front of `r`, the loop comes to such a frame. -/
def LoopStrays (home : Option Place) (size cursor : Nat) (r : Bytes) (w : World) : Prop :=
  ∃ frames f rest, r = frames.flatMap ParsedFrame.bytes ++ (f.bytes ++ rest) ∧
    StraysAt home size cursor frames f rest w

/-- The kind of the build stays. -/
def SameBuild (w w' : World) : Prop := w'.host.ndebug = w.host.ndebug

instance : IsPreorder World SameBuild where
  refl _ := rfl
  trans _ _ _ h h' := Eq.trans h' h

theorem sameBuild_loopBound : LoopBound SameBuild where
  answers _ _ h := h.ndebug
  data _ _ := rfl
  counters _ _ _ := rfl
  taken _ _ := rfl
  stored _ _ _ _ _ _ _ _ := rfl
  called _ _ := rfl
  sliced _ _ _ _ := rfl

section Loop

variable {home : Option Place} {size cursor : Nat} {f : ParsedFrame} {rest : Bytes} {w w' : World}

/-- A round in front of such a frame is in front of it as well. -/
theorem LoopStrays.cons {u : PUnit} (hround : (round home size cursor f rest).run w = .ok u w')
    (h : LoopStrays home size (cursor + f.bytes.length) rest w') :
    LoopStrays home size cursor (f.bytes ++ rest) w := by
  obtain ⟨frames, g, tail, rfl, hat⟩ := h
  have hbuild : SameBuild w w' := (sameBuild_loopBound.within_round _ _ _ f _).of_run hround
  refine ⟨f :: frames, g, tail, by rw [List.flatMap_cons, List.append_assoc], hat.four_lt, ?_,
    hat.whole, ?_⟩
  · exact (succeeds_bind_of_ok hround).mpr hat.returns
  · rw [← hbuild]
    exact hat.strays

/-- A position that a key is made of is one, when the frame does not stray. -/
theorem isPosition_of_keyed {ndebug : Bool} (h : ¬ f.info.Strays ndebug) {order : OrderInformation}
    (horder : order ∈ f.info.keyed) : order.IsPosition := by
  unfold FrameInfo.keyed at horder
  split at horder
  · cases horder
  · next hseq =>
    refine ⟨Nat.lt_of_not_le fun hchannel => h ⟨.inl ?_, order, horder, hchannel⟩,
      f.orderCanonical order horder⟩
    exact Option.not_isSome_iff_eq_none.mp hseq

/-- A round is in range unless its frame is handed on and strays. -/
theorem inRange_round (h : ¬ (f.info.fragmentInfo = none ∧ f.info.Strays w.host.ndebug)) :
    InRange (round home size cursor f rest) w := by
  by_cases hfrag : f.info.fragmentInfo.isSome
  · constructor
    · intro e w' herror
      unfold round handFrame at herror
      rw [run_bind_of_ok (run_emit _), if_pos hfrag] at herror
      cases herror
    · refine .of_calls_eq ?_
      rw [calls_round, ParsedFrame.calls, if_pos hfrag, List.append_nil]
  · have hnot : ¬ f.info.Strays w.host.ndebug := fun hstrays =>
      h ⟨Option.not_isSome_iff_eq_none.mp hfrag, hstrays⟩
    constructor
    · intro e w' herror
      unfold round handFrame at herror
      rw [run_bind_of_ok (run_emit _), if_neg hfrag] at herror
      exact not_fault_of_not_strays
        (w := w.log (.slice (cursor + f.header.length) f.body.length size)) hnot herror
    · refine ⟨[f.call], ?_, ?_⟩
      · rw [calls_round, ParsedFrame.calls, if_neg hfrag]
      · intro call hcall order horder
        rw [List.mem_singleton.mp hcall] at horder
        exact isPosition_of_keyed hnot horder

/-- The round of a frame that strays accesses a counter past the end. -/
theorem run_round_strays (home : Option Place) (size cursor : Nat) (rest : Bytes)
    (hwhole : f.info.fragmentInfo = none) (hstrays : f.info.Strays w.host.ndebug) :
    ∃ e w', (round home size cursor f rest).run w = .error e w' ∧ e.IsChannelFault := by
  obtain ⟨e, w', hrun, hfault⟩ := run_processFrame_strays
    (w := w.log (.slice (cursor + f.header.length) f.body.length size)) hstrays
    (f.view home cursor rest)
  refine ⟨e, w', ?_, hfault⟩
  unfold round handFrame
  rw [run_bind_of_ok (run_emit _), if_neg (by simp [hwhole])]
  exact hrun

/-- As long as no frame strays, the loop is in range. -/
theorem inRange_frameLoop : ∀ (fuel : Nat) (b : BinaryBuffer) (p r : Bytes) (w : World),
    ¬ LoopStrays b.home (p.length + r.length) p.length r w → InRange (frameLoop fuel (b.between p r)) w
  | 0, _, _, _, w, _ => by
    refine ⟨fun e w' herror => ?_, .of_calls_eq rfl⟩
    cases herror
    exact noChannelFault.diverges
  | fuel + 1, b, p, r, w, h => by
    cases loopFront b p r with
    | finished hshort =>
      rw [frameLoop_end hshort]
      exact InRange.pure _ w
    | unread hlong hread =>
      have hrun := run_frameLoop_unread fuel w hlong hread
      refine ⟨fun e w' herror => ?_, .of_calls_eq (by rw [after_of_error hrun])⟩
      cases hrun.symm.trans herror
      exact noChannelFault.readFrameInfo.of_run hread
    | overrun hreads hlong hover =>
      have hrun := run_frameLoop_overrun fuel b p hreads hlong hover w
      refine ⟨fun e w' herror => ?_, .of_calls_eq ?_⟩
      · cases hrun.symm.trans herror
        exact noChannelFault.view
      · rw [after_of_error hrun, World.calls_log]
        exact List.append_nil _
    | frame f rest hlt =>
      rw [List.length_append] at h
      rw [frameLoop_round fuel b p hlt]
      refine InRange.bind (inRange_round ?_) fun u w' hrun => ?_
      · rintro ⟨hwhole, hstrays⟩
        exact h ⟨[], f, rest, rfl, hlt, succeeds_pure _ _, hwhole, hstrays⟩
      · -- what comes behind is in front of the loop a round later
        have hcursor : (p ++ f.bytes).length = p.length + f.bytes.length := List.length_append
        refine inRange_frameLoop fuel b (p ++ f.bytes) rest w' fun hstrays => h (.cons hrun ?_)
        rwa [hcursor, Nat.add_assoc] at hstrays

end Loop

/-! ## The datagram -/

/-- The datagram is a frame set in the window, and the loop comes to a frame that strays. -/
def DatagramStrays (b : BinaryBuffer) (w : World) : Prop :=
  ∃ id seq rest, IsFrameSet b id seq rest ∧ ¬ IsFrameSet.number seq < w.this.nextExpectedSeq ∧
    LoopStrays b.home b.size 4 rest (w.advanced (IsFrameSet.number seq))

section Datagram

variable {b : BinaryBuffer} {w : World}

/-- Such a datagram ends with an access past the end. -/
theorem DatagramStrays.fault (h : DatagramStrays b w) :
    ∃ e w', (processPacket b).run w = .error e w' ∧ e.IsChannelFault := by
  obtain ⟨id, seq, _, hset, hstale, frames, f, rest, rfl, hat⟩ := h
  have hlast : ∀ g ∈ frames.getLast?, 4 < g.bytes.length + (f.bytes ++ rest).length := by
    intro g _
    have hlt := hat.four_lt
    rw [List.length_append]
    omega
  obtain ⟨fuel, hrun⟩ := hset.run_rounds hstale hlast
  obtain ⟨u, hrounds⟩ := hat.returns.run
  have hbuild : SameBuild (w.advanced (IsFrameSet.number seq)) _ :=
    (sameBuild_loopBound.within_rounds _ _ _ frames _).of_run hrounds
  have hstrays := hat.strays
  rw [← hbuild] at hstrays
  let p := id :: seq ++ frames.flatMap ParsedFrame.bytes
  obtain ⟨e, w', hround, hfault⟩ := run_round_strays b.home
    (p.length + (f.bytes.length + rest.length)) p.length rest hat.whole hstrays
  have hloop := run_bind_of_error
    (f := fun _ => frameLoop fuel (b.between (p ++ f.bytes) rest)) hround
  rw [← frameLoop_round fuel b p hat.four_lt] at hloop
  refine ⟨e, after (release b) w', ?_, hfault⟩
  rw [hset.processPacket_eq]
  exact run_owning_error (hrun.trans ((run_bind_of_ok hrounds).trans hloop))

/-- Any other datagram is in range. -/
theorem inRange_of_not_strays (hstart : b.index = 0) (h : ¬ DatagramStrays b w) :
    InRange (processPacket b) w := by
  by_cases hset : ∃ id seq rest, IsFrameSet b id seq rest
  · obtain ⟨id, seq, rest, hset⟩ := hset
    rw [hset.processPacket_eq]
    refine inRange_owning ?_
    by_cases hstale : IsFrameSet.number seq < w.this.nextExpectedSeq
    · have hrun := processFrames_stale hstale (b.between (id :: seq) rest)
      refine ⟨fun e w' herror => ?_, .of_calls_eq (by rw [after_of_ok hrun])⟩
      cases hrun.symm.trans herror
    · have hrun := processFrames_bind hstale (b.between (id :: seq) rest)
      have hloop := inRange_frameLoop ((b.between (id :: seq) rest).size + 1) b (id :: seq) rest
        (w.advanced (IsFrameSet.number seq))
        (by
          rw [hset.length_header, ← hset.size_eq]
          exact fun hstrays => h ⟨id, seq, rest, hset, hstale, hstrays⟩)
      refine ⟨fun e w' herror => hloop.fault e w' (hrun.symm.trans herror), ?_⟩
      rw [after_congr hrun]
      exact hloop.positions
  · have hnone : ∀ id seq rest, ¬ IsFrameSet b id seq rest := fun id seq rest hb =>
      hset ⟨id, seq, rest, hb⟩
    refine ⟨fun e w' => (noChannelFault.processPacket hstart hnone).of_run, .of_calls_eq ?_⟩
    exact (processPacket_settles hstart hnone w).keepsWindow.calls

end Datagram

/-! ## The run -/

/-- The calls of `process_frame` in a run over some datagrams. -/
def runCalls (w : World) (ds : List BinaryBuffer) : List (FrameInfo × Bytes) :=
  (afterAll processPacket w ds).calls.drop w.calls.length

/-- No datagram of the run accesses a counter past the end, and no two positions share a key. -/
structure ChannelsInRange (w : World) (ds : List BinaryBuffer) : Prop where
  channels : ∀ l b, l ++ [b] <+: ds → ∀ e w',
    (processPacket b).run (afterAll processPacket w l) = .error e w' → ¬ e.IsChannelFault
  keys : ∀ call ∈ runCalls w ds, ∀ call' ∈ runCalls w ds, ∀ order ∈ call.1.keyed,
    ∀ order' ∈ call'.1.keyed, order.key = order'.key → order = order'

/-- No datagram of the run makes the loop come to a frame that strays. -/
def NeverStrays (w : World) (ds : List BinaryBuffer) : Prop :=
  ∀ l b, l ++ [b] <+: ds → ¬ DatagramStrays b (afterAll processPacket w l)

/-- A run whose datagrams all stay in range adds positions in range. -/
theorem addsPositions_afterAll {w : World} {ds : List BinaryBuffer} (hds : ∀ b ∈ ds, b.index = 0)
    (h : NeverStrays w ds) : AddsPositions w (afterAll processPacket w ds) := by
  refine afterAll_induction (P := fun _ w' => AddsPositions w w') (.of_calls_eq rfl) ?_ ds
    (List.prefix_refl ds)
  intro l b hl ih
  have hstart : b.index = 0 := hds b (hl.subset (by simp))
  exact ih.trans (inRange_of_not_strays hstart (h l b hl)).positions

/--
**The order channels of a run stay in range exactly when the frame loop never comes to a frame on a
channel that does not exist.**
-/
theorem channelsInRange_iff {w : World} {ds : List BinaryBuffer} (hds : ∀ b ∈ ds, b.index = 0) :
    ChannelsInRange w ds ↔ NeverStrays w ds := by
  constructor
  · intro hrange l b hl hstrays
    obtain ⟨e, w', hrun, hfault⟩ := hstrays.fault
    exact hrange.channels l b hl e w' hrun hfault
  · intro h
    constructor
    · intro l b hl e w' hrun
      exact (inRange_of_not_strays (hds b (hl.subset (by simp))) (h l b hl)).fault e w' hrun
    · obtain ⟨new, hnew, hall⟩ := addsPositions_afterAll hds h
      unfold runCalls
      rw [hnew, List.drop_left]
      intro call hcall call' hcall' order horder order' horder' hkey
      exact (hall call hcall order horder).eq_of_key (hall call' hcall' order' horder') hkey

/-- The first datagram: an ordered frame of two bytes on a channel. -/
def orderedOn (channel : UInt8) : BinaryBuffer where
  bytes := [0x80, 0, 0, 0, 0x60, 0, 0x10, 0, 0, 0, 0, 0, 0, channel, 0x13, 0]

/-- A frame on the last channel stays in range. -/
theorem neverStrays_last : NeverStrays smallPool [orderedOn 31] := by
  have hreturns : Succeeds (processPacket (orderedOn 31)) smallPool := by decide +kernel
  refine (channelsInRange_iff (by decide)).mp ⟨?_, by decide⟩
  rintro (_ | ⟨a, l⟩) b ⟨rest, hrest⟩ e w' herror
  · cases hrest
    exact absurd hreturns (not_succeeds_of_error herror)
  · simp at hrest

/-- Behind the last channel there is no counter. -/
theorem not_channelsInRange_first : ¬ ChannelsInRange smallPool [orderedOn 32] := by
  intro hrange
  refine hrange.channels [] (orderedOn 32) (List.prefix_refl _) _ _ rfl ?_
  exact .inl rfl

end Rakro
