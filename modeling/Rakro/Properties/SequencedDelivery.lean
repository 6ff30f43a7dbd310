import Rakro.Properties.FrameReturns

/-!
# Sequenced delivery

A channel counts the sequenced frames it has delivered, and a sequenced frame below the count has
been superseded. Ordered frames share the channel. One that comes ahead of its turn sets the count
back to zero, and what has been superseded is delivered again.
-/

namespace Rakro

open Infra BinaryBuffer

/-! ## Frames of one channel -/

/-- A frame on the channel `c`, sequenced or ordered only. -/
structure ChannelFrame (c : UInt8) where
  info : FrameInfo
  buffer : BinaryBuffer
  index : UInt24
  order : info.orderInfo = some { orderFrameIndex := index, orderChannel := c }
  canonical : ∀ number ∈ info.sequenceFrameIndex, number.Canonical

/-- What a frame leaves of a channel that it does not move the count of. -/
structure KeepsSequenced (w w' : World) : Prop where
  sequenced : w'.this.sequencedPacketsNextPacket = w.this.sequencedPacketsNextPacket
  ndebug : w'.host.ndebug = w.host.ndebug

instance : IsPreorder World KeepsSequenced where
  refl _ := ⟨rfl, rfl⟩
  trans _ _ _ h h' := ⟨h'.1.trans h.1, h'.2.trans h.2⟩

theorem KeepsSequenced.of_log {w w' : World} {event : Event}
    (h : KeepsSequenced (w.log event) w') : KeepsSequenced w w' := ⟨h.sequenced, h.ndebug⟩

/-- An answer leaves the sequenced counters. -/
theorem Answers.keepsSequenced {w w' : World} (h : Answers w w') : KeepsSequenced w w' :=
  ⟨h.sequenced, h.ndebug⟩

/-! ## What keeps the count -/

/-- A payload leaves them. -/
theorem processData_keepsSequenced (b : BinaryBuffer) : Within KeepsSequenced (processData b) := by
  exact fun w => (processData_answers b w).keepsSequenced.of_log

/-- An ordered counter's step leaves them. -/
theorem bumpOrdered_keepsSequenced (channel : UInt8) :
    Within KeepsSequenced (bumpOrdered channel) :=
  Within.bind (within_orderedNext _) fun _ _ => ⟨rfl, rfl⟩

/-- The loop over the stored packets leaves them, by induction on its fuel. -/
theorem drain_keepsSequenced (channel : UInt8) :
    ∀ (fuel : Nat) (key : OrderKey), Within KeepsSequenced (drain channel fuel key)
  | 0, _ => Within.throw _
  | fuel + 1, key => by
    unfold drain
    refine Within.bind Within.get fun w => ?_
    split
    · exact Within.pure _
    · refine Within.bind (fun _ => ⟨rfl, rfl⟩) fun _ => ?_
      refine Within.bind Within.get fun _ => ?_
      refine Within.bind (processData_keepsSequenced _) fun _ => ?_
      split
      · exact Within.throw _
      · exact Within.bind (bumpOrdered_keepsSequenced _) fun _ => drain_keepsSequenced channel fuel _

section Ordered

variable {b : BinaryBuffer} {info : FrameInfo} {order : OrderInformation}

theorem run_setSequenced {w : World} (channel : UInt8) (value : UInt32) :
    (setSequenced channel value).run w = .ok ⟨⟩ (after (setSequenced channel value) w) := rfl

/-- A count that is zero is not moved by setting it to zero. -/
theorem setSequenced_zero {w : World} {channel : UInt8} (hc : channel.toNat < maxOrderChannels)
    (h : w.this.sequencedPacketsNextPacket[channel.toNat] = 0) :
    KeepsSequenced w (after (setSequenced channel 0) w) := by
  refine ⟨?_, rfl⟩
  show w.this.sequencedPacketsNextPacket.setIfInBounds channel.toNat 0 = _
  ext i hi
  rw [Vector.getElem_setIfInBounds]
  split
  · next heq => subst heq; rw [h]
  · rfl

/-- What an ordered frame goes through, unless it comes ahead of its turn. -/
theorem processOrdered_keepsSequenced (hc : order.orderChannel.toNat < maxOrderChannels) {w : World}
    (h : w.this.orderedBufferNextPackets[order.orderChannel.toNat]
        < order.orderFrameIndex.getValue →
      w.this.sequencedPacketsNextPacket[order.orderChannel.toNat] = 0) :
    KeepsSequenced w (after (processOrdered b info order) w) := by
  have hrelease : Within KeepsSequenced (release b) :=
    (within_release b).mono fun _ _ => Answers.keepsSequenced
  have hstored : Within KeepsSequenced (alreadyStored b info order) :=
    (within_alreadyStored b info order).mono fun _ _ => Answers.keepsSequenced
  unfold processOrdered
  rw [after_bind_ok (run_orderedNext hc w)]
  split
  · -- in its turn
    refine Within.bind (R := KeepsSequenced) (bumpOrdered_keepsSequenced _) (fun _ => ?_) w
    refine Within.bind (processData_keepsSequenced b) fun _ => ?_
    refine Within.bind Within.get fun _ => ?_
    refine Within.bind (drain_keepsSequenced _ _ _) fun _ => ?_
    exact Within.pure _
  · next hne =>
    split
    · exact Within.bind (R := KeepsSequenced) hrelease (fun _ => Within.pure _) w
    · next hge =>
      have hlt : w.this.orderedBufferNextPackets[order.orderChannel.toNat]
          < order.orderFrameIndex.getValue := by
        rw [UInt32.lt_iff_toNat_lt] at hge ⊢
        have := mt UInt32.toNat_inj.mp hne
        omega
      rw [after_bind_ok (run_setSequenced _ _)]
      refine IsTrans.trans _ _ _ (setSequenced_zero hc (h hlt)) ?_
      refine Within.bind (R := KeepsSequenced) Within.get (fun _ => Within.ite ?_ ?_) _
      · exact Within.bind hstored fun _ => Within.pure _
      · exact Within.bind (fun _ => ⟨rfl, rfl⟩) fun _ => Within.pure _

end Ordered

/-! ## Arrivals -/

namespace ChannelFrame

variable {c : UInt8}

/-- The frame is handed to `process_frame`. -/
def arrive (a : ChannelFrame c) : ClientM PUnit := processFrame a.buffer a.info

/-- A sequenced frame is passed to `process_data`. -/
def PassedOn (a : ChannelFrame c) (w : World) : Prop := (after a.arrive w).delivered ≠ w.delivered

instance (a : ChannelFrame c) (w : World) : Decidable (a.PassedOn w) :=
  inferInstanceAs (Decidable (_ ≠ _))

variable {a : ChannelFrame c} {number : UInt24} {w : World} (hc : c.toNat < maxOrderChannels)

/-- A frame without a sequence index that comes ahead of its turn while the count is not zero. -/
def Resets (a : ChannelFrame c) (w : World) : Prop :=
  a.info.sequenceFrameIndex = none ∧
    w.this.orderedBufferNextPackets[c.toNat] < a.index.getValue ∧
    w.this.sequencedPacketsNextPacket[c.toNat] ≠ 0

/-- A sequenced frame that is neither below the count nor behind the turn of its channel. -/
def Current (a : ChannelFrame c) (number : UInt24) (w : World) : Prop :=
  w.this.sequencedPacketsNextPacket[c.toNat] ≤ number.getValue ∧
    w.this.orderedBufferNextPackets[c.toNat] ≤ a.index.getValue

instance (a : ChannelFrame c) (number : UInt24) (w : World) :
    Decidable (Current hc a number w) :=
  inferInstanceAs (Decidable (_ ∧ _))

/-- The state in which the branch of a frame begins. -/
def entered (a : ChannelFrame c) (w : World) : World := w.log (.frame a.info a.buffer.bytes)

@[simp] theorem delivered_entered (a : ChannelFrame c) (w : World) :
    (a.entered w).delivered = w.delivered := by
  unfold entered
  rw [delivered_log]
  exact List.append_nil _

/-- A frame without a sequence index leaves the count, unless it resets it. -/
theorem arrive_ordered (hseq : a.info.sequenceFrameIndex = none) (h : ¬ Resets hc a w) :
    KeepsSequenced w (after a.arrive w) := by
  have hzero : w.this.orderedBufferNextPackets[c.toNat] < a.index.getValue →
      w.this.sequencedPacketsNextPacket[c.toNat] = 0 := fun hlt =>
    Decidable.of_not_not fun hne => h ⟨hseq, hlt, hne⟩
  have hordered : KeepsSequenced (a.entered w) (after (processOrdered a.buffer a.info
      { orderFrameIndex := a.index, orderChannel := c }) (a.entered w)) :=
    processOrdered_keepsSequenced hc hzero
  unfold arrive
  rw [after_processFrame_ordered hseq a.order]
  refine KeepsSequenced.of_log (w := w) (IsTrans.trans _ _ _ hordered
    (Within.after_bind (fun r => ?_) _ _))
  cases r with
  | none => exact Within.pure _
  | some b => exact processData_keepsSequenced b

/-- What a sequenced frame goes through, up to the comparisons. -/
theorem run_arrive_sequenced (hdebug : w.host.ndebug = true)
    (hseq : a.info.sequenceFrameIndex = some number) :
    ∃ w', Answers (a.entered w) w' ∧ a.arrive.run w =
      (if Current hc a number w then do
          setSequenced c (number.getValue + 1)
          processData a.buffer
        else do
          debug (.onOutOfOrderSeqRecv a.buffer.bytes a.info
            w.this.sequencedPacketsNextPacket[c.toNat])
          release a.buffer : ClientM PUnit).run w' := by
  have hans := within_debug
    (.warningLog "Recived a sequenced packet, this implementation is not sound and may break")
    (a.entered w)
  refine ⟨_, hans, ?_⟩
  have hassert : (a.info.orderInfo.isSome && (after (debug (.warningLog
      "Recived a sequenced packet, this implementation is not sound and may break"))
        (a.entered w)).host.ndebug) = true := by
    rw [hans.ndebug, a.order]
    exact hdebug
  unfold arrive processFrame
  rw [run_bind_of_ok (run_emit _), hseq]
  unfold processSequenced
  change (_ : ClientM PUnit).run (a.entered w) = _
  rw [run_bind_of_ok (run_debug _ _), run_bind_of_ok (run_rakroAssert hassert), a.order]
  dsimp only
  rw [run_bind_of_ok (run_sequencedNext hc _), run_bind_of_ok (run_orderedNext hc _),
    hans.sequenced, hans.ordered]
  rfl

/--
Behind the log, a sequenced frame moves its counter and is handled, or goes to the instrument.
-/
theorem after_arrive_sequenced (hdebug : w.host.ndebug = true)
    (hseq : a.info.sequenceFrameIndex = some number) :
    ∃ w', Answers (a.entered w) w' ∧ after a.arrive w =
      after (if Current hc a number w then do
          setSequenced c (number.getValue + 1)
          processData a.buffer
        else do
          debug (.onOutOfOrderSeqRecv a.buffer.bytes a.info
            w.this.sequencedPacketsNextPacket[c.toNat])
          release a.buffer : ClientM PUnit) w' := by
  obtain ⟨w', hans, hrun⟩ := a.run_arrive_sequenced hc hdebug hseq
  exact ⟨w', hans, after_congr hrun⟩

/-- A sequenced frame that is current is passed on, and the count is that of its successor. -/
theorem arrive_current (hdebug : w.host.ndebug = true)
    (hseq : a.info.sequenceFrameIndex = some number) (h : Current hc a number w) :
    (after a.arrive w).this.sequencedPacketsNextPacket[c.toNat].toNat = number.toNat + 1 ∧
      (after a.arrive w).host.ndebug = true := by
  obtain ⟨w', hans, harrive⟩ := a.after_arrive_sequenced hc hdebug hseq
  have hcanon := a.canonical number hseq
  rw [harrive, if_pos h, after_bind_ok (run_setSequenced _ _)]
  have hdata := processData_keepsSequenced a.buffer
    (after (setSequenced c (number.getValue + 1)) w')
  refine ⟨?_, hdata.ndebug.trans (hans.ndebug.trans hdebug)⟩
  simp only [hdata.sequenced]
  show ((w'.this.sequencedPacketsNextPacket.setIfInBounds c.toNat
    (number.getValue + 1))[c.toNat]).toNat = _
  rw [Vector.getElem_setIfInBounds_self, UInt32.toNat_add]
  show (number.toNat + 1) % 2 ^ 32 = _
  unfold UInt24.Canonical at hcanon
  omega

/-- Any other is dropped. -/
theorem arrive_dropped (hdebug : w.host.ndebug = true)
    (hseq : a.info.sequenceFrameIndex = some number) (h : ¬ Current hc a number w) :
    KeepsSequenced w (after a.arrive w) ∧ ¬ a.PassedOn w := by
  obtain ⟨w', hans, harrive⟩ := a.after_arrive_sequenced hc hdebug hseq
  have hdropped : Answers (a.entered w) (after a.arrive w) := by
    rw [harrive, if_neg h]
    exact IsTrans.trans _ _ _ hans
      (Within.bind (within_debug _) (fun _ => within_release a.buffer) w')
  refine ⟨hdropped.keepsSequenced.of_log, fun hpassed => hpassed ?_⟩
  rw [hdropped.delivered, delivered_entered]

end ChannelFrame

/-! ## Runs -/

section Runs

variable {c : UInt8} (hc : c.toNat < maxOrderChannels) {w : World} {frames : List (ChannelFrame c)}

/--
No frame is passed on once one with a sequence index and an order index no smaller than its own has
been.
-/
def NeverSuperseded (w : World) (frames : List (ChannelFrame c)) : Prop :=
  ∀ l d mid a number number', l ++ d :: mid ++ [a] <+: frames →
    d.info.sequenceFrameIndex = some number → a.info.sequenceFrameIndex = some number' →
    d.PassedOn (afterAll ChannelFrame.arrive w l) →
    a.index.toNat ≤ d.index.toNat → number'.toNat ≤ number.toNat →
      ¬ a.PassedOn (afterAll ChannelFrame.arrive w (l ++ d :: mid))

/-- The count is above the sequence index of each frame that has been passed on. -/
structure AboveDelivered (w : World) (l : List (ChannelFrame c)) (w' : World) : Prop where
  ndebug : w'.host.ndebug = true
  above : ∀ l₀ d mid number, l = l₀ ++ d :: mid → d.info.sequenceFrameIndex = some number →
    d.PassedOn (afterAll ChannelFrame.arrive w l₀) →
      number.toNat < w'.this.sequencedPacketsNextPacket[c.toNat].toNat

variable {hc} {l : List (ChannelFrame c)} {a : ChannelFrame c} {w' : World}

/-- A frame that leaves the count, and that is not a sequenced frame passed on, changes nothing. -/
theorem AboveDelivered.kept (h : AboveDelivered hc w l w')
    (hkeeps : KeepsSequenced w' (after a.arrive w'))
    (ha : ∀ number, a.info.sequenceFrameIndex = some number →
      ¬ a.PassedOn (afterAll ChannelFrame.arrive w l)) :
    AboveDelivered hc w (l ++ [a]) (after a.arrive w') := by
  refine ⟨hkeeps.ndebug.trans h.ndebug, fun l₀ d mid number hl hseq hpassed => ?_⟩
  simp only [hkeeps.sequenced]
  rcases last_or_earlier hl with ⟨rfl, rfl⟩ | ⟨mid, rfl⟩
  · exact absurd hpassed (ha number hseq)
  · exact h.above l₀ d mid number rfl hseq hpassed

/-- One step. -/
theorem AboveDelivered.step (h : AboveDelivered hc w l (afterAll ChannelFrame.arrive w l))
    (ha : ¬ a.Resets hc (afterAll ChannelFrame.arrive w l)) :
    AboveDelivered hc w (l ++ [a]) (after a.arrive (afterAll ChannelFrame.arrive w l)) := by
  cases hseq : a.info.sequenceFrameIndex with
  | none =>
    refine h.kept (a.arrive_ordered hc hseq ha) fun number hsome => ?_
    rw [hseq] at hsome
    cases hsome
  | some number =>
    by_cases hcurrent : a.Current hc number (afterAll ChannelFrame.arrive w l)
    · obtain ⟨hcount, hdebug⟩ := a.arrive_current hc h.ndebug hseq hcurrent
      refine ⟨hdebug, fun l₀ d mid number' hl hseq' hpassed => ?_⟩
      rw [hcount]
      rcases last_or_earlier hl with ⟨rfl, rfl⟩ | ⟨mid, rfl⟩
      · cases hseq.symm.trans hseq'
        exact Nat.lt_succ_self _
      · have hbefore := h.above l₀ d mid number' rfl hseq' hpassed
        have hle := UInt32.le_iff_toNat_le.mp hcurrent.1
        exact Nat.lt_succ_of_lt (Nat.lt_of_lt_of_le hbefore hle)
    · obtain ⟨hkeeps, hdropped⟩ := a.arrive_dropped hc h.ndebug hseq hcurrent
      exact h.kept hkeeps fun _ _ => hdropped

/--
**In a run in which no ordered frame resets the count, no superseded frame is delivered.**

An ordered frame that comes ahead of its turn is let pass while the count is zero.
-/
theorem neverSuperseded_of_not_resets (hc : c.toNat < maxOrderChannels)
    (hdebug : w.host.ndebug = true) (hresets : ∀ l a, l ++ [a] <+: frames →
      ¬ a.Resets hc (afterAll ChannelFrame.arrive w l)) : NeverSuperseded w frames := by
  intro l d mid a number number' hl hseq hseq' hpassed _ hle
  have hnil : AboveDelivered hc w [] w := by
    refine ⟨hdebug, fun l₀ d mid number h => ?_⟩
    simp at h
  have habove := afterAll_induction (P := AboveDelivered hc w) hnil
    (fun l a hl h => h.step (hresets l a hl)) (l ++ d :: mid) ((List.prefix_append _ _).trans hl)
  have hlt := habove.above l d mid number rfl hseq hpassed
  refine (a.arrive_dropped hc habove.ndebug hseq' fun hcurrent => ?_).2
  have hcount := UInt32.le_iff_toNat_le.mp hcurrent.1
  exact absurd (Nat.lt_of_lt_of_le hlt hcount) (Nat.not_lt.mpr hle)

end Runs

/-- A frame of channel 0 with a message that needs no answer. -/
def channelFrame (number : Option (Fin (2 ^ 24))) (index : Fin (2 ^ 24)) : ChannelFrame 0 where
  info :=
    { bodyLeng := 1, rely := .reliableOrdered
      sequenceFrameIndex := number.map fun n => .ofNat n.val
      orderInfo := some (position 0 index.val) }
  buffer := { bytes := [0x13] }
  index := .ofNat index.val
  order := rfl
  canonical := by
    intro n hn
    obtain ⟨m, -, rfl⟩ := Option.map_eq_some_iff.mp hn
    exact UInt24.ofNat_canonical m.isLt

/-- A pool as small as possible, in a build without assertions. -/
def looseBuild : World := { smallPool with host := { smallPool.host with ndebug := true } }

/-- An ordered frame two turns ahead, and a sequenced frame twice behind it. -/
theorem neverSuperseded_of_not_resets_early : NeverSuperseded looseBuild
    [channelFrame none 2, channelFrame (some 3) 5, channelFrame (some 3) 5] := by
  refine neverSuperseded_of_not_resets (by decide) rfl fun l a hl hreset => ?_
  cases l with
  | nil => exact hreset.2.2 (by decide)
  | cons b l =>
    have hmem : a ∈ [channelFrame (some 3) 5, channelFrame (some 3) 5] :=
      ((List.cons_prefix_cons.mp hl).2).subset (by simp)
    have hsome : a.info.sequenceFrameIndex ≠ none := by
      simp only [List.mem_cons, List.not_mem_nil, or_false, or_self] at hmem
      rw [hmem]
      decide
    exact hsome hreset.1

/-- Behind a sequenced frame, the ordered frame lets it be delivered again. -/
theorem not_neverSuperseded_early :
    Succeeds ([channelFrame (some 3) 5, channelFrame none 2, channelFrame (some 3) 5].forM
      ChannelFrame.arrive) looseBuild ∧
    ¬ NeverSuperseded looseBuild
      [channelFrame (some 3) 5, channelFrame none 2, channelFrame (some 3) 5] := by
  refine ⟨by decide +kernel, fun h => ?_⟩
  refine h [] (channelFrame (some 3) 5) [channelFrame none 2] (channelFrame (some 3) 5) _ _
    (List.prefix_refl _) rfl rfl ?_ (Nat.le_refl _) (Nat.le_refl _) ?_
  · decide +kernel
  · decide +kernel

end Rakro
