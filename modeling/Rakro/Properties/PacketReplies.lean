import Rakro.Properties.FrameReturns
import Rakro.Properties.Replies

/-!
# What a datagram is worth

A payload is processed once, and the payload of an ordered frame twice, the second time right behind
the first or when its turn has come. So what is sent for a frame is at most fourteen times as long as
the frame is, and what is sent for a datagram at most fourteen times as long as the datagram.

Only a frame set in the window is answered, and what it is answered with is new: it carries the number
that is expected behind it. No other datagram makes a client send anything.
-/

namespace Rakro

open Infra BinaryBuffer

variable {address : IPV4Addr} {asked : Inquiry} {c : Nat} {w w' : World}

/-! ## The stored frames -/

/-- What is saved up for a frame is there when its turn has come. -/
theorem owed_taken {key : OrderKey} {packet : PacketInformation}
    (h : w.this.outOfOrderPacketBuffer.lookup key = some packet) :
    w.this.owed = replyLimit packet.rawData.remainingSlice.length + (w.taken key).this.owed := by
  unfold RakroServerClient.owed
  rw [(holdings_perm h).sum_eq, List.sum_append]
  rfl

/-- A stored frame adds what its answer may cost. -/
theorem owed_inserted {b : BinaryBuffer} {info : FrameInfo} {order : OrderInformation}
    (h : constructOrderKey order.orderChannel order.orderFrameIndex ∉
      w.this.outOfOrderPacketBuffer) :
    (w.inserted b info order).this.owed = replyLimit b.remainingSlice.length + w.this.owed := by
  unfold RakroServerClient.owed World.inserted
  dsimp only
  rw [holdings_insert_of_notMem h, List.sum_append]
  rfl

theorem Inquiry.Meets.taken (h : asked.Meets w.this) (key : OrderKey) :
    asked.Meets (w.taken key).this where
  address := h.address
  number := h.number
  stored := h.stored.erase key

theorem Inquiry.Meets.inserted {b : BinaryBuffer} (h : asked.Meets w.this) (hb : asked.MayStore b)
    (info : FrameInfo) (order : OrderInformation) : asked.Meets (w.inserted b info order).this where
  address := h.address
  number := h.number
  stored := h.stored.insert hb

/-- The answer to a stored packet is paid for by what it was owed. -/
theorem answered_of_taken {key : OrderKey} {packet : PacketInformation}
    (hlookup : w.this.outOfOrderPacketBuffer.lookup key = some packet)
    (h : asked.MayStore packet.rawData →
      Answered asked (replyLimit packet.rawData.remainingSlice.length) (w.taken key) w') :
    Answered asked 0 w w' := by
  intro hmeets
  obtain ⟨hmeets', hsession, new, hnew⟩ :=
    h (hmeets.stored key packet hlookup) (hmeets.taken key)
  refine ⟨hmeets', hsession, new, hnew.datagrams, hnew.answers, hnew.filed, ?_⟩
  rw [owed_taken hlookup, Nat.zero_add]
  exact hnew.paid

/-- Another look at the memory shows as many bytes. -/
theorem length_reload (b : BinaryBuffer) (company : BufferCompany) :
    (b.reload company).remainingSlice.length = b.remainingSlice.length := by
  unfold reload remainingSlice
  split
  · rw [List.length_drop, List.length_drop, BufferCompany.length_load]
  · rfl

/-! ## `process_frame` -/

theorem answered_setSequenced (channel : UInt8) (value : UInt32) :
    Within (Answered asked 0) (setSequenced channel value) := fun _ =>
  answered_same rfl rfl rfl rfl rfl

theorem answered_bumpOrdered (channel : UInt8) :
    Within (Answered asked 0) (bumpOrdered channel) :=
  Within.free_bind (answered_of_silent (within_orderedNext channel)) fun _ _ =>
    answered_same rfl rfl rfl rfl rfl

theorem silent_alreadyStored (b : BinaryBuffer) (info : FrameInfo) (order : OrderInformation) :
    Within Silent (alreadyStored b info order) := by
  refine Within.bind (silent_debug _) fun _ => ?_
  refine Within.bind (silent_release _) fun _ => ?_
  refine Within.bind Within.get fun w => ?_
  split
  · exact Within.ite (Within.throw _) (Within.pure _)
  · exact Within.throw _

/-- The frames whose turn has come are answered from what has been saved up for them. -/
theorem answered_drain (channel : UInt8) : ∀ (fuel : Nat) (key : OrderKey),
    Within (Answered asked 0) (drain channel fuel key)
  | 0, _ => free_throw _
  | fuel + 1, key => by
    intro w
    unfold drain
    rw [after_get_bind]
    cases hlookup : w.this.outOfOrderPacketBuffer.lookup key with
    | none => exact IsGraded.refl w
    | some packet =>
      dsimp only
      rw [after_bind_ok (run_modifyThis _)]
      refine answered_of_taken hlookup fun hasked => ?_
      have hlength := length_reload packet.rawData (w.taken key).host.company
      rw [after_get_bind, ← hlength]
      refine Within.bind_free (answered_processData (hasked _ hlength)) (fun _ => ?_) _
      split
      · exact free_throw _
      · exact Within.free_bind (answered_bumpOrdered channel) fun _ => answered_drain channel fuel _

/-- A buffer that goes on to the end of `process_frame` shows the payload. -/
theorem yields_orderFrame (b : BinaryBuffer) (info : FrameInfo) :
    Yields (fun _ => True) (orderFrame b info) fun r _ =>
      ∀ b' ∈ r, b'.remainingSlice = b.remainingSlice := by
  have hsome : ∀ {b' : BinaryBuffer}, b'.remainingSlice = b.remainingSlice →
      ∀ b'' ∈ some b', b''.remainingSlice = b.remainingSlice := by
    rintro b' h _ ⟨⟩
    exact h
  have hany : ∀ {α : Type} (m : ClientM α), Yields (fun _ => True) m fun _ _ => True :=
    fun _ _ _ _ _ _ => trivial
  unfold orderFrame
  split
  · refine Yields.bind (hany _) fun next => Yields.ite (fun _ => ?_) fun _ => Yields.ite
      (fun _ => ?_) fun _ => ?_
    · refine Yields.bind (hany _) fun _ => ?_
      refine Yields.bind (hany _) fun _ => ?_
      refine Yields.bind (hany _) fun _ => ?_
      refine Yields.bind (hany _) fun _ => ?_
      exact Yields.pure fun _ _ => hsome rfl
    · exact Yields.bind (hany _) fun _ => Yields.pure fun _ _ => nofun
    · refine Yields.bind (hany _) fun _ => Yields.bind (hany _) fun _ => Yields.ite (fun _ => ?_)
        fun _ => ?_
      · exact Yields.bind (hany _) fun _ => Yields.pure fun _ _ => nofun
      · exact Yields.bind (hany _) fun _ => Yields.pure fun _ _ => hsome rfl
  · exact Yields.pure fun _ _ => hsome rfl

/-- An ordered frame is answered or stored, at the same price. -/
theorem answered_processOrdered {b : BinaryBuffer} (hasked : asked.MayStore b) (info : FrameInfo)
    (order : OrderInformation) : Within (Answered asked (replyLimit b.remainingSlice.length))
      (processOrdered b info order) := by
  refine Within.free_bind (answered_of_silent (within_orderedNext _)) fun next => Within.ite ?_
    (Within.ite ?_ ?_)
  · refine Within.free_bind (answered_bumpOrdered _) fun _ => Within.bind_free
      (answered_processData (hasked _ rfl)) fun _ => Within.free_bind free_get fun _ => ?_
    exact Within.free_bind (answered_drain _ _ _) fun _ => free_pure _
  · exact (Within.free_bind (answered_of_silent (silent_release b)) fun _ => free_pure _).more
      (Nat.zero_le _)
  · refine Within.free_bind (answered_setSequenced _ _) fun _ w => ?_
    rw [after_get_bind]
    split
    · exact (Within.free_bind (answered_of_silent (silent_alreadyStored b info order)) fun _ =>
        free_pure _).more (Nat.zero_le _) w
    · next hkey =>
      -- the answer is saved up until the turn of the frame
      rw [after_bind_ok (run_modifyThis _)]
      intro hmeets
      refine ⟨hmeets.inserted hasked info order, rfl, [], ?_⟩
      exact answering_nothing rfl (fun _ _ h => h) (Nat.le_of_eq (owed_inserted hkey))

theorem answered_processSequenced {b : BinaryBuffer} (hasked : asked.payloads b.remainingSlice)
    (info : FrameInfo) (index : UInt24) :
    Within (Answered asked (replyLimit b.remainingSlice.length))
      (processSequenced b info index) := by
  refine Within.free_bind (answered_of_silent (silent_debug _)) fun _ =>
    Within.free_bind (answered_of_silent (within_rakroAssert _)) fun _ => ?_
  split
  · exact (free_throw _).more (Nat.zero_le _)
  · refine Within.free_bind (answered_of_silent (within_sequencedNext _)) fun _ =>
      Within.free_bind (answered_of_silent (within_orderedNext _)) fun _ => Within.ite ?_ ?_
    · exact Within.free_bind (answered_setSequenced _ _) fun _ => answered_processData hasked
    · exact (answered_of_silent (Within.bind (silent_debug _) fun _ => silent_release b)).more
        (Nat.zero_le _)

/-- What may be sent for a frame: twice the answer when it is ordered. -/
def FrameInfo.replyLimit (info : FrameInfo) (leng : Nat) : Nat :=
  if info.orderInfo.isSome then 2 * Rakro.replyLimit leng else Rakro.replyLimit leng

/--
What may be processed of a frame: its body, and when it is ordered whatever its memory holds by the
time of its turn.
-/
inductive FrameInfo.Shows (info : FrameInfo) (body : Bytes) : Bytes → Prop
  | now : FrameInfo.Shows info body body
  | later {order : OrderInformation} {payload : Bytes} : info.orderInfo = some order →
      payload.length = body.length → FrameInfo.Shows info body payload

theorem answered_processFrame {b : BinaryBuffer} {info : FrameInfo}
    (hasked : ∀ payload, info.Shows b.remainingSlice payload → asked.payloads payload) :
    Within (Answered asked (info.replyLimit b.remainingSlice.length)) (processFrame b info) := by
  have honce : replyLimit b.remainingSlice.length ≤ info.replyLimit b.remainingSlice.length := by
    unfold FrameInfo.replyLimit
    split <;> omega
  have hnow : asked.payloads b.remainingSlice := hasked _ .now
  refine Within.free_bind (answered_of_silent (silent_emit rfl)) fun _ => ?_
  split
  · exact (answered_processSequenced hnow info _).more honce
  · have hlast : ∀ {f : Option BinaryBuffer → ClientM PUnit}, f none = pure ⟨⟩ →
        (∀ b', f (some b') = processData b') → ∀ w r w', (orderFrame b info).run w = .ok r w' →
        Within (Answered asked (replyLimit b.remainingSlice.length)) (f r) := by
      intro f hnone hsome w r w' hrun
      cases r with
      | some b' =>
        have hslice := yields_orderFrame b info w _ w' trivial hrun b' rfl
        rw [hsome, ← hslice]
        rw [← hslice] at hnow
        exact answered_processData hnow
      | none =>
        rw [hnone]
        exact (free_pure _).more (Nat.zero_le _)
    cases horder : info.orderInfo with
    | none =>
      have hfirst : Within (Answered asked 0) (orderFrame b info) := by
        unfold orderFrame
        rw [horder]
        exact free_pure _
      exact ((hfirst.bind_of_run (hlast rfl fun _ => rfl)).more (Nat.zero_add _).le).more honce
    | some order =>
      have hstored : asked.MayStore b := fun payload hlen => hasked payload (.later horder hlen)
      have hfirst : Within (Answered asked (replyLimit b.remainingSlice.length))
          (orderFrame b info) := by
        unfold orderFrame
        rw [horder]
        exact answered_processOrdered hstored info order
      refine (hfirst.bind_of_run (hlast rfl fun _ => rfl)).more ?_
      unfold FrameInfo.replyLimit
      rw [horder]
      exact (Nat.two_mul _).ge

/-! ## The frame loop -/

/-- The header of an ordered frame has its index and its channel, too. -/
theorem ParsedFrame.seven_le_length_header {f : ParsedFrame} {order : OrderInformation}
    (horder : f.info.orderInfo = some order) : 7 ≤ f.header.length := by
  obtain ⟨b, b', p, r, hrun, hlen⟩ := ParsedFrame.reads_order horder
  obtain ⟨enc, r', rfl, -, -, henc⟩ := scans_order _ _ _ _ _ hrun
  rw [List.length_append] at hlen
  omega

/-- A connection request is a long message, and a frame that is ordered has a long header. -/
theorem ParsedFrame.replyLimit_le (f : ParsedFrame) :
    f.info.replyLimit f.body.length ≤ 14 * f.bytes.length := by
  have hheader := f.three_le_length_header
  have hlimit : replyLimit f.body.length = 0 ∧ f.body.length = 0 ∨
      replyLimit f.body.length ≤ 23 ∧ 1 ≤ f.body.length ∨
      replyLimit f.body.length ≤ 173 ∧ 18 ≤ f.body.length := by
    unfold replyLimit
    split
    · exact .inr (.inr ⟨Nat.le_refl _, ‹_›⟩)
    · split
      · exact .inl ⟨rfl, ‹_›⟩
      · exact .inr (.inl ⟨Nat.le_refl _, by omega⟩)
  rw [f.length_bytes]
  unfold FrameInfo.replyLimit
  cases horder : f.info.orderInfo with
  | none =>
    rw [if_neg (by simp)]
    omega
  | some order =>
    have hseven := ParsedFrame.seven_le_length_header horder
    rw [if_pos Option.isSome_some]
    omega

/-- The client is asked what the frames in front of the loop show, but for the fragments. -/
def Inquiry.Covers (asked : Inquiry) (r : Bytes) : Prop :=
  ∀ (fs : List ParsedFrame) (f : ParsedFrame) (tail : Bytes),
    r = fs.flatMap ParsedFrame.bytes ++ f.bytes ++ tail → f.info.fragmentInfo = none →
      ∀ payload, f.info.Shows f.body payload → asked.payloads payload

section Covers

variable {f : ParsedFrame} {rest : Bytes}

theorem Inquiry.Covers.head (h : asked.Covers (f.bytes ++ rest)) (hwhole : f.info.fragmentInfo = none)
    {payload : Bytes} (hshows : f.info.Shows f.body payload) : asked.payloads payload :=
  h [] f rest rfl hwhole payload hshows

theorem Inquiry.Covers.tail (h : asked.Covers (f.bytes ++ rest)) : asked.Covers rest := by
  intro fs g tail hrest
  refine h (f :: fs) g tail ?_
  rw [hrest, List.flatMap_cons, List.append_assoc, List.append_assoc, List.append_assoc]

/-- A round of the loop is paid for by the bytes of its frame. -/
theorem answered_round (hasked : asked.Covers (f.bytes ++ rest)) (home : Option Place)
    (size cursor : Nat) :
    Within (Answered asked (14 * f.bytes.length)) (round home size cursor f rest) := by
  refine Within.free_bind (answered_of_silent (silent_emit rfl)) fun _ => ?_
  unfold handFrame
  split
  · exact (answered_of_silent (silent_emit rfl)).more (Nat.zero_le _)
  · next hwhole =>
    have hnone : f.info.fragmentInfo = none := by simpa using hwhole
    exact (answered_processFrame (b := f.view home cursor rest) fun payload =>
      hasked.head hnone).more f.replyLimit_le

end Covers

/-- **What the loop sends is at most fourteen times as long as what it has in front of it.** -/
theorem answered_frameLoop : ∀ (fuel : Nat) (b : BinaryBuffer) (p r : Bytes), asked.Covers r →
    Within (Answered asked (14 * r.length)) (frameLoop fuel (b.between p r))
  | 0, _, _, _, _ => (free_throw _).more (Nat.zero_le _)
  | fuel + 1, b, p, r, hasked => by
    intro w
    cases loopFront b p r with
    | finished hshort =>
      rw [frameLoop_end hshort]
      exact IsGraded.mono (Nat.zero_le _) (IsGraded.refl w)
    | unread hlong hread =>
      rw [after_of_error (run_frameLoop_unread fuel w hlong hread)]
      exact IsGraded.mono (Nat.zero_le _) (IsGraded.refl w)
    | overrun hreads hlong hover =>
      rw [after_of_error (run_frameLoop_overrun fuel b p hreads hlong hover w)]
      exact IsGraded.mono (Nat.zero_le _) (silent_emit rfl w).answered
    | frame f rest hlen =>
      rw [frameLoop_round fuel b p hlen, List.length_append, Nat.mul_add]
      exact Within.bind_add (answered_round hasked _ _ _)
        (fun _ => answered_frameLoop fuel b _ rest hasked.tail) w

/-! ## Datagrams -/

/--
A payload that the client may process for a datagram with `rest` behind its header. What has been
stored is read again when its turn has come, and only its length is sure.
-/
inductive RakroServerClient.Processes (client : RakroServerClient) (rest : Bytes) : Bytes → Prop
  | frame {fs : List ParsedFrame} {f : ParsedFrame} {tail payload : Bytes} :
      rest = fs.flatMap ParsedFrame.bytes ++ f.bytes ++ tail → f.info.fragmentInfo = none →
      f.info.Shows f.body payload → client.Processes rest payload
  | stored {key : OrderKey} {packet : PacketInformation} {payload : Bytes} :
      client.outOfOrderPacketBuffer.lookup key = some packet →
      payload.length = packet.rawData.remainingSlice.length → client.Processes rest payload

/-- What the client is asked by a datagram in its window. -/
def RakroServerClient.inquiry (client : RakroServerClient) (rest : Bytes) : Inquiry where
  address := client.address
  number := client.nextExpectedSeq.incr
  payloads := client.Processes rest

/-- What a client may be sent for a datagram: the answers to a frame set that is not stale. -/
inductive RakroServerClient.Replies (client : RakroServerClient) (bytes out : Bytes) : Prop
  | frameSet {id : UInt8} {seq rest : Bytes} : IsFrameSet { bytes } id seq rest →
      ¬ IsFrameSet.number seq < client.nextExpectedSeq → (client.inquiry rest).Allows out →
      client.Replies bytes out

/-- When the last packet has come is no matter. -/
theorem RakroServerClient.Replies.of_lastPacket {client : RakroServerClient} {time : UInt64}
    {bytes out : Bytes} (h : ({ client with lastPacket := time } : RakroServerClient).Replies bytes out) :
    client.Replies bytes out := by
  obtain ⟨hset, hnew, payload, hprocesses, hanswer⟩ := h
  refine .frameSet hset hnew ⟨payload, ?_, hanswer⟩
  cases hprocesses with
  | frame hrest hwhole hshows => exact .frame hrest hwhole hshows
  | stored hlookup hlen => exact .stored hlookup hlen

/-- Behind the header of a datagram in its window, the client is asked what it has to answer. -/
theorem answered_frameSet {b : BinaryBuffer} {id : UInt8} {seq rest : Bytes}
    (hset : IsFrameSet b id seq rest) (hnew : ¬ IsFrameSet.number seq < w.this.nextExpectedSeq) :
    Answered (w.this.inquiry rest) (14 * rest.length) (w.advanced (IsFrameSet.number seq))
      (after (processPacket b) w) := by
  have hcovers : (w.this.inquiry rest).Covers rest := fun fs f tail hrest hwhole payload =>
    .frame hrest hwhole
  rw [hset.after_processPacket, after_processFrames hnew]
  exact IsGraded.trans (answered_frameLoop _ b (id :: seq) rest hcovers _)
    (silent_release b _).answered

/-- Without a frame set in the window, nothing is sent. -/
theorem settles_of_not_fresh {b : BinaryBuffer} (hstart : b.index = 0)
    (h : ∀ id seq rest, IsFrameSet b id seq rest →
      IsFrameSet.number seq < w.this.nextExpectedSeq) : Settles w (after (processPacket b) w) := by
  by_cases hset : ∃ id seq rest, IsFrameSet b id seq rest
  · obtain ⟨id, seq, rest, hset⟩ := hset
    rw [hset.after_processPacket, after_processFrames_stale (h id seq rest hset)]
    exact settles_release b w
  · exact processPacket_settles hstart (fun id seq rest hb => hset ⟨id, seq, rest, hb⟩) w

/-- A text is no datagram. -/
theorem World.datagrams_of_isPrint (h : Logs Event.isPrint w w') : w'.datagrams = w.datagrams :=
  h.filterMap_eq fun event hevent => by cases event <;> first | rfl | cases hevent

/--
**A client sends only what a datagram asks for, at most fourteen times as many bytes.** Its session
stays as it is.
-/
theorem answering_processPacket {b : BinaryBuffer} (hstart : b.index = 0) (w : World) :
    (after (processPacket b) w).this.session = w.this.session ∧
      ∃ new, Answering (w.this.Replies b.bytes) w.this.address (14 * b.bytes.length) w
        (after (processPacket b) w) new := by
  by_cases hnew : ∃ id seq rest, IsFrameSet b id seq rest ∧
      ¬ IsFrameSet.number seq < w.this.nextExpectedSeq
  · obtain ⟨id, seq, rest, hset, hnew⟩ := hnew
    have hmeets : (w.this.inquiry rest).Meets (w.advanced (IsFrameSet.number seq)).this :=
      ⟨rfl, rfl, fun key packet hlookup payload hlen => .stored hlookup hlen⟩
    obtain ⟨-, hsession, new, hanswering⟩ := answered_frameSet hset hnew hmeets
    have hlen : rest.length ≤ b.bytes.length := by
      rw [hset.bytes, List.length_append]
      omega
    have hset' : IsFrameSet { bytes := b.bytes } id seq rest :=
      ⟨hset.bytes, rfl, hset.id, hset.length_seq⟩
    have hmono : Answering (w.this.Replies b.bytes) w.this.address _ _ _ new :=
      hanswering.mono (fun out hout => .frameSet hset' hnew hout) (Nat.mul_le_mul_left 14 hlen)
    exact ⟨hsession, new, hmono.datagrams, hmono.answers, hmono.filed, hmono.paid⟩
  · have hsettles := settles_of_not_fresh (w := w) hstart fun id seq rest hset => by
      by_contra hnot
      exact hnew ⟨id, seq, rest, hset, hnot⟩
    refine ⟨by rw [hsettles.this]; rfl, [], ?_⟩
    refine answering_nothing (World.datagrams_of_isPrint hsettles.trace) hsettles.entries ?_
    have howed : (after (processPacket b) w).this.owed = w.this.owed := by
      rw [hsettles.this]
      rfl
    rw [howed]
    exact Nat.le_add_left _ _

end Rakro
