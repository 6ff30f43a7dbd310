import Rakro.Server.ServerClient

/-!
# What the handling of a message may touch

A reply changes the pool, the clock and the identity of the client, and it may file a datagram. It
changes nothing of what decides on the next frame or the next datagram, and to the trace it only adds
sends, prints and debug calls.

* `Answers` — the bound for `process_data` behind its own entry of the trace
* `Settles` — the bound for `process_packet` and a datagram that is no frame set
* `KeepsWindow` — the bound for `process_frame` behind its own entry of the trace

All of them hold however the method ends.
-/

namespace Rakro

open Infra

/-! ## What a method enters in the trace -/

namespace Event

/-- A datagram made ready, a send, a print or a debug call. -/
def isOutput : Event → Bool
  | .ready .. | .sent .. | .printed .. | .debug .. => true
  | _ => false

/-- A print. -/
def isPrint : Event → Bool
  | .printed _ => true
  | _ => false

/-- Anything that happens inside of a call of `process_frame`. -/
def isInner : Event → Bool
  | .frame .. | .slice .. => false
  | _ => true

theorem isInner_of_isOutput {event : Event} (h : event.isOutput) : event.isInner := by
  cases event <;> first | rfl | cases h

end Event

/-- `w'` has the trace of `w` and behind it only events of the kind `kind`. -/
def Logs (kind : Event → Bool) (w w' : World) : Prop :=
  ∃ events, w'.host.trace = w.host.trace ++ events ∧ ∀ event ∈ events, kind event

theorem Logs.refl (kind : Event → Bool) (w : World) : Logs kind w w :=
  ⟨[], by simp, by simp⟩

theorem Logs.trans {kind : Event → Bool} {w w' w'' : World} (h : Logs kind w w')
    (h' : Logs kind w' w'') : Logs kind w w'' := by
  obtain ⟨es, he, hk⟩ := h
  obtain ⟨es', he', hk'⟩ := h'
  refine ⟨es ++ es', by rw [he', he, List.append_assoc], ?_⟩
  intro event hevent
  rcases List.mem_append.mp hevent with hm | hm
  · exact hk event hm
  · exact hk' event hm

theorem Logs.mono {kind kind' : Event → Bool} (hkind : ∀ event, kind event → kind' event)
    {w w' : World} (h : Logs kind w w') : Logs kind' w w' := by
  obtain ⟨es, he, hk⟩ := h
  exact ⟨es, he, fun event hm => hkind event (hk event hm)⟩

/-- What a projection of the trace does not see leaves it as it was. -/
theorem Logs.filterMap_eq {β : Type} {kind : Event → Bool} {w w' : World} (h : Logs kind w w')
    {f : Event → Option β} (hf : ∀ event, kind event → f event = none) :
    w'.host.trace.filterMap f = w.host.trace.filterMap f := by
  obtain ⟨events, htrace, hkind⟩ := h
  have hnil : events.filterMap f = [] :=
    List.filterMap_eq_nil_iff.mpr fun event hevent => hf event (hkind event hevent)
  rw [htrace, List.filterMap_append, hnil, List.append_nil]

/-! ### The datagrams that leave -/

/-- A datagram made ready: the number in its header and the index it may be filed under. -/
structure Outgoing where
  number : UInt24
  rely : FrameReliability
  index : UInt24
  deriving DecidableEq, Repr

/-- What a datagram that is made ready says of itself. -/
def Event.outgoing? : Event → Option Outgoing
  | .ready header rely index => some ⟨header.sequenceNumber, rely, index⟩
  | _ => none

/-- The datagrams made ready, oldest first. -/
def World.outgoing (w : World) : List Outgoing := w.host.trace.filterMap Event.outgoing?

@[simp] theorem World.outgoing_log (w : World) (event : Event) :
    (w.log event).outgoing = w.outgoing ++ event.outgoing?.toList := by
  unfold outgoing log
  rw [List.filterMap_append]
  cases event <;> rfl

/-- What is outgoing can be seen in the trace. -/
theorem World.outgoing_eq {w w' : World} (h : w'.host.trace = w.host.trace) :
    w'.outgoing = w.outgoing := congrArg (List.filterMap Event.outgoing?) h

/-- From the index `k` to the index `k'`, the reliable datagrams are counted. -/
def Indexes : UInt24 → List Outgoing → UInt24 → Prop
  | k, [], k' => k' = k
  | k, sent :: rest, k' =>
    sent.index = k ∧ Indexes (if isReliable sent.rely then k.incr else k) rest k'

theorem Indexes.append {k' k'' : UInt24} {more : List Outgoing} (h' : Indexes k' more k'') :
    ∀ {k : UInt24} {new : List Outgoing}, Indexes k new k' → Indexes k (new ++ more) k''
  | _, [], rfl => h'
  | _, _ :: _, ⟨hindex, hrest⟩ => ⟨hindex, h'.append hrest⟩

/--
From `w` to `w'`, the datagrams `new` are made ready. They all carry the number `seq`, and each entry
of the acknowledgement buffer that `w` has not is one of them, under its own index.
-/
structure Sending (seq : UInt24) (w w' : World) (new : List Outgoing) : Prop where
  outgoing : w'.outgoing = w.outgoing ++ new
  number : ∀ sent ∈ new, sent.number = seq
  indexes : Indexes w.this.sendingRelyFrameIndex new w'.this.sendingRelyFrameIndex
  filed : ∀ key ∈ w'.this.ackBuffer, key ∈ w.this.ackBuffer ∨
    ∃ sent ∈ new, isReliable sent.rely ∧ sent.index = key

/-- From `w` to `w'`, every datagram carries the number `seq`. -/
def Sends (seq : UInt24) (w w' : World) : Prop := ∃ new, Sending seq w w' new

/-- Without a datagram made ready, no entry may come. -/
theorem Sends.silent {seq : UInt24} {w w' : World} (hout : w'.outgoing = w.outgoing)
    (hindex : w'.this.sendingRelyFrameIndex = w.this.sendingRelyFrameIndex)
    (hkeys : ∀ key ∈ w'.this.ackBuffer, key ∈ w.this.ackBuffer) : Sends seq w w' :=
  ⟨[], by rw [hout, List.append_nil], by simp, hindex, fun key h => .inl (hkeys key h)⟩

theorem Sends.refl (seq : UInt24) (w : World) : Sends seq w w := .silent rfl rfl fun _ h => h

theorem Sends.trans {seq : UInt24} {w w' w'' : World} (h : Sends seq w w')
    (h' : Sends seq w' w'') : Sends seq w w'' := by
  obtain ⟨new, h⟩ := h
  obtain ⟨more, h'⟩ := h'
  refine ⟨new ++ more, by rw [h'.outgoing, h.outgoing, List.append_assoc], ?_,
    h'.indexes.append h.indexes, fun key hkey => ?_⟩
  · intro sent hsent
    rcases List.mem_append.mp hsent with hm | hm
    · exact h.number sent hm
    · exact h'.number sent hm
  · rcases h'.filed key hkey with hkey | ⟨sent, hm, hsent⟩
    · rcases h.filed key hkey with hkey | ⟨sent, hm, hsent⟩
      · exact .inl hkey
      · exact .inr ⟨sent, List.mem_append_left _ hm, hsent⟩
    · exact .inr ⟨sent, List.mem_append_right _ hm, hsent⟩

/-! ### The clock -/

/-- The readings of `clock'` are those of `clock` behind the first few. -/
def ReadsOn (clock clock' : Clock) : Prop := ∃ k, ∀ n, clock' n = clock (n + k)

theorem ReadsOn.refl (clock : Clock) : ReadsOn clock clock := ⟨0, fun _ => rfl⟩

/-- One reading is taken. -/
theorem ReadsOn.tick (clock : Clock) : ReadsOn clock fun n => clock (n + 1) := ⟨1, fun _ => rfl⟩

theorem ReadsOn.trans {clock clock' clock'' : Clock} (h : ReadsOn clock clock')
    (h' : ReadsOn clock' clock'') : ReadsOn clock clock'' := by
  obtain ⟨k, hk⟩ := h
  obtain ⟨k', hk'⟩ := h'
  refine ⟨k' + k, fun n => ?_⟩
  rw [hk', hk, Nat.add_assoc]

/-! ### The bounds -/

/-- The counters of datagrams stay, and no frame is handed on. -/
structure KeepsWindow (w w' : World) : Prop where
  nextExpectedSeq : w'.this.nextExpectedSeq = w.this.nextExpectedSeq
  missingPackets : w'.this.missingPackets = w.this.missingPackets
  trace : Logs Event.isInner w w'

/--
Nothing that a later frame or datagram is judged by changes, and what is filed in the acknowledgement
buffer stays.
-/
structure Answers (w w' : World) : Prop where
  nextExpectedSeq : w'.this.nextExpectedSeq = w.this.nextExpectedSeq
  missingPackets : w'.this.missingPackets = w.this.missingPackets
  ordered : w'.this.orderedBufferNextPackets = w.this.orderedBufferNextPackets
  stored : w'.this.outOfOrderPacketBuffer = w.this.outOfOrderPacketBuffer
  sequenced : w'.this.sequencedPacketsNextPacket = w.this.sequencedPacketsNextPacket
  debugger : w'.this.debugger = w.this.debugger
  ndebug : w'.host.ndebug = w.host.ndebug
  bufferSize : w'.host.company.bufferSize = w.host.company.bufferSize
  lastPacket : w'.this.lastPacket = w.this.lastPacket
  clock : ReadsOn w.host.clock w'.host.clock
  trace : Logs Event.isOutput w w'
  sends : Sends w.this.nextExpectedSeq w w'
  kept : ∀ index b, w.this.ackBuffer.lookup index = some b →
    w'.this.ackBuffer.lookup index = some b

/-- The acknowledgement buffer may lose entries, and nothing else of the client changes. -/
structure Settles (w w' : World) : Prop where
  this : w'.this = { w.this with ackBuffer := w'.this.ackBuffer }
  entries : ∀ index b, w'.this.ackBuffer.lookup index = some b →
    w.this.ackBuffer.lookup index = some b
  ndebug : w'.host.ndebug = w.host.ndebug
  bufferSize : w'.host.company.bufferSize = w.host.company.bufferSize
  clock : w'.host.clock = w.host.clock
  trace : Logs Event.isPrint w w'

instance : IsPreorder World KeepsWindow where
  refl w := ⟨rfl, rfl, .refl _ w⟩
  trans _ _ _ h h' := ⟨h'.1.trans h.1, h'.2.trans h.2, h.3.trans h'.3⟩

instance : IsPreorder World Answers where
  refl w := ⟨rfl, rfl, rfl, rfl, rfl, rfl, rfl, rfl, rfl, .refl _, .refl _ w, .refl _ w,
    fun _ _ h => h⟩
  trans _ _ _ h h' :=
    ⟨h'.1.trans h.1, h'.2.trans h.2, h'.3.trans h.3, h'.4.trans h.4, h'.5.trans h.5,
      h'.6.trans h.6, h'.7.trans h.7, h'.8.trans h.8, h'.9.trans h.9, h.10.trans h'.10,
      h.11.trans h'.11, h.12.trans (h.1 ▸ h'.12), fun _ _ hb => h'.13 _ _ (h.13 _ _ hb)⟩

instance : IsPreorder World Settles where
  refl w := ⟨rfl, fun _ _ h => h, rfl, rfl, rfl, .refl _ w⟩
  trans _ _ _ h h' :=
    ⟨by rw [h'.this, h.this], fun _ _ hb => h.2 _ _ (h'.2 _ _ hb), h'.3.trans h.3,
      h'.4.trans h.4, h'.5.trans h.5, h.6.trans h'.6⟩

/-- An answer leaves the window of sequence numbers alone. -/
theorem Answers.keepsWindow {w w' : World} (h : Answers w w') : KeepsWindow w w' :=
  ⟨h.nextExpectedSeq, h.missingPackets, h.trace.mono fun _ => Event.isInner_of_isOutput⟩

/-- What leaves the client as it is only answers. -/
theorem answers_of_this {w w' : World} (hthis : w'.this = w.this)
    (hndebug : w'.host.ndebug = w.host.ndebug)
    (hsize : w'.host.company.bufferSize = w.host.company.bufferSize)
    (hclock : ReadsOn w.host.clock w'.host.clock) (htrace : Logs Event.isOutput w w')
    (houtgoing : w'.outgoing = w.outgoing) : Answers w w' := by
  have hsends : Sends w.this.nextExpectedSeq w w' :=
    .silent houtgoing (by rw [hthis]) fun _ h => by rwa [hthis] at h
  have hkept : ∀ index b, w.this.ackBuffer.lookup index = some b →
      w'.this.ackBuffer.lookup index = some b := fun _ _ h => by rwa [hthis]
  constructor <;> first | assumption | rw [hthis]

/-- A text is no datagram. -/
theorem World.outgoing_of_isPrint {w w' : World} (h : Logs Event.isPrint w w') :
    w'.outgoing = w.outgoing :=
  h.filterMap_eq fun event hevent => by cases event <;> first | rfl | cases hevent

namespace Settles

variable {w w' : World}

theorem nextExpectedSeq (h : Settles w w') :
    w'.this.nextExpectedSeq = w.this.nextExpectedSeq := by rw [h.this]

theorem stored (h : Settles w w') :
    w'.this.outOfOrderPacketBuffer = w.this.outOfOrderPacketBuffer := by rw [h.this]

/-- A datagram that is no frame set leaves the window of sequence numbers alone. -/
theorem keepsWindow (h : Settles w w') : KeepsWindow w w' where
  nextExpectedSeq := h.nextExpectedSeq
  missingPackets := by rw [h.this]
  trace := h.trace.mono fun event hevent => by cases event <;> first | rfl | cases hevent

/-- No datagram is made ready. -/
theorem sends (h : Settles w w') : Sends w.this.nextExpectedSeq w w' := by
  refine .silent (World.outgoing_of_isPrint h.trace) (by rw [h.this]) fun key hkey => ?_
  obtain ⟨b, hb⟩ := Option.isSome_iff_exists.mp (AList.lookup_isSome.mpr hkey)
  exact AList.lookup_isSome.mp (Option.isSome_of_eq_some (h.entries key b hb))

end Settles

/-! ## The primitives -/

section Primitives

variable {α : Type} {R : World → World → Prop}

/-- A local buffer is no part of the state. -/
theorem within_onBuffer [IsPreorder World R] (b : BinaryBuffer) (method : BufM α) :
    Within R (onBuffer b method) := by
  intro w
  cases h : method.run b with
  | ok a b' => rw [after_of_ok (run_onBuffer_ok h)]; exact refl w
  | error e b' => rw [after_of_error (run_onBuffer_error h)]; exact refl w

/-- A guarded part keeps to what its body and the release keep to. -/
theorem within_guarded [IsPreorder World R] {b : BinaryBuffer} {body : ClientM α}
    (hrelease : Within R (release b)) (h : Within R body) : Within R (guarded b body) := by
  intro w
  cases hb : body.run w with
  | ok a w' =>
    rw [after_of_ok (run_guarded_ok hb), ← after_of_ok hb]
    exact h w
  | error e w' =>
    rw [after_of_error (run_guarded_error hb), ← after_of_error hb]
    exact IsTrans.trans _ _ _ (h w) (hrelease _)

theorem within_owning [IsPreorder World R] {b : BinaryBuffer} {body : ClientM α}
    (hrelease : Within R (release b)) (h : Within R body) : Within R (owning b body) :=
  Within.bind (within_guarded hrelease h) fun _ => Within.bind hrelease fun _ => Within.pure _

end Primitives

section Answering

variable {α : Type}

/-- The pool may change. -/
theorem within_modifyHost {f : Host → Host} (htrace : ∀ host, (f host).trace = host.trace)
    (hndebug : ∀ host, (f host).ndebug = host.ndebug)
    (hsize : ∀ host, (f host).company.bufferSize = host.company.bufferSize)
    (hclock : ∀ host, (f host).clock = host.clock) : Within Answers (modifyHost f) :=
  fun w => answers_of_this rfl (hndebug _) (hsize _) (hclock w.host ▸ .refl _)
    ⟨[], by rw [List.append_nil]; exact htrace _, by simp⟩ (World.outgoing_eq (htrace _))

theorem within_emit {event : Event} (h : event.isOutput) (hquiet : event.outgoing? = none) :
    Within Answers (emit event) := by
  refine fun w => answers_of_this rfl rfl rfl (.refl _) ⟨[event], rfl, by simpa using h⟩ ?_
  show (w.log event).outgoing = w.outgoing
  rw [World.outgoing_log, hquiet]
  exact List.append_nil _

theorem within_release (b : BinaryBuffer) : Within Answers (release b) :=
  within_modifyHost (fun _ => rfl) (fun _ => rfl)
    (fun host => host.company.destroy_bufferSize _) fun _ => rfl

theorem within_debug (call : DebugCall) : Within Answers (debug call) :=
  Within.bind Within.get fun _ => Within.ite (within_emit rfl rfl) (Within.pure _)

/-- The state with another pool, of buffers of the same size. -/
theorem answers_company {w : World} {company : BufferCompany}
    (hsize : company.bufferSize = w.host.company.bufferSize) :
    Answers w { w with host := { w.host with company := company } } :=
  answers_of_this rfl rfl hsize (.refl _) (.refl _ w) rfl

/-- Writing a buffer back changes the pool only. -/
theorem answers_flushed (w : World) (b : BinaryBuffer) : Answers w (w.flushed b) :=
  answers_company (w.host.company.keep_bufferSize _)

theorem within_rent : Within Answers rent := by
  intro w
  cases h : w.host.company.rent with
  | ok r =>
    rw [after_of_ok (run_rent_ok h)]
    exact answers_company (BufferCompany.rent_eq_ok h).2
  | error e =>
    rw [after_of_error (run_rent_error h)]
    exact refl w

/-- What is written into a send buffer only reaches the pool. -/
theorem within_onSendBuffer (b : BinaryBuffer) (method : BufM α) :
    Within Answers (onSendBuffer b method) := by
  intro w
  cases h : method.run b with
  | ok a b' => rw [after_of_ok (run_onSendBuffer_ok h)]; exact answers_flushed w b'
  | error e b' => rw [after_of_error (run_onSendBuffer_error h)]; exact answers_flushed w b'

theorem within_timeSinceEpoch : Within Answers timeSinceEpoch :=
  fun w => answers_of_this rfl rfl rfl (.tick _) (.refl _ w) rfl

/-! ## Replies -/

/-- A datagram made ready carries the number that is expected next, and the next index. -/
def World.nextOutgoing (w : World) (rely : FrameReliability) : Outgoing where
  number := w.this.nextExpectedSeq
  rely := rely
  index := w.this.sendingRelyFrameIndex

/-- A datagram that is made ready is the next outgoing one. -/
theorem outgoing_readyEvent (w : World) (rely : FrameReliability) :
    (w.log (w.readyEvent rely)).outgoing = w.outgoing ++ [w.nextOutgoing rely] :=
  World.outgoing_log _ _

/-- It is filed, when it is reliable, under the index of its entry in the trace. -/
theorem answers_keepSent (rely : FrameReliability) (sent : BinaryBuffer) (w : World) :
    Answers w (after (keepSent rely sent) (w.log (w.readyEvent rely))) := by
  have hlogs : Logs Event.isOutput w (w.log (w.readyEvent rely)) :=
    ⟨[w.readyEvent rely], rfl, by simp [World.readyEvent, Event.isOutput]⟩
  have hnumber : ∀ sent ∈ [w.nextOutgoing rely], sent.number = w.this.nextExpectedSeq := by
    intro sent hsent
    rw [List.mem_singleton.mp hsent]
    rfl
  have hindexes : Indexes w.this.sendingRelyFrameIndex [w.nextOutgoing rely]
      (if isReliable rely then w.this.sendingRelyFrameIndex.incr
        else w.this.sendingRelyFrameIndex) := ⟨rfl, rfl⟩
  unfold keepSent
  cases hrely : isReliable rely with
  | false =>
    rw [hrely, if_neg Bool.false_ne_true] at hindexes
    refine IsTrans.trans _ _ _ ?_ (within_release sent _)
    exact ⟨rfl, rfl, rfl, rfl, rfl, rfl, rfl, rfl, rfl, .refl _, hlogs,
      ⟨[w.nextOutgoing rely], outgoing_readyEvent w rely, hnumber, hindexes, fun _ h => .inl h⟩,
      fun _ _ h => h⟩
  | true =>
    rw [hrely, if_pos rfl] at hindexes
    unfold insertAckBuffer
    rw [if_pos rfl, after_get_bind, after_bind_ok (run_modifyThis _), after_get_bind]
    split
    · refine IsTrans.trans _ _ _ ?_ (within_release sent _)
      exact ⟨rfl, rfl, rfl, rfl, rfl, rfl, rfl, rfl, rfl, .refl _, hlogs,
        ⟨[w.nextOutgoing rely], outgoing_readyEvent w rely, hnumber, hindexes, fun _ h => .inl h⟩,
        fun _ _ h => h⟩
    · next hnew =>
      refine ⟨rfl, rfl, rfl, rfl, rfl, rfl, rfl, rfl, rfl, .refl _, hlogs,
        ⟨[w.nextOutgoing rely], outgoing_readyEvent w rely, hnumber, hindexes, fun key hkey => ?_⟩,
        fun index b hb => ?_⟩
      · rcases (AList.mem_insert _).mp hkey with rfl | hkey
        · exact .inr ⟨_, List.mem_singleton_self _, hrely, rfl⟩
        · exact .inl hkey
      · -- a datagram under the same number would not have been replaced
        have hne : index ≠ w.this.sendingRelyFrameIndex := by
          rintro rfl
          exact hnew (AList.lookup_isSome.mp (Option.isSome_of_eq_some hb))
        exact (AList.lookup_insert_ne hne).trans hb

/-- Making a datagram ready counts it and files it, if it is reliable. -/
theorem within_readyBuffer (b : BinaryBuffer) (rely : FrameReliability) :
    Within Answers (readyBuffer b rely) := by
  intro w
  unfold readyBuffer
  cases hrent : w.host.company.rent with
  | error e => rw [after_bind_error (run_rent_error hrent)]; exact refl w
  | ok r =>
    rw [after_bind_ok (run_rent_ok hrent)]
    have hrented := answers_company (w := w) (BufferCompany.rent_eq_ok hrent).2
    refine IsTrans.trans _ _ _ hrented ?_
    generalize { w with host := { w.host with company := r.2 } } = rented
    have hheader : makeHeader.run rented = .ok ⟨rented.this.nextExpectedSeq⟩ rented := rfl
    cases hwrite : (writeFramed ⟨rented.this.nextExpectedSeq⟩ (makeInfo rely b)
        b.consumedSlice).run (.ofRented r.1) with
    | error e sent =>
      rw [after_bind_error (run_guarded_error ((run_bind_of_ok hheader).trans
        (run_bind_of_error (run_onSendBuffer_error hwrite))))]
      exact IsTrans.trans _ _ _ (answers_flushed _ sent) (within_release _ _)
    | ok u sent =>
      -- the header is made in the state in which the datagram is filed
      rw [after_bind_ok (run_guarded_ok ((run_bind_of_ok hheader).trans
        ((run_bind_of_ok (run_onSendBuffer_ok hwrite)).trans rfl)))]
      refine IsTrans.trans _ _ _ (answers_flushed _ sent) ?_
      refine IsTrans.trans _ _ _ (answers_keepSent rely sent _) ?_
      exact Within.after_bind (fun _ => Within.pure _) _ _

theorem within_sendTo (bytes : Bytes) : Within Answers (sendTo bytes) :=
  Within.bind Within.get fun _ => Within.bind (within_debug _) fun _ =>
    within_emit rfl rfl

theorem within_acceptConnection (packetInfo : ConnectionRequest) :
    Within Answers (acceptConnection packetInfo) := by
  refine Within.bind within_timeSinceEpoch fun _ => ?_
  refine Within.bind Within.get fun _ => ?_
  refine Within.bind within_rent fun _ => ?_
  refine within_owning (within_release _) ?_
  exact Within.bind (within_onSendBuffer _ _) fun _ =>
    Within.bind (within_readyBuffer _ _) fun _ => within_sendTo _

theorem within_connectionRequest (b : BinaryBuffer) : Within Answers (connectionRequest b) :=
  Within.bind (within_onBuffer _ _) fun _ => Within.bind
    (fun w => ⟨rfl, rfl, rfl, rfl, rfl, rfl, rfl, rfl, rfl, .refl _, .refl _ w,
      .silent rfl rfl fun _ h => h, fun _ _ h => h⟩) fun _ => Within.ite (Within.pure _) (within_acceptConnection _)

theorem within_answerPing (b send : BinaryBuffer) : Within Answers (answerPing b send) := by
  refine Within.ite ?_ (Within.ite ?_ (Within.pure _))
  · refine Within.bind (within_onBuffer _ _) fun _ => ?_
    refine Within.bind within_timeSinceEpoch fun _ => ?_
    refine Within.bind Within.get fun _ => ?_
    refine Within.bind (within_onSendBuffer _ _) fun _ => ?_
    exact Within.pure _
  · exact Within.bind (within_onBuffer _ _) fun _ => Within.bind (within_onSendBuffer _ _) fun _ =>
      Within.pure _

theorem within_unhandled (b : BinaryBuffer) : Within Answers (unhandled b) :=
  Within.bind Within.get fun _ => within_debug _

theorem within_connectedPingPong (b : BinaryBuffer) : Within Answers (connectedPingPong b) := by
  refine Within.bind within_rent fun _ => Within.bind (within_owning (within_release _) ?_)
    fun _ => within_unhandled _
  refine Within.bind (within_answerPing _ _) fun _ => ?_
  refine Within.bind (within_readyBuffer _ _) fun _ => ?_
  refine Within.bind (within_sendTo _) fun _ => ?_
  exact Within.pure _

end Answering

/-! ## `process_data` -/

/-- Whatever the id, a payload is answered and nothing more. -/
theorem within_switchData (packetId : UInt8) (buffer : BinaryBuffer) :
    Within Answers (switchData packetId buffer) := by
  unfold switchData
  split
  · exact within_connectionRequest _
  · exact Within.pure _
  · exact within_connectedPingPong _
  · exact within_unhandled _

/-- A payload is entered in the trace and then only answered. -/
theorem processData_answers (buffer : BinaryBuffer) (w : World) :
    Answers (w.log (.data buffer.remainingSlice)) (after (processData buffer) w) := by
  unfold processData
  rw [after_owning, after_bind_ok (run_emit _)]
  have hbody : Within Answers (debug (.onClientRecv buffer.remainingSlice) >>= fun _ =>
      onBuffer buffer (readNext UInt8) >>= fun r => switchData r.1 r.2) :=
    Within.bind (within_debug _) fun _ => Within.bind (within_onBuffer _ _) fun _ =>
      within_switchData _ _
  exact IsTrans.trans _ _ _ (hbody _) (within_release buffer _)

/-! ## `process_frame` -/

/-- The state without the packet stored under `key`. -/
def World.taken (w : World) (key : OrderKey) : World :=
  { w with this :=
      { w.this with outOfOrderPacketBuffer := w.this.outOfOrderPacketBuffer.erase key } }

/-- The state with a frame stored under the key of its position. -/
def World.inserted (w : World) (b : BinaryBuffer) (info : FrameInfo) (order : OrderInformation) :
    World :=
  { w with this :=
      { w.this with
        outOfOrderPacketBuffer := w.this.outOfOrderPacketBuffer.insert
          (constructOrderKey order.orderChannel order.orderFrameIndex)
          { rawData := b, packetInfo := info } } }

/-- What `process_frame` does to the state one step at a time, storing the frame aside. -/
structure FrameBound (R : World → World → Prop) : Prop where
  answers : ∀ w w', Answers w w' → R w w'
  data : ∀ w payload, R w (w.log (.data payload))
  counters : ∀ (w : World) ordered sequenced,
    R w { w with this :=
      { w.this with
        orderedBufferNextPackets := ordered, sequencedPacketsNextPacket := sequenced } }
  taken : ∀ w key, R w (w.taken key)

section FrameBound

variable {α : Type} {R : World → World → Prop}

/-- What only answers keeps to a frame's bound. -/
theorem FrameBound.within_answers (h : FrameBound R) {m : ClientM α} (hm : Within Answers m) :
    Within R m := hm.mono h.answers

theorem FrameBound.within_setSequenced (h : FrameBound R) (channel : UInt8) (value : UInt32) :
    Within R (setSequenced channel value) := fun w => h.counters w _ _

variable [IsPreorder World R]

theorem within_orderedNext (channel : UInt8) : Within R (orderedNext channel) := by
  refine Within.bind Within.get fun w => ?_
  split
  · exact Within.pure _
  · exact Within.throw _

theorem within_sequencedNext (channel : UInt8) : Within R (sequencedNext channel) := by
  refine Within.bind Within.get fun w => ?_
  split
  · exact Within.pure _
  · exact Within.throw _

theorem not_succeeds_orderedNext {channel : UInt8} (h : ¬ channel.toNat < maxOrderChannels)
    (w : World) : ¬ Succeeds (orderedNext channel) w := by
  unfold orderedNext
  rw [succeeds_get_bind, Vector.getElem?_eq_none (Nat.le_of_not_lt h)]
  exact not_succeeds_throw _ _

theorem within_rakroAssert (condition : Bool) : Within R (rakroAssert condition) :=
  Within.bind Within.get fun _ => Within.ite (Within.pure _) (Within.throw _)

theorem within_alreadyStored (b : BinaryBuffer) (info : FrameInfo) (order : OrderInformation) :
    Within Answers (alreadyStored b info order) := by
  refine Within.bind (within_debug _) fun _ => ?_
  refine Within.bind (within_release _) fun _ => ?_
  refine Within.bind Within.get fun w => ?_
  split
  · exact Within.ite (Within.throw _) (Within.pure _)
  · exact Within.throw _

/-- A payload keeps to a frame's bound. -/
theorem FrameBound.within_processData (h : FrameBound R) (b : BinaryBuffer) :
    Within R (processData b) :=
  fun w => IsTrans.trans _ _ _ (h.data w _) (h.answers _ _ (processData_answers b w))

theorem FrameBound.within_bumpOrdered (h : FrameBound R) (channel : UInt8) :
    Within R (bumpOrdered channel) :=
  Within.bind (within_orderedNext _) fun _ w => h.counters w _ _

/-- The loop over the stored packets keeps to it, by induction on its fuel. -/
theorem FrameBound.within_drain (h : FrameBound R) (channel : UInt8) :
    ∀ (fuel : Nat) (key : OrderKey), Within R (drain channel fuel key)
  | 0, _ => Within.throw _
  | fuel + 1, key => by
    unfold drain
    refine Within.bind Within.get fun w => ?_
    split
    · exact Within.pure _
    · refine Within.bind (fun w => h.taken w key) fun _ => ?_
      refine Within.bind Within.get fun _ => ?_
      refine Within.bind (h.within_processData _) fun _ => ?_
      split
      · exact Within.throw _
      · exact Within.bind (h.within_bumpOrdered _) fun _ => h.within_drain channel fuel _

/-- A sequenced frame keeps to it. -/
theorem FrameBound.within_processSequenced (h : FrameBound R) (b : BinaryBuffer) (info : FrameInfo)
    (index : UInt24) : Within R (processSequenced b info index) := by
  refine Within.bind (h.within_answers (within_debug _)) fun _ =>
    Within.bind (within_rakroAssert _) fun _ => ?_
  split
  · exact Within.throw _
  · refine Within.bind (within_sequencedNext _) fun _ => Within.bind (within_orderedNext _)
      fun _ => Within.ite ?_ ?_
    · exact Within.bind (h.within_setSequenced _ _) fun _ => h.within_processData _
    · exact Within.bind (h.within_answers (within_debug _)) fun _ =>
        h.within_answers (within_release b)

/-- A frame is stored only on a channel that exists. -/
theorem FrameBound.within_processOrdered (h : FrameBound R) {b : BinaryBuffer} {info : FrameInfo}
    {order : OrderInformation} (hstored : order.orderChannel.toNat < maxOrderChannels →
      ∀ w, R w (w.inserted b info order)) : Within R (processOrdered b info order) := by
  by_cases hchannel : order.orderChannel.toNat < maxOrderChannels
  · refine Within.bind (within_orderedNext _) fun _ => Within.ite ?_ (Within.ite ?_ ?_)
    · refine Within.bind (h.within_bumpOrdered _) fun _ => ?_
      refine Within.bind (h.within_processData b) fun _ => ?_
      refine Within.bind Within.get fun _ => ?_
      refine Within.bind (h.within_drain _ _ _) fun _ => ?_
      exact Within.pure _
    · exact Within.bind (h.within_answers (within_release b)) fun _ => Within.pure _
    · refine Within.bind (h.within_setSequenced _ _) fun _ => Within.bind Within.get fun _ =>
        Within.ite ?_ ?_
      · exact Within.bind (h.within_answers (within_alreadyStored b info order)) fun _ =>
          Within.pure _
      · exact Within.bind (fun w => hstored hchannel w) fun _ => Within.pure _
  · intro w
    -- the read of the counter is the end of it
    obtain ⟨e, hrun⟩ := run_of_not_succeeds (not_succeeds_orderedNext hchannel w)
    unfold processOrdered
    rw [after_bind_error hrun]
    exact within_orderedNext _ w

/-- Behind its entry in the trace, `process_frame` stays within such a bound. -/
theorem FrameBound.processFrame (h : FrameBound R) {b : BinaryBuffer} {info : FrameInfo}
    (hstored : ∀ order ∈ info.orderInfo, order.orderChannel.toNat < maxOrderChannels →
      ∀ w, R w (w.inserted b info order)) (w : World) :
    R (w.log (.frame info b.bytes)) (after (processFrame b info) w) := by
  unfold Rakro.processFrame
  rw [after_bind_ok (run_emit _)]
  split
  · exact h.within_processSequenced _ _ _ _
  · refine Within.bind (R := R) ?_ (fun r => ?_) _
    · unfold orderFrame
      split
      · next order horder => exact h.within_processOrdered (hstored order horder)
      · exact Within.pure _
    · split
      · exact h.within_processData _
      · exact Within.pure _

end FrameBound

/-- The counters of datagrams stay. -/
structure SameWindow (w w' : World) : Prop where
  nextExpectedSeq : w'.this.nextExpectedSeq = w.this.nextExpectedSeq
  missingPackets : w'.this.missingPackets = w.this.missingPackets

instance : IsPreorder World SameWindow where
  refl _ := ⟨rfl, rfl⟩
  trans _ _ _ h h' := ⟨h'.1.trans h.1, h'.2.trans h.2⟩

/-- A frame leaves the window of sequence numbers alone. -/
theorem keepsWindow_frameBound : FrameBound KeepsWindow where
  answers _ _ := Answers.keepsWindow
  data _ payload := ⟨rfl, rfl, [.data payload], rfl, by simp [Event.isInner]⟩
  counters w _ _ := ⟨rfl, rfl, .refl _ w⟩
  taken w _ := ⟨rfl, rfl, .refl _ w⟩

/-- A frame is entered in the trace once, and no counter of datagrams moves. -/
theorem processFrame_keepsWindow (b : BinaryBuffer) (info : FrameInfo) (w : World) :
    KeepsWindow (w.log (.frame info b.bytes)) (after (processFrame b info) w) :=
  keepsWindow_frameBound.processFrame (fun _ _ _ w => ⟨rfl, rfl, .refl _ w⟩) w

/-! ## The calls and the body views -/

/-- A body view of the frame loop: `leng` bytes at `cursor` of a datagram of `size` bytes. -/
structure BodySlice where
  cursor : Nat
  leng : Nat
  size : Nat
  deriving DecidableEq, Repr

/-- The call of `process_frame` that the event is, if it is one. -/
def Event.call? : Event → Option (FrameInfo × Bytes)
  | .frame info body => some (info, body)
  | _ => none

/-- The cut of a body that the event is, if it is one. -/
def Event.slice? : Event → Option BodySlice
  | .slice cursor leng size => some ⟨cursor, leng, size⟩
  | _ => none

/-- The calls of `process_frame`, oldest first. -/
def World.calls (w : World) : List (FrameInfo × Bytes) := w.host.trace.filterMap Event.call?

/-- The body views of the frame loop, oldest first. -/
def World.slices (w : World) : List BodySlice := w.host.trace.filterMap Event.slice?

@[simp] theorem World.calls_log (w : World) (event : Event) :
    (w.log event).calls = w.calls ++ event.call?.toList := by
  unfold calls log
  rw [List.filterMap_append]
  cases event <;> rfl

@[simp] theorem World.slices_log (w : World) (event : Event) :
    (w.log event).slices = w.slices ++ event.slice?.toList := by
  unfold slices log
  rw [List.filterMap_append]
  cases event <;> rfl

@[simp] theorem after_emit (event : Event) (w : World) : after (emit event) w = w.log event := rfl

@[simp] theorem calls_release (b : BinaryBuffer) (w : World) :
    (after (release b) w).calls = w.calls := rfl

@[simp] theorem slices_release (b : BinaryBuffer) (w : World) :
    (after (release b) w).slices = w.slices := rfl

/-- Nothing is handed on. -/
theorem KeepsWindow.calls {w w' : World} (h : KeepsWindow w w') : w'.calls = w.calls :=
  h.trace.filterMap_eq fun event hevent => by cases event <;> first | rfl | cases hevent

/-- No view is taken. -/
theorem KeepsWindow.slices {w w' : World} (h : KeepsWindow w w') : w'.slices = w.slices :=
  h.trace.filterMap_eq fun event hevent => by cases event <;> first | rfl | cases hevent

/-- `process_frame` is one call, however it ends. -/
theorem calls_processFrame (b : BinaryBuffer) (info : FrameInfo) (w : World) :
    (after (processFrame b info) w).calls = w.calls ++ [(info, b.bytes)] := by
  rw [(processFrame_keepsWindow b info w).calls, World.calls_log]
  rfl

/-- A frame takes no view of another one. -/
theorem slices_processFrame (b : BinaryBuffer) (info : FrameInfo) (w : World) :
    (after (processFrame b info) w).slices = w.slices := by
  rw [(processFrame_keepsWindow b info w).slices, World.slices_log]
  exact List.append_nil _

end Rakro
