import Rakro.Properties.Availability

/-!
# A connected client is served

Connection requests and pings that a connected client sends in a frame set, each in a frame of its
own, go all the way from the socket to `process_data`, and their answers all the way back, in the
order of the frames. It takes a client in time, a number that is not stale, and a pool that has two
buffers more than there are requests.
-/

namespace Rakro

open Infra BinaryBuffer

/-! ## What is asked for -/

/-- What `process_data` answers. -/
inductive Ask
  | connection (request : ConnectionRequest)
  | ping (ping : ConnectedPing)
  deriving Repr

/-- The payload asks for it. A secure request asks for nothing. -/
inductive Asks : Bytes → Ask → Prop
  | connection {message : Bytes} {request : ConnectionRequest} : Decodes message request →
      request.secure = false →
      Asks (PacketId.connectionRequest.toUnderlying :: message) (.connection request)
  | ping {message : Bytes} {ping : ConnectedPing} : message.length = 8 → Decodes message ping →
      Asks (PacketId.connectedPingPong.toUnderlying :: message) (.ping ping)

/-- The datagram that answers it, under the number and with the time that the server has been up. -/
def Ask.answer (number : UInt24) (address : IPV4Addr) (upTime : UInt64) : Ask → Bytes
  | .connection request => messageDatagram number .reliable
      ({ clientAddress := .fromIpv4 address, clientReqTime := request.requestTimestamp
         serverUpTime := upTime } : ConnectionRequestAccepted).bytes
  | .ping sent => messageDatagram number .unreliable
      ({ timeSinceStart := sent.timeSinceStart, timeSinceServerStart := upTime } :
        ConnectedPong).bytes

/-- The answer of the client's own world, with the clock as it is. -/
def World.answer (w : World) (ask : Ask) : Bytes :=
  ask.answer w.this.nextExpectedSeq w.this.address (w.host.clock 0 - w.this.serverStartTime)

/-! ## What an answer leaves behind -/

/--
From `w` to `w'`, the datagrams `new` are sent, and the clock is read `times` times. What answers are
made of stays, and each of them may wait for its acknowledgement.
-/
structure Serving (times : Nat) (new : List (Bytes × IPV4Addr)) (w w' : World) : Prop where
  number : w'.this.nextExpectedSeq = w.this.nextExpectedSeq
  address : w'.this.address = w.this.address
  serverStartTime : w'.this.serverStartTime = w.this.serverStartTime
  datagrams : w'.datagrams = w.datagrams ++ new
  clock : w'.host.clock = fun n => w.host.clock (n + times)
  parked : w'.this.parked.length ≤ w.this.parked.length + new.length

/-- The part returns, and serves. -/
abbrev Serves {α : Type} (times : Nat) (new : List (Bytes × IPV4Addr)) (m : ClientM α) (w : World) :
    Prop :=
  Returns (Serving times new) m w

section Serving

variable {α β : Type} {w w' w'' : World} {new more : List (Bytes × IPV4Addr)} {times more' : Nat}

theorem Serving.trans (h : Serving times new w w') (h' : Serving more' more w' w'') :
    Serving (times + more') (new ++ more) w w'' where
  number := h'.number.trans h.number
  address := h'.address.trans h.address
  serverStartTime := h'.serverStartTime.trans h.serverStartTime
  datagrams := by rw [h'.datagrams, h.datagrams, List.append_assoc]
  clock := by
    rw [h'.clock, h.clock]
    funext n
    exact congrArg w.host.clock (by omega)
  parked := by
    have hparked := h.parked
    have hparked' := h'.parked
    rw [List.length_append]
    omega

/-- What is silent and reads no clock is nothing to the answers. -/
theorem Silent.serving (h : Silent w w') (hclock : w'.host.clock = w.host.clock) :
    Serving 0 [] w w' where
  number := by rw [h.this]
  address := by rw [h.this]
  serverStartTime := by rw [h.this]
  datagrams := by rw [h.datagrams, List.append_nil]
  clock := hclock
  parked := by rw [h.this]; exact Nat.le_refl _

/-- A step that sends nothing may stand in front of an answer. -/
theorem Serving.behind (h : Serving 0 [] w w') (h' : Serving times new w' w'') :
    Serving times new w w'' := by
  have hboth := h.trans h'
  rwa [Nat.zero_add] at hboth

/-- A step that sends nothing may stand behind an answer. -/
theorem Serving.before (h : Serving times new w w') (h' : Serving 0 [] w' w'') :
    Serving times new w w'' := by
  have hboth := h.trans h'
  rwa [List.append_nil] at hboth

/-- A first part that is silent leaves it to the rest. -/
theorem serves_silent_bind {m : ClientM α} {f : α → ClientM β} {a : α} (hm : Within Silent m)
    (hrun : m.run w = .ok a w') (hclock : w'.host.clock = w.host.clock)
    (h : Serves times new (f a) w') : Serves times new (m >>= f) w :=
  Returns.of_bind hrun h fun _ => ((hm.of_run hrun).serving hclock).behind

theorem serves_pure (a : α) (w : World) : Serves 0 [] (pure a : ClientM α) w :=
  ⟨a, w, rfl, Silent.serving (refl w) rfl⟩

theorem serves_get_bind {f : World → ClientM β} (h : Serves times new (f w) w) :
    Serves times new (get >>= f) w :=
  Returns.of_bind rfl h fun _ h => h

/-- A part that owns its buffer serves what its body does. -/
theorem serves_owning (b : BinaryBuffer) {body : ClientM α} (h : Serves times new body w) :
    Serves times new (owning b body) w := by
  obtain ⟨a, w', hrun, hserving⟩ := h
  exact ⟨a, _, run_owning_ok hrun, hserving.before ((silent_release b w').serving rfl)⟩

theorem clock_debug (call : DebugCall) (w : World) :
    (after (debug call) w).host.clock = w.host.clock := by
  unfold debug
  rw [after_get_bind]
  split <;> rfl

theorem clock_sendTo (out : Bytes) (w : World) :
    (after (sendTo out) w).host.clock = w.host.clock := by
  unfold sendTo
  rw [after_get_bind, after_bind_ok (run_debug _ _)]
  exact clock_debug _ w

/-- The end of the scope stores one datagram at most. -/
theorem parked_keepSent (rely : FrameReliability) (b : BinaryBuffer) (w : World) :
    (after (keepSent rely b) w).this.parked.length ≤ w.this.parked.length + 1 ∧
      (after (keepSent rely b) w).host.clock = w.host.clock := by
  unfold keepSent
  cases isReliable rely with
  | false => exact ⟨Nat.le_succ _, rfl⟩
  | true =>
    unfold insertAckBuffer
    rw [if_pos rfl, after_get_bind, after_bind_ok (run_modifyThis _), after_get_bind]
    split
    · exact ⟨Nat.le_succ _, rfl⟩
    · next hnew =>
      refine ⟨Nat.le_of_eq ?_, rfl⟩
      exact congrArg List.length (holdings_insert_of_notMem hnew)

/-- With a buffer and the room in it, an answer is made ready and sent. -/
theorem serves_ready (rented : RentedBuffer) (enc : Bytes) (rely : FrameReliability)
    (hlen : enc.length ≤ 166)
    (h : 7 + enc.length ≤ w.host.company.bufferSize ∧ w.host.company.CanRent) :
    Serves 0 [(messageDatagram w.this.nextExpectedSeq rely enc, w.this.address)]
      (readyBuffer (written rented enc) rely >>= fun out => sendTo out) w := by
  have hidx : (written rented enc).index ≤ (written rented enc).size := by
    rw [written, between_size, between_index]
    omega
  have hconsumed : (written rented enc).consumed = enc.length := rfl
  rcases readyBuffer_cases rely hidx (by omega) w with ⟨hnot, -⟩ | ⟨rented', company, hrun⟩
  · exact absurd ((succeeds_ready_written rely (by omega)).mpr h) hnot
  · rw [readyBytes_message] at hrun
    generalize messageDatagram w.this.nextExpectedSeq rely enc = out at hrun ⊢
    obtain ⟨hthis, hquiet, -⟩ := ackBuffer_keepSent rely (written rented' out)
      ((w.framed company rented' out).log (w.readyEvent rely))
    obtain ⟨hparked, hclock⟩ := parked_keepSent rely (written rented' out)
      ((w.framed company rented' out).log (w.readyEvent rely))
    have hdatagrams : ((w.framed company rented' out).log (w.readyEvent rely)).datagrams =
        w.datagrams := (World.datagrams_log _ _).trans (List.append_nil _)
    generalize after (keepSent rely (written rented' out))
      ((w.framed company rented' out).log (w.readyEvent rely)) = w₁
      at hrun hthis hquiet hparked hclock
    obtain ⟨u, hsend⟩ := (succeeds_sendTo out w₁).run
    have hsent := sendsOne_sendTo out w₁
    have haddress : w₁.this.address = w.this.address := by rw [hthis]; rfl
    refine ⟨u, _, (run_bind_of_ok hrun).trans hsend, ?_, ?_, ?_, ?_, ?_, ?_⟩
    · rw [hsent.this, hthis]; rfl
    · rw [hsent.this, haddress]
    · rw [hsent.this, hthis]; rfl
    · rw [hsent.datagrams, hquiet, hdatagrams, haddress]
    · rw [clock_sendTo, hclock]; rfl
    · rw [hsent.this]
      exact hparked

end Serving

/-! ## The messages -/

section Messages

variable {w : World} {message : Bytes}

theorem BufferCompany.CanAnswer.mono {company : BufferCompany} {leng leng' : Nat}
    (h : company.CanAnswer leng) (hle : leng' ≤ leng) : company.CanAnswer leng' :=
  ⟨(Nat.add_le_add_left hle 7).trans h.1, h.2⟩

/-- A reading is taken. -/
theorem serving_tick (w : World) : Serving 1 [] w w.tick :=
  ⟨rfl, rfl, rfl, (List.append_nil _).symm, rfl, Nat.le_refl _⟩

theorem serving_flushed (w : World) (b : BinaryBuffer) : Serving 0 [] w (w.flushed b) :=
  Silent.serving ⟨rfl, rfl⟩ rfl

theorem serves_unhandled (b : BinaryBuffer) (w : World) : Serves 0 [] (unhandled b) w :=
  serves_get_bind ⟨_, _, run_debug _ w, (silent_debug _ w).serving (clock_debug _ w)⟩

theorem serves_acceptConnection (request : ConnectionRequest)
    (h : w.host.company.CanAnswer 166) :
    Serves 1 [(w.answer (.connection request), w.this.address)] (acceptConnection request) w := by
  obtain ⟨rented, company, -, -, hrent, -⟩ := h.2
  obtain ⟨hfits, hrest⟩ := (BufferCompany.canAnswer_iff hrent 166).mp h
  obtain ⟨hsize, hcompany⟩ := BufferCompany.rent_eq_ok hrent
  let response : ConnectionRequestAccepted :=
    { clientAddress := .fromIpv4 w.this.address, clientReqTime := request.requestTimestamp
      serverUpTime := w.host.clock 0 - w.this.serverStartTime }
  have hlen : response.bytes.length = 166 := response.length_bytes
  let w₁ : World := { w.tick with host := { w.tick.host with company := company } }
  have hrun : rent.run w.tick = .ok (ofRented rented) w₁ := run_rent_ok hrent
  have hwrite : (onSendBuffer (ofRented rented) (write response)).run w₁ = _ :=
    run_onRented (emits_connectionRequestAccepted response) (by omega) w₁
  unfold acceptConnection
  refine Returns.of_bind (T := Serving 0 _) run_timeSinceEpoch ?_ fun _ => (serving_tick w).trans
  refine serves_get_bind (serves_silent_bind silent_rent hrun rfl (serves_owning _ ?_))
  refine serves_silent_bind (silent_onSendBuffer _ _) hwrite rfl ?_
  -- what has been written into the buffer makes no difference to the rest
  refine serves_ready (w := w₁.flushed _) rented response.bytes .reliable (by omega) ?_
  exact (canSend_flushed w₁ _ _).mpr ⟨by rw [hlen]; exact hfits, hrest⟩

theorem serves_connectionRequest {request : ConnectionRequest} (hdecodes : Decodes message request)
    (hsecure : request.secure = false) (h : w.host.company.CanAnswer 166) (b : BinaryBuffer)
    (p : Bytes) :
    Serves 1 [(w.answer (.connection request), w.this.address)]
      (connectionRequest (b.between p message)) w := by
  obtain ⟨enc, rest, rfl, hread⟩ := hdecodes
  unfold connectionRequest
  refine serves_silent_bind (within_onBuffer _ _) (run_onBuffer_ok (hread b p rest)) rfl ?_
  have hguid : Serving 0 [] w { w with this := { w.this with guid := request.clientGuid } } :=
    ⟨rfl, rfl, rfl, (List.append_nil _).symm, rfl, Nat.le_refl _⟩
  refine Returns.of_bind (T := Serving 1 _) (run_modifyThis _) ?_ fun _ => hguid.behind
  rw [if_neg (by rw [hsecure]; exact Bool.false_ne_true)]
  exact serves_acceptConnection request h

/-- The pong that answers a ping. -/
def World.pong (w : World) (ping : ConnectedPing) : ConnectedPong where
  timeSinceStart := ping.timeSinceStart
  timeSinceServerStart := w.host.clock 0 - w.this.serverStartTime

theorem run_answerPing_ping {ping : ConnectedPing} (hlen : message.length = 8)
    (hdecodes : Decodes message ping) (b : BinaryBuffer) (p : Bytes) (rented : RentedBuffer)
    (room : 16 ≤ rented.memory.length) : ∃ b',
      (answerPing (b.between p message) (ofRented rented)).run w =
        .ok (b', written rented (w.pong ping).bytes)
          (w.tick.flushed (written rented (w.pong ping).bytes)) := by
  obtain ⟨enc, rest, rfl, hread⟩ := hdecodes
  unfold answerPing
  rw [if_pos (by rw [between_remaining, hlen]), run_bind_of_ok (run_onBuffer_ok (hread b p rest))]
  dsimp only
  rw [run_bind_of_ok run_timeSinceEpoch, run_get_bind]
  exact ⟨_, run_bind_of_ok (run_onRented (emits_connectedPong (w.pong ping))
    (by rw [ConnectedPong.length_bytes]; exact room) w.tick)⟩

theorem serves_connectedPingPong {ping : ConnectedPing} (hlen : message.length = 8)
    (hdecodes : Decodes message ping) (h : w.host.company.CanAnswer 16) (b : BinaryBuffer)
    (p : Bytes) :
    Serves 1 [(w.answer (.ping ping), w.this.address)] (connectedPingPong (b.between p message))
      w := by
  obtain ⟨rented, company, -, -, hrent, -⟩ := h.2
  obtain ⟨hfits, hrest⟩ := (BufferCompany.canAnswer_iff hrent 16).mp h
  obtain ⟨hsize, hcompany⟩ := BufferCompany.rent_eq_ok hrent
  have hlength : (w.pong ping).bytes.length = 16 := ConnectedPong.length_bytes _
  let w₁ : World := { w with host := { w.host with company := company } }
  have hrun : rent.run w = .ok (ofRented rented) w₁ := run_rent_ok hrent
  obtain ⟨b', hanswer⟩ := run_answerPing_ping (w := w₁) hlen hdecodes b p rented (by omega)
  unfold connectedPingPong
  refine serves_silent_bind silent_rent hrun rfl (Returns.bind (serves_owning _ ?_)
    (fun rest w _ => serves_unhandled rest w) fun _ _ => Serving.before)
  refine Returns.of_bind (T := Serving 0 _) hanswer ?_ fun _ =>
    ((serving_tick w₁).before (serving_flushed _ _)).trans
  have hready := serves_ready (w := w₁.tick.flushed (written rented (w.pong ping).bytes)) rented
    (w.pong ping).bytes .unreliable (by omega)
    ((canSend_flushed w₁.tick _ _).mpr ⟨by rw [hlength]; exact hfits, hrest⟩)
  have hback := Returns.bind hready (fun _ w _ => serves_pure b' w) fun _ _ => Serving.before
  rw [bind_assoc] at hback
  exact hback

theorem serves_switchData {id : UInt8} {ask : Ask} (hasks : Asks (id :: message) ask)
    (h : w.host.company.CanAnswer 166) (b : BinaryBuffer) (p : Bytes) :
    Serves 1 [(w.answer ask, w.this.address)] (switchData id (b.between p message)) w := by
  cases hasks with
  | connection hdecodes hsecure => exact serves_connectionRequest hdecodes hsecure h b p
  | ping hlen hdecodes => exact serves_connectedPingPong hlen hdecodes (h.mono (by decide)) b p

theorem clock_received (w : World) (payload : Bytes) :
    (w.received payload).host.clock = w.host.clock := clock_debug _ _

/-- **A payload that asks for something is answered.** -/
theorem serves_processData {payload : Bytes} {ask : Ask} (hasks : Asks payload ask)
    (h : w.host.company.CanAnswer 166) (b : BinaryBuffer) (p : Bytes) :
    Serves 1 [(w.answer ask, w.this.address)] (processData (b.between p payload)) w := by
  obtain ⟨id, message, rfl⟩ : ∃ id message, payload = id :: message := by
    cases hasks <;> exact ⟨_, _, rfl⟩
  have hreceived := (silent_received w (id :: message)).serving (clock_received w _)
  have hanswer : (w.received (id :: message)).answer ask = w.answer ask := by
    unfold World.answer
    rw [(silent_received w _).this, clock_received]
  unfold processData
  rw [between_remainingSlice]
  refine serves_owning _ (Returns.congr (T := Serving 1 _) ((run_bind_of_ok (run_emit _)).trans
    ((run_bind_of_ok (run_debug _ _)).trans
      (run_bind_of_ok (run_onBuffer_ok (consumes_uint8 id b p message))))) ?_ fun _ =>
        hreceived.behind)
  rw [← hanswer, ← hreceived.address]
  refine serves_switchData hasks ?_ b (p ++ [id])
  rwa [← received_company w (id :: message)] at h

end Messages

/-! ## The frames -/

/-- The frame is neither a fragment nor in a channel, and its body asks for something. -/
structure ParsedFrame.AsksFor (f : ParsedFrame) (ask : Ask) : Prop where
  unfragmented : f.info.fragmentInfo = none
  unsequenced : f.info.sequenceFrameIndex = none
  unordered : f.info.orderInfo = none
  asks : Asks f.body ask

/-- The answers, each with a reading of the clock of its own. -/
def World.answers (w : World) (asks : List Ask) : List (Bytes × IPV4Addr) :=
  asks.mapIdx fun i ask => (ask.answer w.this.nextExpectedSeq w.this.address
    (w.host.clock i - w.this.serverStartTime), w.this.address)

section Frames

variable {config : ServerConfig} {elsewhere : List RentedBuffer} {scope : List BufferId}
  {w : World} {f : ParsedFrame} {ask : Ask} {fs : List ParsedFrame} {asks : List Ask}

theorem serves_round (h : f.AsksFor ask) (hpool : w.host.company.CanAnswer 166)
    (home : Option Place) (size cursor : Nat) (rest : Bytes) :
    Serves 1 [(w.answer ask, w.this.address)] (round home size cursor f rest) w := by
  have hlog : ∀ (w : World) (event : Event), event.datagram? = none →
      Serving 0 [] w (w.log event) := fun w event hnone => (silent_emit hnone w).serving rfl
  refine Returns.of_bind (T := Serving 1 _) (run_emit _) ?_ fun _ => (hlog w _ rfl).behind
  unfold handFrame processFrame orderFrame
  rw [if_neg (by rw [h.unfragmented]; exact Bool.false_ne_true)]
  refine Returns.of_bind (T := Serving 1 _) (run_emit _) ?_ fun _ => (hlog _ _ rfl).behind
  rw [h.unsequenced, h.unordered]
  have hview : (f.view home cursor rest).between [] f.body = f.view home cursor rest :=
    (eq_between_start rfl rfl).symm
  have hdata := serves_processData h.asks (w := (w.log (.slice (cursor + f.header.length)
    f.body.length size)).log (.frame f.info f.body)) hpool (f.view home cursor rest) []
  rw [hview] at hdata
  exact hdata

/-- With two buffers left, an answer can be given. -/
theorem canAnswer_of_pooled (hsize : 173 ≤ config.rentedBufferSize)
    (h : w.Pooled config elsewhere scope)
    (hroom : (w.this.parked ++ elsewhere).length + scope.length + 1 < config.capacity) :
    w.host.company.CanAnswer 166 := by
  obtain ⟨rented, company, hrent⟩ := h.backs.rent_returns (by omega)
  obtain ⟨buffer, -, hbacks⟩ := h.backs.rent hrent
  obtain ⟨rented', company', hrent'⟩ := hbacks.rent_returns (by rw [List.length_cons]; omega)
  refine ⟨?_, rented, company, rented', company', hrent, hrent'⟩
  rw [h.backs.configured.bufferSize]
  exact hsize

theorem keepsPooled_round (hsize : 1 ≤ config.rentedBufferSize) (home : Option Place)
    (size cursor : Nat) (f : ParsedFrame) (rest : Bytes) :
    KeepsPooled config elsewhere scope (round home size cursor f rest) :=
  Yields.bind (KeepsPooled.of_same (same_emit _)) fun _ => Yields.ite
    (fun _ => KeepsPooled.of_same (same_emit _)) fun _ => keepsPooled_processFrame hsize rfl f.info

/-- **Frames that ask for something are answered one after the other.** -/
theorem serves_rounds (hsize : 173 ≤ config.rentedBufferSize) (home : Option Place) (size : Nat)
    (tail : Bytes) (h : List.Forall₂ ParsedFrame.AsksFor fs asks) : ∀ (cursor : Nat) (w : World),
    w.Pooled config elsewhere scope →
    (w.this.parked ++ elsewhere).length + scope.length + asks.length + 1 ≤ config.capacity →
    Serves asks.length (w.answers asks) (rounds home size cursor fs tail) w := by
  induction h with
  | nil => exact fun _ w _ _ => serves_pure _ w
  | @cons f ask fs asks hf _ ih =>
    intro cursor w hpool hroom
    rw [List.length_cons] at hroom
    obtain ⟨u, w₁, hrun, hserving⟩ :=
      serves_round hf (canAnswer_of_pooled hsize hpool (by omega)) home size cursor
        (fs.flatMap ParsedFrame.bytes ++ tail)
    have hpool₁ := keepsPooled_round (by omega) _ _ _ _ _ _ _ _ hpool hrun
    have hparked := hserving.parked
    rw [List.length_append] at hroom
    rw [List.length_singleton] at hparked
    refine Returns.of_bind hrun (ih (cursor + f.bytes.length) w₁ hpool₁ ?_) fun w₂ hrest => ?_
    · rw [List.length_append]
      omega
    · -- the others are answered with the readings behind the first one
      have hanswers : w₁.answers asks = asks.mapIdx fun i ask =>
          (ask.answer w.this.nextExpectedSeq w.this.address
            (w.host.clock (i + 1) - w.this.serverStartTime), w.this.address) := by
        unfold World.answers
        rw [hserving.number, hserving.address, hserving.serverStartTime, hserving.clock]
      rw [List.length_cons, Nat.add_comm, World.answers, List.mapIdx_cons]
      rw [hanswers] at hrest
      exact hserving.trans hrest

/-- A message that asks for something is not short. -/
theorem Asks.nine_le {payload : Bytes} (h : Asks payload ask) : 9 ≤ payload.length := by
  cases h with
  | connection hdecodes _ =>
    obtain ⟨enc, rest, rfl, hread⟩ := hdecodes
    obtain ⟨enc', rest', henc, -, -, hlong⟩ := scans_connectionRequest _ _ _ _ _ (hread {} [] rest)
    rw [List.length_cons, henc, List.length_append]
    omega
  | ping hlen _ => rw [List.length_cons, hlen]

/-- A frame that asks is long enough for the loop to go on. -/
theorem ParsedFrame.AsksFor.four_lt (h : f.AsksFor ask) : 4 < f.bytes.length := by
  have hbody := h.asks.nine_le
  rw [f.length_bytes]
  omega

end Frames

/-! ## The datagram -/

theorem outputs_owning {α : Type} {new : List (Bytes × IPV4Addr)} {w : World} (b : BinaryBuffer)
    {body : ClientM α} (h : Outputs World.datagrams new body w) :
    Outputs World.datagrams new (owning b body) w := by
  obtain ⟨a, w', hrun, hsent⟩ := h
  exact ⟨a, _, run_owning_ok hrun, (silent_release b w').datagrams.trans hsent⟩

section Datagram

variable {config : ServerConfig} {elsewhere : List RentedBuffer} {scope : List BufferId}
  {b : BinaryBuffer} {id : UInt8} {seq tail bytes : Bytes} {address : IPV4Addr}
  {fs : List ParsedFrame} {asks : List Ask}

/-- A frame set that is not stale is answered under the number behind the expected one. -/
theorem outputs_processPacket {w : World} (hsize : 173 ≤ config.rentedBufferSize)
    (hset : IsFrameSet b id seq (fs.flatMap ParsedFrame.bytes ++ tail))
    (hstale : ¬ IsFrameSet.number seq < w.this.nextExpectedSeq) (htail : tail.length ≤ 4)
    (hasks : List.Forall₂ ParsedFrame.AsksFor fs asks) (hpool : w.Pooled config elsewhere scope)
    (hroom : (w.this.parked ++ elsewhere).length + scope.length + asks.length + 1 ≤
      config.capacity) :
    Outputs World.datagrams ((w.advanced (IsFrameSet.number seq)).answers asks)
      (processPacket b) w := by
  have hlong : ∀ f ∈ fs, 4 < f.bytes.length :=
    ((List.forall₂_and_left _ _).mp (hasks.imp fun _ _ hf => ⟨hf.four_lt, hf⟩)).1
  have hlast : ∀ f ∈ fs.getLast?, 4 < f.bytes.length + tail.length := fun f hf =>
    (hlong f (List.mem_of_getLast? hf)).trans_le (Nat.le_add_right _ _)
  rw [hset.processPacket_eq]
  refine outputs_owning b (Returns.congr (hset.run_rounds_end hstale hlast htail)
    (serves_rounds hsize b.home b.size tail hasks 4 _ (hpool.of_same ⟨rfl, rfl, rfl⟩) hroom)
    fun _ hserving => hserving.datagrams)

/-- The answers of a client whose datagram is routed to it: routing has read the clock once. -/
def RakroServerClient.answers (client : RakroServerClient) (clock : Clock) (asks : List Ask) :
    List (Bytes × IPV4Addr) :=
  asks.mapIdx fun i ask => (ask.answer client.nextExpectedSeq.incr client.address
    (clock (i + 1) - client.serverStartTime), client.address)

/-- The others keep what they have while the client answers. -/
theorem outputs_route {w : ServerWorld} {client : RakroServerClient}
    (hsize : 173 ≤ config.rentedBufferSize)
    (hclient : w.this.router.connectedClients.lookup address = some client)
    (htime : ¬ w.this.router.timeout < w.host.clock 0 - client.lastPacket)
    (hset : IsFrameSet b id seq (fs.flatMap ParsedFrame.bytes ++ tail))
    (hstale : ¬ IsFrameSet.number seq < client.nextExpectedSeq) (htail : tail.length ≤ 4)
    (hasks : List.Forall₂ ParsedFrame.AsksFor fs asks) (hpool : w.Pooled config scope)
    (hroom : w.this.router.parked.length + scope.length + asks.length + 1 ≤ config.capacity) :
    Outputs ServerWorld.datagrams (client.answers w.host.clock asks) (onRouter (route address b))
      w := by
  have hparked : w.this.router.parked.length = _ := (holdings_perm hclient).length_eq
  rw [hparked] at hroom
  obtain ⟨u, w', hrun, hsent⟩ := outputs_processPacket (w := w.routing.entered client) hsize hset
    hstale htail hasks (RouterWorld.Pooled.entered hpool hclient) hroom
  have hroute : (route address b).run w.routing = _ := run_route_known hclient htime b
  rw [hrun] at hroute
  exact ⟨u, _, run_onRouter_ok hroute, hsent⟩

/-- The datagram of a connected client goes past the handshake. -/
theorem outputs_dispatch {w : ServerWorld} {body : Bytes} {size : Nat}
    {new : List (Bytes × IPV4Addr)} (hb : Received b (id :: body) size) (hid : id ∉ trivalPackets)
    (h : Outputs ServerWorld.datagrams new (onRouter (route address b)) w) :
    Outputs ServerWorld.datagrams new (dispatch b address) w := by
  unfold dispatch
  refine .of_bind hb.run_isTrivialPacket rfl ?_
  rw [if_neg (by simpa using hid)]
  exact h

/-- A frame set is no packet that anyone may send. -/
theorem IsFrameSetId.notMem_trivalPackets (h : IsFrameSetId id) : id ∉ trivalPackets := by
  intro hmem
  have hlow : ∀ id ∈ trivalPackets, ¬ (0x80 : UInt8) ≤ id := by decide +kernel
  exact hlow id hmem h.1

/--
**What a connected client asks for in a frame set is answered, in the order of its frames.** The
answers carry the number behind that which the client expected, and each of them takes the next
reading of the clock.
-/
theorem served_of_reaches {start w : ServerWorld} {steps : List ServerStep}
    {client : RakroServerClient} (hpositive : config.Positive) (hstart : start.StartedWith config)
    (hreach : Reaches ServerStep.run start steps w)
    (hclient : w.this.router.connectedClients.lookup address = some client)
    (htime : ¬ w.this.router.timeout < w.host.clock 0 - client.lastPacket)
    (hset : IsFrameSet { bytes } id seq (fs.flatMap ParsedFrame.bytes ++ tail))
    (hfits : bytes.length ≤ config.rentedBufferSize) (htail : tail.length ≤ 4)
    (hstale : ¬ IsFrameSet.number seq < client.nextExpectedSeq)
    (hasks : List.Forall₂ ParsedFrame.AsksFor fs asks) (hsize : 173 ≤ config.rentedBufferSize)
    (hroom : w.this.router.parked.length + asks.length + 2 ≤ config.capacity) :
    ∃ w', (ServerStep.receive (.datagram bytes address)).run.run w = .ok ⟨⟩ w' ∧
      w'.datagrams = w.datagrams ++ asks.mapIdx fun i ask =>
        (ask.answer client.nextExpectedSeq.incr address
          (w.host.clock (i + 1) - client.serverStartTime), address) := by
  have hsettled := settled_of_reaches hpositive hstart hreach
  have hrent := hsettled.pooled.backs.rentsAtOnce hsettled.room
  have haddress : client.address = address := by
    have haddressed := addressed_afterAll hstart.started steps
    rw [← hreach.eq_afterAll] at haddressed
    exact haddressed address client hclient
  have hbytes : bytes = id :: (seq ++ (fs.flatMap ParsedFrame.bytes ++ tail)) := hset.bytes
  rw [← hsettled.pooled.backs.configured.bufferSize] at hfits
  have hsent : Outputs ServerWorld.datagrams (client.answers w.host.clock asks)
      (ServerStep.receive (.datagram bytes address)).run w := by
    refine outputs_receive hrent (by rw [hbytes]; exact List.cons_ne_nil _ _) hfits
      fun b w' hnext hb => ?_
    -- with the datagram in its buffer, the client is as it was
    have hsame := (within_nextDatagram _).of_run hnext
    obtain ⟨buffer, -, hpool⟩ :=
      yields_nextDatagram hpositive.bufferSize _ _ _ _ hsettled.pooled hnext
    rw [← hsame.this] at hclient htime hroom
    rw [← hsame.clock] at htime ⊢
    rw [hbytes] at hb
    refine outputs_dispatch hb hset.id.notMem_trivalPackets (outputs_route hsize hclient htime
      ⟨hb.bytes_eq, hb.start, hset.id, hset.length_seq⟩ hstale htail hasks hpool ?_)
    rw [List.length_singleton]
    omega
  obtain ⟨⟨⟩, w', hrun, hsent⟩ := hsent
  subst haddress
  exact ⟨w', hrun, hsent⟩

end Datagram

/-! ## A request and a ping in one frame set -/

/-- A pool of four buffers, in blocks of one. -/
def fourBuffers : ServerConfig := { threeBuffers with rentedBufferCount := 4 }

/-- A server on that pool, before its start. -/
def fourServer : ServerWorld := .new fourBuffers false fun _ => 0

/-- Both messages, all zeros behind the id. -/
def bothFrames : List WireFrame :=
  [plainFrame (9 :: List.replicate 17 0) (by decide),
    plainFrame (0 :: List.replicate 8 0) (by decide)]

/-- A request for the connection, then a ping. -/
def bothAsks : List Ask :=
  [.connection { clientGuid := 0, requestTimestamp := 0, secure := false },
    .ping { timeSinceStart := 0 }]

/-- The frame set of those two. -/
def bothDatagram : Bytes := 0x80 :: leBytes 3 0 ++ bothFrames.flatMap WireFrame.bytes

/-- The two frames ask for what they should. -/
theorem asksFor_both : List.Forall₂ ParsedFrame.AsksFor (parsed bothFrames) bothAsks := by
  refine .cons ⟨rfl, by decide, by decide, .connection ⟨List.replicate 17 0, [], rfl, ?_⟩ rfl⟩
    (.cons ⟨rfl, by decide, by decide, .ping rfl ⟨List.replicate 8 0, [], rfl, ?_⟩⟩ .nil)
  · exact @consumes_connectionRequest (List.replicate 8 0) (List.replicate 8 0) rfl rfl 0
  · exact consumes_connectedPing rfl

/-- A request and a ping in one datagram, behind a handshake. -/
theorem served_of_reaches_both : ∃ client,
    (afterAll ServerStep.run fourServer (handshake 6)).this.router.connectedClients.lookup {} =
      some client ∧
    ∃ w', (ServerStep.receive (.datagram bothDatagram {})).run.run
        (afterAll ServerStep.run fourServer (handshake 6)) = .ok ⟨⟩ w' ∧
      w'.datagrams = (afterAll ServerStep.run fourServer (handshake 6)).datagrams ++
        bothAsks.mapIdx fun i ask => (ask.answer client.nextExpectedSeq.incr {}
          ((afterAll ServerStep.run fourServer (handshake 6)).host.clock (i + 1) -
            client.serverStartTime), ({} : IPV4Addr)) := by
  have hreach : Reaches ServerStep.run fourServer (handshake 6) _ :=
    reaches_of_succeeds (by decide +kernel)
  have hstart : fourServer.StartedWith fourBuffers := ⟨fourServer, rfl, rfl, rfl⟩
  obtain ⟨client, hclient, htime, hstale⟩ : ∃ client ∈
      (afterAll ServerStep.run fourServer (handshake 6)).this.router.connectedClients.lookup {},
      ¬ (afterAll ServerStep.run fourServer (handshake 6)).this.router.timeout <
          (afterAll ServerStep.run fourServer (handshake 6)).host.clock 0 - client.lastPacket ∧
        ¬ IsFrameSet.number (leBytes 3 0) < client.nextExpectedSeq := by decide +kernel
  have hset : IsFrameSet { bytes := bothDatagram } 0x80 (leBytes 3 0)
      ((parsed bothFrames).flatMap ParsedFrame.bytes ++ []) :=
    ⟨rfl, rfl, ⟨by decide, by decide⟩, length_leBytes 3 0⟩
  exact ⟨client, hclient, served_of_reaches ⟨by decide, by decide, by decide⟩ hstart hreach hclient
    htime hset (by decide) (Nat.zero_le _) hstale asksFor_both (by decide) (by decide +kernel)⟩

end Rakro
