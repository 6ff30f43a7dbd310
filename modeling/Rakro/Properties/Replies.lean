import Rakro.Infra.Budget
import Rakro.Infra.Holdings
import Rakro.Properties.Rejected

/-!
# What a connected client is sent

Everything that goes to a connected client answers a payload of it: a connection request that is not
secure is accepted, a ping is answered with a pong, and what has the id of a ping and neither the
length of a ping nor that of a pong with a datagram around nothing. All the answers to a datagram
carry one number. `Answered` says so of any part of `process_packet` behind its window. It is graded
by the number of bytes, and a frame that is stored has the answer to it saved up, because its payload
is processed once more when its turn has come.
-/

namespace Rakro

open Infra BinaryBuffer

/-! ## The answers -/

/-- The reader of `T` takes `v` off the front of the bytes. -/
def Decodes {T : Type} [BinaryData T] (bytes : Bytes) (v : T) : Prop :=
  ∃ enc rest : Bytes, bytes = enc ++ rest ∧ Consumes (readNext T) enc v

/-- The datagram that `ready_buffer` makes of a message under a sequence number. -/
def messageDatagram (number : UInt24) (rely : FrameReliability) (message : Bytes) : Bytes :=
  framedBytes ⟨number⟩ { bodyLeng := .ofNat message.length, rely } message

@[simp] theorem length_messageDatagram (number : UInt24) (rely : FrameReliability)
    (message : Bytes) : (messageDatagram number rely message).length = 7 + message.length := by
  unfold messageDatagram
  rw [length_framedBytes]
  rfl

/--
What `process_data` may send to the client at `address` for a payload, in a datagram of the number.
-/
inductive Answer (address : IPV4Addr) (number : UInt24) (payload : Bytes) : Bytes → Prop
  | accepted {request : ConnectionRequest} {upTime : UInt64} {message : Bytes} :
      payload = PacketId.connectionRequest.toUnderlying :: message → Decodes message request →
      request.secure = false → Answer address number payload (messageDatagram number .reliable
        ({ clientAddress := .fromIpv4 address, clientReqTime := request.requestTimestamp
           serverUpTime := upTime } : ConnectionRequestAccepted).bytes)
  | pong {ping : ConnectedPing} {time : UInt64} {message : Bytes} :
      payload = PacketId.connectedPingPong.toUnderlying :: message → Decodes message ping →
      message.length = 8 → Answer address number payload (messageDatagram number .unreliable
        ({ timeSinceStart := ping.timeSinceStart, timeSinceServerStart := time } :
          ConnectedPong).bytes)
  | empty {message : Bytes} :
      payload = PacketId.connectedPingPong.toUnderlying :: message → message.length ≠ 8 →
      message.length ≠ 16 → Answer address number payload (messageDatagram number .unreliable [])

/-- What a client has to answer: the payloads it may be shown, and the number that its answers get. -/
structure Inquiry where
  address : IPV4Addr
  number : UInt24
  payloads : Bytes → Prop

/-- The datagram answers one of the payloads. -/
def Inquiry.Allows (asked : Inquiry) (out : Bytes) : Prop :=
  ∃ payload, asked.payloads payload ∧ Answer asked.address asked.number payload out

/-- The bytes that the answer to a payload of the length may have. -/
def replyLimit (leng : Nat) : Nat := if 18 ≤ leng then 173 else if leng = 0 then 0 else 23

/-- The limit of a payload that has an id is at least that of a pong. -/
theorem replyLimit_le_succ (leng : Nat) : 23 ≤ replyLimit (leng + 1) := by
  unfold replyLimit
  split
  · decide
  · rw [if_neg (Nat.succ_ne_zero leng)]

/-- A whole request may cost the answer to it. -/
theorem replyLimit_of_le {leng : Nat} (h : 17 ≤ leng) : replyLimit (leng + 1) = 173 :=
  if_pos (by omega)

/-! ## The account of a client -/

/-- What the datagrams come to. -/
def bytesOf (datagrams : List (Bytes × IPV4Addr)) : Nat :=
  (datagrams.map fun datagram => datagram.1.length).sum

/-- Bytes of datagrams add up. -/
theorem bytesOf_append (new more : List (Bytes × IPV4Addr)) :
    bytesOf (new ++ more) = bytesOf new + bytesOf more := by
  unfold bytesOf
  rw [List.map_append, List.sum_append]

/-- What may be sent for a frame that is stored. -/
def PacketInformation.due (packet : PacketInformation) : List Nat :=
  [replyLimit packet.rawData.remainingSlice.length]

/-- What may be sent for the frames that the client has stored, once their turn has come. -/
def RakroServerClient.owed (client : RakroServerClient) : Nat :=
  (holdings PacketInformation.due client.outOfOrderPacketBuffer).sum

/-- What a client has been given at its handshake, and the time of its last packet. -/
structure Session where
  address : IPV4Addr
  mtu : UInt16
  debugger : Option DebugInstrument
  serverStartTime : UInt64
  lastPacket : UInt64

/-- What a client keeps of its connection. -/
def RakroServerClient.session (client : RakroServerClient) : Session where
  address := client.address
  mtu := client.mtu
  debugger := client.debugger
  serverStartTime := client.serverStartTime
  lastPacket := client.lastPacket

/--
From `w` to `w'`, the client at `address` has been sent the datagrams `new`, each of them allowed.
They come to `c` bytes together and what had been saved up, and what newly waits for an
acknowledgement is one of them.
-/
structure Answering (allowed : Bytes → Prop) (address : IPV4Addr) (c : Nat) (w w' : World)
    (new : List (Bytes × IPV4Addr)) : Prop where
  datagrams : w'.datagrams = w.datagrams ++ new
  answers : ∀ datagram ∈ new, datagram.2 = address ∧ allowed datagram.1
  filed : ∀ index b, w'.this.ackBuffer.lookup index = some b →
    w.this.ackBuffer.lookup index = some b ∨ (b.consumedSlice, address) ∈ new
  paid : bytesOf new + w'.this.owed ≤ c + w.this.owed

/-- The client may be asked any payload of the length of the one that the buffer shows. -/
def Inquiry.MayStore (asked : Inquiry) (b : BinaryBuffer) : Prop :=
  ∀ payload, payload.length = b.remainingSlice.length → asked.payloads payload

/--
The client is the one that is asked. Of a stored packet only the place is known, so it may turn out
to be any payload of its length.
-/
structure Inquiry.Meets (asked : Inquiry) (client : RakroServerClient) : Prop where
  address : client.address = asked.address
  number : client.nextExpectedSeq = asked.number
  stored : AllEntries (fun _ (packet : PacketInformation) => asked.MayStore packet.rawData)
    client.outOfOrderPacketBuffer

/--
The client that is asked has only been sent answers, of `c` bytes together and what had been saved up
for it. Its session stays as it is, and it may be asked on.
-/
def Answered (asked : Inquiry) (c : Nat) (w w' : World) : Prop :=
  asked.Meets w.this → asked.Meets w'.this ∧ w'.this.session = w.this.session ∧
    ∃ new, Answering asked.Allows asked.address c w w' new

variable {α : Type} {allowed : Bytes → Prop} {address : IPV4Addr} {asked : Inquiry} {c d : Nat}
  {w w' w'' : World}

theorem Answering.append {new more : List (Bytes × IPV4Addr)}
    (h : Answering allowed address c w w' new) (h' : Answering allowed address d w' w'' more) :
    Answering allowed address (c + d) w w'' (new ++ more) where
  datagrams := by rw [h'.datagrams, h.datagrams, List.append_assoc]
  answers datagram hmem := by
    rcases List.mem_append.mp hmem with hmem | hmem
    · exact h.answers datagram hmem
    · exact h'.answers datagram hmem
  filed index b hlookup := by
    rcases h'.filed index b hlookup with hlookup | hmem
    · rcases h.filed index b hlookup with hlookup | hmem
      · exact .inl hlookup
      · exact .inr (List.mem_append_left _ hmem)
    · exact .inr (List.mem_append_right _ hmem)
  paid := by
    have hpaid := h.paid
    have hpaid' := h'.paid
    rw [bytesOf_append]
    omega

/-- Nothing is sent or filed. -/
theorem answering_nothing (hdatagrams : w'.datagrams = w.datagrams) (hack : ∀ index b,
      w'.this.ackBuffer.lookup index = some b → w.this.ackBuffer.lookup index = some b)
    (howed : w'.this.owed ≤ c + w.this.owed) : Answering allowed address c w w' [] where
  datagrams := by rw [hdatagrams, List.append_nil]
  answers := nofun
  filed index b hlookup := .inl (hack index b hlookup)
  paid := (Nat.zero_add _).trans_le howed

/-- What allows more is met by no more than is paid for. -/
theorem Answering.mono {allowed' : Bytes → Prop} {new : List (Bytes × IPV4Addr)}
    (h : Answering allowed address c w w' new) (hallowed : ∀ out, allowed out → allowed' out)
    (hle : c ≤ d) : Answering allowed' address d w w' new where
  datagrams := h.datagrams
  answers datagram hmem :=
    ⟨(h.answers datagram hmem).1, hallowed _ (h.answers datagram hmem).2⟩
  filed := h.filed
  paid := h.paid.trans (Nat.add_le_add_right hle _)

/-- What is neither sent, filed nor stored is free. -/
theorem answered_same (hsession : w'.this.session = w.this.session)
    (hnumber : w'.this.nextExpectedSeq = w.this.nextExpectedSeq)
    (hdatagrams : w'.datagrams = w.datagrams) (hack : w'.this.ackBuffer = w.this.ackBuffer)
    (hstored : w'.this.outOfOrderPacketBuffer = w.this.outOfOrderPacketBuffer) :
    Answered asked 0 w w' := by
  intro hmeets
  have haddress : w'.this.address = w.this.address := congrArg Session.address hsession
  refine ⟨⟨haddress.trans hmeets.address, hnumber.trans hmeets.number, ?_⟩, hsession, [], ?_⟩
  · rw [hstored]
    exact hmeets.stored
  · refine answering_nothing hdatagrams (fun _ _ h => hack ▸ h) ?_
    unfold RakroServerClient.owed
    rw [hstored, Nat.zero_add]

instance (asked : Inquiry) : IsGraded (Answered asked) where
  refl w := answered_same rfl rfl rfl rfl rfl
  trans h h' := by
    intro hmeets
    obtain ⟨hmeets, hsession, new, hnew⟩ := h hmeets
    obtain ⟨hmeets, hsession', more, hmore⟩ := h' hmeets
    exact ⟨hmeets, hsession'.trans hsession, new ++ more, hnew.append hmore⟩
  mono hle h := by
    intro hmeets
    obtain ⟨hmeets, hsession, new, hnew⟩ := h hmeets
    exact ⟨hmeets, hsession, new, hnew.mono (fun _ h => h) hle⟩

/-- What is silent is free. -/
theorem Silent.answered (h : Silent w w') : Answered asked 0 w w' :=
  answered_same (by rw [h.this]) (by rw [h.this]) h.datagrams (by rw [h.this]) (by rw [h.this])

theorem answered_of_silent {m : ClientM α} (h : Within Silent m) : Within (Answered asked 0) m :=
  h.mono fun _ _ => Silent.answered

/-- What throws before anything has been sent is free. -/
theorem answered_of_fails {β : Type} {m : ClientM α} {f : α → ClientM β} (hm : Within Silent m)
    (h : ¬ Succeeds m w) : Answered asked c w (after (m >>= f) w) := by
  obtain ⟨e, hrun⟩ := run_of_not_succeeds h
  rw [after_bind_error hrun]
  exact IsGraded.mono (Nat.zero_le _) (hm w).answered

/-! ## Sending an answer -/

/-- `ready_buffer` is silent when it throws, and otherwise returns the datagram of its payload. -/
theorem readyBuffer_cases {b : BinaryBuffer} (rely : FrameReliability) (hidx : b.index ≤ b.size)
    (hlen : 7 + b.consumed < 2 ^ 64) (w : World) :
    (¬ Succeeds (readyBuffer b rely) w ∧ Silent w (after (readyBuffer b rely) w)) ∨
      ∃ rented company, (readyBuffer b rely).run w = .ok (readyBytes w b rely)
        (after (keepSent rely (written rented (readyBytes w b rely)))
          ((w.framed company rented (readyBytes w b rely)).log (w.readyEvent rely))) := by
  by_cases h : Succeeds (readyBuffer b rely) w
  · obtain ⟨rented, company, hrent, room⟩ := (succeeds_readyBuffer rely hidx hlen).mp h
    rw [← length_readyBytes w rely hidx] at room
    exact .inr ⟨rented, company, run_readyBuffer hrent room⟩
  · refine .inl ⟨h, ?_⟩
    -- what throws is in front of the end of the scope
    rw [readyBuffer_eq] at h ⊢
    have hfails : ¬ Succeeds (readyFront b rely) w := fun hs => h ((succeeds_bind_iff fun r w' => by
      rw [succeeds_bind_of_ok (keepSent_returns _ _ _)]
      exact succeeds_pure _ _).mpr hs)
    obtain ⟨e, hrun⟩ := run_of_not_succeeds hfails
    rw [after_bind_error hrun]
    exact silent_readyFront b rely w

/-- The end of the scope files the datagram, or another one is filed under its number already. -/
theorem ackBuffer_keepSent (rely : FrameReliability) (b : BinaryBuffer) (w : World) :
    (after (keepSent rely b) w).this = { w.this with
      sendingRelyFrameIndex := (after (keepSent rely b) w).this.sendingRelyFrameIndex
      ackBuffer := (after (keepSent rely b) w).this.ackBuffer } ∧
    (after (keepSent rely b) w).datagrams = w.datagrams ∧
    ∀ index b', (after (keepSent rely b) w).this.ackBuffer.lookup index = some b' →
      w.this.ackBuffer.lookup index = some b' ∨ b' = b := by
  unfold keepSent
  cases isReliable rely with
  | false => exact ⟨rfl, rfl, fun _ _ h => .inl h⟩
  | true =>
    unfold insertAckBuffer
    rw [if_pos rfl, after_get_bind, after_bind_ok (run_modifyThis _), after_get_bind]
    split
    · exact ⟨rfl, rfl, fun _ _ h => .inl h⟩
    · refine ⟨rfl, rfl, fun index b' h => ?_⟩
      by_cases hindex : index = w.this.sendingRelyFrameIndex
      · subst hindex
        exact .inr (Option.some.inj ((AList.lookup_insert _).symm.trans h)).symm
      · exact .inl ((AList.lookup_insert_ne hindex).symm.trans h)

/-- A message that is made ready is its datagram. -/
theorem readyBytes_message (w : World) (rented : RentedBuffer) (enc : Bytes)
    (rely : FrameReliability) :
    readyBytes w (written rented enc) rely = messageDatagram w.this.nextExpectedSeq rely enc :=
  congrArg (framedBytes _ _) (between_consumedSlice _ _ _)

/-- What is ready is sent, and what is filed has been sent. -/
theorem answered_ready {enc : Bytes} {rely : FrameReliability} (hlen : enc.length ≤ 166)
    (hallows : asked.Allows (messageDatagram asked.number rely enc)) (rented : RentedBuffer) :
    Within (Answered asked (7 + enc.length)) (readyBuffer (written rented enc) rely >>= sendTo) := by
  intro w
  have hidx : (written rented enc).index ≤ (written rented enc).size := by
    rw [written, between_size, between_index]
    omega
  have hconsumed : (written rented enc).consumed = enc.length := rfl
  rcases readyBuffer_cases rely hidx (by omega) w with ⟨hnot, hsilent⟩ | ⟨rented', company, hrun⟩
  · obtain ⟨e, hrun⟩ := run_of_not_succeeds hnot
    rw [after_bind_error hrun]
    exact IsGraded.mono (Nat.zero_le _) hsilent.answered
  · rw [after_bind_ok hrun, readyBytes_message]
    generalize hout : messageDatagram w.this.nextExpectedSeq rely enc = out
    obtain ⟨hthis, hquiet, hfiled⟩ := ackBuffer_keepSent rely (written rented' out)
      ((w.framed company rented' out).log (w.readyEvent rely))
    have hdatagrams : ((w.framed company rented' out).log (w.readyEvent rely)).datagrams =
        w.datagrams := (World.datagrams_log _ _).trans (List.append_nil _)
    generalize after (keepSent rely (written rented' out))
      ((w.framed company rented' out).log (w.readyEvent rely)) = w₁ at hthis hquiet hfiled ⊢
    have hsent := sendsOne_sendTo out w₁
    intro hmeets
    have haddress₁ : w₁.this.address = asked.address := by
      rw [hthis]
      exact hmeets.address
    have hmeets' : asked.Meets (after (sendTo out) w₁).this := by
      rw [hsent.this, hthis]
      exact ⟨hmeets.address, hmeets.number, hmeets.stored⟩
    refine ⟨hmeets', by rw [hsent.this, hthis]; rfl, [(out, asked.address)], ?_, ?_, ?_, ?_⟩
    · rw [hsent.datagrams, hquiet, hdatagrams, haddress₁]
    · intro datagram hmem
      rw [List.mem_singleton.mp hmem]
      rw [← hmeets.number, hout] at hallows
      exact ⟨rfl, hallows⟩
    · intro index b hlookup
      rw [hsent.this] at hlookup
      rcases hfiled index b hlookup with hlookup | rfl
      · exact .inl hlookup
      · refine .inr (List.mem_singleton.mpr ?_)
        rw [written, between_consumedSlice]
    · have howed : (after (sendTo out) w₁).this.owed = w.this.owed := by
        rw [hsent.this, hthis]
        rfl
      have hbytes : bytesOf [(out, asked.address)] = 7 + enc.length := by
        rw [← hout]
        exact (Nat.add_zero _).trans (length_messageDatagram _ _ _)
      omega

/-! ## The messages -/

theorem answered_rent_bind {f : BinaryBuffer → ClientM α}
    (h : ∀ rented, Within (Answered asked c) (f (ofRented rented))) :
    Within (Answered asked c) (rent >>= f) := by
  intro w
  cases hrent : w.host.company.rent with
  | error e =>
    exact answered_of_fails silent_rent (not_succeeds_of_error (run_rent_error hrent))
  | ok r =>
    have hrun := run_rent_ok hrent
    rw [after_bind_ok hrun, ← Nat.zero_add c]
    exact IsGraded.trans (silent_rent.of_run hrun).answered (h r.1 _)

/-- What is written into the rented buffer is what comes behind goes on with. -/
theorem answered_write_bind {m : BufM PUnit} {enc : Bytes} (hm : Emits m enc)
    (hlen : enc.length < 2 ^ 64) {rented : RentedBuffer} {f : PUnit × BinaryBuffer → ClientM α}
    (h : Within (Answered asked c) (f (⟨⟩, written rented enc))) :
    Within (Answered asked c) (onSendBuffer (ofRented rented) m >>= f) := by
  intro w
  have hsilent := silent_onSendBuffer (ofRented rented) m
  by_cases room : enc.length ≤ rented.memory.length
  · have hrun := run_onRented hm room w
    rw [after_bind_ok hrun, ← Nat.zero_add c]
    exact IsGraded.trans (hsilent.of_run hrun).answered (h _)
  · exact answered_of_fails hsilent (not_succeeds_onRented hm hlen room w)

/-- A part that owns its buffer answers what its body does. -/
theorem answered_owning {b : BinaryBuffer} {body : ClientM α} (h : Within (Answered asked c) body) :
    Within (Answered asked c) (owning b body) := by
  intro w
  rw [after_owning, ← Nat.add_zero c]
  exact IsGraded.trans (h w) (silent_release b _).answered

/-- An accepted request is answered with 173 bytes. -/
theorem answered_acceptConnection {message : Bytes} {request : ConnectionRequest}
    (hasked : asked.payloads (PacketId.connectionRequest.toUnderlying :: message))
    (hdecodes : Decodes message request) (hsecure : request.secure = false) :
    Within (Answered asked 173) (acceptConnection request) := by
  refine Within.free_bind (answered_of_silent silent_time) fun now => ?_
  intro w
  rw [after_get_bind]
  by_cases haddress : w.this.address = asked.address
  · let response : ConnectionRequestAccepted :=
      { clientAddress := .fromIpv4 w.this.address, clientReqTime := request.requestTimestamp
        serverUpTime := now - w.this.serverStartTime }
    have hlength : response.bytes.length = 166 := ConnectionRequestAccepted.length_bytes response
    have hallows : asked.Allows (messageDatagram asked.number .reliable response.bytes) := by
      refine ⟨_, hasked, ?_⟩
      rw [← haddress]
      exact .accepted rfl hdecodes hsecure
    refine answered_rent_bind (fun rented => answered_owning ?_) w
    refine answered_write_bind (emits_connectionRequestAccepted _) (by simp) ?_
    refine (answered_ready (Nat.le_of_eq hlength) hallows rented).more ?_
    rw [hlength]
  · exact fun hmeets => absurd hmeets.address haddress

/-- A request is answered, if it is one that asks for no security. -/
theorem answered_connectionRequest (b : BinaryBuffer) (p message : Bytes)
    (hasked : asked.payloads (PacketId.connectionRequest.toUnderlying :: message)) :
    Within (Answered asked (replyLimit (message.length + 1)))
      (connectionRequest (b.between p message)) := by
  intro w
  unfold connectionRequest
  cases hread : (readNext ConnectionRequest).run (b.between p message) with
  | error e b' =>
    rw [after_bind_error (run_onBuffer_error hread)]
    exact IsGraded.mono (Nat.zero_le _) (IsGraded.refl w)
  | ok request b' =>
    obtain ⟨enc, rest, rfl, -, hconsumes, hlong⟩ := scans_connectionRequest _ _ _ _ _ hread
    rw [after_bind_ok (run_onBuffer_ok hread), replyLimit_of_le (by
      rw [List.length_append]
      omega)]
    refine Within.free_bind (R := Answered asked) (fun w => answered_same rfl rfl rfl rfl rfl)
      (fun _ => ?_) w
    cases hsecure : request.secure with
    | true => exact (free_pure _).more (Nat.zero_le _)
    | false => exact answered_acceptConnection hasked ⟨enc, rest, rfl, hconsumes⟩ hsecure

/-- A ping is answered with its own time. -/
theorem answered_answerPing {β : Type} {b : BinaryBuffer} {p message : Bytes} {rented : RentedBuffer}
    {f : BinaryBuffer × BinaryBuffer → ClientM β}
    (hasked : asked.payloads (PacketId.connectedPingPong.toUnderlying :: message))
    (h : ∀ b' enc, asked.Allows (messageDatagram asked.number .unreliable enc) →
      enc.length ≤ 16 → Within (Answered asked c) (f (b', written rented enc))) :
    Within (Answered asked c)
      (answerPing (b.between p message) (ofRented rented) >>= f) := by
  intro w
  by_cases h8 : message.length = 8
  · have hread := consumes_connectedPing h8
    have hrun := run_onBuffer_ok (w := w) (hread b p [])
    rw [List.append_nil] at hrun
    unfold answerPing
    rw [between_remaining, if_pos h8, bind_assoc, after_bind_ok hrun, bind_assoc]
    refine Within.free_bind (R := Answered asked) (answered_of_silent silent_time)
      (fun now w => ?_) w
    rw [bind_assoc, after_get_bind, bind_assoc]
    refine answered_write_bind (emits_connectedPong _) (by simp) ?_ w
    refine h _ _ ⟨_, hasked, .pong rfl ?_ h8⟩ (Nat.le_of_eq (ConnectedPong.length_bytes _))
    exact ⟨message, [], (List.append_nil _).symm, hread⟩
  · by_cases h16 : message.length = 16
    · -- the reader of a pong throws
      exact answered_of_fails (silent_answerPing _ _) (not_succeeds_answerPing_sixteen h16)
    · rw [after_bind_ok (run_answerPing_other h8 h16)]
      exact h _ [] ⟨_, hasked, .empty rfl h8 h16⟩ (Nat.zero_le _) w

theorem answered_connectedPingPong (b : BinaryBuffer) (p message : Bytes)
    (hasked : asked.payloads (PacketId.connectedPingPong.toUnderlying :: message)) :
    Within (Answered asked (replyLimit (message.length + 1)))
      (connectedPingPong (b.between p message)) := by
  refine Within.more ?_ (replyLimit_le_succ _)
  refine answered_rent_bind fun rented => Within.bind_free (answered_owning ?_) fun _ =>
    answered_of_silent (silent_unhandled _)
  refine answered_answerPing hasked fun b' enc hallows hlen => ?_
  have hready := (answered_ready (hlen.trans (by decide)) hallows rented).bind_free
    (f := fun _ => (pure b' : ClientM BinaryBuffer)) fun _ => free_pure _
  rw [bind_assoc] at hready
  exact hready.more (by omega)

theorem answered_switchData {id : UInt8} {message : Bytes}
    (hasked : asked.payloads (id :: message)) (b : BinaryBuffer) (p : Bytes) :
    Within (Answered asked (replyLimit (message.length + 1)))
      (switchData id (b.between p message)) := by
  unfold switchData
  split
  · next hid =>
    rw [PacketId.ofByte_eq_some.mp hid] at hasked
    exact answered_connectionRequest b p message hasked
  · exact (free_pure _).more (Nat.zero_le _)
  · next hid =>
    rw [PacketId.ofByte_eq_some.mp hid] at hasked
    exact answered_connectedPingPong b p message hasked
  · exact (answered_of_silent (silent_unhandled _)).more (Nat.zero_le _)

/-- **`process_data` sends no more than the answer to its payload.** -/
theorem answered_processData {buffer : BinaryBuffer}
    (hasked : asked.payloads buffer.remainingSlice) :
    Within (Answered asked (replyLimit buffer.remainingSlice.length)) (processData buffer) := by
  intro w
  cases hpayload : buffer.remainingSlice with
  | nil =>
    refine answered_owning (fun w => ?_) w
    rw [after_bind_ok (run_emit _), after_bind_ok (run_debug _ _)]
    refine IsGraded.trans (c := 0) (d := 0) (silent_received w buffer.remainingSlice).answered ?_
    exact answered_of_fails (fun w => within_onBuffer (R := Silent) _ _ w) fun ⟨r, w', hrun⟩ =>
      not_succeeds_readByte hpayload ⟨_, _, (onBuffer_eq_ok hrun).1⟩
  | cons id message =>
    have hle : buffer.index ≤ buffer.size := by
      by_contra hgt
      have hnil : buffer.remainingSlice = [] := List.drop_eq_nil_iff.mpr (by unfold size at hgt; omega)
      rw [hnil] at hpayload
      cases hpayload
    rw [hpayload] at hasked
    rw [eq_between hle, hpayload, after_processData, List.length_cons]
    have hreceived : Answered asked 0 w _ := (silent_received w (id :: message)).answered
    have hswitch : Answered asked _ _ _ := answered_switchData hasked buffer
      (buffer.consumedSlice ++ [id]) (w.received (id :: message))
    have hboth := IsGraded.trans (IsGraded.trans hreceived hswitch) (silent_release
      (buffer.between buffer.consumedSlice (id :: message)) _).answered
    rwa [Nat.zero_add, Nat.add_zero] at hboth

end Rakro
