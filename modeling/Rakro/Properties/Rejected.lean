import Rakro.Properties.ProcessData

/-!
# Messages that are rejected

A message that `process_data` has no answer to should leave no trace but its debug calls. Two kinds
do: the guid of a secure connection request is taken over before the request is turned down, and the
datagram around the answer to a ping is sent although there is no answer in it.
-/

namespace Rakro

open Infra BinaryBuffer

/-! ## Nothing is sent and nothing changes -/

/-- The bytes and the address, if the event is a datagram that the socket sends. -/
def Event.datagram? : Event → Option (Bytes × IPV4Addr)
  | .sent bytes address => some (bytes, address)
  | _ => none

/-- The datagrams that have been sent, oldest first. -/
def World.datagrams (w : World) : List (Bytes × IPV4Addr) :=
  w.host.trace.filterMap Event.datagram?

/-- The client is as it was, and the socket has sent nothing. -/
structure Silent (w w' : World) : Prop where
  this : w'.this = w.this
  datagrams : w'.datagrams = w.datagrams

/-- The client is as it was, and the socket has sent it one datagram. -/
structure SendsOne (out : Bytes) (w w' : World) : Prop where
  this : w'.this = w.this
  datagrams : w'.datagrams = w.datagrams ++ [(out, w.this.address)]

instance : IsPreorder World Silent where
  refl _ := ⟨rfl, rfl⟩
  trans _ _ _ h h' := ⟨h'.1.trans h.1, h'.2.trans h.2⟩

/-- Only the event of a send is a datagram. -/
theorem World.datagrams_log (w : World) (event : Event) :
    (w.log event).datagrams = w.datagrams ++ event.datagram?.toList := by
  unfold datagrams log
  rw [List.filterMap_append]
  cases event <;> rfl

section Silent

variable {α : Type} {w w' w'' : World} {out : Bytes}

/-- What is silent is silent backwards. -/
theorem Silent.symm (h : Silent w w') : Silent w' w := ⟨h.1.symm, h.2.symm⟩

/-- What is silent may be left out behind. -/
theorem silent_iff_of_behind (h : Silent w' w'') : Silent w w'' ↔ Silent w w' :=
  ⟨fun hw => IsTrans.trans _ _ _ hw h.symm, fun hw => IsTrans.trans _ _ _ hw h⟩

/-- It may be left out in front, too. -/
theorem silent_iff_of_before (h : Silent w w') : Silent w w'' ↔ Silent w' w'' :=
  ⟨fun hw => IsTrans.trans _ _ _ h.symm hw, fun hw => IsTrans.trans _ _ _ h hw⟩

/-- Silence in front of a datagram. -/
theorem SendsOne.before (h : Silent w w') (h' : SendsOne out w' w'') : SendsOne out w w'' :=
  ⟨h'.1.trans h.1, by rw [h'.datagrams, h.datagrams, h.this]⟩

/-- Silence behind a datagram. -/
theorem SendsOne.behind (h : SendsOne out w w') (h' : Silent w' w'') : SendsOne out w w'' :=
  ⟨h'.1.trans h.1, h'.datagrams.trans h.datagrams⟩

/-- A datagram is no silence. -/
theorem SendsOne.not_silent (h : SendsOne out w w') : ¬ Silent w w' := by
  intro hsilent
  have hlength := congrArg List.length (h.datagrams.symm.trans hsilent.datagrams)
  rw [List.length_append, List.length_singleton] at hlength
  omega

/-! ## The primitives -/

theorem silent_emit {event : Event} (h : event.datagram? = none) : Within Silent (emit event) := by
  refine fun w => ⟨rfl, ?_⟩
  show (w.log event).datagrams = w.datagrams
  rw [World.datagrams_log, h]
  exact List.append_nil _

theorem silent_debug (call : DebugCall) : Within Silent (debug call) :=
  Within.bind Within.get fun _ => Within.ite (silent_emit rfl) (Within.pure _)

theorem silent_release (b : BinaryBuffer) : Within Silent (release b) := fun _ => ⟨rfl, rfl⟩

theorem silent_time : Within Silent timeSinceEpoch := fun _ => ⟨rfl, rfl⟩

theorem silent_rent : Within Silent rent := by
  intro w
  cases hrent : w.host.company.rent with
  | ok r =>
    rw [after_of_ok (run_rent_ok hrent)]
    exact ⟨rfl, rfl⟩
  | error e =>
    rw [after_of_error (run_rent_error hrent)]
    exact refl w

theorem silent_onSendBuffer (b : BinaryBuffer) (method : BufM α) :
    Within Silent (onSendBuffer b method) := by
  intro w
  cases h : method.run b with
  | ok a b' =>
    rw [after_of_ok (run_onSendBuffer_ok h)]
    exact ⟨rfl, rfl⟩
  | error e b' =>
    rw [after_of_error (run_onSendBuffer_error h)]
    exact ⟨rfl, rfl⟩

theorem silent_unhandled (b : BinaryBuffer) : Within Silent (unhandled b) :=
  Within.bind Within.get fun _ => silent_debug _

/-- `ready_buffer` up to the end of the send buffer's scope. -/
def readyFront (b : BinaryBuffer) (rely : FrameReliability) : ClientM (PUnit × BinaryBuffer) := do
  let sendBuffer ← rent
  guarded sendBuffer do
    let header ← makeHeader
    let framed ← onSendBuffer sendBuffer (writeFramed header (makeInfo rely b) b.consumedSlice)
    emit (.ready header rely (← get).this.sendingRelyFrameIndex)
    pure framed

/-- What is made ready is filed behind the writing. -/
theorem readyBuffer_eq (b : BinaryBuffer) (rely : FrameReliability) :
    readyBuffer b rely = readyFront b rely >>= fun r =>
      keepSent rely r.2 >>= fun _ => pure r.2.consumedSlice := (bind_assoc _ _ _).symm

/-- Nothing is filed before the end of the scope. -/
theorem silent_readyFront (b : BinaryBuffer) (rely : FrameReliability) :
    Within Silent (readyFront b rely) := by
  refine Within.bind silent_rent fun sent => within_guarded (silent_release _) ?_
  refine Within.bind (Within.bind Within.get fun _ => Within.pure _) fun _ => ?_
  refine Within.bind (silent_onSendBuffer _ _) fun _ => ?_
  refine Within.bind Within.get fun _ => ?_
  exact Within.bind (silent_emit rfl) fun _ => Within.pure _

/-- A datagram that need not be acknowledged is made ready without a trace in the client. -/
theorem silent_readyBuffer (b : BinaryBuffer) : Within Silent (readyBuffer b .unreliable) := by
  rw [readyBuffer_eq]
  refine Within.bind (silent_readyFront b .unreliable) fun _ => ?_
  exact Within.bind (silent_release _) fun _ => Within.pure _

theorem silent_answerPing (b sent : BinaryBuffer) : Within Silent (answerPing b sent) := by
  refine Within.ite ?_ (Within.ite ?_ (Within.pure _))
  · refine Within.bind (within_onBuffer _ _) fun _ => ?_
    refine Within.bind silent_time fun _ => ?_
    refine Within.bind Within.get fun _ => ?_
    refine Within.bind (silent_onSendBuffer _ _) fun _ => ?_
    exact Within.pure _
  · exact Within.bind (within_onBuffer _ _) fun _ => Within.bind (silent_onSendBuffer _ _) fun _ =>
      Within.pure _

/-- `send_to` sends one datagram. -/
theorem sendsOne_sendTo (out : Bytes) (w : World) : SendsOne out w (after (sendTo out) w) := by
  unfold sendTo
  rw [after_get_bind, after_bind_ok (run_debug _ w)]
  have hdebug := silent_debug (.onSend out (out.headD 0) w.this.address) w
  refine SendsOne.before hdebug ⟨rfl, ?_⟩
  rw [hdebug.this]
  exact World.datagrams_log _ _

end Silent

/-! ## A ping -/

/-- What the answer to a message behind the id of a ping may be made of. -/
def AnswerBytes (message enc : Bytes) : Prop :=
  (message.length = 8 ∧ ∃ pong : ConnectedPong, enc = pong.bytes) ∨
    (message.length ≠ 8 ∧ message.length ≠ 16 ∧ enc = [])

/-- The datagram around an answer. -/
def answerDatagram (w : World) (enc : Bytes) : Bytes :=
  readyBytes w { bytes := enc, index := enc.length } .unreliable

/-- The datagram around an answer depends on the client only. -/
theorem answerDatagram_congr {w w' : World} (h : w'.this = w.this) (enc : Bytes) :
    answerDatagram w' enc = answerDatagram w enc := by
  unfold answerDatagram readyBytes
  rw [h]

section Ping

variable {w w' : World} {b : BinaryBuffer} {p message : Bytes} {rented : RentedBuffer}

/-- An answer has at most a pong's sixteen bytes. -/
theorem AnswerBytes.length_le {enc : Bytes} (h : AnswerBytes message enc) : enc.length ≤ 16 := by
  rcases h with ⟨-, pong, rfl⟩ | ⟨-, -, rfl⟩
  · exact Nat.le_of_eq pong.length_bytes
  · exact Nat.zero_le _

/-- What an answered ping leaves in the buffer is its answer. -/
theorem answerPing_eq_ok {r : BinaryBuffer × BinaryBuffer}
    (hrun : (answerPing (b.between p message) (ofRented rented)).run w = .ok r w') :
    ∃ enc, AnswerBytes message enc ∧ r.2 = written rented enc := by
  by_cases h8 : message.length = 8
  · by_cases room : 16 ≤ rented.memory.length
    · obtain ⟨pong, hanswer⟩ := run_answerPing_eight h8 room
      rw [hanswer] at hrun
      cases hrun
      exact ⟨_, .inl ⟨h8, pong, rfl⟩, rfl⟩
    · exact absurd (succeeds_of_ok hrun) (not_succeeds_answerPing_eight h8 room)
  · by_cases h16 : message.length = 16
    · exact absurd (succeeds_of_ok hrun) (not_succeeds_answerPing_sixteen h16)
    · rw [run_answerPing_other h8 h16] at hrun
      cases hrun
      exact ⟨[], .inr ⟨h8, h16, rfl⟩, rfl⟩

/-- What has been written is what `ready_buffer` puts into its datagram. -/
theorem readyBytes_written (w : World) (rented : RentedBuffer) (enc : Bytes) :
    readyBytes w (written rented enc) .unreliable = answerDatagram w enc := by
  unfold answerDatagram readyBytes
  have hslice : consumedSlice { bytes := enc, index := enc.length } = enc := List.take_length
  rw [hslice]
  exact congrArg (framedBytes _ _) (between_consumedSlice _ _ _)

/-- Once the answer is ready, it is sent. -/
theorem sendsOne_ready {α : Type} {enc : Bytes} (hlen : enc.length ≤ 16) (a : α)
    (h : Succeeds (readyBuffer (written rented enc) .unreliable) w) :
    SendsOne (answerDatagram w enc) w (after (readyBuffer (written rented enc) .unreliable >>=
      fun out => sendTo out >>= fun _ => pure a) w) := by
  have hidx : (written rented enc).index ≤ (written rented enc).size := by
    rw [written, between_size, between_index]
    omega
  have hconsumed : (written rented enc).consumed = enc.length := rfl
  obtain ⟨rented', company, hrent, room⟩ :=
    (succeeds_readyBuffer .unreliable hidx (by omega)).mp h
  rw [← length_readyBytes w .unreliable hidx] at room
  have hready := run_readyBuffer hrent room
  rw [readyBytes_written] at hready
  have hsilent : Silent w _ := (silent_readyBuffer (written rented enc)).of_run hready
  rw [after_bind_ok hready]
  refine SendsOne.before hsilent ((sendsOne_sendTo _ _).behind ?_)
  exact Within.after_bind (fun _ => Within.pure _) _ _

/-- Either the answer does not come about, or one datagram with it is sent. -/
theorem effect_answer (b : BinaryBuffer) (p message : Bytes) (rented : RentedBuffer) (w : World) :
    let body := answerPing (b.between p message) (ofRented rented) >>= fun r =>
      readyBuffer r.2 .unreliable >>= fun out => sendTo out >>= fun _ => pure r.1
    (¬ Succeeds body w ∧ Silent w (after body w)) ∨
      ∃ enc, AnswerBytes message enc ∧ Succeeds body w ∧
        SendsOne (answerDatagram w enc) w (after body w) := by
  intro body
  have hanswer := silent_answerPing (b.between p message) (ofRented rented) w
  cases hrun : (answerPing (b.between p message) (ofRented rented)).run w with
  | error e w' =>
    rw [after_of_error hrun] at hanswer
    have hbody := run_bind_of_error (f := fun r : BinaryBuffer × BinaryBuffer =>
      readyBuffer r.2 .unreliable >>= fun out => sendTo out >>= fun _ => pure r.1) hrun
    exact .inl ⟨not_succeeds_of_error hbody, by rw [after_of_error hbody]; exact hanswer⟩
  | ok r w' =>
    rw [after_of_ok hrun] at hanswer
    obtain ⟨enc, henc, hwritten⟩ := answerPing_eq_ok hrun
    have hafter : after body w = _ := after_bind_ok hrun
    have hreturns : ∀ out w'', Succeeds (sendTo out >>= fun _ => pure r.1) w'' := fun out w'' =>
      (succeeds_bind_iff fun _ _ => succeeds_pure _ _).mpr (succeeds_sendTo out w'')
    have hsucceeds : Succeeds body w ↔ Succeeds (readyBuffer r.2 .unreliable) w' :=
      (succeeds_bind_of_ok hrun).trans (succeeds_bind_iff hreturns)
    rw [hsucceeds, hafter, hwritten]
    by_cases hready : Succeeds (readyBuffer (written rented enc) .unreliable) w'
    · have hsent := sendsOne_ready henc.length_le r.1 hready
      rw [answerDatagram_congr hanswer.this] at hsent
      exact .inr ⟨enc, henc, hready, hsent.before hanswer⟩
    · obtain ⟨e, herror⟩ := run_of_not_succeeds hready
      refine .inl ⟨hready, IsTrans.trans _ _ _ hanswer ?_⟩
      rw [after_bind_error herror]
      exact silent_readyBuffer _ w'

/-- Either the answer to a ping does not come about, or it is one datagram. -/
theorem effect_connectedPingPong (b : BinaryBuffer) (p message : Bytes) (w : World) :
    (¬ Succeeds (connectedPingPong (b.between p message)) w ∧
        Silent w (after (connectedPingPong (b.between p message)) w)) ∨
      ∃ enc, AnswerBytes message enc ∧ Succeeds (connectedPingPong (b.between p message)) w ∧
        SendsOne (answerDatagram w enc) w (after (connectedPingPong (b.between p message)) w) := by
  unfold connectedPingPong
  cases hrent : w.host.company.rent with
  | error e =>
    have hrun := run_rent_error hrent
    refine .inl ⟨not_succeeds_of_error (run_bind_of_error hrun), ?_⟩
    rw [after_bind_error hrun]
    exact refl w
  | ok r =>
    rw [succeeds_bind_of_ok (run_rent_ok hrent), succeeds_bind_iff fun _ _ => succeeds_unhandled _ _,
      succeeds_owning, after_bind_ok (run_rent_ok hrent)]
    have hrented : Silent w { w with host := { w.host with company := r.2 } } := ⟨rfl, rfl⟩
    have hrest := Within.after_bind silent_unhandled
      (owning (ofRented r.1) (answerPing (b.between p message) (ofRented r.1) >>= fun r =>
        readyBuffer r.2 .unreliable >>= fun out => sendTo out >>= fun _ => pure r.1))
      { w with host := { w.host with company := r.2 } }
    rw [after_owning] at hrest
    have hbehind := IsTrans.trans _ _ _ (silent_release _ _) hrest
    rcases effect_answer b p message r.1 { w with host := { w.host with company := r.2 } } with
      ⟨hnot, hsilent⟩ | ⟨enc, henc, hsucceeds, hsent⟩
    · exact .inl ⟨hnot, IsTrans.trans _ _ _ hrented (IsTrans.trans _ _ _ hsilent hbehind)⟩
    · exact .inr ⟨enc, henc, hsucceeds, (hsent.behind hbehind).before hrented⟩

/-- So a ping is without effect exactly when it is not got through with. -/
theorem silent_connectedPingPong_iff (b : BinaryBuffer) (p message : Bytes) (w : World) :
    Silent w (after (connectedPingPong (b.between p message)) w) ↔
      ¬ Succeeds (connectedPingPong (b.between p message)) w := by
  rcases effect_connectedPingPong b p message w with ⟨hnot, hsilent⟩ | ⟨enc, -, hsucceeds, hsent⟩
  · exact iff_of_true hsilent hnot
  · exact iff_of_false hsent.not_silent fun hnot => hnot hsucceeds

end Ping

/-! ## A connection request -/

/-- The guid of a connection request, as the reader puts it together. -/
def requestGuid (message : Bytes) : UInt64 :=
  .ofBitVec (byteswap (n := 8) (orAll (message.take 8) 0 0))

/-- A request that is not accepted is without effect if it is short or from the client itself. -/
theorem silent_connectionRequest_iff (b : BinaryBuffer) (p message : Bytes) (w : World)
    (hrejected : ¬ (17 ≤ message.length ∧ message[16]? = some 0)) :
    Silent w (after (connectionRequest (b.between p message)) w) ↔
      message.length < 17 ∨ requestGuid message = w.this.guid := by
  by_cases hlen : 17 ≤ message.length
  · obtain ⟨guid, time, secure, rest, hguid, htime, rfl⟩ := exists_request_fields hlen
    have hsecure : (guid ++ (time ++ [secure]) ++ rest)[16]? = some secure := by
      simp [List.getElem?_append, hguid, htime]
    have hzero : secure ≠ 0 := fun h => hrejected ⟨hlen, by rw [hsecure, h]⟩
    have htake : (guid ++ (time ++ [secure]) ++ rest).take 8 = guid := by
      rw [List.append_assoc, ← hguid, List.take_left]
    have hread := consumes_connectionRequest hguid htime secure b p rest
    -- the guid has been taken over by the time the request is turned down
    have hafter : after (connectionRequest (b.between p (guid ++ (time ++ [secure]) ++ rest))) w =
        { w with
          this := { w.this with guid := requestGuid (guid ++ (time ++ [secure]) ++ rest) } } := by
      unfold connectionRequest requestGuid
      rw [after_bind_ok (run_onBuffer_ok hread), after_bind_ok (run_modifyThis _),
        if_pos (by simpa using hzero), htake]
      rfl
    rw [hafter, or_iff_right (Nat.not_lt.mpr hlen)]
    constructor
    · intro h
      exact congrArg RakroServerClient.guid h.this
    · intro h
      rw [h]
      exact refl w
  · refine iff_of_true ?_ (.inl (Nat.lt_of_not_le hlen))
    have hshort : ¬ Succeeds (onBuffer (b.between p message) (readNext ConnectionRequest)) w := by
      rintro ⟨r, w', hrun⟩
      obtain ⟨hread, -⟩ := onBuffer_eq_ok hrun
      obtain ⟨enc, r', rfl, -, -, hk⟩ := scans_connectionRequest b p message _ _ hread
      rw [List.length_append] at hlen
      omega
    obtain ⟨e, herror⟩ := run_of_not_succeeds hshort
    unfold connectionRequest
    rw [after_bind_error herror]
    exact within_onBuffer _ _ w

/-! ## `process_data` -/

/-- The messages with the given id that are answered, or that are known to need no answer. -/
def AcceptedMessage (id : Option PacketId) (message : Bytes) : Prop :=
  match id with
  | some .connectionRequest => 17 ≤ message.length ∧ message[16]? = some 0
  | some .newIncommingConnection => True
  | some .connectedPingPong => message.length = 8 ∨ message.length = 16
  | _ => False

/-- The payloads that are answered, or that are known to need no answer. -/
def Accepted : Bytes → Prop
  | [] => False
  | id :: message => AcceptedMessage (PacketId.ofByte id) message

/--
Of the messages that are not accepted, those that are dropped: not a full request with another guid,
and not a ping as long as there are two buffers for an empty datagram.
-/
def DroppedMessage (w : World) (id : Option PacketId) (message : Bytes) : Prop :=
  match id with
  | some .connectionRequest => message.length < 17 ∨ requestGuid message = w.this.guid
  | some .connectedPingPong => ¬ w.host.company.CanAnswer 0
  | _ => True

/-- Of the payloads that are not accepted, those that are dropped. -/
def Dropped (w : World) : Bytes → Prop
  | [] => True
  | id :: message => DroppedMessage w (PacketId.ofByte id) message

/-- A message that is not accepted is silent exactly when it is dropped. -/
theorem silent_switchData_iff {id : UInt8} {message : Bytes}
    (hrejected : ¬ AcceptedMessage (PacketId.ofByte id) message) (b : BinaryBuffer) (p : Bytes)
    (w : World) :
    Silent w (after (switchData id (b.between p message)) w) ↔
      DroppedMessage w (PacketId.ofByte id) message := by
  unfold AcceptedMessage at hrejected
  unfold switchData DroppedMessage
  generalize PacketId.ofByte id = packetId at hrejected ⊢
  match packetId with
  | some .connectionRequest => exact silent_connectionRequest_iff b p message w hrejected
  | some .newIncommingConnection => exact absurd trivial hrejected
  | some .connectedPingPong =>
    obtain ⟨h8, h16⟩ := not_or.mp hrejected
    show Silent w (after (connectedPingPong (b.between p message)) w) ↔ _
    rw [silent_connectedPingPong_iff, succeeds_connectedPingPong, if_neg h8, and_iff_right h16]
  | some .unconnectedPing1 | some .unconnectedPing2 | some .unconnectedPong
  | some .openConnectionRequest1 | some .openConnectionReply1 | some .openConnectionRequest2
  | some .openConnectionReply2 | some .connectionRequestAccepted | some .incompatibleProtocol
  | some .ack | some .nack | none => exact iff_of_true (silent_unhandled _ w) trivial

/-- Without a byte in front of the cursor, no id is read. -/
theorem not_succeeds_readByte {b : BinaryBuffer} (h : b.remainingSlice = []) :
    ¬ Succeeds (readNext UInt8) b := by
  rintro ⟨id, b', hrun⟩
  obtain ⟨_, b₁, hcheck, hrun⟩ := bind_eq_ok hrun
  cases boundsCheck_eq_ok hcheck
  obtain ⟨value, b₂, hvalue, -⟩ := bind_eq_ok hrun
  obtain ⟨bits, b₃, hbits, -⟩ := bind_eq_ok hvalue
  obtain ⟨byte, b₄, hbyte, -⟩ := bind_eq_ok hbits
  obtain ⟨_, b₅, hcheck', hbyte⟩ := bind_eq_ok hbyte
  cases boundsCheck_eq_ok hcheck'
  have hnone : b.bytes[b.index]? = none :=
    List.getElem?_eq_none (List.drop_eq_nil_iff.mp h)
  rw [run_get_bind] at hbyte
  rw [hnone] at hbyte
  cases hbyte

/-- The state in which the id of a payload is read. -/
def World.received (w : World) (payload : Bytes) : World :=
  after (debug (.onClientRecv payload)) (w.log (.data payload))

theorem silent_received (w : World) (payload : Bytes) : Silent w (w.received payload) :=
  IsTrans.trans _ _ _ (silent_emit rfl w) (silent_debug _ _)

theorem received_company (w : World) (payload : Bytes) :
    (w.received payload).host.company = w.host.company := debug_company _ _

/-- The `switch` runs behind the id, and the payload is destroyed behind it. -/
theorem after_processData (b : BinaryBuffer) (p : Bytes) (id : UInt8) (message : Bytes) (w : World) :
    after (processData (b.between p (id :: message))) w =
      after (release (b.between p (id :: message)))
        (after (switchData id (b.between (p ++ [id]) message)) (w.received (id :: message))) := by
  unfold processData
  rw [between_remainingSlice, after_owning, after_bind_ok (run_emit _)]
  refine congrArg (after (release _)) ((after_bind_ok (run_debug _ _)).trans ?_)
  exact after_bind_ok (run_onBuffer_ok (consumes_uint8 id b p message))

/--
**A payload that is not accepted is without effect exactly when it is dropped.** Otherwise it is a
full secure request with another guid than that of the client, or a ping of another length than
those of a ping and a pong while an empty datagram can be sent.
-/
theorem silent_processData_iff {buffer : BinaryBuffer} {w : World}
    (hrejected : ¬ Accepted buffer.remainingSlice) :
    Silent w (after (processData buffer) w) ↔ Dropped w buffer.remainingSlice := by
  cases hpayload : buffer.remainingSlice with
  | nil =>
    refine iff_of_true ?_ trivial
    obtain ⟨e, herror⟩ := run_of_not_succeeds (not_succeeds_readByte hpayload)
    unfold processData
    rw [after_owning, silent_iff_of_behind (silent_release _ _), after_bind_ok (run_emit _)]
    refine IsTrans.trans _ _ _ (silent_received w buffer.remainingSlice) ?_
    rw [after_bind_ok (run_debug _ _), after_bind_error (run_onBuffer_error herror)]
    exact refl _
  | cons id message =>
    have hle : buffer.index ≤ buffer.size := by
      by_contra hgt
      have hnil : buffer.remainingSlice = [] := List.drop_eq_nil_iff.mpr (by unfold size at hgt; omega)
      rw [hnil] at hpayload
      cases hpayload
    rw [hpayload] at hrejected
    rw [eq_between hle, hpayload, after_processData, silent_iff_of_behind (silent_release _ _),
      silent_iff_of_before (silent_received w _), silent_switchData_iff hrejected]
    unfold Dropped DroppedMessage
    rw [(silent_received w _).this, received_company]

/-- A fresh client and a pool of two buffers, each with room for a datagram without a payload. -/
def twoSpare : World where
  this := { lastPacket := 0 }
  host := { company := .new 2 7 1 }

/-- A full secure connection request with a guid of which the low byte is `x`. -/
def secureRequest (x : UInt8) : BinaryBuffer where
  bytes := 9 :: (List.replicate 7 0 ++ [x]) ++ List.replicate 8 0 ++ [1]

/-- A secure request is not accepted. -/
theorem secureRequest_rejected (x : UInt8) : ¬ Accepted (secureRequest x).remainingSlice := by
  rintro ⟨-, h⟩
  have hflag : some (1 : UInt8) = some 0 := h
  exact absurd hflag (by decide)

/-- The request of a client whose guid is known already changes nothing. -/
theorem silent_processData_sameGuid :
    Silent twoSpare (after (processData (secureRequest 0)) twoSpare) :=
  (silent_processData_iff (secureRequest_rejected 0)).mpr (.inr (by decide))

/-- Another guid is taken over, and an empty datagram answers a ping without a time. -/
theorem rejected_not_silent :
    (¬ Accepted (secureRequest 1).remainingSlice ∧
      ¬ Silent twoSpare (after (processData (secureRequest 1)) twoSpare)) ∧
    (¬ Accepted [0] ∧ ¬ Silent twoSpare (after (processData { bytes := [0] }) twoSpare)) := by
  refine ⟨⟨secureRequest_rejected 1, fun h => ?_⟩,
    ⟨show ¬ (0 = 8 ∨ 0 = 16) by decide, fun h => ?_⟩⟩
  · have hguid := congrArg RakroServerClient.guid h.this
    exact absurd hguid (by decide +kernel)
  · exact absurd h.datagrams (by decide +kernel)

end Rakro
