import Rakro.Roundtrip.Connected
import Rakro.Roundtrip.ReadyBuffer
import Rakro.Properties.Effect

/-!
# When `process_data` returns

A payload is refused when it is empty, when its message is shorter than the fields that are read, or
when the reply finds no two buffers of the pool that it fits into. Everything else is handled. The
reader of a pong is not implemented, so sixteen bytes behind a ping are refused as well.
-/

namespace Rakro

open Infra BinaryBuffer

/-! ## The pool -/

/-- The pool has two buffers, and a reply of `leng` bytes fits into a datagram of that size. -/
def BufferCompany.CanAnswer (company : BufferCompany) (leng : Nat) : Prop :=
  7 + leng ≤ company.bufferSize ∧ ∃ rented company' rented' company'',
    company.rent = .ok (rented, company') ∧ company'.rent = .ok (rented', company'')

/-- The pool has a buffer. -/
def BufferCompany.CanRent (company : BufferCompany) : Prop :=
  ∃ rented company', company.rent = .ok (rented, company')

/-- A buffer can be rented when one is free, or a new block may be made and has one. -/
theorem BufferCompany.canRent_iff (company : BufferCompany) : company.CanRent ↔
    (tryAll company.blocks).isSome ∨
      company.blocks.length ≠ company.blockMaxCount ∧ (tryAll company.initBlock.blocks).isSome := by
  unfold CanRent rent
  split
  · next h => exact iff_of_true ⟨_, _, rfl⟩ (.inl (by rw [h]; rfl))
  · next h =>
    have hnone : ¬ (tryAll company.blocks).isSome := by simp [h]
    rw [or_iff_right hnone]
    split
    · next hfull => split <;> exact iff_of_false (by rintro ⟨_, _, ⟨⟩⟩) fun h => h.1 hfull
    · next hfull =>
      rw [and_iff_right hfull]
      split
      · next h => exact iff_of_true ⟨_, _, rfl⟩ (by rw [h]; rfl)
      · next h => exact iff_of_false (by rintro ⟨_, _, ⟨⟩⟩) (by simp [h])

/-- What the memory holds does not decide on it. -/
theorem BufferCompany.canRent_keep (company : BufferCompany) (buffer : RentedBuffer) :
    (company.keep buffer).CanRent ↔ company.CanRent := by
  unfold keep
  split
  · rw [canRent_iff, canRent_iff]
    unfold store initBlock
    dsimp only
    split
    · exact Iff.rfl
    · split <;> exact Iff.rfl
  · exact Iff.rfl

/-- Behind one rent, the rest of an answer needs its room and another rent. -/
theorem BufferCompany.canAnswer_iff {company company' : BufferCompany} {rented : RentedBuffer}
    (h : company.rent = .ok (rented, company')) (leng : Nat) : company.CanAnswer leng ↔
      7 + leng ≤ company'.bufferSize ∧ company'.CanRent := by
  unfold CanAnswer
  rw [(rent_eq_ok h).2]
  constructor
  · rintro ⟨hle, _, _, rented', company'', h', h''⟩
    rw [h] at h'
    cases h'
    exact ⟨hle, rented', company'', h''⟩
  · rintro ⟨hle, rented', company'', h''⟩
    exact ⟨hle, rented, company', rented', company'', h, h''⟩

/-! ## Sending a reply -/

theorem succeeds_emit (event : Event) (w : World) : Succeeds (emit event) w := ⟨_, _, run_emit _⟩

theorem succeeds_debug (call : DebugCall) (w : World) : Succeeds (debug call) w := by
  unfold debug
  rw [succeeds_get_bind]
  split
  · exact succeeds_emit _ _
  · exact succeeds_pure _ _

theorem run_debug (call : DebugCall) (w : World) :
    (debug call).run w = .ok ⟨⟩ (after (debug call) w) := (succeeds_debug call w).run.choose_spec

/-- A debug call leaves the pool alone. -/
theorem debug_company (call : DebugCall) (w : World) :
    (after (debug call) w).host.company = w.host.company := by
  unfold debug
  rw [after_get_bind]
  split <;> rfl

theorem succeeds_sendTo (bytes : Bytes) (w : World) : Succeeds (sendTo bytes) w := by
  unfold sendTo
  rw [succeeds_get_bind, succeeds_bind_of_ok (run_debug _ w)]
  exact succeeds_emit _ _

theorem succeeds_unhandled (b : BinaryBuffer) (w : World) : Succeeds (unhandled b) w := by
  unfold unhandled
  rw [succeeds_get_bind]
  exact succeeds_debug _ _

/-- `ready_buffer` needs a buffer and the room for its datagram. -/
theorem succeeds_readyBuffer {w : World} {buffer : BinaryBuffer} (rely : FrameReliability)
    (hidx : buffer.index ≤ buffer.size) (hlen : 7 + buffer.consumed < 2 ^ 64) :
    Succeeds (readyBuffer buffer rely) w ↔ ∃ rented company,
      w.host.company.rent = .ok (rented, company) ∧ 7 + buffer.consumed ≤ rented.memory.length := by
  cases hrent : w.host.company.rent with
  | error e =>
    refine iff_of_false ?_ (by rintro ⟨_, _, h, -⟩; cases h)
    exact not_succeeds_of_error (run_bind_of_error (run_rent_error hrent))
  | ok r =>
    obtain ⟨rented, company⟩ := r
    by_cases room : 7 + buffer.consumed ≤ rented.memory.length
    · refine iff_of_true ?_ ⟨rented, company, rfl, room⟩
      exact succeeds_of_ok (run_readyBuffer hrent (by rw [length_readyBytes _ _ hidx]; exact room))
    · refine iff_of_false ?_ (by rintro ⟨_, _, h, hroom⟩; cases h; exact room hroom)
      have hframed := length_readyBytes w rely hidx
      have hwrite := not_succeeds_onRented (emits_framed ⟨w.this.nextExpectedSeq⟩
        (makeInfo rely buffer) buffer.consumedSlice) (hframed ▸ hlen) (fun h => room (hframed ▸ h))
        { w with host := { w.host with company := company } }
      obtain ⟨e, herr⟩ := run_of_not_succeeds hwrite
      unfold readyBuffer
      rw [succeeds_bind_of_ok (run_rent_ok hrent)]
      exact not_succeeds_of_error (run_bind_of_error (run_guarded_error
        ((run_bind_of_ok run_makeHeader).trans (run_bind_of_error herr))))

/-- The datagram around a written reply. -/
theorem succeeds_ready_written {w : World} {rented : RentedBuffer} {enc : Bytes}
    (rely : FrameReliability) (hlen : 7 + enc.length < 2 ^ 64) :
    Succeeds (readyBuffer (written rented enc) rely) w ↔
      7 + enc.length ≤ w.host.company.bufferSize ∧ w.host.company.CanRent := by
  have hidx : (written rented enc).index ≤ (written rented enc).size := by
    rw [written, between_size, between_index]
    omega
  rw [succeeds_readyBuffer rely hidx hlen]
  constructor
  · rintro ⟨rented', company', hrent, room⟩
    rw [(BufferCompany.rent_eq_ok hrent).1] at room
    exact ⟨room, _, _, hrent⟩
  · rintro ⟨room, rented', company', hrent⟩
    refine ⟨_, _, hrent, ?_⟩
    rw [(BufferCompany.rent_eq_ok hrent).1]
    exact room

/-- What has been written so far does not matter to that. -/
theorem canSend_flushed (w : World) (b : BinaryBuffer) (leng : Nat) :
    leng ≤ (w.flushed b).host.company.bufferSize ∧ (w.flushed b).host.company.CanRent ↔
      leng ≤ w.host.company.bufferSize ∧ w.host.company.CanRent := by
  unfold World.flushed
  rw [BufferCompany.keep_bufferSize, BufferCompany.canRent_keep]

/-! ## A connection request -/

/-- The answer to a request needs a buffer of 173 bytes, and another rent. -/
theorem succeeds_accept {w : World} {response : ConnectionRequestAccepted}
    {rented : RentedBuffer} (hsize : rented.memory.length = w.host.company.bufferSize) :
    Succeeds (onSendBuffer (ofRented rented) (write response) >>= fun r =>
      readyBuffer r.2 .reliable >>= fun out => sendTo out) w ↔
    7 + 166 ≤ w.host.company.bufferSize ∧ w.host.company.CanRent := by
  have hlen := response.length_bytes
  by_cases room : response.bytes.length ≤ rented.memory.length
  · rw [succeeds_bind_of_ok (run_onRented (emits_connectionRequestAccepted response) room w),
      succeeds_bind_iff fun _ _ => succeeds_sendTo _ _,
      succeeds_ready_written _ (by omega), canSend_flushed, hlen]
  · refine iff_of_false (fun h => ?_) (by rintro ⟨h, -⟩; omega)
    exact not_succeeds_onRented (emits_connectionRequestAccepted response) (by omega) room w h.of_bind

theorem succeeds_acceptConnection (packetInfo : ConnectionRequest) (w : World) :
    Succeeds (acceptConnection packetInfo) w ↔ w.host.company.CanAnswer 166 := by
  show _ ↔ w.tick.host.company.CanAnswer 166
  refine (succeeds_bind_of_ok run_timeSinceEpoch).trans ?_
  refine (succeeds_get_bind _ w.tick).trans ?_
  cases hrent : w.tick.host.company.rent with
  | ok r =>
    refine (succeeds_bind_of_ok (run_rent_ok hrent)).trans ?_
    obtain ⟨hsize, hcompany⟩ := BufferCompany.rent_eq_ok hrent
    rw [succeeds_owning, BufferCompany.canAnswer_iff hrent]
    exact succeeds_accept (hsize.trans hcompany.symm)
  | error e =>
    refine iff_of_false (not_succeeds_of_error (run_bind_of_error (run_rent_error hrent))) ?_
    rintro ⟨-, _, _, _, _, h, -⟩
    rw [hrent] at h
    cases h

/-- The three fields of a connection request and what lies behind them. -/
theorem exists_request_fields {message : Bytes} (h : 17 ≤ message.length) :
    ∃ guid time : Bytes, ∃ (secure : UInt8) (rest : Bytes), guid.length = 8 ∧ time.length = 8 ∧
      message = guid ++ (time ++ [secure]) ++ rest := by
  refine ⟨message.take 8, (message.drop 8).take 8, message[16], message.drop 17, ?_, ?_, ?_⟩
  · rw [List.length_take]; omega
  · rw [List.length_take, List.length_drop]; omega
  · rw [List.append_assoc, List.append_assoc, List.singleton_append,
      List.getElem_cons_drop, ← List.drop_drop (i := 8) (j := 8), List.take_append_drop,
      List.take_append_drop]

/-- A request is got through when it is all there and its answer, if any, can be made. -/
theorem succeeds_connectionRequest (b : BinaryBuffer) (p message : Bytes) (w : World) :
    Succeeds (connectionRequest (b.between p message)) w ↔
      17 ≤ message.length ∧ (message[16]? = some 0 → w.host.company.CanAnswer 166) := by
  -- the check is for ten bytes, the three fields take seventeen
  by_cases hlen : 17 ≤ message.length
  · obtain ⟨guid, time, secure, rest, hguid, htime, rfl⟩ := exists_request_fields hlen
    have hsecure : (guid ++ (time ++ [secure]) ++ rest)[16]? = some secure := by
      simp [List.getElem?_append, hguid, htime]
    have hread := consumes_connectionRequest hguid htime secure b p rest
    rw [hsecure, and_iff_right hlen]
    unfold connectionRequest
    rw [succeeds_bind_of_ok (run_onBuffer_ok hread), succeeds_bind_of_ok (run_modifyThis _)]
    by_cases hzero : secure = 0
    · rw [if_neg (by simpa using hzero), succeeds_acceptConnection]
      exact ⟨fun h _ => h, fun h => h (congrArg some hzero)⟩
    · rw [if_pos (by simpa using hzero)]
      exact iff_of_true (succeeds_pure _ _) fun h => absurd (Option.some.inj h) hzero
  · refine iff_of_false (fun h => ?_) (by rintro ⟨h, -⟩; exact hlen h)
    obtain ⟨r, w', hrun⟩ := h.of_bind
    obtain ⟨hread, -⟩ := onBuffer_eq_ok hrun
    obtain ⟨enc, r', rfl, -, -, hk⟩ := scans_connectionRequest b p message _ _ hread
    rw [List.length_append] at hlen
    omega

/-! ## A ping -/

/-- The datagram around a reply is all that is left to do. -/
theorem succeeds_send {α : Type} {w : World} {rented : RentedBuffer} {enc : Bytes}
    (rely : FrameReliability) (hlen : 7 + enc.length < 2 ^ 64) (a : α) :
    Succeeds (readyBuffer (written rented enc) rely >>= fun out => sendTo out >>= fun _ => pure a) w ↔
      7 + enc.length ≤ w.host.company.bufferSize ∧ w.host.company.CanRent := by
  rw [succeeds_bind_iff fun out w' => ?_, succeeds_ready_written rely hlen]
  exact (succeeds_bind_iff fun _ _ => succeeds_pure _ _).mpr (succeeds_sendTo out w')

/-- A message of eight bytes is answered with a pong, if there is room. -/
theorem run_answerPing_eight {b : BinaryBuffer} {p message : Bytes} {w : World}
    {rented : RentedBuffer} (hlen : message.length = 8) (room : 16 ≤ rented.memory.length) :
    ∃ pong : ConnectedPong, (answerPing (b.between p message) (ofRented rented)).run w =
      .ok (b.between (p ++ message) [], written rented pong.bytes)
        (w.tick.flushed (written rented pong.bytes)) := by
  have hread := consumes_connectedPing hlen b p []
  rw [List.append_nil] at hread
  unfold answerPing
  rw [if_pos (by rw [between_remaining, hlen]), run_bind_of_ok (run_onBuffer_ok hread)]
  dsimp only
  rw [run_bind_of_ok run_timeSinceEpoch, run_get_bind]
  exact ⟨_, run_bind_of_ok (run_onRented (emits_connectedPong _)
    (by rw [ConnectedPong.length_bytes]; exact room) w.tick)⟩

theorem not_succeeds_answerPing_eight {b : BinaryBuffer} {p message : Bytes} {w : World}
    {rented : RentedBuffer} (hlen : message.length = 8) (room : ¬ 16 ≤ rented.memory.length) :
    ¬ Succeeds (answerPing (b.between p message) (ofRented rented)) w := by
  have hread := consumes_connectedPing hlen b p []
  rw [List.append_nil] at hread
  unfold answerPing
  rw [if_pos (by rw [between_remaining, hlen]), succeeds_bind_of_ok (run_onBuffer_ok hread),
    succeeds_bind_of_ok run_timeSinceEpoch]
  intro h
  refine not_succeeds_onRented (emits_connectedPong _) ?_ ?_ _
    ((succeeds_get_bind _ w.tick).mp h).of_bind
  · rw [ConnectedPong.length_bytes]; decide
  · rw [ConnectedPong.length_bytes]; exact room

/-- The reader of a pong throws. -/
theorem not_succeeds_answerPing_sixteen {b : BinaryBuffer} {p message : Bytes} {w : World}
    {send : BinaryBuffer} (hlen : message.length = 16) :
    ¬ Succeeds (answerPing (b.between p message) send) w := by
  have hread : (readNext ConnectedPong).run (b.between p message)
      = .error (.logicError "Unimplemented") (b.between p message) :=
    run_bind_of_ok (run_boundsCheck (show 1 ≤ 16 by decide) (Nat.le_of_eq hlen.symm))
  unfold answerPing
  rw [if_neg (by rw [between_remaining, hlen]; decide),
    if_pos (by rw [between_remaining, hlen])]
  exact not_succeeds_of_error (run_bind_of_error (run_onBuffer_error hread))

/-- A message of another length, but for sixteen, is answered with nothing. -/
theorem run_answerPing_other {b : BinaryBuffer} {p message : Bytes} {w : World}
    {rented : RentedBuffer} (h8 : message.length ≠ 8) (h16 : message.length ≠ 16) :
    (answerPing (b.between p message) (ofRented rented)).run w
      = .ok (b.between p message, written rented []) w := by
  unfold answerPing
  rw [if_neg (by rw [between_remaining]; exact h8), if_neg (by rw [between_remaining]; exact h16)]
  rfl

theorem succeeds_answer {b : BinaryBuffer} {p message : Bytes} {w : World} {rented : RentedBuffer}
    (hsize : rented.memory.length = w.host.company.bufferSize) :
    Succeeds (answerPing (b.between p message) (ofRented rented) >>= fun r =>
      readyBuffer r.2 .unreliable >>= fun out => sendTo out >>= fun _ => pure r.1) w ↔
    message.length ≠ 16 ∧ 7 + (if message.length = 8 then 16 else 0) ≤ w.host.company.bufferSize ∧
      w.host.company.CanRent := by
  by_cases h8 : message.length = 8
  · rw [if_pos h8, and_iff_right (by omega)]
    by_cases room : 16 ≤ rented.memory.length
    · obtain ⟨pong, hrun⟩ := run_answerPing_eight h8 room
      rw [succeeds_bind_of_ok hrun, succeeds_send _ (by rw [ConnectedPong.length_bytes]; decide),
        canSend_flushed, ConnectedPong.length_bytes]
      rfl
    · refine iff_of_false (fun h => not_succeeds_answerPing_eight h8 room h.of_bind) ?_
      rintro ⟨h, -⟩
      omega
  · by_cases h16 : message.length = 16
    · refine iff_of_false (fun h => not_succeeds_answerPing_sixteen h16 h.of_bind) ?_
      rintro ⟨h, -⟩
      exact h h16
    · rw [if_neg h8, and_iff_right h16, succeeds_bind_of_ok (run_answerPing_other h8 h16)]
      exact succeeds_send .unreliable (show 7 + ([] : Bytes).length < 2 ^ 64 by decide) _

/-- A ping is got through when it has not sixteen bytes and its answer can be made. -/
theorem succeeds_connectedPingPong (b : BinaryBuffer) (p message : Bytes) (w : World) :
    Succeeds (connectedPingPong (b.between p message)) w ↔ message.length ≠ 16 ∧
      w.host.company.CanAnswer (if message.length = 8 then 16 else 0) := by
  unfold connectedPingPong
  cases hrent : w.host.company.rent with
  | ok r =>
    obtain ⟨hsize, hcompany⟩ := BufferCompany.rent_eq_ok hrent
    rw [succeeds_bind_of_ok (run_rent_ok hrent), succeeds_bind_iff fun _ _ => succeeds_unhandled _ _,
      succeeds_owning, BufferCompany.canAnswer_iff hrent]
    exact succeeds_answer (hsize.trans hcompany.symm)
  | error e =>
    refine iff_of_false (not_succeeds_of_error (run_bind_of_error (run_rent_error hrent))) ?_
    rintro ⟨-, -, _, _, _, _, h, -⟩
    rw [hrent] at h
    cases h

/-! ## `process_data` -/

/-- The messages with the given id that are got through with the pool `company`. -/
def HandledMessage (company : BufferCompany) (id : Option PacketId) (message : Bytes) : Prop :=
  match id with
  | some .connectionRequest =>
    17 ≤ message.length ∧ (message[16]? = some 0 → company.CanAnswer 166)
  | some .connectedPingPong =>
    message.length ≠ 16 ∧ company.CanAnswer (if message.length = 8 then 16 else 0)
  | _ => True

/-- The payloads that `process_data` gets through with the pool `company`. -/
def Handled (company : BufferCompany) : Bytes → Prop
  | [] => False
  | id :: message => HandledMessage company (PacketId.ofByte id) message

/-- A message is got through when it is one of those handled. -/
theorem succeeds_switchData (id : UInt8) (b : BinaryBuffer) (p message : Bytes) (w : World) :
    Succeeds (switchData id (b.between p message)) w ↔
      HandledMessage w.host.company (PacketId.ofByte id) message := by
  unfold switchData HandledMessage
  generalize PacketId.ofByte id = packetId
  split
  · exact succeeds_connectionRequest b p message w
  · exact iff_of_true (succeeds_pure _ _) trivial
  · exact succeeds_connectedPingPong b p message w
  · next h₁ _ h₃ =>
    refine iff_of_true (succeeds_unhandled _ _) ?_
    split
    · exact absurd rfl h₁
    · exact absurd rfl h₃
    · trivial

/-- **`process_data` returns exactly on the payloads it handles.** -/
theorem succeeds_processData {buffer : BinaryBuffer} (h : buffer.index ≤ buffer.size) (w : World) :
    Succeeds (processData buffer) w ↔ Handled w.host.company buffer.remainingSlice := by
  have hcompany := debug_company (.onClientRecv buffer.remainingSlice)
    (w.log (.data buffer.remainingSlice))
  have hb : buffer = buffer.between buffer.consumedSlice buffer.remainingSlice := eq_between h
  unfold processData
  rw [succeeds_owning, succeeds_bind_of_ok (run_emit _)]
  refine (succeeds_bind_of_ok (run_debug _ _)).trans ?_
  cases hpayload : buffer.remainingSlice with
  | nil =>
    refine iff_of_false (fun hs => ?_) id
    obtain ⟨r, w', hrun⟩ := hs.of_bind
    obtain ⟨hread, -⟩ := onBuffer_eq_ok hrun
    rw [hb, hpayload] at hread
    obtain ⟨enc, r', henc, -, -, hk⟩ := scans_uint8 _ _ _ _ _ hread
    obtain ⟨rfl, -⟩ := List.append_eq_nil_iff.mp henc.symm
    cases hk
  | cons id message =>
    have hread := consumes_uint8 id buffer buffer.consumedSlice message
    rw [List.singleton_append, ← hpayload, ← hb] at hread
    refine (succeeds_bind_of_ok (run_onBuffer_ok hread)).trans ?_
    rw [← hpayload, succeeds_switchData]
    refine (iff_of_eq (congrArg (HandledMessage · _ _) hcompany)).trans ?_
    rw [hpayload]
    exact Iff.rfl

end Rakro
