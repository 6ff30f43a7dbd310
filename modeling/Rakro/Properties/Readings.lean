import Rakro.Infra.Oracle
import Rakro.Server.ServerClient

/-!
# What a method does with the clock

A client reads the clock in two places, and both take `server_start_time` off the reading at once.
So what a method does depends on these differences only: with another clock and another start of the
server, and the same differences, it does the same. That holds of every method and however often it
reads the clock, and it never looks at `last_packet`.
-/

namespace Rakro

open Infra

/-! ## The times of a client -/

/-- The clock, and the readings of it that a client has stored. -/
structure Times where
  clock : Clock
  lastPacket : UInt64
  serverStartTime : UInt64

/-- The answers are how long the server has been up at the readings to come. -/
def times : Oracle World Times UInt64 where
  part w := ⟨w.host.clock, w.this.lastPacket, w.this.serverStartTime⟩
  put t w :=
    { this := { w.this with lastPacket := t.lastPacket, serverStartTime := t.serverStartTime }
      host := { w.host with clock := t.clock } }
  drop k t := { t with clock := fun n => t.clock (n + k) }
  answer t i := t.clock i - t.serverStartTime
  part_put _ _ := rfl
  put_put _ _ _ := rfl
  put_part _ := rfl
  drop_zero _ := rfl
  drop_drop k l t := by
    have hclock : ∀ n, t.clock (n + l + k) = t.clock (n + (k + l)) := fun n => by
      rw [Nat.add_assoc, Nat.add_comm l k]
    exact congrArg (fun clock => { t with clock := clock }) (funext hclock)
  answer_drop k t i := by
    show t.clock (i + k) - _ = t.clock (k + i) - _
    rw [Nat.add_comm]

/-- From `w`, the method reads the clock `k` times. -/
abbrev ReadsTimes {α : Type} (m : ClientM α) (w : World) (k : Nat) : Prop := Takes times m w k

/-- From every state, the method reads the clock a number of times, and only for its differences. -/
abbrev CountsTimes {α : Type} (m : ClientM α) : Prop := Counts times m

/-- How often a method reads the clock is determined. -/
theorem ReadsTimes.unique {α : Type} {m : ClientM α} {w : World} {k l : Nat}
    (hk : ReadsTimes m w k) (hl : ReadsTimes m w l) : k = l := by
  refine Takes.unique (fun t k l hlt => ?_) hk hl
  -- a clock that goes on with something else at the reading `l`
  refine ⟨{ t with clock := fun n => if n = l then t.clock k + 1 else t.clock n }, ?_, ?_⟩
  · intro i hi
    show (if i = l then _ else _) - _ = _
    rw [if_neg (by omega)]
    rfl
  · intro hsame
    have hzero := congrFun (congrArg Times.clock hsame) 0
    change (if 0 + k = l then _ else _) = (if 0 + l = l then _ else _) at hzero
    rw [if_neg (by omega), if_pos (Nat.zero_add l), Nat.zero_add] at hzero
    have hnat := congrArg UInt64.toNat hzero
    rw [UInt64.toNat_add, show (1 : UInt64).toNat = 1 from rfl] at hnat
    have hlt := (t.clock k).toNat_lt
    omega

/-! ## The primitives -/

section Primitives

variable {α : Type}

/-- An update of the host that does not look at the clock takes no reading. -/
theorem counts_modifyHost {f : Host → Host}
    (hf : ∀ (host : Host) clock, f { host with clock } = { f host with clock }) :
    CountsTimes (modifyHost f) :=
  Counts.modify fun t w => congrArg (World.mk (times.put t w).this) (hf w.host t.clock)

theorem counts_emit (event : Event) : CountsTimes (emit event) :=
  counts_modifyHost fun _ _ => rfl

theorem counts_release (b : BinaryBuffer) : CountsTimes (release b) :=
  counts_modifyHost fun _ _ => rfl

theorem counts_debug (call : DebugCall) : CountsTimes (debug call) :=
  Counts.get_bind (fun _ _ => rfl) fun _ => Counts.ite (counts_emit _) (Counts.pure _)

theorem counts_rent : CountsTimes rent := by
  refine Counts.get_bind (fun _ _ => rfl) fun w => ?_
  split
  · exact Counts.bind (counts_modifyHost fun _ _ => rfl) fun _ => Counts.pure _
  · exact Counts.throw _

theorem counts_assert (condition : Bool) : CountsTimes (rakroAssert condition) :=
  Counts.get_bind (fun _ _ => rfl) fun _ => Counts.ite (Counts.pure _) (Counts.throw _)

theorem counts_onBuffer (b : BinaryBuffer) (m : BufM α) : CountsTimes (onBuffer b m) := by
  refine fun w => ⟨0, fun t _ => ?_⟩
  cases h : m.run b with
  | ok a b' => rw [run_onBuffer_ok h, run_onBuffer_ok h]; rfl
  | error e b' => rw [run_onBuffer_error h, run_onBuffer_error h]; rfl

theorem counts_onSendBuffer (b : BinaryBuffer) (m : BufM α) : CountsTimes (onSendBuffer b m) := by
  refine fun w => ⟨0, fun t _ => ?_⟩
  cases h : m.run b with
  | ok a b' => rw [run_onSendBuffer_ok h, run_onSendBuffer_ok h]; rfl
  | error e b' => rw [run_onSendBuffer_error h, run_onSendBuffer_error h]; rfl

/-- A guarded part counts its readings when its body does. -/
theorem counts_guarded {b : BinaryBuffer} {body : ClientM α} (hbody : CountsTimes body) :
    CountsTimes (guarded b body) := by
  intro w
  obtain ⟨k, hk⟩ := hbody w
  refine ⟨k, fun t ht => ?_⟩
  have hrun := hk t ht
  cases h : body.run w with
  | ok a w' =>
    rw [h] at hrun
    rw [run_guarded_ok hrun, run_guarded_ok h]
    rfl
  | error e w' =>
    rw [h] at hrun
    rw [run_guarded_error hrun, run_guarded_error h]
    rfl

theorem counts_owning {b : BinaryBuffer} {body : ClientM α} (hbody : CountsTimes body) :
    CountsTimes (owning b body) :=
  Counts.bind (counts_guarded hbody) fun _ => Counts.bind (counts_release b) fun _ => Counts.pure _

/-- A change of the client that leaves its two times alone and does not look at them. -/
theorem counts_modifyThis {f : RakroServerClient → RakroServerClient}
    (hf : ∀ client last start, f { client with lastPacket := last, serverStartTime := start } =
      { f client with lastPacket := last, serverStartTime := start }) :
    CountsTimes (modifyThis f) :=
  Counts.modify fun t w => congrArg (World.mk · (times.put t w).host)
    (hf w.this t.lastPacket t.serverStartTime)

/-- How long the server has been up. -/
def serverUpTime : ClientM UInt64 := do
  let now ← timeSinceEpoch
  return now - (← get).this.serverStartTime

theorem counts_serverUpTime : CountsTimes serverUpTime := Counts.ask fun _ => rfl

/-- A reading that goes into the time that the server has been up and into nothing else. -/
theorem counts_upTime {g : World → UInt64 → ClientM α}
    (hput : ∀ t w upTime, g (times.put t w) upTime = g w upTime)
    (hg : ∀ w upTime, CountsTimes (g w upTime)) :
    CountsTimes (do
      let now ← timeSinceEpoch
      let w ← get
      g w (now - w.this.serverStartTime)) := by
  have hrule : CountsTimes (do
      let upTime ← serverUpTime
      let w ← get
      g w upTime) := Counts.bind counts_serverUpTime fun upTime =>
    Counts.get_bind (fun t w => hput t w upTime) fun w => hg w upTime
  exact hrule

end Primitives

/-! ## Replies -/

theorem counts_makeHeader : CountsTimes makeHeader :=
  Counts.get_bind (fun _ _ => rfl) fun _ => Counts.pure _

theorem counts_keepSent (rely : FrameReliability) (sent : BinaryBuffer) :
    CountsTimes (keepSent rely sent) := by
  refine Counts.ite (Counts.get_bind (fun _ _ => rfl) fun _ =>
    Counts.bind (counts_modifyThis fun _ _ _ => rfl) fun _ => ?_) (counts_release _)
  exact Counts.get_bind (fun _ _ => rfl) fun _ =>
    Counts.ite (counts_release _) (counts_modifyThis fun _ _ _ => rfl)

theorem counts_readyBuffer (b : BinaryBuffer) (rely : FrameReliability) :
    CountsTimes (readyBuffer b rely) := by
  refine Counts.bind counts_rent fun _ => Counts.bind (counts_guarded ?_) fun _ =>
    Counts.bind (counts_keepSent _ _) fun _ => Counts.pure _
  refine Counts.bind counts_makeHeader fun _ => ?_
  refine Counts.bind (counts_onSendBuffer _ _) fun _ => ?_
  refine Counts.get_bind (fun _ _ => rfl) fun _ => ?_
  refine Counts.bind (counts_emit _) fun _ => ?_
  exact Counts.pure _

theorem counts_sendTo (bytes : Bytes) : CountsTimes (sendTo bytes) :=
  Counts.get_bind (fun _ _ => rfl) fun _ => Counts.bind (counts_debug _) fun _ => counts_emit _

/-- What is behind the reading of `acceptConnection`. -/
def acceptAt (packetInfo : ConnectionRequest) (w : World) (upTime : UInt64) : ClientM PUnit := do
  let response : ConnectionRequestAccepted :=
    { clientAddress := .fromIpv4 w.this.address
      clientReqTime := packetInfo.requestTimestamp
      serverUpTime := upTime }
  let sendBuffer ← rent
  owning sendBuffer do
    let (_, sendBuffer) ← onSendBuffer sendBuffer (write response)
    sendTo (← readyBuffer sendBuffer .reliable)

theorem counts_acceptConnection (packetInfo : ConnectionRequest) :
    CountsTimes (acceptConnection packetInfo) := by
  refine counts_upTime (g := acceptAt packetInfo) (fun _ _ _ => rfl) fun _ _ =>
    Counts.bind counts_rent fun _ => counts_owning ?_
  exact Counts.bind (counts_onSendBuffer _ _) fun _ => Counts.bind (counts_readyBuffer _ _)
    fun _ => counts_sendTo _

theorem counts_connectionRequest (b : BinaryBuffer) : CountsTimes (connectionRequest b) :=
  Counts.bind (counts_onBuffer _ _) fun _ => Counts.bind (counts_modifyThis fun _ _ _ => rfl)
    fun _ => Counts.ite (Counts.pure _) (counts_acceptConnection _)

/-- What is behind the reading of `answerPing`. -/
def pongAt (ping : ConnectedPing) (b sent : BinaryBuffer) (upTime : UInt64) :
    ClientM (BinaryBuffer × BinaryBuffer) := do
  let pong : ConnectedPong :=
    { timeSinceStart := ping.timeSinceStart, timeSinceServerStart := upTime }
  let (_, sent) ← onSendBuffer sent (write pong)
  pure (b, sent)

theorem counts_answerPing (b sent : BinaryBuffer) : CountsTimes (answerPing b sent) := by
  refine Counts.ite (Counts.bind (counts_onBuffer _ _) fun (ping, b') => ?_)
    (Counts.ite ?_ (Counts.pure _))
  · exact counts_upTime (g := fun _ => pongAt ping b' sent) (fun _ _ _ => rfl) fun _ _ =>
      Counts.bind (counts_onSendBuffer _ _) fun _ => Counts.pure _
  · exact Counts.bind (counts_onBuffer _ _) fun _ => Counts.bind (counts_onSendBuffer _ _)
      fun _ => Counts.pure _

theorem counts_unhandled (b : BinaryBuffer) : CountsTimes (unhandled b) :=
  Counts.get_bind (fun _ _ => rfl) fun _ => counts_debug _

theorem counts_connectedPingPong (b : BinaryBuffer) : CountsTimes (connectedPingPong b) := by
  refine Counts.bind counts_rent fun _ => Counts.bind (counts_owning ?_) fun _ =>
    counts_unhandled _
  refine Counts.bind (counts_answerPing _ _) fun _ => ?_
  refine Counts.bind (counts_readyBuffer _ _) fun _ => ?_
  refine Counts.bind (counts_sendTo _) fun _ => ?_
  exact Counts.pure _

theorem counts_switchData (packetId : UInt8) (b : BinaryBuffer) :
    CountsTimes (switchData packetId b) := by
  unfold switchData
  split
  · exact counts_connectionRequest b
  · exact Counts.pure _
  · exact counts_connectedPingPong b
  · exact counts_unhandled b

theorem counts_processData (b : BinaryBuffer) : CountsTimes (processData b) :=
  counts_owning (Counts.bind (counts_emit _) fun _ => Counts.bind (counts_debug _) fun _ =>
    Counts.bind (counts_onBuffer _ _) fun _ => counts_switchData _ _)

/-! ## Frames -/

theorem counts_orderedNext (channel : UInt8) : CountsTimes (orderedNext channel) := by
  refine Counts.get_bind (fun _ _ => rfl) fun w => ?_
  split
  · exact Counts.pure _
  · exact Counts.throw _

theorem counts_sequencedNext (channel : UInt8) : CountsTimes (sequencedNext channel) := by
  refine Counts.get_bind (fun _ _ => rfl) fun w => ?_
  split
  · exact Counts.pure _
  · exact Counts.throw _

theorem counts_bumpOrdered (channel : UInt8) : CountsTimes (bumpOrdered channel) :=
  Counts.bind (counts_orderedNext channel) fun _ => counts_modifyThis fun _ _ _ => rfl

theorem counts_setSequenced (channel : UInt8) (value : UInt32) :
    CountsTimes (setSequenced channel value) := counts_modifyThis fun _ _ _ => rfl

theorem counts_drain (channel : UInt8) : ∀ (fuel : Nat) (key : OrderKey),
    CountsTimes (drain channel fuel key)
  | 0, _ => Counts.throw _
  | fuel + 1, key => by
    refine Counts.get_bind (fun _ _ => rfl) fun w => ?_
    split
    · exact Counts.pure _
    · refine Counts.bind (counts_modifyThis fun _ _ _ => rfl) fun _ => ?_
      refine Counts.get_bind (fun _ _ => rfl) fun _ => ?_
      refine Counts.bind (counts_processData _) fun _ => ?_
      split
      · exact Counts.throw _
      · exact Counts.bind (counts_bumpOrdered channel) fun _ => counts_drain channel fuel _

theorem counts_alreadyStored (b : BinaryBuffer) (info : FrameInfo) (orderInfo : OrderInformation) :
    CountsTimes (alreadyStored b info orderInfo) := by
  refine Counts.bind (counts_debug _) fun _ => ?_
  refine Counts.bind (counts_release _) fun _ => ?_
  refine Counts.get_bind (fun _ _ => rfl) fun w => ?_
  split
  · exact Counts.ite (Counts.throw _) (Counts.pure _)
  · exact Counts.throw _

theorem counts_processOrdered (b : BinaryBuffer) (info : FrameInfo) (orderInfo : OrderInformation) :
    CountsTimes (processOrdered b info orderInfo) := by
  refine Counts.bind (counts_orderedNext _) fun _ => Counts.ite ?_ (Counts.ite ?_ ?_)
  · refine Counts.bind (counts_bumpOrdered _) fun _ => ?_
    refine Counts.bind (counts_processData b) fun _ => ?_
    refine Counts.get_bind (fun _ _ => rfl) fun _ => ?_
    refine Counts.bind (counts_drain _ _ _) fun _ => ?_
    exact Counts.pure _
  · exact Counts.bind (counts_release b) fun _ => Counts.pure _
  · refine Counts.bind (counts_setSequenced _ _) fun _ => Counts.get_bind (fun _ _ => rfl)
      fun _ => Counts.ite ?_ ?_
    · exact Counts.bind (counts_alreadyStored _ _ _) fun _ => Counts.pure _
    · exact Counts.bind (counts_modifyThis fun _ _ _ => rfl) fun _ => Counts.pure _

theorem counts_processSequenced (b : BinaryBuffer) (info : FrameInfo) (sequenceIndex : UInt24) :
    CountsTimes (processSequenced b info sequenceIndex) := by
  refine Counts.bind (counts_debug _) fun _ => Counts.bind (counts_assert _) fun _ => ?_
  split
  · exact Counts.throw _
  · refine Counts.bind (counts_sequencedNext _) fun _ => Counts.bind (counts_orderedNext _)
      fun _ => Counts.ite ?_ ?_
    · exact Counts.bind (counts_setSequenced _ _) fun _ => counts_processData b
    · exact Counts.bind (counts_debug _) fun _ => counts_release b

theorem counts_orderFrame (b : BinaryBuffer) (info : FrameInfo) :
    CountsTimes (orderFrame b info) := by
  unfold orderFrame
  split
  · exact counts_processOrdered b info _
  · exact Counts.pure _

theorem counts_processFrame (b : BinaryBuffer) (info : FrameInfo) :
    CountsTimes (processFrame b info) := by
  refine Counts.bind (counts_emit _) fun _ => ?_
  split
  · exact counts_processSequenced b info _
  · refine Counts.bind (counts_orderFrame b info) fun rest => ?_
    cases rest with
    | some b' => exact counts_processData b'
    | none => exact Counts.pure _

theorem counts_handFrame (b : BinaryBuffer) (header : FrameInfo) :
    CountsTimes (handFrame b header) :=
  Counts.ite (counts_emit _) (counts_processFrame b header)

/-! ## Datagrams -/

theorem counts_eraseAckBuffer (id : UInt24) : CountsTimes (eraseAckBuffer id) := by
  refine Counts.get_bind (fun _ _ => rfl) fun w => ?_
  split
  · exact Counts.pure _
  · exact Counts.bind (counts_modifyThis fun _ _ _ => rfl) fun _ => counts_release _

theorem counts_processAck (b : BinaryBuffer) : CountsTimes (processAck b) := by
  refine counts_owning (Counts.bind (counts_onBuffer _ _) fun (ack, _) => ?_)
  dsimp only
  cases ack.allPackets with
  | some ids => exact Counts.forM counts_eraseAckBuffer ids
  | none => exact Counts.throw _

theorem counts_frameLoop : ∀ (fuel : Nat) (b : BinaryBuffer), CountsTimes (frameLoop fuel b)
  | 0, _ => Counts.throw _
  | fuel + 1, b => by
    refine Counts.ite (Counts.bind (counts_onBuffer _ _) fun (header, b') =>
      Counts.bind (counts_emit _) fun _ => ?_) (Counts.pure _)
    split
    · exact Counts.throw _
    · exact Counts.bind (counts_handFrame _ _) fun _ => counts_frameLoop fuel _

theorem counts_advanceWindow (seq expected : UInt24) :
    CountsTimes (advanceWindow seq expected) := by
  refine Counts.bind (Counts.get_bind (fun _ _ => rfl) fun w => Counts.ite ?_ (Counts.pure _))
    fun _ => counts_modifyThis fun _ _ _ => rfl
  split
  · exact counts_modifyThis fun _ _ _ => rfl
  · exact Counts.throw _

theorem counts_processFrameSet (b : BinaryBuffer) : CountsTimes (processFrameSet b) := by
  refine Counts.bind (counts_onBuffer _ _) fun _ => Counts.get_bind (fun _ _ => rfl) fun _ =>
    Counts.ite (Counts.pure _) ?_
  exact Counts.bind (counts_advanceWindow _ _) fun _ => counts_frameLoop _ _

/-- **However a datagram is processed, only differences to the start of the server are used.** -/
theorem counts_processPacket (b : BinaryBuffer) : CountsTimes (processPacket b) := by
  refine Counts.bind (counts_guarded (counts_onBuffer _ _)) fun _ =>
    Counts.ite (counts_release _) (Counts.ite ?_ (counts_owning (counts_processFrameSet _)))
  split
  · exact Counts.bind (counts_emit _) fun _ => counts_release _
  · exact counts_processAck _
  · exact counts_release _

end Rakro
