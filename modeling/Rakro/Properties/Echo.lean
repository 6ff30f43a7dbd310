import Rakro.Properties.Rejected

/-!
# The answer to a ping

The codec of a pong writes its two times and no id in front of them, so the body of the answer has
sixteen bytes where the dispatch of `process_data` looks for an id and sixteen bytes.
-/

namespace Rakro

open Infra BinaryBuffer

/-- The payload of a ping: the id and the time, the high byte first. -/
def pingPayload (t : UInt64) : Bytes :=
  PacketId.connectedPingPong.toUnderlying :: beBytes 8 t.toNat

/-- The body of the frame in a datagram, as the readers of this repository take it apart. -/
def frameBody (datagram : Bytes) : Option Bytes :=
  match readDatagram.run { bytes := datagram } with
  | .ok (_, _, body) _ => some body
  | .error _ _ => none

/-- What the dispatch takes for a pong: the id and sixteen bytes, of which the first eight are `t`. -/
def IsPong (t : UInt64) (body : Bytes) : Prop :=
  ∃ rest : Bytes, rest.length = 8 ∧
    body = PacketId.connectedPingPong.toUnderlying :: (beBytes 8 t.toNat ++ rest)

/-- The rest of the payload, if the event reports it as unhandled. -/
def Event.unhandled? : Event → Option Bytes
  | .debug (.unhandledClientPacket payload _) => some payload
  | _ => none

/-- The payloads that have been reported as unhandled, oldest first. -/
def World.unhandledPayloads (w : World) : List Bytes := w.host.trace.filterMap Event.unhandled?

/-- From `w` to `w'`, a pong with the time `t` is all that is sent, and nothing is unhandled. -/
structure Echoes (t : UInt64) (w w' : World) : Prop where
  sent : ∃ out body, w'.datagrams = w.datagrams ++ [(out, w.this.address)] ∧
    frameBody out = some body ∧ IsPong t body
  handled : w'.unhandledPayloads = w.unhandledPayloads

theorem IsPong.length_eq {t : UInt64} {body : Bytes} (h : IsPong t body) : body.length = 17 := by
  obtain ⟨rest, hrest, rfl⟩ := h
  rw [List.length_cons, List.length_append, length_beBytes, hrest]

/-- The datagram around an answer comes apart into the answer. -/
theorem frameBody_answerDatagram (w : World) {enc : Bytes} (hlen : enc.length ≤ 16) :
    frameBody (answerDatagram w enc) = some enc := by
  have hidx : ({ bytes := enc, index := enc.length } : BinaryBuffer).index ≤
      ({ bytes := enc, index := enc.length } : BinaryBuffer).size := Nat.le_refl _
  have hread := run_readDatagram_ready w .unreliable hidx
    (show enc.length < 8192 by omega)
  unfold frameBody answerDatagram
  rw [hread]
  exact congrArg some List.take_length

/-- Nothing is sent for a ping, or one pong without an id. -/
theorem effect_ping (b : BinaryBuffer) (p : Bytes) (t : UInt64) (w : World) :
    Silent w (after (processData (b.between p (pingPayload t))) w) ∨
      ∃ pong : ConnectedPong,
        SendsOne (answerDatagram w pong.bytes) w
          (after (processData (b.between p (pingPayload t))) w) := by
  have hreceived := silent_received w (pingPayload t)
  have hrelease := silent_release (b.between p (pingPayload t))
  have hafter : after (processData (b.between p (pingPayload t))) w =
      after (release (b.between p (pingPayload t)))
        (after (connectedPingPong (b.between (p ++ [0]) (beBytes 8 t.toNat)))
          (w.received (pingPayload t))) := after_processData b p 0 (beBytes 8 t.toNat) w
  rw [hafter]
  rcases effect_connectedPingPong b (p ++ [0]) (beBytes 8 t.toNat) (w.received (pingPayload t)) with
    ⟨-, hsilent⟩ | ⟨enc, henc, -, hsent⟩
  · exact .inl (IsTrans.trans _ _ _ hreceived (IsTrans.trans _ _ _ hsilent (hrelease _)))
  · rw [answerDatagram_congr hreceived.this] at hsent
    rcases henc with ⟨-, pong, rfl⟩ | ⟨hne, -, -⟩
    · exact .inr ⟨pong, (hsent.before hreceived).behind (hrelease _)⟩
    · exact absurd (length_beBytes 8 _) hne

/-- **No ping is echoed, whatever its time is and whatever state the client is in.** -/
theorem not_echoes (b : BinaryBuffer) (p : Bytes) (t : UInt64) (w : World) :
    ¬ Echoes t w (after (processData (b.between p (pingPayload t))) w) := by
  rintro ⟨⟨out, body, hout, hbody, hpong⟩, -⟩
  rcases effect_ping b p t w with hsilent | ⟨pong, hsent⟩
  · have hlength := congrArg List.length (hout.symm.trans hsilent.datagrams)
    rw [List.length_append, List.length_singleton] at hlength
    omega
  · have hsame := List.append_cancel_left (hout.symm.trans hsent.datagrams)
    cases hsame
    rw [frameBody_answerDatagram w (Nat.le_of_eq pong.length_bytes)] at hbody
    cases hbody
    have hlength := hpong.length_eq
    rw [pong.length_bytes] at hlength
    omega

/-- A client with a debugger, and a pool of two buffers with room for the answer to a ping. -/
def watched : World where
  this := { lastPacket := 0, debugger := some {} }
  host := { company := .new 2 23 1 }

/-- The answer to the time 1 has no id and another time, and the ping counts as unhandled. -/
theorem not_echoes_one :
    (after (processData { bytes := pingPayload 1 }) watched).datagrams.map (frameBody ·.1) =
        [some [0, 0, 0, 1, 0, 0, 0, 0, 0, 0, 0, 0, 0, 0, 0, 0]] ∧
      (after (processData { bytes := pingPayload 1 }) watched).unhandledPayloads = [[]] ∧
      ¬ Echoes 1 watched (after (processData { bytes := pingPayload 1 }) watched) := by
  have hunhandled :
      (after (processData { bytes := pingPayload 1 }) watched).unhandledPayloads = [[]] := by
    decide +kernel
  refine ⟨by decide +kernel, hunhandled, fun h => ?_⟩
  have hnone : [[]] = ([] : List Bytes) := hunhandled.symm.trans h.handled
  cases hnone

end Rakro
