import Rakro.Properties.Codec
import Rakro.Properties.HandlePacket
import Rakro.Properties.Rejected

/-!
# Any sixteen bytes are magic

The reader of the magic bytes takes whatever is there and hands out the constant, which its callers
drop. So of a message in front of the connection, only the place of the magic bytes has to be there:
what the handler does with a datagram is the same whichever bytes it has at that place.
-/

namespace Rakro

open Infra BinaryBuffer

/-! ## The place of the magic bytes -/

/-- Where the magic bytes of a message start, its id included. -/
def magicOffset (id : UInt8) : Option Nat :=
  match PacketId.ofByte id with
  | some .unconnectedPing1 => some 9
  | some .openConnectionRequest1 | some .openConnectionRequest2 => some 1
  | _ => none

/-- The datagram is a message with the sixteen bytes `field` where the magic ones belong. -/
structure HasAtMagic (datagram before field behind : Bytes) : Prop where
  eq : datagram = before ++ (field ++ behind)
  offset : before.head?.bind magicOffset = some before.length
  length : field.length = 16

/-- The datagrams that the server has sent, oldest first. -/
def ServerWorld.datagrams (w : ServerWorld) : List (Bytes × IPV4Addr) :=
  w.host.trace.filterMap Event.datagram?

/-- Something has been sent, or one of the two maps of addresses has changed. -/
def ActsOn (w w' : ServerWorld) : Prop :=
  w'.datagrams ≠ w.datagrams ∨ w'.this.midConnectionClients ≠ w.this.midConnectionClients ∨
    w'.this.router.connectedClients ≠ w.this.router.connectedClients

/-- Acting shows in the state. -/
theorem not_actsOn_self (w : ServerWorld) : ¬ ActsOn w w := by
  rintro (h | h | h) <;> exact h rfl

/-- What the handler answers its caller, without the buffer. -/
def handled (b : BinaryBuffer) (address : IPV4Addr) : ServerM Bool := do
  return (← handlePacket b address).1

/-! ## Reading the requests -/

/-- From `c` and from `c'`, the same is read, or the same is thrown. -/
def ReadsAlike (T : Type) [BinaryData T] (c c' : BinaryBuffer) : Prop :=
  (∃ e d d', (readNext T).run c = .error e d ∧ (readNext T).run c' = .error e d') ∨
    ∃ v d d', (readNext T).run c = .ok v d ∧ (readNext T).run c' = .ok v d'

section ReadsAlike

variable {b : BinaryBuffer} {p field field' : Bytes}

/-- With too few bytes for the size `n` that the type states, both are refused. -/
theorem readsAlike_short {T : Type} [BinaryData T] {n : Nat}
    (hsize : BinaryData.size (none : Option T) = n) (hn : n ≤ 100) (hp : p.length = 1)
    (hfield : field.length = 16) (hfield' : field'.length = 16) (front rest : Bytes)
    (hshort : front.length + (16 + rest.length) < n) :
    ReadsAlike T (b.between p (front ++ (field ++ rest)))
      (b.between p (front ++ (field' ++ rest))) := by
  subst hsize
  have hrefused : ∀ x : Bytes, x.length = 16 →
      (readNext T).run (b.between p (front ++ (x ++ rest))) =
        .error (.outOfRange "Not enough space in type") (b.between p (front ++ (x ++ rest))) := by
    intro x hx
    refine run_bind_of_error (run_boundsCheck_short ?_ (by omega))
    rwa [List.length_append, List.length_append, hx]
  exact .inl ⟨_, _, _, hrefused field hfield, hrefused field' hfield'⟩

/-- A ping reads the same with other bytes for the magic ones. -/
theorem readsAlike_ping {time : Bytes} (htime : time.length = 8) (hp : p.length = 1)
    (hfield : field.length = 16) (hfield' : field'.length = 16) (rest : Bytes) :
    ReadsAlike UnconnectedPing (b.between p (time ++ (field ++ rest)))
      (b.between p (time ++ (field' ++ rest))) := by
  by_cases hrest : 8 ≤ rest.length
  · obtain ⟨guid, rest, hguid, rfl⟩ := exists_split hrest
    have hread := consumes_unconnectedPing htime hfield hguid b p rest
    have hread' := consumes_unconnectedPing htime hfield' hguid b p rest
    simp only [List.append_assoc] at hread hread'
    exact .inr ⟨_, _, _, hread, hread'⟩
  · exact readsAlike_short (n := 32) rfl (by decide) hp hfield hfield' time rest (by omega)

theorem readsAlike_request1 (hp : p.length = 1) (hfield : field.length = 16)
    (hfield' : field'.length = 16) (rest : Bytes) :
    ReadsAlike OpenConnectionRequest1 (b.between p (field ++ rest))
      (b.between p (field' ++ rest)) := by
  by_cases hrest : 84 ≤ rest.length
  · obtain ⟨version, rest, rfl⟩ := List.exists_cons_of_length_pos (l := rest) (by omega)
    rw [List.length_cons] at hrest
    have hread := run_readRequest1 b p version hfield (r := rest) (by omega)
    have hread' := run_readRequest1 b p version hfield' (r := rest) (by omega)
    -- the MTU is the length of the datagram
    rw [show (p ++ (field' ++ version :: rest)).length = (p ++ (field ++ version :: rest)).length by
      simp only [List.length_append, hfield, hfield']] at hread'
    exact .inr ⟨_, _, _, hread, hread'⟩
  · have hshort : ([] : Bytes).length + (16 + rest.length) < 100 := by
      rw [List.length_nil]
      omega
    exact readsAlike_short (n := 100) rfl (by decide) hp hfield hfield' [] rest hshort

theorem readsAlike_request2 (hp : p.length = 1) (hfield : field.length = 16)
    (hfield' : field'.length = 16) (rest : Bytes) :
    ReadsAlike OpenConnectionRequest2 (b.between p (field ++ rest))
      (b.between p (field' ++ rest)) := by
  by_cases hrest : 17 ≤ rest.length
  · obtain ⟨tag, rest, rfl⟩ := List.exists_cons_of_length_pos (l := rest) (by omega)
    rw [List.length_cons] at hrest
    by_cases htag : tag = 4
    · subst htag
      obtain ⟨x, rest, rfl⟩ := List.exists_cons_of_length_pos (l := rest) (by omega)
      rw [List.length_cons] at hrest
      exact .inr ⟨_, _, _, run_readRequest2 b p x hfield (by omega),
        run_readRequest2 b p x hfield' (by omega)⟩
    · exact .inl ⟨_, _, _, run_readRequest2_untagged b p hfield htag (by omega),
        run_readRequest2_untagged b p hfield' htag (by omega)⟩
  · have hshort : ([] : Bytes).length + (16 + rest.length) < 33 := by
      rw [List.length_nil]
      omega
    exact readsAlike_short (n := 33) rfl (by decide) hp hfield hfield' [] rest hshort

end ReadsAlike

/-! ## Writing the replies -/

/-- Reading moves nothing but the cursor, which clearing puts back. -/
theorem clear_of_readNext {T : Type} [BinaryData T] [Codec T] {c d : BinaryBuffer} {v : T}
    (h : (readNext T).run c = .ok v d) : d.clear = c.clear := by
  have hframe := (reading_readNext T).within c
  rw [after_of_ok h] at hframe
  rw [hframe.unchanged]
  rfl

/-- Two buffers with the same behind the first `k` bytes, once they are cleared. -/
def ClearAlike (k : Nat) (c c' : BinaryBuffer) : Prop :=
  ∃ (b : BinaryBuffer) (x x' t : Bytes), x.length = k ∧ x'.length = k ∧
    c.clear = b.between [] (x ++ t) ∧ c'.clear = b.between [] (x' ++ t)

theorem drop_append_eq {x x' : Bytes} {k n : Nat} (hx : x.length = k) (hx' : x'.length = k)
    (hn : k ≤ n) (t : Bytes) : (x' ++ t).drop n = (x ++ t).drop n := by
  have hdrop : ∀ y : Bytes, y.length = k → (y ++ t).drop n = t.drop (n - k) := by
    intro y hy
    rw [List.drop_append, List.drop_eq_nil_of_le (by omega), hy, List.nil_append]
  rw [hdrop x hx, hdrop x' hx']

section ClearAlike

variable {c c' : BinaryBuffer} {w : ServerWorld} {address : IPV4Addr} {k : Nat}

theorem run_readFrom_error {α : Type} {method : BufM α} {e : Exn} {d : BinaryBuffer}
    (h : method.run c = .error e d) : (readFrom c method).run w = .error e w := by
  unfold readFrom EStateM.run at *
  rw [h]

/-- A reply that covers the bytes in which the buffers differ makes them the same. -/
theorem run_writeInto_alike {T : Type} [BinaryData T] {v : T} {enc : Bytes}
    (h : ClearAlike k c c') (hm : Emits (BinaryData.write v) enc)
    (hk : 1 ≤ k) (hcovers : k ≤ enc.length) (hsize : enc.length ≤ BinaryData.size (some v))
    (hlt : BinaryData.size (some v) ≤ 2 ^ 64) (w : ServerWorld) :
    (writeInto c'.clear (write v)).run w = (writeInto c.clear (write v)).run w := by
  obtain ⟨b, x, x', t, hx, hx', hc, hc'⟩ := h
  rw [hc, hc']
  have hlength : (x' ++ t).length = (x ++ t).length := by
    rw [List.length_append, List.length_append, hx, hx']
  by_cases hroom : BinaryData.size (some v) ≤ (x ++ t).length
  · have hwrite : ∀ room : Bytes, BinaryData.size (some v) ≤ room.length →
        (write v).run (b.between [] room) = .ok ⟨⟩ (b.between enc (room.drop enc.length)) := by
      intro room hroom
      have hold : (room.take enc.length).length = enc.length :=
        List.length_take_of_le (Nat.le_trans hsize hroom)
      have hrun := hm.writes b [] (room.take enc.length) (room.drop enc.length) hold
      rw [List.take_append_drop, List.nil_append] at hrun
      exact (run_bind_of_ok (run_boundsCheck (by omega) hroom)).trans hrun
    unfold writeInto
    rw [run_bind_of_ok (run_readFrom_ok (hwrite _ hroom)),
      run_bind_of_ok (run_readFrom_ok (hwrite _ (hlength ▸ hroom))),
      drop_append_eq hx hx' hcovers t]
  · have hshort : ∀ room : Bytes, room.length < BinaryData.size (some v) →
        (write v).run (b.between [] room) =
          .error (.outOfRange "Not enough space in type") (b.between [] room) := fun room h =>
      run_bind_of_error (run_boundsCheck_short h (by rw [List.length_nil]; omega))
    unfold writeInto
    rw [run_bind_of_error (run_readFrom_error (hshort _ (by omega))),
      run_bind_of_error (run_readFrom_error (hshort _ (by omega)))]

/-- What is written behind a request is the same, and so is all that comes after. -/
theorem run_after_readNext {T α : Type} [BinaryData T] [Codec T] (h : ReadsAlike T c c')
    {rest rest' : T × BinaryBuffer → ServerM α}
    (hrest : ∀ v d d', d.clear = c.clear → d'.clear = c'.clear →
      (rest' (v, d')).run w = (rest (v, d)).run w) :
    (readFrom c' (readNext T) >>= rest').run w = (readFrom c (readNext T) >>= rest).run w := by
  rcases h with ⟨e, d, d', hread, hread'⟩ | ⟨v, d, d', hread, hread'⟩
  · rw [run_bind_of_error (run_readFrom_error hread), run_bind_of_error (run_readFrom_error hread')]
  · rw [run_bind_of_ok (run_readFrom_ok hread), run_bind_of_ok (run_readFrom_ok hread')]
    exact hrest v d d' (clear_of_readNext hread) (clear_of_readNext hread')

theorem run_unconnectedPing_alike (hread : ReadsAlike UnconnectedPing c c')
    (hclear : ClearAlike k c c') (h1 : 1 ≤ k) (hk : k ≤ 35) :
    (unconnectedPing c' address).run w = (unconnectedPing c address).run w := by
  refine run_after_readNext hread fun _ d d' hd hd' => ?_
  dsimp only
  rw [run_get_bind, run_get_bind]
  cases w.this.serverId with
  | none => rfl
  | some serverId =>
    dsimp only
    rw [run_bind_of_ok (run_onRouter_time w), run_bind_of_ok (run_onRouter_time w),
      run_get_bind, run_get_bind, hd, hd',
      EStateM.run_bind, EStateM.run_bind]
    have hlt := serverId.length_lt
    rw [run_writeInto_alike hclear (emits_pongFields _) h1 ?_ ?_ ?_]
    all_goals simp only [size_pong, UnconnectedPong.length_bytes]
    all_goals omega

/-- The reply to a first request does not show what was in the buffer before. -/
theorem run_replyOne_alike (hclear : ClearAlike k c c') (h1 : 1 ≤ k) (hk : k ≤ 26)
    (ocr : OpenConnectionRequest1) (server : RakServer) (w : ServerWorld) :
    (writeInto c'.clear (replyOne ocr server)).run w =
      (writeInto c.clear (replyOne ocr server)).run w := by
  unfold replyOne
  split
  · exact run_writeInto_alike hclear (emits_incompatibleFields _) h1
      (hk.trans_eq (IncompatibleProtocol.length_bytes _).symm)
      (Nat.le_of_eq (IncompatibleProtocol.length_bytes _)) (show 26 ≤ 2 ^ 64 by decide) w
  · refine run_writeInto_alike hclear (emits_reply1Fields _) h1 ?_ ?_
      (show 34 ≤ 2 ^ 64 by decide) w
    · rw [OpenConnectionReply1.length_bytes]
      omega
    · rw [OpenConnectionReply1.length_bytes]
      exact (show 28 ≤ 34 by decide)

theorem run_openConnectionRequest1_alike (hread : ReadsAlike OpenConnectionRequest1 c c')
    (hclear : ClearAlike k c c') (h1 : 1 ≤ k) (hk : k ≤ 26) :
    (openConnectionRequest1 c' address).run w = (openConnectionRequest1 c address).run w := by
  refine run_after_readNext hread fun ocr d d' hd hd' => ?_
  dsimp only
  rw [run_get_bind, run_get_bind, hd, hd',
    EStateM.run_bind, EStateM.run_bind, run_replyOne_alike hclear h1 hk]

/-- Without an entry for the address, the second request is left in the buffer. -/
theorem run_openConnectionRequest2_alike (hread : ReadsAlike OpenConnectionRequest2 c c')
    (hclear : ClearAlike k c c') (h1 : 1 ≤ k) (hk : k ≤ 35) :
    (openConnectionRequest2 c' address >>= fun _ => pure true).run w =
      (openConnectionRequest2 c address >>= fun _ => pure true).run w := by
  unfold openConnectionRequest2
  rw [bind_assoc, bind_assoc]
  refine run_after_readNext hread fun request d d' hd hd' => ?_
  dsimp only
  rw [bind_assoc, bind_assoc, run_get_bind, run_get_bind]
  cases w.this.midConnectionClients.lookup address with
  | none => rfl
  | some mid =>
    dsimp only
    rw [hd, hd', EStateM.run_bind, EStateM.run_bind, EStateM.run_bind, EStateM.run_bind]
    cases (onRouter (connectClient address mid request.clientGuid w.this.instrument
        w.this.serverStartTime)).run w with
    | error e w₁ => rfl
    | ok u w₁ =>
      dsimp only
      rw [EStateM.run_bind, EStateM.run_bind, run_writeInto_alike hclear (emits_reply2Fields _) h1
        (hk.trans_eq (OpenConnectionReply2.length_bytes _).symm)
        (Nat.le_of_eq (OpenConnectionReply2.length_bytes _)) (show 35 ≤ 2 ^ 64 by decide)]

end ClearAlike

/-! ## The handler -/

section Handler

variable {b : BinaryBuffer} {address : IPV4Addr} {w : ServerWorld} {id : UInt8} {body : Bytes}

theorem run_handled (b : BinaryBuffer) (id : UInt8) (body : Bytes) (address : IPV4Addr)
    (w : ServerWorld) : (handled (b.between [] (id :: body)) address).run w =
      (match PacketId.ofByte id with
        | some .unconnectedPing1 =>
          unconnectedPing (b.between [id] body) address >>= fun _ => pure true
        | some .openConnectionRequest1 =>
          openConnectionRequest1 (b.between [id] body) address >>= fun _ => pure true
        | some .openConnectionRequest2 =>
          openConnectionRequest2 (b.between [id] body) address >>= fun _ => pure true
        | _ => pure false : ServerM Bool).run w := by
  have hread : (readNext UInt8).run (b.between [] (id :: body)) = .ok id (b.between [id] body) :=
    consumes_uint8 id b [] body
  unfold handled handlePacket
  rw [bind_assoc, run_bind_of_ok (run_readFrom_ok hread)]
  dsimp only
  cases PacketId.ofByte id with
  | none => rfl
  | some packet => cases packet <;> simp only [bind_assoc, pure_bind]

/-- Whether a datagram counts as handled makes no difference to the state. -/
theorem after_handled (b : BinaryBuffer) (address : IPV4Addr) (w : ServerWorld) :
    after (handled b address) w = after (handlePacket b address) w := by
  unfold handled
  cases h : (handlePacket b address).run w with
  | ok r w' => rw [after_bind_ok h, after_of_ok h, after_pure]
  | error e w' => rw [after_bind_error h, after_of_error h]

/-- A message that reaches behind the place of its magic bytes has them all. -/
theorem exists_hasAtMagic {n : Nat} (hoffset : magicOffset id = some (n + 1))
    (h : n + 16 ≤ body.length) :
    ∃ before field behind, HasAtMagic (id :: body) before field behind := by
  obtain ⟨front, rest, hfront, rfl⟩ := exists_split (n := n) (r := body) (by omega)
  rw [List.length_append] at h
  obtain ⟨field, behind, hfield, rfl⟩ := exists_split (n := 16) (r := rest) (by omega)
  refine ⟨id :: front, field, behind, rfl, ?_, hfield⟩
  rw [List.length_cons, hfront]
  exact hoffset

/-- A handler that does anything has got through its first read. -/
theorem succeeds_of_actsOn {T α : Type} [BinaryData T] {c : BinaryBuffer} {m : ServerM Bool}
    {rest : T × BinaryBuffer → ServerM α} {f : α → ServerM Bool}
    (hm : m.run w = ((readFrom c (readNext T) >>= rest) >>= f).run w)
    (h : ActsOn w (after m w)) : Succeeds (readNext T) c := by
  by_contra hfails
  obtain ⟨e, hrun⟩ := run_of_not_succeeds hfails
  rw [after_congr hm, bind_assoc, after_bind_error (run_readFrom_error hrun)] at h
  exact not_actsOn_self w h

/-- The size of the message covers the place of its magic bytes. -/
theorem exists_of_reads {T α : Type} [BinaryData T] {m : ServerM Bool}
    {rest : T × BinaryBuffer → ServerM α} {f : α → ServerM Bool} {n : Nat}
    (hm : m.run w = ((readFrom (b.between [id] body) (readNext T) >>= rest) >>= f).run w)
    (h : ActsOn w (after m w)) (hoffset : magicOffset id = some (n + 1))
    (hsize : n + 16 ≤ BinaryData.size (none : Option T))
    (hlt : 1 + BinaryData.size (none : Option T) ≤ 2 ^ 64) :
    ∃ before field behind, HasAtMagic (id :: body) before field behind := by
  have hread : Succeeds (readNext T) (b.between [id] body) := succeeds_of_actsOn hm h
  have hlong := length_of_succeeds_readNext (show [id].length + _ ≤ _ from hlt) hread
  exact exists_hasAtMagic hoffset (hsize.trans hlong)

/-- A datagram that is acted on has all sixteen bytes. -/
theorem exists_of_actsOn (datagram : Bytes)
    (h : ActsOn w (after (handlePacket (b.between [] datagram) address) w)) :
    ∃ before field behind, HasAtMagic datagram before field behind := by
  rw [← after_handled] at h
  cases datagram with
  | nil =>
    have hread : Succeeds (readNext UInt8) (b.between [] []) := succeeds_of_actsOn rfl h
    exact absurd (length_of_succeeds_readNext (show 0 + 1 ≤ 2 ^ 64 by decide) hread) (by decide)
  | cons id body =>
    have hrun := run_handled b id body address w
    split at hrun
    · next hid =>
      exact exists_of_reads (n := 8) hrun h (by rw [magicOffset, hid]) (show 24 ≤ 32 by decide)
        (show 1 + 32 ≤ 2 ^ 64 by decide)
    · next hid =>
      exact exists_of_reads (n := 0) hrun h (by rw [magicOffset, hid]) (show 16 ≤ 100 by decide)
        (show 1 + 100 ≤ 2 ^ 64 by decide)
    · next hid =>
      exact exists_of_reads (n := 0) hrun h (by rw [magicOffset, hid]) (show 16 ≤ 33 by decide)
        (show 1 + 33 ≤ 2 ^ 64 by decide)
    · rw [after_congr hrun, after_pure] at h
      exact absurd h (not_actsOn_self w)

/-- With other bytes in the place of the magic ones, the handler does the same. -/
theorem run_handled_alike {datagram before field behind : Bytes}
    (h : HasAtMagic datagram before field behind) (b : BinaryBuffer) {field' : Bytes}
    (hfield' : field'.length = 16) (address : IPV4Addr) (w : ServerWorld) :
    (handled (b.between [] (before ++ (field' ++ behind))) address).run w =
      (handled (b.between [] datagram) address).run w := by
  obtain ⟨rfl, hoffset, hfield⟩ := h
  cases before with
  | nil => cases hoffset
  | cons id front =>
    have hlength : magicOffset id = some (front.length + 1) := hoffset
    have hclear : ClearAlike (front.length + 17) (b.between [id] (front ++ (field ++ behind)))
        (b.between [id] (front ++ (field' ++ behind))) := by
      refine ⟨{ b with beyond := [] }, id :: (front ++ field), id :: (front ++ field'),
        behind ++ b.beyond, ?_, ?_, ?_, ?_⟩
      · rw [List.length_cons, List.length_append, hfield]
      · rw [List.length_cons, List.length_append, hfield']
      · simp [clear, between]
      · simp [clear, between]
    rw [List.cons_append, List.cons_append, run_handled, run_handled]
    unfold magicOffset at hlength
    split at hlength
    · have hfront : front.length = 8 := by simpa using hlength.symm
      rw [EStateM.run_bind, EStateM.run_bind, run_unconnectedPing_alike
        (readsAlike_ping hfront rfl hfield hfield' behind) hclear (by omega) (by omega)]
    · obtain rfl : front = [] := List.length_eq_zero_iff.mp (by simpa using hlength.symm)
      rw [List.nil_append, List.nil_append] at hclear ⊢
      rw [EStateM.run_bind, EStateM.run_bind, run_openConnectionRequest1_alike
        (readsAlike_request1 rfl hfield hfield' behind) hclear (by omega) (by simp)]
    · obtain rfl : front = [] := List.length_eq_zero_iff.mp (by simpa using hlength.symm)
      exact run_openConnectionRequest2_alike (readsAlike_request2 rfl hfield hfield' behind)
        hclear (by omega) (by simp)
    · cases hlength

/--
**Which sixteen bytes stand where the magic ones belong makes no difference to the handler.**

It sends or changes one of the maps only for a message that has sixteen bytes there, and with any
others in their place it answers the same and leaves the same state behind.
-/
theorem anyMagic (b : BinaryBuffer) (datagram : Bytes) (address : IPV4Addr) (w : ServerWorld) :
    (ActsOn w (after (handlePacket (b.between [] datagram) address) w) →
        ∃ before field behind, HasAtMagic datagram before field behind) ∧
      ∀ before field behind, HasAtMagic datagram before field behind →
        ∀ field' : Bytes, field'.length = 16 →
          (handled (b.between [] (before ++ (field' ++ behind))) address).run w =
              (handled (b.between [] datagram) address).run w ∧
            after (handlePacket (b.between [] (before ++ (field' ++ behind))) address) w =
              after (handlePacket (b.between [] datagram) address) w := by
  refine ⟨exists_of_actsOn datagram, fun before field behind h field' hfield' => ?_⟩
  have hrun := run_handled_alike h b hfield' address w
  refine ⟨hrun, ?_⟩
  rw [← after_handled, ← after_handled, after_congr hrun]

end Handler

/-- What the handler acts on has the magic bytes in their place. -/
def RequiresMagic (b : BinaryBuffer) (datagram : Bytes) (address : IPV4Addr) (w : ServerWorld) :
    Prop :=
  ActsOn w (after (handlePacket (b.between [] datagram) address) w) →
    ∃ before behind, HasAtMagic datagram before magic.toList behind

/-- A ping of zeros is answered. -/
theorem zeroPing_not_requiresMagic :
    ¬ RequiresMagic { beyond := List.replicate 7 0 } (1 :: List.replicate 32 0) {} namedServer := by
  intro h
  have hsent : (after (handlePacket (({ beyond := List.replicate 7 0 } : BinaryBuffer).between []
      (1 :: List.replicate 32 0)) {}) namedServer).datagrams ≠ namedServer.datagrams := by
    decide +kernel
  obtain ⟨before, behind, heq, hoffset, -⟩ := h (.inl hsent)
  cases before with
  | nil => cases hoffset
  | cons id front =>
    obtain ⟨rfl, hbody⟩ : 1 = id ∧ List.replicate 32 0 = front ++ (magic.toList ++ behind) :=
      List.cons.inj heq
    have hfront : front.length = 8 := by simpa [magicOffset, PacketId.ofByte] using hoffset.symm
    have hfield : ((List.replicate 32 0 : Bytes).drop 8).take 16 = magic.toList := by
      rw [hbody, List.drop_left' hfront, List.take_left' length_magic]
    exact absurd hfield (by decide)

end Rakro
