import Rakro.Properties.OrderChannels
import Rakro.Properties.SequencedDelivery

/-!
# The lanes of a client

The order channels of a client share a map, whose keys pack the channel and the position. Below 32
channels and 24 bits of position the keys of two channels never meet, so each channel has a lane of
its own: two counters and the packets stored for its positions.

A frame acts on the lane of its channel, by what it finds there. What the channels do share is the
pool that `process_data` rents from.
-/

namespace Rakro

open Infra BinaryBuffer

/-! ## Lanes -/

/-- A channel that exists. -/
abbrev Channel := {c : UInt8 // c.toNat < maxOrderChannels}

/-- The position `index` of a channel. -/
def orderOn (c : Channel) (index : UInt24) : OrderInformation where
  orderFrameIndex := index
  orderChannel := c.val

/-- What a client keeps for one channel. -/
@[ext] structure Lane where
  next : UInt32
  sequenced : UInt32
  stored : UInt24 → Option PacketInformation

/-- The lane of a channel. -/
def World.lane : World → Channel → Lane
  | w, ⟨c, hc⟩ =>
    { next := w.this.orderedBufferNextPackets[c.toNat]
      sequenced := w.this.sequencedPacketsNextPacket[c.toNat]
      stored := fun index =>
        if index.toNat < 2 ^ 24 then
          w.this.outOfOrderPacketBuffer.lookup (orderOn ⟨c, hc⟩ index).key
        else none }

section Lane

variable {w w' : World} {c d : Channel} {index index' : UInt24}

/-- An order on a channel is a position. -/
theorem isPosition_orderOn (h : index.Canonical) : (orderOn c index).IsPosition := ⟨c.property, h⟩

/-- The keys of two channels never meet. -/
theorem key_ne_of_channel (hne : d ≠ c) (h : index.Canonical) (h' : index'.Canonical) :
    (orderOn d index').key ≠ (orderOn c index).key := by
  intro hkey
  have heq := (isPosition_orderOn h').eq_of_key (isPosition_orderOn h) hkey
  exact hne (Subtype.ext (congrArg OrderInformation.orderChannel heq))

/-- On a channel, other indices have other keys. -/
theorem key_ne_of_index (hne : index' ≠ index) (h : index.Canonical) (h' : index'.Canonical) :
    (orderOn c index').key ≠ (orderOn c index).key := by
  intro hkey
  have heq := (isPosition_orderOn h').eq_of_key (isPosition_orderOn h) hkey
  exact hne (congrArg OrderInformation.orderFrameIndex heq)

theorem val_toNat_ne (hne : d ≠ c) : c.val.toNat ≠ d.val.toNat :=
  fun h => hne (Subtype.ext (UInt8.toNat_inj.mp h.symm))

/-- A lane stores what the client stores under the key. -/
theorem stored_lane (h : index.Canonical) (w : World) :
    (w.lane c).stored index = w.this.outOfOrderPacketBuffer.lookup (orderOn c index).key := if_pos h

/-- A lane shows the counters and the stored packets only. -/
theorem lane_congr (hordered : w'.this.orderedBufferNextPackets = w.this.orderedBufferNextPackets)
    (hsequenced : w'.this.sequencedPacketsNextPacket = w.this.sequencedPacketsNextPacket)
    (hstored : w'.this.outOfOrderPacketBuffer = w.this.outOfOrderPacketBuffer) (c : Channel) :
    w'.lane c = w.lane c := by
  obtain ⟨c, hc⟩ := c
  unfold World.lane
  simp only [hordered, hsequenced, hstored]

/-- An answer changes no lane. -/
theorem Answers.lane (h : Answers w w') (c : Channel) : w'.lane c = w.lane c :=
  lane_congr h.ordered h.sequenced h.stored c

/-- A payload that is processed changes no lane. -/
theorem lane_processData (b : BinaryBuffer) (w : World) (c : Channel) :
    (after (processData b) w).lane c = w.lane c := (processData_answers b w).lane c

/-! ### What changes one -/

theorem lane_bumped (w : World) (c : Channel) :
    (w.bumped c.val c.property).lane c = { w.lane c with next := (w.lane c).next + 1 } := by
  obtain ⟨c, hc⟩ := c
  ext1
  · exact bumped_next w hc
  · rfl
  · rfl

theorem lane_setSequenced (w : World) (c : Channel) (value : UInt32) :
    (after (setSequenced c.val value) w).lane c = { w.lane c with sequenced := value } := by
  obtain ⟨c, hc⟩ := c
  ext1
  · rfl
  · exact Vector.getElem_setIfInBounds_self _
  · rfl

/-- The packets of a lane with another one, or none, at a position. -/
def Lane.put (lane : Lane) (index : UInt24) (packet : Option PacketInformation) : Lane :=
  { lane with stored := fun i => if i = index then packet else lane.stored i }

/-- A map that has been changed at the key of a position only. -/
theorem stored_put {packet : Option PacketInformation} (h : index.Canonical)
    (hsame : w'.this.outOfOrderPacketBuffer.lookup (orderOn c index).key = packet)
    (hother : ∀ key, key ≠ (orderOn c index).key →
      w'.this.outOfOrderPacketBuffer.lookup key = w.this.outOfOrderPacketBuffer.lookup key) :
    (w'.lane c).stored = ((w.lane c).put index packet).stored := by
  funext i
  show (if i.toNat < 2 ^ 24 then _ else none) =
    if i = index then packet else if i.toNat < 2 ^ 24 then _ else none
  by_cases hi : i.toNat < 2 ^ 24
  · rw [if_pos hi, if_pos hi]
    by_cases heq : i = index
    · rw [if_pos heq, heq]
      exact hsame
    · rw [if_neg heq]
      exact hother _ (key_ne_of_index heq h hi)
  · rw [if_neg hi, if_neg hi, if_neg fun heq : i = index => hi (heq ▸ h)]

/-- No other channel sees such a change. -/
theorem stored_off (h : index.Canonical) (hother : ∀ key, key ≠ (orderOn c index).key →
      w'.this.outOfOrderPacketBuffer.lookup key = w.this.outOfOrderPacketBuffer.lookup key)
    (hne : d ≠ c) : (w'.lane d).stored = (w.lane d).stored := by
  funext i
  show (if i.toNat < 2 ^ 24 then _ else none) = if i.toNat < 2 ^ 24 then _ else none
  split
  · next hi => exact hother _ (key_ne_of_channel hne h hi)
  · rfl

theorem lane_taken (w : World) (c : Channel) (h : index.Canonical) :
    (w.taken (orderOn c index).key).lane c = (w.lane c).put index none := by
  ext1
  · rfl
  · rfl
  · exact stored_put h (AList.lookup_erase _ _) fun _ => AList.lookup_erase_ne

theorem lane_inserted (w : World) (c : Channel) (h : index.Canonical) (b : BinaryBuffer)
    (info : FrameInfo) : (w.inserted b info (orderOn c index)).lane c =
      (w.lane c).put index (some { rawData := b, packetInfo := info }) := by
  ext1
  · rfl
  · rfl
  · exact stored_put h (AList.lookup_insert _) fun _ => AList.lookup_insert_ne

end Lane

/-! ## Staying on a lane -/

/-- All lanes but that of `c` are as before, and so is what the debug instrument and the build do. -/
structure Around (c : Channel) (w w' : World) : Prop where
  lanes : ∀ d, d ≠ c → w'.lane d = w.lane d
  debugger : w'.this.debugger = w.this.debugger
  ndebug : w'.host.ndebug = w.host.ndebug

instance (c : Channel) : IsPreorder World (Around c) where
  refl _ := ⟨fun _ _ => rfl, rfl, rfl⟩
  trans _ _ _ h h' :=
    ⟨fun d hd => (h'.1 d hd).trans (h.1 d hd), h'.2.trans h.2, h'.3.trans h.3⟩

/-- Among the states in which packets are stored by key, `m` stays on the lane of `c`. -/
abbrev StaysOn {α : Type} (c : Channel) (m : ClientM α) : Prop :=
  Maintains World.StoresByKey (Around c) (fun _ => True) m

section StaysOn

variable {α : Type} {c : Channel} {index : UInt24}

/-- An answer leaves the other lanes alone. -/
theorem Answers.around {w w' : World} (h : Answers w w') (c : Channel) : Around c w w' :=
  ⟨fun d _ => h.lane d, h.debugger, h.ndebug⟩

theorem StaysOn.of_answers {m : ClientM α} (h : Within Answers m) : StaysOn c m :=
  fun w hw => ⟨(h w).storesByKey hw, (h w).around c, fun _ _ _ => trivial⟩

theorem staysOn_processData (b : BinaryBuffer) : StaysOn c (processData b) := by
  intro w hw
  have hans := processData_answers b w
  exact ⟨hans.storesByKey (storesByKey_of_eq hw rfl), ⟨fun d _ => hans.lane d, hans.debugger,
    hans.ndebug⟩, fun _ _ _ => trivial⟩

theorem staysOn_bumpOrdered : StaysOn c (bumpOrdered c.val) := by
  intro w hw
  rw [after_of_ok (run_bumpOrdered c.property w)]
  refine ⟨storesByKey_of_eq hw rfl, ⟨fun d hd => ?_, rfl, rfl⟩, fun _ _ _ => trivial⟩
  exact Lane.ext (Vector.getElem_setIfInBounds_ne _ (val_toNat_ne hd)) rfl rfl

theorem staysOn_setSequenced (value : UInt32) : StaysOn c (setSequenced c.val value) := by
  intro w hw
  refine ⟨storesByKey_of_eq hw rfl, ⟨fun d hd => ?_, rfl, rfl⟩, fun _ _ _ => trivial⟩
  exact Lane.ext rfl (Vector.getElem_setIfInBounds_ne _ (val_toNat_ne hd)) rfl

theorem staysOn_taken (h : index.Canonical) :
    StaysOn c (modifyThis fun client => { client with
      outOfOrderPacketBuffer := client.outOfOrderPacketBuffer.erase (orderOn c index).key }) := by
  intro w hw
  refine ⟨hw.taken _, ⟨fun d hd => ?_, rfl, rfl⟩, fun _ _ _ => trivial⟩
  exact Lane.ext rfl rfl (stored_off h (fun _ => AList.lookup_erase_ne) hd)

theorem staysOn_inserted {b : BinaryBuffer} {info : FrameInfo} (hstart : b.index = 0)
    (horder : info.orderInfo = some (orderOn c index)) (h : index.Canonical) :
    StaysOn c (modifyThis fun client => { client with
      outOfOrderPacketBuffer := client.outOfOrderPacketBuffer.insert (orderOn c index).key
        { rawData := b, packetInfo := info } }) := by
  intro w hw
  refine ⟨hw.inserted hstart horder (isPosition_orderOn h), ⟨fun d hd => ?_, rfl, rfl⟩,
    fun _ _ _ => trivial⟩
  exact Lane.ext rfl rfl (stored_off h (fun _ => AList.lookup_insert_ne) hd)

/-- The loop over stored packets goes from a key of the channel to a key of the channel. -/
theorem staysOn_drain (h : index.Canonical) :
    ∀ fuel, StaysOn c (drain c.val fuel (orderOn c index).key)
  | 0 => Maintains.throw trivial
  | fuel + 1 => by
    unfold drain
    refine Maintains.get_bind fun w hw => ?_
    split
    · exact Maintains.pure _
    · next val hval =>
      obtain ⟨order, horder, hposition, hkey⟩ := (hw _ _ hval).order
      obtain rfl : order = orderOn c index := hposition.eq_of_key (isPosition_orderOn h) hkey
      rw [horder]
      refine Maintains.bind (staysOn_taken h) fun _ => ?_
      refine Maintains.get_bind  fun w' _ => ?_
      refine Maintains.bind (staysOn_processData _) fun _ => ?_
      exact Maintains.bind staysOn_bumpOrdered fun _ => staysOn_drain h fuel

/-- An ordered frame stays on its channel. -/
theorem staysOn_processOrdered {b : BinaryBuffer} {info : FrameInfo} (hstart : b.index = 0)
    (horder : info.orderInfo = some (orderOn c index)) (h : index.Canonical) :
    StaysOn c (processOrdered b info (orderOn c index)) := by
  have hnext : StaysOn c (orderedNext c.val) := StaysOn.of_answers (within_orderedNext _)
  refine Maintains.bind hnext fun next => Maintains.ite ?_ (Maintains.ite ?_ ?_)
  · refine Maintains.bind staysOn_bumpOrdered fun _ => ?_
    refine Maintains.bind (staysOn_processData b) fun _ => ?_
    refine Maintains.get_bind  fun w _ => ?_
    refine Maintains.bind (staysOn_drain h _) fun _ => ?_
    exact Maintains.pure _
  · exact Maintains.bind (StaysOn.of_answers (within_release b)) fun _ => Maintains.pure _
  · refine Maintains.bind (staysOn_setSequenced 0) fun _ => Maintains.get_bind fun w _ =>
      Maintains.ite ?_ ?_
    · exact Maintains.bind (StaysOn.of_answers (within_alreadyStored b info _)) fun _ =>
        Maintains.pure _
    · exact Maintains.bind (staysOn_inserted hstart horder h) fun _ => Maintains.pure _

theorem staysOn_processSequenced {b : BinaryBuffer} {info : FrameInfo}
    (horder : info.orderInfo = some (orderOn c index)) (number : UInt24) :
    StaysOn c (processSequenced b info number) := by
  unfold processSequenced
  rw [horder]
  refine Maintains.bind (StaysOn.of_answers (within_debug _)) fun _ => ?_
  refine Maintains.bind (StaysOn.of_answers (within_rakroAssert _)) fun _ => ?_
  refine Maintains.bind (StaysOn.of_answers (within_sequencedNext _)) fun _ => ?_
  refine Maintains.bind (StaysOn.of_answers (within_orderedNext _)) fun _ => ?_
  refine Maintains.ite ?_ ?_
  · exact Maintains.bind (staysOn_setSequenced _) fun _ => staysOn_processData b
  · exact Maintains.bind (StaysOn.of_answers (within_debug _)) fun _ =>
      StaysOn.of_answers (within_release b)

/-- A frame stays on the lane of its channel, however its processing ends. -/
theorem staysOn_processFrame {b : BinaryBuffer} {info : FrameInfo} (hstart : b.index = 0)
    (horder : info.orderInfo = some (orderOn c index)) (h : index.Canonical) :
    StaysOn c (processFrame b info) := by
  have hemit : StaysOn c (emit (.frame info b.bytes)) := fun w hw =>
    ⟨storesByKey_of_eq hw rfl, ⟨fun _ _ => rfl, rfl, rfl⟩, fun _ _ _ => trivial⟩
  unfold processFrame orderFrame
  rw [horder]
  refine Maintains.bind hemit fun _ => ?_
  cases info.sequenceFrameIndex with
  | some number => exact staysOn_processSequenced horder number
  | none =>
    refine Maintains.bind (staysOn_processOrdered hstart horder h) fun r => ?_
    cases r with
    | some packetData => exact staysOn_processData packetData
    | none => exact Maintains.pure _

end StaysOn

/-! ## What is handed over -/

/-- What a frame has `process_data` see: its own payload, or a stored packet. -/
inductive Passed
  | own
  | stored (packet : PacketInformation)
  deriving DecidableEq, Repr

/-- The payload that is seen. A stored packet shows what its memory holds by then. -/
inductive Passed.Shows (b : BinaryBuffer) : Passed → Bytes → Prop
  | own : Shows b own b.remainingSlice
  | stored (packet : PacketInformation) (company : BufferCompany) :
    Shows b (stored packet) (packet.rawData.reload company).remainingSlice

/-- Between the two states, `passed` is passed to `process_data`, in this order and nothing else. -/
def Gives (b : BinaryBuffer) (passed : List Passed) (w w' : World) : Prop :=
  ∃ payloads, List.Forall₂ (Passed.Shows b) passed payloads ∧
    w'.delivered = w.delivered ++ payloads

/--
From `w`, all of `passed` is handed over, unless a call of `process_data` throws: then nothing comes
behind it.
-/
structure HandsOver {α : Type} (b : BinaryBuffer) (passed : List Passed) (m : ClientM α)
    (w : World) : Prop where
  returned : ∀ a w', m.run w = .ok a w' → Gives b passed w w'
  thrown : ∀ e w', m.run w = .error e w' → ∃ init last, init ++ [last] <+: passed ∧
    Gives b (init ++ [last]) w w' ∧ ∃ b' w₀, (processData b').run w₀ = .error e w'

section HandsOver

variable {α β : Type} {b : BinaryBuffer} {l l' : List Passed} {m : ClientM α} {w w' w'' : World}

theorem Gives.nil (h : w'.delivered = w.delivered) : Gives b [] w w' :=
  ⟨[], .nil, by rw [h, List.append_nil]⟩

theorem Gives.append (h : Gives b l w w') (h' : Gives b l' w' w'') : Gives b (l ++ l') w w'' := by
  obtain ⟨payloads, hshows, hdelivered⟩ := h
  obtain ⟨payloads', hshows', hdelivered'⟩ := h'
  refine ⟨payloads ++ payloads', List.rel_append hshows hshows', ?_⟩
  rw [hdelivered', hdelivered, List.append_assoc]

theorem HandsOver.bind {f : α → ClientM β} (hm : HandsOver b l m w)
    (hf : ∀ a w', m.run w = .ok a w' → HandsOver b l' (f a) w') :
    HandsOver b (l ++ l') (m >>= f) w := by
  cases hrun : m.run w with
  | ok a w' =>
    have hfirst := hm.returned a w' hrun
    refine ⟨fun a' w'' h => ?_, fun e w'' h => ?_⟩
    · rw [run_bind_of_ok hrun] at h
      exact hfirst.append ((hf a w' hrun).returned a' w'' h)
    · rw [run_bind_of_ok hrun] at h
      obtain ⟨init, last, hprefix, hgives, hdata⟩ := (hf a w' hrun).thrown e w'' h
      refine ⟨l ++ init, last, ?_, ?_, hdata⟩
      · rw [List.append_assoc]
        exact (List.prefix_append_right_inj l).mpr hprefix
      · rw [List.append_assoc]
        exact hfirst.append hgives
  | error e w' =>
    obtain ⟨init, last, hprefix, hgives, hdata⟩ := hm.thrown e w' hrun
    refine ⟨fun a' w'' h => ?_, fun e' w'' h => ?_⟩
    · cases (run_bind_of_error hrun).symm.trans h
    · cases (run_bind_of_error hrun).symm.trans h
      exact ⟨init, last, hprefix.trans (List.prefix_append l l'), hgives, hdata⟩

/-- What has been run before may have done anything but deliver. -/
theorem HandsOver.of_run {n : ClientM α} (hrun : m.run w = n.run w')
    (hdelivered : w'.delivered = w.delivered) (h : HandsOver b l n w') : HandsOver b l m w := by
  refine ⟨fun a w'' hok => ?_, fun e w'' herror => ?_⟩
  · exact (Gives.nil hdelivered).append (h.returned a w'' (hrun.symm.trans hok))
  · obtain ⟨init, last, hprefix, hgives, hdata⟩ := h.thrown e w'' (hrun.symm.trans herror)
    exact ⟨init, last, hprefix, (Gives.nil hdelivered).append hgives, hdata⟩

/-- A part that delivers nothing hands nothing over. -/
theorem HandsOver.of_ok {a : α} (hrun : m.run w = .ok a w')
    (hdelivered : w'.delivered = w.delivered) : HandsOver b [] m w := by
  refine ⟨fun a' w'' h => ?_, fun e w'' h => ?_⟩
  · cases hrun.symm.trans h
    exact .nil hdelivered
  · cases hrun.symm.trans h

/-- A payload is handed over once. -/
theorem handsOver_processData {b' : BinaryBuffer} {p : Passed} (h : p.Shows b b'.remainingSlice)
    (w : World) : HandsOver b [p] (processData b') w := by
  have hgives : Gives b [p] w (after (processData b') w) :=
    ⟨[b'.remainingSlice], .cons h .nil, delivered_processData b' w⟩
  refine ⟨fun a w' hok => ?_, fun e w' herror => ?_⟩
  · rw [after_of_ok hok] at hgives
    exact hgives
  · rw [after_of_error herror] at hgives
    exact ⟨[], p, List.prefix_refl _, hgives, b', w, herror⟩

theorem shows_movedFrom (b : BinaryBuffer) : Passed.own.Shows b b.movedFrom.remainingSlice := .own

end HandsOver

/-! ## Verdicts -/

/-- What `process_frame` does with a frame. One that is not passed on, stored or refused is dropped. -/
structure Verdict where
  passed : List Passed := []
  stores : Bool := false
  thrown : Option Exn := none

/-- What the loop over stored packets hands over behind the frame `index`. -/
def Lane.behind (lane : Lane) (index : UInt24) : List Passed :=
  (lane.stored index).toList.map .stored

/-- The lane behind that loop. -/
def Lane.drained (lane : Lane) (index : UInt24) : Lane :=
  match lane.stored index with
  | none => lane
  | some _ => { lane.put index none with next := lane.next + 1 }

/-- A frame of a channel, as the frame loop hands it on. -/
structure LaneFrame (c : Channel) extends ChannelFrame c.val where
  position : index.Canonical
  start : buffer.index = 0

namespace LaneFrame

variable {c d : Channel}

/-- What is stored of the frame when it comes early. -/
def packet (a : LaneFrame c) : PacketInformation := { rawData := a.buffer, packetInfo := a.info }

/-- The exception for a frame that is stored already. -/
def message (a : LaneFrame c) : Exn := alreadyStored.message (orderOn c a.index)

/-- A sequenced frame that is neither below the count nor behind the turn. -/
def IsCurrent (a : LaneFrame c) (number : UInt24) (lane : Lane) : Prop :=
  lane.sequenced ≤ number.getValue ∧ lane.next ≤ a.index.getValue

instance (a : LaneFrame c) (number : UInt24) (lane : Lane) : Decidable (a.IsCurrent number lane) :=
  inferInstanceAs (Decidable (_ ∧ _))

/-- A frame that is stored already is refused, unless the debug instrument lets it go. -/
def refuses (a : LaneFrame c) : Option DebugInstrument → Bool
  | some debugger => debugger.unexpectedExistOfDataInOofBuffer a.buffer.bytes a.info
  | none => true

/-- What is done with a frame on a lane. -/
def verdict (a : LaneFrame c) (lane : Lane) (debugger : Option DebugInstrument) (ndebug : Bool) :
    Verdict :=
  match a.info.sequenceFrameIndex with
  | some number =>
    if ndebug = false then { thrown := some .assertion }
    else if a.IsCurrent number lane then
      { passed := [.own] }
    else {}
  | none =>
    if lane.next = a.index.getValue then
      { passed := [.own] ++ (lane.behind a.index ++ [.own]) }
    else if a.index.getValue < lane.next then {}
    else
      match lane.stored a.index with
      | none => { passed := [.own], stores := true }
      | some _ => if a.refuses debugger then { thrown := some a.message } else {}

/-- The lane behind a frame that is got through. -/
def step (a : LaneFrame c) (lane : Lane) : Lane :=
  match a.info.sequenceFrameIndex with
  | some number =>
    if a.IsCurrent number lane then
      { lane with sequenced := number.getValue + 1 }
    else lane
  | none =>
    if lane.next = a.index.getValue then
      { lane with next := lane.next + 1 }.drained a.index
    else if a.index.getValue < lane.next then lane
    else
      match lane.stored a.index with
      | none => { lane.put a.index (some a.packet) with sequenced := 0 }
      | some _ => { lane with sequenced := 0 }

/-- The verdict on the frame in the state `w`. -/
def verdictIn (a : LaneFrame c) (w : World) : Verdict :=
  a.verdict (w.lane c) w.this.debugger w.host.ndebug

/-- The packet under the position of the frame. -/
def storedIn (a : LaneFrame c) (w : World) : Option PacketInformation := (w.lane c).stored a.index

/-- In the state `w`, the frame is processed as `v` says, and takes its lane to `lane`. -/
structure Acts (a : LaneFrame c) (w : World) (v : Verdict) (lane : Lane) : Prop where
  hands : v.thrown = none → HandsOver a.buffer v.passed a.arrive w
  throws : ∀ e, v.thrown = some e →
    ∃ w', a.arrive.run w = .error e w' ∧ w'.delivered = w.delivered
  stores : v.stores = true → a.storedIn (after a.arrive w) = some a.packet
  unstored : v.stores = false → ∀ packet, a.storedIn (after a.arrive w) = some packet →
    a.storedIn w = some packet
  lane : Succeeds a.arrive w → (after a.arrive w).lane c = lane

section Acts

variable {a : LaneFrame c} {w w' : World} {lane : Lane} {number : UInt24}

/-- A frame that is refused before anything is delivered. -/
theorem Acts.of_error {e : Exn} (hrun : a.arrive.run w = .error e w')
    (hdelivered : w'.delivered = w.delivered) (hstored : a.storedIn w' = a.storedIn w) :
    a.Acts w { thrown := some e } lane := by
  refine ⟨nofun, ?_, nofun, fun _ packet => ?_, fun h => absurd h (not_succeeds_of_error hrun)⟩
  · rintro _ ⟨⟩
    exact ⟨w', hrun, hdelivered⟩
  · rw [after_of_error hrun, hstored]
    exact id

/-- A frame that is dropped. -/
theorem Acts.of_dropped {u : PUnit} (hrun : a.arrive.run w = .ok u w')
    (hdelivered : w'.delivered = w.delivered) (hstored : a.storedIn w' = a.storedIn w)
    (hlane : w'.lane c = lane) : a.Acts w {} lane := by
  refine ⟨fun _ => .of_ok hrun hdelivered, nofun, nofun, fun _ packet => ?_, fun _ => ?_⟩
  · rw [after_of_ok hrun, hstored]
    exact id
  · rw [after_of_ok hrun, hlane]

theorem delivered_of_answers (h : Answers (a.entered w) w') : w'.delivered = w.delivered :=
  h.delivered.trans (a.delivered_entered w)

theorem lane_of_answers (h : Answers (a.entered w) w') : w'.lane c = w.lane c := h.lane c

theorem storedIn_of_answers (h : Answers (a.entered w) w') : a.storedIn w' = a.storedIn w :=
  congrArg (fun lane : Lane => lane.stored a.index) (lane_of_answers h)

/-! ### Sequenced frames -/

/-- With assertions on, a sequenced frame stops at one. -/
theorem acts_assertion (hdebug : w.host.ndebug = false)
    (hseq : a.info.sequenceFrameIndex = some number) :
    a.Acts w { thrown := some .assertion } lane := by
  have hans := within_debug
    (.warningLog "Recived a sequenced packet, this implementation is not sound and may break")
    (a.entered w)
  have hrun : a.arrive.run w = .error .assertion (after (debug (.warningLog
      "Recived a sequenced packet, this implementation is not sound and may break"))
        (a.entered w)) := by
    unfold ChannelFrame.arrive processFrame
    rw [run_bind_of_ok (run_emit _), hseq]
    unfold processSequenced
    change (_ : ClientM PUnit).run (a.entered w) = _
    rw [run_bind_of_ok (run_debug _ _),
      run_bind_of_error (run_rakroAssert_fails (hans.ndebug.trans hdebug))]
  exact .of_error hrun (delivered_of_answers hans) (storedIn_of_answers hans)

/-- A sequenced frame that is current is passed on, with the count moved behind it. -/
theorem run_arrive_current (hdebug : w.host.ndebug = true)
    (hseq : a.info.sequenceFrameIndex = some number) (h : a.IsCurrent number (w.lane c)) :
    ∃ w', w'.delivered = w.delivered ∧
      w'.lane c = { w.lane c with sequenced := number.getValue + 1 } ∧
      a.arrive.run w = (processData a.buffer).run w' := by
  obtain ⟨w', hans, hrun⟩ := a.run_arrive_sequenced c.property hdebug hseq
  rw [if_pos (show ChannelFrame.Current _ _ _ w from h), run_bind_of_ok (run_setSequenced _ _)]
    at hrun
  have hdelivered := delivered_of_answers hans
  refine ⟨after (setSequenced c.val (number.getValue + 1)) w', hdelivered, ?_, hrun⟩
  rw [lane_setSequenced, lane_of_answers hans]

/-- Any other is dropped. -/
theorem run_arrive_superseded (hdebug : w.host.ndebug = true)
    (hseq : a.info.sequenceFrameIndex = some number) (h : ¬ a.IsCurrent number (w.lane c)) :
    ∃ w', Answers (a.entered w) w' ∧ a.arrive.run w = .ok ⟨⟩ w' := by
  obtain ⟨w', hans, hrun⟩ := a.run_arrive_sequenced c.property hdebug hseq
  rw [if_neg (show ¬ ChannelFrame.Current _ _ _ w from h), run_bind_of_ok (run_debug _ w')] at hrun
  obtain ⟨w₁, hans₁, hrun⟩ : ∃ w₁, Answers w' w₁ ∧ a.arrive.run w = (release a.buffer).run w₁ :=
    ⟨_, within_debug _ w', hrun⟩
  exact ⟨after (release a.buffer) w₁,
    IsTrans.trans _ _ _ hans (IsTrans.trans _ _ _ hans₁ (within_release a.buffer w₁)), hrun⟩

/-- A sequenced frame that is current is passed on and moves its counter. -/
theorem acts_current (hdebug : w.host.ndebug = true)
    (hseq : a.info.sequenceFrameIndex = some number) (h : a.IsCurrent number (w.lane c)) :
    a.Acts w { passed := [.own] } { w.lane c with sequenced := number.getValue + 1 } := by
  obtain ⟨w', hdelivered, hlane, hrun⟩ := a.run_arrive_current hdebug hseq h
  have hafter : (after a.arrive w).lane c = { w.lane c with sequenced := number.getValue + 1 } := by
    rw [after_congr hrun, lane_processData, hlane]
  refine ⟨fun _ => .of_run hrun hdelivered (handsOver_processData .own _), nofun, nofun,
    fun _ packet => ?_, fun _ => hafter⟩
  unfold storedIn
  rw [hafter]
  exact id

/-- One that is superseded leaves the lane as it is. -/
theorem acts_superseded (hdebug : w.host.ndebug = true)
    (hseq : a.info.sequenceFrameIndex = some number) (h : ¬ a.IsCurrent number (w.lane c)) :
    a.Acts w {} (w.lane c) := by
  obtain ⟨w', hans, hrun⟩ := a.run_arrive_superseded hdebug hseq h
  exact .of_dropped hrun (delivered_of_answers hans) (storedIn_of_answers hans)
    (lane_of_answers hans)

/-! ### Ordered frames -/

theorem run_arrive_ordered (hseq : a.info.sequenceFrameIndex = none) (w : World) :
    a.arrive.run w = (processOrdered a.buffer a.info (orderOn c a.index) >>=
      processAfterwards).run (a.entered w) := by
  unfold ChannelFrame.arrive processFrame
  rw [run_bind_of_ok (run_emit _), hseq]
  unfold orderFrame
  rw [a.order]
  rfl

/-- A late frame is dropped. -/
theorem acts_late (hseq : a.info.sequenceFrameIndex = none)
    (h : a.index.getValue < (w.lane c).next) : a.Acts w {} (w.lane c) := by
  have hrun := run_arrive_ordered hseq w
  rw [run_bind_of_ok (run_processOrdered_late (w := a.entered w) c.property h)] at hrun
  have hall : Answers (a.entered w) _ := within_release a.buffer _
  exact .of_dropped hrun (delivered_of_answers hall) (storedIn_of_answers hall)
    (lane_of_answers hall)

/-- Ahead of its turn, the count of sequenced frames is set back, and the store looked at. -/
theorem run_arrive_early (hseq : a.info.sequenceFrameIndex = none)
    (h : (w.lane c).next < a.index.getValue) :
    a.arrive.run w = ((if (orderOn c a.index).key ∈ w.this.outOfOrderPacketBuffer then do
        alreadyStored a.buffer a.info (orderOn c a.index)
        pure none
      else do
        modifyThis fun client => { client with
          outOfOrderPacketBuffer :=
            client.outOfOrderPacketBuffer.insert (orderOn c a.index).key a.packet }
        pure (some a.buffer.movedFrom)) >>= processAfterwards).run
      (after (setSequenced c.val 0) (a.entered w)) := by
  have hc : (orderOn c a.index).orderChannel.toNat < maxOrderChannels := c.property
  have hlt : (a.entered w).this.orderedBufferNextPackets[(orderOn c a.index).orderChannel.toNat]
      < (orderOn c a.index).orderFrameIndex.getValue := h
  rw [run_arrive_ordered hseq]
  unfold processOrdered
  rw [bind_assoc, run_bind_of_ok (run_orderedNext hc (a.entered w)),
    if_neg fun heq => absurd (heq ▸ hlt) (UInt32.lt_irrefl _),
    if_neg fun hgt => UInt32.lt_asymm hgt hlt, bind_assoc,
    run_bind_of_ok (run_setSequenced _ _), bind_assoc, run_get_bind]
  rfl

/-- An early frame is stored, and passed on at once. -/
theorem acts_early (hseq : a.info.sequenceFrameIndex = none)
    (h : (w.lane c).next < a.index.getValue) (hnone : (w.lane c).stored a.index = none) :
    a.Acts w { passed := [.own], stores := true }
      { (w.lane c).put a.index (some a.packet) with sequenced := 0 } := by
  have hkey : (orderOn c a.index).key ∉ w.this.outOfOrderPacketBuffer := by
    rw [stored_lane a.position] at hnone
    exact AList.lookup_eq_none.mp hnone
  have hrun := run_arrive_early hseq h
  rw [if_neg hkey, bind_assoc] at hrun
  let stored := (after (setSequenced c.val 0) (a.entered w)).inserted a.buffer a.info
    (orderOn c a.index)
  replace hrun : a.arrive.run w = (processData a.buffer.movedFrom).run stored := hrun
  have hdelivered : stored.delivered = w.delivered := a.delivered_entered w
  have hlane : (after a.arrive w).lane c
      = { (w.lane c).put a.index (some a.packet) with sequenced := 0 } := by
    rw [after_congr hrun, lane_processData]
    show ((after (setSequenced c.val 0) (a.entered w)).inserted _ _ _).lane c = _
    rw [lane_inserted _ _ a.position, lane_setSequenced]
    rfl
  refine ⟨fun _ => ?_, nofun, fun _ => ?_, nofun, fun _ => hlane⟩
  · exact .of_run hrun hdelivered (handsOver_processData (shows_movedFrom _) _)
  · unfold storedIn
    rw [hlane]
    exact if_pos rfl

/-- Nothing but the debug instrument is asked about a frame that is stored already. -/
theorem run_alreadyStored (a : LaneFrame c) (w : World) : ∃ w', Answers w w' ∧
    (alreadyStored a.buffer a.info (orderOn c a.index)).run w =
      if a.refuses w.this.debugger then .error a.message w' else .ok ⟨⟩ w' := by
  have hdebug := within_debug (.unexpectedExistOfDataInOofBuffer a.buffer.bytes a.info) w
  refine ⟨_, IsTrans.trans _ _ _ hdebug (within_release a.buffer _), ?_⟩
  unfold alreadyStored
  rw [run_bind_of_ok (run_debug _ w), run_bind_of_ok (run_release _), run_get_bind]
  dsimp only
  rw [hdebug.debugger]
  cases w.this.debugger with
  | none => rfl
  | some debugger =>
    unfold refuses
    dsimp only
    split <;> rfl

/-- A frame that is stored already goes by the instrument. -/
theorem acts_known (hseq : a.info.sequenceFrameIndex = none)
    (h : (w.lane c).next < a.index.getValue) {packet : PacketInformation}
    (hsome : (w.lane c).stored a.index = some packet) :
    a.Acts w (if a.refuses w.this.debugger then { thrown := some a.message } else {})
      { w.lane c with sequenced := 0 } := by
  have hkey : (orderOn c a.index).key ∈ w.this.outOfOrderPacketBuffer := by
    rw [stored_lane a.position] at hsome
    exact AList.lookup_isSome.mp (by rw [hsome]; rfl)
  have hrun := run_arrive_early hseq h
  rw [if_pos hkey, bind_assoc] at hrun
  obtain ⟨w', hans, hstored⟩ := a.run_alreadyStored (after (setSequenced c.val 0) (a.entered w))
  have hdelivered : w'.delivered = w.delivered := hans.delivered.trans (a.delivered_entered w)
  have hlane : w'.lane c = { w.lane c with sequenced := 0 } := by
    rw [hans.lane, lane_setSequenced]
    rfl
  have hsame : a.storedIn w' = a.storedIn w := by
    unfold storedIn
    rw [hlane]
  by_cases hrefuses : a.refuses w.this.debugger
  · rw [if_pos hrefuses]
    rw [if_pos (show a.refuses (after (setSequenced c.val 0) (a.entered w)).this.debugger
      from hrefuses)] at hstored
    exact .of_error (hrun.trans (run_bind_of_error hstored)) hdelivered hsame
  · rw [if_neg hrefuses]
    rw [if_neg (show ¬ a.refuses (after (setSequenced c.val 0) (a.entered w)).this.debugger
      from hrefuses)] at hstored
    exact .of_dropped (hrun.trans (run_bind_of_ok hstored)) hdelivered hsame hlane

/-! ### In turn -/

/-- Nothing is stored that was not stored before. -/
def StoresNothing (w w' : World) : Prop :=
  ∀ key packet, w'.this.outOfOrderPacketBuffer.lookup key = some packet →
    w.this.outOfOrderPacketBuffer.lookup key = some packet

instance : IsPreorder World StoresNothing where
  refl _ _ _ := id
  trans _ _ _ h h' key packet := h key packet ∘ h' key packet

theorem storesNothing_of_eq {w w' : World}
    (h : w'.this.outOfOrderPacketBuffer = w.this.outOfOrderPacketBuffer) : StoresNothing w w' := by
  intro key packet
  rw [h]
  exact id

/-- What a frame does, but for storing it, stores nothing. -/
theorem storesNothing_frameBound : FrameBound StoresNothing where
  answers _ _ h := storesNothing_of_eq h.stored
  data _ _ := storesNothing_of_eq rfl
  counters _ _ _ := storesNothing_of_eq rfl
  taken w key := AllEntries.erase (m := w.this.outOfOrderPacketBuffer)
    (P := fun k v => w.this.outOfOrderPacketBuffer.lookup k = some v) (fun _ _ => id) key

/-- A frame in turn is handled, then what waited for it, then once more what is left of it. -/
theorem run_arrive_turn (hseq : a.info.sequenceFrameIndex = none)
    (h : (w.lane c).next = a.index.getValue) :
    a.arrive.run w = (processData a.buffer >>= fun _ =>
      (get >>= fun w' : World => drain c.val (w'.this.outOfOrderPacketBuffer.keys.length + 1)
        (orderOn c a.index).key) >>= fun _ => processData a.buffer.movedFrom).run
      ((a.entered w).bumped c.val c.property) := by
  have hc : (orderOn c a.index).orderChannel.toNat < maxOrderChannels := c.property
  have hnext : (a.entered w).this.orderedBufferNextPackets[(orderOn c a.index).orderChannel.toNat]
      = (orderOn c a.index).orderFrameIndex.getValue := h
  rw [run_arrive_ordered hseq]
  unfold processOrdered
  rw [bind_assoc, run_bind_of_ok (run_orderedNext hc (a.entered w)), if_pos hnext, bind_assoc,
    run_bind_of_ok (run_bumpOrdered hc (a.entered w))]
  simp only [bind_assoc]
  rfl

/-- The loop hands over what is stored behind the frame, and takes it from the lane. -/
theorem handsOver_drain {index : UInt24} (h : index.Canonical) (hw : w.StoresByKey)
    (b : BinaryBuffer) :
    HandsOver b ((w.lane c).behind index) (get >>= fun w' : World =>
      drain c.val (w'.this.outOfOrderPacketBuffer.keys.length + 1) (orderOn c index).key) w := by
  refine HandsOver.of_run (run_get_bind _ w) rfl ?_
  unfold Lane.behind
  rw [stored_lane h]
  cases hval : w.this.outOfOrderPacketBuffer.lookup (orderOn c index).key with
  | none => exact .of_ok (run_drain_none hval) rfl
  | some val =>
    refine .of_run (run_drain_stored (isPosition_orderOn h) hw hval) rfl ?_
    have hbump : ∀ w', HandsOver b [] (bumpOrdered c.val) w' := fun w' =>
      .of_ok (run_bumpOrdered c.property w') rfl
    exact HandsOver.bind (handsOver_processData (.stored val _) _) fun _ w' _ => hbump w'

theorem lane_drain {index : UInt24} (h : index.Canonical) (hw : w.StoresByKey) {u : PUnit}
    (hrun : (get >>= fun w' : World => drain c.val
      (w'.this.outOfOrderPacketBuffer.keys.length + 1) (orderOn c index).key).run w = .ok u w') :
    w'.lane c = (w.lane c).drained index := by
  rw [run_get_bind] at hrun
  unfold Lane.drained
  rw [stored_lane h]
  cases hval : w.this.outOfOrderPacketBuffer.lookup (orderOn c index).key with
  | none =>
    cases (run_drain_none hval).symm.trans hrun
    rfl
  | some val =>
    obtain ⟨_, w₁, hdata, hbump⟩ :=
      bind_eq_ok ((run_drain_stored (isPosition_orderOn h) hw hval).symm.trans hrun)
    cases (run_bumpOrdered c.property w₁).symm.trans hbump
    have hlane := lane_processData (val.rawData.reload w.host.company)
      (w.taken (orderOn c index).key) c
    rw [after_of_ok hdata, lane_taken w c h] at hlane
    rw [lane_bumped, hlane]
    rfl

/-- A frame in turn is passed on twice, and in between what waited for it. -/
theorem acts_turn (hseq : a.info.sequenceFrameIndex = none) (hw : w.StoresByKey)
    (h : (w.lane c).next = a.index.getValue) :
    a.Acts w { passed := [.own] ++ ((w.lane c).behind a.index ++ [.own]) }
      ({ w.lane c with next := (w.lane c).next + 1 }.drained a.index) := by
  have hrun := run_arrive_turn hseq h
  have hentered : ((a.entered w).bumped c.val c.property).StoresByKey := storesByKey_of_eq hw rfl
  -- what the loop finds is what the lane has had from the start
  have hdata {u : PUnit} {w₁ : World} (h₁ : (processData a.buffer).run
      ((a.entered w).bumped c.val c.property) = .ok u w₁) :
      w₁.StoresByKey ∧ w₁.lane c = { w.lane c with next := (w.lane c).next + 1 } := by
    have hstores := (staysOn_processData (c := c) a.buffer _ hentered).1
    have hlane := (lane_processData a.buffer ((a.entered w).bumped c.val c.property) c).trans
      (lane_bumped (a.entered w) c)
    rw [after_of_ok h₁] at hstores hlane
    exact ⟨hstores, hlane⟩
  refine ⟨fun _ => ?_, nofun, nofun, fun _ packet => ?_, fun hreturns => ?_⟩
  · refine .of_run hrun (a.delivered_entered w) ?_
    refine HandsOver.bind (handsOver_processData .own _) fun _ w₁ h₁ => ?_
    obtain ⟨hstores, hlane⟩ := hdata h₁
    have hbehind : (w₁.lane c).behind a.index = (w.lane c).behind a.index := by rw [hlane]; rfl
    rw [← hbehind]
    exact (handsOver_drain a.position hstores a.buffer).bind fun _ w₂ _ =>
      handsOver_processData (shows_movedFrom _) w₂
  · have hwithin : Within StoresNothing (processData a.buffer >>= fun _ =>
        (get >>= fun w' : World => drain c.val (w'.this.outOfOrderPacketBuffer.keys.length + 1)
          (orderOn c a.index).key) >>= fun _ => processData a.buffer.movedFrom) :=
      Within.bind (storesNothing_frameBound.within_processData _) fun _ =>
        Within.bind (Within.bind Within.get fun _ => storesNothing_frameBound.within_drain _ _ _)
          fun _ => storesNothing_frameBound.within_processData _
    unfold storedIn
    rw [after_congr hrun, stored_lane a.position, stored_lane a.position]
    exact hwithin _ _ packet
  · rw [succeeds_congr hrun] at hreturns
    obtain ⟨u, hreturns⟩ := hreturns.run
    rw [after_congr hrun]
    obtain ⟨_, w₁, h₁, hrest⟩ := bind_eq_ok hreturns
    obtain ⟨_, w₂, h₂, h₃⟩ := bind_eq_ok hrest
    obtain ⟨hstores, hlane⟩ := hdata h₁
    have hlast := lane_processData a.buffer.movedFrom w₂ c
    rw [after_of_ok h₃] at hlast
    rw [hlast, lane_drain a.position hstores h₂, hlane]

/-- **A frame is processed as the verdict on it says.** -/
theorem acts (a : LaneFrame c) (hw : w.StoresByKey) :
    a.Acts w (a.verdictIn w) (a.step (w.lane c)) := by
  unfold verdictIn verdict step
  cases hseq : a.info.sequenceFrameIndex with
  | some number =>
    dsimp only
    by_cases hdebug : w.host.ndebug = false
    · rw [if_pos hdebug]
      exact acts_assertion hdebug hseq
    · rw [if_neg hdebug]
      rw [Bool.not_eq_false] at hdebug
      by_cases hcurrent : a.IsCurrent number (w.lane c)
      · rw [if_pos hcurrent, if_pos hcurrent]
        exact acts_current hdebug hseq hcurrent
      · rw [if_neg hcurrent, if_neg hcurrent]
        exact acts_superseded hdebug hseq hcurrent
  | none =>
    dsimp only
    by_cases hturn : (w.lane c).next = a.index.getValue
    · rw [if_pos hturn, if_pos hturn]
      exact acts_turn hseq hw hturn
    · rw [if_neg hturn, if_neg hturn]
      by_cases hlate : a.index.getValue < (w.lane c).next
      · rw [if_pos hlate, if_pos hlate]
        exact acts_late hseq hlate
      · rw [if_neg hlate, if_neg hlate]
        have hearly : (w.lane c).next < a.index.getValue :=
          (UInt32.lt_or_lt_of_ne hturn).resolve_right hlate
        cases hstored : (w.lane c).stored a.index with
        | none => exact acts_early hseq hearly hstored
        | some packet => exact acts_known hseq hearly hstored

end Acts

/-- A frame works on its own lane. -/
theorem worksOn (a : LaneFrame c) {w : World} (hw : w.StoresByKey) :
    WorksOn (fun c w => World.lane w c) c a.step a.arrive w where
  own := (a.acts hw).lane
  others := (staysOn_processFrame a.start a.order a.position w hw).2.1.lanes

/-- A frame leaves what is stored under its keys. -/
theorem storesByKey_arrive (a : LaneFrame c) {w : World} (hw : w.StoresByKey) :
    (after a.arrive w).StoresByKey := (staysOn_processFrame a.start a.order a.position w hw).1

/-- A frame of another channel changes no verdict. -/
theorem verdictIn_arrive (f : LaneFrame c) (g : LaneFrame d) (hne : c ≠ d) {w : World}
    (hw : w.StoresByKey) : f.verdictIn (after g.arrive w) = f.verdictIn w := by
  have haround := (staysOn_processFrame g.start g.order g.position w hw).2.1
  unfold verdictIn ChannelFrame.arrive
  rw [haround.lanes c hne, haround.debugger, haround.ndebug]

end LaneFrame

/-! ## Two channels -/

/-- Both states hold the same of all channels. -/
structure SameOrdering (w w' : World) : Prop where
  ordered : w.this.orderedBufferNextPackets = w'.this.orderedBufferNextPackets
  sequenced : w.this.sequencedPacketsNextPacket = w'.this.sequencedPacketsNextPacket
  stored : ∀ key, w.this.outOfOrderPacketBuffer.lookup key
    = w'.this.outOfOrderPacketBuffer.lookup key

/-- What is stored under a key is in one of the lanes. -/
theorem World.StoresByKey.lookup_le {w w' : World} (hw : w.StoresByKey)
    (h : ∀ c, w.lane c = w'.lane c) {key : OrderKey} {packet : PacketInformation}
    (hlookup : w.this.outOfOrderPacketBuffer.lookup key = some packet) :
    w'.this.outOfOrderPacketBuffer.lookup key = some packet := by
  obtain ⟨⟨index, channel⟩, -, hposition, rfl⟩ := (hw _ _ hlookup).order
  let c : Channel := ⟨channel, hposition.channel_lt⟩
  have hstored : (w.lane c).stored index = some packet :=
    (stored_lane hposition.canonical w).trans hlookup
  rw [h, stored_lane hposition.canonical] at hstored
  exact hstored

theorem exists_channel {i : Nat} (hi : i < maxOrderChannels) : ∃ c : Channel, c.val.toNat = i := by
  have hmod : (UInt8.ofNat i).toNat = i := by
    rw [UInt8.toNat_ofNat']
    exact Nat.mod_eq_of_lt (Nat.lt_trans hi (by decide))
  exact ⟨⟨UInt8.ofNat i, hmod.symm ▸ hi⟩, hmod⟩

/-- States with the same lanes order alike. -/
theorem sameOrdering_of_lanes {w w' : World} (hw : w.StoresByKey) (hw' : w'.StoresByKey)
    (h : ∀ c, w.lane c = w'.lane c) : SameOrdering w w' := by
  refine ⟨Vector.ext fun i hi => ?_, Vector.ext fun i hi => ?_,
    fun key => Option.ext fun packet => ?_⟩
  · obtain ⟨c, rfl⟩ := exists_channel hi
    exact congrArg Lane.next (h c)
  · obtain ⟨c, rfl⟩ := exists_channel hi
    exact congrArg Lane.sequenced (h c)
  · exact ⟨hw.lookup_le h, hw'.lookup_le fun c => (h c).symm⟩

/-- The frame `f` does not see whether `g` has been processed. -/
structure Unseen {c d : Channel} (f : LaneFrame c) (g : LaneFrame d) (w : World) : Prop where
  verdict : f.verdictIn (after g.arrive w) = f.verdictIn w
  before : f.Acts w (f.verdictIn w) (f.step (w.lane c))
  behind : f.Acts (after g.arrive w) (f.verdictIn w) (f.step (w.lane c))
  lanes : ∀ e, e ≠ d → (after g.arrive w).lane e = w.lane e
  order : Succeeds f.arrive w → Succeeds g.arrive (after f.arrive w) →
    Succeeds g.arrive w → Succeeds f.arrive (after g.arrive w) →
      SameOrdering (after g.arrive (after f.arrive w)) (after f.arrive (after g.arrive w))

/--
**Frames of two channels do not see each other, but for the pool that their messages share.**
-/
theorem unseen_of_channel {c d : Channel} (hne : c ≠ d) (f : LaneFrame c) (g : LaneFrame d)
    {w : World} (hw : w.StoresByKey) : Unseen f g w := by
  have hf := f.storesByKey_arrive hw
  have hg := g.storesByKey_arrive hw
  have hverdict := f.verdictIn_arrive g hne hw
  have hlanes := (g.worksOn hw).others
  refine ⟨hverdict, f.acts hw, ?_, hlanes, fun h₁ h₂ h₃ h₄ => ?_⟩
  · have hacts := f.acts hg
    rwa [hverdict, hlanes c hne] at hacts
  · exact sameOrdering_of_lanes (g.storesByKey_arrive hf) (f.storesByKey_arrive hg)
      ((f.worksOn hw).comm hne (g.worksOn hw) (f.worksOn hg) (g.worksOn hf) h₁ h₃ h₄ h₂)

/-- The first ordered frame of a channel, with a ping of no length, which is answered all the same. -/
def pingOn (c : Channel) : LaneFrame c where
  info := { bodyLeng := 1, rely := .reliableOrdered, orderInfo := some (orderOn c {}) }
  buffer := { bytes := [0] }
  index := {}
  order := rfl
  canonical := nofun
  position := show UInt24.toNat {} < 2 ^ 24 by decide
  start := rfl

/-- A sequenced frame of a channel with a connection request. -/
def requestOn (c : Channel) : LaneFrame c where
  info :=
    { bodyLeng := 18, rely := .reliableSequenced, sequenceFrameIndex := some {}
      orderInfo := some (orderOn c {}) }
  buffer := { bytes := 9 :: List.replicate 17 0 }
  index := {}
  order := rfl
  canonical := by
    rintro _ ⟨⟩
    exact show UInt24.toNat {} < 2 ^ 24 by decide
  position := show UInt24.toNat {} < 2 ^ 24 by decide
  start := rfl

/-- A client with a pool of two buffers, in a build without assertions. -/
def tightPool (bufferSize : Nat) : World where
  this := { lastPacket := 0 }
  host := { ndebug := true, company := .new 2 bufferSize 1 }

/-- Two pings on two channels. -/
theorem unseen_of_channel_pings :
    (Succeeds (pingOn ⟨0, by decide⟩).arrive (tightPool 16) ∧
      Succeeds (pingOn ⟨1, by decide⟩).arrive
        (after (pingOn ⟨0, by decide⟩).arrive (tightPool 16))) ∧
    Unseen (pingOn ⟨0, by decide⟩) (pingOn ⟨1, by decide⟩) (tightPool 16) :=
  ⟨by decide +kernel, unseen_of_channel (by decide) _ _ (allEntries_empty _)⟩

/-- Before and behind `g`, the frame `f` is processed with the same payloads. -/
def SamePayloads {c d : Channel} (f : LaneFrame c) (g : LaneFrame d) (w : World) : Prop :=
  ∃ payloads, (after f.arrive w).delivered = w.delivered ++ payloads ∧
    (after f.arrive (after g.arrive w)).delivered = (after g.arrive w).delivered ++ payloads

/--
The answer to a request stays until it is acknowledged. Behind it, the ping waits for a second buffer
the first time it is passed on, and does not get to the second.
-/
theorem not_samePayloads_request :
    (Succeeds (pingOn ⟨0, by decide⟩).arrive (tightPool 173) ∧
      Succeeds (requestOn ⟨1, by decide⟩).arrive (tightPool 173)) ∧
    ¬ SamePayloads (pingOn ⟨0, by decide⟩) (requestOn ⟨1, by decide⟩) (tightPool 173) := by
  refine ⟨by decide +kernel, ?_⟩
  rintro ⟨payloads, hbefore, hbehind⟩
  have htwice : payloads.length = 2 := by
    rw [show (tightPool 173).delivered = [] from rfl, List.nil_append] at hbefore
    rw [← hbefore]
    decide +kernel
  have hless := congrArg List.length hbehind
  rw [List.length_append, htwice] at hless
  exact absurd hless (by decide +kernel)

end Rakro
