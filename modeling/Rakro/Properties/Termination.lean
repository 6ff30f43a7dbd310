import Rakro.Infra.Fuel
import Rakro.Properties.Raises

/-!
# Every frame set comes to an end

Three loops run over a datagram of a frame set, one in the other. The loop over a gap counts up to a
number of 24 bits. A round of the frame loop takes three bytes at least, or ends in an exception. A
round of the loop over stored packets takes one of them out, and nothing puts one in.
-/

namespace Rakro

open Infra BinaryBuffer

/-- A program that has run out of fuel. -/
def RunsOut {α : Type} (r : EStateM.Result Exn World α) : Prop := ∃ w, r = .error .diverges w

theorem not_runsOut_ok {α : Type} (a : α) (w : World) : ¬ RunsOut (.ok a w) := nofun

theorem not_runsOut_error {α : Type} {e : Exn} (h : e ≠ .diverges) (w : World) :
    ¬ RunsOut (.error e w : EStateM.Result Exn World α) := by
  rintro ⟨_, ⟨⟩⟩
  exact h rfl

/-- Wherever it is started, the program does not run out of fuel. -/
abbrev Ends {α : Type} (m : ClientM α) : Prop := Raises (· ≠ Exn.diverges) m

/-- What ends does not run out of fuel. -/
theorem Ends.not_runsOut {α : Type} {m : ClientM α} (h : Ends m) (w : World) :
    ¬ RunsOut (m.run w) := fun ⟨_, hrun⟩ => h.of_run hrun rfl

theorem ends_of_not_runsOut {α : Type} {m : ClientM α} (h : ∀ w, ¬ RunsOut (m.run w)) : Ends m := by
  rintro w e w' hrun rfl
  exact h w ⟨w', hrun⟩

/-- No reply has a loop of its own. -/
theorem ends_answers : AnswerFaults (· ≠ Exn.diverges) where
  outOfRange _ := nofun
  logicError _ := nofun
  badOptionalAccess := nofun
  blocked := nofun
  byte := nofun
  block := nofun

/-! ## The loop over stored packets -/

theorem ends_orderedNext (channel : UInt8) : Ends (orderedNext channel) := by
  refine Raises.bind Raises.get fun w => ?_
  split
  · exact Raises.pure _
  · exact Raises.throw nofun

theorem ends_sequencedNext (channel : UInt8) : Ends (sequencedNext channel) := by
  refine Raises.bind Raises.get fun w => ?_
  split
  · exact Raises.pure _
  · exact Raises.throw nofun

theorem ends_bumpOrdered (channel : UInt8) : Ends (bumpOrdered channel) :=
  Raises.bind (ends_orderedNext channel) fun _ => raises_modifyThis _

/-- A round of the loop: what is behind the lookup, up to the key of the next round. -/
def drainRound (channel : UInt8) (key : OrderKey) (val : PacketInformation) : ClientM OrderKey := do
  modifyThis fun client =>
    { client with outOfOrderPacketBuffer := client.outOfOrderPacketBuffer.erase key }
  processData (val.rawData.reload (← get).host.company)
  match val.packetInfo.orderInfo with
  | none => throw (.undefined "dereference of an empty optional")
  | some orderInfo => do
    bumpOrdered channel
    pure (constructOrderKey channel orderInfo.orderFrameIndex)

theorem run_drain_some {channel : UInt8} {key : OrderKey} {val : PacketInformation} {w : World}
    (h : w.this.outOfOrderPacketBuffer.lookup key = some val) (fuel : Nat) :
    (drain channel (fuel + 1) key).run w =
      (drainRound channel key val >>= drain channel fuel).run w := by
  unfold drainRound
  conv_lhs => unfold drain
  rw [run_get_bind, h]
  dsimp only
  cases val.packetInfo.orderInfo with
  | none => simp only [bind_assoc]; rfl
  | some order => simp only [bind_assoc, pure_bind]

theorem ends_drainRound (channel : UInt8) (key : OrderKey) (val : PacketInformation) :
    Ends (drainRound channel key val) := by
  refine Raises.bind (raises_modifyThis _) fun _ => ?_
  refine Raises.bind Raises.get fun _ => ?_
  refine Raises.bind (ends_answers.processData _) fun _ => ?_
  split
  · exact Raises.throw nofun
  · exact Raises.bind (ends_bumpOrdered channel) fun _ => Raises.pure _

/-- The same packets are stored. -/
def SameStore (w w' : World) : Prop :=
  w'.this.outOfOrderPacketBuffer = w.this.outOfOrderPacketBuffer

instance : IsPreorder World SameStore where
  refl _ := rfl
  trans _ _ _ h h' := Eq.trans h' h

/-- A round takes out the packet under its key, and puts none in. -/
theorem stored_drainRound {channel : UInt8} {key key' : OrderKey} {val : PacketInformation}
    {w w' : World} (h : (drainRound channel key val).run w = .ok key' w') :
    w'.this.outOfOrderPacketBuffer = w.this.outOfOrderPacketBuffer.erase key := by
  have hrest : Within SameStore (get >>= fun w : World =>
      processData (val.rawData.reload w.host.company) >>= fun _ =>
        match val.packetInfo.orderInfo with
        | none => throw (.undefined "dereference of an empty optional")
        | some orderInfo => do
          bumpOrdered channel
          pure (constructOrderKey channel orderInfo.orderFrameIndex)) := by
    refine Within.bind Within.get fun w => Within.bind
      (fun w => (processData_answers _ w).stored) fun _ => ?_
    split
    · exact Within.throw _
    · exact Within.bind (Within.bind (within_orderedNext _) fun _ _ => rfl) fun _ => Within.pure _
  exact hrest.of_run h

/-- **The loop runs at most once for each stored packet**, whatever is stored and under which key. -/
theorem drain_endsWithin (channel : UInt8) : ∀ (n : Nat) (key : OrderKey) (w : World),
    w.this.outOfOrderPacketBuffer.keys.length = n →
    EndsWithin RunsOut (fun fuel => (drain channel fuel key).run w) n
  | n, key, w, hn => by
    cases hval : w.this.outOfOrderPacketBuffer.lookup key with
    | none => exact .stop (fun fuel => run_drain_none hval) (not_runsOut_ok _ _) n
    | some val =>
      have hmem : key ∈ w.this.outOfOrderPacketBuffer.keys :=
        AList.lookup_isSome.mp (by rw [hval]; rfl)
      obtain ⟨m, rfl⟩ := Nat.exists_eq_succ_of_ne_zero (hn ▸ (List.length_pos_of_mem hmem).ne')
      refine .bind (run_drain_some hval) (fun e w' hrun => ?_) fun key' w' hrun => ?_
      · exact not_runsOut_error ((ends_drainRound channel key val).of_run hrun) w'
      · refine drain_endsWithin channel m key' w' ?_
        rw [stored_drainRound hrun, AList.keys_erase, List.length_erase_of_mem hmem, hn]
        rfl

/-- With more fuel than stored packets, the loop ends. -/
theorem ends_drainStored (channel : UInt8) (key : OrderKey) :
    Ends (get >>= fun w : World =>
      drain channel (w.this.outOfOrderPacketBuffer.keys.length + 1) key) :=
  ends_of_not_runsOut fun w => (drain_endsWithin channel _ key w rfl).ends

/-! ## Frames -/

theorem ends_processOrdered (b : BinaryBuffer) (info : FrameInfo) (order : OrderInformation) :
    Ends (processOrdered b info order) := by
  have hstored : Ends (alreadyStored b info order) := by
    refine Raises.bind (raises_debug _) fun _ => ?_
    refine Raises.bind (raises_release b) fun _ => ?_
    refine Raises.bind Raises.get fun w => ?_
    split
    · exact Raises.ite (Raises.throw nofun) (Raises.pure _)
    · exact Raises.throw nofun
  refine Raises.bind (ends_orderedNext _) fun _ => Raises.ite ?_ (Raises.ite ?_ ?_)
  · refine Raises.bind (ends_bumpOrdered _) fun _ => Raises.bind (ends_answers.processData b)
      fun _ => ?_
    have hdrain := Raises.bind (ends_drainStored order.orderChannel
      (constructOrderKey order.orderChannel order.orderFrameIndex)) fun _ =>
        Raises.pure (some b.movedFrom)
    rwa [bind_assoc] at hdrain
  · exact Raises.bind (raises_release b) fun _ => Raises.pure _
  · refine Raises.bind (raises_modifyThis _) fun _ => Raises.bind Raises.get fun _ =>
      Raises.ite ?_ ?_
    · exact Raises.bind hstored fun _ => Raises.pure _
    · exact Raises.bind (raises_modifyThis _) fun _ => Raises.pure _

theorem ends_processSequenced (b : BinaryBuffer) (info : FrameInfo) (index : UInt24) :
    Ends (processSequenced b info index) := by
  refine Raises.bind (raises_debug _) fun _ => Raises.bind ?_ fun _ => ?_
  · exact Raises.bind Raises.get fun _ => Raises.ite (Raises.pure _) (Raises.throw nofun)
  · split
    · exact Raises.throw nofun
    · refine Raises.bind (ends_sequencedNext _) fun _ => Raises.bind (ends_orderedNext _)
        fun _ => Raises.ite ?_ ?_
      · exact Raises.bind (raises_modifyThis _) fun _ => ends_answers.processData b
      · exact Raises.bind (raises_debug _) fun _ => raises_release b

theorem ends_processFrame (b : BinaryBuffer) (info : FrameInfo) : Ends (processFrame b info) := by
  refine Raises.bind (raises_emit _) fun _ => ?_
  split
  · exact ends_processSequenced b info _
  · refine Raises.bind ?_ fun r => ?_
    · unfold orderFrame
      split
      · exact ends_processOrdered b info _
      · exact Raises.pure _
    · split
      · exact ends_answers.processData _
      · exact Raises.pure _

/-! ## The frame loop -/

theorem ends_round (home : Option Place) (size cursor : Nat) (f : ParsedFrame) (rest : Bytes) :
    Ends (round home size cursor f rest) :=
  Raises.bind (raises_emit _) fun _ => Raises.ite (raises_emit _) (ends_processFrame _ _)

/-- A round takes three bytes at least off what is in front of the cursor. -/
theorem frameLoop_between_endsWithin (b : BinaryBuffer) : ∀ (k : Nat) (p r : Bytes) (w : World),
    r.length < 3 * k + 3 → EndsWithin RunsOut (fun fuel => (frameLoop fuel (b.between p r)).run w) k
  | k, p, r, w, hlen => by
    cases loopFront b p r with
    | finished hshort =>
      refine .stop (fun fuel => ?_) (not_runsOut_ok ⟨⟩ w) k
      rw [frameLoop_end hshort]
      rfl
    | unread hlong hread =>
      exact .stop (fun fuel => run_frameLoop_unread fuel w hlong hread)
        (not_runsOut_error (ends_answers.readFrameInfo.of_run hread) w) k
    | overrun hreads hlong hover =>
      have hundefined : Exn.undefined "subspan past the end" ≠ .diverges := nofun
      exact .stop (fun fuel => run_frameLoop_overrun fuel b p hreads hlong hover w)
        (not_runsOut_error hundefined _) k
    | frame f rest hlt =>
      have hheader := f.three_le_length_header
      rw [List.length_append, f.length_bytes] at hlen
      rw [f.length_bytes] at hlt
      obtain ⟨m, rfl⟩ : ∃ m, k = m + 1 := Nat.exists_eq_succ_of_ne_zero (by omega)
      refine .bind (fun fuel => congrArg (·.run w) (frameLoop_round fuel b p ?_))
        (fun e w' hrun => ?_) fun _ w' _ => ?_
      · rw [f.length_bytes]
        exact hlt
      · exact not_runsOut_error ((ends_round _ _ _ f rest).of_run hrun) w'
      · exact frameLoop_between_endsWithin b m (p ++ f.bytes) rest w' (by omega)

/-- Past the end there is no byte to read. -/
theorem not_succeeds_nextByte {b : BinaryBuffer} (h : b.size ≤ b.index) : ¬ Succeeds nextByte b := by
  intro hreturns
  unfold nextByte at hreturns
  obtain ⟨_, b₁, hcheck⟩ := hreturns.of_bind
  have hrest := (succeeds_bind_of_ok hcheck).mp hreturns
  obtain rfl := boundsCheck_eq_ok hcheck
  rw [succeeds_get_bind, List.getElem?_eq_none h] at hrest
  obtain ⟨_, _, hrun⟩ := hrest
  cases hrun

/-- Nor is there a frame header. -/
theorem not_succeeds_readFrameInfo {b : BinaryBuffer} (h : b.size ≤ b.index) :
    ¬ Succeeds (readNext FrameInfo) b := by
  intro hreturns
  obtain ⟨_, b₁, hcheck⟩ := hreturns.of_bind
  have hrest := (succeeds_bind_of_ok hcheck).mp hreturns
  obtain rfl := boundsCheck_eq_ok hcheck
  exact not_succeeds_nextByte h hrest.of_bind

/--
**The frame loop runs at most once for three bytes**, wherever the cursor is. Past the end, where the
number of bytes left has wrapped, the first header is not read.
-/
theorem frameLoop_endsWithin (b : BinaryBuffer) (w : World) :
    EndsWithin RunsOut (fun fuel => (frameLoop fuel b).run w) ((b.size - b.index) / 3) := by
  by_cases h : b.index ≤ b.size
  · rw [eq_between h, between_size, between_index]
    refine frameLoop_between_endsWithin b _ _ _ w ?_
    omega
  · have hpast : b.size ≤ b.index := Nat.le_of_not_le h
    obtain ⟨e, hread⟩ := run_of_not_succeeds (not_succeeds_readFrameInfo hpast)
    by_cases hlong : 4 < b.remaining
    · refine .stop (fun fuel => ?_) (not_runsOut_error (ends_answers.readFrameInfo.of_run hread) w) _
      unfold frameLoop
      rw [if_pos hlong, run_bind_of_error (run_onBuffer_error hread)]
    · refine .stop (fun fuel => ?_) (not_runsOut_ok ⟨⟩ w) _
      unfold frameLoop
      rw [if_neg hlong]
      rfl

/-! ## The datagram -/

theorem ends_advanceWindow (seq expected : UInt24) : Ends (advanceWindow seq expected) := by
  refine Raises.bind (Raises.bind Raises.get fun w => Raises.ite ?_ (Raises.pure _)) fun _ =>
    raises_modifyThis _
  split
  · exact raises_modifyThis _
  · next hnone =>
    have hsome := recordMissing_isSome seq (2 ^ 24 - 1) (expected.add ⟨1⟩) w.this.missingPackets
      (by omega)
    rw [show (2 ^ 24 - 1 + 1 : ℕ) = 2 ^ 24 from rfl, hnone] at hsome
    cases hsome

theorem ends_processFrameSet (b : BinaryBuffer) : Ends (processFrameSet b) := by
  have hheader : Raises (· ≠ Exn.diverges) (readNext FrameHeader) :=
    ends_answers.readNext (Raises.bind ends_answers.readUInt8 fun _ =>
      Raises.bind ends_answers.readUInt24 fun _ => Raises.pure _)
  refine Raises.bind (raises_onBuffer hheader) fun ⟨header, b'⟩ => Raises.bind Raises.get fun w =>
    Raises.ite (Raises.pure _) (Raises.bind (ends_advanceWindow _ _) fun _ => ?_)
  refine ends_of_not_runsOut fun w' => (frameLoop_endsWithin b' w').not_out ?_
  omega

/-- The loops over a frame set of `b.size` bytes all end, and so does the whole. -/
structure FrameSetEnds (b : BinaryBuffer) (w : World) : Prop where
  gap : ∀ seq expected missing, EndsWithin (· = none)
    (fun fuel => recordMissing seq fuel (UInt24.add expected ⟨1⟩) missing) (2 ^ 24 - 1)
  frames : ∀ (b' : BinaryBuffer) (w' : World), b'.size = b.size →
    EndsWithin RunsOut (fun fuel => (frameLoop fuel b').run w') (b.size / 3 + 1)
  drains : ∀ (channel : UInt8) (key : OrderKey) (w' : World),
    EndsWithin RunsOut (fun fuel => (drain channel fuel key).run w')
      w'.this.outOfOrderPacketBuffer.keys.length
  whole : ¬ RunsOut ((processPacket b).run w)

/-- **Every datagram of a frame set is got through or ends in an exception.** -/
theorem frameSetEnds {b : BinaryBuffer} {id : UInt8} {r : Bytes} (hstart : b.index = 0)
    (hbytes : b.bytes = id :: r) (hid : IsFrameSetId id) (w : World) : FrameSetEnds b w := by
  refine ⟨fun seq expected missing => recordMissing_endsWithin seq _ _ missing (by omega),
    fun b' w' hsize => (frameLoop_endsWithin b' w').mono ?_,
    fun channel key w' => drain_endsWithin channel _ key w' rfl, Ends.not_runsOut ?_ w⟩
  · rw [hsize]
    exact Nat.le_succ_of_le (Nat.div_le_div_right (Nat.sub_le _ _))
  · rw [processPacket_branch hstart hbytes, if_neg (not_not.mpr hid.masked),
      if_neg hid.not_above]
    exact raises_owning (ends_processFrameSet b)

/-- A datagram that announces the largest gap, and a frame that is not there. -/
theorem frameSetEnds_short :
    FrameSetEnds { bytes := [0x80, 0xFF, 0xFF, 0xFF, 0x60, 0xFF, 0xFF, 0, 0] } smallPool :=
  frameSetEnds rfl rfl ⟨by decide, by decide⟩ smallPool

end Rakro
