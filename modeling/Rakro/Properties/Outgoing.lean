import Rakro.Properties.FrameSet
import Mathlib.Data.Nat.ModEq

/-!
# The datagrams that leave

A datagram carries the number of the next datagram that is expected from the peer, so what counts up
the numbers is what arrives, not what is sent. The index that a reliable datagram is filed under is
counted up by the reliable datagrams alone.
-/

namespace Rakro

open Infra BinaryBuffer

/-! ## Steps -/

/-- What happens to a client. -/
inductive ClientStep
  /-- `process_packet` is called with a datagram nobody has read from yet. -/
  | receive (datagram : { b : BinaryBuffer // b.index = 0 })
  /-- A payload is sent through `ready_buffer`. -/
  | send (buffer : BinaryBuffer) (rely : FrameReliability)
  /-- Others rent and return buffers, and time passes. -/
  | outside (company : BufferCompany) (clock : Clock)

/-- What the client does in a step. -/
def ClientStep.run : ClientStep → ClientM PUnit
  | .receive datagram => processPacket datagram.1
  | .send buffer rely => do sendTo (← readyBuffer buffer rely)
  | .outside company clock => modifyHost fun host => { host with company, clock }

instance (id : UInt8) : Decidable (IsFrameSetId id) := inferInstanceAs (Decidable (_ ∧ _))

/-- The sequence number of a datagram, if it is a frame set. -/
def BinaryBuffer.frameSetNumber? (b : BinaryBuffer) : Option UInt24 :=
  match b.bytes with
  | id :: x :: y :: z :: _ => if IsFrameSetId id then some (IsFrameSet.number [x, y, z]) else none
  | _ => none

/-- The number of a datagram is that of its header, where it has one. -/
theorem frameSetNumber?_eq_some {b : BinaryBuffer} (hstart : b.index = 0) {number : UInt24} :
    b.frameSetNumber? = some number ↔
      ∃ id seq rest, IsFrameSet b id seq rest ∧ IsFrameSet.number seq = number := by
  constructor
  · intro h
    unfold frameSetNumber? at h
    split at h
    · next id x y z rest hbytes =>
      split at h
      · next hid => exact ⟨id, [x, y, z], rest, ⟨hbytes, hstart, hid, rfl⟩, Option.some.inj h⟩
      · cases h
    · cases h
  · rintro ⟨id, seq, rest, ⟨hbytes, -, hid, hlen⟩, rfl⟩
    match seq, hlen with
    | [x, y, z], _ =>
      unfold frameSetNumber?
      rw [hbytes]
      exact if_pos hid

/-- The step brings a datagram that is not below the window. -/
def ClientStep.Accepts : ClientStep → World → Prop
  | .receive datagram, w => ∃ number ∈ datagram.1.frameSetNumber?, ¬ number < w.this.nextExpectedSeq
  | .send .., _ => False
  | .outside .., _ => False

instance : ∀ (step : ClientStep) (w : World), Decidable (step.Accepts w)
  | .receive datagram, w => inferInstanceAs
      (Decidable (∃ number ∈ datagram.1.frameSetNumber?, ¬ number < w.this.nextExpectedSeq))
  | .send .., _ => inferInstanceAs (Decidable False)
  | .outside .., _ => inferInstanceAs (Decidable False)

/-! ## What a step sends -/

/-- The number that is expected next stays, and every datagram carries it. -/
structure SendsNext (w w' : World) : Prop where
  nextExpectedSeq : w'.this.nextExpectedSeq = w.this.nextExpectedSeq
  sends : Sends w.this.nextExpectedSeq w w'

instance : IsPreorder World SendsNext where
  refl w := ⟨rfl, .refl _ w⟩
  trans _ _ _ h h' := ⟨h'.1.trans h.1, h.2.trans (h.1 ▸ h'.2)⟩

/-- Nothing is sent. -/
theorem SendsNext.silent {w w' : World}
    (hnext : w'.this.nextExpectedSeq = w.this.nextExpectedSeq) (hout : w'.outgoing = w.outgoing)
    (hindex : w'.this.sendingRelyFrameIndex = w.this.sendingRelyFrameIndex)
    (hacks : w'.this.ackBuffer = w.this.ackBuffer) : SendsNext w w' :=
  ⟨hnext, .silent hout hindex fun _ h => hacks ▸ h⟩

theorem SendsNext.log {w : World} {event : Event} (h : event.outgoing? = none) :
    SendsNext w (w.log event) := by
  refine .silent rfl ?_ rfl rfl
  rw [World.outgoing_log, h]
  exact List.append_nil _

/-- The frame loop sends with the number that is expected next. -/
theorem sendsNext_loopBound : LoopBound SendsNext where
  answers _ _ h := ⟨h.nextExpectedSeq, h.sends⟩
  data _ _ := .log rfl
  counters _ _ _ := .silent rfl rfl rfl rfl
  taken _ _ := .silent rfl rfl rfl rfl
  stored _ _ _ _ _ _ _ _ := .silent rfl rfl rfl rfl
  called _ _ := .log rfl
  sliced _ _ _ _ := .log rfl

/-- The number that is expected next moves on by one with a datagram that is accepted. -/
structure StepSends (step : ClientStep) (w w' : World) : Prop where
  nextExpectedSeq : w'.this.nextExpectedSeq =
    if step.Accepts w then w.this.nextExpectedSeq.incr else w.this.nextExpectedSeq
  sends : Sends w'.this.nextExpectedSeq w w'

/-- A step that accepts nothing leaves the number. -/
theorem StepSends.of_not_accepts {step : ClientStep} {w w' : World} (h : ¬ step.Accepts w)
    (hsends : SendsNext w w') : StepSends step w w' where
  nextExpectedSeq := by rw [if_neg h, hsends.nextExpectedSeq]
  sends := hsends.nextExpectedSeq ▸ hsends.sends

/-- **Every datagram of a step carries the number that is expected next behind it.** -/
theorem step_sends (step : ClientStep) (w : World) : StepSends step w (after step.run w) := by
  cases step with
  | send buffer rely =>
    refine .of_not_accepts id (sendsNext_loopBound.answers _ _ ?_)
    exact Within.bind (within_readyBuffer buffer rely) (fun _ => within_sendTo _) w
  | outside company clock => exact .of_not_accepts id (.silent rfl rfl rfl rfl)
  | receive datagram =>
    obtain ⟨b, hstart⟩ := datagram
    show StepSends _ w (after (processPacket b) w)
    by_cases hset : ∃ id seq rest, IsFrameSet b id seq rest
    · obtain ⟨id, seq, rest, hset⟩ := hset
      have hnumber := (frameSetNumber?_eq_some hstart).mpr ⟨id, seq, rest, hset, rfl⟩
      have hrelease := sendsNext_loopBound.answers _ _ (within_release b
        (after (processFrames (IsFrameSet.number seq) (b.between (id :: seq) rest)) w))
      rw [hset.after_processPacket]
      by_cases hstale : IsFrameSet.number seq < w.this.nextExpectedSeq
      · rw [after_processFrames_stale hstale] at hrelease ⊢
        refine .of_not_accepts ?_ hrelease
        rintro ⟨number, hmem, hfresh⟩
        cases hnumber.symm.trans hmem
        exact hfresh hstale
      · -- behind the header the number has moved on, and the frames are answered with it
        rw [after_processFrames hstale] at hrelease ⊢
        have hloop : SendsNext (w.advanced (IsFrameSet.number seq)) _ := IsTrans.trans _ _ _
          (sendsNext_loopBound.frameLoop _ b (id :: seq) rest _) hrelease
        have hadvanced : Sends w.this.nextExpectedSeq.incr w (w.advanced (IsFrameSet.number seq)) :=
          .silent rfl rfl fun _ h => h
        refine ⟨?_, ?_⟩
        · rw [if_pos ⟨_, hnumber, hstale⟩]
          exact hloop.nextExpectedSeq
        · rw [hloop.nextExpectedSeq]
          exact hadvanced.trans hloop.sends
    · have hsettles := processPacket_settles hstart (fun id seq rest hb => hset ⟨id, seq, rest, hb⟩) w
      refine .of_not_accepts ?_ ⟨hsettles.nextExpectedSeq, hsettles.sends⟩
      rintro ⟨number, hmem, -⟩
      obtain ⟨id, seq, rest, hb, -⟩ := (frameSetNumber?_eq_some hstart).mp hmem
      exact hset ⟨id, seq, rest, hb⟩

/-! ## Runs -/

/-- What has been accepted in a run, and how much of it at each datagram that was sent. -/
structure Tally where
  accepted : Nat := 0
  atSends : List Nat := []
  deriving DecidableEq, Repr

/-- A step adds what it accepts, and notes the count so far at each datagram it sends. -/
def Tally.step (tally : Tally) (step : ClientStep) (w : World) : Tally :=
  let accepted := tally.accepted + if step.Accepts w then 1 else 0
  let sent := (after step.run w).outgoing.length - w.outgoing.length
  { accepted, atSends := tally.atSends ++ List.replicate sent accepted }

/-- A run and its tally. -/
def tallied (w : World) (steps : List ClientStep) : World × Tally :=
  steps.foldl (fun state step => (after step.run state.1, state.2.step step state.1)) (w, {})

/-- What a run of steps has accepted and sent. -/
def tally (w : World) (steps : List ClientStep) : Tally := (tallied w steps).2

theorem tallied_fst (w : World) (steps : List ClientStep) :
    (tallied w steps).1 = afterAll ClientStep.run w steps := by
  induction steps using List.reverseRecOn with
  | nil => rfl
  | append_singleton l step ih =>
    rw [afterAll_concat, ← ih, tallied, List.foldl_append]
    rfl

/-- The last step is counted behind the ones before it. -/
theorem tally_concat (w : World) (l : List ClientStep) (step : ClientStep) :
    tally w (l ++ [step]) = (tally w l).step step (afterAll ClientStep.run w l) := by
  rw [← tallied_fst, tally, tallied, List.foldl_append]
  rfl

/-- The datagrams made ready in a run. -/
def newOutgoing (w : World) (steps : List ClientStep) : List Outgoing :=
  (afterAll ClientStep.run w steps).outgoing.drop w.outgoing.length

/-- The numbers of a run follow its tally. -/
structure Follows (w : World) (steps : List ClientStep) : Prop where
  outgoing : (afterAll ClientStep.run w steps).outgoing = w.outgoing ++ newOutgoing w steps
  numbers : (newOutgoing w steps).map (·.number.toNat) =
    (tally w steps).atSends.map (· % 2 ^ 24)
  next : (afterAll ClientStep.run w steps).this.nextExpectedSeq.toNat =
    (tally w steps).accepted % 2 ^ 24
  indexes : Indexes {} (newOutgoing w steps)
    (afterAll ClientStep.run w steps).this.sendingRelyFrameIndex

/-- A fresh client has counted nothing. -/
theorem follows_nil {w : World} (hfresh : w.this.IsFresh) : Follows w [] := by
  have hnil : newOutgoing w [] = [] := List.drop_length
  refine ⟨?_, ?_, ?_, ?_⟩
  · rw [hnil, List.append_nil]
    rfl
  · rw [hnil]
    rfl
  · exact congrArg (fun client => client.nextExpectedSeq.toNat) hfresh
  · rw [hnil]
    exact congrArg RakroServerClient.sendingRelyFrameIndex hfresh

/-- What a step sends comes behind what has been sent before. -/
theorem Follows.exists_sending {w : World} {l : List ClientStep} (h : Follows w l)
    (step : ClientStep) : ∃ new, newOutgoing w (l ++ [step]) = newOutgoing w l ++ new ∧
      Sending (after step.run (afterAll ClientStep.run w l)).this.nextExpectedSeq
        (afterAll ClientStep.run w l) (after step.run (afterAll ClientStep.run w l)) new := by
  obtain ⟨new, hnew⟩ := (step_sends step (afterAll ClientStep.run w l)).sends
  refine ⟨new, ?_, hnew⟩
  rw [newOutgoing, afterAll_concat, hnew.outgoing, h.outgoing, List.append_assoc, List.drop_left]

theorem Follows.concat {w : World} {l : List ClientStep} (h : Follows w l) (step : ClientStep) :
    Follows w (l ++ [step]) := by
  have hstep := step_sends step (afterAll ClientStep.run w l)
  obtain ⟨new, hsent, hnew⟩ := h.exists_sending step
  -- the number that the new datagrams carry is the tally behind the step
  have hnext : (after step.run (afterAll ClientStep.run w l)).this.nextExpectedSeq.toNat =
      (tally w (l ++ [step])).accepted % 2 ^ 24 := by
    rw [hstep.nextExpectedSeq, tally_concat]
    show _ = ((tally w l).accepted + if _ then 1 else 0) % 2 ^ 24
    split
    · rw [UInt24.toNat_incr, h.next, Nat.mod_add_mod]
    · exact h.next
  have hnumber : new.map (·.number.toNat) =
      List.replicate new.length ((tally w (l ++ [step])).accepted % 2 ^ 24) := by
    refine List.eq_replicate_iff.mpr ⟨List.length_map _, fun number hmem => ?_⟩
    obtain ⟨sent, hm, rfl⟩ := List.mem_map.mp hmem
    rw [hnew.number sent hm, hnext]
  have hcount : (tally w (l ++ [step])).atSends =
      (tally w l).atSends ++ List.replicate new.length (tally w (l ++ [step])).accepted := by
    rw [tally_concat]
    show _ ++ List.replicate (_ - _) _ = _
    rw [hnew.outgoing, List.length_append, Nat.add_sub_cancel_left]
    rfl
  refine ⟨?_, ?_, ?_, ?_⟩
  · rw [hsent, afterAll_concat, hnew.outgoing, h.outgoing, List.append_assoc]
  · rw [hsent, hcount, List.map_append, List.map_append, h.numbers, hnumber, List.map_replicate]
  · rw [afterAll_concat]
    exact hnext
  · rw [hsent, afterAll_concat]
    exact hnew.indexes.append h.indexes

/-- **In every run, a datagram carries the number of datagrams that have been accepted by then.** -/
theorem follows_tally {w : World} (hfresh : w.this.IsFresh) (steps : List ClientStep) :
    Follows w steps := by
  induction steps using List.reverseRecOn with
  | nil => exact follows_nil hfresh
  | append_singleton l step ih => exact ih.concat step

/-! ## Numbers -/

/-- No two of the first `2 ^ 24` datagrams sent carry the same number. -/
def NumbersDistinct (w : World) (steps : List ClientStep) : Prop :=
  (((newOutgoing w steps).take (2 ^ 24)).map (·.number)).Nodup

/-- Between any two of them, the number of datagrams accepted is no multiple of `2 ^ 24`. -/
def TallyMovesOn (w : World) (steps : List ClientStep) : Prop :=
  ((tally w steps).atSends.take (2 ^ 24)).Pairwise fun m n => ¬ m ≡ n [MOD 2 ^ 24]

/--
**The numbers of a client are distinct exactly when between any two datagrams that it sends a
datagram is accepted, and not a whole cycle of them.**
-/
theorem numbersDistinct_iff {w : World} (hfresh : w.this.IsFresh) (steps : List ClientStep) :
    NumbersDistinct w steps ↔ TallyMovesOn w steps := by
  have htoNat : Function.Injective UInt24.toNat := fun _ _ => UInt24.toNat_inj.mp
  have hnumbers := congrArg (List.take (2 ^ 24)) (follows_tally hfresh steps).numbers
  unfold NumbersDistinct TallyMovesOn
  rw [← List.nodup_map_iff htoNat, List.map_map]
  rw [← List.map_take, ← List.map_take] at hnumbers
  rw [show UInt24.toNat ∘ Outgoing.number = fun sent => sent.number.toNat from rfl, hnumbers]
  exact List.pairwise_map

/-- A fresh client and a pool of two buffers. -/
def twoBuffers : World where
  this := { lastPacket := 0 }
  host := { company := .new 2 16 1 }

theorem twoBuffers_isFresh : twoBuffers.this.IsFresh := rfl

/-- A datagram of `count` messages with the id of a ping, each of which is answered. -/
def pings (number : UInt8) (count : Nat) : ClientStep :=
  .receive
    ⟨{ bytes := [0x80, number, 0, 0] ++ (List.replicate count [0, 0, 0x10, 0, 0]).flatten }, rfl⟩

/-- Two datagrams of the peer, each with a message that is answered. -/
theorem numbersDistinct_alternating : NumbersDistinct twoBuffers [pings 0 1, pings 1 1] := by
  refine (numbersDistinct_iff twoBuffers_isFresh _).mpr ?_
  unfold TallyMovesOn
  decide +kernel

/-- Two answers to one datagram carry the same number. -/
theorem not_numbersDistinct_two : ¬ NumbersDistinct twoBuffers [pings 0 2] := by
  unfold NumbersDistinct
  decide +kernel

end Rakro
