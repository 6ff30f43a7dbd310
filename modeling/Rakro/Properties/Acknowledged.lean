import Rakro.Properties.Outgoing

/-!
# Acknowledged datagrams

A peer acknowledges the number in the header of a datagram, and the datagram is filed under another
one, its index among the reliable datagrams. Both begin at zero. They stay the same only as long as
exactly one datagram is accepted for each reliable datagram that is sent.
-/

namespace Rakro

open Infra

/-! ## What an acknowledgement does -/

/-- What `process_ack` does with the records that it has read. -/
def processRecords (ack : Ack) : ClientM PUnit :=
  match ack.allPackets with
  | some ids => ids.forM eraseAckBuffer
  | none => throw .diverges

theorem processAck_eq (buffer : BinaryBuffer) :
    processAck buffer = owning buffer (do
      let (ack, _) ← onBuffer buffer (readNext Ack)
      processRecords ack) := rfl

/-- Of the entries, exactly the one under `key` is lost. -/
structure Releases (key : UInt24) (before behind : AList fun _ : UInt24 => BinaryBuffer) : Prop where
  lost : key ∉ behind
  kept : ∀ other, other ≠ key → behind.lookup other = before.lookup other

/-- Erasing a number takes its entry away and no other. -/
theorem ackBuffer_eraseAckBuffer (id : UInt24) (w : World) :
    (after (eraseAckBuffer id) w).this.ackBuffer = w.this.ackBuffer.erase id := by
  cases hlookup : w.this.ackBuffer.lookup id with
  | none =>
    rw [after_of_ok (run_eraseAckBuffer_none hlookup)]
    exact AList.ext (List.kerase_of_notMem_keys (AList.lookup_eq_none.mp hlookup)).symm
  | some buffer =>
    rw [after_of_ok (run_eraseAckBuffer_some hlookup)]
    rfl

/-- With the number of one datagram, the entry under that number is erased. -/
theorem ackBuffer_processRecords {ack : Ack} {number : UInt24}
    (hack : ack.allPackets = some [number]) (w : World) :
    (after (processRecords ack) w).this.ackBuffer = w.this.ackBuffer.erase number := by
  unfold processRecords
  rw [hack]
  show (after (eraseAckBuffer number >>= fun _ => pure PUnit.unit) w).this.ackBuffer = _
  rw [bind_pure_unit, ackBuffer_eraseAckBuffer]

/-- That releases the entry that is there under the same key, and no other. -/
theorem releases_iff_eq {key number : UInt24} {ack : Ack} (hack : ack.allPackets = some [number])
    {w : World} (hmem : key ∈ w.this.ackBuffer) :
    Releases key w.this.ackBuffer (after (processRecords ack) w).this.ackBuffer ↔ number = key := by
  rw [ackBuffer_processRecords hack]
  constructor
  · intro h
    by_contra hne
    have hstays : key ∈ w.this.ackBuffer.erase number := AList.mem_erase.mpr ⟨Ne.symm hne, hmem⟩
    exact h.lost hstays
  · rintro rfl
    exact ⟨fun h => (AList.mem_erase.mp h).1 rfl, fun other hne => AList.lookup_erase_ne hne⟩

/-! ## The datagrams that are filed -/

/-- The datagram `sent`, the `j`-th of the run, has been filed under its index and is there still. -/
inductive Filed (w : World) : List ClientStep → Nat → Outgoing → Prop
  | made {l : List ClientStep} {step : ClientStep} {j : Nat} {sent : Outgoing} :
      (newOutgoing w l).length ≤ j → (newOutgoing w (l ++ [step]))[j]? = some sent →
      isReliable sent.rely → sent.index ∉ (afterAll ClientStep.run w l).this.ackBuffer →
      sent.index ∈ (afterAll ClientStep.run w (l ++ [step])).this.ackBuffer →
      Filed w (l ++ [step]) j sent
  | kept {l : List ClientStep} {step : ClientStep} {j : Nat} {sent : Outgoing} :
      Filed w l j sent →
      sent.index ∈ (afterAll ClientStep.run w (l ++ [step])).this.ackBuffer →
      Filed w (l ++ [step]) j sent

section Filed

variable {w : World} {steps : List ClientStep} {j : Nat} {sent : Outgoing}

/-- A filed datagram has an entry under its index. -/
theorem Filed.mem (h : Filed w steps j sent) :
    sent.index ∈ (afterAll ClientStep.run w steps).this.ackBuffer := by
  cases h with
  | made _ _ _ _ hmem => exact hmem
  | kept _ hmem => exact hmem

theorem Filed.getElem? (hfresh : w.this.IsFresh) (h : Filed w steps j sent) :
    (newOutgoing w steps)[j]? = some sent := by
  induction h with
  | made _ hsent _ _ _ => exact hsent
  | @kept l step _ _ _ _ ih =>
    obtain ⟨new, hnew, -⟩ := (follows_tally hfresh l).exists_sending step
    rw [hnew, List.getElem?_append_left (List.getElem?_eq_some_iff.mp ih).1, ih]

/-- Every entry is a datagram of the run. -/
theorem exists_filed (hfresh : w.this.IsFresh) {key : UInt24}
    (hmem : key ∈ (afterAll ClientStep.run w steps).this.ackBuffer) :
    ∃ j sent, Filed w steps j sent ∧ sent.index = key := by
  induction steps using List.reverseRecOn with
  | nil =>
    have hempty : w.this.ackBuffer = ∅ := congrArg RakroServerClient.ackBuffer hfresh
    rw [afterAll_nil, hempty] at hmem
    exact absurd hmem (AList.notMem_empty key)
  | append_singleton l step ih =>
    by_cases hbefore : key ∈ (afterAll ClientStep.run w l).this.ackBuffer
    · obtain ⟨j, sent, hfiled, rfl⟩ := ih hbefore
      exact ⟨j, sent, .kept hfiled hmem, rfl⟩
    · obtain ⟨new, hnew, hsending⟩ := (follows_tally hfresh l).exists_sending step
      rw [← afterAll_concat] at hsending
      -- an entry that is new is one of the datagrams of the step
      rcases hsending.filed key hmem with hkey | ⟨sent, hsent, hrely, rfl⟩
      · exact absurd hkey hbefore
      · obtain ⟨i, hi⟩ := List.getElem?_of_mem hsent
        refine ⟨(newOutgoing w l).length + i, sent,
          .made (Nat.le_add_right _ i) ?_ hrely hbefore hmem, rfl⟩
        rw [hnew, List.getElem?_append_right (Nat.le_add_right _ i), Nat.add_sub_cancel_left, hi]

end Filed

/-! ## The two counters -/

/-- The index of a datagram is the number of reliable ones before it. -/
theorem toNat_index : ∀ {k k' : UInt24} {new : List Outgoing} {j : Nat} {sent : Outgoing},
    Indexes k new k' → k.Canonical → new[j]? = some sent →
    sent.index.toNat = (k.toNat + (new.take j).countP (isReliable ·.rely)) % 2 ^ 24
  | k, _, first :: rest, 0, sent, h, hk, hsent => by
    cases hsent
    rw [h.1]
    exact (Nat.mod_eq_of_lt hk).symm
  | k, _, first :: rest, j + 1, sent, h, hk, hsent => by
    rw [List.take_succ_cons, List.countP_cons]
    have hrest := h.2
    cases hrely : isReliable first.rely with
    | true =>
      rw [hrely, if_pos rfl] at hrest
      rw [toNat_index hrest k.incr_canonical hsent, UInt24.toNat_incr, if_pos rfl]
      omega
    | false =>
      rw [hrely, if_neg Bool.false_ne_true] at hrest
      rw [toNat_index hrest hk hsent, if_neg Bool.false_ne_true]
      rfl

/--
When the `j`-th datagram was made ready, as many datagrams had been accepted as reliable ones had
been sent before it, up to a multiple of `2 ^ 24`.
-/
def CountersAgree (w : World) (steps : List ClientStep) (j : Nat) : Prop :=
  ∃ n ∈ (tally w steps).atSends[j]?,
    n ≡ ((newOutgoing w steps).take j).countP (isReliable ·.rely) [MOD 2 ^ 24]

instance (w : World) (steps : List ClientStep) (j : Nat) : Decidable (CountersAgree w steps j) :=
  inferInstanceAs (Decidable (∃ n ∈ (tally w steps).atSends[j]?, n ≡ _ [MOD 2 ^ 24]))

/-- A datagram carries the index it is filed under exactly then. -/
theorem number_eq_index_iff {w : World} (hfresh : w.this.IsFresh) {steps : List ClientStep} {j : Nat}
    {sent : Outgoing} (hsent : (newOutgoing w steps)[j]? = some sent) :
    sent.number = sent.index ↔ CountersAgree w steps j := by
  have hfollows := follows_tally hfresh steps
  have hindex := toNat_index hfollows.indexes (show 0 < 2 ^ 24 by decide) hsent
  have hnumber := congrArg (·[j]?) hfollows.numbers
  simp only [List.getElem?_map, hsent, Option.map_some] at hnumber
  obtain ⟨n, hn, hmod⟩ := Option.map_eq_some_iff.mp hnumber.symm
  rw [← UInt24.toNat_inj, ← hmod, hindex]
  have hagree : CountersAgree w steps j ↔
      n ≡ ((newOutgoing w steps).take j).countP (isReliable ·.rely) [MOD 2 ^ 24] := by
    unfold CountersAgree
    rw [hn]
    simp
  rw [hagree]
  show n % 2 ^ 24 = (0 + _) % 2 ^ 24 ↔ _
  rw [Nat.zero_add]
  exact Iff.rfl

/--
**An acknowledgement releases the datagram whose number it names exactly when, as the datagram was
made ready, as many datagrams had been accepted as reliable ones had been sent.**
-/
theorem releases_iff {w : World} (hfresh : w.this.IsFresh) {steps : List ClientStep} {j : Nat}
    {sent : Outgoing} (hfiled : Filed w steps j sent) {ack : Ack}
    (hack : ack.allPackets = some [sent.number]) :
    Releases sent.index (afterAll ClientStep.run w steps).this.ackBuffer
        (after (processRecords ack) (afterAll ClientStep.run w steps)).this.ackBuffer ↔
      CountersAgree w steps j :=
  (releases_iff_eq hack hfiled.mem).trans (number_eq_index_iff hfresh (hfiled.getElem? hfresh))

/-- Before anything has arrived, the first reliable datagram carries its index. -/
theorem releases_first :
    Releases {} (afterAll ClientStep.run twoBuffers [.send oneByte .reliable]).this.ackBuffer
      (after (processRecords { records := [.single {}] })
        (afterAll ClientStep.run twoBuffers [.send oneByte .reliable])).this.ackBuffer := by
  have hfiled : Filed twoBuffers ([] ++ [.send oneByte .reliable]) 0 ⟨{}, .reliable, {}⟩ :=
    .made (by decide +kernel) (by decide +kernel) rfl (by decide +kernel) (by decide +kernel)
  rw [List.nil_append] at hfiled
  exact (releases_iff twoBuffers_isFresh hfiled rfl).mpr (by decide +kernel)

/-- A pool with room for the answer to a connection request. -/
def roomyBuffers : World where
  this := { lastPacket := 0 }
  host := { company := .new 2 192 1 }

/-- The first datagram asks for a connection. -/
def connects : ClientStep :=
  .receive ⟨{ bytes := [0x80, 0, 0, 0, 0, 0, 0x90, 9] ++ List.replicate 17 0 }, rfl⟩

/-- The answer carries the number 1 and is filed under 0: its acknowledgement releases nothing. -/
theorem not_releases_answer : ∃ sent, Filed roomyBuffers ([] ++ [connects]) 0 sent ∧
    ¬ Releases sent.index (afterAll ClientStep.run roomyBuffers [connects]).this.ackBuffer
      (after (processRecords { records := [.single sent.number] })
        (afterAll ClientStep.run roomyBuffers [connects])).this.ackBuffer := by
  have hfiled : Filed roomyBuffers ([] ++ [connects]) 0 ⟨⟨1⟩, .reliable, {}⟩ :=
    .made (by decide +kernel) (by decide +kernel) rfl (by decide +kernel) (by decide +kernel)
  have hmem := hfiled.mem
  rw [List.nil_append] at hmem
  refine ⟨_, hfiled, fun h => ?_⟩
  rw [releases_iff_eq rfl hmem] at h
  exact absurd h (by decide)

end Rakro
