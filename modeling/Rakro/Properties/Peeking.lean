import Rakro.Properties.TypedAccess
import Rakro.Roundtrip.Nack
import Rakro.Roundtrip.ReadyBuffer
import Rakro.Roundtrip.Strings

/-!
# Looking ahead

`read_next_peak` notes the cursor, runs the codec and puts the cursor back. An exception of the
codec leaves the function in between, so the cursor stays wherever the codec has left it. A type
whose reader can only fail at its first check never shows this. A type whose size depends on what is
read does, whenever the bytes end behind the part that the check is about.
-/

namespace Rakro

open Infra BinaryBuffer

variable {α β : Type}

/-! ## What it leaves -/

/-- `read_next_peak` leaves the buffer as it was and returns only what `read_next` returns. -/
structure PeekKeeps (T : Type) [BinaryData T] (b : BinaryBuffer) : Prop where
  unmoved : after (readNextPeak T) b = b
  value : ∀ v b', (readNextPeak T).run b = .ok v b' → ∃ b'', (readNext T).run b = .ok v b''

/-- `m` returns, or throws with the buffer as it was. -/
def Keeps (m : BufM α) (b : BinaryBuffer) : Prop := Succeeds m b ∨ after m b = b

theorem Keeps.of_ok {m : BufM α} {b b' : BinaryBuffer} {v : α} (h : m.run b = .ok v b') :
    Keeps m b := .inl (succeeds_of_ok h)

theorem Keeps.of_error {m : BufM α} {b : BinaryBuffer} {e : Exn} (h : m.run b = .error e b) :
    Keeps m b := .inr (after_of_error h)

theorem not_keeps_of_error {m : BufM α} {b b' : BinaryBuffer} {e : Exn}
    (h : m.run b = .error e b') (hne : b' ≠ b) : ¬ Keeps m b := by
  rintro (hok | hsame)
  · exact not_succeeds_of_error h hok
  · exact hne ((after_of_error h).symm.trans hsame)

theorem keeps_congr {m : BufM α} {n : BufM α} {b : BinaryBuffer} (h : m.run b = n.run b) :
    Keeps m b ↔ Keeps n b := by
  unfold Keeps
  rw [succeeds_congr h, after_congr h]

section Peek

variable {T : Type} [BinaryData T] {b b' : BinaryBuffer}

theorem run_readNextPeak_ok [Codec T] {v : T} (h : (readNext T).run b = .ok v b') :
    (readNextPeak T).run b = .ok v b := by
  obtain ⟨⟨⟩, b₁, hcheck, hread⟩ := bind_eq_ok h
  obtain rfl := boundsCheck_eq_ok hcheck
  exact (run_bind_of_ok hcheck).trans
    (run_lookAhead_ok hread (Codec.reads.within.of_run hread))

theorem run_readNextPeak_error {e : Exn} (h : (readNext T).run b = .error e b') :
    (readNextPeak T).run b = .error e b' := by
  cases hcheck : (boundsCheck (BinaryData.size (none : Option T))).run b with
  | ok u b₁ =>
    refine (run_bind_of_ok hcheck).trans (run_lookAhead_error ?_)
    exact (run_bind_of_ok hcheck).symm.trans h
  | error e' b₁ =>
    exact (run_bind_of_error hcheck).trans ((run_bind_of_error hcheck).symm.trans h)

/-- It comes down to what reading does when it throws. -/
theorem peekKeeps_iff [Codec T] : PeekKeeps T b ↔ Keeps (readNext T) b := by
  cases h : (readNext T).run b with
  | ok v b' =>
    have hpeek := run_readNextPeak_ok h
    refine iff_of_true ⟨after_of_ok hpeek, fun w b'' hrun => ?_⟩ (.of_ok h)
    rw [hpeek] at hrun
    cases hrun
    exact ⟨b', h⟩
  | error e b' =>
    have hpeek := run_readNextPeak_error h
    constructor
    · intro hkeeps
      have hsame := hkeeps.unmoved
      rw [after_of_error hpeek] at hsame
      exact .inr ((after_of_error h).trans hsame)
    · rintro (hok | hsame)
      · exact absurd hok (not_succeeds_of_error h)
      · rw [after_of_error h] at hsame
        refine ⟨(after_of_error hpeek).trans hsame, fun w b'' hrun => ?_⟩
        rw [hpeek] at hrun
        cases hrun

end Peek

/-! ## Past the end -/

/-- A check moves nothing. -/
theorem after_boundsCheck (extra : Nat) (b : BinaryBuffer) : after (boundsCheck extra) b = b := by
  cases h : (boundsCheck extra).run b with
  | ok u b' => exact (after_of_ok h).trans (boundsCheck_eq_ok h)
  | error e b' => exact (after_of_error h).trans (boundsCheck_eq_error h)

/-- Behind the last byte, no access goes through, and nothing moves. -/
theorem Reading.unmoved {m : BufM α} (h : Reading m) {b : BinaryBuffer} (hindex : b.index < 2 ^ 64)
    (hend : b.size ≤ b.index) : after m b = b := by
  induction h with
  | pure _ => rfl
  | throw _ => rfl
  | @bind α β m f _ _ ihm ihf =>
    cases hrun : m.run b with
    | ok a b' =>
      obtain rfl := (after_of_ok hrun).symm.trans ihm
      rw [after_bind_ok hrun]
      exact ihf a
    | error e b' =>
      rw [after_bind_error hrun]
      exact (after_of_error hrun).symm.trans ihm
  | check extra => exact after_boundsCheck extra b
  | nextByte => exact after_bind_error (run_boundsCheck_end hindex hend)
  | @ahead α m hm ih =>
    cases hrun : m.run b with
    | ok a b' => exact after_of_ok (run_lookAhead_ok hrun (hm.within.of_run hrun))
    | error e b' =>
      rw [after_of_error (run_lookAhead_error hrun)]
      exact (after_of_error hrun).symm.trans ih
  | view _ _ ih =>
    rw [after_get_bind]
    exact ih b

/-! ## Inside the view -/

section Inside

variable {b : BinaryBuffer} {p r : Bytes}

/-- What the check refuses has not moved. -/
theorem keeps_of_short {m : PUnit → BufM α} {extra : Nat} (h : r.length < extra)
    (hp : p.length + extra ≤ 2 ^ 64) : Keeps (boundsCheck extra >>= m) (b.between p r) :=
  .of_error (run_bind_of_error (run_boundsCheck_short h hp))

/-- Behind a check that passes, the rest decides. -/
theorem keeps_checked_iff {m : BufM α} {extra : Nat} (h0 : 1 ≤ extra) (h : extra ≤ r.length) :
    Keeps (boundsCheck extra >>= fun _ => m) (b.between p r) ↔ Keeps m (b.between p r) :=
  keeps_congr (run_bind_of_ok (run_boundsCheck h0 h))

/-- Once a byte has been taken, nothing but a value will do. -/
theorem keeps_bind_iff {m : BufM α} {f : α → BufM β} {enc : Bytes} {v : α} (hm : Consumes m enc v)
    (henc : 1 ≤ enc.length) (hf : Reading (f v)) :
    Keeps (m >>= f) (b.between p (enc ++ r)) ↔ Succeeds (f v) (b.between (p ++ enc) r) := by
  have hrun := hm b p r
  have hmoved : after (m >>= f) (b.between p (enc ++ r)) ≠ b.between p (enc ++ r) := by
    intro hsame
    have hle := (hf.within (b.between (p ++ enc) r)).index_le
    rw [← after_bind_ok (f := f) hrun, hsame, between_index, between_index,
      List.length_append] at hle
    omega
  unfold Keeps
  rw [succeeds_bind_of_ok hrun]
  exact or_iff_left hmoved

/-- A reader of a size that its check is about never moves for nothing. -/
theorem Sized.keeps {m : BufM α} {k extra : Nat} (hm : Sized k m) (h0 : 1 ≤ extra)
    (hk : k ≤ extra) (hp : p.length + extra ≤ 2 ^ 64) :
    Keeps (boundsCheck extra >>= fun _ => m) (b.between p r) := by
  by_cases h : r.length < extra
  · exact keeps_of_short h hp
  · rw [keeps_checked_iff h0 (by omega)]
    exact .inl ((hm.succeeds_iff b p r).mpr (by omega))

end Inside

/-! ## Readers of a fixed size -/

section Fixed

theorem sized_orBytes {w : Nat} (left x : Nat) (value : BitVec w) :
    Sized left (orBytes left x value) := by
  refine ⟨fun enc h => ?_, scans_orBytes left x value⟩
  subst h
  exact ⟨_, consumes_orBytes enc x value⟩

theorem sized_readIntegral (n : Nat) : Sized n (readIntegral n) := (sized_orBytes n 0 0).map _

theorem sized_uint8 : Sized 1 (readNext UInt8) :=
  ((sized_readIntegral 1).map _).readNext (Nat.le_refl 1) (Nat.le_refl 1)

theorem sized_uint16 : Sized 2 (readNext UInt16) :=
  ((sized_readIntegral 2).map _).readNext (show 1 ≤ 2 by decide) (Nat.le_refl 2)

theorem sized_uint32 : Sized 4 (readNext UInt32) :=
  ((sized_readIntegral 4).map _).readNext (show 1 ≤ 4 by decide) (Nat.le_refl 4)

theorem sized_uint64 : Sized 8 (readNext UInt64) :=
  ((sized_readIntegral 8).map _).readNext (show 1 ≤ 8 by decide) (Nat.le_refl 8)

theorem sized_char : Sized 1 (readNext CChar) :=
  ((sized_readIntegral 1).map _).readNext (Nat.le_refl 1) (Nat.le_refl 1)

theorem sized_bool : Sized 1 (readNext Bool) :=
  (sized_nextByte.map _).readNext (Nat.le_refl 1) (Nat.le_refl 1)

theorem sized_uint24 : Sized 3 (readNext UInt24) :=
  ((sized_orBytes 3 0 0).map _).readNext (show 1 ≤ 3 by decide) (Nat.le_refl 3)

/-- Dropping reads of one byte takes as many bytes. -/
theorem Sized.discard {m : BufM α} (hm : Sized 1 m) : ∀ count, Sized count (discard m count)
  | 0 => Sized.pure _
  | count + 1 => (hm.bind fun _ => Sized.discard hm count).of_eq (Nat.add_comm 1 count)

theorem sized_magicBytes : Sized 16 (BinaryData.read : BufM MagicType) :=
  (sized_nextByte.discard 16).map _

theorem sized_magic : Sized 16 (readNext MagicType) :=
  sized_magicBytes.readNext (show 1 ≤ 16 by decide) (Nat.le_refl 16)

/-- An optional field takes its size or nothing. -/
theorem Sized.readIf {m : BufM α} {k : Nat} (hm : Sized k m) (condition : Bool) :
    Sized (condition.toNat * k) (readIf condition m) := by
  cases condition with
  | true =>
    rw [Bool.toNat_true, Nat.one_mul]
    exact hm.map some
  | false =>
    rw [Bool.toNat_false, Nat.zero_mul]
    exact Sized.pure none

theorem sized_readOrderInformation : Sized 4 readOrderInformation :=
  sized_uint24.bind fun _ => sized_nextByte.map _

theorem sized_readFragmentInformation : Sized 10 readFragmentInformation :=
  sized_uint32.bind fun _ => sized_uint16.bind fun _ => sized_uint32.map _

theorem sized_readChars : ∀ cap, Sized cap (readChars cap)
  | 0 => Sized.pure _
  | cap + 1 =>
    (sized_char.bind fun _ => (sized_readChars cap).map _).of_eq (Nat.add_comm 1 cap)

theorem sized_readRanges : ∀ length, Sized (6 * length) (Ack.readRanges length)
  | 0 => Sized.pure _
  | length + 1 =>
    (sized_uint24.bind fun _ => sized_uint24.bind fun _ => (sized_readRanges length).map _).of_eq
      (by omega)

end Fixed

/-! ## Readers whose size is read -/

/-- The bytes that the optional fields behind a flag byte take. -/
def optionalSize (flags : UInt8) : Nat :=
  let rely := FrameReliability.ofBits (flags >>> 5)
  (isReliable rely).toNat * 3 + (isSeq rely).toNat * 3 + (isOrdered rely).toNat * 4
    + (decide (flags &&& isOrderd ≠ 0)).toNat * 10

/-- As many records as counted are there, each as long as its flag says. -/
def recordsFit : Nat → Bytes → Bool
  | 0, _ => true
  | _ + 1, [] => false
  | count + 1, flag :: r =>
    if flag ≠ 0 then 6 ≤ r.length && recordsFit count (r.drop 6)
    else 3 ≤ r.length && recordsFit count (r.drop 3)

section Varying

variable {b : BinaryBuffer} {p r : Bytes}

/-- Behind a check that covers the first field, the fields behind it decide. -/
theorem keeps_field_iff {m : BufM α} {f : α → BufM β} {extra k : Nat} {val : Bytes → α}
    (hm : ∀ x : Bytes, x.length = k → Consumes m x (val x)) (hf : ∀ v, Reading (f v)) (h0 : 1 ≤ k)
    (hk : k ≤ extra) (hp : p.length + extra ≤ 2 ^ 64) {complete : Prop}
    (hrest : ∀ x rest : Bytes, r = x ++ rest → x.length = k → extra ≤ k + rest.length →
      (Succeeds (f (val x)) (b.between (p ++ x) rest) ↔ complete)) :
    Keeps (boundsCheck extra >>= fun _ => m >>= f) (b.between p r) ↔
      r.length < extra ∨ complete := by
  by_cases h : r.length < extra
  · exact iff_of_true (keeps_of_short h hp) (.inl h)
  · obtain ⟨x, rest, hx, rfl⟩ := exists_split (n := k) (r := r) (by omega)
    have hlength : extra ≤ k + rest.length := by
      rw [List.length_append, hx] at h
      omega
    rw [keeps_checked_iff (by omega) (by omega), keeps_bind_iff (hm x hx) (by omega) (hf _),
      hrest x rest rfl hx hlength]
    exact (or_iff_right h).symm

/-- A count of two bytes. -/
theorem toNat_ofBeBytes {x : Bytes} (h : x.length = 2) :
    (UInt16.ofNat (ofBeBytes x)).toNat = ofBeBytes x := by
  have hlt := ofLeBytes_lt x.reverse
  rw [List.length_reverse, h] at hlt
  rw [UInt16.toNat_ofNat']
  exact Nat.mod_eq_of_lt hlt

/--
The reader of a string returns, or moves nothing, when the characters are there, or not even the
length is.
-/
theorem keeps_string_iff (hp : p.length + 2 ≤ 2 ^ 64) :
    Keeps (readNext StdString) (b.between p r) ↔
      r.length < 2 ∨ 2 + ofBeBytes (r.take 2) ≤ r.length := by
  refine keeps_field_iff (fun _ => consumes_uint16) (fun _ => (reading_readChars _).map _)
    (by decide) (Nat.le_refl 2) hp fun x rest hr hx _ => ?_
  subst hr
  rw [((sized_readChars _).map _).succeeds_iff, toNat_ofBeBytes hx, List.take_left' hx,
    List.length_append, hx]
  omega

/-- The size that is checked in front of a request is seven bytes short of what is read. -/
theorem keeps_connectionRequest_iff (hp : p.length + 10 ≤ 2 ^ 64) :
    Keeps (readNext ConnectionRequest) (b.between p r) ↔ r.length < 10 ∨ 17 ≤ r.length := by
  refine keeps_field_iff (fun _ => consumes_uint64)
    (fun _ => .bind (reading_readNext UInt64) fun _ => (reading_readNext Bool).map _)
    (by decide) (by decide) hp fun x rest hr hx _ => ?_
  subst hr
  rw [(sized_uint64.bind fun _ => sized_bool.map _).succeeds_iff, List.length_append, hx]
  omega

theorem consumes_flags {x : Bytes} (h : x.length = 1) : Consumes nextByte x (x.headD 0) := by
  obtain ⟨flags, rfl⟩ := List.length_eq_one_iff.mp h
  exact consumes_nextByte flags

/--
The reader of a frame's header returns, or moves nothing, when the optional fields are there, or not
even the flags and the length are.
-/
theorem keeps_frameInfo_iff (hp : p.length + 3 ≤ 2 ^ 64) :
    Keeps (readNext FrameInfo) (b.between p r) ↔
      r.length < 3 ∨ 3 + optionalSize (r.headD 0) ≤ r.length := by
  refine keeps_field_iff (fun _ => consumes_flags) (fun flags => ?_) (by decide) (by decide) hp
    fun x rest hr hx _ => ?_
  · refine .bind (reading_readNext UInt16) fun _ => ?_
    refine .bind (reading_readNext UInt24).readIf fun _ => ?_
    refine .bind (reading_readNext UInt24).readIf fun _ => ?_
    refine .bind reading_readOrderInformation.readIf fun _ => ?_
    exact reading_readFragmentInformation.readIf.map _
  · obtain ⟨flags, rfl⟩ := List.length_eq_one_iff.mp hx
    subst hr
    rw [(sized_uint16.bind fun _ => (sized_uint24.readIf _).bind fun _ =>
      (sized_uint24.readIf _).bind fun _ => (sized_readOrderInformation.readIf _).bind fun _ =>
        (sized_readFragmentInformation.readIf _).map _).succeeds_iff]
    rw [List.cons_append, List.headD_cons, List.headD_cons, List.length_cons, List.nil_append]
    unfold optionalSize
    dsimp only
    omega

theorem keeps_ack_iff (hp : p.length + 3 ≤ 2 ^ 64) :
    Keeps (readNext Ack) (b.between p r) ↔
      r.length < 3 ∨
        (if r.headD 0 = 0 then 4 else 3 + 6 * Ack.rangeCount ((r.drop 1).take 2)) ≤ r.length := by
  by_cases h : r.length < 3
  · exact iff_of_true (keeps_of_short h hp) (.inl h)
  obtain ⟨id, rest, rfl⟩ := List.exists_cons_of_length_pos (l := r) (by omega)
  rw [List.length_cons] at h
  obtain ⟨lengBytes, r', hleng, rfl⟩ := exists_split (n := 2) (r := rest) (by omega)
  -- the id is looked at first, and then taken
  have hpeek := run_readNextPeak (T := UInt8) (by simp) (by simp) (consumes_read_uint8 id) b p
    (lengBytes ++ r')
  refine (keeps_checked_iff (show 1 ≤ 3 by decide) (show 3 ≤ _ from ?_)).trans ?_
  · rw [List.length_cons]
    omega
  refine (keeps_congr (run_bind_of_ok hpeek)).trans ?_
  refine (keeps_bind_iff (consumes_uint8 id) (Nat.le_refl 1) ?_).trans ?_
  · split
    · exact .bind (reading_readNext UInt16) fun _ => (reading_readRanges _).map _
    · exact (reading_readNext UInt24).map _
  rw [List.headD_cons, List.length_cons, or_iff_right h, List.drop_one, List.tail_cons,
    List.take_left' hleng, List.length_append, hleng]
  by_cases hid : id = 0
  · rw [if_neg (not_not_intro hid), if_pos hid, (sized_uint24.map _).succeeds_iff,
      List.length_append, hleng]
    omega
  · rw [if_pos hid, if_neg hid, succeeds_bind_of_ok (consumes_uint16 hleng b (p ++ [id]) r'),
      ((sized_readRanges _).map _).succeeds_iff]
    unfold Ack.rangeCount
    omega

theorem succeeds_readRecords_iff : ∀ (count : Nat) (b : BinaryBuffer) (p r : Bytes),
    Succeeds (Nack.readRecords count) (b.between p r) ↔ recordsFit count r
  | 0, _, _, _ => iff_of_true (succeeds_pure _ _) rfl
  | count + 1, b, p, [] => by
    refine iff_of_false (fun h => ?_) (by simp [recordsFit])
    have hflag := (sized_bool.succeeds_iff b p []).mp h.of_bind.of_bind
    exact absurd hflag (by decide)
  | count + 1, b, p, flag :: r => by
    have hflag : (readNext Bool).run (b.between p (flag :: r)) = _ := consumes_bool flag b p r
    have hrest : ∀ (record : Ack.Record) (k : Nat) (p' : Bytes),
        Succeeds (Nack.readRecords count >>= fun records => pure (record :: records))
          (b.between p' (r.drop k)) ↔ recordsFit count (r.drop k) := by
      intro record k p'
      rw [succeeds_bind_iff fun _ _ => succeeds_pure _ _, succeeds_readRecords_iff]
    have hrange : Sized 6 (do
        let start ← readNext UInt24
        let stop ← readNext UInt24
        return Ack.Record.multi { start, stop } : BufM Ack.Record) :=
      sized_uint24.bind fun _ => sized_uint24.map _
    rw [Nack.readRecords, Nack.readRecord, bind_assoc, succeeds_bind_of_ok hflag, recordsFit]
    by_cases h : flag = 0
    · rw [if_neg (by simp [h]), if_neg (not_not_intro h),
        (sized_uint24.map _).succeeds_bind_iff fun record p' => hrest record 3 p', Bool.and_eq_true,
        decide_eq_true_iff]
    · rw [if_pos (by simp [h]), if_pos h,
        hrange.succeeds_bind_iff fun record p' => hrest record 6 p', Bool.and_eq_true,
        decide_eq_true_iff]

theorem keeps_nack_iff (hp : p.length + 3 ≤ 2 ^ 64) :
    Keeps (readNext Nack) (b.between p r) ↔
      r.length < 3 ∨ recordsFit (ofBeBytes (r.take 2)) (r.drop 2) := by
  refine keeps_field_iff (fun _ => consumes_uint16)
    (fun _ => (reading_readRecords _).map _) (by decide) (by decide) hp fun x rest hr hx _ => ?_
  subst hr
  rw [succeeds_bind_iff fun _ _ => succeeds_pure _ _, succeeds_readRecords_iff, toNat_ofBeBytes hx,
    List.take_left' hx, List.drop_left' hx]

/-- An address of another family is refused behind the magic bytes. -/
theorem keeps_readRequest2_iff (hp : p.length + 33 ≤ 2 ^ 64) :
    Keeps (readNext OpenConnectionRequest2) (b.between p r) ↔
      r.length < 33 ∨ r[16]? = some 4 := by
  by_cases h : r.length < 33
  · exact iff_of_true (keeps_of_short h hp) (.inl h)
  obtain ⟨bs, tag, rest, hbs, hrest, rfl, htag⟩ := exists_tag (r := r) (by omega)
  rw [or_iff_right h, htag, Option.some.injEq]
  by_cases hfour : tag = 4
  · obtain ⟨x, rest, rfl⟩ := List.exists_cons_of_length_pos (l := rest) (by omega)
    rw [List.length_cons] at hrest
    subst hfour
    exact iff_of_true (.of_ok (run_readRequest2 b p x hbs (by omega))) rfl
  · have hrun := run_readRequest2_untagged b p hbs hfour hrest
    refine iff_of_false (not_keeps_of_error hrun ?_) hfour
    intro hsame
    have hindex := congrArg BinaryBuffer.index hsame
    rw [between_index, between_index, List.length_append, hbs] at hindex
    omega

end Varying

/-! ## Readers that have nothing to fall over -/

section Steady

variable {b : BinaryBuffer} {p r : Bytes}

/-- An address is only looked at. -/
theorem keeps_rakAddress (hp : p.length + 7 ≤ 2 ^ 64) :
    Keeps (readNext RakAddress) (b.between p r) := by
  by_cases h : r.length < 7
  · exact keeps_of_short h hp
  obtain ⟨tag, rest, rfl⟩ := List.exists_cons_of_length_pos (l := r) (by omega)
  rw [List.length_cons] at h
  by_cases htag : tag = 4
  · obtain ⟨ip, port, rest, hip, hport, rfl⟩ := exists_address_fields (r := rest) (by omega)
    subst htag
    exact .of_ok (run_readAddress b p rest hip hport)
  · exact .of_error (run_readAddress_untagged b p rest htag (by omega))

/-- The first request ends where the bytes end. -/
theorem keeps_readRequest1 (hp : p.length + 100 ≤ 2 ^ 64) :
    Keeps (readNext OpenConnectionRequest1) (b.between p r) := by
  by_cases h : r.length < 100
  · exact keeps_of_short h hp
  obtain ⟨bs, rest, hbs, rfl⟩ := exists_split (n := 16) (r := r) (by omega)
  rw [List.length_append] at h
  obtain ⟨version, rest, rfl⟩ := List.exists_cons_of_length_pos (l := rest) (by omega)
  rw [List.length_cons] at h
  exact .of_ok (run_readRequest1 b p version hbs (by omega))

/-- What is not implemented throws where it stands. -/
theorem keeps_unimplemented (e : Exn) (extra : Nat) :
    Keeps (boundsCheck extra >>= fun _ => (throw e : BufM α)) b := by
  cases h : (boundsCheck extra).run b with
  | ok u b' =>
    obtain rfl := boundsCheck_eq_ok h
    exact .of_error (run_bind_of_ok h)
  | error e' b' =>
    obtain rfl := boundsCheck_eq_error h
    exact .of_error (run_bind_of_error h)

end Steady

/-! ## Every type -/

namespace WireType

/-- What the check in front of the reader asks for. -/
def stated (type : WireType) : Nat := BinaryData.size (none : Option type.Carrier)

/--
Where the check has passed, the bytes go on to hold every field. What is not listed has no field
behind those that the check is about.
-/
def complete : WireType → Bytes → Bool
  | string, r => 2 + ofBeBytes (r.take 2) ≤ r.length
  | connectionRequest, r => 17 ≤ r.length
  | openConnectionRequest2, r => r[16]? = some 4
  | frameInfo, r => 3 + optionalSize (r.headD 0) ≤ r.length
  | ack, r =>
    (if r.headD 0 = 0 then 4 else 3 + 6 * Ack.rangeCount ((r.drop 1).take 2)) ≤ r.length
  | nack, r => recordsFit (ofBeBytes (r.take 2)) (r.drop 2)
  | _, _ => true

/-- In front of `r`, the reader fails at its first check or not at all. -/
def Intact (type : WireType) (r : Bytes) : Prop := r.length < type.stated ∨ type.complete r = true

instance (type : WireType) (r : Bytes) : Decidable (type.Intact r) :=
  inferInstanceAs (Decidable (_ ∨ _))

/-- For every type: a peek keeps the cursor exactly where the value is intact. -/
theorem keeps_iff_intact (type : WireType) (b : BinaryBuffer) {p r : Bytes}
    (hsize : p.length + r.length < 2 ^ 63) :
    Keeps (readNext type.Carrier) (b.between p r) ↔ type.Intact r := by
  have hp : ∀ extra, extra ≤ 100 → p.length + extra ≤ 2 ^ 64 := by omega
  have halways : ∀ {keeps : Prop}, keeps → (keeps ↔ r.length < type.stated ∨ true = true) :=
    fun hkeeps => iff_of_true hkeeps (.inr rfl)
  have hfixed : ∀ {T : Type} {m : BufM T} (k : Nat), Sized k m → 1 ≤ k → k ≤ 100 →
      (Keeps (boundsCheck k >>= fun _ => m) (b.between p r) ↔
        r.length < type.stated ∨ true = true) :=
    fun k hm h0 hk => halways (hm.keeps h0 (Nat.le_refl k) (hp k hk))
  cases type with
  | uint8 | int8 | char =>
    exact hfixed 1 ((sized_readIntegral 1).map _) (by decide) (by decide)
  | uint16 | int16 => exact hfixed 2 ((sized_readIntegral 2).map _) (by decide) (by decide)
  | uint32 | int32 => exact hfixed 4 ((sized_readIntegral 4).map _) (by decide) (by decide)
  | uint64 | int64 => exact hfixed 8 ((sized_readIntegral 8).map _) (by decide) (by decide)
  | bool => exact hfixed 1 (sized_nextByte.map _) (by decide) (by decide)
  | uint24 => exact hfixed 3 ((sized_orBytes 3 0 0).map _) (by decide) (by decide)
  | magic => exact hfixed 16 sized_magicBytes (by decide) (by decide)
  | frameHeader =>
    exact hfixed 4 (sized_uint8.bind fun _ => sized_uint24.map _) (by decide) (by decide)
  | unconnectedPing =>
    exact hfixed 32 (sized_uint64.bind fun _ => sized_magic.bind fun _ => sized_uint64.map _)
      (by decide) (by decide)
  | connectedPing => exact hfixed 8 (sized_uint64.map _) (by decide) (by decide)
  | rakAddress => exact halways (keeps_rakAddress (hp 7 (by decide)))
  | openConnectionRequest1 => exact halways (keeps_readRequest1 (hp 100 (by decide)))
  | unconnectedPong | openConnectionReply1 | openConnectionReply2 | incompatibleProtocol
  | connectionRequestAccepted | connectedPong => exact halways (keeps_unimplemented _ _)
  | string =>
    exact (keeps_string_iff (hp 2 (by decide))).trans (or_congr_right decide_eq_true_iff.symm)
  | connectionRequest =>
    exact (keeps_connectionRequest_iff (hp 10 (by decide))).trans
      (or_congr_right decide_eq_true_iff.symm)
  | openConnectionRequest2 =>
    exact (keeps_readRequest2_iff (hp 33 (by decide))).trans
      (or_congr_right decide_eq_true_iff.symm)
  | frameInfo =>
    exact (keeps_frameInfo_iff (hp 3 (by decide))).trans (or_congr_right decide_eq_true_iff.symm)
  | ack =>
    exact (keeps_ack_iff (hp 3 (by decide))).trans (or_congr_right decide_eq_true_iff.symm)
  | nack => exact keeps_nack_iff (hp 3 (by decide))

/-- Every type states a size. -/
theorem stated_pos (type : WireType) : 0 < type.stated := by
  cases type <;> decide

end WireType

/--
**Looking ahead keeps the cursor exactly when the bytes in front of it are too few for the first
check or hold every field.**

Whatever is returned is what reading returns. The cursor stays behind when a field is missing that
the check has not asked for, or when the second request has an address of another family.
-/
theorem peekKeeps_iff_intact (type : WireType) {b : BinaryBuffer} (hindex : b.index < 2 ^ 64)
    (hsize : b.size < 2 ^ 63) : PeekKeeps type.Carrier b ↔ type.Intact b.remainingSlice := by
  rw [peekKeeps_iff]
  by_cases hinside : b.index ≤ b.size
  · have hlength : b.consumedSlice.length + b.remainingSlice.length < 2 ^ 63 := by
      rw [← List.length_append, consumedSlice, remainingSlice, List.take_append_drop]
      exact hsize
    have h := type.keeps_iff_intact b hlength
    rwa [← eq_between hinside] at h
  · have hnil : b.remainingSlice = [] := List.drop_eq_nil_of_le (Nat.le_of_not_le hinside)
    rw [hnil]
    exact iff_of_true (.inr ((reading_readNext type.Carrier).unmoved hindex (by omega)))
      (.inl type.stated_pos)

/-- A string of one character. -/
theorem peekKeeps_iff_intact_oneChar : PeekKeeps StdString { bytes := [0, 1, 104] } :=
  (peekKeeps_iff_intact .string (by decide) (by decide)).mpr (by decide)

/-- Of five characters there are none, and the cursor is left behind the count. -/
theorem peek_fiveChars_moves : (after (readNextPeak StdString) { bytes := [0, 5] }).index = 2 ∧
    ¬ PeekKeeps StdString { bytes := [0, 5] } := by
  have hindex : (after (readNextPeak StdString) { bytes := [0, 5] }).index = 2 := by decide +kernel
  refine ⟨hindex, fun h => ?_⟩
  rw [h.unmoved] at hindex
  cases hindex

end Rakro
