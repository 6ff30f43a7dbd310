import Rakro.Internal.BinaryBuffer

/-!
# Reading and writing at the cursor

A buffer whose cursor is inside the view is `b.between p r`: `p` is behind the cursor, `r` in front
of it. What a reader or a writer does there does not depend on `p` and on what follows its own
bytes, so four judgments on the encoding alone describe it, and all of them compose along `bind`.

* `Consumes m enc v` — in front of `enc`, `m` reads exactly `enc` and returns `v`
* `Scans k m` — whenever `m` returns, it has consumed an encoding, of `k` bytes at least
* `Sized k m` — any `k` bytes are an encoding, and fewer are none
* `Emits m enc` — with room for it, `m` writes exactly `enc`, and without it throws
-/

namespace Rakro

open Infra

variable {α β : Type}

namespace BinaryBuffer

/-- The buffer `b` with other bytes, `p` of them behind the cursor and `r` in front. -/
def between (b : BinaryBuffer) (p r : Bytes) : BinaryBuffer :=
  { b with bytes := p ++ r, index := p.length }

variable (b : BinaryBuffer) (p r : Bytes)

@[simp] theorem between_bytes : (b.between p r).bytes = p ++ r := rfl

@[simp] theorem between_index : (b.between p r).index = p.length := rfl

@[simp] theorem between_cursorHome :
    (b.between p r).cursorHome = b.home.map (Place.shift · p.length) := rfl

@[simp] theorem between_size : (b.between p r).size = p.length + r.length :=
  List.length_append

@[simp] theorem between_remaining : (b.between p r).remaining = r.length := by
  unfold remaining
  rw [between_size, between_index, if_pos (by omega)]
  omega

@[simp] theorem between_remainingSlice : (b.between p r).remainingSlice = r :=
  List.drop_left

@[simp] theorem between_consumedSlice : (b.between p r).consumedSlice = p :=
  List.take_left

/-- Skipping a part moves it to the front. -/
theorem between_skipn {x : Bytes} {n : Nat} (h : n = x.length) :
    (b.between p (x ++ r)).skipn n = b.between (p ++ x) r := by
  subst h
  simp [between, skipn]

/-- Going back moves it behind the cursor again. -/
theorem between_goTo {x : Bytes} :
    (b.between (p ++ x) r).goTo p.length = b.between p (x ++ r) := by
  simp [between, goTo]

theorem length_consumedSlice {buffer : BinaryBuffer} (h : buffer.index ≤ buffer.size) :
    buffer.consumedSlice.length = buffer.consumed := by
  unfold consumedSlice
  rw [List.length_take]
  exact Nat.min_eq_left h

/-- Every buffer whose cursor is inside the view is of this form. -/
theorem eq_between {b : BinaryBuffer} (h : b.index ≤ b.size) :
    b = b.between b.consumedSlice b.remainingSlice := by
  unfold between
  rw [length_consumedSlice h, consumedSlice, remainingSlice, List.take_append_drop]
  rfl

end BinaryBuffer

open BinaryBuffer

/-! ## The byte primitives -/

theorem run_boundsCheck {b : BinaryBuffer} {p r : Bytes} {extra : Nat} (h0 : 1 ≤ extra)
    (h : extra ≤ r.length) :
    (boundsCheck extra).run (b.between p r) = .ok ⟨⟩ (b.between p r) := by
  have hlt : (p.length + extra - 1) % 2 ^ 64 < p.length + r.length :=
    Nat.lt_of_le_of_lt (Nat.mod_le _ _) (by omega)
  unfold boundsCheck
  rw [run_get_bind]
  simp only [between_size, between_index]
  rw [if_neg (by omega), EStateM.run_pure]

/-- More bytes than there are in front of the cursor are refused. -/
theorem run_boundsCheck_short {b : BinaryBuffer} {p r : Bytes} {extra : Nat}
    (h : r.length < extra) (hlt : p.length + extra ≤ 2 ^ 64) :
    (boundsCheck extra).run (b.between p r)
      = .error (.outOfRange "Not enough space in type") (b.between p r) := by
  unfold boundsCheck
  rw [run_get_bind]
  simp only [between_size, between_index]
  rw [if_pos (by omega)]
  rfl

/-- What comes behind a check asks for the bytes it is about. -/
theorem le_length_of_succeeds {α : Type} {b : BinaryBuffer} {p r : Bytes} {extra : Nat}
    {rest : PUnit → BufM α} (hp : p.length + extra ≤ 2 ^ 64)
    (h : Succeeds (boundsCheck extra >>= rest) (b.between p r)) : extra ≤ r.length := by
  by_contra hshort
  have hcheck := run_boundsCheck_short (b := b) (Nat.lt_of_not_le hshort) hp
  exact not_succeeds_of_error (run_bind_of_error hcheck) h

/-- What is read has at least the size that its type states. -/
theorem length_of_succeeds_readNext {T : Type} [BinaryData T] {b : BinaryBuffer} {p r : Bytes}
    (hp : p.length + BinaryData.size (none : Option T) ≤ 2 ^ 64)
    (h : Succeeds (readNext T) (b.between p r)) : BinaryData.size (none : Option T) ≤ r.length :=
  le_length_of_succeeds hp h

theorem run_nextByte (b : BinaryBuffer) (p r : Bytes) (x : UInt8) :
    nextByte.run (b.between p (x :: r)) = .ok x (b.between (p ++ [x]) r) := by
  unfold nextByte
  rw [run_bind_of_ok (run_boundsCheck (Nat.le_refl 1) (by simp))]
  simp only [EStateM.run_bind, EStateM.run_get, EStateM.run_set, between_bytes, between_index]
  rw [List.getElem?_append_right (Nat.le_refl _), Nat.sub_self, List.getElem?_cons_zero]
  rw [show (b.between p (x :: r)).skipn 1 = b.between (p ++ [x]) r from
    between_skipn b p r (show 1 = [x].length from rfl)]
  rfl

theorem run_writeByte (b : BinaryBuffer) (p r : Bytes) (x val : UInt8) :
    (writeByte val).run (b.between p (x :: r)) = .ok ⟨⟩ (b.between (p ++ [val]) r) := by
  have hlt : (b.between p (x :: r)).index < (b.between p (x :: r)).size := by simp
  unfold writeByte
  rw [run_bind_of_ok (run_boundsCheck (Nat.le_refl 1) (by simp)), run_get_bind, if_pos hlt,
    EStateM.run_set]
  congr 1
  simp [between]

/-- A check that passes leaves the buffer as it was. -/
theorem boundsCheck_eq_ok {extra : Nat} {b b' : BinaryBuffer} {u : PUnit}
    (h : (boundsCheck extra).run b = .ok u b') : b' = b := by
  unfold boundsCheck at h
  rw [run_get_bind] at h
  split at h
  · cases h
  · cases h; rfl

/-- A check that fails leaves the buffer as it was, too. -/
theorem boundsCheck_eq_error {extra : Nat} {b b' : BinaryBuffer} {e : Exn}
    (h : (boundsCheck extra).run b = .error e b') : b' = b := by
  unfold boundsCheck at h
  rw [run_get_bind] at h
  split at h
  · cases h; rfl
  · cases h

/-- At the end of the view or behind it there is no byte. -/
theorem run_boundsCheck_end {b : BinaryBuffer} (hindex : b.index < 2 ^ 64)
    (hend : b.size ≤ b.index) :
    (boundsCheck 1).run b = .error (.outOfRange "Not enough space in type") b := by
  have hmod : (b.index + 1 - 1) % 2 ^ 64 = b.index := by omega
  unfold boundsCheck
  rw [run_get_bind]
  rw [hmod, if_pos hend]
  rfl

/-! ## Reading -/

/-- In front of `enc`, `m` reads exactly `enc` and returns `v`. -/
def Consumes (m : BufM α) (enc : Bytes) (v : α) : Prop :=
  ∀ (b : BinaryBuffer) (p r : Bytes), m.run (b.between p (enc ++ r)) = .ok v (b.between (p ++ enc) r)

theorem Consumes.pure (v : α) : Consumes (pure v) [] v := by
  intro b p r
  rw [EStateM.run_pure, List.append_nil, List.nil_append]

theorem Consumes.bind {m : BufM α} {f : α → BufM β} {enc enc' : Bytes} {v : α} {w : β}
    (hm : Consumes m enc v) (hf : Consumes (f v) enc' w) :
    Consumes (m >>= f) (enc ++ enc') w := by
  intro b p r
  rw [List.append_assoc, run_bind_of_ok (hm b p (enc' ++ r)), hf b (p ++ enc) r, List.append_assoc]

theorem Consumes.map {m : BufM α} {enc : Bytes} {v : α} (f : α → β) (hm : Consumes m enc v) :
    Consumes (m >>= fun a => Pure.pure (f a)) enc (f v) := by
  have := hm.bind (f := fun a => Pure.pure (f a)) (Consumes.pure (f v))
  rwa [List.append_nil] at this

/-- Readers one after the other. -/
theorem Consumes.mapM {ι : Type} {m : ι → BufM α} {enc : ι → Bytes} {v : ι → α} :
    ∀ l : List ι, (∀ i ∈ l, Consumes (m i) (enc i) (v i)) →
      Consumes (l.mapM m) (l.flatMap enc) (l.map v)
  | [], _ => Consumes.pure []
  | i :: l, h => by
    rw [List.mapM_cons]
    exact (h i List.mem_cons_self).bind
      ((Consumes.mapM l fun j hj => h j (List.mem_cons_of_mem _ hj)).map (v i :: ·))

theorem consumes_nextByte (x : UInt8) : Consumes nextByte [x] x :=
  fun b p r => run_nextByte b p r x

/-- A size check that the encoding satisfies changes nothing. -/
theorem Consumes.checked {m : BufM α} {extra : Nat} {enc : Bytes} {v : α} (h0 : 1 ≤ extra)
    (h : extra ≤ enc.length) (hm : Consumes m enc v) :
    Consumes (boundsCheck extra >>= fun _ => m) enc v := by
  intro b p r
  rw [run_bind_of_ok (run_boundsCheck h0 (by rw [List.length_append]; omega))]
  exact hm b p r

/-- A typed read consumes what its codec does. -/
theorem Consumes.readNext {T : Type} [BinaryData T] {enc : Bytes} {v : T}
    (h0 : 1 ≤ BinaryData.size (none : Option T))
    (h : BinaryData.size (none : Option T) ≤ enc.length)
    (hm : Consumes BinaryData.read enc v) : Consumes (readNext T) enc v :=
  hm.checked h0 h

/-- Peeking returns what reading returns and leaves the cursor in place. -/
theorem run_readNextPeak {T : Type} [BinaryData T] {enc : Bytes} {v : T}
    (h0 : 1 ≤ BinaryData.size (none : Option T))
    (h : BinaryData.size (none : Option T) ≤ enc.length)
    (hm : Consumes BinaryData.read enc v) (b : BinaryBuffer) (p r : Bytes) :
    (readNextPeak T).run (b.between p (enc ++ r)) = .ok v (b.between p (enc ++ r)) := by
  unfold Rakro.readNextPeak
  rw [run_bind_of_ok (run_boundsCheck h0 (by rw [List.length_append]; omega))]
  simp only [EStateM.run_bind, EStateM.run_get, hm b p r, EStateM.run_modify, EStateM.run_pure]
  rw [between_index, between_goTo]

/-- Whenever `m` returns, it has read an encoding of its value, of `k` bytes at least. -/
def Scans (k : Nat) (m : BufM α) : Prop :=
  ∀ (b : BinaryBuffer) (p r : Bytes) (v : α) (b' : BinaryBuffer),
    m.run (b.between p r) = .ok v b' →
    ∃ enc r' : Bytes, r = enc ++ r' ∧ b' = b.between (p ++ enc) r' ∧ Consumes m enc v ∧
      k ≤ enc.length

theorem Scans.mono {k k' : Nat} {m : BufM α} (hk : k' ≤ k) (hm : Scans k m) : Scans k' m := by
  intro b p r v b' h
  obtain ⟨enc, r', hr, hb', hc, hlen⟩ := hm b p r v b' h
  exact ⟨enc, r', hr, hb', hc, Nat.le_trans hk hlen⟩

theorem Scans.pure (v : α) : Scans 0 (pure v : BufM α) := by
  intro b p r w b' h
  cases h
  exact ⟨[], r, rfl, by rw [List.append_nil], Consumes.pure v, Nat.zero_le _⟩

theorem Scans.bind {k l : Nat} {m : BufM α} {f : α → BufM β} (hm : Scans k m)
    (hf : ∀ a, Scans l (f a)) : Scans (k + l) (m >>= f) := by
  intro b p r w b' h
  obtain ⟨v, b₁, hrun, hrest⟩ := bind_eq_ok h
  obtain ⟨enc, r₁, hr, hb₁, hcm, hk⟩ := hm b p r v b₁ hrun
  subst hb₁
  obtain ⟨enc', r', hr₁, hb', hcf, hl⟩ := hf v b (p ++ enc) r₁ w b' hrest
  exact ⟨enc ++ enc', r', by rw [hr, hr₁, List.append_assoc],
    by rw [hb', List.append_assoc], hcm.bind hcf, by rw [List.length_append]; omega⟩

/-- A check of no more bytes than the reader takes anyway only rejects earlier. -/
theorem Scans.checked {k extra : Nat} {m : BufM α} (h0 : 1 ≤ extra) (hk : extra ≤ k)
    (hm : Scans k m) : Scans k (boundsCheck extra >>= fun _ => m) := by
  intro b p r v b' h
  obtain ⟨u, b₁, hc, hrest⟩ := bind_eq_ok h
  obtain rfl := boundsCheck_eq_ok hc
  obtain ⟨enc, r', hr, hb', hcm, hlen⟩ := hm b p r v b' hrest
  exact ⟨enc, r', hr, hb', hcm.checked h0 (Nat.le_trans hk hlen), hlen⟩

theorem scans_nextByte : Scans 1 nextByte := by
  intro b p r v b' h
  cases r with
  | nil =>
    obtain ⟨u, b₁, hc, hrest⟩ := bind_eq_ok h
    obtain rfl := boundsCheck_eq_ok hc
    simp [EStateM.run_bind, between] at hrest
    cases hrest
  | cons x r =>
    rw [run_nextByte] at h
    injection h with hv hb
    subst hv hb
    exact ⟨[x], r, rfl, rfl, consumes_nextByte x, Nat.le_refl 1⟩

/-- A reader that some bytes of the right length always satisfy takes exactly that many. -/
theorem Scans.exact {k : Nat} {m : BufM α} {f : Bytes → α} (hm : Scans k m)
    (htotal : ∀ bs : Bytes, bs.length = k → Consumes m bs (f bs)) {b b' : BinaryBuffer}
    {p r : Bytes} {v : α} (h : m.run (b.between p r) = .ok v b') :
    ∃ bs r' : Bytes, bs.length = k ∧ r = bs ++ r' ∧ b' = b.between (p ++ bs) r' ∧ v = f bs := by
  obtain ⟨enc, r', rfl, -, -, hk⟩ := hm b p r v b' h
  have hlen : (enc.take k).length = k := by rw [List.length_take]; omega
  rw [← List.take_append_drop k enc, List.append_assoc, htotal _ hlen b p] at h
  cases h
  exact ⟨enc.take k, enc.drop k ++ r', hlen,
    by rw [← List.append_assoc, List.take_append_drop], rfl, rfl⟩

/-- Any `k` bytes are read, and in front of fewer `m` throws. -/
structure Sized (k : Nat) (m : BufM α) : Prop where
  consumes : ∀ enc : Bytes, enc.length = k → ∃ v, Consumes m enc v
  scans : Scans k m

namespace Sized

theorem of_eq {k k' : Nat} {m : BufM α} (hm : Sized k m) (h : k = k') : Sized k' m := h ▸ hm

theorem pure (v : α) : Sized 0 (pure v : BufM α) := by
  refine ⟨fun enc h => ⟨v, ?_⟩, Scans.pure v⟩
  obtain rfl := List.length_eq_zero_iff.mp h
  exact Consumes.pure v

theorem bind {k l : Nat} {m : BufM α} {f : α → BufM β} (hm : Sized k m)
    (hf : ∀ a, Sized l (f a)) : Sized (k + l) (m >>= f) := by
  refine ⟨fun enc h => ?_, hm.scans.bind fun a => (hf a).scans⟩
  obtain ⟨v, hv⟩ := hm.consumes (enc.take k) (List.length_take_of_le (by omega))
  obtain ⟨w, hw⟩ := (hf v).consumes (enc.drop k) (by rw [List.length_drop]; omega)
  rw [← List.take_append_drop k enc]
  exact ⟨w, hv.bind hw⟩

theorem map {k : Nat} {m : BufM α} (hm : Sized k m) (f : α → β) :
    Sized k (m >>= fun a => Pure.pure (f a)) := hm.bind fun a => pure (f a)

theorem checked {k extra : Nat} {m : BufM α} (h0 : 1 ≤ extra) (hk : extra ≤ k)
    (hm : Sized k m) : Sized k (boundsCheck extra >>= fun _ => m) := by
  refine ⟨fun enc h => ?_, hm.scans.checked h0 hk⟩
  obtain ⟨v, hv⟩ := hm.consumes enc h
  exact ⟨v, hv.checked h0 (by omega)⟩

/-- A typed read takes what its codec does. -/
theorem readNext {T : Type} [BinaryData T] {k : Nat} (h0 : 1 ≤ BinaryData.size (none : Option T))
    (hk : BinaryData.size (none : Option T) ≤ k) (hm : Sized k (BinaryData.read : BufM T)) :
    Sized k (readNext T) := hm.checked h0 hk

/-- What is there decides whether it returns. -/
theorem succeeds_iff {k : Nat} {m : BufM α} (hm : Sized k m) (b : BinaryBuffer) (p r : Bytes) :
    Succeeds m (b.between p r) ↔ k ≤ r.length := by
  constructor
  · rintro ⟨v, b', hrun⟩
    obtain ⟨enc, r', rfl, -, -, hk⟩ := hm.scans b p r v b' hrun
    rw [List.length_append]
    omega
  · intro hk
    obtain ⟨v, hv⟩ := hm.consumes (r.take k) (List.length_take_of_le hk)
    have hrun := hv b p (r.drop k)
    rw [List.take_append_drop] at hrun
    exact succeeds_of_ok hrun

/-- A reader of a known size and a rest succeed when the size is there and the rest does. -/
theorem succeeds_bind_iff {k : Nat} {m : BufM α} {f : α → BufM β} (hm : Sized k m)
    {b : BinaryBuffer} {p r : Bytes} {rest : Prop}
    (hf : ∀ v p', Succeeds (f v) (b.between p' (r.drop k)) ↔ rest) :
    Succeeds (m >>= f) (b.between p r) ↔ k ≤ r.length ∧ rest := by
  by_cases hk : k ≤ r.length
  · obtain ⟨v, hv⟩ := hm.consumes (r.take k) (List.length_take_of_le hk)
    have hrun := hv b p (r.drop k)
    rw [List.take_append_drop] at hrun
    rw [succeeds_bind_of_ok hrun, hf, and_iff_right hk]
  · exact iff_of_false (fun h => hk ((hm.succeeds_iff b p r).mp h.of_bind)) fun h => hk h.1

end Sized

theorem sized_nextByte : Sized 1 nextByte := by
  refine ⟨fun enc h => ?_, scans_nextByte⟩
  obtain ⟨x, rfl⟩ := List.length_eq_one_iff.mp h
  exact ⟨x, consumes_nextByte x⟩

/-! ## Writing -/

/--
With as many bytes as `enc` in front of the cursor, `m` overwrites exactly those; with fewer, it
throws.
-/
structure Emits (m : BufM PUnit) (enc : Bytes) : Prop where
  writes : ∀ (b : BinaryBuffer) (p old r : Bytes), old.length = enc.length →
    m.run (b.between p (old ++ r)) = .ok ⟨⟩ (b.between (p ++ enc) r)
  overflows : ∀ (b : BinaryBuffer) (p r : Bytes), p.length + r.length < 2 ^ 64 →
    r.length < enc.length → ∃ e b', m.run (b.between p r) = .error e b'

theorem Emits.nil : Emits (pure ⟨⟩) [] := by
  constructor
  · intro b p old r h
    have : old = [] := List.length_eq_zero_iff.mp h
    subst this
    rw [EStateM.run_pure, List.append_nil, List.nil_append]
  · intro b p r _ h
    exact absurd h (Nat.not_lt_zero _)

theorem Emits.bind {m n : BufM PUnit} {enc enc' : Bytes} (hm : Emits m enc) (hn : Emits n enc') :
    Emits (m >>= fun _ => n) (enc ++ enc') := by
  constructor
  · intro b p old r h
    rw [List.length_append] at h
    have h1 : (old.take enc.length).length = enc.length := by rw [List.length_take]; omega
    have h2 : (old.drop enc.length).length = enc'.length := by rw [List.length_drop]; omega
    rw [← List.take_append_drop enc.length old, List.append_assoc,
      run_bind_of_ok (hm.writes b p _ _ h1), hn.writes b (p ++ enc) _ r h2, List.append_assoc]
  · intro b p r hlt h
    rw [List.length_append] at h
    by_cases hr : r.length < enc.length
    · obtain ⟨e, b', hrun⟩ := hm.overflows b p r hlt hr
      exact ⟨e, b', run_bind_of_error hrun⟩
    -- the first part fits, so the second one finds too little room
    · have h1 : (r.take enc.length).length = enc.length := by rw [List.length_take]; omega
      obtain ⟨e, b', hrun⟩ := hn.overflows b (p ++ enc) (r.drop enc.length)
        (by rw [List.length_append, List.length_drop]; omega) (by rw [List.length_drop]; omega)
      rw [← List.take_append_drop enc.length r, run_bind_of_ok (hm.writes b p _ _ h1)]
      exact ⟨e, b', hrun⟩

theorem emits_writeByte (val : UInt8) : Emits (writeByte val) [val] := by
  constructor
  · intro b p old r h
    obtain ⟨x, rfl⟩ := List.length_eq_one_iff.mp h
    exact run_writeByte b p r x val
  · intro b p r hlt h
    obtain rfl : r = [] := List.length_eq_zero_iff.mp (by rw [List.length_singleton] at h; omega)
    exact ⟨_, _, run_bind_of_error (run_boundsCheck_short Nat.zero_lt_one (by simp at hlt; omega))⟩

theorem Emits.forM {T : Type} {m : T → BufM PUnit} {f : T → Bytes} (hm : ∀ v, Emits (m v) (f v)) :
    ∀ l : List T, Emits (l.forM m) (l.flatMap f)
  | [] => Emits.nil
  | v :: l => (hm v).bind (Emits.forM hm l)

theorem emits_forM : ∀ bs : Bytes, Emits (bs.forM writeByte) bs
  | [] => Emits.nil
  | x :: bs => (emits_writeByte x).bind (emits_forM bs)

theorem Emits.checked {m : BufM PUnit} {extra : Nat} {enc : Bytes} (h0 : 1 ≤ extra)
    (h : extra ≤ enc.length) (hm : Emits m enc) : Emits (boundsCheck extra >>= fun _ => m) enc := by
  constructor
  · intro b p old r hold
    rw [run_bind_of_ok (run_boundsCheck h0 (by rw [List.length_append]; omega))]
    exact hm.writes b p old r hold
  · intro b p r hlt hr
    cases hc : (boundsCheck extra).run (b.between p r) with
    | ok u b' =>
      obtain rfl := boundsCheck_eq_ok hc
      rw [run_bind_of_ok hc]
      exact hm.overflows b p r hlt hr
    | error e b' => exact ⟨e, b', run_bind_of_error hc⟩

/-- A typed write emits what its codec does. -/
theorem Emits.write {T : Type} [BinaryData T] {enc : Bytes} {v : T}
    (h0 : 1 ≤ BinaryData.size (some v)) (h : BinaryData.size (some v) ≤ enc.length)
    (hm : Emits (BinaryData.write v) enc) : Emits (write v) enc :=
  hm.checked h0 h

/-! ## Round trips -/

/--
Written at the cursor of `b` and read back from there, `v` is the same value again, and the reader
stops where the writer stopped.
-/
def RoundTrips {T : Type} [BinaryData T] (v : T) (b : BinaryBuffer) : Prop :=
  ∃ b' b'' : BinaryBuffer, (write v).run b = .ok ⟨⟩ b' ∧
    (readNext T).run (b'.goTo b.index) = .ok v b'' ∧ b''.index = b'.index

/-- With room for it, the encoding is written at the cursor, and it is in front of the old cursor. -/
theorem Emits.run_room {m : BufM PUnit} {enc : Bytes} (hm : Emits m enc) {b : BinaryBuffer}
    (room : b.index + enc.length ≤ b.size) :
    ∃ r : Bytes, m.run b = .ok ⟨⟩ (b.between (b.consumedSlice ++ enc) r) ∧
      (b.between (b.consumedSlice ++ enc) r).goTo b.index = b.between b.consumedSlice (enc ++ r) := by
  have hb := eq_between (b := b) (by omega)
  have hp : b.consumedSlice.length = b.index := length_consumedSlice (by omega)
  have hold : (b.remainingSlice.take enc.length).length = enc.length := by
    rw [List.length_take, remainingSlice, List.length_drop]
    exact Nat.min_eq_left (show enc.length ≤ b.size - b.index by omega)
  have hrun := hm.writes b b.consumedSlice _ (b.remainingSlice.drop enc.length) hold
  rw [List.take_append_drop, ← hb] at hrun
  exact ⟨_, hrun, by rw [← between_goTo, hp]⟩

/-- With room for the encoding, the round trip is a statement about reading the encoding. -/
theorem roundTrips_iff {T : Type} [BinaryData T] {v : T} {enc : Bytes} (hw : Emits (write v) enc)
    {b : BinaryBuffer} (room : b.index + enc.length ≤ b.size) :
    ∃ p r : Bytes, (RoundTrips v b ↔
      ∃ b'', (readNext T).run (b.between p (enc ++ r)) = .ok v b'' ∧
        b''.index = p.length + enc.length) := by
  obtain ⟨r, hrun, hgo⟩ := hw.run_room room
  refine ⟨b.consumedSlice, r, ?_⟩
  constructor
  · rintro ⟨b', b'', hb', hread, hidx⟩
    rw [hrun] at hb'
    cases hb'
    rw [hgo] at hread
    exact ⟨b'', hread, by rw [hidx, between_index, List.length_append]⟩
  · rintro ⟨b'', hread, hidx⟩
    exact ⟨_, b'', hrun, by rw [hgo]; exact hread,
      by rw [hidx, between_index, List.length_append]⟩

/-- What is read deterministically settles whether it is the round trip. -/
theorem roundTrips_iff_of_consumes {T : Type} [BinaryData T] {v w : T} {enc enc' rest : Bytes}
    (hw : Emits (write v) enc) (henc : enc = enc' ++ rest) (hr : Consumes (readNext T) enc' w)
    {b : BinaryBuffer} (room : b.index + enc.length ≤ b.size) :
    RoundTrips v b ↔ w = v ∧ rest = [] := by
  obtain ⟨p, r, hiff⟩ := roundTrips_iff hw room
  rw [hiff, henc, List.append_assoc, hr b p (rest ++ r)]
  constructor
  · rintro ⟨b'', hread, hidx⟩
    cases hread
    rw [between_index, List.length_append, List.length_append] at hidx
    exact ⟨rfl, List.length_eq_zero_iff.mp (by omega)⟩
  · rintro ⟨rfl, rfl⟩
    exact ⟨_, rfl, by simp⟩

end Rakro
