import Rakro.Packet.Nack

/-!
# The numbers of an acknowledgement

A range is run through by a 24-bit counter. The largest number is never passed, so a range up to it
does not end, whatever its start. Every other range ends, and then it has yielded each of its
numbers once.
-/

namespace Rakro

open Infra

namespace Ack

/-! ## One range -/

/-- The largest number is never passed, so a range up to it does not end. -/
theorem yieldRange_eq_none {stop : UInt24} (hstop : stop.toNat % 2 ^ 24 = 2 ^ 24 - 1) :
    ∀ (fuel : Nat) (x : UInt24), yieldRange fuel x stop = none
  | 0, _ => rfl
  | fuel + 1, x => by
    have hle : x ≤ stop := UInt24.le_iff.mpr (by rw [hstop]; omega)
    rw [yieldRange, if_pos hle, yieldRange_eq_none hstop fuel]
    rfl

/-- Every other range ends. -/
theorem yieldRange_isSome {stop : UInt24} (hstop : stop.toNat % 2 ^ 24 ≠ 2 ^ 24 - 1) :
    ∀ (fuel : Nat) (x : UInt24), stop.toNat % 2 ^ 24 + 1 ≤ x.toNat % 2 ^ 24 + fuel →
      (yieldRange (fuel + 1) x stop).isSome
  | 0, x, h => by
    rw [yieldRange, if_neg (by rw [UInt24.le_iff]; omega)]
    rfl
  | fuel + 1, x, h => by
    rw [yieldRange]
    split
    · next hle =>
      rw [UInt24.le_iff] at hle
      rw [Option.isSome_map]
      exact yieldRange_isSome hstop fuel _ (by rw [UInt24.toNat_incr]; omega)
    · rfl

/-- The generator ends on a range unless the range ends with the largest number. -/
theorem packets_isSome_iff (start stop : UInt24) :
    (Record.multi { start, stop }).packets.isSome ↔ stop.toNat % 2 ^ 24 ≠ 2 ^ 24 - 1 := by
  constructor
  · intro h hstop
    rw [Record.packets, yieldRange_eq_none hstop] at h
    cases h
  · intro hstop
    exact yieldRange_isSome hstop (2 ^ 24) start (by omega)

/-- More fuel does not change what has come out. -/
theorem yieldRange_mono {stop : UInt24} : ∀ {fuel fuel' : Nat} {x : UInt24} {out : List UInt24},
    fuel ≤ fuel' → yieldRange fuel x stop = some out → yieldRange fuel' x stop = some out
  | 0, _, _, _, _, h => by cases h
  | fuel + 1, 0, _, _, hle, _ => absurd hle (Nat.not_succ_le_zero fuel)
  | fuel + 1, fuel' + 1, x, out, hle, h => by
    rw [yieldRange] at h ⊢
    split at h
    · next hx =>
      rw [if_pos hx]
      obtain ⟨rest, hrest, rfl⟩ := Option.map_eq_some_iff.mp h
      rw [yieldRange_mono (Nat.le_of_succ_le_succ hle) hrest]
      rfl
    · next hx => rw [if_neg hx, h]

/-- The numbers from `x` to `stop`, in increasing order. -/
def numbersTo (x stop : Nat) : List UInt24 := (List.range' x (stop + 1 - x)).map UInt24.ofNat

/-- A range that ends has yielded its numbers one after the other. -/
theorem yieldRange_eq_some {stop : UInt24} (hstop : stop.toNat < 2 ^ 24 - 1) :
    ∀ {fuel : Nat} {x : UInt24} {out : List UInt24}, x.Canonical →
      yieldRange fuel x stop = some out → out = numbersTo x.toNat stop.toNat
  | 0, _, _, _, h => by cases h
  | fuel + 1, x, out, hx, h => by
    have hcanon : stop.Canonical := by
      unfold UInt24.Canonical
      omega
    unfold UInt24.Canonical at hx hcanon
    rw [yieldRange] at h
    split at h
    · next hle =>
      rw [UInt24.le_iff, Nat.mod_eq_of_lt hx, Nat.mod_eq_of_lt hcanon] at hle
      obtain ⟨rest, hrest, rfl⟩ := Option.map_eq_some_iff.mp h
      have ih := yieldRange_eq_some hstop x.incr_canonical hrest
      have hself : UInt24.ofNat x.toNat = x := UInt24.toNat_inj.mp (UInt24.toNat_ofNat hx)
      rw [UInt24.toNat_incr_of_lt (by omega)] at ih
      rw [ih, numbersTo, numbersTo,
        show stop.toNat + 1 - x.toNat = stop.toNat + 1 - (x.toNat + 1) + 1 by omega,
        List.range'_succ, List.map_cons, hself]
    · next hgt =>
      rw [UInt24.le_iff, Nat.mod_eq_of_lt hx, Nat.mod_eq_of_lt hcanon] at hgt
      cases h
      rw [numbersTo, show stop.toNat + 1 - x.toNat = 0 by omega]
      rfl

/-! ## Records -/

/-- What a record stands for: its number, or every number of its range in increasing order. -/
def Record.numbers : Record → List UInt24
  | .multi range => numbersTo range.start.toNat range.stop.toNat
  | .single value => [value]

/-- The numbers of the record have 24 bits. -/
def Record.Canonical : Record → Prop
  | .multi range => range.start.Canonical ∧ range.stop.Canonical
  | .single value => value.Canonical

/-- The record is no range up to the largest number. -/
def Record.EndsBelowTop : Record → Prop
  | .multi range => range.stop.toNat ≠ 2 ^ 24 - 1
  | .single _ => True

/--
A record whose numbers are canonical ends below the top exactly when the generator does end on it.
-/
theorem endsBelowTop_iff : ∀ {record : Record}, record.Canonical →
    (record.EndsBelowTop ↔ record.packets.isSome)
  | .single _, _ => iff_of_true trivial rfl
  | .multi ⟨start, stop⟩, h => by
    have hlt : stop.toNat < 2 ^ 24 := h.2
    rw [packets_isSome_iff, Nat.mod_eq_of_lt hlt]
    rfl

/-- What the generator makes of a record that ends. -/
theorem packets_eq_numbers : ∀ {record : Record}, record.Canonical → record.EndsBelowTop →
    record.packets = some record.numbers
  | .single _, _, _ => rfl
  | .multi ⟨start, stop⟩, h, hbelow => by
    obtain ⟨out, hout⟩ := Option.isSome_iff_exists.mp ((endsBelowTop_iff h).mp hbelow)
    have hlt : stop.toNat < 2 ^ 24 := h.2
    have hne : stop.toNat ≠ 2 ^ 24 - 1 := hbelow
    have hstop : stop.toNat < 2 ^ 24 - 1 := by omega
    rw [hout, yieldRange_eq_some hstop h.1 hout]
    rfl

/-! ## The generator -/

/-- A list maps when its head and its tail do. -/
theorem isSome_mapM_cons {α β : Type} (f : α → Option β) (a : α) (l : List α) :
    ((a :: l).mapM f).isSome ↔ (f a).isSome ∧ (l.mapM f).isSome := by
  rw [List.mapM_cons]
  cases f a with
  | none => simp
  | some b =>
    cases l.mapM f with
    | none => simp
    | some bs => simp

/-- A list maps when every element does. -/
theorem isSome_mapM_iff {α β : Type} {f : α → Option β} : ∀ {l : List α},
    (l.mapM f).isSome ↔ ∀ a ∈ l, (f a).isSome
  | [] => by simp
  | a :: l => by rw [isSome_mapM_cons, isSome_mapM_iff, List.forall_mem_cons]

/-- Where every element maps, the list is mapped. -/
theorem mapM_eq_some_map {α β : Type} {f : α → Option β} {g : α → β} : ∀ {l : List α},
    (∀ a ∈ l, f a = some (g a)) → l.mapM f = some (l.map g)
  | [], _ => rfl
  | a :: l, h => by
    rw [List.mapM_cons, h a List.mem_cons_self,
      mapM_eq_some_map fun b hb => h b (List.mem_cons_of_mem a hb)]
    rfl

/-- What one function finds, the other does. -/
theorem mapM_eq_some_of_imp {α β : Type} {f g : α → Option β} (h : ∀ a b, f a = some b → g a = some b) :
    ∀ {l : List α} {bs : List β}, l.mapM f = some bs → l.mapM g = some bs
  | [], _, hf => hf
  | a :: l, bs, hf => by
    rw [List.mapM_cons] at hf ⊢
    cases hfa : f a with
    | none => simp [hfa] at hf
    | some b =>
      cases hfl : l.mapM f with
      | none => simp [hfa, hfl] at hf
      | some bs' =>
        rw [h a b hfa, mapM_eq_some_of_imp h hfl]
        rwa [hfa, hfl] at hf

/-- The numbers of a record, as far as `fuel` steps take the loop over a range. -/
def Record.packetsWithin (fuel : Nat) : Record → Option (List UInt24)
  | .multi range => yieldRange fuel range.start range.stop
  | .single value => some [value]

/-- The fuel of the generator is enough for whatever ends at all. -/
theorem packets_of_packetsWithin {fuel : Nat} : ∀ {record : Record} {out : List UInt24},
    record.packetsWithin fuel = some out → record.packets = some out
  | .single _, _, h => h
  | .multi ⟨start, stop⟩, out, h => by
    have hne : stop.toNat % 2 ^ 24 ≠ 2 ^ 24 - 1 := by
      intro htop
      rw [Record.packetsWithin, yieldRange_eq_none htop] at h
      cases h
    obtain ⟨out', hout⟩ := Option.isSome_iff_exists.mp ((packets_isSome_iff start stop).mpr hne)
    -- with the larger fuel of the two, both have come to an end
    have h₁ := yieldRange_mono (Nat.le_max_left fuel (2 ^ 24 + 1)) h
    have h₂ := yieldRange_mono (Nat.le_max_right fuel (2 ^ 24 + 1)) hout
    rw [hout, ← h₂, h₁]

/-- The fuel is no bound: what comes out within some number of steps is what comes out. -/
theorem flatten_packets_eq_some_iff {records : List Record} {out : List UInt24} :
    (records.mapM Record.packets).map List.flatten = some out ↔
      ∃ fuel, (records.mapM (Record.packetsWithin fuel)).map List.flatten = some out := by
  constructor
  · intro h
    exact ⟨2 ^ 24 + 1, h⟩
  · rintro ⟨fuel, h⟩
    obtain ⟨outs, houts, rfl⟩ := Option.map_eq_some_iff.mp h
    rw [mapM_eq_some_of_imp (fun _ _ => packets_of_packetsWithin) houts]
    rfl

/-- All numbers come out exactly when every record ends. -/
theorem flatten_packets_iff {records : List Record} (h : ∀ record ∈ records, record.Canonical) :
    (records.mapM Record.packets).map List.flatten = some (records.flatMap Record.numbers) ↔
      ∀ record ∈ records, record.EndsBelowTop := by
  constructor
  · intro hsome record hrecord
    obtain ⟨outs, houts, -⟩ := Option.map_eq_some_iff.mp hsome
    have hall := isSome_mapM_iff.mp (Option.isSome_of_eq_some houts)
    exact (endsBelowTop_iff (h record hrecord)).mpr (hall record hrecord)
  · intro hbelow
    rw [mapM_eq_some_map fun record hrecord => packets_eq_numbers (h record hrecord)
      (hbelow record hrecord), Option.map_some, List.flatMap]

/--
**Both generators end, and with the numbers of the records in order, exactly when no record is a
range up to the largest number.**
-/
theorem allPackets_eq_numbers_iff {records : List Record}
    (h : ∀ record ∈ records, record.Canonical) :
    ((⟨records⟩ : Ack).allPackets = some (records.flatMap Record.numbers) ↔
        ∀ record ∈ records, record.EndsBelowTop) ∧
      ((⟨records⟩ : Nack).allPackets = some (records.flatMap Record.numbers) ↔
        ∀ record ∈ records, record.EndsBelowTop) :=
  ⟨flatten_packets_iff h, flatten_packets_iff h⟩

theorem allPackets_eq_numbers_two :
    ((⟨[.multi ⟨⟨3⟩, ⟨5⟩⟩, .single ⟨7⟩]⟩ : Ack).allPackets = some [⟨3⟩, ⟨4⟩, ⟨5⟩, ⟨7⟩] ∧
      (⟨[.multi ⟨⟨3⟩, ⟨5⟩⟩, .single ⟨7⟩]⟩ : Nack).allPackets = some [⟨3⟩, ⟨4⟩, ⟨5⟩, ⟨7⟩]) := by
  have hcanon : ∀ record ∈ [Record.multi ⟨⟨3⟩, ⟨5⟩⟩, .single ⟨7⟩], record.Canonical := by
    simp [Record.Canonical, UInt24.Canonical, UInt24.toNat]
  have hbelow : ∀ record ∈ [Record.multi ⟨⟨3⟩, ⟨5⟩⟩, .single ⟨7⟩], record.EndsBelowTop := by
    simp [Record.EndsBelowTop, UInt24.toNat]
  exact ⟨(allPackets_eq_numbers_iff hcanon).1.mpr hbelow,
    (allPackets_eq_numbers_iff hcanon).2.mpr hbelow⟩

/-- The range of the largest number alone keeps both generators going, however long one waits. -/
theorem allPackets_top_ne :
    (∀ fuel, Record.packetsWithin fuel (.multi ⟨⟨0xFFFFFF⟩, ⟨0xFFFFFF⟩⟩) = none) ∧
      (⟨[.multi ⟨⟨0xFFFFFF⟩, ⟨0xFFFFFF⟩⟩]⟩ : Ack).allPackets ≠ some [⟨0xFFFFFF⟩] ∧
      (⟨[.multi ⟨⟨0xFFFFFF⟩, ⟨0xFFFFFF⟩⟩]⟩ : Nack).allPackets ≠ some [⟨0xFFFFFF⟩] := by
  have hnone : ∀ fuel, Record.packetsWithin fuel (.multi ⟨⟨0xFFFFFF⟩, ⟨0xFFFFFF⟩⟩) = none :=
    fun fuel => yieldRange_eq_none rfl fuel _
  have hgenerator : ([Record.multi ⟨⟨0xFFFFFF⟩, ⟨0xFFFFFF⟩⟩].mapM Record.packets).map List.flatten ≠
      some [⟨0xFFFFFF⟩] := by
    intro h
    obtain ⟨outs, houts, -⟩ := Option.map_eq_some_iff.mp h
    have hsome := isSome_mapM_iff.mp (Option.isSome_of_eq_some houts) _ List.mem_cons_self
    exact (packets_isSome_iff _ _).mp hsome rfl
  exact ⟨hnone, hgenerator, hgenerator⟩

end Ack

end Rakro
