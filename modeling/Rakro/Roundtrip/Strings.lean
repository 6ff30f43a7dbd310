import Rakro.Roundtrip.Sequence
import Rakro.Roundtrip.Unconnected

/-!
# Strings

A string goes behind the number of its characters, which is cut to sixteen bits. The reader takes as
many characters as that number says. So a string that is longer is put down whole and read back as
its beginning, and what is left of it is in the way of the next value.
-/

namespace Rakro

open Infra BinaryBuffer

namespace StdString

/-- Strings with the same characters are the same. -/
theorem ext_chars : ∀ {s t : StdString}, s.chars = t.chars → s = t
  | ⟨_, _⟩, ⟨_, _⟩, rfl => rfl

/-- The number that is put down in front of a string. -/
def prefixed (self : StdString) : Nat := self.chars.length % 2 ^ 16

theorem toNat_ofNat_length (self : StdString) :
    (UInt16.ofNat self.chars.length).toNat = self.prefixed := UInt16.toNat_ofNat'

theorem prefixed_lt (self : StdString) : self.prefixed < 2 ^ 16 := Nat.mod_lt _ (by decide)

theorem prefixed_le (self : StdString) : self.prefixed ≤ self.chars.length := Nat.mod_le _ _

/-- The characters that the prefix counts. -/
def counted (self : StdString) : StdString where
  chars := self.chars.take self.prefixed
  length_lt := Nat.lt_of_le_of_lt (List.length_take_le _ _)
    (Nat.lt_trans self.prefixed_lt (by decide))

/-- As many characters are counted as the cast length says. -/
theorem length_counted (self : StdString) : self.counted.chars.length = self.prefixed :=
  (List.length_take).trans (Nat.min_eq_left self.prefixed_le)

/-- The characters that the prefix does not count. -/
def uncounted (self : StdString) : Bytes := self.chars.drop self.prefixed

/-- The prefix counts all characters when it has room for their number. -/
theorem counted_eq_iff (self : StdString) :
    self.counted = self ↔ self.chars.length < 2 ^ 16 := by
  constructor
  · intro h
    have hlength := self.length_counted
    rw [h] at hlength
    exact hlength ▸ self.prefixed_lt
  · intro h
    have hall : self.prefixed = self.chars.length := Nat.mod_eq_of_lt h
    refine ext_chars ?_
    show self.chars.take self.prefixed = self.chars
    rw [hall, List.take_length]

/-- A string that is short enough is counted whole. -/
theorem uncounted_eq_nil (self : StdString) (h : self.chars.length < 2 ^ 16) :
    self.uncounted = [] := by
  unfold uncounted prefixed
  rw [Nat.mod_eq_of_lt h, List.drop_length]

/-- The encoding is that of the counted characters, and the others behind it. -/
theorem bytes_eq (self : StdString) :
    self.bytes = (beBytes 2 self.prefixed ++ self.counted.chars) ++ self.uncounted := by
  unfold bytes counted uncounted
  rw [toNat_ofNat_length, List.append_assoc, List.take_append_drop]

end StdString

/-! ## Reading -/

theorem consumes_char (x : UInt8) : Consumes (readNext CChar) [x] ⟨x.toBitVec⟩ := by
  have h := IntegralValue.isIntegral_char.consumes (by decide) ⟨x.toBitVec⟩
  have hx : beBytes 1 x.toBitVec.toNat = [x] := by simp [beBytes, leBytes]
  rwa [hx] at h

theorem consumes_readChars : ∀ {cap : Nat} {chars : Bytes} (h : chars.length = cap),
    Consumes (readChars cap) chars ⟨chars, h⟩
  | _, [], rfl => Consumes.pure _
  | _, x :: _, rfl => (consumes_char x).bind ((consumes_readChars rfl).map _)

/-- The reader takes the prefix and the characters that it counts. -/
theorem consumes_stdString (self : StdString) :
    Consumes (readNext StdString) (beBytes 2 self.prefixed ++ self.counted.chars) self.counted := by
  have hprefix := consumes_uint16 (length_beBytes 2 self.prefixed)
  rw [ofBeBytes_beBytes self.prefixed_lt] at hprefix
  have hcap : self.counted.chars.length = (UInt16.ofNat self.prefixed).toNat := by
    rw [self.length_counted, UInt16.toNat_ofNat']
    exact (Nat.mod_eq_of_lt self.prefixed_lt).symm
  refine Consumes.readNext (show 1 ≤ 2 by decide) ?_ ?_
  · show 2 ≤ _
    rw [List.length_append, length_beBytes]
    omega
  · exact hprefix.bind ((consumes_readChars hcap).map _)

/-! ## One string -/

/-- Writing is refused and leaves the buffer alone, or what is read back is what was written. -/
def RefusedOrBack (s : StdString) (b : BinaryBuffer) : Prop :=
  (∃ e, (write s).run b = .error e b) ∨ RoundTrips s b

/-- A string comes back when its length fits sixteen bits. -/
theorem roundTrips_stdString_iff {s : StdString} {b : BinaryBuffer}
    (room : b.index + (s.chars.length + 2) ≤ b.size) :
    RoundTrips s b ↔ s.chars.length < 2 ^ 16 := by
  have hroom : b.index + s.bytes.length ≤ b.size := by
    rw [s.length_bytes]
    omega
  rw [roundTrips_iff_of_consumes (emits_stdString s) s.bytes_eq (consumes_stdString s) hroom,
    s.counted_eq_iff]
  exact ⟨fun h => h.1, fun h => ⟨h, s.uncounted_eq_nil h⟩⟩

/-- With room for it, no string is refused. -/
theorem refusedOrBack_iff {s : StdString} {b : BinaryBuffer}
    (room : b.index + (s.chars.length + 2) ≤ b.size) :
    RefusedOrBack s b ↔ s.chars.length < 2 ^ 16 := by
  obtain ⟨r, hwrite, -⟩ := (emits_stdString s).run_room (b := b)
    (by rw [s.length_bytes]; omega)
  have haccepted : ¬ ∃ e, (write s).run b = .error e b := by
    rintro ⟨e, herror⟩
    rw [hwrite] at herror
    cases herror
  unfold RefusedOrBack
  rw [or_iff_right haccepted, roundTrips_stdString_iff room]

/-! ## Strings one after the other -/

/--
Written from the cursor of `b` on, the strings come back when as many are read from the same place,
and the reader stops where the writer stopped.
-/
def RoundTripStrings (values : List StdString) (b : BinaryBuffer) : Prop :=
  ∃ b' b'' : BinaryBuffer, (values.forM write).run b = .ok ⟨⟩ b' ∧
    (values.mapM fun _ => readNext StdString).run (b'.goTo b.index) = .ok values b'' ∧
    b''.index = b'.index

/-- What the strings take when they are written. -/
def stringsLength (values : List StdString) : Nat :=
  (values.map fun s => s.chars.length + 2).sum

theorem length_flatMap_stdString (values : List StdString) :
    (values.flatMap StdString.bytes).length = stringsLength values := by
  unfold stringsLength
  rw [List.length_flatMap]
  refine congrArg List.sum (List.map_congr_left fun s _ => ?_)
  rw [s.length_bytes, Nat.add_comm]

/-- Strings whose lengths fit into their prefixes are read back one after the other. -/
theorem consumes_stdStrings {values : List StdString} (h : ∀ s ∈ values, s.chars.length < 2 ^ 16) :
    Consumes (values.mapM fun _ => readNext StdString) (values.flatMap StdString.bytes) values := by
  have hread : Consumes (values.mapM fun _ => readNext StdString)
      (values.flatMap StdString.bytes) (values.map id) := by
    refine Consumes.mapM values fun s hs => ?_
    have hone := consumes_stdString s
    rw [s.counted_eq_iff.mpr (h s hs)] at hone
    rw [s.bytes_eq, s.uncounted_eq_nil (h s hs), List.append_nil, s.counted_eq_iff.mpr (h s hs)]
    exact hone
  rwa [List.map_id] at hread

/-- A string that comes back first has fitted, and the others follow it. -/
theorem fits_of_readStrings : ∀ {values : List StdString} {b b'' : BinaryBuffer} {p r : Bytes},
    (values.mapM fun _ => readNext StdString).run
      (b.between p (values.flatMap StdString.bytes ++ r)) = .ok values b'' →
    ∀ s ∈ values, s.chars.length < 2 ^ 16
  | [], _, _, _, _, _ => by simp
  | s :: values, b, b'', p, r, h => by
    rw [List.mapM_cons, List.flatMap_cons, List.append_assoc, s.bytes_eq, List.append_assoc,
      run_bind_of_ok (consumes_stdString s b p _)] at h
    obtain ⟨rest, b₁, hrest, h⟩ := bind_eq_ok h
    injection h with hvalues _
    injection hvalues with hhead htail
    have hfits := s.counted_eq_iff.mp hhead
    subst htail
    rw [s.uncounted_eq_nil hfits, List.nil_append] at hrest
    intro t ht
    rcases List.mem_cons.mp ht with rfl | ht
    · exact hfits
    · exact fits_of_readStrings hrest t ht

/-- A list of strings comes back when all their lengths do. -/
theorem roundTripStrings_iff {values : List StdString} {b : BinaryBuffer}
    (room : b.index + stringsLength values ≤ b.size) :
    RoundTripStrings values b ↔ ∀ s ∈ values, s.chars.length < 2 ^ 16 := by
  obtain ⟨r, hrun, hgo⟩ := (Emits.forM emits_stdString values).run_room (b := b)
    (by rw [length_flatMap_stdString]; exact room)
  constructor
  · rintro ⟨b', b'', hwrite, hread, -⟩
    rw [hrun] at hwrite
    cases hwrite
    rw [hgo] at hread
    exact fits_of_readStrings hread
  · intro h
    refine ⟨_, b.between (b.consumedSlice ++ values.flatMap StdString.bytes) r, hrun, ?_, rfl⟩
    rw [hgo]
    exact consumes_stdStrings h b _ r

/--
**A string comes back exactly when it has fewer than `2 ^ 16` characters, and a list of strings
exactly when all of them have.** No string is refused that there is room for.
-/
theorem strings_comeBack_iff (s : StdString) (values : List StdString) (b : BinaryBuffer) :
    (b.index + (s.chars.length + 2) ≤ b.size → (RefusedOrBack s b ↔ s.chars.length < 2 ^ 16)) ∧
      (b.index + stringsLength values ≤ b.size →
        (RoundTripStrings values b ↔ ∀ t ∈ values, t.chars.length < 2 ^ 16)) :=
  ⟨refusedOrBack_iff, roundTripStrings_iff⟩

/-- A string of two characters. -/
def twoChars : StdString := ⟨[104, 105], by decide⟩

/-- Two strings, the second of them empty. -/
theorem strings_comeBack_two :
    RefusedOrBack twoChars { bytes := List.replicate 9 7 } ∧
      RoundTripStrings [twoChars, twoChars] { bytes := List.replicate 9 7 } := by
  have hback := strings_comeBack_iff twoChars [twoChars, twoChars] { bytes := List.replicate 9 7 }
  exact ⟨(hback.1 (by decide)).mpr (by decide), (hback.2 (by decide)).mpr (by decide)⟩

/-- The shortest string whose length does not fit into the prefix. -/
def longString : StdString where
  chars := List.replicate (2 ^ 16) 0
  length_lt := by rw [List.length_replicate]; decide

/-- It is accepted, and does not come back. -/
theorem longString_not_back :
    ¬ RefusedOrBack longString { bytes := List.replicate (2 ^ 16 + 2) 0 } := by
  have hlength : longString.chars.length = 2 ^ 16 := List.length_replicate
  intro h
  rw [refusedOrBack_iff ?_, hlength] at h
  · exact absurd h (Nat.lt_irrefl _)
  · unfold size
    rw [hlength, List.length_replicate, Nat.zero_add]

end Rakro
