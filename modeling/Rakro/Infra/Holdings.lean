import Mathlib.Data.List.AList

/-!
# What the entries of a map hold

`AllEntries P m` says that `P` holds of every key and its value.

The values of a map may own things, a list of them each. `holdings` is everything that is owned,
with the number of times it is owned: when nothing is in the list twice, each thing has one holder.
-/

namespace Infra

variable {κ ν ι : Type}

/-! ## What holds of every entry -/

section Entries

variable [DecidableEq κ] {P : κ → ν → Prop} {m : AList fun _ : κ => ν}

/-- `P` holds of every key of the map with its value. -/
def AllEntries (P : κ → ν → Prop) (m : AList fun _ : κ => ν) : Prop :=
  ∀ k v, m.lookup k = some v → P k v

theorem allEntries_empty (P : κ → ν → Prop) : AllEntries P (∅ : AList fun _ : κ => ν) := by
  intro k v h
  cases h

/-- An entry of which `P` holds may be added, or put over another. -/
theorem AllEntries.insert (h : AllEntries P m) {k : κ} {v : ν} (hv : P k v) :
    AllEntries P (m.insert k v) := by
  intro k' v' hlookup
  by_cases hk : k' = k
  · rw [hk, AList.lookup_insert] at hlookup
    cases hlookup
    rw [hk]
    exact hv
  · rw [AList.lookup_insert_ne hk] at hlookup
    exact h k' v' hlookup

theorem AllEntries.erase (h : AllEntries P m) (k : κ) : AllEntries P (m.erase k) := by
  intro k' v' hlookup
  by_cases hk : k' = k
  · rw [hk, AList.lookup_erase] at hlookup
    cases hlookup
  · rw [AList.lookup_erase_ne hk] at hlookup
    exact h k' v' hlookup

/-- Maps that are the same but for a key have the same at the others. -/
theorem lookup_eq_of_erase_eq {m' : AList fun _ : κ => ν} {k k' : κ}
    (h : m'.erase k = m.erase k) (hne : k' ≠ k) : m'.lookup k' = m.lookup k' := by
  rw [← AList.lookup_erase_ne hne, h, AList.lookup_erase_ne hne]

/-- Only the entry of one key needs a look when the others are as they were. -/
theorem AllEntries.of_erase_eq {m' : AList fun _ : κ => ν} {k : κ} (h : AllEntries P m)
    (herase : m'.erase k = m.erase k) (hk : ∀ v ∈ m'.lookup k, P k v) : AllEntries P m' := by
  intro k' v hlookup
  by_cases hne : k' = k
  · subst hne
    exact hk v hlookup
  · exact h k' v ((lookup_eq_of_erase_eq herase hne).symm.trans hlookup)

end Entries

/-! ## Without the entries of some keys -/

section Erase

variable [DecidableEq κ] {m : AList fun _ : κ => ν} {ks : List κ} {k : κ} {v : ν}

/-- The keys are erased one after the other, whether they are there or not. -/
def eraseAll (m : AList fun _ : κ => ν) (ks : List κ) : AList fun _ : κ => ν :=
  ks.foldl (fun m k => m.erase k) m

theorem lookup_eraseAll_of_notMem (h : k ∉ ks) : (eraseAll m ks).lookup k = m.lookup k := by
  induction ks generalizing m with
  | nil => rfl
  | cons k' ks ih =>
    rw [List.mem_cons, not_or] at h
    show (eraseAll (m.erase k') ks).lookup k = m.lookup k
    rw [ih h.2, AList.lookup_erase_ne h.1]

/-- What is gone stays gone, however often it is erased. -/
theorem lookup_eraseAll_of_mem (h : k ∈ ks) : (eraseAll m ks).lookup k = none := by
  induction ks generalizing m with
  | nil => cases h
  | cons k' ks ih =>
    show (eraseAll (m.erase k') ks).lookup k = none
    by_cases hrest : k ∈ ks
    · exact ih hrest
    · rcases List.mem_cons.mp h with rfl | hmem
      · rw [lookup_eraseAll_of_notMem hrest, AList.lookup_erase]
      · exact absurd hmem hrest

/-- Nothing comes by erasing. -/
theorem lookup_of_lookup_eraseAll (h : (eraseAll m ks).lookup k = some v) :
    k ∉ ks ∧ m.lookup k = some v := by
  by_cases hmem : k ∈ ks
  · rw [lookup_eraseAll_of_mem hmem] at h
    cases h
  · rw [lookup_eraseAll_of_notMem hmem] at h
    exact ⟨hmem, h⟩

end Erase

/-! ## What the entries hold -/

/-- Everything that a value of the map holds. -/
def holdings (f : ν → List ι) (m : AList fun _ : κ => ν) : List ι :=
  m.entries.flatMap fun entry => f entry.2

@[simp] theorem holdings_empty (f : ν → List ι) : holdings f (∅ : AList fun _ : κ => ν) = [] := rfl

variable [DecidableEq κ] {f : ν → List ι} {m : AList fun _ : κ => ν} {k k' : κ} {v v' : ν} {x : ι}

/-- Whatever was at the key before, its place is taken. -/
theorem holdings_insert : holdings f (m.insert k v) = f v ++ holdings f (m.erase k) := by
  unfold holdings
  rw [AList.entries_insert, List.flatMap_cons]
  rfl

theorem erase_of_notMem (h : k ∉ m) : m.erase k = m :=
  AList.ext (List.kerase_of_notMem_keys h)

/-- An entry that is added and taken away might not have been added. -/
theorem erase_insert_self : (m.insert k v).erase k = m.erase k := by
  refine AList.ext ?_
  show ((m.insert k v).entries).kerase k = m.entries.kerase k
  rw [AList.entries_insert]
  exact List.kerase_cons_eq rfl

theorem erase_erase_self : (m.erase k).erase k = m.erase k :=
  erase_of_notMem fun h => (AList.mem_erase.mp h).1 rfl

/-- A new entry brings its own holdings. -/
theorem holdings_insert_of_notMem (h : k ∉ m) :
    holdings f (m.insert k v) = f v ++ holdings f m := by
  rw [holdings_insert, erase_of_notMem h]

/-- What is at a key can be taken out to the front. -/
theorem holdings_perm (h : m.lookup k = some v) :
    (holdings f m).Perm (f v ++ holdings f (m.erase k)) := by
  have hkey : k ∈ m.entries.keys := AList.lookup_isSome.mp (by rw [h]; rfl)
  obtain ⟨v', l₁, l₂, hl₁, hentries, herase⟩ := List.exists_of_kerase hkey
  have hv : v' = v := by
    have hlookup : List.dlookup k m.entries = some v := h
    rw [hentries, List.dlookup_append, List.dlookup_eq_none.mpr hl₁, List.dlookup_cons_eq] at hlookup
    exact Option.some.inj hlookup
  have hrest : (m.erase k).entries = l₁ ++ l₂ := herase
  unfold holdings
  rw [hrest, hentries, hv, List.flatMap_append, List.flatMap_append, List.flatMap_cons,
    ← List.append_assoc, ← List.append_assoc]
  exact List.perm_append_comm.append_right _

/-- So can what is not there and would hold nothing. -/
theorem holdings_perm_of_nil (h : m.lookup k = some v ∨ k ∉ m ∧ f v = []) :
    (holdings f m).Perm (f v ++ holdings f (m.erase k)) := by
  rcases h with h | ⟨hkey, hnil⟩
  · exact holdings_perm h
  · rw [hnil, erase_of_notMem hkey, List.nil_append]

/-- What is held is held by some entry. -/
theorem mem_holdings : x ∈ holdings f m ↔ ∃ k v, m.lookup k = some v ∧ x ∈ f v := by
  constructor
  · intro hx
    obtain ⟨⟨k, v⟩, hentry, hv⟩ := List.mem_flatMap.mp hx
    exact ⟨k, v, AList.mem_lookup_iff.mpr hentry, hv⟩
  · rintro ⟨k, v, hlookup, hv⟩
    exact List.mem_flatMap.mpr ⟨⟨k, v⟩, AList.mem_lookup_iff.mp hlookup, hv⟩

/-- What is held once has one holder. -/
theorem holder_unique (hnodup : (holdings f m).Nodup) (h : m.lookup k = some v)
    (h' : m.lookup k' = some v') (hx : x ∈ f v) (hx' : x ∈ f v') : k = k' := by
  by_contra hne
  have hrest : x ∈ holdings f (m.erase k) :=
    mem_holdings.mpr ⟨k', v', by rw [AList.lookup_erase_ne (Ne.symm hne), h'], hx'⟩
  have hsplit : (f v ++ holdings f (m.erase k)).Nodup := (holdings_perm h).nodup_iff.mp hnodup
  exact (List.nodup_append.mp hsplit).2.2 x hx x hrest rfl

/-! ## A map of other values -/

section MapValues

variable {μ : Type} (g : ν → μ)

/-- The map with the same keys, and with `g v` for the value `v`. -/
def mapValues (m : AList fun _ : κ => ν) : AList fun _ : κ => μ where
  entries := m.entries.map (.map id fun _ => g)
  nodupKeys := m.nodupKeys.map₂ fun _ => g

theorem lookup_mapValues : (mapValues g m).lookup k = (m.lookup k).map g :=
  List.dlookup_map₂ k

/-- Mapping the values and taking a key away may be swapped. -/
theorem erase_mapValues : (mapValues g m).erase k = mapValues g (m.erase k) := by
  refine AList.ext ?_
  show (m.entries.map _).kerase k = (m.entries.kerase k).map _
  induction m.entries with
  | nil => rfl
  | cons entry entries ih =>
    obtain ⟨k', v⟩ := entry
    show List.kerase k ((⟨k', g v⟩ : Σ _ : κ, μ) :: entries.map _) =
      (List.kerase k (⟨k', v⟩ :: entries)).map _
    by_cases hk : k = k'
    · rw [List.kerase_cons_eq hk, List.kerase_cons_eq hk]
    · rw [List.kerase_cons_ne hk, List.kerase_cons_ne hk, ih]
      rfl

/-- Mapping the values and adding an entry may be swapped. -/
theorem insert_mapValues : (mapValues g m).insert k (g v) = mapValues g (m.insert k v) := by
  refine AList.ext ?_
  have h := congrArg AList.entries (erase_mapValues (k := k) (m := m) g)
  exact congrArg (List.cons ⟨k, g v⟩) h

theorem mem_mapValues : k ∈ mapValues g m ↔ k ∈ m := by
  rw [← AList.lookup_isSome, ← AList.lookup_isSome, lookup_mapValues, Option.isSome_map]

end MapValues

end Infra
