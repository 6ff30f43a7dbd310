import Mathlib.Data.List.Infix
import Mathlib.Order.Lattice
import Mathlib.Order.Nat

/-!
# Records

Things of several kinds arrive, each with a value. One is a record when its value is larger than
that of everything of its kind before it. `bar` is what the next value of a kind has to reach for
that: one more than the largest so far.
-/

namespace Infra

variable {α κ : Type} [DecidableEq κ] {kind : α → κ} {value : α → ℕ}

/-- Behind `seen`, the value of `a` is larger than any of its kind. -/
def IsRecord (kind : α → κ) (value : α → ℕ) (seen : List α) (a : α) : Prop :=
  ∀ b ∈ seen, kind b = kind a → value b < value a

instance (seen : List α) (a : α) : Decidable (IsRecord kind value seen a) :=
  inferInstanceAs (Decidable (∀ b ∈ seen, _))

/-- One more than the largest value of a kind, zero for a kind that has not come. -/
def bar (kind : α → κ) (value : α → ℕ) (seen : List α) (k : κ) : ℕ :=
  seen.foldl (fun n a => if kind a = k then max n (value a + 1) else n) 0

@[simp] theorem bar_nil (k : κ) : bar kind value [] k = 0 := rfl

/-- A new value raises the bar of its own kind only. -/
theorem bar_concat (seen : List α) (a : α) (k : κ) : bar kind value (seen ++ [a]) k =
    if kind a = k then max (bar kind value seen k) (value a + 1) else bar kind value seen k := by
  unfold bar
  rw [List.foldl_append]
  rfl

/-- The bar is the least number above all values of its kind. -/
theorem bar_le_iff {seen : List α} {k : κ} {n : ℕ} :
    bar kind value seen k ≤ n ↔ ∀ b ∈ seen, kind b = k → value b < n := by
  induction seen using List.reverseRecOn with
  | nil => simp
  | append_singleton seen a ih =>
    rw [bar_concat, List.forall_mem_append, List.forall_mem_singleton]
    by_cases hk : kind a = k
    · rw [if_pos hk, Nat.max_le, ih]
      exact and_congr_right fun _ => ⟨fun h _ => h, fun h => h hk⟩
    · rw [if_neg hk, ih]
      exact (and_iff_left fun h => absurd h hk).symm

/-- A record reaches the bar of its kind. -/
theorem isRecord_iff {seen : List α} {a : α} :
    IsRecord kind value seen a ↔ bar kind value seen (kind a) ≤ value a := bar_le_iff.symm

/-- A record raises the bar of its kind to the value behind its own. -/
theorem bar_record {seen : List α} {a : α} (h : IsRecord kind value seen a) :
    bar kind value (seen ++ [a]) (kind a) = value a + 1 := by
  have hle := isRecord_iff.mp h
  rw [bar_concat, if_pos rfl]
  omega

/-- Anything else leaves it. -/
theorem bar_not_record {seen : List α} {a : α} (h : ¬ IsRecord kind value seen a) (k : κ) :
    bar kind value (seen ++ [a]) k = bar kind value seen k := by
  rw [isRecord_iff] at h
  rw [bar_concat]
  split
  · next hk => subst hk; omega
  · rfl

theorem bar_other {seen : List α} {a : α} {k : κ} (h : kind a ≠ k) :
    bar kind value (seen ++ [a]) k = bar kind value seen k := by
  rw [bar_concat, if_neg h]

/-! ## The records of a list -/

/-- The records of a list that comes behind `seen`, in their order. -/
def recordsBehind (kind : α → κ) (value : α → ℕ) : List α → List α → List α
  | _, [] => []
  | seen, a :: l =>
    if IsRecord kind value seen a then a :: recordsBehind kind value (seen ++ [a]) l
    else recordsBehind kind value (seen ++ [a]) l

/-- The records of a list, in their order. -/
def records (kind : α → κ) (value : α → ℕ) (l : List α) : List α := recordsBehind kind value [] l

/-- The records of two parts, the second one behind the first. -/
theorem recordsBehind_append (l' : List α) : ∀ seen l : List α,
    recordsBehind kind value seen (l ++ l') =
      recordsBehind kind value seen l ++ recordsBehind kind value (seen ++ l) l'
  | seen, [] => by rw [List.append_nil]; rfl
  | seen, a :: l => by
    have ih := recordsBehind_append l' (seen ++ [a]) l
    rw [List.append_assoc, List.singleton_append] at ih
    rw [List.cons_append, recordsBehind, recordsBehind, ih]
    split <;> rfl

/-- The last value is a record or leaves the records as they are. -/
theorem records_concat (l : List α) (a : α) : records kind value (l ++ [a]) =
    records kind value l ++ if IsRecord kind value l a then [a] else [] := by
  unfold records
  rw [recordsBehind_append, List.nil_append]
  rfl

/-- The records of a kind are the records among its own. -/
theorem filter_records (k : κ) (l : List α) :
    (records kind value l).filter (fun a => kind a = k)
      = records kind value (l.filter fun a => kind a = k) := by
  induction l using List.reverseRecOn with
  | nil => rfl
  | append_singleton l a ih =>
    have hrecord : kind a = k → (IsRecord kind value (l.filter fun a => kind a = k) a ↔
        IsRecord kind value l a) := by
      rintro rfl
      simp [IsRecord]
    rw [records_concat, List.filter_append, List.filter_append, ih]
    by_cases hk : kind a = k
    · have hsingle : [a].filter (fun a => kind a = k) = [a] := by simp [hk]
      rw [hsingle, records_concat]
      simp only [hrecord hk]
      split
      · rw [hsingle]
      · rfl
    · have hnone : [a].filter (fun a => kind a = k) = [] := by simp [hk]
      rw [hnone, List.append_nil]
      split
      · rw [hnone, List.append_nil]
      · exact List.append_nil _

end Infra
