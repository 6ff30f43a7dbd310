import Mathlib.Data.Fintype.EquivFin
import Mathlib.Data.Nat.Find
import Mathlib.Order.Bounds.Basic

/-!
# Turns

Numbers arrive in some order. `turns` counts how many of `0, 1, 2, …` have all come, which is the
first number that is still missing. A receiver that delivers in turn has delivered exactly these.
-/

namespace Infra

/-- Some number has not arrived. -/
theorem exists_notMem (arrived : List ℕ) : ∃ n, n ∉ arrived := by
  obtain ⟨n, hn⟩ := Infinite.exists_notMem_finset arrived.toFinset
  exact ⟨n, fun h => hn (List.mem_toFinset.mpr h)⟩

/-- The largest `k` such that all of `0, …, k - 1` have arrived. -/
def turns (arrived : List ℕ) : ℕ := Nat.find (exists_notMem arrived)

/-- The next in turn has not arrived. -/
theorem turns_notMem (arrived : List ℕ) : turns arrived ∉ arrived :=
  Nat.find_spec (exists_notMem arrived)

/-- Everything before the next in turn has arrived. -/
theorem mem_of_lt_turns {arrived : List ℕ} {i : ℕ} (h : i < turns arrived) : i ∈ arrived :=
  not_not.mp (Nat.find_min (exists_notMem arrived) h)

/-- The next in turn is the largest number below which nothing is missing. -/
theorem turns_isGreatest (arrived : List ℕ) :
    IsGreatest {k | ∀ i < k, i ∈ arrived} (turns arrived) := by
  refine ⟨fun i hi => mem_of_lt_turns hi, fun k hk => ?_⟩
  by_contra hlt
  exact turns_notMem arrived (hk _ (Nat.lt_of_not_le hlt))

/-- The count is the only number of its kind. -/
theorem turns_eq {arrived : List ℕ} {k : ℕ} (hmem : ∀ i < k, i ∈ arrived) (hk : k ∉ arrived) :
    turns arrived = k := by
  apply Nat.le_antisymm
  · by_contra h
    exact hk (mem_of_lt_turns (Nat.lt_of_not_le h))
  · exact (turns_isGreatest arrived).2 hmem

@[simp] theorem turns_nil : turns [] = 0 :=
  turns_eq (fun i hi => absurd hi (Nat.not_lt_zero i)) List.not_mem_nil

/-- A number whose turn it is not leaves the count. -/
theorem turns_concat_of_ne {arrived : List ℕ} {i : ℕ} (h : i ≠ turns arrived) :
    turns (arrived ++ [i]) = turns arrived := by
  refine turns_eq (fun j hj => List.mem_append_left _ (mem_of_lt_turns hj)) fun hmem => ?_
  rcases List.mem_append.mp hmem with hm | hm
  · exact turns_notMem arrived hm
  · exact h (List.mem_singleton.mp hm).symm

/-- When nothing has come early, a number in its turn is one more. -/
theorem turns_concat_of_eq {arrived : List ℕ} (h : ∀ i ∈ arrived, i < turns arrived) :
    turns (arrived ++ [turns arrived]) = turns arrived + 1 := by
  refine turns_eq (fun j hj => ?_) fun hmem => ?_
  · rcases Nat.lt_succ_iff_lt_or_eq.mp hj with hlt | rfl
    · exact List.mem_append_left _ (mem_of_lt_turns hlt)
    · exact List.mem_append_right _ (List.mem_singleton_self _)
  · rcases List.mem_append.mp hmem with hm | hm
    · have := h _ hm
      omega
    · have := List.mem_singleton.mp hm
      omega

/-- What is above all that arrived is not before the next in turn. -/
theorem turns_le_of_forall_lt {arrived : List ℕ} {n : ℕ} (h : ∀ i ∈ arrived, i < n) :
    turns arrived ≤ n := by
  by_contra hlt
  exact Nat.lt_irrefl n (h n (mem_of_lt_turns (Nat.lt_of_not_le hlt)))

/-! ## Orders of arrival -/

/-- In an order of `0, …, n - 1` in which no number comes before its place, each is in its place. -/
theorem eq_range_of_perm {n : ℕ} : ∀ {arrived : List ℕ}, arrived.Perm (List.range n) →
    (∀ l i, l ++ [i] <+: arrived → l.length ≤ i) → arrived = List.range n := by
  induction n with
  | zero => exact fun h _ => List.perm_nil.mp h
  | succ n ih =>
    intro arrived h hle
    -- the last number is the largest, since it does not come before its place
    cases arrived using List.reverseRecOn with
    | nil => exact absurd h.length_eq (by simp)
    | append_singleton l i =>
      have hlen := h.length_eq
      rw [List.length_append, List.length_singleton, List.length_range] at hlen
      have hn : n ≤ i := by
        have := hle l i (List.prefix_refl _)
        omega
      have hi : i < n + 1 := List.mem_range.mp
        (h.mem_iff.mp (List.mem_append_right l (List.mem_singleton_self i)))
      obtain rfl : i = n := by omega
      rw [List.range_succ] at h ⊢
      rw [ih ((List.perm_append_right_iff [i]).mp h) fun l' j hl' =>
        hle l' j (hl'.trans (List.prefix_append _ _))]

/-- A number behind the first ones, all in their order, is the one that follows them. -/
theorem of_prefix_range {n i : ℕ} {l : List ℕ} (h : l ++ [i] <+: List.range n) :
    l = List.range l.length ∧ i = l.length := by
  have hlen := h.length_le
  rw [List.length_append, List.length_singleton, List.length_range] at hlen
  have heq := List.prefix_iff_eq_take.mp h
  rw [List.take_range, List.length_append, List.length_singleton, Nat.min_eq_left hlen,
    List.range_succ] at heq
  obtain ⟨hl, hi⟩ := List.append_inj' heq rfl
  exact ⟨hl, List.singleton_inj.mp hi⟩

end Infra
