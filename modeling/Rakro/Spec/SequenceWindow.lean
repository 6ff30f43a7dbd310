import Rakro.Infra.Turns
import Mathlib.Order.Interval.Finset.Nat

/-!
# The receive window, on numbers

The window of received datagrams is a counter and a record of missing numbers. `receive` is what the
code does with a number that arrives; `gaps` is what the record is meant to be. The counter moves on
by one for each datagram, whatever its number, so the two agree only while the numbers come in
turn.
-/

namespace Rakro

open Infra

/-- The number that comes next, and those before it that have not come. -/
structure SequenceWindow where
  next : ℕ := 0
  missing : Finset ℕ := ∅
  deriving DecidableEq

namespace SequenceWindow

/-- A number below the counter is stale. For any other the gap is recorded and the counter moves. -/
def receive (window : SequenceWindow) (seq : ℕ) : SequenceWindow :=
  if seq < window.next then window
  else { next := window.next + 1, missing := window.missing ∪ Finset.Ioo window.next seq }

/-- The window after the numbers of a list, from a fresh one. -/
def run (seqs : List ℕ) : SequenceWindow := seqs.foldl receive {}

@[simp] theorem run_nil : run [] = {} := rfl

@[simp] theorem run_concat (seqs : List ℕ) (seq : ℕ) :
    run (seqs ++ [seq]) = (run seqs).receive seq := by
  unfold run
  rw [List.foldl_append]
  rfl

/-- An old number changes nothing. -/
theorem receive_stale {window : SequenceWindow} {seq : ℕ} (h : seq < window.next) :
    window.receive seq = window := if_pos h

/-- The next number leaves no gap. -/
theorem receive_next (window : SequenceWindow) :
    window.receive window.next = { window with next := window.next + 1 } := by
  unfold receive
  rw [if_neg (Nat.lt_irrefl _), Finset.Ioo_self, Finset.union_empty]

/-! ## What the record is meant to be -/

/-- The numbers below the largest one received that have not been received. -/
def gaps (seqs : List ℕ) : Finset ℕ :=
  (Finset.range (seqs.foldr max 0)).filter (· ∉ seqs)

/-- The largest of some numbers is above what one of them is above. -/
theorem lt_foldr_max_iff {m : ℕ} : ∀ seqs : List ℕ, m < seqs.foldr max 0 ↔ ∃ s ∈ seqs, m < s
  | [] => by simp
  | s :: seqs => by
    rw [List.foldr_cons, lt_max_iff, lt_foldr_max_iff seqs]
    simp

/-- A gap has not come, and something behind it has. -/
theorem mem_gaps {m : ℕ} {seqs : List ℕ} : m ∈ gaps seqs ↔ m ∉ seqs ∧ ∃ s ∈ seqs, m < s := by
  unfold gaps
  rw [Finset.mem_filter, Finset.mem_range, lt_foldr_max_iff, and_comm]

/-! ## Numbers in turn -/

/-- No number comes while a smaller one is still missing. -/
def InTurns (seqs : List ℕ) : Prop := ∀ l s, l ++ [s] <+: seqs → s ≤ turns l

/-- A part of what comes in turns does. -/
theorem InTurns.of_prefix {l seqs : List ℕ} (h : InTurns seqs) (hl : l <+: seqs) : InTurns l :=
  fun l' s hs => h l' s (hs.trans hl)

theorem inTurns_nil : InTurns [] := by
  intro l s hl
  have := hl.length_le
  simp at this

/-- The last number decides. -/
theorem inTurns_concat {seqs : List ℕ} {s : ℕ} :
    InTurns (seqs ++ [s]) ↔ InTurns seqs ∧ s ≤ turns seqs := by
  constructor
  · intro h
    exact ⟨h.of_prefix (List.prefix_append _ _), h _ _ (List.prefix_refl _)⟩
  · rintro ⟨h, hs⟩ l t hl
    rcases List.prefix_concat_iff.mp hl with heq | hl
    · obtain ⟨rfl, ht⟩ := List.append_inj' heq rfl
      rw [List.singleton_inj.mp ht]
      exact hs
    · exact h l t hl

/-- In turn, the counter is the first number still missing, and nothing is recorded. -/
theorem run_inTurns {seqs : List ℕ} (h : InTurns seqs) :
    run seqs = { next := turns seqs } ∧ ∀ s ∈ seqs, s < turns seqs := by
  induction seqs using List.reverseRecOn with
  | nil => exact ⟨by rw [run_nil, turns_nil], by simp⟩
  | append_singleton l s ih =>
    obtain ⟨hl, hs⟩ := inTurns_concat.mp h
    obtain ⟨hrun, hlt⟩ := ih hl
    rw [run_concat, hrun]
    -- a number that has come before is stale, the next one moves the counter on
    rcases Nat.lt_or_eq_of_le hs with hs | rfl
    · rw [receive_stale hs, turns_concat_of_ne (Nat.ne_of_lt hs)]
      refine ⟨rfl, fun t ht => ?_⟩
      rcases List.mem_append.mp ht with ht | ht
      · exact hlt t ht
      · rw [List.mem_singleton.mp ht]; exact hs
    · rw [turns_concat_of_eq hlt]
      refine ⟨receive_next { next := turns l }, fun t ht => ?_⟩
      rcases List.mem_append.mp ht with ht | ht
      · exact Nat.lt_succ_of_lt (hlt t ht)
      · rw [List.mem_singleton.mp ht]; exact Nat.lt_succ_self _

/-- In turn, nothing is missing. -/
theorem gaps_inTurns {seqs : List ℕ} (h : InTurns seqs) : gaps seqs = ∅ := by
  refine Finset.eq_empty_of_forall_notMem fun m hm => ?_
  obtain ⟨hmem, s, hs, hlt⟩ := mem_gaps.mp hm
  exact hmem (mem_of_lt_turns (Nat.lt_trans hlt ((run_inTurns h).2 s hs)))

/-- A number out of turn leaves the first missing one unrecorded. -/
theorem gaps_ne_of_gt {seqs : List ℕ} {s : ℕ} (h : InTurns seqs) (hs : turns seqs < s) :
    (run (seqs ++ [s])).missing ≠ gaps (seqs ++ [s]) := by
  intro heq
  have hgap : turns seqs ∈ gaps (seqs ++ [s]) := by
    refine mem_gaps.mpr ⟨fun hmem => ?_, s, List.mem_append_right _ (List.mem_singleton_self _), hs⟩
    rcases List.mem_append.mp hmem with hm | hm
    · exact turns_notMem seqs hm
    · rw [List.mem_singleton.mp hm] at hs
      exact Nat.lt_irrefl _ hs
  rw [← heq, run_concat, (run_inTurns h).1, receive,
    if_neg (Nat.not_lt.mpr (Nat.le_of_lt hs))] at hgap
  simp at hgap

/-- **The record is exact after every number just when the numbers come in turn.** -/
theorem missing_eq_gaps_iff (seqs : List ℕ) :
    (∀ l, l <+: seqs → (run l).missing = gaps l) ↔ InTurns seqs := by
  constructor
  · intro hexact
    induction seqs using List.reverseRecOn with
    | nil => exact inTurns_nil
    | append_singleton l s ih =>
      have hl := ih fun l' hl' => hexact l' (hl'.trans (List.prefix_append _ _))
      refine inTurns_concat.mpr ⟨hl, ?_⟩
      -- the first number out of turn would leave a gap unrecorded
      by_contra hlt
      exact gaps_ne_of_gt hl (Nat.lt_of_not_le hlt) (hexact _ (List.prefix_refl _))
  · intro h l hl
    rw [(run_inTurns (h.of_prefix hl)).1, gaps_inTurns (h.of_prefix hl)]

/-! ## Orders of arrival -/

/-- Numbers in their order leave no gap. -/
theorem run_range (n : ℕ) : run (List.range n) = { next := n } := by
  induction n with
  | zero => rfl
  | succ n ih => rw [List.range_succ, run_concat, ih, receive_next { next := n }]

/-- As long as nothing is stale, the counter is the count of arrivals. -/
theorem next_run_of_fresh {seqs : List ℕ} (h : ∀ l s, l ++ [s] <+: seqs → (run l).next ≤ s) :
    (run seqs).next = seqs.length := by
  induction seqs using List.reverseRecOn with
  | nil => rfl
  | append_singleton l s ih =>
    have hnext := ih fun l' s' hl' => h l' s' (hl'.trans (List.prefix_append _ _))
    have hs := h l s (List.prefix_refl _)
    rw [run_concat, receive, if_neg (Nat.not_lt.mpr hs), hnext, List.length_append,
      List.length_singleton]

/-- **Of the orders of `0, …, n - 1`, only their own leaves no number stale.** -/
theorem none_stale_iff {seqs : List ℕ} {n : ℕ} (h : seqs.Perm (List.range n)) :
    (∀ l s, l ++ [s] <+: seqs → (run l).next ≤ s) ↔ seqs = List.range n := by
  constructor
  · intro hfresh
    refine eq_range_of_perm h fun l s hl => ?_
    rw [← next_run_of_fresh fun l' s' hl' =>
      hfresh l' s' (hl'.trans ((List.prefix_append l [s]).trans hl))]
    exact hfresh l s hl
  · rintro rfl l s hl
    obtain ⟨hrange, rfl⟩ := of_prefix_range hl
    rw [hrange, run_range, List.length_range]

/-! ## A counter that begins again -/

/-- As `receive`, but the counter has only the numbers below `m`. -/
def receiveMod (m : ℕ) (window : SequenceWindow) (seq : ℕ) : SequenceWindow :=
  if seq < window.next then window
  else { next := (window.next + 1) % m, missing := window.missing ∪ Finset.Ioo window.next seq }

/-- The window after the numbers of a list, with such a counter. -/
def runMod (m : ℕ) (seqs : List ℕ) : SequenceWindow := seqs.foldl (receiveMod m) {}

@[simp] theorem runMod_nil (m : ℕ) : runMod m [] = {} := rfl

@[simp] theorem runMod_concat (m : ℕ) (seqs : List ℕ) (seq : ℕ) :
    runMod m (seqs ++ [seq]) = (runMod m seqs).receiveMod m seq := by
  unfold runMod
  rw [List.foldl_append]
  rfl

/-- A number that is accepted is not below the counter, so below `m` it does not begin again. -/
theorem receiveMod_of_lt {m seq : ℕ} (window : SequenceWindow) (h : seq + 1 < m) :
    window.receiveMod m seq = window.receive seq := by
  unfold receiveMod receive
  split
  · rfl
  · next hfresh => rw [Nat.mod_eq_of_lt (by omega)]

/-- Below the wrap, the window that wraps is the one that does not. -/
theorem runMod_eq_run {m : ℕ} {seqs : List ℕ} (h : ∀ seq ∈ seqs, seq + 1 < m) :
    runMod m seqs = run seqs := by
  induction seqs using List.reverseRecOn with
  | nil => rfl
  | append_singleton l s ih =>
    rw [runMod_concat, run_concat, ih fun seq hseq => h seq (List.mem_append_left _ hseq),
      receiveMod_of_lt _ (h s (List.mem_append_right l (List.mem_singleton_self s)))]

end SequenceWindow

end Rakro
