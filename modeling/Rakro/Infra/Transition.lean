import Mathlib.Algebra.BigOperators.Group.Finset.Piecewise
import Mathlib.Data.Fintype.Basic

/-!
# Runs of a transition system

What can happen in a state is told by `enabled`, what it leads to by `next`. A run is what happens
one after the other, from the state it starts in. A restricted system is the same one when less is
allowed to happen.
-/

namespace Infra

/-- A system that takes its actions one at a time, each when it is enabled. -/
structure TransitionSystem (σ α : Type) where
  enabled : σ → α → Prop
  next : σ → α → σ

namespace TransitionSystem

variable {σ α : Type}

/-- The system in which only what `allowed` says happens. -/
def restrict (sys : TransitionSystem σ α) (allowed : σ → α → Prop) : TransitionSystem σ α where
  enabled s a := sys.enabled s a ∧ allowed s a
  next := sys.next

instance {sys : TransitionSystem σ α} {allowed : σ → α → Prop} (s : σ) (a : α)
    [Decidable (sys.enabled s a)] [Decidable (allowed s a)] :
    Decidable ((sys.restrict allowed).enabled s a) := instDecidableAnd

/-- The states that a list of enabled actions leads to. -/
inductive Runs (sys : TransitionSystem σ α) (s : σ) : List α → σ → Prop
  | nil : sys.Runs s [] s
  | snoc {l : List α} {a : α} {s' : σ} : sys.Runs s l s' → sys.enabled s' a →
      sys.Runs s (l ++ [a]) (sys.next s' a)

variable {sys : TransitionSystem σ α} {s s' : σ} {l : List α}

/-- What holds at the start and is kept by whatever happens holds all along. -/
theorem Runs.invariant {P : σ → Prop} (h : sys.Runs s l s') (hstart : P s)
    (hstep : ∀ s a, P s → sys.enabled s a → P (sys.next s a)) : P s' := by
  induction h with
  | nil => exact hstart
  | snoc _ henabled ih => exact hstep _ _ ih henabled

/-- Each of the list can happen in its turn. -/
def Possible (sys : TransitionSystem σ α) : σ → List α → Prop
  | _, [] => True
  | s, a :: l => sys.enabled s a ∧ sys.Possible (sys.next s a) l

instance decidablePossible [∀ s a, Decidable (sys.enabled s a)] :
    (s : σ) → (l : List α) → Decidable (sys.Possible s l)
  | _, [] => isTrue trivial
  | s, a :: l => @instDecidableAnd _ _ _ (decidablePossible (sys.next s a) l)

/-- A run goes on with any actions that are possible behind it. -/
theorem Runs.append_of_possible (h : sys.Runs s l s') {more : List α}
    (hpossible : sys.Possible s' more) : sys.Runs s (l ++ more) (more.foldl sys.next s') := by
  induction more generalizing l s' with
  | nil => rwa [List.append_nil]
  | cons a more ih =>
    have hrest := ih (h.snoc hpossible.1) hpossible.2
    rwa [List.append_assoc] at hrest

end TransitionSystem

/-! ## Moving processes -/

/-- Where a process is after a move, it has been before, or it is the one that has moved there. -/
theorem of_update {T β : Type} [DecidableEq T] {P : β → Prop} {f : T → β} {t u : T} {b : β}
    (h : P (Function.update f t b u)) : P b ∨ P (f u) := by
  by_cases hut : u = t
  · rw [hut, Function.update_self] at h
    exact Or.inl h
  · rw [Function.update_of_ne hut] at h
    exact Or.inr h

/-! ## Counting processes -/

section Counting

variable {T β : Type} [Fintype T] (P : β → Prop) [DecidablePred P]

/-- How many processes are at a place of the kind `P`. -/
def processesAt (f : T → β) : Nat := (Finset.univ.filter fun t => P (f t)).card

/-- When one process moves, only that one is counted elsewhere. -/
theorem processesAt_update [DecidableEq T] (f : T → β) (t : T) (b : β) :
    processesAt P (Function.update f t b) + (if P (f t) then 1 else 0)
      = processesAt P f + if P b then 1 else 0 := by
  have hrest : ∑ u ∈ Finset.univ.erase t, (if P (Function.update f t b u) then 1 else 0)
      = ∑ u ∈ Finset.univ.erase t, if P (f u) then 1 else 0 := by
    refine Finset.sum_congr rfl fun u hu => ?_
    rw [Function.update_of_ne (Finset.ne_of_mem_erase hu)]
  unfold processesAt
  rw [Finset.card_filter, Finset.card_filter, ← Finset.add_sum_erase _ _ (Finset.mem_univ t),
    ← Finset.add_sum_erase _ (fun u => if P (f u) then 1 else 0) (Finset.mem_univ t), hrest,
    Function.update_self]
  omega

end Counting

end Infra
