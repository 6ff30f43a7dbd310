import Rakro.Infra.Program
import Mathlib.Algebra.BigOperators.Group.List.Basic
import Mathlib.Algebra.Order.Monoid.Canonical.Defs

/-!
# Programs on a budget

A relation of the state before and the state behind is graded when it comes with what the way from
the one to the other may cost. Then `Within (R c) m` says that `m` spends no more than `c`, however
it ends, and the budgets of a sequence add up.

What is saved up in the state is a matter of `R`: with a potential `φ` on the states, a step that
spends `x` and has a budget of `c` is one with `x + φ s' ≤ c + φ s`.
-/

namespace Infra

variable {M ε σ α β : Type} [AddCommMonoid M] [PartialOrder M]

/-- `R c` relates the states between which no more than `c` is spent. -/
class IsGraded (R : M → σ → σ → Prop) : Prop where
  refl : ∀ s, R 0 s s
  trans : ∀ {c d : M} {s s' s'' : σ}, R c s s' → R d s' s'' → R (c + d) s s''
  mono : ∀ {c d : M} {s s' : σ}, c ≤ d → R c s s' → R d s s'

variable {R : M → σ → σ → Prop} [IsGraded R] {c d : M} {m : EStateM ε σ α}

theorem free_pure (a : α) : Within (R 0) (pure a : EStateM ε σ α) := IsGraded.refl

theorem free_throw (e : ε) : Within (R 0) (throw e : EStateM ε σ α) := IsGraded.refl

theorem free_get : Within (R 0) (get : EStateM ε σ σ) := IsGraded.refl

/-- What fits a budget fits a larger one. -/
theorem Within.more (h : Within (R c) m) (hle : c ≤ d) : Within (R d) m :=
  h.mono fun _ _ => IsGraded.mono hle

variable [CanonicallyOrderedAdd M]

/-- The budgets of a sequence add up. What comes behind may go by what has been returned. -/
theorem graded_after_bind {f : α → EStateM ε σ β} {s : σ} (hm : R c s (after m s))
    (hf : ∀ a s', m.run s = .ok a s' → R d s' (after (f a) s')) :
    R (c + d) s (after (m >>= f) s) := by
  cases h : m.run s with
  | ok a s' =>
    rw [after_of_ok h] at hm
    rw [after_bind_ok h]
    exact IsGraded.trans hm (hf a s' h)
  | error e s' =>
    -- what comes behind is not reached, and its budget is left
    rw [after_bind_error h, ← after_of_error h]
    exact IsGraded.mono le_self_add hm

/--
The budgets of two parts add up, where the second one is only looked at behind a return of the
first.
-/
theorem Within.bind_of_run {f : α → EStateM ε σ β} (hm : Within (R c) m)
    (hf : ∀ s a s', m.run s = .ok a s' → Within (R d) (f a)) : Within (R (c + d)) (m >>= f) :=
  fun s => graded_after_bind (hm s) fun a s' h => hf s a s' h s'

/-- The budgets of two parts add up. -/
theorem Within.bind_add {f : α → EStateM ε σ β} (hm : Within (R c) m)
    (hf : ∀ a, Within (R d) (f a)) : Within (R (c + d)) (m >>= f) :=
  hm.bind_of_run fun _ a _ _ => hf a

/-- What is free in front does not count. -/
theorem Within.free_bind {f : α → EStateM ε σ β} (hm : Within (R 0) m)
    (hf : ∀ a, Within (R c) (f a)) : Within (R c) (m >>= f) := by
  have h := hm.bind_add hf
  rwa [zero_add] at h

/-- Neither does what is free behind. -/
theorem graded_bind_free {f : α → EStateM ε σ β} {s : σ} (hm : R c s (after m s))
    (hf : ∀ a, Within (R 0) (f a)) : R c s (after (m >>= f) s) := by
  have h := graded_after_bind hm fun a s' _ => hf a s'
  rwa [add_zero] at h

/-- A part that costs nothing leaves the budget as it is. -/
theorem Within.bind_free {f : α → EStateM ε σ β} (hm : Within (R c) m)
    (hf : ∀ a, Within (R 0) (f a)) : Within (R c) (m >>= f) := fun s =>
  graded_bind_free (hm s) hf

end Infra
