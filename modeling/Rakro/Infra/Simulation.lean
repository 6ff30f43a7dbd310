import Rakro.Infra.Program

/-!
# Two programs side by side

`Simulates R m n Q` compares two programs on states that `R` relates: when the first returns, the
second returns as well, and `Q` relates the results and the states they leave. Nothing is said about
a first program that throws. The two may have states of their own kind, and results too.
-/

namespace Infra

variable {ε ε' σ τ α β γ δ ι : Type}

/-- When `m` returns, `n` does from every related state, and `Q` holds of what they have become. -/
def Simulates (R : σ → τ → Prop) (m : EStateM ε σ α) (n : EStateM ε' τ β)
    (Q : α → β → σ → τ → Prop) : Prop :=
  ∀ s t a s', R s t → m.run s = .ok a s' → ∃ b t', n.run t = .ok b t' ∧ Q a b s' t'

section Simulates

variable {R : σ → τ → Prop} {m : EStateM ε σ α} {n : EStateM ε' τ β} {Q : α → β → σ → τ → Prop}
  {Q' : γ → δ → σ → τ → Prop}

theorem Simulates.mono {Q'' : α → β → σ → τ → Prop} (hQ : ∀ a b s t, Q a b s t → Q'' a b s t)
    (h : Simulates R m n Q) : Simulates R m n Q'' := by
  intro s t a s' hR hrun
  obtain ⟨b, t', hrun', hrel⟩ := h s t a s' hR hrun
  exact ⟨b, t', hrun', hQ _ _ _ _ hrel⟩

/-- A stronger relation may be used before. -/
theorem Simulates.of_imp {R' : σ → τ → Prop} (hR : ∀ s t, R' s t → R s t)
    (h : Simulates R m n Q) : Simulates R' m n Q :=
  fun s t a s' hrel hrun => h s t a s' (hR s t hrel) hrun

theorem Simulates.pure {a : α} {b : β} (h : ∀ s t, R s t → Q a b s t) :
    Simulates R (pure a : EStateM ε σ α) (pure b : EStateM ε' τ β) Q := by
  intro s t a' s' hR hrun
  cases hrun
  exact ⟨b, t, rfl, h s t hR⟩

/-- A program that throws is simulated by any other. -/
theorem Simulates.throw (e : ε) : Simulates R (throw e : EStateM ε σ α) n Q := by
  intro s t a s' _ hrun
  cases hrun

theorem Simulates.bind {f : α → EStateM ε σ γ} {g : β → EStateM ε' τ δ} (hm : Simulates R m n Q)
    (hf : ∀ a b, Simulates (Q a b) (f a) (g b) Q') : Simulates R (m >>= f) (n >>= g) Q' := by
  intro s t c s'' hR hrun
  obtain ⟨a, s', hfirst, hrest⟩ := bind_eq_ok hrun
  obtain ⟨b, t', hfirst', hQ⟩ := hm s t a s' hR hfirst
  obtain ⟨d, t'', hrest', hQ'⟩ := hf a b s' t' c s'' hQ hrest
  exact ⟨d, t'', (run_bind_of_ok hfirst').trans hrest', hQ'⟩

/-- Both look at their states, which are related. -/
theorem Simulates.get_bind {f : σ → EStateM ε σ γ} {g : τ → EStateM ε' τ δ}
    (hf : ∀ s t, R s t → Simulates R (f s) (g t) Q') :
    Simulates R (get >>= f) (get >>= g) Q' :=
  fun s t c s' hR hrun => hf s t hR s t c s' hR hrun

theorem Simulates.modify {f : σ → σ} {g : τ → τ} {Q : PUnit → PUnit → σ → τ → Prop}
    (h : ∀ s t, R s t → Q ⟨⟩ ⟨⟩ (f s) (g t)) :
    Simulates R (modify f : EStateM ε σ PUnit) (modify g : EStateM ε' τ PUnit) Q := by
  intro s t a s' hR hrun
  cases hrun
  exact ⟨⟨⟩, g t, rfl, h s t hR⟩

theorem Simulates.set {s' : σ} {t' : τ} {Q : PUnit → PUnit → σ → τ → Prop} (h : Q ⟨⟩ ⟨⟩ s' t') :
    Simulates R (set s' : EStateM ε σ PUnit) (set t' : EStateM ε' τ PUnit) Q := by
  intro s t a s'' _ hrun
  cases hrun
  exact ⟨⟨⟩, t', rfl, h⟩

/-- Both take the same branch. -/
theorem Simulates.ite {c c' : Prop} [Decidable c] [Decidable c'] {m' : EStateM ε σ α}
    {n' : EStateM ε' τ β} (hc : c ↔ c') (hthen : c → Simulates R m n Q)
    (helse : ¬ c → Simulates R m' n' Q) :
    Simulates R (if c then m else m') (if c' then n else n') Q := by
  by_cases h : c
  · rw [if_pos h, if_pos (hc.mp h)]
    exact hthen h
  · rw [if_neg h, if_neg (mt hc.mpr h)]
    exact helse h

/-- States in which something exists are related for some witness. -/
theorem Simulates.of_exists {R : ι → σ → τ → Prop} (h : ∀ i, Simulates (R i) m n Q) :
    Simulates (fun s t => ∃ i, R i s t) m n Q := by
  rintro s t a s' ⟨i, hR⟩ hrun
  exact h i s t a s' hR hrun

/-- What does not depend on the states may be assumed. -/
theorem Simulates.of_and {p : Prop} (h : p → Simulates R m n Q) :
    Simulates (fun s t => p ∧ R s t) m n Q := by
  rintro s t a s' ⟨hp, hR⟩ hrun
  exact h hp s t a s' hR hrun

end Simulates

/-! ## The same results -/

/-- `n` returns what `m` returns, and `S` relates the states behind. -/
abbrev Agrees (R : σ → τ → Prop) (m : EStateM ε σ α) (n : EStateM ε' τ α) (S : σ → τ → Prop) :
    Prop := Simulates R m n fun a b s t => a = b ∧ S s t

section Agrees

variable {R S : σ → τ → Prop} {m : EStateM ε σ α} {n : EStateM ε' τ α}

theorem Agrees.pure (a : α) : Agrees R (pure a : EStateM ε σ α) (pure a : EStateM ε' τ α) R :=
  Simulates.pure fun _ _ hR => ⟨rfl, hR⟩

/-- What follows may go by the one result. -/
theorem Agrees.bind {f : α → EStateM ε σ γ} {g : α → EStateM ε' τ δ}
    {Q : γ → δ → σ → τ → Prop} (hm : Agrees R m n S) (hf : ∀ a, Simulates S (f a) (g a) Q) :
    Simulates R (m >>= f) (n >>= g) Q := by
  refine Simulates.bind hm fun a b => Simulates.of_and ?_
  rintro rfl
  exact hf a

theorem Agrees.modify {f : σ → σ} {g : τ → τ} (h : ∀ s t, R s t → S (f s) (g t)) :
    Agrees R (modify f : EStateM ε σ PUnit) (modify g : EStateM ε' τ PUnit) S :=
  Simulates.modify fun s t hR => ⟨rfl, h s t hR⟩

theorem Agrees.forM {f : γ → EStateM ε σ PUnit} {g : γ → EStateM ε' τ PUnit}
    (hf : ∀ c, Agrees R (f c) (g c) R) : ∀ l : List γ, Agrees R (l.forM f) (l.forM g) R
  | [] => Agrees.pure _
  | c :: l => Agrees.bind (hf c) fun _ => Agrees.forM hf l

end Agrees

end Infra
