import Rakro.Infra.Program

/-!
# Programs that stay among the states of a kind

`Confined P E Q m` is a triple with one invariant `P` for the state before and behind: from there,
`m` returns a result of `Q`, or it throws one of `E`. The state that an exception leaves is not
looked at. What a part returns is known to the parts behind it, so the triples compose along `bind`.

`thrown` is the exception by itself.
-/

namespace Infra

variable {ε σ α β : Type}

/-- Started in `P`, `m` returns in `P` with a result of `Q`, or throws one of `E`. -/
structure Confined (P : σ → Prop) (E : ε → Prop) (Q : α → Prop) (m : EStateM ε σ α) : Prop where
  returns : ∀ s a s', P s → m.run s = .ok a s' → P s' ∧ Q a
  throws : ∀ s e s', P s → m.run s = .error e s' → E e

namespace Confined

variable {P : σ → Prop} {E E' : ε → Prop} {Q Q' : α → Prop} {R : β → Prop} {m : EStateM ε σ α}

theorem mono (h : Confined P E Q m) (hQ : ∀ a, Q a → Q' a) (hE : ∀ e, E e → E' e) :
    Confined P E' Q' m where
  returns s a s' hs hrun := ⟨(h.returns s a s' hs hrun).1, hQ a (h.returns s a s' hs hrun).2⟩
  throws s e s' hs hrun := hE e (h.throws s e s' hs hrun)

theorem pure {a : α} (ha : Q a) : Confined P E Q (pure a : EStateM ε σ α) where
  returns s a' s' hs hrun := by
    cases hrun
    exact ⟨hs, ha⟩
  throws s e s' _ hrun := by cases hrun

theorem throw {e : ε} (he : E e) : Confined P E Q (throw e : EStateM ε σ α) where
  returns s a s' _ hrun := by cases hrun
  throws s e' s' _ hrun := by
    cases hrun
    exact he

theorem modify {f : σ → σ} (hf : ∀ s, P s → P (f s)) :
    Confined P E (fun _ => True) (modify f : EStateM ε σ PUnit) where
  returns s a s' hs hrun := by
    cases hrun
    exact ⟨hf s hs, trivial⟩
  throws s e s' _ hrun := by cases hrun

/-- What has looked at the state knows that it is one of the kind. -/
theorem get_bind {f : σ → EStateM ε σ α} (hf : ∀ s, P s → Confined P E Q (f s)) :
    Confined P E Q (get >>= f) where
  returns s a s' hs hrun := (hf s hs).returns s a s' hs hrun
  throws s e s' hs hrun := (hf s hs).throws s e s' hs hrun

/-- The second part need only be confined for what the first one may return. -/
theorem bind {f : α → EStateM ε σ β} (hm : Confined P E Q m)
    (hf : ∀ a, Q a → Confined P E R (f a)) : Confined P E R (m >>= f) where
  returns s b s'' hs hrun := by
    obtain ⟨a, s', hfirst, hrest⟩ := bind_eq_ok hrun
    obtain ⟨hs', ha⟩ := hm.returns s a s' hs hfirst
    exact (hf a ha).returns s' b s'' hs' hrest
  throws s e s'' hs hrun := by
    cases hfirst : m.run s with
    | ok a s' =>
      rw [run_bind_of_ok hfirst] at hrun
      obtain ⟨hs', ha⟩ := hm.returns s a s' hs hfirst
      exact (hf a ha).throws s' e s'' hs' hrun
    | error e' s' =>
      rw [run_bind_of_error hfirst] at hrun
      cases hrun
      exact hm.throws s _ _ hs hfirst

theorem ite {c : Prop} [Decidable c] {n : EStateM ε σ α} (hm : c → Confined P E Q m)
    (hn : ¬ c → Confined P E Q n) : Confined P E Q (if c then m else n) := by
  split
  · exact hm ‹_›
  · exact hn ‹_›

theorem forM {f : α → EStateM ε σ PUnit} (hf : ∀ a, Confined P E (fun _ => True) (f a)) :
    ∀ l : List α, Confined P E (fun _ => True) (l.forM f)
  | [] => Confined.pure trivial
  | a :: l => Confined.bind (hf a) fun _ _ => Confined.forM hf l

end Confined

/-- The exception that `m` ends with when it is started in `s`. -/
def thrown (m : EStateM ε σ α) (s : σ) : Option ε :=
  match m.run s with
  | .ok _ _ => none
  | .error e _ => some e

theorem run_of_thrown {m : EStateM ε σ α} {s : σ} {e : ε} (h : thrown m s = some e) :
    ∃ s', m.run s = .error e s' := by
  unfold thrown at h
  cases hrun : m.run s with
  | ok a s' =>
    rw [hrun] at h
    cases h
  | error e' s' =>
    rw [hrun] at h
    cases h
    exact ⟨s', rfl⟩

end Infra
