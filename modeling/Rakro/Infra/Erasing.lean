import Rakro.Infra.Oracle

/-!
# Programs that do not depend on a part of the state

`erase` takes a part of the state away, a log for example. `Erases P erase m n` says that `n` does on
what is left what `m` does on the whole: it ends in the same way, with the same result, and what it
leaves behind is what `m` leaves, with the part taken away there. It need only be so in the states
that satisfy `P`, which `m` keeps. A program that does so itself is blind to the part.
-/

namespace Infra

variable {ε σ α β : Type}

/-- From the states in `P`, `m` stays there, and `n` does the same when the state has been erased. -/
def Erases (P : σ → Prop) (erase : σ → σ) (m n : EStateM ε σ α) : Prop :=
  ∀ s, P s → P (after m s) ∧ n.run (erase s) = onState erase (m.run s)

/-- `m` behaves the same whatever `erase` takes away. -/
abbrev Blind (P : σ → Prop) (erase : σ → σ) (m : EStateM ε σ α) : Prop := Erases P erase m m

section Erases

variable {P : σ → Prop} {erase : σ → σ} {m n : EStateM ε σ α} {s : σ}

theorem Erases.bind {f g : α → EStateM ε σ β} (hm : Erases P erase m n)
    (hf : ∀ a, Erases P erase (f a) (g a)) : Erases P erase (m >>= f) (n >>= g) := by
  intro s hs
  obtain ⟨hP, hrun⟩ := hm s hs
  cases h : m.run s with
  | ok a s' =>
    have hok : n.run (erase s) = .ok a (erase s') := by rw [hrun, h]; rfl
    rw [after_of_ok h] at hP
    obtain ⟨hP', hrun'⟩ := hf a s' hP
    rw [after_bind_ok h, run_bind_of_ok h, run_bind_of_ok hok]
    exact ⟨hP', hrun'⟩
  | error e s' =>
    have herror : n.run (erase s) = .error e (erase s') := by rw [hrun, h]; rfl
    rw [after_of_error h] at hP
    rw [after_bind_error h, run_bind_of_error h, run_bind_of_error herror]
    exact ⟨hP, rfl⟩

/-- The one looks at the whole state, the other at what is left of it. -/
theorem Erases.get_bind {f g : σ → EStateM ε σ α}
    (hf : ∀ s, P s → Erases P erase (f s) (g (erase s))) :
    Erases P erase (get >>= f) (get >>= g) := fun s hs => hf s hs s hs

end Erases

/-! ## Blind programs -/

section Blind

variable {P : σ → Prop} {erase : σ → σ} {m : EStateM ε σ α} {s : σ}

/-- The state behind is erased. -/
theorem Blind.after_eq (h : Blind P erase m) (hs : P s) :
    after m (erase s) = erase (after m s) := by
  have hrun := (h s hs).2
  cases hm : m.run s with
  | ok a s' =>
    rw [hm] at hrun
    rw [after_of_ok hm, after_of_ok hrun]
  | error e s' =>
    rw [hm] at hrun
    rw [after_of_error hm, after_of_error hrun]

theorem Blind.pure (a : α) : Blind P erase (pure a : EStateM ε σ α) := fun _ hs => ⟨hs, rfl⟩

theorem Blind.throw (e : ε) : Blind P erase (throw e : EStateM ε σ α) := fun _ hs => ⟨hs, rfl⟩

/-- What is changed is not what is erased, and the change does not depend on it. -/
theorem Blind.modify {f : σ → σ} (hP : ∀ s, P s → P (f s))
    (hf : ∀ s, P s → f (erase s) = erase (f s)) :
    Blind P erase (modify f : EStateM ε σ PUnit) := by
  refine fun s hs => ⟨hP s hs, ?_⟩
  rw [EStateM.run_modify, EStateM.run_modify, hf s hs]
  rfl

theorem Blind.bind {f : α → EStateM ε σ β} (hm : Blind P erase m)
    (hf : ∀ a, Blind P erase (f a)) : Blind P erase (m >>= f) := Erases.bind hm hf

/-- What is looked at is not what is erased. -/
theorem Blind.get_bind {f : σ → EStateM ε σ α} (herase : ∀ s, P s → f (erase s) = f s)
    (hf : ∀ s, P s → Blind P erase (f s)) : Blind P erase (get >>= f) :=
  Erases.get_bind fun s hs => by
    rw [herase s hs]
    exact hf s hs

theorem Blind.ite {c : Prop} [Decidable c] {n : EStateM ε σ α} (hm : Blind P erase m)
    (hn : Blind P erase n) : Blind P erase (if c then m else n) := by
  split
  · exact hm
  · exact hn

theorem Blind.forM {f : α → EStateM ε σ PUnit} (hf : ∀ a, Blind P erase (f a)) :
    ∀ l : List α, Blind P erase (l.forM f)
  | [] => Blind.pure _
  | a :: l => Blind.bind (hf a) fun _ => Blind.forM hf l

/-- A run stays among the states, and without the part it is the same run. -/
theorem Blind.afterAll_eq {f : α → EStateM ε σ PUnit} (hf : ∀ a, Blind P erase (f a)) (hs : P s)
    (l : List α) : P (afterAll f s l) ∧ afterAll f (erase s) l = erase (afterAll f s l) := by
  induction l using List.reverseRecOn with
  | nil => exact ⟨hs, rfl⟩
  | append_singleton l a ih =>
    rw [afterAll_concat, afterAll_concat, ih.2]
    exact ⟨(hf a _ ih.1).1, (hf a).after_eq ih.1⟩

end Blind

end Infra
