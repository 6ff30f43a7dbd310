import Rakro.Infra.Program

/-!
# Output

Of a program that returns, `Returns` says how the state it returns in is related to the one before,
and `Outputs` what it has added to a log that can be seen in the state.
-/

namespace Infra

variable {ε σ α β γ : Type}

/-- From `s`, the program returns in a state that `R` relates to `s`. -/
def Returns (R : σ → σ → Prop) (m : EStateM ε σ α) (s : σ) : Prop :=
  ∃ a s', m.run s = .ok a s' ∧ R s s'

/-- From `s`, the program returns, and `new` has come to what `log` shows. -/
def Outputs (log : σ → List γ) (new : List γ) (m : EStateM ε σ α) (s : σ) : Prop :=
  Returns (fun s s' => log s' = log s ++ new) m s

variable {R T U : σ → σ → Prop} {log : σ → List γ} {new more : List γ} {m n : EStateM ε σ α}
  {f : α → EStateM ε σ β} {s s' : σ} {a : α}

/-! ## How a program returns -/

theorem Returns.mono (h : Returns R m s) (hmono : ∀ s', R s s' → T s s') : Returns T m s := by
  obtain ⟨a, s', hrun, hR⟩ := h
  exact ⟨a, s', hrun, hmono s' hR⟩

/-- A program returns the way that another one does from which it cannot be told apart. -/
theorem Returns.congr (hrun : m.run s = n.run s') (hn : Returns T n s')
    (hcomp : ∀ s'', T s' s'' → R s s'') : Returns R m s := by
  obtain ⟨a, s'', hrun', hT⟩ := hn
  exact ⟨a, s'', hrun.trans hrun', hcomp s'' hT⟩

theorem Returns.bind (h : Returns R m s)
    (hf : ∀ a s', m.run s = .ok a s' → Returns T (f a) s')
    (hcomp : ∀ s' s'', R s s' → T s' s'' → U s s'') : Returns U (m >>= f) s := by
  obtain ⟨a, s', hrun, hR⟩ := h
  obtain ⟨b, s'', hrest, hT⟩ := hf a s' hrun
  exact ⟨b, s'', (run_bind_of_ok hrun).trans hrest, hcomp s' s'' hR hT⟩

/-- Behind a first part that is known, the rest is to be looked at. -/
theorem Returns.of_bind (hrun : m.run s = .ok a s') (h : Returns T (f a) s')
    (hcomp : ∀ s'', T s' s'' → U s s'') : Returns U (m >>= f) s :=
  .congr (run_bind_of_ok hrun) h hcomp

/-! ## What it adds to a log -/

/-- A run that leaves the log alone puts nothing out. -/
theorem outputs_of_run (hrun : m.run s = .ok a s') (hlog : log s' = log s) : Outputs log [] m s :=
  ⟨a, s', hrun, hlog.trans (List.append_nil _).symm⟩

/-- A value puts nothing out. -/
theorem outputs_pure (a : α) (s : σ) : Outputs log [] (pure a : EStateM ε σ α) s :=
  outputs_of_run rfl rfl

theorem Outputs.congr (h : m.run s = n.run s) (hn : Outputs log new n s) : Outputs log new m s :=
  Returns.congr h hn fun _ hlog => hlog

theorem Outputs.bind (h : Outputs log new m s)
    (hf : ∀ a s', m.run s = .ok a s' → Outputs log more (f a) s') :
    Outputs log (new ++ more) (m >>= f) s :=
  Returns.bind h hf fun _ _ hlog hlog' => by rw [hlog', hlog, List.append_assoc]

/-- A first part without output leaves it to the rest. -/
theorem Outputs.of_bind (hrun : m.run s = .ok a s') (hlog : log s' = log s)
    (h : Outputs log new (f a) s') : Outputs log new (m >>= f) s :=
  Returns.of_bind hrun h fun _ hlog' => by rw [hlog', hlog]

/-- A rest without output leaves it to the first part. -/
theorem Outputs.bind_free (h : Outputs log new m s) (hf : ∀ a s', Outputs log [] (f a) s') :
    Outputs log new (m >>= f) s := by
  have hbind := h.bind fun a s' _ => hf a s'
  rwa [List.append_nil] at hbind

end Infra
