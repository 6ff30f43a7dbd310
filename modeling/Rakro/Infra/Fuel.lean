import Rakro.Infra.Program

/-!
# Loops on fuel

A loop that is not bounded by its form takes fuel, one unit for each test of its condition. It ends
within `k` rounds when fuel for these and for the last test is enough: with any more the result is
the same, and it is none of those that stand for running out.
-/

namespace Infra

variable {ρ : Type}

/--
A loop on fuel has ended within `k` rounds: more fuel changes nothing, and what it ends with is not
the running out.
-/
structure EndsWithin (out : ρ → Prop) (loop : ℕ → ρ) (k : ℕ) : Prop where
  same : ∀ fuel, k < fuel → loop fuel = loop (k + 1)
  ends : ¬ out (loop (k + 1))

namespace EndsWithin

variable {out : ρ → Prop} {loop loop' : ℕ → ρ} {k k' : ℕ}

/-- With enough fuel, the loop does not run out. -/
theorem not_out (h : EndsWithin out loop k) {fuel : ℕ} (hlt : k < fuel) : ¬ out (loop fuel) := by
  rw [h.same fuel hlt]
  exact h.ends

theorem mono (h : EndsWithin out loop k) (hle : k ≤ k') : EndsWithin out loop k' := by
  have hsame := h.same (k' + 1) (Nat.lt_succ_of_le hle)
  refine ⟨fun fuel hlt => ?_, h.not_out (Nat.lt_succ_of_le hle)⟩
  rw [h.same fuel (Nat.lt_of_le_of_lt hle hlt), hsame]

/-- A loop whose first test is its last. -/
theorem stop {r : ρ} (h : ∀ fuel, loop (fuel + 1) = r) (hr : ¬ out r) (k : ℕ) :
    EndsWithin out loop k := by
  refine ⟨fun fuel hlt => ?_, by rwa [h]⟩
  obtain ⟨n, rfl⟩ := Nat.exists_eq_succ_of_ne_zero (Nat.ne_zero_of_lt hlt)
  rw [h, h]

/-- A loop that goes on as another one. -/
theorem round (h : ∀ fuel, loop (fuel + 1) = loop' fuel) (h' : EndsWithin out loop' k) :
    EndsWithin out loop (k + 1) := by
  refine ⟨fun fuel hlt => ?_, by rw [h]; exact h'.ends⟩
  obtain ⟨n, rfl⟩ := Nat.exists_eq_succ_of_ne_zero (Nat.ne_zero_of_lt hlt)
  rw [h, h, h'.same n (Nat.lt_of_succ_lt_succ hlt)]

variable {ε σ α β : Type} {s : σ}

/-- A round of a program ends the loop with an exception, or the loop goes on behind it. -/
theorem bind {out : EStateM.Result ε σ β → Prop} {loop : ℕ → EStateM.Result ε σ β}
    {m : EStateM ε σ α} {f : ℕ → α → EStateM ε σ β}
    (hloop : ∀ fuel, loop (fuel + 1) = (m >>= f fuel).run s)
    (hm : ∀ e s', m.run s = .error e s' → ¬ out (.error e s'))
    (hf : ∀ a s', m.run s = .ok a s' → EndsWithin out (fun fuel => (f fuel a).run s') k) :
    EndsWithin out loop (k + 1) := by
  cases hrun : m.run s with
  | ok a s' =>
    refine round (fun fuel => ?_) (hf a s' hrun)
    rw [hloop, run_bind_of_ok hrun]
  | error e s' =>
    refine stop (fun fuel => ?_) (hm e s' hrun) _
    rw [hloop, run_bind_of_error hrun]

end EndsWithin

end Infra
