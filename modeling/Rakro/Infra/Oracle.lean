import Rakro.Infra.Program

/-!
# Programs that ask an oracle

A part of the state answers questions, one after the other, and nothing else in the state depends on
it: a clock, a source of random bits, a script of replies. `Takes O m s k` says that `m`, started in
`s`, takes the first `k` answers and no others. Whatever the oracle would have answered behind them,
`m` ends in the same way, and the oracle goes on behind the `k`-th answer.

`Counts O m` says that there is such a number from every state. It composes along `bind`, so that a
program which asks through `ask` only and does not look at the oracle otherwise has it.
-/

namespace Infra

variable {ε σ ν ω α β : Type}

/-- A part `ν` of the state `σ` with its answers in `ω`. -/
structure Oracle (σ ν ω : Type) where
  part : σ → ν
  put : ν → σ → σ
  drop : Nat → ν → ν
  answer : ν → Nat → ω
  part_put : ∀ v s, part (put v s) = v
  put_put : ∀ v v' s, put v (put v' s) = put v s
  put_part : ∀ s, put (part s) s = s
  drop_zero : ∀ v, drop 0 v = v
  drop_drop : ∀ k l v, drop l (drop k v) = drop (k + l) v
  answer_drop : ∀ k v i, answer (drop k v) i = answer v (k + i)

/-- The same end with another state. -/
def onState (f : σ → σ) : EStateM.Result ε σ α → EStateM.Result ε σ α
  | .ok a s => .ok a (f s)
  | .error e s => .error e (f s)

namespace Oracle

variable (O : Oracle σ ν ω)

/-- The first `k` answers are the same. -/
def Alike (k : Nat) (v v' : ν) : Prop := ∀ i, i < k → O.answer v i = O.answer v' i

variable {O} {k l : Nat} {v v' : ν}

theorem Alike.refl (k : Nat) (v : ν) : O.Alike k v v := fun _ _ => rfl

theorem Alike.left (h : O.Alike (k + l) v v') : O.Alike k v v' := fun i hi => h i (by omega)

theorem Alike.right (h : O.Alike (k + l) v v') : O.Alike l (O.drop k v) (O.drop k v') := by
  intro i hi
  rw [O.answer_drop, O.answer_drop]
  exact h (k + i) (by omega)

end Oracle

/-- From `s`, the program `m` takes the first `k` answers and no others. -/
def Takes (O : Oracle σ ν ω) (m : EStateM ε σ α) (s : σ) (k : Nat) : Prop :=
  ∀ v, O.Alike k v (O.part s) → m.run (O.put v s) = onState (O.put (O.drop k v)) (m.run s)

section Takes

variable {O : Oracle σ ν ω} {m : EStateM ε σ α} {f : α → EStateM ε σ β} {s s' : σ} {k l : Nat}

/-- With the oracle as it is, the program leaves it behind its last answer. -/
theorem Takes.after_eq (h : Takes O m s k) :
    after m s = O.put (O.drop k (O.part s)) (after m s) := by
  have hself := h (O.part s) (.refl k _)
  rw [O.put_part] at hself
  cases hrun : m.run s with
  | ok a s' =>
    rw [hrun] at hself
    injection hself with _ hstate
    rwa [after_of_ok hrun]
  | error e s' =>
    rw [hrun] at hself
    injection hself with _ hstate
    rwa [after_of_error hrun]

/-- The answers that are left are those behind the ones taken. -/
theorem Takes.part_after (h : Takes O m s k) : O.part (after m s) = O.drop k (O.part s) := by
  rw [h.after_eq, O.part_put]

theorem Takes.part_ok {a : α} (h : Takes O m s k) (hrun : m.run s = .ok a s') :
    O.part s' = O.drop k (O.part s) := by
  rw [← after_of_ok hrun]
  exact h.part_after

/-- The answers that two parts take add up. -/
theorem Takes.bind_ok {a : α} (hm : Takes O m s k) (hrun : m.run s = .ok a s')
    (hf : Takes O (f a) s' l) : Takes O (m >>= f) s (k + l) := by
  intro v hv
  have hfirst := hm v hv.left
  rw [hrun] at hfirst
  have hrest := hf (O.drop k v) (by rw [hm.part_ok hrun]; exact hv.right)
  rw [run_bind_of_ok hfirst, run_bind_of_ok hrun]
  refine hrest.trans ?_
  rw [O.drop_drop]

theorem Takes.bind_error {e : ε} (hm : Takes O m s k) (hrun : m.run s = .error e s') :
    Takes O (m >>= f) s k := by
  intro v hv
  have hfirst := hm v hv
  rw [hrun] at hfirst
  rw [run_bind_of_error hfirst, run_bind_of_error hrun]
  rfl

/-- **The number of answers is determined**, as soon as other answers may follow on any. -/
theorem Takes.unique (hfree : ∀ v k l, k < l → ∃ v', O.Alike l v' v ∧ O.drop k v' ≠ O.drop l v')
    (hk : Takes O m s k) (hl : Takes O m s l) : k = l := by
  have hle : ∀ {k l : Nat}, Takes O m s k → Takes O m s l → ¬ k < l := by
    intro k l hk hl hlt
    obtain ⟨v, halike, hne⟩ := hfree (O.part s) k l hlt
    have hfirst := (hk v fun i hi => halike i (by omega)).symm.trans (hl v halike)
    cases hrun : m.run s <;> rw [hrun] at hfirst <;> injection hfirst with _ hstate
    all_goals
      have hpart := congrArg O.part hstate
      rw [O.part_put, O.part_put] at hpart
      exact hne hpart
  have hkl := hle hk hl
  have hlk := hle hl hk
  omega

end Takes

/-- From every state, the program takes a number of answers. -/
def Counts (O : Oracle σ ν ω) (m : EStateM ε σ α) : Prop := ∀ s, ∃ k, Takes O m s k

section Counts

variable {O : Oracle σ ν ω} {m : EStateM ε σ α}

theorem Counts.pure (a : α) : Counts O (pure a : EStateM ε σ α) := by
  refine fun s => ⟨0, fun v _ => ?_⟩
  rw [O.drop_zero]
  rfl

theorem Counts.throw (e : ε) : Counts O (throw e : EStateM ε σ α) := by
  refine fun s => ⟨0, fun v _ => ?_⟩
  rw [O.drop_zero]
  rfl

/-- What is changed is not the oracle. -/
theorem Counts.modify {f : σ → σ} (hf : ∀ v s, f (O.put v s) = O.put v (f s)) :
    Counts O (modify f : EStateM ε σ PUnit) := by
  refine fun s => ⟨0, fun v _ => ?_⟩
  rw [O.drop_zero, EStateM.run_modify, EStateM.run_modify, hf]
  rfl

theorem Counts.bind {f : α → EStateM ε σ β} (hm : Counts O m) (hf : ∀ a, Counts O (f a)) :
    Counts O (m >>= f) := by
  intro s
  obtain ⟨k, hk⟩ := hm s
  cases hrun : m.run s with
  | ok a s' =>
    obtain ⟨l, hl⟩ := hf a s'
    exact ⟨k + l, hk.bind_ok hrun hl⟩
  | error e s' => exact ⟨k, hk.bind_error hrun⟩

/-- What is looked at is not the oracle. -/
theorem Counts.get_bind {f : σ → EStateM ε σ α} (hput : ∀ v s, f (O.put v s) = f s)
    (hf : ∀ s, Counts O (f s)) : Counts O (get >>= f) := by
  intro s
  obtain ⟨k, hk⟩ := hf s s
  refine ⟨k, fun v hv => ?_⟩
  rw [run_get_bind, run_get_bind, hput]
  exact hk v hv

/-- One question. -/
theorem Counts.ask {m : EStateM ε σ ω}
    (hm : ∀ s, m.run s = .ok (O.answer (O.part s) 0) (O.put (O.drop 1 (O.part s)) s)) :
    Counts O m := by
  refine fun s => ⟨1, fun v hv => ?_⟩
  rw [hm, hm, O.part_put, O.put_put, hv 0 (by omega)]
  show _ = EStateM.Result.ok _ (O.put _ (O.put _ s))
  rw [O.put_put]

theorem Counts.ite {c : Prop} [Decidable c] {n : EStateM ε σ α} (hm : Counts O m)
    (hn : Counts O n) : Counts O (if c then m else n) := by
  split
  · exact hm
  · exact hn

theorem Counts.forM {f : α → EStateM ε σ PUnit} (hf : ∀ a, Counts O (f a)) :
    ∀ l : List α, Counts O (l.forM f)
  | [] => Counts.pure _
  | a :: l => Counts.bind (hf a) fun _ => Counts.forM hf l

end Counts

end Infra
